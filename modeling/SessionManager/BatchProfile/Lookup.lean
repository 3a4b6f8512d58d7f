import SessionManager.BatchProfile.Decrypted

/-!
# Lookups in well-formed directories

The outcomes of the steps of `retrieve_cusno` on a bucket, when no call fails, and on one that is
well-formed.

* `eval_request`, `eval_tryExcept_ok`, … — the outcome of a call, and of `try`.
* `eval_selectDirectory`, `eval_fetchDocument_found`, `eval_readMeta` — the steps of the retrieval.
* `eval_retrieveFrom`, `eval_retrieveCusno` — the retrieval, with or without a candidate.
-/

namespace SessionManager

open Python Interaction

open Program hiding pure

namespace BatchProfile

variable {rt : Runtime} {range : Bytes → Json → Json → Except PyError Bytes} {b : Bucket}

/-! ### Steps -/

section Steps

variable {α : Type} {answer : (c : minio.Command) → minio.Reply c}

theorem eval_request (c : Call) : (request c).eval answer = answer c := eval_ofExcept answer _

/-- A `try` that needs no handler. -/
theorem eval_tryExcept_ok {p : Retrieval α} {a : α} (h : p.eval answer = .ok a)
    (caught : List PyError) (handler : Retrieval α) :
    (tryExcept p caught handler).eval answer = .ok a := eval_catchWith_ok answer h _

/-- An exception that is handled. -/
theorem eval_tryExcept_caught {p : Retrieval α} {e : PyError} (h : p.eval answer = .error e)
    {caught : List PyError} (he : e ∈ caught) (handler : Retrieval α) :
    (tryExcept p caught handler).eval answer = handler.eval answer := by
  rw [tryExcept, eval_catchWith_error answer h, if_pos he]

/-- An object that is there. -/
theorem eval_getObject {key : String} {data : Bytes} (h : b.get key = some data) :
    (request (.getObject key)).eval (b.answer range) = .ok data := by
  rw [eval_request]
  show b.content key = .ok data
  rw [Bucket.content, h]

/-- An object that is missing. -/
theorem eval_getObject_missing {key : String} (h : b.get key = none) :
    (request (.getObject key)).eval (b.answer range) = .error .s3Error := by
  rw [eval_request]
  show b.content key = .error .s3Error
  rw [Bucket.content, h]

theorem eval_getJson {key : String} {data : Bytes} (h : b.get key = some data) :
    (getJson rt key).eval (b.answer range) = rt.jsonLoads data := by
  rw [getJson, eval_bind_ok _ (eval_getObject h), eval_ofExcept]

theorem eval_getJson_missing {key : String} (h : b.get key = none) :
    (getJson rt key).eval (b.answer range) = .error .s3Error := by
  rw [getJson, eval_bind_error _ (eval_getObject_missing h)]

end Steps

/-! ### The directory -/

theorem isdigit_ne_slash {s : String} (h : isdigit s) : '/' ∉ s.toList := by
  intro hmem
  have hall : s.toList.all _ = true := (Bool.and_eq_true_iff.mp h).2
  have hslash := List.all_eq_true.mp hall '/' hmem
  exact absurd hslash (by decide)

/-- The path of a directory, without the slash at its end. -/
theorem rstrip_slash {s : String} (h : s.toList.getLast? ≠ some '/') :
    rstrip (s ++ "/") '/' = s := by
  have hchars : (s ++ "/").toList.reverse = '/' :: s.toList.reverse := by simp
  have hkept : s.toList.reverse.dropWhile (· = '/') = s.toList.reverse := by
    rw [← List.head?_reverse] at h
    cases hrev : s.toList.reverse with
    | nil => rfl
    | cons c cs =>
      rw [hrev] at h
      have hc : c ≠ '/' := by simpa using h
      rw [List.dropWhile_cons_of_neg (by simpa using hc)]
  rw [rstrip, hchars, List.dropWhile_cons_of_pos (by simp), hkept, List.reverse_reverse,
    String.ofList_toList]

/-- The directory of a date does not end in a slash. -/
theorem getLast_directory_date {objectPrefix date : String} (hlength : date.toList.length = 8)
    (hdigits : isdigit date) : (directory objectPrefix date).toList.getLast? ≠ some '/' := by
  intro hlast
  have hne : date.toList ≠ [] := by
    intro hnil
    rw [hnil] at hlength
    cases hlength
  rw [directory, String.toList_append, List.getLast?_append_of_ne_nil _ hne] at hlast
  exact isdigit_ne_slash hdigits (List.mem_of_getLast? hlast)

theorem getLast_directory_latest (objectPrefix : String) :
    (directory objectPrefix "latest").toList.getLast? ≠ some '/' := by
  simp [directory]

/-- A directory that is selected does not end in a slash. -/
theorem Selects.getLast_ne {objectPrefix dir : String} (h : Selects rt b objectPrefix dir) :
    dir.toList.getLast? ≠ some '/' := by
  obtain ⟨data, entries, date, -, -, -, hlength, hdigits, rfl⟩ := h
  split
  · exact getLast_directory_latest objectPrefix
  · exact getLast_directory_date hlength hdigits

/-- The metadata of a directory, by the path of the directory. -/
theorem metaKey {dir : String} (h : dir.toList.getLast? ≠ some '/') :
    rstrip (dir ++ "/") '/' ++ "/_meta.json" = directory dir "_meta.json" := by
  rw [rstrip_slash h, directory, String.append_assoc]
  rfl

variable (range) in
/-- A valid `_latest_date.json` is followed. -/
theorem eval_selectDirectory {objectPrefix dir : String} (h : Selects rt b objectPrefix dir)
    (cusno : String) : ∃ selection : Selection,
      (selectDirectory rt objectPrefix cusno).eval (b.answer range) = .ok (some selection) ∧
      dir = (if selection.useLatest then directory objectPrefix "latest"
        else directory objectPrefix (selection.latestDate.getD "None")) ∧
      selection.queryPath = some (dir ++ "/") ∧
      (selection.useLatest = false → dir ≠ directory objectPrefix "latest") := by
  obtain ⟨data, entries, date, hget, hloads, hdate, hlength, hdigits, rfl⟩ := h
  have hne : date ≠ "" := by
    rintro rfl
    cases hlength
  have htext : dateText (.str date) = .ok (some date) := by
    have htruthy : (Json.str date).truthy = true := by simpa [Json.truthy] using hne
    rw [dateText, if_pos htruthy]
    show (if date.toList.length = 8 then _ else _) = _
    rw [if_pos hlength, if_pos hdigits]
  let useLatest := (Dict.get entries "use_latest").truthy
  let dir := directory objectPrefix (if useLatest then "latest" else date)
  have hselection : selectionOf objectPrefix (.obj entries) =
      .ok ⟨some date, useLatest, some (dir ++ "/")⟩ := by
    rw [selectionOf, hdate]
    show (do let date ← dateText (.str date); _) = _
    rw [htext]
    rfl
  have hdated : (selectDated rt objectPrefix).eval (b.answer range) =
      .ok (some ⟨some date, useLatest, some (dir ++ "/")⟩) := by
    rw [selectDated]
    apply eval_tryExcept_ok
    rw [eval_bind_ok _ ((eval_getJson hget).trans hloads), eval_bind, eval_ofExcept, hselection]
    rfl
  refine ⟨⟨some date, useLatest, some (dir ++ "/")⟩, ?_, ?_, rfl, ?_⟩
  · have hnonEmpty : nonEmpty (some date) = some date := by simpa [nonEmpty] using hne
    rw [selectDirectory, eval_bind_ok _ hdated]
    simp only [hnonEmpty]
    rfl
  · show directory objectPrefix (if useLatest then "latest" else date) = _
    split <;> rfl
  · intro huse heq
    -- a date has eight digits, `latest` has six letters
    have hlatest : useLatest = false := huse
    have hchars := congrArg (fun s : String => s.toList.length) heq
    simp only [directory, String.toList_append, List.length_append] at hchars
    simp only [useLatest] at hlatest
    rw [hlatest] at hchars
    simp [hlength] at hchars

/-! ### The identity of a document -/

section Identity

variable {columns : List String}

theorem contains_columns (h : "CUSNO" ∉ columns) :
    (Json.arr (columns.map .str)).contains "CUSNO" = .ok false := by
  have hany : (columns.map Json.str).any (Json.isText "CUSNO") = false := by
    rw [List.any_eq_false]
    intro item hitem
    obtain ⟨column, hcolumn, rfl⟩ := List.mem_map.mp hitem
    have hne : column ≠ "CUSNO" := fun heq => h (heq ▸ hcolumn)
    simpa [Json.isText] using hne
  show Except.ok _ = _
  rw [hany]

/-- The document of a customer is recognised, when the customer numbers are not encrypted. -/
theorem matchCusno_of_isOf {encryptedColumns : Json}
    (h : encryptedColumns.contains "CUSNO" = .ok false) {entries : Dict} {cusno : String}
    (hof : IsOf cusno entries) :
    matchCusno rt (.obj entries) cusno encryptedColumns = .ok true := by
  obtain ⟨hsome, heq⟩ := hof
  have hnone : (Dict.get entries "CUSNO").isNone = false := by
    cases hget : Dict.get entries "CUSNO" with
    | null => exact absurd hget hsome
    | _ => rfl
  have hplain : plainCusno rt (Dict.get entries "CUSNO") encryptedColumns =
      .ok (some (Dict.get entries "CUSNO")) := by
    rw [plainCusno, h]
    rfl
  show (if (Dict.get entries "CUSNO").isNone then _ else _) = _
  rw [hnone, if_neg Bool.false_ne_true, hplain]
  show Except.ok (decide _) = _
  rw [decide_eq_true heq]

/-- Any other document is refused. -/
theorem matchCusno_of_not_isOf {encryptedColumns : Json}
    (h : encryptedColumns.contains "CUSNO" = .ok false) {entries : Dict} {cusno : String}
    (hof : ¬ IsOf cusno entries) :
    matchCusno rt (.obj entries) cusno encryptedColumns = .ok false := by
  show (if (Dict.get entries "CUSNO").isNone then _ else _) = _
  by_cases hnone : (Dict.get entries "CUSNO").isNone
  · rw [if_pos hnone]
  · have hsome : Dict.get entries "CUSNO" ≠ .null := fun hnull => hnone (by rw [hnull]; rfl)
    have hne : (Dict.get entries "CUSNO").pyStr ≠ cusno := fun heq => hof ⟨hsome, heq⟩
    have hplain : plainCusno rt (Dict.get entries "CUSNO") encryptedColumns =
        .ok (some (Dict.get entries "CUSNO")) := by
      rw [plainCusno, h]
      rfl
    rw [if_neg hnone, hplain]
    show Except.ok (decide _) = _
    rw [decide_eq_false hne]

/-- The record of a customer is their document. -/
theorem Record.isOf (record : Record rt) : IsOf record.cusno record.doc := by
  rw [IsOf, record.cusno_eq]
  exact ⟨nofun, rfl⟩

end Identity

/-! ### Candidates -/

section Candidates

variable {dir cusno : String}

/-- Without the index there is no candidate. -/
theorem eval_fetchViaIndex_missing {indexKey : String} (h : b.get indexKey = none)
    (bulkKey : String) :
    (fetchViaIndex rt cusno indexKey bulkKey).eval (b.answer range) = .ok .null := by
  apply eval_tryExcept_caught (eval_bind_error _ (eval_getJson_missing h) _)
  simp [readErrors]

/-- An index without the customer gives no candidate. -/
theorem eval_fetchViaIndex_unlisted {indexKey : String} {data : Bytes} {index : Dict}
    (hget : b.get indexKey = some data) (hloads : rt.jsonLoads data = .ok (.obj index))
    (hlookup : index.lookup cusno = none) (bulkKey : String) :
    (fetchViaIndex rt cusno indexKey bulkKey).eval (b.answer range) = .ok .null := by
  apply eval_tryExcept_ok
  have hcontains : (Json.obj index).contains cusno = .ok false := by
    show Except.ok (Dict.contains index cusno) = _
    rw [Dict.contains, hlookup]
    rfl
  rw [eval_bind_ok _ ((eval_getJson hget).trans hloads), eval_bind_ok (a := false)]
  · rfl
  · rw [eval_ofExcept, hcontains]

/-- The record that an index entry points to. -/
theorem eval_fetchViaIndex_listed {indexKey bulkKey : String} {data : Bytes} {index : Dict}
    {offset length value : Json} (hget : b.get indexKey = some data)
    (hloads : rt.jsonLoads data = .ok (.obj index))
    (hlookup : index.lookup cusno = some (.arr [offset, length]))
    (hsent : (b.answer range (.getRange bulkKey offset length) >>= rt.jsonLoads) = .ok value) :
    (fetchViaIndex rt cusno indexKey bulkKey).eval (b.answer range) = .ok value := by
  apply eval_tryExcept_ok
  have hcontains : (Json.obj index).contains cusno = .ok true := by
    show Except.ok (Dict.contains index cusno) = _
    rw [Dict.contains, hlookup]
    rfl
  have hitem : (Json.obj index).item cusno = .ok (.arr [offset, length]) := by
    rw [Json.item, hlookup]
  have hfetch : (fetchRange rt bulkKey offset length).eval (b.answer range) = .ok value := by
    apply eval_tryExcept_ok
    rw [eval_bind, eval_request, ← hsent]
    exact congrArg _ (funext fun data => eval_ofExcept _ _)
  rw [eval_bind_ok _ ((eval_getJson hget).trans hloads), eval_bind_ok (a := true)]
  · rw [if_pos rfl, eval_bind_ok _ ((eval_ofExcept _ _).trans hitem),
      eval_bind_ok (a := (offset, length))]
    · exact hfetch
    · exact eval_ofExcept _ _
  · rw [eval_ofExcept, hcontains]

/-- Without an index of all records the candidate is the one of the shard. -/
theorem eval_fetchIndexed {doc : Json} (hnone : b.get (directory dir "index.json") = none)
    (hshard : (fetchViaIndex rt cusno (indexShardKey dir cusno) (directory dir "bulk.jsonl")).eval
      (b.answer range) = .ok doc) :
    (fetchIndexed rt dir cusno).eval (b.answer range) = .ok doc := by
  apply eval_tryExcept_ok
  rw [eval_bind_ok _ hshard]
  cases doc with
  | null => exact eval_fetchViaIndex_missing hnone _
  | _ => rfl

theorem eval_fetchSingle_missing (h : b.get (directory dir (cusno ++ ".json")) = none) :
    (fetchSingle rt dir cusno).eval (b.answer range) = .ok .null :=
  eval_tryExcept_caught (eval_getJson_missing h) (by simp [readErrors]) _

theorem eval_fetchSingle {data : Bytes} {value : Json}
    (h : b.get (directory dir (cusno ++ ".json")) = some data)
    (hloads : rt.jsonLoads data = .ok value) :
    (fetchSingle rt dir cusno).eval (b.answer range) = .ok value :=
  eval_tryExcept_ok ((eval_getJson h).trans hloads) _ _

/-- An empty directory has no candidate. -/
theorem eval_fetchDocument_empty (h : ∀ name, b.get (directory dir name) = none) :
    (fetchDocument rt dir cusno).eval (b.answer range) = .ok .null := by
  have hindexed : (fetchIndexed rt dir cusno).eval (b.answer range) = .ok .null :=
    eval_fetchIndexed (h _) (eval_fetchViaIndex_missing (h _) _)
  rw [fetchDocument, eval_bind_ok _ hindexed]
  exact eval_fetchSingle_missing (h _)

end Candidates

/-! ### A well-formed directory -/

section WellFormed

variable {objectPrefix dir : String} {records : List (Record rt)} {columns : List String}
  {labels : Dict}

/-- The candidate for a customer with a record is the record. -/
theorem eval_fetchDocument_found (hdoc : Documented rt range)
    (h : WellFormed rt b objectPrefix dir records columns labels) {record : Record rt}
    (hmem : record ∈ records) :
    (fetchDocument rt dir record.cusno).eval (b.answer range) = .ok (.obj record.doc) := by
  obtain ⟨before, after, hrecords⟩ := List.append_of_mem hmem
  rcases h.shards record.cusno with ⟨data, index, hget, hloads, hshard⟩ | ⟨-, hnone⟩
  · obtain ⟨length, hlookup, hlength⟩ := hshard.complete before record after hrecords rfl
    have hbulk : b.content (directory dir "bulk.jsonl") =
        .ok (encodeUtf8 (bulkText (before ++ record :: after))) := by
      rw [Bucket.content, h.bulk, hrecords]
    have hsent : (b.answer range (.getRange (directory dir "bulk.jsonl")
        (.int (encodeUtf8 (bulkText before)).length) (.int length)) >>= rt.jsonLoads) =
          .ok (.obj record.doc) := by
      show ((b.content _ >>= fun data => range data _ _) >>= rt.jsonLoads) = _
      rw [hbulk]
      exact range_of_entry hdoc before after record hlength
    have hindexed := eval_fetchIndexed h.noIndex
      (eval_fetchViaIndex_listed hget hloads hlookup hsent)
    rw [fetchDocument, eval_bind_ok _ hindexed]
    rfl
  · exact absurd rfl (hnone record hmem)

/-- The indexes have no candidate for a customer without a record. -/
theorem eval_fetchIndexed_missing (h : WellFormed rt b objectPrefix dir records columns labels)
    {cusno : String} (hmissing : ∀ record ∈ records, record.cusno ≠ cusno) :
    (fetchIndexed rt dir cusno).eval (b.answer range) = .ok .null := by
  apply eval_fetchIndexed h.noIndex
  rcases h.shards cusno with ⟨data, index, hget, hloads, hshard⟩ | ⟨hget, -⟩
  · apply eval_fetchViaIndex_unlisted hget hloads
    rw [Option.eq_none_iff_forall_ne_some]
    intro value hvalue
    obtain ⟨record, hmem, heq, -⟩ := hshard.sound cusno value hvalue
    exact hmissing record hmem heq
  · exact eval_fetchViaIndex_missing hget _

/-- The metadata of the directory. -/
theorem eval_readMeta (h : WellFormed rt b objectPrefix dir records columns labels) :
    (readMeta rt (dir ++ "/")).eval (b.answer range) = .ok ⟨.arr (columns.map .str), labels⟩ := by
  rw [readMeta, metaKey h.selected.getLast_ne]
  rcases h.metadata with ⟨hget, rfl, rfl⟩ | ⟨data, entries, hget, hloads, hmeta⟩
  · rw [eval_tryExcept_caught (eval_bind_error _ (eval_getJson_missing hget) _)
      (by simp [readErrors])]
    rfl
  · apply eval_tryExcept_ok
    rw [eval_bind_ok _ ((eval_getJson hget).trans hloads), eval_ofExcept, hmeta]

end WellFormed

/-! ### The retrieval -/

section Retrieval

variable {pre dir cusno : String} {selection : Selection}

/-- The directory that is looked in. -/
theorem retrieveFrom_eq
    (hdir : dir = (if selection.useLatest then directory pre "latest"
      else directory pre (selection.latestDate.getD "None")))
    (hpath : selection.queryPath = some (dir ++ "/")) :
    retrieveFrom rt pre selection cusno = (do
      let (doc, usedFallback) ← fetchAnywhere rt dir
        (if selection.useLatest then none else some (directory pre "latest")) cusno
      if doc.isNone then pure .null
      else
        let metadata ← readMeta rt
          (if usedFallback then directory pre "latest" ++ "/" else dir ++ "/")
        let bulkKey := directory (if usedFallback then directory pre "latest" else dir) "bulk.jsonl"
        let doc ← confirm rt doc bulkKey cusno metadata.encryptedColumns
        if doc.isNone then pure .null else Program.ofExcept (finish rt doc metadata)) := by
  have hnonEmpty : nonEmpty (some (dir ++ "/")) = some (dir ++ "/") := by simp [nonEmpty]
  rw [retrieveFrom, hpath, hnonEmpty, hdir]
  rfl

/-- A candidate of the directory is confirmed and finished with its metadata. -/
theorem eval_retrieveFrom
    (hdir : dir = (if selection.useLatest then directory pre "latest"
      else directory pre (selection.latestDate.getD "None")))
    (hpath : selection.queryPath = some (dir ++ "/")) {entries : Dict} {metadata : Meta}
    (hfetch : (fetchDocument rt dir cusno).eval (b.answer range) = .ok (.obj entries))
    (hmeta : (readMeta rt (dir ++ "/")).eval (b.answer range) = .ok metadata) :
    (retrieveFrom rt pre selection cusno).eval (b.answer range) =
      (confirm rt (.obj entries) (directory dir "bulk.jsonl") cusno
        metadata.encryptedColumns).eval (b.answer range) >>= fun doc =>
          if doc.isNone then .ok .null else finish rt doc metadata := by
  have hanywhere (fallback : Option String) :
      (fetchAnywhere rt dir fallback cusno).eval (b.answer range) = .ok (.obj entries, false) := by
    rw [fetchAnywhere, eval_bind_ok _ hfetch]
    rfl
  rw [retrieveFrom_eq hdir hpath, eval_bind_ok _ (hanywhere _)]
  show (readMeta rt (dir ++ "/") >>= _).eval _ = _
  rw [eval_bind_ok _ hmeta, eval_bind]
  congr 1
  funext doc
  cases doc with
  | null => rfl
  | _ => exact eval_ofExcept _ _

/-- Without any candidate there is no document. -/
theorem eval_retrieveFrom_null
    (hdir : dir = (if selection.useLatest then directory pre "latest"
      else directory pre (selection.latestDate.getD "None")))
    (hpath : selection.queryPath = some (dir ++ "/"))
    (hfetch : (fetchDocument rt dir cusno).eval (b.answer range) = .ok .null)
    (hlatest : selection.useLatest = false →
      (fetchDocument rt (directory pre "latest") cusno).eval (b.answer range) = .ok .null) :
    (retrieveFrom rt pre selection cusno).eval (b.answer range) = .ok .null := by
  have hanywhere : (fetchAnywhere rt dir
      (if selection.useLatest then none else some (directory pre "latest")) cusno).eval
        (b.answer range) = .ok (.null, false) := by
    rw [fetchAnywhere, eval_bind_ok _ hfetch]
    cases huse : selection.useLatest with
    | true => rfl
    | false =>
      show (fetchDocument rt (directory pre "latest") cusno >>= _).eval _ = _
      rw [eval_bind_ok _ (hlatest huse)]
      rfl
  rw [retrieveFrom_eq hdir hpath, eval_bind_ok _ hanywhere]
  rfl

theorem eval_createClient : createClient.eval (b.answer range) = .ok true := rfl

/-- Once a directory is selected, the retrieval is the one from it. -/
theorem eval_retrieveCusno {dataType : String} (hne : strip cusno ≠ "")
    (hselect : (selectDirectory rt (objectPrefix dataType) (strip cusno)).eval (b.answer range) =
      .ok (some selection)) :
    (retrieveCusno rt dataType cusno).eval (b.answer range) =
      (retrieveFrom rt (objectPrefix dataType) selection (strip cusno)).eval (b.answer range) := by
  rw [retrieveCusno, eval_bind_ok _ eval_createClient, if_pos rfl, if_neg hne,
    eval_bind_ok _ hselect]

/-- No customer has an empty number. -/
theorem eval_retrieveCusno_empty {dataType : String} (hempty : strip cusno = "") :
    (retrieveCusno rt dataType cusno).eval (b.answer range) = .ok .null := by
  rw [retrieveCusno, eval_bind_ok _ eval_createClient, if_pos rfl, if_pos hempty]
  rfl

end Retrieval

end BatchProfile

end SessionManager
