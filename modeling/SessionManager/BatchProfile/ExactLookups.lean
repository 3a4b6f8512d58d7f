import SessionManager.BatchProfile.Scan

/-!
# Exact lookups

Whether a customer is looked up exactly in a well-formed directory: with a record, the record is
returned, and without one `None`.

* `eval_retrieveCusno_found`, `eval_retrieveCusno_missing` — the retrieval of a customer that is in
  the directory, and of one that is not.
* `LooksUp`, `retrieveCusno_iff` — when the directory is looked up exactly.
* `ExactLookups.not_looksUp` — a record whose `encrypted_yn` is a list.
-/

namespace SessionManager

open Python Interaction

open Program hiding pure

namespace BatchProfile

variable {rt : Runtime} {range : Bytes → Json → Json → Except PyError Bytes} {b : Bucket}

/-! ### Exact lookups -/

section Exact

variable {dataType dir : String} {records : List (Record rt)} {columns : List String}
  {labels : Dict}

/-- The record of a customer is decrypted and labelled. -/
theorem eval_retrieveCusno_found (hdoc : Documented rt range)
    (h : WellFormed rt b (objectPrefix dataType) dir records columns labels) {cusno : String}
    {record : Record rt} (hmem : record ∈ records) (hcusno : record.cusno = strip cusno) :
    (retrieveCusno rt dataType cusno).eval (b.answer range) =
      finish rt (.obj record.doc) ⟨.arr (columns.map .str), labels⟩ := by
  obtain ⟨selection, hselect, hdir, hpath, -⟩ :=
    eval_selectDirectory range h.selected (strip cusno)
  have hfetch := eval_fetchDocument_found hdoc h hmem
  have hmatch : matchCusno rt (.obj record.doc) (strip cusno) (.arr (columns.map .str)) =
      .ok true := matchCusno_of_isOf (contains_columns h.plainCusno) (hcusno ▸ record.isOf)
  have hconfirm : (confirm rt (.obj record.doc) (directory dir "bulk.jsonl") (strip cusno)
      (.arr (columns.map .str))).eval (b.answer range) = .ok (.obj record.doc) := by
    rw [confirm, eval_bind_ok _ ((eval_ofExcept _ _).trans hmatch)]
    rfl
  rw [hcusno] at hfetch
  rw [eval_retrieveCusno (hcusno ▸ record.cusno_ne) hselect,
    eval_retrieveFrom hdir hpath hfetch (eval_readMeta h), hconfirm]
  rfl

/-- A file that is named like the one of a customer holds an object: it is an index, or the
metadata. -/
theorem WellFormed.single_obj {objectPrefix : String}
    (h : WellFormed rt b objectPrefix dir records columns labels) {cusno : String}
    {data : Bytes} (hget : b.get (directory dir (cusno ++ ".json")) = some data) :
    ∃ entries, rt.jsonLoads data = .ok (.obj entries) := by
  have hsome : (b.get (directory dir (cusno ++ ".json"))).isSome := by rw [hget]; rfl
  rcases h.only _ hsome with hbulk | hmeta | ⟨cusno', hindex⟩
  · -- the names end differently
    have hlast := congrArg (fun s : String => s.toList.getLast?) hbulk
    simp at hlast
  · rw [hmeta] at hget
    rcases h.metadata with ⟨hnone, -, -⟩ | ⟨data', entries, hget', hloads, -⟩
    · cases hnone.symm.trans hget
    · rw [hget] at hget'
      exact ⟨entries, Option.some.inj hget' ▸ hloads⟩
  · rw [hindex] at hget
    rcases h.shards cusno' with ⟨data', index, hget', hloads, -⟩ | ⟨hnone, -⟩
    · rw [hget] at hget'
      exact ⟨index, Option.some.inj hget' ▸ hloads⟩
    · cases hnone.symm.trans hget

variable (range) in
/-- The candidate for a customer without a record: the file that is named like theirs. -/
theorem eval_fetchDocument_missing {objectPrefix : String}
    (h : WellFormed rt b objectPrefix dir records columns labels) {cusno : String}
    (hmissing : ∀ record ∈ records, record.cusno ≠ cusno) :
    (b.get (directory dir (cusno ++ ".json")) = none ∧
        (fetchDocument rt dir cusno).eval (b.answer range) = .ok .null) ∨
      (b.get (directory dir (cusno ++ ".json"))).isSome ∧ ∃ entries, ¬ IsOf cusno entries ∧
        (fetchDocument rt dir cusno).eval (b.answer range) = .ok (.obj entries) := by
  have hfetch : (fetchDocument rt dir cusno).eval (b.answer range) =
      (fetchSingle rt dir cusno).eval (b.answer range) := by
    rw [fetchDocument, eval_bind_ok _ (eval_fetchIndexed_missing h hmissing)]
    rfl
  rw [hfetch]
  cases hget : b.get (directory dir (cusno ++ ".json")) with
  | none => exact .inl ⟨rfl, eval_fetchSingle_missing hget⟩
  | some data =>
    obtain ⟨entries, hloads⟩ := h.single_obj hget
    exact .inr ⟨rfl, entries, h.noSingle cusno data entries hget hloads,
      eval_fetchSingle hget hloads⟩

/-- For a customer without a record there is no document, unless a file is named like theirs: then
the scan decides. -/
theorem eval_retrieveCusno_missing (hdoc : Documented rt range)
    (h : WellFormed rt b (objectPrefix dataType) dir records columns labels) {cusno : String}
    (hmissing : ∀ record ∈ records, record.cusno ≠ strip cusno) :
    (retrieveCusno rt dataType cusno).eval (b.answer range) = .ok .null ↔
      (strip cusno ≠ "" → (b.get (directory dir (strip cusno ++ ".json"))).isSome →
        Quiet rt (strip cusno) (splitlines (bulkText records))) := by
  by_cases hempty : strip cusno = ""
  · exact iff_of_true (eval_retrieveCusno_empty hempty) fun hne => absurd hempty hne
  · obtain ⟨selection, hselect, hdir, hpath, hother⟩ :=
      eval_selectDirectory range h.selected (strip cusno)
    rw [eval_retrieveCusno hempty hselect]
    -- nothing is fetched, or a document of another customer, which sends the scan
    rcases eval_fetchDocument_missing range h hmissing with
      ⟨hnone, hfetch⟩ | ⟨hsome, entries, hof, hfetch⟩
    · refine iff_of_true (eval_retrieveFrom_null hdir hpath hfetch fun huse => ?_) ?_
      · exact eval_fetchDocument_empty (h.noLatest (hother huse))
      · intro _ hsome
        rw [hnone] at hsome
        cases hsome
    · have hmatch : matchCusno rt (.obj entries) (strip cusno) (.arr (columns.map .str)) =
          .ok false := matchCusno_of_not_isOf (contains_columns h.plainCusno) hof
      have hconfirm : (confirm rt (.obj entries) (directory dir "bulk.jsonl") (strip cusno)
          (.arr (columns.map .str))).eval (b.answer range) =
            scanLines rt (strip cusno) (.arr (columns.map .str))
              (splitlines (bulkText records)) := by
        rw [confirm, eval_bind_ok _ ((eval_ofExcept _ _).trans hmatch)]
        exact eval_scanBulk hdoc h.bulk
      rw [eval_retrieveFrom hdir hpath hfetch (eval_readMeta h), hconfirm]
      rcases scanLines_cases hdoc h.plainCusno (splitlines (bulkText records)) with
        ⟨hquiet, hscan⟩ | ⟨hloud, hscan⟩
      · rw [hscan]
        exact iff_of_true rfl fun _ _ => hquiet
      · refine iff_of_false ?_ fun hquiet => hloud (hquiet hempty hsome)
        rcases hscan with hscan | ⟨entries', hscan⟩
        · rw [hscan]
          nofun
        · rw [hscan]
          intro hnull
          obtain ⟨fields, hfields⟩ := (finish_eq_ok.mp hnull).obj hdoc.cipher
          cases hfields

/-- The customer is looked up exactly: the result is their record, decrypted and labelled, or `None`
when there is no record. -/
def LooksUp (records : List (Record rt)) (metadata : Meta) (cusno : String)
    (x : Except PyError Json) : Prop :=
  (∀ record ∈ records, record.cusno = strip cusno →
    ∃ result, x = .ok result ∧ IsResult rt metadata (.obj record.doc) result) ∧
  ((∀ record ∈ records, record.cusno ≠ strip cusno) → x = .ok .null)

/-- A well-formed directory is looked up exactly if and only if the `encrypted_yn` of the customer's
record can be converted, or, when the customer has no record but a file of the directory is named
like theirs, the lines of all records are quiet. -/
theorem retrieveCusno_iff (hdoc : Documented rt range)
    (h : WellFormed rt b (objectPrefix dataType) dir records columns labels) (cusno : String) :
    LooksUp records ⟨.arr (columns.map .str), labels⟩ cusno
        ((retrieveCusno rt dataType cusno).eval (b.answer range)) ↔
      (∀ record ∈ records, record.cusno = strip cusno →
        columns = [] ∨ Convertible record.doc) ∧
      ((∀ record ∈ records, record.cusno ≠ strip cusno) → strip cusno ≠ "" →
        (b.get (directory dir (strip cusno ++ ".json"))).isSome →
          Quiet rt (strip cusno) (splitlines (bulkText records))) := by
  rw [LooksUp]
  refine and_congr (forall₃_congr fun record hmem hcusno => ?_) (forall_congr' fun hmissing => ?_)
  · rw [eval_retrieveCusno_found hdoc h hmem hcusno,
      ← finish_returns_iff hdoc.cipher record.doc labels]
    refine exists_congr fun result => ?_
    rw [← finish_eq_ok]
    exact and_self_iff
  · exact eval_retrieveCusno_missing hdoc h hmissing

end Exact

/-! ### A directory whose lookups fail

Two records in one shard, the second with a list under `encrypted_yn`, and one encrypted column. -/

theorem directory_inj {dir name name' : String} :
    directory dir name = directory dir name' ↔ name = name' := by
  simp [directory]

/-- The files of a directory, with their names in it. -/
def Bucket.inDirectory (dir : String) (files : List (String × Bytes)) : Bucket :=
  files.map fun file => (directory dir file.1, file.2)

theorem Bucket.get_inDirectory (dir name : String) (files : List (String × Bytes)) :
    (Bucket.inDirectory dir files).get (directory dir name) = files.lookup name := by
  induction files with
  | nil => rfl
  | cons file files ih =>
    have hkey : (directory dir name == directory dir file.1) = (name == file.1) := by
      rw [Bool.eq_iff_iff, beq_iff_eq, beq_iff_eq, directory_inj]
    show List.lookup _ (_ :: _) = List.lookup _ (_ :: _)
    rw [List.lookup_cons, List.lookup_cons, hkey]
    cases name == file.1 with
    | true => rfl
    | false => exact ih

/-- The same beside an object with another key. -/
theorem Bucket.get_cons_inDirectory {dir name key : String} {data : Bytes}
    {files : List (String × Bytes)} (hne : directory dir name ≠ key) :
    Bucket.get ((key, data) :: Bucket.inDirectory dir files) (directory dir name) =
      files.lookup name := by
  show List.lookup _ (_ :: _) = _
  rw [List.lookup_cons, beq_false_of_ne hne]
  exact Bucket.get_inDirectory dir name files

namespace ExactLookups

/-- The texts of the sample, with what they are decoded to. -/
def texts : List (String × Json) :=
  [("\x7b\"latest_date\":\"20250101\"\x7d", .obj [("latest_date", .str "20250101")]),
    ("\x7b\"encrypted_columns\":[\"CUSNM\"]\x7d",
      .obj [("encrypted_columns", .arr [.str "CUSNM"])]),
    ("\x7b\"1007\":[0,16],\"7\":[17,31]\x7d",
      .obj [("1007", .arr [.int 0, .int 16]), ("7", .arr [.int 17, .int 31])]),
    ("\x7b\"CUSNO\":\"1007\"\x7d", .obj [("CUSNO", .str "1007")]),
    ("\x7b\"CUSNO\":\"7\",\"encrypted_yn\":[]\x7d",
      .obj [("CUSNO", .str "7"), ("encrypted_yn", .arr [])])]

/-- The bytes without line feeds at the end. -/
def withoutNewlines (data : Bytes) : Bytes := (data.reverse.dropWhile (· = 10)).reverse

/-- A decoder of the texts of the sample, without a key store. -/
def runtime : Runtime :=
  { jsonLoads := fun data =>
      ((texts.find? fun entry => encodeUtf8 entry.1 = withoutNewlines data).map
        fun entry => entry.2).elim (.error .valueError) .ok
    hasCryptography := true
    symmKey := .error .runtimeError
    aesGcmDecrypt := fun _ _ _ => .error .invalidTag }

theorem runtime_documented : Documented runtime Json.slice := by
  refine ⟨?_, rfl, ?_, ?_, ?_, ?_⟩
  · intro data e he
    show e = .valueError
    cases hfind : (texts.find? fun entry => encodeUtf8 entry.1 = withoutNewlines data) with
    | none =>
      simp only [runtime, hfind] at he
      cases he
      rfl
    | some entry =>
      simp only [runtime, hfind] at he
      cases he
  · intro data value hvalue
    have hsame : withoutNewlines (data ++ encodeUtf8 "\n") = withoutNewlines data := by
      have hline : encodeUtf8 "\n" = [10] := rfl
      rw [withoutNewlines, hline, List.reverse_append]
      rfl
    rw [← hvalue]
    simp only [runtime, hsame]
  · intro data offset length _ hle
    show Except.ok _ = _
    rw [sliceBytes, sliceIndex, sliceIndex, if_neg (by omega), if_neg (by omega)]
    have hstop : min ((offset : ℤ) + length).toNat data.length = offset + length := by omega
    have hstart : min (offset : ℤ).toNat data.length = offset := by omega
    rw [hstop, hstart, List.drop_take, Nat.add_sub_cancel_left]
  · rintro e ⟨⟩
    rfl
  · rintro _ _ _ e ⟨⟩
    exact .inl rfl

/-- The directory of the sample. -/
def dir : String := directory (objectPrefix "daily") "20250101"

/-- Its files. -/
def files : List (String × Bytes) :=
  [("bulk.jsonl",
      encodeUtf8 "\x7b\"CUSNO\":\"1007\"\x7d\n\x7b\"CUSNO\":\"7\",\"encrypted_yn\":[]\x7d\n"),
    ("index_007.json", encodeUtf8 "\x7b\"1007\":[0,16],\"7\":[17,31]\x7d"),
    ("_meta.json", encodeUtf8 "\x7b\"encrypted_columns\":[\"CUSNM\"]\x7d")]

/-- The bucket of the sample. -/
def bucket : Bucket :=
  (directory (objectPrefix "daily") "_latest_date.json",
      encodeUtf8 "\x7b\"latest_date\":\"20250101\"\x7d") ::
    Bucket.inDirectory dir files

/-- A record that can be converted. -/
def record : Record runtime :=
  ⟨"\x7b\"CUSNO\":\"1007\"\x7d", [("CUSNO", .str "1007")], "1007", rfl, rfl, by decide, by decide⟩

/-- A record whose `encrypted_yn` is a list. -/
def recordOfList : Record runtime :=
  ⟨"\x7b\"CUSNO\":\"7\",\"encrypted_yn\":[]\x7d",
    [("CUSNO", .str "7"), ("encrypted_yn", .arr [])], "7", rfl, rfl, by decide, by decide⟩

theorem bucket_get (name : String) : bucket.get (directory dir name) = files.lookup name := by
  apply Bucket.get_cons_inDirectory
  intro heq
  have hchars := congrArg String.toList heq
  simp [dir, directory] at hchars

/-- The files of the sample are the three. -/
theorem files_lookup {name : String} {data : Bytes} (h : files.lookup name = some data) :
    name = "bulk.jsonl" ∨
      name = "index_007.json" ∧ data = encodeUtf8 "\x7b\"1007\":[0,16],\"7\":[17,31]\x7d" ∨
      name = "_meta.json" ∧ data = encodeUtf8 "\x7b\"encrypted_columns\":[\"CUSNM\"]\x7d" := by
  have hmem : (name, data) ∈ files := Bucket.mem_of_get h
  simp only [files, List.mem_cons, Prod.mk.injEq, List.not_mem_nil, or_false] at hmem
  rcases hmem with ⟨hname, -⟩ | hindex | hmeta
  · exact .inl hname
  · exact .inr (.inl hindex)
  · exact .inr (.inr hmeta)

/-- The index of a shard is the one of the sample. -/
theorem files_lookup_index {shard : String} {data : Bytes}
    (h : files.lookup ("index_" ++ shard ++ ".json") = some data) : shard = "007" := by
  rcases files_lookup h with hname | ⟨hname, -⟩ | ⟨hname, -⟩
  · have hchars := congrArg String.toList hname
    simp at hchars
  · have hsplit : "index_007.json" = "index_" ++ "007" ++ ".json" := rfl
    rw [hsplit] at hname
    exact (String.append_right_inj _).mp ((String.append_left_inj _).mp hname)
  · have hchars := congrArg String.toList hname
    simp at hchars

/-- The index of the sample. -/
theorem isShard : IsShard [record, recordOfList] "007"
    [("1007", .arr [.int 0, .int 16]), ("7", .arr [.int 17, .int 31])] := by
  refine ⟨?_, ?_⟩
  · intro before other after heq _
    rcases before with _ | ⟨first, _ | ⟨second, before⟩⟩
    · obtain ⟨rfl, -⟩ := List.cons.inj heq
      exact ⟨16, rfl, .inl rfl⟩
    · obtain ⟨rfl, htail⟩ := List.cons.inj heq
      obtain ⟨rfl, -⟩ := List.cons.inj htail
      exact ⟨31, rfl, .inl rfl⟩
    · simp at heq
  · intro cusno value hvalue
    obtain ⟨before, after, heq, -⟩ := List.lookup_eq_some_iff.mp hvalue
    have hmem : (cusno, value) ∈
        [("1007", Json.arr [.int 0, .int 16]), ("7", .arr [.int 17, .int 31])] :=
      heq ▸ List.mem_append_right before List.mem_cons_self
    simp only [List.mem_cons, Prod.mk.injEq, List.not_mem_nil, or_false] at hmem
    rcases hmem with ⟨rfl, -⟩ | ⟨rfl, -⟩
    · exact ⟨record, by simp, rfl, rfl⟩
    · exact ⟨recordOfList, by simp, rfl, rfl⟩

/-- The bucket of the sample is well-formed. -/
theorem wellFormed :
    WellFormed runtime bucket (objectPrefix "daily") dir [record, recordOfList] ["CUSNM"] [] := by
  refine ⟨?_, ?_, ?_, ?_, ?_, ?_, ?_, ?_, ?_, ?_⟩
  · exact ⟨_, [("latest_date", .str "20250101")], "20250101", List.lookup_cons_self .., rfl, rfl,
      rfl, by decide, rfl⟩
  · simp [record, recordOfList]
  · rw [bucket_get]
    rfl
  · intro cusno
    have hget : bucket.get (indexShardKey dir cusno) =
        files.lookup ("index_" ++ indexPrefix cusno ++ ".json") := bucket_get _
    rw [hget]
    by_cases hshard : indexPrefix cusno = "007"
    · refine .inl ⟨encodeUtf8 "\x7b\"1007\":[0,16],\"7\":[17,31]\x7d",
        [("1007", .arr [.int 0, .int 16]), ("7", .arr [.int 17, .int 31])], ?_, rfl, ?_⟩
      · rw [hshard]
        rfl
      · rw [hshard]
        exact isShard
    · refine .inr ⟨?_, ?_⟩
      · rw [Option.eq_none_iff_forall_ne_some]
        intro data hdata
        exact hshard (files_lookup_index hdata)
      · intro other hother
        rw [List.mem_cons, List.mem_singleton] at hother
        rcases hother with rfl | rfl
        · exact fun heq => hshard (heq.symm.trans rfl)
        · exact fun heq => hshard (heq.symm.trans rfl)
  · rw [bucket_get]
    rfl
  · exact .inr
      ⟨_, [("encrypted_columns", .arr [.str "CUSNM"])], (bucket_get _).trans rfl, rfl, rfl⟩
  · simp
  · intro name hname
    rw [bucket_get] at hname
    obtain ⟨data, hdata⟩ := Option.isSome_iff_exists.mp hname
    rcases files_lookup hdata with rfl | ⟨rfl, -⟩ | ⟨rfl, -⟩
    · exact .inl rfl
    · exact .inr (.inr ⟨"7", rfl⟩)
    · exact .inr (.inl rfl)
  · intro cusno data entries hget hloads
    rw [bucket_get] at hget
    rcases files_lookup hget with hname | ⟨-, rfl⟩ | ⟨-, rfl⟩
    · have hlast := congrArg (fun s : String => s.toList.getLast?) hname
      simp at hlast
    · obtain rfl := Json.obj.inj (Except.ok.inj hloads)
      exact fun hof => hof.1 rfl
    · obtain rfl := Json.obj.inj (Except.ok.inj hloads)
      exact fun hof => hof.1 rfl
  · intro _ name
    rw [Option.eq_none_iff_forall_ne_some]
    intro data hdata
    have hmem := Bucket.mem_of_get hdata
    simp [bucket, Bucket.inDirectory, dir, files, directory, String.ext_iff] at hmem

/-- The customer whose record has a list under `encrypted_yn` is not looked up: an exception
escapes, though `retrieve_cusno` is to return `None` on a failure. -/
theorem not_looksUp : Documented runtime Json.slice ∧
    WellFormed runtime bucket (objectPrefix "daily") dir [record, recordOfList] ["CUSNM"] [] ∧
      ¬ LooksUp [record, recordOfList] ⟨.arr [.str "CUSNM"], []⟩ "7"
        ((retrieveCusno runtime "daily" "7").eval (bucket.answer Json.slice)) := by
  refine ⟨runtime_documented, wellFormed, fun hlooks => ?_⟩
  have hmem : recordOfList ∈ [record, recordOfList] := by simp
  obtain ⟨result, hresult, -⟩ := hlooks.1 recordOfList hmem rfl
  have hcusno : recordOfList.cusno = strip "7" := rfl
  rw [eval_retrieveCusno_found runtime_documented wellFormed hmem hcusno] at hresult
  -- `int([])` is a `TypeError`
  have hraised : finish runtime (.obj recordOfList.doc) ⟨.arr (["CUSNM"].map .str), []⟩ =
      .error .typeError := rfl
  cases hraised.symm.trans hresult

/-- The other customer is looked up. -/
theorem looksUp_record : LooksUp [record, recordOfList] ⟨.arr [.str "CUSNM"], []⟩ "1007"
    ((retrieveCusno runtime "daily" "1007").eval (bucket.answer Json.slice)) := by
  refine (retrieveCusno_iff runtime_documented wellFormed "1007").mpr ⟨?_, fun hmissing => ?_⟩
  · intro other hother hcusno
    rw [List.mem_cons, List.mem_singleton] at hother
    rcases hother with rfl | rfl
    · exact .inr (.ok false)
    · exact absurd hcusno (by decide)
  · exact absurd rfl (hmissing record (by simp))

end ExactLookups

end BatchProfile

end SessionManager
