import SessionManager.BatchProfile.OneDirectory
import SessionManager.BatchProfile.Shapes

/-!
# Buckets that make the retrieval raise

`retrieve_cusno` is to return a document or `None` whatever a bucket holds and whichever calls fail.
It does if and only if the files that it may read have shapes that it can handle.

* `DateShaped`, `Selectable`, `meets_selectDirectory` — the selection of a directory.
* `BucketShaped`, `retrieveCusno_returns_iff` — the buckets that raise nothing.
* `MalformedData.not_returns` — one that does.
-/

namespace SessionManager

open Python Interaction

open Program hiding pure

namespace BatchProfile

variable {rt : Runtime} {range : Bytes → Json → Json → Except PyError Bytes} {b : Bucket}
  {cusno pre : String}

/-! ### The selection -/

/-- A value whose length can be taken, and which is a text if that is eight. -/
def DateValue : Json → Prop
  | .str _ => True
  | .arr items => items.length ≠ 8
  | .obj entries => entries.length ≠ 8
  | _ => False

/-- A `_latest_date.json` with a date, or without a `load_date` that is no text. -/
def DateShaped : Json → Prop
  | .obj entries =>
    if (Dict.get entries "latest_date").truthy then DateValue (Dict.get entries "latest_date")
    else ∀ value, entries.lookup "load_date" = some value → ∃ s, value = .str s
  | _ => False

/-- The selection from a listing. -/
def listedSelection (b : Bucket) (pre : String) : Selection :=
  let dateDir := newestDateDir pre (b.listing (directory pre ""))
  { latestDate := dateDir
    useLatest := false
    queryPath := dateDir.map fun dateDir => directory pre dateDir ++ "/" }

/-- The selection of `latest/`. -/
def latestSelection (pre : String) : Selection :=
  { latestDate := some "latest"
    useLatest := true
    queryPath := some (directory pre "latest" ++ "/") }

/-- What `_latest_date.json` or a listing selects. -/
def Proposed (rt : Runtime) (b : Bucket) (pre : String) (selection : Selection) : Prop :=
  (∃ json, Holds rt b (directory pre "_latest_date.json") json ∧
    selectionOf pre json = .ok selection) ∨ selection = listedSelection b pre

/-- The selections that the retrieval may go on with: `latest/` only when no date is found. -/
def Selectable (rt : Runtime) (b : Bucket) (pre cusno : String) (selection : Selection) : Prop :=
  Proposed rt b pre selection ∧ nonEmpty selection.latestDate ≠ none ∨
    (∃ undated, Proposed rt b pre undated ∧ nonEmpty undated.latestDate = none) ∧
      (b.get (indexShardKey (directory pre "latest") cusno)).isSome ∧
        selection = latestSelection pre

section Selecting

/-- A value that is no date raises unless its length can be taken, and is not that of one. -/
theorem dateText_cases (date : Json) :
    ((date.truthy → DateValue date) ∧ ∃ text, dateText date = .ok text) ∨
      (¬ (date.truthy → DateValue date)) ∧
        ∃ e ∈ shapeErrors, dateText date = .error e := by
  rw [dateText.eq_def]
  by_cases htruthy : date.truthy
  · rw [if_pos htruthy, forall_prop_of_true htruthy]
    -- a list or an object has a length, and fails only where that length is 8
    cases date with
    | str s =>
      refine .inl ⟨trivial, ?_⟩
      show ∃ text, (if s.toList.length = 8 then _ else _) = _
      split
      · exact ⟨_, rfl⟩
      · exact ⟨none, rfl⟩
    | arr items =>
      show (items.length ≠ 8 ∧ ∃ text, (if items.length = 8 then _ else _) = _) ∨
        ¬ items.length ≠ 8 ∧ ∃ e ∈ _, (if items.length = 8 then _ else _) = _
      by_cases hlength : items.length = 8
      · rw [if_pos hlength]
        exact .inr ⟨not_not.mpr hlength, .attributeError, by decide, rfl⟩
      · rw [if_neg hlength]
        exact .inl ⟨hlength, none, rfl⟩
    | obj entries =>
      show (entries.length ≠ 8 ∧ ∃ text, (if entries.length = 8 then _ else _) = _) ∨
        ¬ entries.length ≠ 8 ∧ ∃ e ∈ _, (if entries.length = 8 then _ else _) = _
      by_cases hlength : entries.length = 8
      · rw [if_pos hlength]
        exact .inr ⟨not_not.mpr hlength, .attributeError, by decide, rfl⟩
      · rw [if_neg hlength]
        exact .inl ⟨hlength, none, rfl⟩
    | _ => exact .inr ⟨id, .typeError, by decide, rfl⟩
  · rw [if_neg htruthy]
    exact .inl ⟨fun h => absurd h htruthy, none, rfl⟩

/-- A `load_date` that is a text gives a text, and any other one raises. -/
theorem loadDate_cases (entries : Dict) :
    ((∀ value, entries.lookup "load_date" = some value → ∃ s, value = .str s) ∧
        ∃ s, loadDate entries = .ok (.str s)) ∨
      (¬ ∀ value, entries.lookup "load_date" = some value → ∃ s, value = .str s) ∧
        loadDate entries = .error .attributeError := by
  rw [loadDate]
  -- the default is a text, and only texts have `replace`
  cases hlookup : entries.lookup "load_date" with
  | none => exact .inl ⟨nofun, "", rfl⟩
  | some value =>
    cases value with
    | str s =>
      refine .inl ⟨?_, _, rfl⟩
      rintro _ ⟨⟩
      exact ⟨s, rfl⟩
    | _ => exact .inr ⟨fun h => (nomatch (h _ rfl).choose_spec), rfl⟩

/-- The date of a `_latest_date.json`. -/
theorem latestDate_cases (entries : Dict) :
    (DateShaped (.obj entries) ∧ ∃ text, (latestDate entries >>= dateText) = .ok text) ∨
      ¬ DateShaped (.obj entries) ∧ ∃ e ∈ shapeErrors,
        (latestDate entries >>= dateText) = .error e := by
  rw [latestDate, DateShaped]
  by_cases htruthy : (Dict.get entries "latest_date").truthy
  · rw [if_pos htruthy, if_pos htruthy]
    have hcases := dateText_cases (Dict.get entries "latest_date")
    rwa [forall_prop_of_true htruthy] at hcases
  · rw [if_neg htruthy, if_neg htruthy]
    -- no usable `latest_date`: the date is taken from `load_date`
    rcases loadDate_cases entries with ⟨hshaped, s, hs⟩ | ⟨hshaped, herror⟩
    · rw [hs]
      rcases dateText_cases (.str s) with ⟨-, htext⟩ | ⟨hvalue, -⟩
      · exact .inl ⟨hshaped, htext⟩
      · exact absurd (fun _ => trivial) hvalue
    · rw [herror]
      exact .inr ⟨hshaped, .attributeError, by decide, rfl⟩

/-- A `_latest_date.json` of another shape raises what is not handled. -/
theorem selectionOf_cases (pre : String) (json : Json) :
    (DateShaped json ∧ ∃ selection, selectionOf pre json = .ok selection) ∨
      ¬ DateShaped json ∧
        ∃ e ∈ shapeErrors, selectionOf pre json = .error e := by
  cases json with
  | obj entries =>
    rw [selectionOf, ← bind_assoc]
    rcases latestDate_cases entries with ⟨hshaped, text, htext⟩ | ⟨hshaped, e, he, herror⟩
    · rw [htext]
      exact .inl ⟨hshaped, _, rfl⟩
    · rw [herror]
      exact .inr ⟨hshaped, e, he, rfl⟩
  | _ => exact .inr ⟨id, .attributeError, by decide, rfl⟩

variable {Q : Option Selection → Prop}

theorem meets_selectListed : (selectListed pre).Meets (b.MayReply range) Q Never ↔
    Q none ∧ Q (some (listedSelection b pre)) := by
  rw [selectListed, meets_tryExcept]
  refine (meets_bind.trans meets_listObjects).trans ?_
  rw [if_pos (by decide), if_pos (by decide)]
  constructor
  · rintro ⟨hlisted, hnone, -⟩
    exact ⟨hnone, hlisted⟩
  · rintro ⟨hnone, hlisted⟩
    exact ⟨hlisted, hnone, hnone⟩

theorem meets_selectLatest : (selectLatest pre cusno).Meets (b.MayReply range) Q Never ↔
    Q none ∧ ((b.get (indexShardKey (directory pre "latest") cusno)).isSome →
      Q (some (latestSelection pre))) := by
  rw [selectLatest, meets_tryExcept]
  refine (meets_bind.trans meets_statObject).trans ?_
  rw [if_pos (by decide), if_pos (by decide)]
  constructor
  · rintro ⟨hlatest, hnone, -⟩
    exact ⟨hnone, hlatest⟩
  · rintro ⟨hnone, hlatest⟩
    exact ⟨hlatest, hnone, hnone⟩

variable (hjson : ∀ data e, rt.jsonLoads data = .error e → e = .valueError)

include hjson

theorem meets_selectDated : (selectDated rt pre).Meets (b.MayReply range) Q Never ↔
    Q none ∧ (∀ json, Holds rt b (directory pre "_latest_date.json") json → DateShaped json) ∧
      ∀ selection, Proposed rt b pre selection → Q (some selection) := by
  rw [selectDated, meets_read hjson (List.Subset.refl _), meets_selectListed]
  simp only [meets_ofExcept_bind]
  constructor
  · rintro ⟨⟨hnone, hlisted⟩, hholds⟩
    refine ⟨hnone, fun json hjson => ?_, ?_⟩
    · rcases selectionOf_cases pre json with ⟨hshaped, -⟩ | ⟨-, e, he, herror⟩
      · exact hshaped
      · exact absurd ((hholds json hjson).2 e herror) (not_handled readErrors_subset he id _)
    · -- the object with the date was read, or the partitions are listed in its place
      rintro selection (⟨json, hjson, hselection⟩ | rfl)
      · exact (hholds json hjson).1 selection hselection
      · exact hlisted
  · rintro ⟨hnone, hshaped, hproposed⟩
    refine ⟨⟨hnone, hproposed _ (.inr rfl)⟩, fun json hjson => ⟨fun selection hselection =>
      hproposed selection (.inl ⟨json, hjson, hselection⟩), fun e herror => ?_⟩⟩
    rcases selectionOf_cases pre json with ⟨-, selection, hselection⟩ | ⟨hnot, -⟩
    · cases hselection.symm.trans herror
    · exact absurd (hshaped json hjson) hnot

/-- The selection: it may always be none. -/
theorem meets_selectDirectory : (selectDirectory rt pre cusno).Meets (b.MayReply range) Q Never ↔
    Q none ∧ (∀ json, Holds rt b (directory pre "_latest_date.json") json → DateShaped json) ∧
      ∀ selection, Selectable rt b pre cusno selection → Q (some selection) := by
  rw [selectDirectory, meets_bind, meets_selectDated hjson]
  constructor
  · rintro ⟨hnone, hshaped, hproposed⟩
    refine ⟨hnone, hshaped, ?_⟩
    rintro selection (⟨hselection, hdated⟩ | ⟨⟨undated, hundated, hdate⟩, hlatest, rfl⟩)
    · obtain ⟨date, hdate⟩ := Option.ne_none_iff_exists'.mp hdated
      have hnext := hproposed selection hselection
      simp only [hdate] at hnext
      exact hnext
    · have hnext := hproposed undated hundated
      simp only [hdate] at hnext
      exact (meets_selectLatest.mp hnext).2 hlatest
  · rintro ⟨hnone, hshaped, hselectable⟩
    refine ⟨hnone, hshaped, fun selection hselection => ?_⟩
    cases hdate : nonEmpty selection.latestDate with
    | none =>
      -- without a date the selection is that of `latest/`
      simp only [hdate]
      exact meets_selectLatest.mpr ⟨hnone, fun hlatest =>
        hselectable _ (.inr ⟨⟨selection, hselection, hdate⟩, hlatest, rfl⟩)⟩
    | some date =>
      simp only [hdate]
      exact hselectable selection (.inl ⟨hselection, by simp [hdate]⟩)

end Selecting

/-! ### The directories -/

/-- The directories that may be looked in: the one that is selected, and `latest/` after one of a
date. -/
def Consulted (rt : Runtime) (b : Bucket) (pre cusno dir : String) : Prop :=
  ∃ selection, Selectable rt b pre cusno selection ∧
    (selection.Names pre dir ∨ selection.useLatest = false ∧ dir = directory pre "latest")

section Directories

variable {selection : Selection} {dir : String}

/-- The retrieval goes on with a selection only if it is of a directory. -/
theorem Selectable.names (h : Selectable rt b pre cusno selection) :
    ∃ dir, selection.Names pre dir := by
  rcases h with ⟨hproposed, hdated⟩ | ⟨-, -, rfl⟩
  · obtain ⟨date, hdate⟩ := Option.ne_none_iff_exists'.mp hdated
    have hlatest : selection.latestDate = some date := (Option.filter_eq_some_iff.mp hdate).1
    rcases hproposed with ⟨json, -, hselection⟩ | rfl
    · rcases names_of_selectionOf hselection hlatest with hnames | hnames
      · exact ⟨_, hnames⟩
      · exact ⟨_, hnames⟩
    · have hnewest : newestDateDir pre (b.listing (directory pre "")) = some date := hlatest
      rw [listedSelection, hnewest]
      exact ⟨_, Selection.names_date pre (isDate_of_newestDateDir hnewest)⟩
  · exact ⟨_, Selection.names_latest pre (some "latest")⟩

theorem Selection.Names.unique {dir' : String} (h : selection.Names pre dir)
    (h' : selection.Names pre dir') : dir = dir' := h.1.trans h'.1.symm

variable (hjson : ∀ data e, rt.jsonLoads data = .error e → e = .valueError)
  (hrange : ∀ data offset length, RaisesOnly storeErrors (range data offset length))
  (hcipher : CipherDocumented rt)

include hjson hrange hcipher

/-- What follows the candidate of a directory. -/
theorem meets_fetched {Q : Json → Prop} (hdir : dir.toList.getLast? ≠ some '/')
    (hnull : Q .null) (hQ : ∀ candidate, candidate ≠ .null → (Q candidate ↔
      (readMeta rt (dir ++ "/") >>= fun metadata =>
        confirm rt candidate (directory dir "bulk.jsonl") cusno metadata.encryptedColumns >>=
          fun doc => if doc.isNone then pure .null
            else Program.ofExcept (finish rt doc metadata)).Meets (b.MayReply range)
              IsProfile Never)) :
    (fetchDocument rt dir cusno).Meets (b.MayReply range) Q Never ↔
      DirectoryShaped rt range b dir cusno := by
  refine (offers_fetchDocument hjson hrange (R := Never) id Q).trans ?_
  rw [and_iff_right hnull, DirectoryShaped]
  refine and_congr_right fun _ => forall₂_congr fun candidate _ => ?_
  constructor
  · intro h hsome
    exact (meets_candidate hjson hcipher hdir candidate).mp ((hQ candidate hsome).mp h)
  · intro h
    -- null is answered as it is, every other candidate goes on to its confirmation
    by_cases hsome : candidate = .null
    · exact hsome ▸ hnull
    · exact (hQ candidate hsome).mpr ((meets_candidate hjson hcipher hdir candidate).mpr (h hsome))

/-- The retrieval from the selected directory, and from `latest/` after one of a date. -/
theorem meets_retrieveFrom (hnames : selection.Names pre dir) :
    (retrieveFrom rt pre selection cusno).Meets (b.MayReply range) IsProfile Never ↔
      DirectoryShaped rt range b dir cusno ∧ (selection.useLatest = false →
        DirectoryShaped rt range b (directory pre "latest") cusno) := by
  obtain ⟨hdir, hpath, hlast⟩ := hnames
  rw [retrieveFrom_eq hdir hpath, meets_bind, fetchAnywhere, meets_bind]
  -- without `use_latest` the directory `latest/` is read after the selected one
  cases huse : selection.useLatest with
  | true =>
    refine (meets_fetched hjson hrange hcipher hlast (.inl rfl) fun candidate hsome => ?_).trans
      (and_iff_left fun h => Bool.noConfusion h).symm
    cases candidate with
    | null => exact absurd rfl hsome
    | _ => exact Iff.rfl
  | false =>
    rw [forall_prop_of_true rfl, (offers_fetchDocument hjson hrange id).meets_iff]
    refine and_congr ?_ ?_
    · refine meets_fetched hjson hrange hcipher hlast (fun h => absurd rfl h)
        fun candidate hsome => ?_
      rw [forall_prop_of_true hsome]
      cases candidate with
      | null => exact absurd rfl hsome
      | _ => exact Iff.rfl
    · refine (meets_bind.trans (meets_fetched hjson hrange hcipher (getLast_directory_latest pre)
        (.inl rfl) fun candidate hsome => ?_))
      cases candidate with
      | null => exact absurd rfl hsome
      | _ => exact Iff.rfl

end Directories

/-! ### The retrieval -/

/-- The files of a bucket have shapes that the retrieval can handle: the date, and the files of
every directory that may be looked in. -/
def BucketShaped (rt : Runtime) (range : Bytes → Json → Json → Except PyError Bytes) (b : Bucket)
    (pre cusno : String) : Prop :=
  (∀ json, Holds rt b (directory pre "_latest_date.json") json → DateShaped json) ∧
    ∀ dir, Consulted rt b pre cusno dir → DirectoryShaped rt range b dir cusno

section Retrieval

variable (hjson : ∀ data e, rt.jsonLoads data = .error e → e = .valueError)
  (hrange : ∀ data offset length, RaisesOnly storeErrors (range data offset length))
  (hcipher : CipherDocumented rt)

theorem meets_createClient {Q : Bool → Prop} :
    createClient.Meets (b.MayReply range) Q Never ↔ Q true ∧ Q false := by
  rw [createClient, meets_tryExcept]
  refine (meets_bind.trans meets_connect).trans ?_
  rw [if_pos (by decide)]
  exact Iff.rfl

include hjson hrange hcipher

theorem meets_retrieveCusno {dataType : String} :
    (retrieveCusno rt dataType cusno).Meets (b.MayReply range) IsProfile Never ↔
      (strip cusno ≠ "" → BucketShaped rt range b (objectPrefix dataType) (strip cusno)) := by
  have hnull : IsProfile .null := .inl rfl
  rw [retrieveCusno, meets_bind, meets_createClient, if_pos rfl, if_neg Bool.false_ne_true]
  refine (and_iff_left hnull).trans ?_
  by_cases hempty : strip cusno = ""
  · rw [if_pos hempty]
    exact iff_of_true hnull fun hne => absurd hempty hne
  · rw [if_neg hempty, forall_prop_of_true hempty, meets_bind, meets_selectDirectory hjson]
    refine (and_iff_right hnull).trans (and_congr_right fun _ => ?_)
    constructor
    · -- every directory that is read comes from a selection that the store may propose
      rintro h dir ⟨selection, hselection, hdir⟩
      obtain ⟨selected, hnames⟩ := hselection.names
      have hshaped := (meets_retrieveFrom hjson hrange hcipher hnames).mp (h selection hselection)
      rcases hdir with hnames' | ⟨huse, rfl⟩
      · exact hnames.unique hnames' ▸ hshaped.1
      · exact hshaped.2 huse
    · intro h selection hselection
      obtain ⟨selected, hnames⟩ := hselection.names
      exact (meets_retrieveFrom hjson hrange hcipher hnames).mpr
        ⟨h selected ⟨selection, hselection, .inl hnames⟩, fun huse =>
          h _ ⟨selection, hselection, .inr ⟨huse, rfl⟩⟩⟩

/-- The lookup returns a document or `None`, whichever calls fail, if and only if there is no
customer number or the files of the bucket are shaped. -/
theorem retrieveCusno_returns_iff (b : Bucket) (dataType cusno : String) :
    (∀ x, (retrieveCusno rt dataType cusno).Ends (b.MayReply range) x →
        ∃ value, x = .ok value ∧ IsProfile value) ↔
      (strip cusno ≠ "" → BucketShaped rt range b (objectPrefix dataType) (strip cusno)) := by
  rw [← meets_retrieveCusno hjson hrange hcipher, meets_iff_ends]
  constructor
  · intro h
    refine ⟨fun value hvalue => ?_, fun e he => ?_⟩
    · obtain ⟨_, ⟨⟩, hprofile⟩ := h _ hvalue
      exact hprofile
    · obtain ⟨_, heq, -⟩ := h _ he
      cases heq
  · rintro ⟨hok, herror⟩ x hx
    cases x with
    | ok value => exact ⟨value, rfl, hok value hx⟩
    | error e => exact (herror e hx).elim

end Retrieval

/-! ### A bucket without an object under its date -/

namespace MalformedData

/-- A record. -/
def record : String := "\x7b\"CUSNO\":\"1\"\x7d"

/-- What it is decoded to. -/
def doc : Dict := [("CUSNO", .str "1")]

/-- A decoder of the record and of `[]`, without a key store. -/
def runtime : Runtime :=
  { jsonLoads := fun data =>
      if data = encodeUtf8 record then .ok (.obj doc)
      else if data = encodeUtf8 "[]" then .ok (.arr [])
      else .error .valueError
    hasCryptography := true
    symmKey := .error .runtimeError
    aesGcmDecrypt := fun _ _ _ => .error .invalidTag }

/-- A server that sends ranges of whole numbers. -/
def sendRange (data : Bytes) (offset length : Json) : Except PyError Bytes :=
  match Json.slice data offset length with
  | .ok line => .ok line
  | .error _ => .error .s3Error

theorem jsonLoads_error (data : Bytes) (e : PyError) (h : runtime.jsonLoads data = .error e) :
    e = .valueError := by
  simp only [runtime] at h
  split_ifs at h
  exact (Except.error.inj h).symm

theorem sendRange_raises (data : Bytes) (offset length : Json) :
    RaisesOnly storeErrors (sendRange data offset length) := by
  rw [sendRange]
  split
  · exact .ok _
  · exact .error (by simp [storeErrors])

theorem runtime_documented : CipherDocumented runtime := .of_keyless rfl fun _ _ _ => rfl

/-- A list under `_latest_date.json`. -/
def malformed : Bucket :=
  [(directory (objectPrefix "daily") "_latest_date.json", encodeUtf8 "[]")]

/-- The lookup raises, though it is to return `None` on a failure: a list has no `get`. -/
theorem not_returns : (∀ data e, runtime.jsonLoads data = .error e → e = .valueError) ∧
    (∀ data offset length, RaisesOnly storeErrors (sendRange data offset length)) ∧
    CipherDocumented runtime ∧
    ¬ ∀ x, (retrieveCusno runtime "daily" "1").Ends (malformed.MayReply sendRange) x →
      ∃ value, x = .ok value ∧ IsProfile value := by
  refine ⟨jsonLoads_error, sendRange_raises, runtime_documented, fun h => ?_⟩
  -- `_latest_date.json` holds a list, which has no `get`
  have hread : (getJson runtime (directory (objectPrefix "daily") "_latest_date.json")).eval
      (malformed.answer sendRange) = .ok (.arr []) := eval_getJson (List.lookup_cons_self ..)
  have hdated : (selectDated runtime (objectPrefix "daily")).eval (malformed.answer sendRange) =
      .error .attributeError := by
    rw [selectDated, tryExcept, eval_catchWith_error _ (e := .attributeError)]
    · rfl
    · rw [eval_bind_ok _ hread]
      rfl
  have heval : (retrieveCusno runtime "daily" "1").eval (malformed.answer sendRange) =
      .error .attributeError := by
    rw [retrieveCusno, eval_bind_ok _ eval_createClient, if_pos rfl, if_neg (by decide)]
    exact eval_bind_error _ (eval_bind_error _ hdated _) _
  have hends : (retrieveCusno runtime "daily" "1").Ends (malformed.MayReply sendRange)
      ((retrieveCusno runtime "daily" "1").eval (malformed.answer sendRange)) := by
    refine ends_eval (fun c => ⟨.inl rfl, fun hconnect => ?_⟩) _
    cases c with
    | connect =>
      intro heq
      cases heq
    | _ => cases hconnect
  obtain ⟨value, hvalue, -⟩ := h _ hends
  cases heval.symm.trans hvalue

/-- The record as the file of its customer, in the directory of a date. -/
def wellFormed : Bucket :=
  [(directory (directory (objectPrefix "daily") "20250101") "1.json", encodeUtf8 record)]

/-- The only file of the bucket is the one of the customer. -/
theorem holds_wellFormed {key : String} {json : Json} (h : Holds runtime wellFormed key json) :
    key = directory (directory (objectPrefix "daily") "20250101") "1.json" ∧ json = .obj doc := by
  obtain ⟨data, hget, hloads⟩ := h
  obtain ⟨rfl, rfl⟩ := Prod.mk.inj (List.mem_singleton.mp (Bucket.mem_of_get hget))
  exact ⟨rfl, (Except.ok.inj hloads).symm⟩

/-- The names of the other files that are looked for. -/
def otherNames : List String :=
  ["_latest_date.json", "index_001.json", "index.json", "_meta.json"]

/-- None of them ends like the name of the file. -/
theorem not_holds {name : String} (hname : name ∈ otherNames) (dir : String) (json : Json) :
    ¬ Holds runtime wellFormed (directory dir name) json := by
  intro h
  have hchars := congrArg (fun key : String => key.toList.reverse.take 7) (holds_wellFormed h).1
  simp only [otherNames, List.mem_cons, List.not_mem_nil, or_false] at hname
  rcases hname with rfl | rfl | rfl | rfl <;> simp [directory] at hchars

/-- The bucket is shaped. -/
theorem wellFormed_shaped :
    BucketShaped runtime sendRange wellFormed (objectPrefix "daily") (strip "1") := by
  have hstrip : strip "1" = "1" := rfl
  have hshard (dir : String) : indexShardKey dir "1" = directory dir "index_001.json" := rfl
  refine ⟨fun json h => absurd h (not_holds (by decide) _ json), fun dir _ => ?_⟩
  rw [hstrip]
  refine ⟨⟨fun index h => absurd h ?_, fun index h => absurd h (not_holds (by decide) _ index)⟩, ?_⟩
  · rw [hshard]
    exact not_holds (by decide) _ index
  · rintro candidate ((⟨index, -, -, h, -⟩ | ⟨index, -, -, h, -⟩) | h) -
    · rw [hshard] at h
      exact absurd h (not_holds (by decide) _ index)
    · exact absurd h (not_holds (by decide) _ index)
    · -- the file of the customer, without metadata
      obtain ⟨-, rfl⟩ := holds_wellFormed h
      refine ⟨doc, rfl, fun json h => absurd h (not_holds (by decide) _ json), ?_⟩
      rintro metadata (rfl | ⟨json, h, -⟩)
      · exact .inl ⟨rfl, nofun⟩
      · exact absurd h (not_holds (by decide) _ json)

/-- The bucket is shaped, and with it the lookup returns, whichever calls fail. -/
theorem returns_wellFormed :
    BucketShaped runtime sendRange wellFormed (objectPrefix "daily") (strip "1") ∧
      ∀ x, (retrieveCusno runtime "daily" "1").Ends (wellFormed.MayReply sendRange) x →
        ∃ value, x = .ok value ∧ IsProfile value :=
  ⟨wellFormed_shaped, (retrieveCusno_returns_iff jsonLoads_error sendRange_raises
    runtime_documented wellFormed "daily" "1").mpr fun _ => wellFormed_shaped⟩

end MalformedData

end BatchProfile

end SessionManager
