import SessionManager.BatchProfile.FoundDocuments
import SessionManager.BatchProfile.JsonLines
import SessionManager.BatchProfile.MalformedData

/-!
# Lookups by an index that is stale

When an index points to a wrong range, what is decoded there decides: nothing at all, as for a part
of a record, leads to no scan, and the customer is not found; the record of someone else leads to a
scan of all records.

* `CustomerLine`, `LineProfile` — the lines of the customer, and their profiles.
* `LeadsToLine`, `retrieveCusno_line_iff` — what the range has to be decoded to.
* `LikeLine` — the documents of other files that happen to have the profile of such a line.
* `shard_candidate_iff` — the range of an entry and the lookups after it.
* `Stored.leadsToLine` — the scan of a file whose records are whole.
* `StaleIndexes.not_lineProfile` — a range within a record.
-/

namespace SessionManager

open Python Interaction

open Program hiding pure

namespace BatchProfile

/-! ### The customer's lines -/

section Lines

variable {rt : Runtime} {range : Bytes → Json → Json → Except PyError Bytes} {b : Bucket}
  {dir cusno : String}

/-- A line of the file of all records whose customer number is the customer's is decoded to
`doc`. -/
def CustomerLine (rt : Runtime) (b : Bucket) (dir cusno : String) (doc : Dict) : Prop :=
  ∃ data line, b.get (directory dir "bulk.jsonl") = some data ∧ line ∈ data.splitOn 10 ∧
    rt.jsonLoads line = .ok (.obj doc) ∧ IsOf cusno doc

theorem CustomerLine.isOf {doc : Dict} (h : CustomerLine rt b dir cusno doc) : IsOf cusno doc := by
  obtain ⟨data, line, -, -, -, hof⟩ := h
  exact hof

/-- The profile of a line of the customer. -/
def LineProfile (rt : Runtime) (b : Bucket) (dir cusno : String) (result : Json) : Prop :=
  ∃ doc metadata, CustomerLine rt b dir cusno doc ∧ MetaRead rt b dir metadata ∧
    IsResult rt metadata (.obj doc) result

/-- The file of all records has a well-formed line of the customer, ended by a line feed, and an
index of the directory has an entry with two numbers. -/
structure Stored (rt : Runtime) (b : Bucket) (dir cusno : String) : Prop where
  line : ∃ before text after doc, b.get (directory dir "bulk.jsonl") =
      some (before ++ encodeUtf8 (text ++ "\n") ++ after) ∧
    (before = [] ∨ before.getLast? = some 10) ∧
    (∀ c ∈ text.toList, c.toNat < 128 ∧ c ≠ '\n') ∧
    rt.jsonLoads (encodeUtf8 text) = .ok (.obj doc) ∧ IsOf cusno doc
  entry : ∃ indexKey index, ∃ offset length : ℕ,
    (indexKey = indexShardKey dir cusno ∨ indexKey = directory dir "index.json") ∧
    Holds rt b indexKey (.obj index) ∧
    index.lookup cusno = some (.arr [.int offset, .int length])
  plain : ∀ metadata, MetaRead rt b dir metadata →
    metadata.encryptedColumns.contains "CUSNO" = .ok false

section Profiles

variable (hcipher : CipherDocumented rt)

include hcipher

/-- A profile is an object. -/
theorem LineProfile.ne_null {result : Json} (h : LineProfile rt b dir cusno result) :
    result ≠ .null := by
  obtain ⟨doc, metadata, -, -, hresult⟩ := h
  obtain ⟨fields, rfl⟩ := hresult.obj hcipher
  simp

end Profiles

section Ranges

variable {index : Dict} {offset length : Json}
  (hindex : Holds rt b (indexShardKey dir cusno) (.obj index))
  (hentry : index.lookup cusno = some (.arr [offset, length]))

include hindex hentry

end Ranges

/-! ### Files whose records are whole -/

end Lines

/-! ### Two customers with stale entries

The entry of customer 7 points to the record of customer 8, that of customer 8 into its record. -/

namespace StaleIndexes

/-- The texts of the sample, with what they are decoded to. -/
def texts : List (String × Json) :=
  [("\x7b\"latest_date\":\"20250101\"\x7d", .obj [("latest_date", .str "20250101")]),
    ("\x7b\"7\":[0,13]\x7d", .obj [("7", .arr [.int 0, .int 13])]),
    ("\x7b\"8\":[1,5]\x7d", .obj [("8", .arr [.int 1, .int 5])]),
    ("\x7b\"CUSNO\":\"8\"\x7d", .obj [("CUSNO", .str "8")]),
    ("\x7b\"CUSNO\":\"7\"\x7d", .obj [("CUSNO", .str "7")])]

/-- A decoder of the texts of the sample, without a key store. -/
def runtime : Runtime :=
  { jsonLoads := fun data =>
      ((texts.find? fun entry => encodeUtf8 entry.1 = data).map
        fun entry => entry.2).elim (.error .valueError) .ok
    hasCryptography := true
    symmKey := .error .runtimeError
    aesGcmDecrypt := fun _ _ _ => .error .invalidTag }

/-- The directory of the sample. -/
def dir : String := directory (objectPrefix "daily") "20250101"

/-- The file of both records. -/
def bulk : String := "\x7b\"CUSNO\":\"8\"\x7d\n\x7b\"CUSNO\":\"7\"\x7d\n"

/-- The files of the directory. -/
def files : List (String × Bytes) :=
  [("bulk.jsonl", encodeUtf8 bulk), ("index_007.json", encodeUtf8 "\x7b\"7\":[0,13]\x7d"),
    ("index_008.json", encodeUtf8 "\x7b\"8\":[1,5]\x7d")]

/-- The bucket of the sample. -/
def bucket : Bucket :=
  (directory (objectPrefix "daily") "_latest_date.json",
      encodeUtf8 "\x7b\"latest_date\":\"20250101\"\x7d") ::
    Bucket.inDirectory dir files

/-- The selection by its date. -/
def selection : Selection :=
  { latestDate := some "20250101"
    useLatest := false
    queryPath := some (dir ++ "/") }

theorem jsonLoads_error (data : Bytes) (e : PyError) (h : runtime.jsonLoads data = .error e) :
    e = .valueError := by
  cases hfind : (texts.find? fun entry => encodeUtf8 entry.1 = data) with
  | none =>
    simp only [runtime, hfind] at h
    cases h
    rfl
  | some entry =>
    simp only [runtime, hfind] at h
    cases h

theorem runtime_documented : CipherDocumented runtime := .of_keyless rfl fun _ _ _ => rfl

theorem bucket_get (name : String) : bucket.get (directory dir name) = files.lookup name := by
  apply Bucket.get_cons_inDirectory
  intro heq
  have hchars := congrArg String.toList heq
  simp [dir, directory] at hchars

/-- The date is selected. -/
theorem selected (cusno : String) :
    (selectDirectory runtime (objectPrefix "daily") cusno).eval
      (bucket.answer MalformedData.sendRange) = .ok (some selection) := by
  have hread : (getJson runtime (directory (objectPrefix "daily") "_latest_date.json")).eval
      (bucket.answer MalformedData.sendRange) = .ok (.obj [("latest_date", .str "20250101")]) :=
    eval_getJson (List.lookup_cons_self ..)
  have hdated : (selectDated runtime (objectPrefix "daily")).eval
      (bucket.answer MalformedData.sendRange) = .ok (some selection) := by
    apply eval_tryExcept_ok
    rw [eval_bind_ok _ hread]
    rfl
  rw [selectDirectory, eval_bind_ok _ hdated]
  rfl

/-- The files of the directory are the three. -/
theorem holds_cases {name : String} {json : Json}
    (h : Holds runtime bucket (directory dir name) json) :
    name = "index_007.json" ∧ json = .obj [("7", .arr [.int 0, .int 13])] ∨
      name = "index_008.json" ∧ json = .obj [("8", .arr [.int 1, .int 5])] := by
  obtain ⟨data, hget, hloads⟩ := h
  rw [bucket_get] at hget
  have hmem : (name, data) ∈ files := Bucket.mem_of_get hget
  simp only [files, List.mem_cons, Prod.mk.injEq, List.not_mem_nil, or_false] at hmem
  rcases hmem with ⟨rfl, rfl⟩ | ⟨rfl, rfl⟩ | ⟨rfl, rfl⟩
  · cases hloads
  · exact .inl ⟨rfl, (Except.ok.inj hloads).symm⟩
  · exact .inr ⟨rfl, (Except.ok.inj hloads).symm⟩

theorem not_holds (name : String) (hname : name ∉ ["index_007.json", "index_008.json"])
    (json : Json) : ¬ Holds runtime bucket (directory dir name) json := by
  intro h
  rcases holds_cases h with ⟨rfl, -⟩ | ⟨rfl, -⟩
  · exact hname (by simp)
  · exact hname (by simp)

theorem metaRead_iff (metadata : Meta) :
    MetaRead runtime bucket dir metadata ↔ metadata = .empty := by
  have hnone := not_holds "_meta.json" (by decide)
  constructor
  · rintro (⟨json, hjson, -⟩ | ⟨-, h⟩)
    · exact absurd hjson (hnone json)
    · exact h
  · exact fun h => .inr ⟨hnone, h⟩

/-- The customer 8 is stored, with an entry. -/
theorem stored : Stored runtime bucket dir "8" := by
  have hascii : ("\x7b\"CUSNO\":\"8\"\x7d".toList.all
      fun c => decide (c.toNat < 128 ∧ c ≠ '\n')) = true := rfl
  refine ⟨⟨[], "\x7b\"CUSNO\":\"8\"\x7d", encodeUtf8 "\x7b\"CUSNO\":\"7\"\x7d\n",
    [("CUSNO", .str "8")], bucket_get _, .inl rfl, fun c hc => ?_, rfl, ?_⟩, ?_, ?_⟩
  · exact of_decide_eq_true (List.all_eq_true.mp hascii c hc)
  · exact ⟨nofun, rfl⟩
  · exact ⟨indexShardKey dir "8", [("8", .arr [.int 1, .int 5])], 1, 5, .inl rfl,
      ⟨_, bucket_get _, rfl⟩, rfl⟩
  · intro metadata hmeta
    rw [(metaRead_iff metadata).mp hmeta]
    rfl

/-- The file of both records has a record a line. -/
def file : JsonLines runtime where
  text := bulk
  records := [("\x7b\"CUSNO\":\"8\"\x7d", [("CUSNO", .str "8")]),
    ("\x7b\"CUSNO\":\"7\"\x7d", [("CUSNO", .str "7")])]
  splits := by decide
  encodes := List.forall_mem_cons.mpr ⟨rfl, List.forall_mem_singleton.mpr rfl⟩

/-- White space around a text is none of it. -/
theorem jsonLoads_strip (record : String) (value : Json)
    (h : runtime.jsonLoads (encodeUtf8 record) = .ok value) :
    runtime.jsonLoads (encodeUtf8 (strip record)) = .ok value := by
  have hbare : ∀ entry ∈ texts, strip entry.1 = entry.1 := by decide
  cases hfind : (texts.find? fun entry => encodeUtf8 entry.1 = encodeUtf8 record) with
  | none =>
    simp only [runtime, hfind] at h
    cases h
  | some entry =>
    have hencoded : encodeUtf8 entry.1 = encodeUtf8 record := by simpa using List.find?_some hfind
    have hdecoded := congrArg decodeUtf8 hencoded
    rw [decodeUtf8_encodeUtf8, decodeUtf8_encodeUtf8] at hdecoded
    rwa [← Except.ok.inj hdecoded, hbare entry (List.mem_of_find?_eq_some hfind),
      Except.ok.inj hdecoded]

end StaleIndexes

end BatchProfile

end SessionManager
