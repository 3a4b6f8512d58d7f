import SessionManager.BatchProfile.Retrieve

/-!
# Well-formed batch directories

What a loader leaves in a directory: the records one after the other in `bulk.jsonl`, an index for
each shard with the offset and the length of each record, and the metadata.

* `Documented` — what is assumed of the JSON decoder, of MinIO and of the cryptography.
* `Record`, `bulkText`, `IsShard` — the records, the file of all of them, and the index of a shard.
* `WellFormed` — a bucket whose selected directory is as described.
* `range_of_entry` — what an index entry points to is the record.
-/

namespace SessionManager

open Python Interaction

namespace BatchProfile

/-- What is assumed of the parts outside the repository: the decoder raises `ValueError` and ignores
a line feed after a value; a range that lies within an object is sent exactly; a missing key is a
`RuntimeError`, and decryption fails with `InvalidTag` or `ValueError`. -/
structure Documented (rt : Runtime) (range : Bytes → Json → Json → Except PyError Bytes) :
    Prop where
  jsonLoads_error : ∀ data e, rt.jsonLoads data = .error e → e = .valueError
  jsonLoads_nil : rt.jsonLoads [] = .error .valueError
  jsonLoads_newline : ∀ data value, rt.jsonLoads data = .ok value →
    rt.jsonLoads (data ++ encodeUtf8 "\n") = .ok value
  range_exact : ∀ data (offset length : ℕ), 0 < length → offset + length ≤ data.length →
    range data (.int offset) (.int length) = .ok ((data.drop offset).take length)
  symmKey_error : ∀ e, rt.symmKey = .error e → e = .runtimeError
  aesGcmDecrypt_error : ∀ key nonce data e, rt.aesGcmDecrypt key nonce data = .error e →
    e = .invalidTag ∨ e = .valueError

/-- A record: the text of a JSON object with a customer number. -/
structure Record (rt : Runtime) where
  text : String
  doc : Dict
  cusno : String
  decodes : rt.jsonLoads (encodeUtf8 text) = .ok (.obj doc)
  cusno_eq : Dict.get doc "CUSNO" = .str cusno
  cusno_ne : cusno ≠ ""
  cusno_trimmed : strip cusno = cusno

variable {rt : Runtime}

/-- The records one after the other, each followed by a line feed. -/
def bulkText : List (Record rt) → String
  | [] => ""
  | record :: records => record.text ++ "\n" ++ bulkText records

/-- The index of shard `shard`: the offset and the length of each of its records, with or without
the line feed, and nothing else. -/
structure IsShard (records : List (Record rt)) (shard : String) (index : Dict) : Prop where
  complete : ∀ before record after, records = before ++ record :: after →
    indexPrefix record.cusno = shard → ∃ length : ℕ,
      index.lookup record.cusno =
        some (.arr [.int (encodeUtf8 (bulkText before)).length, .int length]) ∧
      (length = (encodeUtf8 record.text).length ∨ length = (encodeUtf8 record.text).length + 1)
  sound : ∀ cusno value, index.lookup cusno = some value →
    ∃ record ∈ records, record.cusno = cusno ∧ indexPrefix cusno = shard

/-- The directory that a valid `_latest_date.json` selects. -/
def Selects (rt : Runtime) (b : Bucket) (objectPrefix dir : String) : Prop :=
  ∃ data entries date, b.get (directory objectPrefix "_latest_date.json") = some data ∧
    rt.jsonLoads data = .ok (.obj entries) ∧ latestDate entries = .ok (.str date) ∧
    date.toList.length = 8 ∧ isdigit date ∧
    dir = directory objectPrefix (if (Dict.get entries "use_latest").truthy then "latest" else date)

/-- A document with the given customer number. -/
def IsOf (cusno : String) (entries : Dict) : Prop :=
  Dict.get entries "CUSNO" ≠ .null ∧ (Dict.get entries "CUSNO").pyStr = cusno

/-- A bucket whose selected directory `dir` holds `records`, and nothing besides them but the
indexes of the shards and the metadata. -/
structure WellFormed (rt : Runtime) (b : Bucket) (objectPrefix dir : String)
    (records : List (Record rt)) (columns : List String) (labels : Dict) : Prop where
  selected : Selects rt b objectPrefix dir
  distinct : records.Pairwise fun record record' => record.cusno ≠ record'.cusno
  bulk : b.get (directory dir "bulk.jsonl") = some (encodeUtf8 (bulkText records))
  /-- A shard without records may but need not have an index. -/
  shards : ∀ cusno,
    (∃ data index, b.get (indexShardKey dir cusno) = some data ∧
      rt.jsonLoads data = .ok (.obj index) ∧ IsShard records (indexPrefix cusno) index) ∨
    b.get (indexShardKey dir cusno) = none ∧
      ∀ record ∈ records, indexPrefix record.cusno ≠ indexPrefix cusno
  noIndex : b.get (directory dir "index.json") = none
  metadata : (b.get (directory dir "_meta.json") = none ∧ columns = [] ∧ labels = []) ∨
    ∃ data entries, b.get (directory dir "_meta.json") = some data ∧
      rt.jsonLoads data = .ok (.obj entries) ∧
      metaOf (.obj entries) = .ok ⟨.arr (columns.map .str), labels⟩
  plainCusno : "CUSNO" ∉ columns
  only : ∀ name, (b.get (directory dir name)).isSome → name = "bulk.jsonl" ∨
    name = "_meta.json" ∨ ∃ cusno, directory dir name = indexShardKey dir cusno
  /-- Neither an index nor the metadata is the document of a customer by the name of the file. -/
  noSingle : ∀ cusno data entries, b.get (directory dir (cusno ++ ".json")) = some data →
    rt.jsonLoads data = .ok (.obj entries) → ¬ IsOf cusno entries
  noLatest : dir ≠ directory objectPrefix "latest" →
    ∀ name, b.get (directory (directory objectPrefix "latest") name) = none

/-! ### Offsets -/

theorem encodeUtf8_bulkText_append (before after : List (Record rt)) :
    encodeUtf8 (bulkText (before ++ after)) =
      encodeUtf8 (bulkText before) ++ encodeUtf8 (bulkText after) := by
  induction before with
  | nil => simp [bulkText, encodeUtf8]
  | cons record before ih =>
    simp only [List.cons_append, bulkText, encodeUtf8_append, ih, List.append_assoc]

/-- The bytes from the offset of a record on begin with those of the record. -/
theorem drop_bulkText (before after : List (Record rt)) (record : Record rt) :
    (encodeUtf8 (bulkText (before ++ record :: after))).drop
      (encodeUtf8 (bulkText before)).length =
        encodeUtf8 record.text ++ encodeUtf8 "\n" ++ encodeUtf8 (bulkText after) := by
  rw [encodeUtf8_bulkText_append, List.drop_left]
  simp only [bulkText, encodeUtf8_append]

theorem length_newline : (encodeUtf8 "\n").length = 1 := rfl

/-- A text that can be decoded is not empty. -/
theorem Record.text_ne {range : Bytes → Json → Json → Except PyError Bytes}
    (hdoc : Documented rt range) (record : Record rt) : 0 < (encodeUtf8 record.text).length := by
  rw [List.length_pos_iff]
  intro hnil
  have hdecodes := record.decodes
  rw [hnil, hdoc.jsonLoads_nil] at hdecodes
  cases hdecodes

/-- The range of an index entry holds the record. -/
theorem range_of_entry {range : Bytes → Json → Json → Except PyError Bytes}
    (hdoc : Documented rt range) (before after : List (Record rt)) (record : Record rt)
    {length : ℕ} (hlength : length = (encodeUtf8 record.text).length ∨
      length = (encodeUtf8 record.text).length + 1) :
    (do rt.jsonLoads (← range (encodeUtf8 (bulkText (before ++ record :: after)))
      (.int (encodeUtf8 (bulkText before)).length) (.int length))) = .ok (.obj record.doc) := by
  have hpos := record.text_ne hdoc
  have htotal : (encodeUtf8 (bulkText (before ++ record :: after))).length =
      (encodeUtf8 (bulkText before)).length + ((encodeUtf8 record.text).length + 1 +
        (encodeUtf8 (bulkText after)).length) := by
    simp only [encodeUtf8_bulkText_append, bulkText, encodeUtf8_append, List.length_append,
      length_newline]
  rw [hdoc.range_exact _ _ _ (by omega) (by omega), drop_bulkText]
  show rt.jsonLoads _ = _
  rcases hlength with rfl | rfl
  · rw [List.append_assoc, List.take_left]
    exact record.decodes
  · have hline : (encodeUtf8 record.text).length + 1 =
        (encodeUtf8 record.text ++ encodeUtf8 "\n").length := by
      rw [List.length_append, length_newline]
    rw [hline, List.take_left]
    exact hdoc.jsonLoads_newline _ _ record.decodes

end BatchProfile

end SessionManager
