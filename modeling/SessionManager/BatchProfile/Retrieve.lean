import SessionManager.BatchProfile.ObjectStore
import SessionManager.BatchProfile.Utils

/-!
# Retrieval of a batch profile

`services/batch_profile_minio_retrieve.py`: the profile of one customer, from the directory of the
latest date or from `latest/`. A `dict | None` is a JSON value, `null` for `None`, since what is
read need not be an object.

* `tryExcept` — `try` with a handler for some classes of exceptions.
* `matchCusno` — whether a document is the one of a customer.
* `Selection`, `selectDirectory` — the directory to look in.
* `fetchViaIndex`, `fetchDocument`, `fetchAnywhere` — a candidate, by an index or as a single file.
* `readMeta`, `scanBulk`, `finish` — the metadata, the scan of all records, decryption and labels.
* `retrieveCusno` — the retrieval.
-/

namespace SessionManager

open Python Interaction

namespace BatchProfile

variable (rt : Runtime)

/-- `try: p except caught: handler`. -/
def tryExcept {α : Type} (p : Retrieval α) (caught : List PyError) (handler : Retrieval α) :
    Retrieval α :=
  p.catchWith fun e => if e ∈ caught then handler else .throw e

/-- `(_S3Error, OSError)`. -/
def storeErrors : List PyError := [.s3Error, .osError]

/-- `(_S3Error, OSError, ValueError)`. -/
def readErrors : List PyError := [.s3Error, .osError, .valueError]

/-- An object that is read and decoded. -/
def getJson (key : String) : Retrieval Json := do
  Program.ofExcept (rt.jsonLoads (← request (.getObject key)))

/-! ### The identity of a document -/

/-- `raw_cusno` as it is compared: decrypted when it is encrypted, nothing when it cannot be. -/
def plainCusno (rawCusno encryptedColumns : Json) : Except PyError (Option Json) := do
  if ← encryptedColumns.contains "CUSNO" then
    match decryptFieldValue rt (.str rawCusno.pyStr) with
    | .ok value => .ok (some value)
    | .error e =>
      if e ∈ [.valueError, .runtimeError, .importError] then .ok none else .error e
  else .ok (some rawCusno)

/-- `_match_cusno`. -/
def matchCusno (doc : Json) (cusno : String) (encryptedColumns : Json) : Except PyError Bool := do
  let rawCusno ← doc.get "CUSNO"
  if rawCusno.isNone then .ok false
  else do
    let plain ← plainCusno rt rawCusno encryptedColumns
    .ok (plain.any fun value => value.pyStr = cusno)

/-! ### The directory -/

/-- `latest_date_str`, `use_latest` and `query_path`. -/
structure Selection where
  latestDate : Option String
  useLatest : Bool
  queryPath : Option String

/-- The path of a directory. -/
def directory (objectPrefix name : String) : String := objectPrefix ++ "/" ++ name

/-- `load_date` without its hyphens. -/
def loadDate (latestDateMeta : Dict) : Except PyError Json :=
  match latestDateMeta.lookup "load_date" with
  | none => .ok (.str "")
  | some (.str s) => .ok (.str (String.ofList (s.toList.filter (· ≠ '-'))))
  | some _ => .error .attributeError

/-- The value that is taken for the latest date. -/
def latestDate (latestDateMeta : Dict) : Except PyError Json :=
  let date := Dict.get latestDateMeta "latest_date"
  if date.truthy then .ok date else loadDate latestDateMeta

/-- The value as a date: eight digits. -/
def dateText (date : Json) : Except PyError (Option String) :=
  if date.truthy then do
    if (← date.len) = 8 then
      match date with
      | .str s => .ok (if isdigit s then some s else none)
      | _ => .error .attributeError
    else .ok none
  else .ok none

/-- What the content of `_latest_date.json` selects. -/
def selectionOf (objectPrefix : String) (latestDateMeta : Json) : Except PyError Selection :=
  match latestDateMeta with
  | .obj entries => do
    let date ← dateText (← latestDate entries)
    let useLatest := (Dict.get entries "use_latest").truthy
    .ok
      { latestDate := date
        useLatest
        queryPath := date.map fun date =>
          directory objectPrefix (if useLatest then "latest" else date) ++ "/" }
  | _ => .error .attributeError

/-- The date directory that a listed name is in. -/
def dateDir? (objectPrefix objName : String) : Option String :=
  let start := (directory objectPrefix "").toList
  if start.isPrefixOf objName.toList then
    let remaining := objName.toList.drop start.length
    let dateDir := String.ofList (remaining.takeWhile (· ≠ '/'))
    if '/' ∈ remaining ∧ dateDir.toList.length = 8 ∧ isdigit dateDir then some dateDir else none
  else none

/-- The greatest date directory among the names listed. -/
def newestDateDir (objectPrefix : String) (names : List String) : Option String :=
  ((names.filterMap (dateDir? objectPrefix)).mergeSort fun a b => decide (b ≤ a)).head?

/-- The selection without `_latest_date.json`. -/
def selectListed (objectPrefix : String) : Retrieval (Option Selection) :=
  tryExcept
    (do
      let names ← request (.listObjects (directory objectPrefix ""))
      let dateDir := newestDateDir objectPrefix names
      pure (some
        { latestDate := dateDir
          useLatest := false
          queryPath := dateDir.map fun dateDir => directory objectPrefix dateDir ++ "/" }))
    storeErrors (pure none)

/-- The selection with `_latest_date.json`, or else from a listing. -/
def selectDated (objectPrefix : String) : Retrieval (Option Selection) :=
  tryExcept
    (do
      let latestDateMeta ← getJson rt (directory objectPrefix "_latest_date.json")
      pure (some (← Program.ofExcept (selectionOf objectPrefix latestDateMeta))))
    readErrors (selectListed objectPrefix)

/-- The key of the index of a shard. -/
def indexShardKey (dir cusno : String) : String :=
  directory dir ("index_" ++ indexPrefix cusno ++ ".json")

/-- `latest/`, if it has the index of the shard. -/
def selectLatest (objectPrefix cusno : String) : Retrieval (Option Selection) :=
  tryExcept
    (do
      request (.statObject (indexShardKey (directory objectPrefix "latest") cusno))
      pure (some
        { latestDate := some "latest"
          useLatest := true
          queryPath := some (directory objectPrefix "latest" ++ "/") }))
    storeErrors (pure none)

/-- The directory to look in; without one the lookup ends. -/
def selectDirectory (objectPrefix cusno : String) : Retrieval (Option Selection) := do
  match ← selectDated rt objectPrefix with
  | none => pure none
  | some selection =>
    match nonEmpty selection.latestDate with
    | some _ => pure (some selection)
    | none => selectLatest objectPrefix cusno

/-! ### Candidates -/

/-- The record that an index entry points to; where ranges are not supported, from the whole
file. -/
def fetchRange (bulkKey : String) (startOff length : Json) : Retrieval Json :=
  tryExcept
    (do Program.ofExcept (rt.jsonLoads (← request (.getRange bulkKey startOff length))))
    [.typeError, .attributeError]
    (do
      let data ← request (.getObject bulkKey)
      Program.ofExcept (rt.jsonLoads (← Program.ofExcept (Json.slice data startOff length))))

/-- `fetch_via_index`. -/
def fetchViaIndex (cusno indexKey bulkKey : String) : Retrieval Json :=
  tryExcept
    (do
      let index ← getJson rt indexKey
      if ← Program.ofExcept (index.contains cusno) then
        let entry ← Program.ofExcept (index.item cusno)
        let (startOff, length) ← Program.ofExcept entry.unpack2
        fetchRange rt bulkKey startOff length
      else pure .null)
    (.keyError :: readErrors) (pure .null)

/-- By the index of the shard, or by the index of all records. -/
def fetchIndexed (dir cusno : String) : Retrieval Json :=
  tryExcept
    (do
      let doc ← fetchViaIndex rt cusno (indexShardKey dir cusno) (directory dir "bulk.jsonl")
      if doc.isNone then
        fetchViaIndex rt cusno (directory dir "index.json") (directory dir "bulk.jsonl")
      else pure doc)
    readErrors (pure .null)

/-- The file of the customer alone. -/
def fetchSingle (dir cusno : String) : Retrieval Json :=
  tryExcept (getJson rt (directory dir (cusno ++ ".json"))) readErrors (pure .null)

/-- The candidate of a directory. -/
def fetchDocument (dir cusno : String) : Retrieval Json := do
  let doc ← fetchIndexed rt dir cusno
  if doc.isNone then fetchSingle rt dir cusno else pure doc

/-- The candidate of the directory, or of the one to fall back to, and `used_fallback`. -/
def fetchAnywhere (dir : String) (fallback : Option String) (cusno : String) :
    Retrieval (Json × Bool) := do
  let doc ← fetchDocument rt dir cusno
  if doc.isNone then
    match fallback with
    | some latest =>
      let doc ← fetchDocument rt latest cusno
      pure (doc, !doc.isNone)
    | none => pure (doc, false)
  else pure (doc, false)

/-! ### Metadata -/

/-- `column_info`, whose size and first entries are logged unless it is empty. -/
def columnInfo (columnInfo : Json) : Except PyError Dict :=
  if columnInfo.truthy then
    match columnInfo with
    | .obj entries => .ok entries
    | value => do
      let _ ← value.len
      .error .attributeError
  else .ok []

/-- `encrypted_columns` and `column_mapping`. -/
structure Meta where
  encryptedColumns : Json
  columnMapping : Dict

/-- What stands for a `_meta.json` that cannot be read. -/
def Meta.empty : Meta := ⟨.arr [], []⟩

/-- The content of `_meta.json`. -/
def metaOf (json : Json) : Except PyError Meta := do
  let encryptedColumns ← json.get "encrypted_columns"
  let columnMapping ← columnInfo (← json.get "column_info")
  .ok ⟨if encryptedColumns.truthy then encryptedColumns else .arr [], columnMapping⟩

/-- The metadata of the directory that was looked in. -/
def readMeta (queryPath : String) : Retrieval Meta :=
  tryExcept (do Program.ofExcept (metaOf (← getJson rt (rstrip queryPath '/' ++ "/_meta.json"))))
    readErrors (pure .empty)

/-! ### Scan -/

/-- Whether a line is the record of the customer, and the record. -/
def candidate (cusno : String) (encryptedColumns : Json) (line : String) :
    Except PyError (Option Json) := do
  let doc ← rt.jsonLoads (encodeUtf8 line)
  if ← matchCusno rt doc cusno encryptedColumns then .ok (some doc) else .ok none

/-- The first line that is the record of the customer; lines that cannot be decoded are skipped. -/
def scanLines (cusno : String) (encryptedColumns : Json) : List String → Except PyError Json
  | [] => .ok .null
  | line :: lines =>
    if strip line = "" then scanLines cusno encryptedColumns lines
    else
      match candidate rt cusno encryptedColumns (strip line) with
      | .ok (some doc) => .ok doc
      | .ok none | .error .valueError => scanLines cusno encryptedColumns lines
      | .error e => .error e

/-- The scan of all records. -/
def scanBulk (bulkKey cusno : String) (encryptedColumns : Json) : Retrieval Json :=
  tryExcept
    (do
      let text ← Program.ofExcept (decodeUtf8 (← request (.getObject bulkKey)))
      Program.ofExcept (scanLines rt cusno encryptedColumns (splitlines text)))
    storeErrors (pure .null)

/-- The candidate, if it is the document of the customer, or else what a scan finds. -/
def confirm (doc : Json) (bulkKey cusno : String) (encryptedColumns : Json) : Retrieval Json := do
  if ← Program.ofExcept (matchCusno rt doc cusno encryptedColumns) then pure doc
  else scanBulk rt bulkKey cusno encryptedColumns

/-! ### Retrieval -/

/-- The document decrypted, or as it is when that fails. -/
def decrypted (doc encryptedColumns : Json) : Except PyError Json :=
  match decryptDocument rt doc encryptedColumns with
  | .ok plain => .ok plain
  | .error e => if e ∈ [.valueError, .runtimeError] then .ok doc else .error e

/-- The document decrypted and labelled. -/
def finish (doc : Json) (metadata : Meta) : Except PyError Json := do
  applyColumnMapping (← decrypted rt doc metadata.encryptedColumns) metadata.columnMapping

/-- The retrieval from the selected directory. -/
def retrieveFrom (objectPrefix : String) (selection : Selection) (cusno : String) :
    Retrieval Json := do
  let date := selection.latestDate.getD "None"
  let latest := directory objectPrefix "latest"
  let dir := if selection.useLatest then latest else directory objectPrefix date
  let fallback := if selection.useLatest then none else some latest
  let queryPath := (nonEmpty selection.queryPath).getD (directory objectPrefix date ++ "/")
  let (doc, usedFallback) ← fetchAnywhere rt dir fallback cusno
  if doc.isNone then pure .null
  else
    let metadata ← readMeta rt (if usedFallback then latest ++ "/" else queryPath)
    let bulkKey := directory (if usedFallback then latest else dir) "bulk.jsonl"
    let doc ← confirm rt doc bulkKey cusno metadata.encryptedColumns
    if doc.isNone then pure .null else Program.ofExcept (finish rt doc metadata)

/-- The prefix of a kind of profiles: `daily`, unless it is `monthly`. -/
def objectPrefix (dataType : String) : String :=
  if (strip dataType).toLower = "monthly" then prefixMonthly else prefixDaily

/-- Whether a client can be created. -/
def createClient : Retrieval Bool :=
  tryExcept (do request .connect; pure true) [.osError, .valueError, .importError] (pure false)

/-- `retrieve_cusno`, for `str(cusno)`. -/
def retrieveCusno (dataType cusno : String) : Retrieval Json := do
  if ← createClient then
    if strip cusno = "" then pure .null
    else
      match ← selectDirectory rt (objectPrefix dataType) (strip cusno) with
      | none => pure .null
      | some selection => retrieveFrom rt (objectPrefix dataType) selection (strip cusno)
  else pure .null

end BatchProfile

end SessionManager
