import SessionManager.Python.Text

/-!
# Batch profile utilities

`services/batch_profile_utils.py`. What comes from outside the repository, the JSON decoder and the
cryptography, is a parameter.

* `Runtime` — the JSON decoder, the key store and AES-GCM.
* `indexPrefix` — the shard of a customer number.
* `decryptFieldValue`, `decryptFields`, `decryptDocument` — the decryption of a document.
* `remap`, `applyColumnMapping` — the labels of its columns.
-/

namespace SessionManager

open Python

namespace BatchProfile

/-- What the batch profile modules take from outside the repository. -/
structure Runtime where
  /-- `json_loads`: `orjson.loads`, or `json.loads` without it. -/
  jsonLoads : Bytes → Except PyError Json
  /-- `HAS_CRYPTOGRAPHY`. -/
  hasCryptography : Bool
  /-- `IniSafePaccel().get_symm_key().symmKey`. -/
  symmKey : Except PyError String
  /-- `AESGCM(key).decrypt(nonce, data, None)`. -/
  aesGcmDecrypt (key nonce data : Bytes) : Except PyError Bytes

/-- `PREFIX_DAILY`. -/
def prefixDaily : String := "ifc_cus_dd_smry_tot"

/-- `PREFIX_MONTHLY`. -/
def prefixMonthly : String := "ifc_cus_mmby_smry_tot"

/-- `AES_NONCE_SIZE`. -/
def aesNonceSize : ℕ := 12

/-- `AES_GCM_TAG_SIZE`. -/
def aesGcmTagSize : ℕ := 16

/-- `REMOVE_FIELD_ON_DECRYPT_FAILURE`. -/
def removeFieldOnDecryptFailure : Bool := true

/-- `index_prefix`. -/
def indexPrefix (cusno : String) : String := lastChars (zfill (strip cusno) 3) 3

/-! ### Decryption -/

/-- `_get_cached_key`. -/
def getCachedKey (rt : Runtime) : Except PyError Bytes := do
  let symmKey ← rt.symmKey
  pure ((← fromHex symmKey).take 32)

/-- The plaintext of what has been decoded. -/
def openSealed (rt : Runtime) (encryptedData : Bytes) : Except PyError String := do
  let key ← getCachedKey rt
  let plaintext ← rt.aesGcmDecrypt key (encryptedData.take aesNonceSize)
    (encryptedData.drop aesNonceSize)
  decodeUtf8 plaintext

/-- The body of `decrypt_field_value` for a text, without the handlers. -/
def decryptText (rt : Runtime) (encryptedValue : String) : Except PyError String := do
  let encryptedData ← b64decode (encodeUtf8 encryptedValue)
  if encryptedData.length < aesNonceSize + aesGcmTagSize then pure encryptedValue
  else openSealed rt encryptedData

/-- The handlers of `decrypt_field_value`: what cannot be decrypted is returned as it is. -/
def orOriginal (encryptedValue : String) : Except PyError String → Except PyError String
  | .error .valueError | .error .invalidTag => .ok encryptedValue
  | x => x

/-- `decrypt_field_value`. -/
def decryptFieldValue (rt : Runtime) (encryptedValue : Json) : Except PyError Json :=
  if rt.hasCryptography then
    match encryptedValue with
    | .null => .ok .null
    | .str s => (orOriginal s (decryptText rt s)).map .str
    | value => .ok (.str value.pyStr)
  else .ok encryptedValue

/-- `result.pop(col, None)`. -/
def popKey (d : Dict) (key : String) : Dict := d.filter fun entry => entry.1 ≠ key

/-- `isinstance(value, (list, dict))`: such a value cannot be a key. -/
def isUnhashable : Json → Bool
  | .arr _ | .obj _ => true
  | _ => false

/-- One column of `_decrypt_fields`. Only a text can be a key of a document, and only a text that is
not empty is decrypted. -/
def decryptColumn (rt : Runtime) (result : Dict) (col : Json) : Except PyError Dict :=
  match col with
  | .str key =>
    match result.lookup key with
    | some (.str s) =>
      if s = "" then .ok result
      else match decryptFieldValue rt (.str s) with
        | .ok value => .ok (result.set key value)
        | .error .valueError | .error .runtimeError =>
          .ok (if removeFieldOnDecryptFailure then popKey result key else result)
        | .error e => .error e
    | _ => .ok result
  | col => if isUnhashable col then .error .typeError else .ok result

/-- `_decrypt_fields`. -/
def decryptFields (rt : Runtime) (target : Dict) (encryptedColumns : Json) :
    Except PyError Dict := do
  (← encryptedColumns.iter).foldlM (decryptColumn rt) target

/-- `encrypted_yn is not None and int(encrypted_yn) == 0`. -/
def isPlain (doc : Dict) : Except PyError Bool :=
  match Dict.get doc "encrypted_yn" with
  | .null => .ok false
  | encryptedYn => isIntZero encryptedYn

/-- The decryption of the object under `data`, when there is one. -/
def decryptData (rt : Runtime) (doc : Dict) (encryptedColumns : Json) : Except PyError Dict :=
  match doc.lookup "data" with
  | some (.obj data) => do pure (doc.set "data" (.obj (← decryptFields rt data encryptedColumns)))
  | _ => .ok doc

/-- `decrypt_document`. -/
def decryptDocument (rt : Runtime) (doc encryptedColumns : Json) : Except PyError Json :=
  if encryptedColumns.truthy then
    match doc with
    | .obj entries => do
      if ← isPlain entries then pure doc
      else
        let result ← decryptData rt entries encryptedColumns
        pure (.obj (← decryptFields rt result encryptedColumns))
    | _ => .error .attributeError
  else .ok doc

/-! ### Column mapping -/

/-- A value of `_remap`: wrapped with the label of its key, when there is one. -/
def label (columnMapping : Dict) (entry : String × Json) : String × Json :=
  let koKey := Dict.get columnMapping entry.1
  if koKey.truthy && !entry.2.isDict then
    (entry.1, .obj [("ko", koKey), ("value", entry.2)])
  else entry

/-- `_remap`. -/
def remap (columnMapping target : Dict) : Dict := target.map (label columnMapping)

/-- `apply_column_mapping` of a `dict`: anything but an object under `data` is dropped. -/
def mapColumns (columnMapping doc : Dict) : Dict :=
  let result := remap columnMapping (popKey doc "data")
  match doc.lookup "data" with
  | some (.obj data) => result.set "data" (.obj (remap columnMapping data))
  | _ => result

/-- `apply_column_mapping`. -/
def applyColumnMapping (doc : Json) (columnMapping : Dict) : Except PyError Json :=
  if columnMapping.isEmpty then .ok doc
  else
    match doc with
    | .obj entries => .ok (.obj (mapColumns columnMapping entries))
    | _ => .error .attributeError

end BatchProfile

end SessionManager
