import SessionManager.Interaction.Answers
import SessionManager.Python.Base64

/-!
# Log records with encrypted payloads

`logger_config.py`: the payload of a log record is encrypted value by value. A payload is an object
that refers to others, perhaps in cycles; what is logged is a tree.

* `Node`, `Heap` — objects, as far as the encryption looks at them.
* `cipher`, `Encryption` — the key, the cipher, and the programs that use them.
* `Output` — what is logged.
* `encryptValue`, `encryptRecursive`, `encryptPayload` — the encryption of a payload.
* `eslog`, `agentlog` — the log calls.
-/

namespace SessionManager

open Python Interaction

namespace LoggerConfig

/-- An exception with its text, of one of the classes that are told apart. -/
inductive EncryptionError where
  | valueError (text : String)
  | typeError (text : String)
  | exception (text : String)

/-- `ISPSymmKey`: the key and the IV, in hexadecimal. -/
structure ISPSymmKey where
  symmKey : String
  symmIV : String

/-- `ENCRYPT_EXCEPTIONS`. -/
def encryptExceptions : List String :=
  ["globId", "resultCode", "requestId", "trxCd", "agent", "session_id", "turn_id"]

/-! ### Payloads -/

/-- An object, with references to others. -/
inductive Node (Ref : Type) where
  /-- `None`. -/
  | none
  /-- A `dict`. -/
  | dict (entries : List (String × Ref))
  /-- A `list`. -/
  | list (items : List Ref)
  /-- A `BaseModel`, with what `model_dump()` returns or raises. -/
  | model (dumped : Except EncryptionError Ref)
  /-- Any other object with a `__dict__`. -/
  | record (attributes : Ref)
  /-- Any other value. -/
  | scalar

/-- The objects that there are. -/
structure Heap (Ref : Type) where
  node : Ref → Node Ref
  /-- `json.dumps(value, ensure_ascii=False, default=str)`. -/
  dumps : Ref → Except EncryptionError String
  /-- The text of the `ValueError` of `bytes.fromhex`. -/
  fromHexText : String → String

/-- What is logged of a payload: new values, and objects that are passed on as they are. -/
inductive Output (Ref : Type) where
  | null
  | text (s : String)
  | dict (entries : List (String × Output Ref))
  | list (items : List (Output Ref))
  | verbatim (object : Ref)

/-! ### The cipher -/

/-- The key that is kept, the key store, and AES/GCM. -/
inductive CipherCommand where
  /-- `_INISAFE_KEY`. -/
  | loadKey
  /-- `_INISAFE_KEY = key`. -/
  | storeKey (key : ISPSymmKey)
  /-- `IniSafePaccel().get_symm_key()`. -/
  | getSymmKey
  /-- `Cipher(algorithms.AES(key), modes.GCM(iv)).encryptor()`, applied to all of `plaintext`. -/
  | aesGcm (key iv plaintext : Bytes)

/-- What a command returns. -/
def CipherCommand.Reply : CipherCommand → Type
  | .loadKey => Option ISPSymmKey
  | .storeKey _ => Unit
  | .getSymmKey => Except EncryptionError ISPSymmKey
  | .aesGcm _ _ _ => Except EncryptionError Bytes

/-- The commands with their replies. -/
abbrev cipher : Signature := ⟨CipherCommand, CipherCommand.Reply⟩

/-- A program that encrypts. -/
abbrev Encryption := Program cipher EncryptionError

/-- One command. -/
def ask (c : CipherCommand) : Encryption c.Reply := .call c .pure

/-- `_get_encryption_key`. -/
def getEncryptionKey : Encryption ISPSymmKey := do
  match ← ask .loadKey with
  | some key => pure key
  | none => do
    let key ← Program.ofExcept (← ask .getSymmKey)
    ask (.storeKey key)
    pure key

/-- `padding.PKCS7(128)`: as many bytes as are missing of a block, each of which says how many. -/
def pkcs7 (data : Bytes) : Bytes :=
  let missing := 16 - data.length % 16
  data ++ List.replicate missing (UInt8.ofNat missing)

/-- A character of `base64.urlsafe_b64encode`. -/
def urlsafe (b : UInt8) : Char :=
  if b = 43 then '-' else if b = 47 then '_' else Char.ofNat b.toNat

/-- `base64.urlsafe_b64encode(data).decode("ascii")`. -/
def urlsafeB64encode (data : Bytes) : String := String.ofList ((b64encode data).map urlsafe)

/-! ### Encryption -/

variable {Ref : Type} (heap : Heap Ref)

/-- `bytes.fromhex`. -/
def fromHexOr (s : String) : Except EncryptionError Bytes :=
  match fromHex s with
  | .ok data => .ok data
  | .error _ => .error (.valueError (heap.fromHexText s))

variable {heap} in
theorem fromHexOr_eq_ok {s : String} {data : Bytes} (h : fromHexOr heap s = .ok data) :
    fromHex s = .ok data := by
  rw [fromHexOr] at h
  split at h
  · next data' hdata => rw [hdata, Except.ok.inj h]
  · cases h

/-- `encrypt_value`. -/
def encryptValue (aesKey iv : Bytes) (value : Ref) : Encryption (Output Ref) :=
  match heap.node value with
  | .none => pure .null
  | _ => do
    let valueJson ← Program.ofExcept (heap.dumps value)
    let encrypted ←
      Program.ofExcept (← ask (.aesGcm aesKey iv (pkcs7 (encodeUtf8 valueJson))))
    pure (.text (urlsafeB64encode (iv ++ encrypted)))

/-- `to_dict`. -/
def toDict (obj : Ref) : Except EncryptionError Ref :=
  match heap.node obj with
  | .model dumped => dumped
  | .record attributes => .ok attributes
  | _ => .ok obj

/-- `max_depth`. -/
def maxDepth : ℕ := 20

/-- What stands for a value at a greater depth. -/
def maxDepthExceeded : String := "[MAX_DEPTH_EXCEEDED]"

/-- `encrypt_recursive`, by the number of levels that are left: `max_depth + 1 - depth`. -/
def encryptRecursive (aesKey iv : Bytes) : ℕ → Ref → Encryption (Output Ref)
  | 0, _ => pure (.text maxDepthExceeded)
  | levels + 1, data => do
    let data ← Program.ofExcept (toDict heap data)
    match heap.node data with
    | .dict entries => do
      let encrypted ← entries.mapM fun entry => do
        let value ←
          if entry.1 ∈ encryptExceptions then pure (.verbatim entry.2)
          else encryptRecursive aesKey iv levels entry.2
        pure (entry.1, value)
      pure (.dict encrypted)
    | .list items => do
      let encrypted ← items.mapM (encryptRecursive aesKey iv levels)
      pure (.list encrypted)
    | _ => encryptValue heap aesKey iv data

/-- What stands for a payload that cannot be encrypted. -/
def errorText : EncryptionError → String
  | .valueError text => "[ENCRYPTION_ERROR: ValueError - " ++ text ++ "]"
  | .typeError text => "[ENCRYPTION_ERROR: TypeError - " ++ text ++ "]"
  | .exception text => "[ENCRYPTION_ERROR: " ++ text ++ "]"

/-- `encrypt_payload`. -/
def encryptPayload (payload : Ref) : Encryption (Output Ref) :=
  tryCatch
    (do
      let symmKey ← getEncryptionKey
      let aesKey ← Program.ofExcept (fromHexOr heap symmKey.symmKey)
      let iv ← Program.ofExcept (fromHexOr heap symmKey.symmIV)
      encryptRecursive heap aesKey iv (maxDepth + 1) payload)
    fun e => pure (.text (errorText e))

/-! ### Log calls -/

/-- The level of the logger, and `LOG_ENCRYPT_ENABLED`. -/
structure Settings where
  isEnabledFor : ℕ → Bool
  logEncryptEnabled : Bool

/-- What is logged of `payload` at a level, if the level is enabled. -/
def logAt (level : ℕ) (settings : Settings) (payload : Ref) :
    Encryption (Option (ℕ × Output Ref)) :=
  if settings.isEnabledFor level then
    if settings.logEncryptEnabled then do
      let payload ← encryptPayload heap payload
      pure (some (level, payload))
    else pure (some (level, .verbatim payload))
  else pure none

/-- `eslog`, at level `ES_LOG`. -/
def eslog (settings : Settings) (payload : Ref) : Encryption (Option (ℕ × Output Ref)) :=
  logAt heap 15 settings payload

/-- `agentlog`, at level `AGENT_LOG`. -/
def agentlog (settings : Settings) (payload : Ref) : Encryption (Option (ℕ × Output Ref)) :=
  logAt heap 16 settings payload

end LoggerConfig

end SessionManager
