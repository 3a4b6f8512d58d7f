import SessionManager.Python.Base64
import SessionManager.BatchProfile.Fields

/-!
# Field encryption

A record is stored with the values of some columns encrypted: the Base64 of a nonce and of what
AES-GCM seals under it. Decryption inverts that on both levels of a document, and touches nothing
else.

* `Seals`, `IsEncrypted` — the cipher, and an encrypted value.
* `Inverts`, `InvertsDocument` — an object and a document with its columns decrypted.
* `decryptDocument_inverts` — the decryption of a document.
* `FieldEncryption.decryptDocument_kim` — one name, encrypted on both levels.
-/

namespace SessionManager

open Python

namespace BatchProfile

variable {rt : Runtime}

/-! ### Encrypted values -/

/-- `encrypt key nonce plaintext` is a ciphertext and its tag, and `AESGCM(key).decrypt` inverts it
for a key of 32 bytes and a nonce of 12. -/
structure Seals (rt : Runtime) (encrypt : Bytes → Bytes → Bytes → Bytes) : Prop where
  opens : ∀ key nonce plaintext, key.length = 32 → nonce.length = aesNonceSize →
    rt.aesGcmDecrypt key nonce (encrypt key nonce plaintext) = .ok plaintext
  tagged : ∀ key nonce plaintext, aesGcmTagSize ≤ (encrypt key nonce plaintext).length

/-- The text is `Base64(nonce[12] + ciphertext + tag[16])` of `plain`. -/
def IsEncrypted (encrypt : Bytes → Bytes → Bytes → Bytes) (key : Bytes) (plain s : String) : Prop :=
  ∃ nonce : Bytes, nonce.length = aesNonceSize ∧
    encodeUtf8 s = b64encode (nonce ++ encrypt key nonce (encodeUtf8 plain))

section Cipher

variable {encrypt : Bytes → Bytes → Bytes → Bytes} {key : Bytes} (hseals : Seals rt encrypt)
  (hkey : getCachedKey rt = .ok key)

include hseals

theorem carries_of_nonce {nonce plaintext : Bytes} {s : String}
    (hnonce : nonce.length = aesNonceSize)
    (hs : encodeUtf8 s = b64encode (nonce ++ encrypt key nonce plaintext)) :
    Carries s (nonce ++ encrypt key nonce plaintext) := by
  refine ⟨by rw [hs, b64decode_b64encode], ?_⟩
  rw [List.length_append, hnonce]
  exact Nat.add_le_add_left (hseals.tagged key nonce plaintext) _

include hkey

theorem openSealed_of_nonce (hlength : key.length = 32) {nonce : Bytes}
    (hnonce : nonce.length = aesNonceSize) (plain : String) :
    openSealed rt (nonce ++ encrypt key nonce (encodeUtf8 plain)) = .ok plain := by
  -- the nonce is cut off again, since its length is the one that is cut
  have htake : (nonce ++ encrypt key nonce (encodeUtf8 plain)).take aesNonceSize = nonce := by
    rw [← hnonce, List.take_left]
  have hdrop : (nonce ++ encrypt key nonce (encodeUtf8 plain)).drop aesNonceSize =
      encrypt key nonce (encodeUtf8 plain) := by
    rw [← hnonce, List.drop_left]
  rw [openSealed, hkey, htake, hdrop]
  show (do
    let plaintext ← rt.aesGcmDecrypt key nonce (encrypt key nonce (encodeUtf8 plain))
    decodeUtf8 plaintext) = _
  rw [hseals.opens key nonce _ hlength hnonce]
  exact decodeUtf8_encodeUtf8 plain

/-- An encrypted value becomes its plaintext. -/
theorem fieldOf_of_isEncrypted (hcrypto : rt.hasCryptography = true) (hlength : key.length = 32)
    {plain s : String} (hs : IsEncrypted encrypt key plain s) :
    fieldOf rt (.str s) = some (.str plain) := by
  obtain ⟨nonce, hnonce, hs⟩ := hs
  exact fieldOf_of_opened hcrypto (carries_of_nonce hseals hnonce hs)
    (openSealed_of_nonce hseals hkey hlength hnonce plain)

end Cipher

/-! ### Decrypted objects -/

/-- In `result` the listed columns of `target` are decrypted: an encrypted value has become its
plaintext, a text that is too short to be one and what is no text are as they were, and the keys
are the same. -/
structure Inverts (encrypt : Bytes → Bytes → Bytes → Bytes) (key : Bytes) (columns : List String)
    (target result : Dict) : Prop where
  encrypted : ∀ col ∈ columns, ∀ plain s, target.lookup col = some (.str s) →
    IsEncrypted encrypt key plain s → result.lookup col = some (.str plain)
  short : ∀ col ∈ columns, ∀ s, target.lookup col = some (.str s) → (∀ data, ¬ Carries s data) →
    result.lookup col = some (.str s)
  other : ∀ col ∈ columns, ∀ value, target.lookup col = some value → (∀ s, value ≠ .str s) →
    result.lookup col = some value
  keys : result.map Prod.fst = target.map Prod.fst

/-- In `result` the document `doc` is decrypted, on the top level and in the object under `data`,
and no other value has changed. -/
structure InvertsDocument (encrypt : Bytes → Bytes → Bytes → Bytes) (key : Bytes)
    (columns : List String) (doc result : Dict) : Prop where
  top : Inverts encrypt key columns doc result
  unlisted : ∀ col ∉ columns, col ≠ "data" ∨ (∀ data, doc.lookup "data" ≠ some (.obj data)) →
    result.lookup col = doc.lookup col
  nested : ∀ data, doc.lookup "data" = some (.obj data) → ∃ data',
    result.lookup "data" = some (.obj data') ∧ Inverts encrypt key columns data data' ∧
      ∀ col ∉ columns, data'.lookup col = data.lookup col

section Inversion

variable {encrypt : Bytes → Bytes → Bytes → Bytes} {key : Bytes} {columns : List String}

/-- One pass of `_decrypt_fields` over columns that are listed once. -/
theorem DecryptsTo.inverts (hcipher : CipherDocumented rt) (hcrypto : rt.hasCryptography = true)
    (hseals : Seals rt encrypt) (hkey : getCachedKey rt = .ok key) (hlength : key.length = 32)
    (hnodup : columns.Nodup) {target result : Dict} (h : DecryptsTo rt columns target result) :
    Inverts encrypt key columns target result := by
  refine ⟨?_, ?_, ?_, ?_⟩
  · intro col hcol plain s hlookup hs
    -- the column is listed once, so the plaintext is not decrypted again
    rw [h.lookup_of_nodup hnodup hcol, hlookup]
    exact fieldOf_of_isEncrypted hseals hkey hcrypto hlength hs
  · intro col _ s hlookup hs
    exact h.lookup_of_fixed hlookup (fieldOf_of_not_carries hcrypto hs)
  · intro col _ value hlookup hvalue
    exact h.lookup_of_fixed hlookup (fieldOf_of_ne hvalue)
  · apply h.keys
    intro value
    cases hstore : rt.symmKey with
    | ok symmKey => exact fieldOf_isSome hcrypto hcipher hstore value
    | error e =>
      rw [getCachedKey, hstore] at hkey
      cases hkey

/-- The same object, but for an entry that is no column. -/
theorem Inverts.of_lookup {target middle result : Dict}
    (h : Inverts encrypt key columns middle result)
    (hlookup : ∀ col ∈ columns, middle.lookup col = target.lookup col)
    (hkeys : middle.map Prod.fst = target.map Prod.fst) :
    Inverts encrypt key columns target result := by
  refine ⟨?_, ?_, ?_, h.keys.trans hkeys⟩
  · intro col hcol plain s htarget
    exact h.encrypted col hcol plain s ((hlookup col hcol).trans htarget)
  · intro col hcol s htarget
    exact h.short col hcol s ((hlookup col hcol).trans htarget)
  · intro col hcol value htarget
    exact h.other col hcol value ((hlookup col hcol).trans htarget)

end Inversion

/-- An encrypted document is decrypted, and one that is not encrypted is returned as it is. -/
theorem decryptDocument_inverts (hcipher : CipherDocumented rt)
    (hcrypto : rt.hasCryptography = true) {encrypt : Bytes → Bytes → Bytes → Bytes}
    (hseals : Seals rt encrypt) {key : Bytes} (hkey : getCachedKey rt = .ok key)
    (hlength : key.length = 32) (doc : Dict) {columns : List String} (hnodup : columns.Nodup)
    (hdata : "data" ∉ columns) :
    ((doc.lookup "encrypted_yn" = none ∨
        ∃ n : ℤ, n ≠ 0 ∧ doc.lookup "encrypted_yn" = some (.int n)) →
      ∃ result, decryptDocument rt (.obj doc) (.arr (columns.map .str)) = .ok (.obj result) ∧
        InvertsDocument encrypt key columns doc result) ∧
    (doc.lookup "encrypted_yn" = some (.int 0) ∨ columns = [] →
      decryptDocument rt (.obj doc) (.arr (columns.map .str)) = .ok (.obj doc)) := by
  constructor
  · intro hencrypted
    -- only the number 0 marks a document as plain
    have hplain : isPlain doc = .ok false := by
      rcases hencrypted with hnone | ⟨n, hn, hint⟩
      · exact isPlain_of_absent hnone
      · rw [isPlain_of_int hint, decide_eq_false hn]
    obtain ⟨result, hresult, ⟨middle, htop, hother, hkeys⟩, hnested⟩ :=
      decryptDocument_spec hcipher hplain columns
    refine ⟨result, hresult, ?_, ?_, ?_⟩
    · refine (htop.inverts hcipher hcrypto hseals hkey hlength hnodup).of_lookup ?_ hkeys
      intro col hcol
      exact hother col (.inl fun heq => hdata (heq ▸ hcol))
    · intro col hcol hnot
      rw [htop.lookup_of_not_mem hcol, hother col hnot]
    · intro data hlookup
      obtain ⟨data', hdata', hspec⟩ := hnested data hlookup
      exact ⟨data', hdata', hspec.inverts hcipher hcrypto hseals hkey hlength hnodup,
        fun col hcol => hspec.lookup_of_not_mem hcol⟩
  · rintro (hzero | rfl)
    · rw [decryptDocument]
      split
      · have hplain : isPlain doc = .ok true := isPlain_of_int hzero
        show (do if ← isPlain doc then pure (Json.obj doc) else _) = _
        rw [hplain]
        rfl
      · rfl
    · rfl

/-! ### An encrypted name

A ciphertext of AES-256-GCM under the key and the nonce of zeros. -/

namespace FieldEncryption

/-- What `Kim` is encrypted to, with its tag. -/
def sealedKim : Bytes :=
  [133, 206, 45, 241, 254, 245, 155, 98, 252, 57, 225, 228, 166, 68, 101, 225, 163, 207, 32]

/-- A tag for every other plaintext. -/
def zeroTag : Bytes := List.replicate 16 0

/-- A cipher that is AES-256-GCM on the sample. -/
def encrypt (_key _nonce plaintext : Bytes) : Bytes :=
  if plaintext = encodeUtf8 "Kim" then sealedKim else plaintext ++ zeroTag

/-- Its inverse, with a key of 32 zeros. -/
def runtime : Runtime :=
  { jsonLoads := fun _ => .error .valueError
    hasCryptography := true
    symmKey := .ok (String.ofList (List.replicate 64 '0'))
    aesGcmDecrypt := fun _ _ data =>
      if data = sealedKim then .ok (encodeUtf8 "Kim")
      else if data.drop (data.length - 16) = zeroTag then .ok (data.take (data.length - 16))
      else .error .invalidTag }

theorem runtime_documented : CipherDocumented runtime := by
  refine ⟨nofun, ?_⟩
  intro key nonce data e he
  simp only [runtime] at he
  split_ifs at he
  · obtain rfl := Except.error.inj he
    exact .inl rfl

theorem seals : Seals runtime encrypt := by
  refine ⟨fun key nonce plaintext _ _ => ?_, fun key nonce plaintext => ?_⟩
  · rw [encrypt]
    split
    · next hkim =>
      simp only [runtime]
      rw [if_pos trivial, hkim]
    · have hlength : (plaintext ++ zeroTag).length - 16 = plaintext.length := by simp [zeroTag]
      -- the tags differ
      have hne : plaintext ++ zeroTag ≠ sealedKim := by
        intro heq
        have hlast := congrArg List.getLast? heq
        simp [zeroTag, sealedKim] at hlast
      simp only [runtime]
      rw [if_neg hne, hlength, List.drop_left, if_pos rfl, List.take_left]
  · rw [encrypt]
    split
    · decide
    · simp [zeroTag, aesGcmTagSize]

/-- A document with the name on both levels, and an empty text in another column. -/
def document : Dict :=
  [("CUSNO", .str "7"), ("CUSNM", .str "AAAAAAAAAAAAAAAAhc4t8f71m2L8OeHkpkRl4aPPIA=="),
    ("data", .obj [("CUSNM", .str "AAAAAAAAAAAAAAAAhc4t8f71m2L8OeHkpkRl4aPPIA=="),
      ("HOME_ADR", .str "")])]

/-- Both names are decrypted. -/
theorem decryptDocument_kim :
    (∃ result, decryptDocument runtime (.obj document) (.arr (["CUSNM", "HOME_ADR"].map .str)) =
        .ok (.obj result) ∧
      InvertsDocument encrypt (List.replicate 32 0) ["CUSNM", "HOME_ADR"] document result) ∧
    IsEncrypted encrypt (List.replicate 32 0) "Kim"
      "AAAAAAAAAAAAAAAAhc4t8f71m2L8OeHkpkRl4aPPIA==" :=
  ⟨(decryptDocument_inverts runtime_documented rfl seals (by decide) rfl document (by decide)
      (by decide)).1 (.inl rfl), List.replicate 12 0, rfl, by decide⟩

end FieldEncryption

end BatchProfile

end SessionManager
