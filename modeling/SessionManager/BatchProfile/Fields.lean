import Mathlib.Logic.Function.Iterate
import SessionManager.BatchProfile.Decrypted

/-!
# Decryption column by column

What the decryption of a document makes of each of its entries, as a function of the value alone.

* `Carries` — a text that is the Base64 of a nonce, a ciphertext and a tag.
* `fieldOf` — what becomes of a value in a listed column.
* `DecryptsTo`, `decryptFields_spec` — the entries of an object after decryption.
* `DocumentDecryptsTo`, `decryptDocument_spec` — the entries of a document, on both levels.
-/

namespace SessionManager

open Python

namespace BatchProfile

variable {rt : Runtime}

/-! ### Texts -/

/-- The text is the Base64 of `data`, which has room for a nonce and a tag. -/
def Carries (s : String) (data : Bytes) : Prop :=
  b64decode (encodeUtf8 s) = .ok data ∧ aesNonceSize + aesGcmTagSize ≤ data.length

theorem Carries.ne_empty {s : String} {data : Bytes} (h : Carries s data) : s ≠ "" := by
  rintro rfl
  have hnil : data = [] := (Except.ok.inj h.1).symm
  have hlength := h.2
  rw [hnil] at hlength
  exact absurd hlength (by decide)

/-- What is long enough is opened. -/
theorem decryptText_of_carries {s : String} {data : Bytes} (h : Carries s data) :
    decryptText rt s = openSealed rt data := by
  have hlength : ¬ data.length < aesNonceSize + aesGcmTagSize := Nat.not_lt.mpr h.2
  rw [decryptText, h.1]
  exact if_neg hlength

/-- What is not long enough, or no Base64 at all, is returned as it is. -/
theorem orOriginal_of_not_carries {s : String} (h : ∀ data, ¬ Carries s data) :
    orOriginal s (decryptText rt s) = .ok s := by
  -- a text that is not base64, or one too short for a nonce and a tag, is returned as it is
  cases hdecode : b64decode (encodeUtf8 s) with
  | error e =>
    have he : e = .valueError := by simpa using b64decode_raises _ e hdecode
    rw [decryptText, hdecode, he]
    rfl
  | ok data =>
    have hlength : data.length < aesNonceSize + aesGcmTagSize :=
      Nat.lt_of_not_le fun hle => h data ⟨hdecode, hle⟩
    have hpure : decryptText rt s = .ok s := by
      rw [decryptText, hdecode]
      exact if_pos hlength
    rw [hpure]
    rfl

/-- Without a key store nothing is opened. -/
theorem openSealed_of_error (hcipher : CipherDocumented rt) {e : PyError}
    (h : rt.symmKey = .error e) (data : Bytes) : openSealed rt data = .error .runtimeError := by
  rw [openSealed, getCachedKey, h, hcipher.symmKey_error e h]
  rfl

/-- With a key, opening fails in the ways that `decrypt_field_value` handles. -/
theorem openSealed_raises (hcipher : CipherDocumented rt) {symmKey : String}
    (h : rt.symmKey = .ok symmKey) (data : Bytes) :
    RaisesOnly [.valueError, .invalidTag] (openSealed rt data) := by
  have hkey : RaisesOnly [.valueError, .invalidTag] (getCachedKey rt) := by
    rw [getCachedKey, h]
    exact ((fromHex_raises symmKey).mono (by simp)).bind fun key => .ok _
  apply hkey.bind
  intro key
  apply RaisesOnly.bind
  · intro e he
    rcases hcipher.aesGcmDecrypt_error _ _ _ e he with rfl | rfl <;> simp
  · intro plaintext
    exact (decodeUtf8_raises _).mono (by simp)

/-! ### Values -/

/-- What becomes of a value in a listed column: nothing when its decryption raises. -/
def fieldOf (rt : Runtime) : Json → Option Json
  | .str s => if s = "" then some (.str s) else (decryptFieldValue rt (.str s)).toOption
  | value => some value

/-- What is no text stays as it is. -/
theorem fieldOf_of_ne {value : Json} (h : ∀ s, value ≠ .str s) : fieldOf rt value = some value := by
  cases value with
  | str s => exact absurd rfl (h s)
  | _ => rfl

section Texts

variable (hcrypto : rt.hasCryptography = true)

include hcrypto

/-- A text too short to be a ciphertext stays as it is. -/
theorem fieldOf_of_not_carries {s : String} (h : ∀ data, ¬ Carries s data) :
    fieldOf rt (.str s) = some (.str s) := by
  rw [fieldOf]
  split
  · rfl
  · rw [decryptFieldValue, if_pos hcrypto, orOriginal_of_not_carries h]
    rfl

/-- A ciphertext that is opened gives its plaintext. -/
theorem fieldOf_of_opened {s plain : String} {data : Bytes} (h : Carries s data)
    (hopen : openSealed rt data = .ok plain) : fieldOf rt (.str s) = some (.str plain) := by
  rw [fieldOf, if_neg h.ne_empty, decryptFieldValue, if_pos hcrypto, decryptText_of_carries h,
    hopen]
  rfl

/-- A ciphertext that cannot be opened with the key stays as it is. -/
theorem fieldOf_of_original {s : String} {data : Bytes} {e : PyError} (h : Carries s data)
    (hopen : openSealed rt data = .error e) (he : e = .valueError ∨ e = .invalidTag) :
    fieldOf rt (.str s) = some (.str s) := by
  rw [fieldOf, if_neg h.ne_empty, decryptFieldValue, if_pos hcrypto, decryptText_of_carries h,
    hopen]
  rcases he with rfl | rfl
  · rfl
  · rfl

/-- Without a key a ciphertext is left out. -/
theorem fieldOf_of_removed {s : String} {data : Bytes} (h : Carries s data)
    (hopen : openSealed rt data = .error .runtimeError) : fieldOf rt (.str s) = none := by
  rw [fieldOf, if_neg h.ne_empty, decryptFieldValue, if_pos hcrypto, decryptText_of_carries h,
    hopen]
  rfl

/-- With a key every value is kept, decrypted or as it is. -/
theorem fieldOf_isSome (hcipher : CipherDocumented rt) {symmKey : String}
    (hkey : rt.symmKey = .ok symmKey) (value : Json) : (fieldOf rt value).isSome := by
  -- only a text is decrypted, and its failures are all among those that return the original
  by_cases htext : ∃ s, value = .str s
  · obtain ⟨s, rfl⟩ := htext
    by_cases hcarries : ∃ data, Carries s data
    · obtain ⟨data, hcarries⟩ := hcarries
      cases hopen : openSealed rt data with
      | ok plain => rw [fieldOf_of_opened hcrypto hcarries hopen]; rfl
      | error e =>
        have he : e = .valueError ∨ e = .invalidTag := by
          simpa using openSealed_raises hcipher hkey data e hopen
        rw [fieldOf_of_original hcrypto hcarries hopen he]
        rfl
    · rw [fieldOf_of_not_carries hcrypto (not_exists.mp hcarries)]
      rfl
  · rw [fieldOf_of_ne (not_exists.mp htext)]
    rfl

end Texts

/-! ### Objects -/

theorem lookup_popKey (d : Dict) (key other : String) :
    (popKey d key).lookup other = if other = key then none else d.lookup other := by
  induction d with
  | nil => simp [popKey]
  | cons entry d ih =>
    obtain ⟨key', value⟩ := entry
    -- the entry at the head is dropped or kept
    by_cases hkey : key' = key
    · have hpop : popKey ((key', value) :: d) key = popKey d key := by simp [popKey, hkey]
      rw [hpop, ih]
      split
      · rfl
      · next hother =>
        have hne : (other == key') = false := by simpa [hkey] using hother
        rw [List.lookup_cons, hne]
    · have hpop : popKey ((key', value) :: d) key = (key', value) :: popKey d key := by
        simp [popKey, hkey]
      rw [hpop, List.lookup_cons, List.lookup_cons, ih]
      by_cases hother : other = key'
      · have hne : other ≠ key := fun h => hkey (hother.symm.trans h)
        simp [hother, hkey]
      · have hne : (other == key') = false := by simpa using hother
        simp [hne]

/-- One column: its value becomes `fieldOf` of it, and no other entry changes. -/
theorem lookup_decryptColumn (hcipher : CipherDocumented rt) {target result : Dict} {col : String}
    (h : decryptColumn rt target (.str col) = .ok result) (key : String) :
    result.lookup key =
      if key = col then (target.lookup col).bind (fieldOf rt) else target.lookup key := by
  -- a column that is not decrypted leaves the object as it is
  have hsame : target = result → (target.lookup col).bind (fieldOf rt) = target.lookup col →
      result.lookup key =
        if key = col then (target.lookup col).bind (fieldOf rt) else target.lookup key := by
    rintro rfl hfield
    rw [hfield]
    split
    · next hkey => rw [hkey]
    · rfl
  rw [decryptColumn] at h
  cases hlookup : target.lookup col with
  | none =>
    rw [hlookup] at h
    exact hlookup ▸ hsame (Except.ok.inj h) (by rw [hlookup]; rfl)
  | some value =>
    by_cases htext : ∃ s, value = .str s
    · obtain ⟨s, rfl⟩ := htext
      rw [hlookup] at h
      dsimp only at h
      by_cases hempty : s = ""
      · rw [if_pos hempty] at h
        refine hlookup ▸ hsame (Except.ok.inj h) ?_
        rw [hlookup, hempty]
        rfl
      · rw [if_neg hempty] at h
        cases hvalue : decryptFieldValue rt (.str s) with
        | ok plain =>
          have hfield : fieldOf rt (.str s) = some plain := by
            rw [fieldOf, if_neg hempty, hvalue]
            rfl
          rw [hvalue] at h
          obtain rfl := Except.ok.inj h
          rw [Option.bind_some, hfield]
          split
          · next hkey => rw [hkey, Dict.lookup_set_self]
          · next hkey => exact Dict.lookup_set_of_ne _ hkey _
        | error e =>
          -- the key store is the only thing that fails here
          have he : e = .runtimeError := by
            simpa using decryptFieldValue_raises hcipher s e hvalue
          have hfield : fieldOf rt (.str s) = none := by
            rw [fieldOf, if_neg hempty, hvalue]
            rfl
          rw [hvalue, he] at h
          obtain rfl := Except.ok.inj h
          rw [Option.bind_some, hfield]
          exact lookup_popKey target col key
    · have hfield : fieldOf rt value = some value := fieldOf_of_ne (not_exists.mp htext)
      have hok : target = result := by
        rw [hlookup] at h
        cases value with
        | str s => exact absurd ⟨s, rfl⟩ htext
        | _ => exact Except.ok.inj h
      exact hlookup ▸ hsame hok (by rw [hlookup]; exact hfield)

/-- Setting a key that is there keeps the keys. -/
theorem keys_set {d : Dict} {key : String} (h : (d.lookup key).isSome) (value : Json) :
    (d.set key value).map Prod.fst = d.map Prod.fst := by
  induction d with
  | nil => cases h
  | cons entry d ih =>
    obtain ⟨key', value'⟩ := entry
    rw [Dict.set]
    by_cases hkey : key' = key
    · rw [if_pos hkey, List.map_cons, List.map_cons, hkey]
    · have hne : (key == key') = false := by simpa using fun heq => hkey heq.symm
      rw [List.lookup_cons, hne] at h
      rw [if_neg hkey, List.map_cons, List.map_cons, ih h]

/-- One column keeps the keys, unless its value is left out. -/
theorem keys_decryptColumn (hkept : ∀ value, (fieldOf rt value).isSome) {target result : Dict}
    {col : String} (h : decryptColumn rt target (.str col) = .ok result) :
    result.map Prod.fst = target.map Prod.fst := by
  rw [decryptColumn] at h
  -- a column is set only where it already has a text
  split at h
  · next s hlookup =>
    split at h
    · rw [Except.ok.inj h]
    · next hempty =>
      have hfield := hkept (.str s)
      rw [fieldOf, if_neg hempty] at hfield
      cases hvalue : decryptFieldValue rt (.str s) with
      | error e => rw [hvalue] at hfield; cases hfield
      | ok value =>
        rw [hvalue] at h
        obtain rfl := Except.ok.inj h
        exact keys_set (by rw [hlookup]; rfl) value
  · rw [Except.ok.inj h]

/-- The entries of an object after decryption: a value is decrypted as often as its column is
listed. -/
structure DecryptsTo (rt : Runtime) (columns : List String) (target result : Dict) : Prop where
  lookup_eq : ∀ key, result.lookup key =
    (Option.bind · (fieldOf rt))^[columns.count key] (target.lookup key)
  keys : (∀ value, (fieldOf rt value).isSome) → result.map Prod.fst = target.map Prod.fst

theorem DecryptsTo.refl (target : Dict) : DecryptsTo rt [] target target :=
  ⟨fun _ => rfl, fun _ => rfl⟩

/-- One column, and then the others. -/
theorem DecryptsTo.cons (hcipher : CipherDocumented rt) {col : String} {columns : List String}
    {target middle result : Dict} (hcol : decryptColumn rt target (.str col) = .ok middle)
    (h : DecryptsTo rt columns middle result) : DecryptsTo rt (col :: columns) target result := by
  refine ⟨fun key => ?_, fun hkept => (h.keys hkept).trans (keys_decryptColumn hkept hcol)⟩
  rw [h.lookup_eq key, lookup_decryptColumn hcipher hcol key, List.count_cons]
  by_cases hkey : key = col
  · subst hkey
    rw [if_pos rfl, if_pos (beq_self_eq_true key), Function.iterate_succ_apply]
  · have hne : (col == key) = false := by simpa using fun heq => hkey heq.symm
    simp [hne, hkey]

theorem decryptFields_spec (hcipher : CipherDocumented rt) (target : Dict)
    (columns : List String) :
    ∃ result, decryptFields rt target (.arr (columns.map .str)) = .ok result ∧
      DecryptsTo rt columns target result := by
  show ∃ result, (columns.map Json.str).foldlM (decryptColumn rt) target = .ok result ∧ _
  induction columns generalizing target with
  | nil => exact ⟨target, rfl, .refl target⟩
  | cons col columns ih =>
    obtain ⟨middle, hcol⟩ := (decryptColumn_raises hcipher target col).returns
    obtain ⟨result, hresult, hspec⟩ := ih middle
    refine ⟨result, ?_, hspec.cons hcipher hcol⟩
    rw [List.map_cons, List.foldlM_cons, hcol]
    exact hresult

namespace DecryptsTo

variable {columns : List String} {target result : Dict} (h : DecryptsTo rt columns target result)

include h

/-- A column that is not listed. -/
theorem lookup_of_not_mem {key : String} (hkey : key ∉ columns) :
    result.lookup key = target.lookup key := by
  rw [h.lookup_eq key, List.count_eq_zero_of_not_mem hkey]
  rfl

/-- A column that is listed once. -/
theorem lookup_of_nodup (hnodup : columns.Nodup) {key : String} (hkey : key ∈ columns) :
    result.lookup key = (target.lookup key).bind (fieldOf rt) := by
  rw [h.lookup_eq key, List.count_eq_one_of_mem hnodup hkey]
  rfl

/-- A column without a value. -/
theorem lookup_of_missing {key : String} (hlookup : target.lookup key = none) :
    result.lookup key = none := by
  rw [h.lookup_eq key, hlookup]
  exact Function.iterate_fixed rfl _

/-- A value that decryption leaves as it is. -/
theorem lookup_of_fixed {key : String} {value : Json} (hlookup : target.lookup key = some value)
    (hfixed : fieldOf rt value = some value) : result.lookup key = some value := by
  rw [h.lookup_eq key, hlookup]
  exact Function.iterate_fixed hfixed _

/-- A value that is left out. -/
theorem lookup_of_removed {key : String} {value : Json} (hkey : key ∈ columns)
    (hlookup : target.lookup key = some value) (hremoved : fieldOf rt value = none) :
    result.lookup key = none := by
  obtain ⟨n, hn⟩ := Nat.exists_eq_add_one.mpr (List.count_pos_iff.mpr hkey)
  rw [h.lookup_eq key, hlookup, hn, Function.iterate_succ_apply, Option.bind_some, hremoved]
  -- what is left out is not decrypted again
  exact Function.iterate_fixed rfl n

/-- As long as no value is left out, no entry is. -/
theorem isSome_lookup (hkept : ∀ value, (fieldOf rt value).isSome) (key : String) :
    (result.lookup key).isSome = (target.lookup key).isSome := by
  rw [h.lookup_eq key]
  generalize columns.count key = n
  generalize target.lookup key = value
  induction n generalizing value with
  | zero => rfl
  | succ n ih =>
    rw [Function.iterate_succ_apply, ih]
    cases value with
    | none => rfl
    | some value => exact hkept value

end DecryptsTo

/-! ### Documents -/

/-- The entries of a document after decryption: those of the object under `data`, if there is one,
and the others. -/
structure DocumentDecryptsTo (rt : Runtime) (columns : List String) (doc result : Dict) :
    Prop where
  top : ∃ middle, DecryptsTo rt columns middle result ∧
    (∀ key, key ≠ "data" ∨ (∀ data, doc.lookup "data" ≠ some (.obj data)) →
      middle.lookup key = doc.lookup key) ∧
    middle.map Prod.fst = doc.map Prod.fst
  nested : ∀ data, doc.lookup "data" = some (.obj data) → ∃ data',
    result.lookup "data" = some (.obj data') ∧ DecryptsTo rt columns data data'

/-- Without columns a document stays as it is. -/
theorem DocumentDecryptsTo.refl (doc : Dict) : DocumentDecryptsTo rt [] doc doc :=
  ⟨⟨doc, .refl doc, fun _ _ => rfl, rfl⟩, fun data hdata => ⟨data, hdata, .refl data⟩⟩

/-- The first step of a decryption: the object under `data`. -/
theorem decryptData_spec (hcipher : CipherDocumented rt) (doc : Dict) (columns : List String) :
    ∃ middle, decryptData rt doc (.arr (columns.map .str)) = .ok middle ∧
      (∀ key, key ≠ "data" ∨ (∀ data, doc.lookup "data" ≠ some (.obj data)) →
        middle.lookup key = doc.lookup key) ∧
      middle.map Prod.fst = doc.map Prod.fst ∧
      ∀ data, doc.lookup "data" = some (.obj data) → ∃ data',
        middle.lookup "data" = some (.obj data') ∧ DecryptsTo rt columns data data' := by
  -- `data` is decrypted only where it is an object
  rw [decryptData]
  split
  · next data hdata =>
    obtain ⟨data', hdata', hspec⟩ := decryptFields_spec hcipher data columns
    rw [hdata']
    refine ⟨doc.set "data" (.obj data'), rfl, ?_, keys_set (by rw [hdata]; rfl) _, ?_⟩
    · rintro key (hkey | hnone)
      · exact Dict.lookup_set_of_ne doc hkey _
      · exact absurd hdata (hnone data)
    · intro other hother
      obtain rfl := Json.obj.inj (Option.some.inj (hdata.symm.trans hother))
      exact ⟨data', Dict.lookup_set_self .., hspec⟩
  · next hnone => exact ⟨doc, rfl, fun _ _ => rfl, rfl, fun data hdata => absurd hdata (hnone data)⟩

/-- A document without `encrypted_yn` is encrypted. -/
theorem isPlain_of_absent {doc : Dict} (h : doc.lookup "encrypted_yn" = none) :
    isPlain doc = .ok false := by
  rw [isPlain, Dict.get, h]
  rfl

/-- A document is encrypted unless its `encrypted_yn` is zero. -/
theorem isPlain_of_int {doc : Dict} {n : ℤ} (h : doc.lookup "encrypted_yn" = some (.int n)) :
    isPlain doc = .ok (decide (n = 0)) := by
  rw [isPlain, Dict.get, h]
  rfl

/-- An encrypted document, decrypted. -/
theorem decryptDocument_spec (hcipher : CipherDocumented rt) {doc : Dict}
    (hplain : isPlain doc = .ok false) (columns : List String) :
    ∃ result, decryptDocument rt (.obj doc) (.arr (columns.map .str)) = .ok (.obj result) ∧
      DocumentDecryptsTo rt columns doc result := by
  by_cases hcolumns : columns = []
  · subst hcolumns
    exact ⟨doc, rfl, .refl doc⟩
  · have htruthy : (Json.arr (columns.map .str)).truthy = true := by
      simpa [Json.truthy] using hcolumns
    -- two passes: first over the fields under `data`, then over those of the document itself
    obtain ⟨middle, hmiddle, hother, hkeys, hnested⟩ := decryptData_spec hcipher doc columns
    obtain ⟨result, hresult, hspec⟩ := decryptFields_spec hcipher middle columns
    refine ⟨result, ?_, ⟨middle, hspec, hother, hkeys⟩, fun data hdata => ?_⟩
    · rw [decryptDocument, if_pos htruthy]
      show (do
        if ← isPlain doc then pure (Json.obj doc)
        else
          let result ← decryptData rt doc (.arr (columns.map .str))
          pure (.obj (← decryptFields rt result (.arr (columns.map .str))))) = _
      rw [hplain]
      show (do
        let result ← decryptData rt doc (.arr (columns.map .str))
        pure (Json.obj (← decryptFields rt result (.arr (columns.map .str))))) = _
      rw [hmiddle]
      show (do pure (Json.obj (← decryptFields rt middle (.arr (columns.map .str))))) = _
      rw [hresult]
      rfl
    · -- the second pass finds no text under `data`
      obtain ⟨data', hlookup, hdata'⟩ := hnested data hdata
      exact ⟨data', hspec.lookup_of_fixed hlookup rfl, hdata'⟩

end BatchProfile

end SessionManager
