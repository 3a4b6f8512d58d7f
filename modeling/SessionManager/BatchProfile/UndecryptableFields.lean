import SessionManager.BatchProfile.Fields

/-!
# Ciphertexts that cannot be decrypted

A listed column whose ciphertext cannot be decrypted is to be removed, so that no ciphertext is
stored. `decrypt_field_value` returns the ciphertext itself on every failure but that of the key
store, and `_decrypt_fields` removes only what raises.

* `Undecryptable`, `Fails` — a ciphertext that cannot be decrypted, and a column with one.
* `RemovesUndecryptable` — a document without those columns, and with all others.
* `decryptDocument_removes_iff` — when a document is decrypted so.
* `UndecryptableFields.not_removes` — a ciphertext under another key.
-/

namespace SessionManager

open Python

namespace BatchProfile

variable {rt : Runtime}

/-! ### Removal -/

/-- The text is a ciphertext that does not authenticate under the key, or whose plaintext is no
text. -/
def Undecryptable (rt : Runtime) (s : String) : Prop :=
  ∃ data, Carries s data ∧ ∀ plain, openSealed rt data ≠ .ok plain

/-- `key` is a listed column that holds `value`, a ciphertext that cannot be decrypted. -/
def Fails (rt : Runtime) (columns : List String) (key : String) (value : Option Json) : Prop :=
  key ∈ columns ∧ ∃ s, value = some (.str s) ∧ Undecryptable rt s

/-- An entry is removed if it fails, and else kept. -/
def RemovedIfFails (rt : Runtime) (columns : List String) (key : String)
    (before after : Option Json) : Prop :=
  (Fails rt columns key before → after = none) ∧
    (¬ Fails rt columns key before → after.isSome = before.isSome)

/-- On both levels of a document the columns that fail are removed, all other entries are kept, and
those that are not listed with their values. -/
structure RemovesUndecryptable (rt : Runtime) (columns : List String) (doc result : Dict) :
    Prop where
  top : ∀ key, RemovedIfFails rt columns key (doc.lookup key) (result.lookup key)
  unlisted : ∀ key ∉ columns, key ≠ "data" ∨ (∀ data, doc.lookup "data" ≠ some (.obj data)) →
    result.lookup key = doc.lookup key
  nested : ∀ data, doc.lookup "data" = some (.obj data) → ∃ data',
    result.lookup "data" = some (.obj data') ∧
      (∀ key, RemovedIfFails rt columns key (data.lookup key) (data'.lookup key)) ∧
      ∀ key ∉ columns, data'.lookup key = data.lookup key

/-- Some column fails, on one level or the other. -/
def SomeFails (rt : Runtime) (columns : List String) (doc : Dict) : Prop :=
  (∃ key, Fails rt columns key (doc.lookup key)) ∨
    ∃ data key, doc.lookup "data" = some (.obj data) ∧ Fails rt columns key (data.lookup key)

/-! ### One entry -/

section Entry

variable (hcipher : CipherDocumented rt) (hcrypto : rt.hasCryptography = true)
  {columns : List String} {target result : Dict}

include hcipher hcrypto

/-- Without a key store every ciphertext is left out, and nothing else. -/
theorem fieldOf_of_error {e : PyError} (h : rt.symmKey = .error e) (value : Json) :
    (∃ s, value = .str s ∧ Undecryptable rt s) ∧ fieldOf rt value = none ∨
      (∀ s, value = .str s → ¬ Undecryptable rt s) ∧ fieldOf rt value = some value := by
  by_cases htext : ∃ s, value = .str s
  · obtain ⟨s, rfl⟩ := htext
    by_cases hcarries : ∃ data, Carries s data
    · obtain ⟨data, hcarries⟩ := hcarries
      have hopen := openSealed_of_error hcipher h data
      refine .inl ⟨⟨s, rfl, data, hcarries, fun plain hplain => ?_⟩,
        fieldOf_of_removed hcrypto hcarries hopen⟩
      cases hopen.symm.trans hplain
    · refine .inr ⟨?_, fieldOf_of_not_carries hcrypto (not_exists.mp hcarries)⟩
      rintro _ ⟨⟩ ⟨data, hdata, -⟩
      exact hcarries ⟨data, hdata⟩
  · exact .inr ⟨fun s hs => absurd ⟨s, hs⟩ htext, fieldOf_of_ne (not_exists.mp htext)⟩

/-- With a key a ciphertext that cannot be decrypted stays as it is. -/
theorem fieldOf_undecryptable {symmKey s : String} (h : rt.symmKey = .ok symmKey)
    (hs : Undecryptable rt s) : fieldOf rt (.str s) = some (.str s) := by
  obtain ⟨data, hcarries, hfails⟩ := hs
  cases hopen : openSealed rt data with
  | ok plain => exact absurd hopen (hfails plain)
  | error e =>
    have he : e = .valueError ∨ e = .invalidTag := by
      simpa using openSealed_raises hcipher h data e hopen
    exact fieldOf_of_original hcrypto hcarries hopen he

/-- An entry that fails only without a key store is removed if it fails. -/
theorem DecryptsTo.removedIfFails (h : DecryptsTo rt columns target result) (key : String)
    (hkey : Fails rt columns key (target.lookup key) → ∃ e, rt.symmKey = .error e) :
    RemovedIfFails rt columns key (target.lookup key) (result.lookup key) := by
  cases hstore : rt.symmKey with
  | ok symmKey =>
    -- nothing fails, and nothing is left out
    have hnot : ¬ Fails rt columns key (target.lookup key) := by
      intro hfails
      obtain ⟨e, he⟩ := hkey hfails
      cases hstore.symm.trans he
    exact ⟨fun hfails => absurd hfails hnot,
      fun _ => h.isSome_lookup (fieldOf_isSome hcrypto hcipher hstore) key⟩
  | error e =>
    by_cases hlisted : key ∈ columns
    · cases hlookup : target.lookup key with
      | none =>
        refine ⟨fun hfails => ?_, fun _ => ?_⟩
        · obtain ⟨-, s, hs, -⟩ := hfails
          cases hs
        · rw [h.lookup_of_missing hlookup]
      | some value =>
        rcases fieldOf_of_error hcipher hcrypto hstore value with
          ⟨⟨s, rfl, hs⟩, hremoved⟩ | ⟨hfine, hfixed⟩
        · exact ⟨fun _ => h.lookup_of_removed hlisted hlookup hremoved,
            fun hnot => absurd ⟨hlisted, s, rfl, hs⟩ hnot⟩
        · refine ⟨fun hfails => ?_, fun _ => ?_⟩
          · obtain ⟨-, s, hs, hundecryptable⟩ := hfails
            exact absurd hundecryptable (hfine s (Option.some.inj hs))
          · rw [h.lookup_of_fixed hlookup hfixed]
    · exact ⟨fun hfails => absurd hfails.1 hlisted, fun _ => by rw [h.lookup_of_not_mem hlisted]⟩

/-- With a key an entry that fails stays in its place. -/
theorem DecryptsTo.lookup_of_fails (h : DecryptsTo rt columns target result) {symmKey key : String}
    (hstore : rt.symmKey = .ok symmKey) (hfails : Fails rt columns key (target.lookup key)) :
    result.lookup key ≠ none := by
  obtain ⟨-, s, hlookup, hs⟩ := hfails
  rw [h.lookup_of_fixed hlookup (fieldOf_undecryptable hcipher hcrypto hstore hs)]
  nofun

end Entry

/-! ### Documents -/

/-- The object under `data` is no text, and does not fail. -/
theorem not_fails_data {columns : List String} {doc data : Dict}
    (h : doc.lookup "data" = some (.obj data)) : ¬ Fails rt columns "data" (doc.lookup "data") := by
  rintro ⟨-, s, hs, -⟩
  cases h.symm.trans hs

/-- A document is decrypted without the columns that fail if and only if none fails, or there is
no key at all: a malformed or a wrong key, a corrupted ciphertext and a plaintext that is no text
leave the ciphertext in its place. -/
theorem decryptDocument_removes_iff (hcipher : CipherDocumented rt)
    (hcrypto : rt.hasCryptography = true) {doc : Dict} (hplain : isPlain doc = .ok false)
    (columns : List String) :
    (∃ result, decryptDocument rt (.obj doc) (.arr (columns.map .str)) = .ok (.obj result) ∧
        RemovesUndecryptable rt columns doc result) ↔
      (SomeFails rt columns doc → ∃ e, rt.symmKey = .error e) := by
  obtain ⟨result, hresult, ⟨middle, htop, hother, -⟩, hnested⟩ :=
    decryptDocument_spec hcipher hplain columns
  constructor
  · rintro ⟨result', hresult', hremoves⟩ hfails
    obtain rfl := Json.obj.inj (Except.ok.inj (hresult.symm.trans hresult'))
    cases hstore : rt.symmKey with
    | error e => exact ⟨e, rfl⟩
    | ok symmKey =>
      rcases hfails with ⟨key, hkey⟩ | ⟨data, key, hdata, hkey⟩
      · -- an entry that fails is no object, and so decrypted on the top level
        have hmiddle : middle.lookup key = doc.lookup key := by
          refine hother key (or_iff_not_imp_left.mpr fun heq data hdata => ?_)
          obtain rfl := not_not.mp heq
          exact not_fails_data hdata hkey
        exact absurd ((hremoves.top key).1 hkey)
          (htop.lookup_of_fails hcipher hcrypto hstore (hmiddle ▸ hkey))
      · obtain ⟨data', hdata', hspec⟩ := hnested data hdata
        obtain ⟨data'', hdata'', hlevel, -⟩ := hremoves.nested data hdata
        obtain rfl := Json.obj.inj (Option.some.inj (hdata'.symm.trans hdata''))
        exact absurd ((hlevel key).1 hkey) (hspec.lookup_of_fails hcipher hcrypto hstore hkey)
  · -- without a failure every entry is decrypted, and without a key none is touched
    intro hstore
    refine ⟨result, hresult, fun key => ?_, fun key hkey hnot => ?_, fun data hdata => ?_⟩
    · by_cases hobj : key = "data" ∧ ∃ data, doc.lookup "data" = some (.obj data)
      · obtain ⟨rfl, data, hdata⟩ := hobj
        obtain ⟨data', hdata', -⟩ := hnested data hdata
        refine ⟨fun hfails => absurd hfails (not_fails_data hdata), fun _ => ?_⟩
        rw [hdata, hdata']
        rfl
      · have hmiddle : middle.lookup key = doc.lookup key := by
          refine hother key (or_iff_not_imp_left.mpr fun heq data hdata => ?_)
          exact hobj ⟨not_not.mp heq, data, hdata⟩
        rw [← hmiddle]
        exact htop.removedIfFails hcipher hcrypto key fun hfails =>
          hstore (.inl ⟨key, hmiddle ▸ hfails⟩)
    · rw [htop.lookup_of_not_mem hkey, hother key hnot]
    · obtain ⟨data', hdata', hspec⟩ := hnested data hdata
      exact ⟨data', hdata', fun key => hspec.removedIfFails hcipher hcrypto key fun hfails =>
        hstore (.inr ⟨data, key, hdata, hfails⟩), fun key hkey => hspec.lookup_of_not_mem hkey⟩

/-! ### A ciphertext under another key

One column, with the Base64 of 28 zero bytes. -/

namespace UndecryptableFields

/-- A key store with a key under which nothing authenticates. -/
def wrongKey : Runtime :=
  { jsonLoads := fun _ => .error .valueError
    hasCryptography := true
    symmKey := .ok "000102030405060708090a0b0c0d0e0f101112131415161718191a1b1c1d1e1f"
    aesGcmDecrypt := fun _ _ _ => .error .invalidTag }

/-- A key store that cannot be reached. -/
def noKey : Runtime := { wrongKey with symmKey := .error .runtimeError }

/-- The ciphertext. -/
def ciphertext : String := "AAAAAAAAAAAAAAAAAAAAAAAAAAAAAAAAAAAAAA=="

/-- A document of a month: no objects in it. -/
def document : Dict := [("CUSNO", .str "700000001"), ("CUSNM", .str ciphertext)]

theorem wrongKey_documented : CipherDocumented wrongKey := by
  refine ⟨nofun, ?_⟩
  rintro _ _ _ e ⟨⟩
  exact .inl rfl

theorem noKey_documented : CipherDocumented noKey := by
  refine ⟨?_, wrongKey_documented.aesGcmDecrypt_error⟩
  rintro e ⟨⟩
  rfl

theorem ciphertext_carries : Carries ciphertext (List.replicate 28 0) := ⟨by decide, by decide⟩

theorem document_isPlain : isPlain document = .ok false := rfl

/-- The column with the ciphertext fails, whether there is a key or not. -/
theorem document_fails {rt : Runtime}
    (h : ∀ plain, openSealed rt (List.replicate 28 0) ≠ .ok plain) :
    Fails rt ["CUSNM"] "CUSNM" (document.lookup "CUSNM") :=
  ⟨by simp, ciphertext, rfl, _, ciphertext_carries, h⟩

/-- Under the wrong key the ciphertext stays in the document, though it is to be removed. -/
theorem not_removes : CipherDocumented wrongKey ∧ wrongKey.hasCryptography = true ∧
    isPlain document = .ok false ∧ Fails wrongKey ["CUSNM"] "CUSNM" (document.lookup "CUSNM") ∧
      ¬ ∃ result, decryptDocument wrongKey (.obj document) (.arr [.str "CUSNM"]) =
          .ok (.obj result) ∧ RemovesUndecryptable wrongKey ["CUSNM"] document result := by
  have hfails : Fails wrongKey ["CUSNM"] "CUSNM" (document.lookup "CUSNM") :=
    document_fails fun _ => nofun
  refine ⟨wrongKey_documented, rfl, document_isPlain, hfails, ?_⟩
  rintro ⟨result, hresult, hremoves⟩
  -- `InvalidTag` is handled by returning the ciphertext
  have hkept : decryptDocument wrongKey (.obj document) (.arr [.str "CUSNM"]) =
      .ok (.obj document) := rfl
  obtain rfl := Json.obj.inj (Except.ok.inj (hkept.symm.trans hresult))
  cases (hremoves.top "CUSNM").1 hfails

/-- Without a key store it is removed. -/
theorem noKey_removes : ∃ result,
    decryptDocument noKey (.obj document) (.arr (["CUSNM"].map .str)) = .ok (.obj result) ∧
      RemovesUndecryptable noKey ["CUSNM"] document result :=
  (decryptDocument_removes_iff noKey_documented rfl document_isPlain ["CUSNM"]).mpr
    fun _ => ⟨.runtimeError, rfl⟩

end UndecryptableFields

end BatchProfile

end SessionManager
