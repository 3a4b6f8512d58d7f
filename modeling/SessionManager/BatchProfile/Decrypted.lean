import SessionManager.BatchProfile.Directory

/-!
# Decryption and labels of a document

What becomes of a document that has been found, and when that raises.

* `CipherDocumented` — what is assumed of the cryptography.
* `decryptFieldValue_raises`, `decryptColumn_raises` — decryption of a field raises at most
  `RuntimeError`, which `_decrypt_fields` handles.
* `IsResult`, `finish_eq_ok` — the document decrypted, or as it is, and labelled.
* `Finishable`, `finish_cases` — the documents that can be.
* `finish_returns_iff` — a document is returned unless its `encrypted_yn` is no number.
-/

namespace SessionManager

open Python

namespace BatchProfile

variable {rt : Runtime} {range : Bytes → Json → Json → Except PyError Bytes}

/-- What is assumed of the cryptography alone. -/
structure CipherDocumented (rt : Runtime) : Prop where
  symmKey_error : ∀ e, rt.symmKey = .error e → e = .runtimeError
  aesGcmDecrypt_error : ∀ key nonce data e, rt.aesGcmDecrypt key nonce data = .error e →
    e = .invalidTag ∨ e = .valueError

theorem Documented.cipher (hdoc : Documented rt range) : CipherDocumented rt :=
  ⟨hdoc.symmKey_error, hdoc.aesGcmDecrypt_error⟩

/-- Without a key store nothing is decrypted. -/
theorem CipherDocumented.of_keyless (hkey : rt.symmKey = .error .runtimeError)
    (hdecrypt : ∀ key nonce data, rt.aesGcmDecrypt key nonce data = .error .invalidTag) :
    CipherDocumented rt := by
  refine ⟨fun e he => ?_, fun key nonce data e he => .inl ?_⟩
  · exact (Except.error.inj (hkey.symm.trans he)).symm
  · exact (Except.error.inj ((hdecrypt key nonce data).symm.trans he)).symm

/-! ### Fields -/

theorem getCachedKey_raises (hcipher : CipherDocumented rt) :
    RaisesOnly [.valueError, .runtimeError] (getCachedKey rt) := by
  apply RaisesOnly.bind
  · intro e he
    rw [hcipher.symmKey_error e he]
    simp
  · intro symmKey
    exact ((fromHex_raises symmKey).mono (by simp)).bind fun key => .ok _

theorem decryptText_raises (hcipher : CipherDocumented rt) (s : String) :
    RaisesOnly [.valueError, .runtimeError, .invalidTag] (decryptText rt s) := by
  apply ((b64decode_raises _).mono (by simp)).bind
  intro encryptedData
  split
  · exact .ok _
  · apply ((getCachedKey_raises hcipher).mono (by simp)).bind
    intro key
    apply RaisesOnly.bind
    · intro e he
      rcases hcipher.aesGcmDecrypt_error _ _ _ e he with rfl | rfl <;> simp
    · intro plaintext
      exact (decodeUtf8_raises _).mono (by simp)

/-- A missing key is all that decryption of a text raises. -/
theorem decryptFieldValue_raises (hcipher : CipherDocumented rt) (s : String) :
    RaisesOnly [.runtimeError] (decryptFieldValue rt (.str s)) := by
  rw [decryptFieldValue]
  split
  · apply RaisesOnly.map
    have htext := decryptText_raises hcipher s
    cases hx : decryptText rt s with
    | ok plaintext => exact .ok _
    | error e =>
      have he := htext e hx
      simp only [List.mem_cons, List.not_mem_nil, or_false] at he
      rcases he with rfl | rfl | rfl
      · exact .ok _
      · exact .error (by simp)
      · exact .ok _
  · exact .ok _

theorem decryptColumn_raises (hcipher : CipherDocumented rt) (result : Dict) (key : String) :
    RaisesOnly [] (decryptColumn rt result (.str key)) := by
  rw [decryptColumn]
  split
  · next s hlookup =>
    split
    · exact .ok _
    · cases hx : decryptFieldValue rt (.str s) with
      | ok value => exact .ok _
      | error e =>
        have he := decryptFieldValue_raises hcipher s e hx
        rw [List.mem_singleton] at he
        subst he
        exact .ok _
  · exact .ok _

/-! ### Documents -/

/-- What `retrieve_cusno` makes of a document: decrypted, or as it is when that raises `ValueError`
or `RuntimeError`, and then labelled. -/
def IsResult (rt : Runtime) (metadata : Meta) (doc result : Json) : Prop :=
  ∃ plain, (decryptDocument rt doc metadata.encryptedColumns = .ok plain ∨
      (decryptDocument rt doc metadata.encryptedColumns = .error .valueError ∨
        decryptDocument rt doc metadata.encryptedColumns = .error .runtimeError) ∧ plain = doc) ∧
    applyColumnMapping plain metadata.columnMapping = .ok result

theorem decrypted_eq_ok {doc encryptedColumns plain : Json} :
    decrypted rt doc encryptedColumns = .ok plain ↔
      decryptDocument rt doc encryptedColumns = .ok plain ∨
        (decryptDocument rt doc encryptedColumns = .error .valueError ∨
          decryptDocument rt doc encryptedColumns = .error .runtimeError) ∧ plain = doc := by
  rw [decrypted]
  cases hx : decryptDocument rt doc encryptedColumns with
  | ok value => simp
  | error e =>
    by_cases he : e ∈ [PyError.valueError, .runtimeError]
    · have hcases : e = .valueError ∨ e = .runtimeError := by simpa using he
      simp [hcases, eq_comm]
    · have hcases : ¬ (e = .valueError ∨ e = .runtimeError) := by simpa using he
      simp [hcases]

/-- What is returned is the document decrypted and labelled. -/
theorem finish_eq_ok {doc result : Json} {metadata : Meta} :
    finish rt doc metadata = .ok result ↔ IsResult rt metadata doc result := by
  have hbind : finish rt doc metadata = decrypted rt doc metadata.encryptedColumns >>=
      fun plain => applyColumnMapping plain metadata.columnMapping := rfl
  rw [hbind, IsResult]
  constructor
  · intro h
    cases hx : decrypted rt doc metadata.encryptedColumns with
    | error e => rw [hx] at h; cases h
    | ok plain =>
      rw [hx] at h
      exact ⟨plain, decrypted_eq_ok.mp hx, h⟩
  · rintro ⟨plain, hplain, happly⟩
    rw [decrypted_eq_ok.mpr hplain]
    exact happly

/-- Labelling a document gives a document. -/
theorem applyColumnMapping_obj (entries labels : Dict) :
    ∃ result, applyColumnMapping (.obj entries) labels = .ok (.obj result) := by
  rw [applyColumnMapping]
  split
  · exact ⟨_, rfl⟩
  · exact ⟨_, rfl⟩

/-- `int(encrypted_yn)` raises at most `ValueError`: the field is no list, no object and no
infinite number. -/
def Convertible (entries : Dict) : Prop := RaisesOnly [.valueError] (isPlain entries)

theorem isPlain_raises (entries : Dict) :
    RaisesOnly [.valueError, .typeError, .overflowError] (isPlain entries) := by
  rw [isPlain]
  split
  · exact .ok _
  · exact isIntZero_raises _

/-! ### Documents that can be finished -/

/-- Columns that can be gone through and be keys. -/
def ColumnsShaped (encryptedColumns : Json) : Prop :=
  ∃ items, encryptedColumns.iter = .ok items ∧ ∀ item ∈ items, isUnhashable item = false

/-- A document that can be decrypted and labelled: unless no column is encrypted, its `encrypted_yn`
is no number at all, or `0`, or the columns are shaped. -/
def Finishable (metadata : Meta) (doc : Dict) : Prop :=
  metadata.encryptedColumns.truthy → isPlain doc = .error .valueError ∨ isPlain doc = .ok true ∨
    isPlain doc = .ok false ∧ ColumnsShaped metadata.encryptedColumns

section Documents

variable (hcipher : CipherDocumented rt)

include hcipher

/-- A column raises `TypeError` if it cannot be a key. -/
theorem decryptColumn_cases (target : Dict) (col : Json) :
    (isUnhashable col = false ∧ ∃ result, decryptColumn rt target col = .ok result) ∨
      isUnhashable col = true ∧ decryptColumn rt target col = .error .typeError := by
  cases col with
  | str key => exact .inl ⟨rfl, (decryptColumn_raises hcipher target key).returns⟩
  | arr items => exact .inr ⟨rfl, rfl⟩
  | obj entries => exact .inr ⟨rfl, rfl⟩
  | _ => exact .inl ⟨rfl, target, rfl⟩

/-- Columns are decrypted if and only if all of them can be keys. -/
theorem decryptColumns_cases (items : List Json) (target : Dict) :
    ((∀ item ∈ items, isUnhashable item = false) ∧
        ∃ result, items.foldlM (decryptColumn rt) target = .ok result) ∨
      (¬ ∀ item ∈ items, isUnhashable item = false) ∧
        items.foldlM (decryptColumn rt) target = .error .typeError := by
  induction items generalizing target with
  | nil => exact .inl ⟨nofun, target, rfl⟩
  | cons item items ih =>
    rw [List.forall_mem_cons, List.foldlM_cons]
    rcases decryptColumn_cases hcipher target item with ⟨hitem, result, hresult⟩ | ⟨hitem, herror⟩
    · rw [hresult, and_iff_right hitem]
      exact ih result
    · rw [herror, hitem]
      exact .inr ⟨fun h => Bool.noConfusion h.1, rfl⟩

theorem decryptFields_cases (target : Dict) (encryptedColumns : Json) :
    (ColumnsShaped encryptedColumns ∧
        ∃ result, decryptFields rt target encryptedColumns = .ok result) ∨
      ¬ ColumnsShaped encryptedColumns ∧
        decryptFields rt target encryptedColumns = .error .typeError := by
  rw [decryptFields, ColumnsShaped]
  cases hiter : encryptedColumns.iter with
  | error e =>
    have he : e = .typeError := by simpa using Json.iter_raises encryptedColumns e hiter
    subst he
    exact .inr ⟨fun ⟨items, hitems, _⟩ => (nomatch hitems), rfl⟩
  | ok items =>
    have hshaped : (∃ items', Except.ok (ε := PyError) items = .ok items' ∧
        ∀ item ∈ items', isUnhashable item = false) ↔
          ∀ item ∈ items, isUnhashable item = false :=
      ⟨fun ⟨items', heq, h⟩ => Except.ok.inj heq ▸ h, fun h => ⟨items, rfl, h⟩⟩
    rw [hshaped]
    exact decryptColumns_cases hcipher items target

theorem decryptData_cases (doc : Dict) (encryptedColumns : Json) :
    (∃ result, decryptData rt doc encryptedColumns = .ok result) ∨
      ¬ ColumnsShaped encryptedColumns ∧
        decryptData rt doc encryptedColumns = .error .typeError := by
  rw [decryptData]
  split
  · next data hlookup =>
    rcases decryptFields_cases hcipher data encryptedColumns with
      ⟨-, result, hresult⟩ | ⟨hshaped, herror⟩
    · rw [hresult]
      exact .inl ⟨_, rfl⟩
    · rw [herror]
      exact .inr ⟨hshaped, rfl⟩
  · exact .inl ⟨doc, rfl⟩

/-- The decryption of a document whose fields are encrypted. -/
theorem decryptBody_cases (doc : Dict) (encryptedColumns : Json) :
    (ColumnsShaped encryptedColumns ∧ ∃ plain, (do
        let result ← decryptData rt doc encryptedColumns
        pure (Json.obj (← decryptFields rt result encryptedColumns)) : Except PyError Json) =
          .ok (.obj plain)) ∨
      ¬ ColumnsShaped encryptedColumns ∧ (do
        let result ← decryptData rt doc encryptedColumns
        pure (Json.obj (← decryptFields rt result encryptedColumns)) : Except PyError Json) =
          .error .typeError := by
  rcases decryptData_cases hcipher doc encryptedColumns with
    ⟨result, hresult⟩ | ⟨hshaped, herror⟩
  · rw [hresult]
    show (_ ∧ ∃ plain, (decryptFields rt result encryptedColumns >>= fun fields =>
        Except.ok (Json.obj fields)) = _) ∨ _ ∧ (decryptFields rt result encryptedColumns >>=
          fun fields => Except.ok (Json.obj fields)) = _
    rcases decryptFields_cases hcipher result encryptedColumns with
      ⟨hshaped, plain, hplain⟩ | ⟨hshaped, herror⟩
    · rw [hplain]
      exact .inl ⟨hshaped, plain, rfl⟩
    · rw [herror]
      exact .inr ⟨hshaped, rfl⟩
  · rw [herror]
    exact .inr ⟨hshaped, rfl⟩

omit hcipher in
/-- The decryption of a document, once its `encrypted_yn` is known. -/
theorem decryptDocument_eq {encryptedColumns : Json} (htruthy : encryptedColumns.truthy)
    (doc : Dict) :
    decryptDocument rt (.obj doc) encryptedColumns = isPlain doc >>= fun plain =>
      if plain then .ok (.obj doc)
      else (do
        let result ← decryptData rt doc encryptedColumns
        pure (Json.obj (← decryptFields rt result encryptedColumns))) := by
  rw [decryptDocument, if_pos htruthy]
  rfl

omit hcipher in
theorem decryptDocument_of_encrypted {encryptedColumns : Json} (htruthy : encryptedColumns.truthy)
    {doc : Dict} (h : isPlain doc = .ok false) :
    decryptDocument rt (.obj doc) encryptedColumns = (do
      let result ← decryptData rt doc encryptedColumns
      pure (Json.obj (← decryptFields rt result encryptedColumns))) := by
  rw [decryptDocument_eq htruthy, h]
  rfl

/-- A document is decrypted if and only if it can be. -/
theorem decrypted_cases (metadata : Meta) (doc : Dict) :
    (Finishable metadata doc ∧
        ∃ plain, decrypted rt (.obj doc) metadata.encryptedColumns = .ok (.obj plain)) ∨
      ¬ Finishable metadata doc ∧
        ∃ e, decrypted rt (.obj doc) metadata.encryptedColumns = .error e := by
  rw [Finishable, decrypted]
  by_cases htruthy : metadata.encryptedColumns.truthy
  · rw [forall_prop_of_true htruthy]
    cases hplain : isPlain doc with
    | error e =>
      rw [decryptDocument_eq htruthy, hplain]
      -- only a `ValueError` is handled
      have hraised := isPlain_raises doc e hplain
      simp only [List.mem_cons, List.not_mem_nil, or_false] at hraised
      rcases hraised with rfl | rfl | rfl
      · exact .inl ⟨.inl rfl, doc, rfl⟩
      · exact .inr ⟨by simp, .typeError, rfl⟩
      · exact .inr ⟨by simp, .overflowError, rfl⟩
    | ok plain =>
      cases plain with
      | true =>
        rw [decryptDocument_eq htruthy, hplain]
        exact .inl ⟨.inr (.inl rfl), doc, rfl⟩
      | false =>
        rw [decryptDocument_of_encrypted htruthy hplain]
        rcases decryptBody_cases hcipher doc metadata.encryptedColumns with
          ⟨hshaped, plain, hresult⟩ | ⟨hshaped, herror⟩
        · rw [hresult]
          exact .inl ⟨.inr (.inr ⟨rfl, hshaped⟩), plain, rfl⟩
        · rw [herror]
          exact .inr ⟨by simp [hshaped], .typeError, rfl⟩
  · rw [decryptDocument, if_neg htruthy]
    exact .inl ⟨fun h => absurd h htruthy, doc, rfl⟩

/-- A document is finished, to an object, if and only if it can be. -/
theorem finish_cases (metadata : Meta) (doc : Dict) :
    (Finishable metadata doc ∧ ∃ fields, finish rt (.obj doc) metadata = .ok (.obj fields)) ∨
      ¬ Finishable metadata doc ∧ ∃ e, finish rt (.obj doc) metadata = .error e := by
  have hbind : finish rt (.obj doc) metadata =
      decrypted rt (.obj doc) metadata.encryptedColumns >>=
        fun plain => applyColumnMapping plain metadata.columnMapping := rfl
  rw [hbind]
  rcases decrypted_cases hcipher metadata doc with ⟨hcan, plain, hplain⟩ | ⟨hcannot, e, he⟩
  · obtain ⟨fields, hfields⟩ := applyColumnMapping_obj plain metadata.columnMapping
    rw [hplain]
    exact .inl ⟨hcan, fields, hfields⟩
  · rw [he]
    exact .inr ⟨hcannot, e, rfl⟩

end Documents

/-- With columns that are texts, it is the conversion of `encrypted_yn` that matters. -/
theorem finishable_iff (entries labels : Dict) (columns : List String) :
    Finishable ⟨.arr (columns.map .str), labels⟩ entries ↔
      columns = [] ∨ Convertible entries := by
  have hshaped : ColumnsShaped (.arr (columns.map .str)) := by
    refine ⟨_, rfl, fun item hitem => ?_⟩
    obtain ⟨column, -, rfl⟩ := List.mem_map.mp hitem
    rfl
  have htruthy : (Json.arr (columns.map .str)).truthy ↔ columns ≠ [] := by simp [Json.truthy]
  have hconvertible : (isPlain entries = .error .valueError ∨ isPlain entries = .ok true ∨
      isPlain entries = .ok false ∧ ColumnsShaped (.arr (columns.map .str))) ↔
        Convertible entries := by
    rw [Convertible, and_iff_left hshaped]
    cases isPlain entries with
    | ok plain => cases plain <;> simp [RaisesOnly]
    | error e => simp [RaisesOnly]
  rw [Finishable, htruthy, hconvertible, ne_eq, ← or_iff_not_imp_left]

/-- A document is returned as long as no column is encrypted or `encrypted_yn` can be converted. -/
theorem finish_returns_iff (hcipher : CipherDocumented rt) (entries labels : Dict)
    (columns : List String) :
    (∃ result, finish rt (.obj entries) ⟨.arr (columns.map .str), labels⟩ = .ok result) ↔
      columns = [] ∨ Convertible entries := by
  rw [← finishable_iff entries labels]
  rcases finish_cases hcipher ⟨.arr (columns.map .str), labels⟩ entries with
    ⟨hcan, fields, hfields⟩ | ⟨hcannot, e, he⟩
  · exact iff_of_true ⟨_, hfields⟩ hcan
  · refine iff_of_false ?_ hcannot
    rintro ⟨result, hresult⟩
    cases he.symm.trans hresult

/-- What is made of a document is a document. -/
theorem IsResult.obj (hcipher : CipherDocumented rt) {metadata : Meta} {doc : Dict} {result : Json}
    (h : IsResult rt metadata (.obj doc) result) : ∃ fields, result = .obj fields := by
  have hresult := finish_eq_ok.mpr h
  rcases finish_cases hcipher metadata doc with ⟨-, fields, hfields⟩ | ⟨-, e, he⟩
  · exact ⟨fields, Except.ok.inj (hresult.symm.trans hfields)⟩
  · cases he.symm.trans hresult

end BatchProfile

end SessionManager
