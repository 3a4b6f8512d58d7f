import SessionManager.BatchProfile.Candidates

/-!
# Metadata and records of any shape

What follows a candidate: the metadata and the records that raise nothing that is not handled.

* `MetaShaped`, `meets_readMeta` — the metadata.
* `RecordsShaped`, `meets_scanBulk` — the file of all records.
* `DirectoryShaped`, `meets_candidate` — a directory.
-/

namespace SessionManager

open Python Interaction

open Program hiding pure

namespace BatchProfile

variable {rt : Runtime} {range : Bytes → Json → Json → Except PyError Bytes} {b : Bucket}
  {cusno : String}

/-! ### Metadata -/

/-- Metadata whose labels are an object, if there are any. -/
def MetaShaped : Json → Prop
  | .obj entries => (Dict.get entries "column_info").truthy →
    ∃ labels, Dict.get entries "column_info" = .obj labels
  | _ => False

/-- Labels that are something else than an object raise. -/
theorem columnInfo_cases (value : Json) :
    ((value.truthy → ∃ labels, value = .obj labels) ∧ ∃ labels, columnInfo value = .ok labels) ∨
      (¬ (value.truthy → ∃ labels, value = .obj labels)) ∧
        ∃ e ∈ shapeErrors, columnInfo value = .error e := by
  rw [columnInfo.eq_def]
  by_cases htruthy : value.truthy
  · rw [if_pos htruthy, forall_prop_of_true htruthy]
    -- the constructor decides whether `items` is missing or iterates
    cases value with
    | obj labels => exact .inl ⟨⟨labels, rfl⟩, labels, rfl⟩
    | arr items => exact .inr ⟨fun ⟨_, h⟩ => (nomatch h), .attributeError, by decide, rfl⟩
    | str text => exact .inr ⟨fun ⟨_, h⟩ => (nomatch h), .attributeError, by decide, rfl⟩
    | _ => exact .inr ⟨fun ⟨_, h⟩ => (nomatch h), .typeError, by decide, rfl⟩
  · rw [if_neg htruthy]
    exact .inl ⟨fun h => absurd h htruthy, [], rfl⟩

theorem metaOf_cases (json : Json) :
    (MetaShaped json ∧ ∃ metadata, metaOf json = .ok metadata) ∨
      ¬ MetaShaped json ∧ ∃ e ∈ shapeErrors, metaOf json = .error e := by
  -- only an object has a `get`
  cases json with
  | obj entries =>
    have hmeta : metaOf (.obj entries) =
        columnInfo (Dict.get entries "column_info") >>= fun labels =>
          .ok ⟨if (Dict.get entries "encrypted_columns").truthy then
            Dict.get entries "encrypted_columns" else .arr [], labels⟩ := rfl
    rw [hmeta]
    rcases columnInfo_cases (Dict.get entries "column_info") with
      ⟨hshaped, labels, hlabels⟩ | ⟨hshaped, e, he, herror⟩
    · rw [hlabels]
      exact .inl ⟨hshaped, _, rfl⟩
    · rw [herror]
      exact .inr ⟨hshaped, e, he, rfl⟩
  | _ => exact .inr ⟨id, .attributeError, by decide, rfl⟩

/-- The metadata that a directory may be read with: none, when it cannot be read. -/
def PossibleMeta (rt : Runtime) (b : Bucket) (dir : String) (metadata : Meta) : Prop :=
  metadata = .empty ∨
    ∃ json, Holds rt b (directory dir "_meta.json") json ∧ metaOf json = .ok metadata

/-- The metadata of a directory. -/
theorem meets_readMeta (hjson : ∀ data e, rt.jsonLoads data = .error e → e = .valueError)
    {R : PyError → Prop} (hR : ∀ e ∈ shapeErrors, ¬ R e) {dir : String}
    (hdir : dir.toList.getLast? ≠ some '/') {Q : Meta → Prop} :
    (readMeta rt (dir ++ "/")).Meets (b.MayReply range) Q R ↔
      (∀ json, Holds rt b (directory dir "_meta.json") json → MetaShaped json) ∧
        ∀ metadata, PossibleMeta rt b dir metadata → Q metadata := by
  rw [readMeta, metaKey hdir, meets_read hjson (List.Subset.refl _)]
  simp only [meets_ofExcept]
  constructor
  · rintro ⟨hempty, hholds⟩
    refine ⟨fun json hjson => ?_, ?_⟩
    · rcases metaOf_cases json with ⟨hshaped, -⟩ | ⟨-, e, he, herror⟩
      · exact hshaped
      · exact absurd ((hholds json hjson).2 e herror) (not_handled readErrors_subset he (hR e he) _)
    · -- unreadable metadata counts as empty
      rintro metadata (rfl | ⟨json, hjson, hmeta⟩)
      · exact hempty
      · exact (hholds json hjson).1 metadata hmeta
  · rintro ⟨hshaped, hpossible⟩
    refine ⟨hpossible _ (.inl rfl), fun json hjson => ⟨fun metadata hmeta =>
      hpossible metadata (.inr ⟨json, hjson, hmeta⟩), fun e herror => ?_⟩⟩
    rcases metaOf_cases json with ⟨-, metadata, hmeta⟩ | ⟨hnot, -⟩
    · cases hmeta.symm.trans herror
    · exact absurd (hshaped json hjson) hnot

/-! ### Records -/

/-- The file of all records, if there is one: it can be decoded, and the first line that stops the
scan, if any does, is a document of the customer that can be finished. -/
def RecordsShaped (rt : Runtime) (b : Bucket) (dir cusno : String) (metadata : Meta) : Prop :=
  ∀ data, b.get (directory dir "bulk.jsonl") = some data → ∃ text, decodeUtf8 data = .ok text ∧
    (NoStop rt cusno metadata.encryptedColumns (pieces text) ∨
      ∃ doc, FirstStop rt cusno metadata.encryptedColumns (pieces text) (.obj doc) ∧
        matchCusno rt (.obj doc) cusno metadata.encryptedColumns = .ok true ∧
          Finishable metadata doc)

/-- A candidate that can be compared and finished; in place of one of someone else, the records. -/
def CandidateShaped (rt : Runtime) (b : Bucket) (dir cusno : String) (metadata : Meta)
    (doc : Dict) : Prop :=
  matchCusno rt (.obj doc) cusno metadata.encryptedColumns = .ok true ∧ Finishable metadata doc ∨
    matchCusno rt (.obj doc) cusno metadata.encryptedColumns = .ok false ∧
      RecordsShaped rt b dir cusno metadata

/-- A directory with nothing in it that raises: its indexes, the candidates that they and the file
of the customer give, and with these the metadata and the records. -/
def DirectoryShaped (rt : Runtime) (range : Bytes → Json → Json → Except PyError Bytes) (b : Bucket)
    (dir cusno : String) : Prop :=
  IndexesShaped rt b dir cusno ∧ ∀ candidate, Obtainable rt range b dir cusno candidate →
    candidate ≠ .null → ∃ doc, candidate = .obj doc ∧
      (∀ json, Holds rt b (directory dir "_meta.json") json → MetaShaped json) ∧
        ∀ metadata, PossibleMeta rt b dir metadata →
          CandidateShaped rt b dir cusno metadata doc

/-- What `retrieve_cusno` is to return: `None` or an object. -/
def IsProfile (value : Json) : Prop := value = .null ∨ ∃ fields, value = .obj fields

/-- No exception. -/
def Never (_ : PyError) : Prop := False

section Records

variable {dir : String} {metadata : Meta}

/-- Only an object is the document of a customer. -/
theorem obj_of_matchCusno {value encryptedColumns : Json} {found : Bool}
    (h : matchCusno rt value cusno encryptedColumns = .ok found) :
    ∃ doc, value = .obj doc := by
  cases value with
  | obj doc => exact ⟨doc, rfl⟩
  | _ => cases h

variable (hjson : ∀ data e, rt.jsonLoads data = .error e → e = .valueError)
  (hcipher : CipherDocumented rt)

include hcipher

theorem meets_finish (doc : Dict) :
    (Program.ofExcept (finish rt (.obj doc) metadata) : Retrieval Json).Meets (b.MayReply range)
      IsProfile Never ↔ Finishable metadata doc := by
  rw [meets_ofExcept]
  rcases finish_cases hcipher metadata doc with ⟨hcan, fields, hfields⟩ | ⟨hcannot, e, he⟩
  · rw [hfields]
    refine iff_of_true ⟨?_, nofun⟩ hcan
    rintro _ ⟨⟩
    exact .inr ⟨fields, rfl⟩
  · rw [he]
    exact iff_of_false (fun h => h.2 e rfl) hcannot

include hjson

/-- The scan of lines: what stops it is a document of the customer. -/
theorem meets_scanLines {R : PyError → Prop}
    (hR : ∀ e ∈ shapeErrors, ¬ R e) {encryptedColumns : Json}
    {lines : List String} {Q : Json → Prop} (hnull : Q .null) :
    (Program.ofExcept (scanLines rt cusno encryptedColumns lines) : Retrieval Json).Meets
        (b.MayReply range) Q R ↔
      NoStop rt cusno encryptedColumns lines ∨
        ∃ doc, FirstStop rt cusno encryptedColumns lines (.obj doc) ∧
          matchCusno rt (.obj doc) cusno encryptedColumns = .ok true ∧ Q (.obj doc) := by
  rw [meets_ofExcept]
  -- the scan ends at the first line it does not skip, or after the last
  rcases firstStop_or_noStop encryptedColumns lines with ⟨value, hstop⟩ | hnone
  · rw [scanLines_of_firstStop hjson hcipher hstop, or_iff_right hstop.not_noStop]
    cases hmatch : matchCusno rt value cusno encryptedColumns with
    | error e =>
      refine iff_of_false (fun h => ?_) ?_
      · exact hR e (matchCusno_raises hcipher value encryptedColumns e hmatch) (h.2 e rfl)
      rintro ⟨doc, hdoc, htrue, -⟩
      obtain rfl := hstop.unique hdoc
      cases hmatch.symm.trans htrue
    | ok found =>
      obtain ⟨doc, rfl⟩ := obj_of_matchCusno hmatch
      have htrue : found = true := by
        cases found with
        | true => rfl
        | false => exact absurd hmatch hstop.not_other
      subst htrue
      constructor
      · exact fun h => ⟨doc, hstop, hmatch, h.1 _ rfl⟩
      · rintro ⟨doc', hdoc', -, hQ⟩
        refine ⟨?_, nofun⟩
        rintro _ ⟨⟩
        exact hstop.unique hdoc' ▸ hQ
  · rw [scanLines_of_noStop hjson hnone]
    refine iff_of_true ⟨?_, nofun⟩ (.inl hnone)
    rintro _ ⟨⟩
    exact hnull

/-- The scan of the records. A file that cannot be decoded raises a `ValueError`, which is not
handled. -/
theorem meets_scanBulk {Q : Json → Prop} {bulkKey : String} {encryptedColumns : Json} :
    (scanBulk rt bulkKey cusno encryptedColumns).Meets (b.MayReply range) Q Never ↔
      Q .null ∧ ∀ data, b.get bulkKey = some data → ∃ text, decodeUtf8 data = .ok text ∧
        (NoStop rt cusno encryptedColumns (pieces text) ∨
          ∃ doc, FirstStop rt cusno encryptedColumns (pieces text) (.obj doc) ∧
            matchCusno rt (.obj doc) cusno encryptedColumns = .ok true ∧ Q (.obj doc)) := by
  -- a `ValueError` of the decoding is not a store error: nothing handles it
  have hvalue : PyError.valueError ∉ storeErrors := by decide
  rw [scanBulk, meets_tryExcept]
  refine (meets_bind.trans meets_getObject).trans ?_
  rw [if_pos (by decide), if_pos (by decide)]
  have hraised (e : PyError) (he : e ∈ shapeErrors) :=
    not_handled storeErrors_subset he (R := Never) id
      ((Program.pure .null : Retrieval Json).Meets (b.MayReply range) Q Never)
  simp only [meets_ofExcept_bind, scanLines_splitlines]
  constructor
  · rintro ⟨hdata, hnull, -⟩
    refine ⟨hnull, fun data hget => ?_⟩
    obtain ⟨htext, herror⟩ := hdata data hget
    cases hdecode : decodeUtf8 data with
    | error e =>
      have he : e = .valueError := by simpa using decodeUtf8_raises data e hdecode
      subst he
      have hnever := herror _ hdecode
      rw [if_neg hvalue] at hnever
      exact hnever.elim
    | ok text =>
      exact ⟨text, rfl, (meets_scanLines hjson hcipher hraised hnull).mp (htext text hdecode)⟩
  · rintro ⟨hnull, hdata⟩
    refine ⟨fun data hget => ?_, hnull, hnull⟩
    obtain ⟨text, hdecode, hscan⟩ := hdata data hget
    constructor
    · intro text' hdecode'
      obtain rfl := Except.ok.inj (hdecode.symm.trans hdecode')
      exact (meets_scanLines hjson hcipher hraised hnull).mpr hscan
    · intro e he
      cases hdecode.symm.trans he

/-- A candidate that is confirmed, or replaced by what the scan finds, and finished. -/
theorem meets_confirm (candidate : Json) :
    (confirm rt candidate (directory dir "bulk.jsonl") cusno metadata.encryptedColumns >>=
      fun doc => if doc.isNone then pure .null else Program.ofExcept (finish rt doc metadata)).Meets
        (b.MayReply range) IsProfile Never ↔
      ∃ doc, candidate = .obj doc ∧ CandidateShaped rt b dir cusno metadata doc := by
  rw [meets_bind, confirm]
  -- a candidate of another customer is dropped, and the records are scanned in its place
  cases hmatch : matchCusno rt candidate cusno metadata.encryptedColumns with
  | error e =>
    refine iff_of_false id ?_
    rintro ⟨doc, rfl, ⟨htrue, -⟩ | ⟨hfalse, -⟩⟩
    · cases hmatch.symm.trans htrue
    · cases hmatch.symm.trans hfalse
  | ok found =>
    obtain ⟨doc, rfl⟩ := obj_of_matchCusno hmatch
    cases found with
    | true =>
      refine (meets_finish hcipher doc).trans ⟨fun h => ⟨doc, rfl, .inl ⟨hmatch, h⟩⟩, ?_⟩
      rintro ⟨_, ⟨⟩, ⟨-, h⟩ | ⟨hfalse, -⟩⟩
      · exact h
      · cases hmatch.symm.trans hfalse
    | false =>
      refine (meets_scanBulk hjson hcipher).trans ?_
      have hrecords : (∀ data, b.get (directory dir "bulk.jsonl") = some data →
          ∃ text, decodeUtf8 data = .ok text ∧
            (NoStop rt cusno metadata.encryptedColumns (pieces text) ∨
              ∃ doc, FirstStop rt cusno metadata.encryptedColumns (pieces text) (.obj doc) ∧
                matchCusno rt (.obj doc) cusno metadata.encryptedColumns = .ok true ∧
                  (Program.ofExcept (finish rt (.obj doc) metadata) : Retrieval Json).Meets
                    (b.MayReply range) IsProfile Never)) ↔
          RecordsShaped rt b dir cusno metadata := by
        simp only [meets_finish hcipher]
        exact Iff.rfl
      constructor
      · exact fun h => ⟨doc, rfl, .inr ⟨hmatch, hrecords.mp h.2⟩⟩
      · rintro ⟨_, ⟨⟩, ⟨htrue, -⟩ | ⟨-, h⟩⟩
        · cases hmatch.symm.trans htrue
        · exact ⟨.inl rfl, hrecords.mpr h⟩

/-- What follows a candidate. -/
theorem meets_candidate (hdir : dir.toList.getLast? ≠ some '/') (candidate : Json) :
    (readMeta rt (dir ++ "/") >>= fun metadata =>
      confirm rt candidate (directory dir "bulk.jsonl") cusno metadata.encryptedColumns >>=
        fun doc => if doc.isNone then pure .null
          else Program.ofExcept (finish rt doc metadata)).Meets (b.MayReply range) IsProfile Never ↔
      ∃ doc, candidate = .obj doc ∧
        (∀ json, Holds rt b (directory dir "_meta.json") json → MetaShaped json) ∧
          ∀ metadata, PossibleMeta rt b dir metadata →
            CandidateShaped rt b dir cusno metadata doc := by
  have hnever (e : PyError) (_ : e ∈ shapeErrors) : ¬ Never e := id
  rw [meets_bind, meets_readMeta hjson hnever hdir]
  simp only [meets_confirm hjson hcipher]
  constructor
  · rintro ⟨hmeta, hcandidate⟩
    -- empty metadata is always possible, and it already needs an object
    obtain ⟨doc, rfl, -⟩ := hcandidate .empty (.inl rfl)
    refine ⟨doc, rfl, hmeta, fun metadata hpossible => ?_⟩
    obtain ⟨_, ⟨⟩, hshaped⟩ := hcandidate metadata hpossible
    exact hshaped
  · rintro ⟨doc, rfl, hmeta, hcandidate⟩
    exact ⟨hmeta, fun metadata hpossible => ⟨doc, rfl, hcandidate metadata hpossible⟩⟩

end Records

end BatchProfile

end SessionManager
