import SessionManager.BatchProfile.Scan
import SessionManager.BatchProfile.Unreliable

/-!
# Candidates of any shape

What is read from a bucket is used as it comes. The indexes that raise nothing that is not handled,
and the documents that a lookup may then give.

* `Offers` — lookups on a server that may fail.
* `IndexShaped`, `offers_fetchViaIndex` — an index.
* `Obtainable`, `offers_fetchDocument` — the candidates of a directory.
-/

namespace SessionManager

open Python Interaction

open Program hiding pure

namespace BatchProfile

variable {rt : Runtime} {range : Bytes → Json → Json → Except PyError Bytes} {b : Bucket}
  {cusno : String}

/-! ### Lookups that may always fail -/

/-- The lookup may always give nothing, and else what `gives` says; it raises nothing outside `R`
if and only if `shaped`. -/
def Offers (range : Bytes → Json → Json → Except PyError Bytes) (b : Bucket) (R : PyError → Prop)
    (p : Retrieval Json) (shaped : Prop) (gives : Json → Prop) : Prop :=
  ∀ Q : Json → Prop, p.Meets (b.MayReply range) Q R ↔
    Q .null ∧ shaped ∧ ∀ doc, gives doc → Q doc

/-- A lookup that is tried when the other one gives nothing. -/
theorem Offers.orElse {R : PyError → Prop} {p q : Retrieval Json} {shaped shaped' : Prop}
    {gives gives' : Json → Prop} (hp : Offers range b R p shaped gives)
    (hq : Offers range b R q shaped' gives') :
    Offers range b R (p >>= fun doc => if doc.isNone then q else pure doc) (shaped ∧ shaped')
      fun doc => gives doc ∨ gives' doc := by
  intro Q
  -- the second retrieval runs on null only
  have hnext (doc : Json) (hnull : q.Meets (b.MayReply range) Q R) :
      (if doc.isNone then q else pure doc).Meets (b.MayReply range) Q R ↔ Q doc := by
    cases doc with
    | null => exact iff_of_true hnull ((hq Q).mp hnull).1
    | _ => exact Iff.rfl
  rw [meets_bind, hp]
  constructor
  · rintro ⟨hnull, hshaped, hgives⟩
    obtain ⟨hQ, hshaped', hgives'⟩ := (hq Q).mp hnull
    refine ⟨hQ, ⟨hshaped, hshaped'⟩, ?_⟩
    rintro doc (hdoc | hdoc)
    · exact (hnext doc hnull).mp (hgives doc hdoc)
    · exact hgives' doc hdoc
  · rintro ⟨hQ, ⟨hshaped, hshaped'⟩, hgives⟩
    have hnull := (hq Q).mpr ⟨hQ, hshaped', fun doc hdoc => hgives doc (.inr hdoc)⟩
    exact ⟨hnull, hshaped, fun doc hdoc => (hnext doc hnull).mpr (hgives doc (.inl hdoc))⟩

/-- What follows when there is nothing, apart from what follows a document. -/
theorem Offers.meets_iff {R : PyError → Prop} {p : Retrieval Json} {shaped : Prop}
    {gives : Json → Prop} (hp : Offers range b R p shaped gives) {Q : Json → Prop} :
    p.Meets (b.MayReply range) Q R ↔
      p.Meets (b.MayReply range) (fun doc => doc ≠ .null → Q doc) R ∧ Q .null := by
  rw [hp, hp]
  constructor
  · rintro ⟨hnull, hshaped, hgives⟩
    exact ⟨⟨fun h => absurd rfl h, hshaped, fun doc hdoc _ => hgives doc hdoc⟩, hnull⟩
  · rintro ⟨⟨-, hshaped, hgives⟩, hnull⟩
    refine ⟨hnull, hshaped, fun doc hdoc => ?_⟩
    by_cases hsome : doc = .null
    · exact hsome ▸ hnull
    · exact hgives doc hdoc hsome

/-! ### Indexes -/

/-- An index with what the entry of the customer can be unpacked from, if it has one; any other
value only if the customer can be looked for in it, and is not there. -/
def IndexShaped (cusno : String) : Json → Prop
  | .obj entries => ∀ entry, entries.lookup cusno = some entry → ∃ items, entry.iter = .ok items
  | index => index.contains cusno = .ok false

/-- The entry of the customer points to a range. -/
def Points (cusno : String) (index startOff length : Json) : Prop :=
  ∃ entries entry, index = .obj entries ∧ entries.lookup cusno = some entry ∧
    entry.unpack2 = .ok (startOff, length)

/-- The documents that an index may give. -/
def IndexGives (rt : Runtime) (range : Bytes → Json → Json → Except PyError Bytes) (b : Bucket)
    (cusno indexKey bulkKey : String) (doc : Json) : Prop :=
  ∃ index startOff length, Holds rt b indexKey index ∧ Points cusno index startOff length ∧
    RangeGives rt range b bulkKey startOff length doc

section Indexes

variable {R : PyError → Prop} {Q : Json → Prop}
  (hjson : ∀ data e, rt.jsonLoads data = .error e → e = .valueError)
  (hrange : ∀ data offset length, RaisesOnly storeErrors (range data offset length))

/-- The index of a customer who is not in it is no more than shaped. -/
theorem indexShaped_of_unlisted {index : Json} (h : index.contains cusno = .ok false) :
    IndexShaped cusno index ∧ ∀ startOff length, ¬ Points cusno index startOff length := by
  cases index with
  | obj entries =>
    have hlookup : entries.lookup cusno = none :=
      Option.not_isSome_iff_eq_none.mp (Bool.eq_false_iff.mp (Except.ok.inj h))
    refine ⟨fun entry hentry => absurd (hlookup.symm.trans hentry) nofun, ?_⟩
    rintro startOff length ⟨_, entry, ⟨⟩, hentry, -⟩
    cases hlookup.symm.trans hentry
  | _ =>
    refine ⟨h, ?_⟩
    rintro startOff length ⟨entries, entry, heq, -⟩
    cases heq

/-- The customer is listed in an object, or in what has no entries. -/
theorem listed_cases {index : Json} (h : index.contains cusno = .ok true) :
    (∃ entries entry, index = .obj entries ∧ entries.lookup cusno = some entry) ∨
      index.item cusno = .error .typeError ∧ ¬ IndexShaped cusno index := by
  have hne : index.contains cusno ≠ .ok false := by
    rw [h]
    simp
  cases index with
  | obj entries =>
    obtain ⟨entry, hentry⟩ := Option.isSome_iff_exists.mp (Except.ok.inj h)
    exact .inl ⟨entries, entry, rfl, hentry⟩
  | _ => exact .inr ⟨rfl, hne⟩

theorem not_indexShaped_of_error {index : Json} {e : PyError}
    (h : index.contains cusno = .error e) : ¬ IndexShaped cusno index := by
  have hne : index.contains cusno ≠ .ok false := by
    rw [h]
    simp
  cases index with
  | obj entries => cases h
  | _ => exact hne

include hjson hrange

/-- What is made of the entry of the customer: the `TypeError` of one without items is not
handled. -/
theorem meets_fetchEntry {bulkKey : String} {entry : Json}
    (hhandled : ∀ e ∈ readErrors, R e) (hR : ¬ R .typeError) :
    (do
      let (startOff, length) ← Program.ofExcept entry.unpack2
      fetchRange rt bulkKey startOff length : Retrieval Json).Meets (b.MayReply range) Q R ↔
      (∃ items, entry.iter = .ok items) ∧
        ∀ startOff length, entry.unpack2 = .ok (startOff, length) →
          ∀ doc, RangeGives rt range b bulkKey startOff length doc → Q doc := by
  have hvalue : R .valueError := hhandled _ (by simp [readErrors])
  rw [meets_ofExcept_bind]
  constructor
  · rintro ⟨hpair, hraised⟩
    refine ⟨?_, fun startOff length hunpack => ?_⟩
    · -- a value that is not a sequence raises a `TypeError`, which nothing here handles
      cases hiter : entry.iter with
      | ok items => exact ⟨items, rfl⟩
      | error e =>
        have he : e = .typeError := by simpa using Json.iter_raises entry e hiter
        subst he
        exact absurd (hraised .typeError (by rw [Json.unpack2, hiter])) hR
    · exact ((meets_fetchRange hjson hrange fun _ => hvalue).mp (hpair _ hunpack)).1
  · rintro ⟨⟨items, hiter⟩, hdoc⟩
    refine ⟨fun pair hunpack => ?_, fun e he => ?_⟩
    · exact (meets_fetchRange hjson hrange fun _ => hvalue).mpr
        ⟨hdoc pair.1 pair.2 hunpack, hhandled _ (by simp [readErrors]),
          hhandled _ (by simp [readErrors])⟩
    · -- a sequence of another length raises a `ValueError`, which is handled
      have hraised : e = .valueError := by simpa using Json.unpack2_raises hiter e he
      exact hraised ▸ hvalue

/-- A lookup by an index: it may always give nothing, it may give what the index points to, and it
raises `TypeError` on an index that is not shaped. -/
theorem offers_fetchViaIndex {indexKey bulkKey : String} (hR : ¬ R .typeError) :
    Offers range b R (fetchViaIndex rt cusno indexKey bulkKey)
      (∀ index, Holds rt b indexKey index → IndexShaped cusno index)
      (IndexGives rt range b cusno indexKey bulkKey) := by
  intro Q
  rw [fetchViaIndex, meets_read hjson (by simp)]
  refine and_congr_right fun hnull => ?_
  -- the handler returns nothing; it does not handle a `TypeError`
  have hhandled (e : PyError) (he : e ∈ PyError.keyError :: readErrors) :
      if e ∈ PyError.keyError :: readErrors then
        (Program.pure .null : Retrieval Json).Meets (b.MayReply range) Q R else R e := by
    rw [if_pos he]
    exact hnull
  have hraised := not_handled (List.Subset.refl _) (by decide) hR
    ((Program.pure .null : Retrieval Json).Meets (b.MayReply range) Q R)
  have hstep (index : Json) : (do
      if ← Program.ofExcept (index.contains cusno) then
        let entry ← Program.ofExcept (index.item cusno)
        let (startOff, length) ← Program.ofExcept entry.unpack2
        fetchRange rt bulkKey startOff length
      else pure .null : Retrieval Json).Meets (b.MayReply range) Q (fun e =>
        if e ∈ PyError.keyError :: readErrors then
          (Program.pure .null : Retrieval Json).Meets (b.MayReply range) Q R else R e) ↔
      IndexShaped cusno index ∧ ∀ startOff length, Points cusno index startOff length →
        ∀ doc, RangeGives rt range b bulkKey startOff length doc → Q doc := by
    cases hcontains : index.contains cusno with
    | error e =>
      have he : e = .typeError := by simpa using Json.contains_raises index cusno e hcontains
      subst he
      exact iff_of_false hraised fun h => not_indexShaped_of_error hcontains h.1
    | ok listed =>
      cases listed with
      | false =>
        obtain ⟨hshaped, hpoints⟩ := indexShaped_of_unlisted hcontains
        exact iff_of_true hnull
          ⟨hshaped, fun startOff length h => absurd h (hpoints startOff length)⟩
      | true =>
        rcases listed_cases hcontains with ⟨entries, entry, rfl, hentry⟩ | ⟨hitem, hshaped⟩
        · have hitem : (Json.obj entries).item cusno = .ok entry := by rw [Json.item, hentry]
          rw [hitem]
          refine (meets_fetchEntry hjson hrange (fun e he => hhandled e (.tail _ he)) hraised).trans
            (and_congr ?_ ?_)
          · constructor
            · rintro hitems _ hentry'
              exact Option.some.inj (hentry.symm.trans hentry') ▸ hitems
            · exact fun h => h entry hentry
          · refine forall₂_congr fun startOff length => ⟨?_, fun h hunpack => ?_⟩
            · rintro h ⟨_, entry', ⟨⟩, hentry', hunpack⟩
              exact h (Option.some.inj (hentry.symm.trans hentry') ▸ hunpack)
            · exact h ⟨entries, entry, rfl, hentry, hunpack⟩
        · rw [hitem]
          exact iff_of_false hraised fun h => hshaped h.1
  constructor
  · intro h
    refine ⟨fun index hindex => ((hstep index).mp (h index hindex)).1, ?_⟩
    rintro doc ⟨index, startOff, length, hindex, hpoints, hdoc⟩
    exact ((hstep index).mp (h index hindex)).2 startOff length hpoints doc hdoc
  · rintro ⟨hshaped, hdoc⟩ index hindex
    exact (hstep index).mpr ⟨hshaped index hindex, fun startOff length hpoints doc hgives =>
      hdoc doc ⟨index, startOff, length, hindex, hpoints, hgives⟩⟩

end Indexes

/-! ### Candidates -/

/-- The documents that an index of the directory may give. -/
def Listed (rt : Runtime) (range : Bytes → Json → Json → Except PyError Bytes) (b : Bucket)
    (dir cusno : String) (doc : Json) : Prop :=
  IndexGives rt range b cusno (indexShardKey dir cusno) (directory dir "bulk.jsonl") doc ∨
    IndexGives rt range b cusno (directory dir "index.json") (directory dir "bulk.jsonl") doc

/-- The documents that may be the candidate of a directory. -/
def Obtainable (rt : Runtime) (range : Bytes → Json → Json → Except PyError Bytes) (b : Bucket)
    (dir cusno : String) (doc : Json) : Prop :=
  Listed rt range b dir cusno doc ∨ Holds rt b (directory dir (cusno ++ ".json")) doc

/-- The indexes of the directory are shaped. -/
def IndexesShaped (rt : Runtime) (b : Bucket) (dir cusno : String) : Prop :=
  (∀ index, Holds rt b (indexShardKey dir cusno) index → IndexShaped cusno index) ∧
    ∀ index, Holds rt b (directory dir "index.json") index → IndexShaped cusno index

section Candidates

variable {R : PyError → Prop} {dir : String}
  (hjson : ∀ data e, rt.jsonLoads data = .error e → e = .valueError)
  (hrange : ∀ data offset length, RaisesOnly storeErrors (range data offset length))

include hjson

/-- The file of the customer alone. -/
theorem offers_fetchSingle : Offers range b R (fetchSingle rt dir cusno) True
    (Holds rt b (directory dir (cusno ++ ".json"))) := by
  intro Q
  have hread : fetchSingle rt dir cusno = tryExcept (getJson rt (directory dir (cusno ++ ".json"))
      >>= fun doc => pure doc) readErrors (pure .null) := by
    rw [fetchSingle, bind_pure]
  rw [hread, meets_read hjson (List.Subset.refl _), true_and]
  exact Iff.rfl

include hrange

/-- The lookup by both indexes. -/
theorem offers_fetchIndexed (hR : ¬ R .typeError) :
    Offers range b R (fetchIndexed rt dir cusno) (IndexesShaped rt b dir cusno)
      (Listed rt range b dir cusno) := by
  intro Q
  rw [fetchIndexed, meets_tryExcept]
  have hraised := not_handled readErrors_subset (by decide) hR
    ((Program.pure .null : Retrieval Json).Meets (b.MayReply range) Q R)
  refine Offers.orElse (offers_fetchViaIndex hjson hrange ?_)
    (offers_fetchViaIndex hjson hrange ?_) Q
  · exact hraised
  · exact hraised

/-- The candidate of a directory. -/
theorem offers_fetchDocument (hR : ¬ R .typeError) :
    Offers range b R (fetchDocument rt dir cusno) (IndexesShaped rt b dir cusno)
      (Obtainable rt range b dir cusno) := by
  have h : Offers range b R (fetchDocument rt dir cusno) (IndexesShaped rt b dir cusno ∧ True)
      (Obtainable rt range b dir cusno) :=
    (offers_fetchIndexed hjson hrange hR).orElse (offers_fetchSingle hjson)
  rwa [and_true] at h

end Candidates

end BatchProfile

end SessionManager
