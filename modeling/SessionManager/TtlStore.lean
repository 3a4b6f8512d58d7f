import Mathlib.Data.Nat.Notation
import Mathlib.Tactic.Common
import Mathlib.Logic.Function.Basic

/-!
# Key-value stores with expiry

A store maps each key to a value of the key's own type and, optionally, to the instant after
which the entry is gone. Nothing removes an entry at that instant: the operations take the
current time and do not see entries that are past it.

* `TtlStore K V` — the stores with keys `K` and values `V k` at key `k`.
* `lookup`, `get` — the live entry and its value.
* `set`, `setex`, `upsert`, `expire`, `del` — store without an expiry, store with one, change
  the value and keep the expiry, change the expiry, remove.

Each operation has one lemma for the key it is about and one for the other keys.
-/

/-- A stored value with the last instant at which it is there; `none` is for ever. -/
structure TtlStore.Entry (α : Type) where
  /-- The value. -/
  value : α
  /-- The last instant at which the entry is live. -/
  expiresAt : Option ℕ

/-- A store with values of type `V k` at key `k`. -/
def TtlStore (K : Type) (V : K → Type) := (k : K) → Option (TtlStore.Entry (V k))

namespace TtlStore

/-- The entry is there at instant `now`. -/
def Entry.Live {α : Type} (e : Entry α) (now : ℕ) : Prop :=
  match e.expiresAt with
  | none => True
  | some t => now ≤ t

instance {α : Type} (e : Entry α) (now : ℕ) : Decidable (e.Live now) := by
  unfold Entry.Live
  split <;> infer_instance

/-- An entry without an expiry is always live. -/
theorem Entry.live_of_none {α : Type} {e : Entry α} (h : e.expiresAt = none) (now : ℕ) :
    e.Live now := by
  simp [Live, h]

/-- An entry with an expiry is live up to it. -/
theorem Entry.live_iff_of_some {α : Type} {e : Entry α} {t : ℕ} (h : e.expiresAt = some t)
    (now : ℕ) : e.Live now ↔ now ≤ t := by
  simp [Live, h]

/-- Liveness is lost but never gained as time passes. -/
theorem Entry.Live.anti {α : Type} {e : Entry α} {now now' : ℕ} (h : e.Live now')
    (hle : now ≤ now') : e.Live now := by
  cases hexp : e.expiresAt with
  | none => exact live_of_none hexp now
  | some t =>
    rw [live_iff_of_some hexp] at h ⊢
    omega

variable {K : Type} {V : K → Type}

/-- The store without entries. -/
def empty : TtlStore K V := fun _ => none

/-- The entry at `k` when it is live. -/
def lookup (s : TtlStore K V) (now : ℕ) (k : K) : Option (Entry (V k)) :=
  match s k with
  | none => none
  | some e => if e.Live now then some e else none

/-- The value at `k` when it is live. -/
def get (s : TtlStore K V) (now : ℕ) (k : K) : Option (V k) := (s.lookup now k).map Entry.value

/-- There is a live entry at `k`. -/
def contains (s : TtlStore K V) (now : ℕ) (k : K) : Bool := (s.lookup now k).isSome

variable [DecidableEq K]

/-- Store `v` at `k` without an expiry. -/
def set (s : TtlStore K V) (k : K) (v : V k) : TtlStore K V :=
  Function.update s k (some ⟨v, none⟩)

/-- Store `v` at `k` until `t`. -/
def setex (s : TtlStore K V) (k : K) (t : ℕ) (v : V k) : TtlStore K V :=
  Function.update s k (some ⟨v, some t⟩)

/-- Compute the value at `k` from the live one; a live entry keeps its expiry and a new one gets
none. -/
def upsert (s : TtlStore K V) (now : ℕ) (k : K) (f : Option (V k) → V k) : TtlStore K V :=
  Function.update s k (some ⟨f (s.get now k), (s.lookup now k).bind Entry.expiresAt⟩)

/-- Let the live entry at `k` expire at `t`. -/
def expire (s : TtlStore K V) (now : ℕ) (k : K) (t : ℕ) : TtlStore K V :=
  match s.lookup now k with
  | none => s
  | some e => Function.update s k (some { e with expiresAt := some t })

/-- Remove the entry at `k`. -/
def del (s : TtlStore K V) (k : K) : TtlStore K V := Function.update s k none

/-! ### Looking up -/

section Lookup

omit [DecidableEq K]

theorem lookup_eq_some_iff {s : TtlStore K V} {now : ℕ} {k : K} {e : Entry (V k)} :
    s.lookup now k = some e ↔ s k = some e ∧ e.Live now := by
  unfold lookup
  split
  · simp_all
  · rename_i e' he
    split_ifs with hlive
    · simp only [Option.some.injEq, he]
      constructor
      · rintro rfl; exact ⟨rfl, hlive⟩
      · exact fun h => h.1
    · simp only [he, Option.some.injEq, false_iff, not_and]
      rintro rfl
      exact hlive

/-- A lookup sees no difference between stores that agree at the key. -/
theorem lookup_congr {s s' : TtlStore K V} {k : K} (h : s k = s' k) (now : ℕ) :
    s.lookup now k = s'.lookup now k := by
  simp [lookup, h]

/-- What is live later is live now. -/
theorem lookup_anti {s : TtlStore K V} {now now' : ℕ} {k : K} {e : Entry (V k)}
    (h : s.lookup now' k = some e) (hle : now ≤ now') : s.lookup now k = some e := by
  rw [lookup_eq_some_iff] at h ⊢
  exact ⟨h.1, h.2.anti hle⟩

theorem get_eq_some_iff {s : TtlStore K V} {now : ℕ} {k : K} {v : V k} :
    s.get now k = some v ↔ ∃ e, s.lookup now k = some e ∧ e.value = v := by
  simp [get]

theorem get_of_lookup {s : TtlStore K V} {now : ℕ} {k : K} {e : Entry (V k)}
    (h : s.lookup now k = some e) : s.get now k = some e.value := by
  simp [get, h]

theorem get_eq_none_iff {s : TtlStore K V} {now : ℕ} {k : K} :
    s.get now k = none ↔ s.lookup now k = none := by
  simp [get]

@[simp] theorem lookup_empty (now : ℕ) (k : K) : (empty : TtlStore K V).lookup now k = none := rfl

@[simp] theorem get_empty (now : ℕ) (k : K) : (empty : TtlStore K V).get now k = none := rfl

end Lookup

/-! ### The key an operation is about -/

variable (s : TtlStore K V) (now : ℕ) (k : K)

@[simp] theorem set_apply_self (v : V k) : (s.set k v) k = some ⟨v, none⟩ :=
  Function.update_self ..

@[simp] theorem setex_apply_self (t : ℕ) (v : V k) : (s.setex k t v) k = some ⟨v, some t⟩ :=
  Function.update_self ..

@[simp] theorem upsert_apply_self (f : Option (V k) → V k) :
    (s.upsert now k f) k = some ⟨f (s.get now k), (s.lookup now k).bind Entry.expiresAt⟩ :=
  Function.update_self ..

@[simp] theorem del_apply_self : (s.del k) k = none := Function.update_self ..

theorem expire_of_lookup {e : Entry (V k)} (h : s.lookup now k = some e) (t : ℕ) :
    s.expire now k t = Function.update s k (some { e with expiresAt := some t }) := by
  unfold expire
  rw [h]

theorem expire_of_lookup_none (h : s.lookup now k = none) (t : ℕ) : s.expire now k t = s := by
  unfold expire
  rw [h]

theorem expire_apply_self {e : Entry (V k)} (h : s.lookup now k = some e) (t : ℕ) :
    (s.expire now k t) k = some { e with expiresAt := some t } := by
  rw [expire_of_lookup s now k h]
  exact Function.update_self ..

@[simp] theorem lookup_set_self (v : V k) : (s.set k v).lookup now k = some ⟨v, none⟩ := by
  rw [lookup_eq_some_iff]
  exact ⟨set_apply_self s k v, Entry.live_of_none rfl now⟩

theorem lookup_setex_self {t : ℕ} (h : now ≤ t) (v : V k) :
    (s.setex k t v).lookup now k = some ⟨v, some t⟩ := by
  rw [lookup_eq_some_iff]
  exact ⟨setex_apply_self s k t v, (Entry.live_iff_of_some rfl now).mpr h⟩

theorem lookup_upsert_self (f : Option (V k) → V k) :
    (s.upsert now k f).lookup now k =
      some ⟨f (s.get now k), (s.lookup now k).bind Entry.expiresAt⟩ := by
  rw [lookup_eq_some_iff]
  refine ⟨upsert_apply_self s now k f, ?_⟩
  cases h : s.lookup now k with
  | none => exact Entry.live_of_none rfl now
  | some e =>
    -- the live entry keeps its expiry, and with it its liveness
    have hlive := (lookup_eq_some_iff.mp h).2
    cases hexp : e.expiresAt with
    | none => exact Entry.live_of_none hexp now
    | some t =>
      rw [Entry.live_iff_of_some hexp] at hlive
      exact (Entry.live_iff_of_some hexp now).mpr hlive

@[simp] theorem get_upsert_self (f : Option (V k) → V k) :
    (s.upsert now k f).get now k = some (f (s.get now k)) :=
  get_of_lookup (lookup_upsert_self s now k f)

theorem lookup_expire_self {t : ℕ} (h : now ≤ t) :
    (s.expire now k t).lookup now k =
      (s.lookup now k).map (fun e => { e with expiresAt := some t }) := by
  cases hlook : s.lookup now k with
  | none => simp [expire_of_lookup_none s now k hlook, hlook]
  | some e =>
    simp only [Option.map_some, lookup_eq_some_iff]
    exact ⟨expire_apply_self s now k hlook t, (Entry.live_iff_of_some rfl now).mpr h⟩

@[simp] theorem lookup_del_self : (s.del k).lookup now k = none := by
  simp [lookup]

/-! ### The other keys -/

variable {s now k} {k' : K}

theorem set_apply_of_ne (h : k' ≠ k) (v : V k) : (s.set k v) k' = s k' :=
  Function.update_of_ne h ..

theorem setex_apply_of_ne (h : k' ≠ k) (t : ℕ) (v : V k) : (s.setex k t v) k' = s k' :=
  Function.update_of_ne h ..

theorem upsert_apply_of_ne (h : k' ≠ k) (f : Option (V k) → V k) :
    (s.upsert now k f) k' = s k' :=
  Function.update_of_ne h ..

theorem expire_apply_of_ne (h : k' ≠ k) (t : ℕ) : (s.expire now k t) k' = s k' := by
  cases hlook : s.lookup now k with
  | none => rw [expire_of_lookup_none s now k hlook]
  | some e =>
    rw [expire_of_lookup s now k hlook]
    exact Function.update_of_ne h ..

/-- An expiry does not change what is stored. -/
theorem value_expire (t : ℕ) :
    ((s.expire now k t) k').map Entry.value = (s k').map Entry.value := by
  cases hlook : s.lookup now k with
  | none => rw [expire_of_lookup_none s now k hlook]
  | some e =>
    by_cases h : k' = k
    · subst h
      rw [expire_apply_self s now k' hlook, (lookup_eq_some_iff.mp hlook).1]
      rfl
    · rw [expire_apply_of_ne h]

theorem del_apply_of_ne (h : k' ≠ k) : (s.del k) k' = s k' :=
  Function.update_of_ne h ..

end TtlStore
