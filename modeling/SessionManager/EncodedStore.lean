import SessionManager.TtlStore

/-!
# Stores that hold encoded values

A store over other keys and one type of values that holds, under the encoding of every key, the
encoding of the value there, with the same expiry. When no two keys have one encoding, each
operation on the one store is the same operation on the other.

* `Encodes` — the relation between the two stores.
* `Encodes.lookup`, `Encodes.get`, `Encodes.contains` — what is read.
* `Encodes.set`, `Encodes.setex`, `Encodes.upsert`, `Encodes.expire`, `Encodes.del` — what is
  written.
-/

namespace TtlStore

variable {K K' B : Type} {V : K → Type}

/-- An entry with another value. -/
def Entry.map {α β : Type} (f : α → β) (e : Entry α) : Entry β := ⟨f e.value, e.expiresAt⟩

@[simp] theorem Entry.live_map {α β : Type} (f : α → β) (e : Entry α) (now : ℕ) :
    (e.map f).Live now ↔ e.Live now := Iff.rfl

/-- `s'` holds under `key k` what `s` holds under `k`, encoded. -/
def Encodes (key : K → K') (code : (k : K) → V k → B) (s' : TtlStore K' fun _ => B)
    (s : TtlStore K V) : Prop := ∀ k, s' (key k) = (s k).map (Entry.map (code k))

namespace Encodes

variable {key : K → K'} {code : (k : K) → V k → B} {s' : TtlStore K' fun _ => B}
  {s : TtlStore K V}

theorem empty : Encodes key code (TtlStore.empty : TtlStore K' fun _ => B) TtlStore.empty :=
  fun _ => rfl

theorem lookup (h : Encodes key code s' s) (now : ℕ) (k : K) :
    s'.lookup now (key k) = (s.lookup now k).map (Entry.map (code k)) := by
  unfold TtlStore.lookup
  rw [h k]
  cases s k with
  | none => rfl
  | some e =>
    simp only [Option.map_some, Entry.live_map]
    split_ifs <;> rfl

theorem get (h : Encodes key code s' s) (now : ℕ) (k : K) :
    s'.get now (key k) = (s.get now k).map (code k) := by
  rw [TtlStore.get, TtlStore.get, h.lookup, Option.map_map, Option.map_map]
  rfl

theorem contains (h : Encodes key code s' s) (now : ℕ) (k : K) :
    s'.contains now (key k) = s.contains now k := by
  rw [TtlStore.contains, TtlStore.contains, h.lookup, Option.isSome_map]

variable [DecidableEq K] [DecidableEq K'] (hkey : Function.Injective key)
include hkey

/-- One entry changes on both sides. -/
theorem update (h : Encodes key code s' s) (k : K) (e : Option (Entry (V k))) :
    Encodes key code (Function.update s' (key k) (e.map (Entry.map (code k))))
      (Function.update s k e) := by
  intro k'
  by_cases heq : k' = k
  · subst heq
    have hself := Function.update_self k' e s
    have hself' := Function.update_self (key k') (e.map (Entry.map (code k'))) s'
    exact hself'.trans (congrArg (Option.map (Entry.map (code k'))) hself.symm)
  · have hother := Function.update_of_ne heq e s
    have hother' := Function.update_of_ne (hkey.ne heq) (e.map (Entry.map (code k))) s'
    exact (hother'.trans (h k')).trans (congrArg (Option.map (Entry.map (code k'))) hother.symm)

theorem set (h : Encodes key code s' s) (k : K) (v : V k) :
    Encodes key code (s'.set (key k) (code k v)) (s.set k v) := h.update hkey k (some ⟨v, none⟩)

theorem setex (h : Encodes key code s' s) (k : K) (t : ℕ) (v : V k) :
    Encodes key code (s'.setex (key k) t (code k v)) (s.setex k t v) :=
  h.update hkey k (some ⟨v, some t⟩)

theorem del (h : Encodes key code s' s) (k : K) :
    Encodes key code (s'.del (key k)) (s.del k) := h.update hkey k none

/-- The value is computed on both sides from what is there, alike up to the encoding. -/
theorem upsert (h : Encodes key code s' s) (now : ℕ) (k : K) {f' : Option B → B}
    {f : Option (V k) → V k} (hf : f' ((s.get now k).map (code k)) = code k (f (s.get now k))) :
    Encodes key code (s'.upsert now (key k) f') (s.upsert now k f) := by
  -- the expiry is taken over from the entry that is there, which has the same on both sides
  have hexpires : (s'.lookup now (key k)).bind Entry.expiresAt =
      (s.lookup now k).bind Entry.expiresAt := by
    rw [h.lookup]
    cases s.lookup now k <;> rfl
  unfold TtlStore.upsert
  rw [h.get, hf, hexpires]
  exact h.update hkey k (some ⟨f (s.get now k), (s.lookup now k).bind Entry.expiresAt⟩)

theorem expire (h : Encodes key code s' s) (now : ℕ) (k : K) (t : ℕ) :
    Encodes key code (s'.expire now (key k) t) (s.expire now k t) := by
  unfold TtlStore.expire
  rw [h.lookup]
  cases s.lookup now k with
  | none => exact h
  | some e => exact h.update hkey k (some { e with expiresAt := some t })

end Encodes

end TtlStore
