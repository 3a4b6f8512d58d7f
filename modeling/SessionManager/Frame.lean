import SessionManager.Interaction.Wp
import SessionManager.Redis

/-!
# What commands and time leave alone

* `Command.changes` — the key a command may change; `machine_entry_of_ne` is the frame rule.
* `World.entry`, `World.entry_hset`, … — what is live under a key, and after each command on it.
* `World.advance`, `World.Elapses` — what the passing of time does to the keys.
* `World.Keeps` — time passes and a key that is there stays there.
-/

namespace SessionManager

open Python Interaction

/-- The key a command may change. -/
def Command.changes : Command → Option Key
  | .hset k _ => some (.session k)
  | .rpush k _ => some (.turns k)
  | .set key _ => some key
  | .setex key _ _ => some key
  | .expire key _ => some key
  | .del key => some key
  | _ => none

/-- A command changes no other key. -/
theorem machine_store_of_ne {c : Command} {key : Key} (h : c.changes ≠ some key) (w : World) :
    (machine c w).2.store key = w.store key := by
  cases c <;> simp only [Command.changes, ne_eq, Option.some.injEq] at h
  case hset k mapping =>
    exact @TtlStore.upsert_apply_of_ne _ _ _ w.store w.now _ _ (Ne.symm h)
      fun old => (old.getD Hash.empty).merge mapping
  case rpush k turn =>
    exact @TtlStore.upsert_apply_of_ne _ _ _ w.store w.now _ _ (Ne.symm h)
      fun turns => turns.getD [] ++ [turn]
  case set key' v => exact TtlStore.set_apply_of_ne (Ne.symm h) _
  case setex key' seconds v => exact TtlStore.setex_apply_of_ne (Ne.symm h) _ _
  case expire key' seconds => exact TtlStore.expire_apply_of_ne (Ne.symm h) _
  case del key' => exact TtlStore.del_apply_of_ne (Ne.symm h)
  all_goals rfl

/-- Commands take no time. -/
@[simp] theorem machine_now (c : Command) (w : World) : (machine c w).2.now = w.now := by
  cases c <;> rfl

namespace World

/-- What is live under a key. -/
def entry (w : World) (key : Key) : Option (TtlStore.Entry key.Value) := w.store.lookup w.now key

theorem get_eq_entry (w : World) (key : Key) :
    w.store.get w.now key = (w.entry key).map TtlStore.Entry.value := rfl

/-- `EXISTS` finds the keys with an entry. -/
theorem exists_eq_entry (w : World) (key : Key) :
    (machine (.exists_ key) w).1 = (w.entry key).isSome := rfl

theorem hash_eq_entry (w : World) (k : String) :
    w.hash k = (w.entry (.session k)).map TtlStore.Entry.value := rfl

/-- The hash of a session whose entry is known. -/
theorem hash_of_entry {w : World} {k : String} {e : TtlStore.Entry Hash}
    (h : w.entry (.session k) = some e) : w.hash k = some e.value := by
  rw [hash_eq_entry, h]
  rfl

/-- A command on another key changes nothing that can be seen of a key. -/
theorem machine_entry_of_ne {c : Command} {key : Key} (h : c.changes ≠ some key) (w : World) :
    World.entry (machine c w).2 key = w.entry key := by
  unfold entry
  rw [machine_now]
  exact TtlStore.lookup_congr (machine_store_of_ne h w) _

/-! ### Commands on the key -/

/-- `HSET` keeps the expiry of a session that is there. -/
theorem entry_hset (w : World) (k : String) (mapping : Hash) :
    (w.hset k mapping).entry (.session k) =
      some ⟨((w.hash k).getD Hash.empty).merge mapping,
        (w.entry (.session k)).bind TtlStore.Entry.expiresAt⟩ :=
  TtlStore.lookup_upsert_self w.store w.now (.session k)
    fun old => (old.getD Hash.empty).merge mapping

/-- `RPUSH` keeps the expiry of a list that is there. -/
theorem entry_rpush (w : World) (k : String) (turn : Json) :
    (w.rpush k turn).entry (.turns k) =
      some ⟨(((w.entry (.turns k)).map TtlStore.Entry.value).getD [] : List Json) ++ [turn],
        (w.entry (.turns k)).bind TtlStore.Entry.expiresAt⟩ :=
  TtlStore.lookup_upsert_self w.store w.now (.turns k)
    fun turns => (turns.getD [] : List Json) ++ [turn]

theorem entry_set (w : World) (key : Key) (v : key.Value) :
    (w.set key v).entry key = some ⟨v, none⟩ :=
  TtlStore.lookup_set_self w.store w.now key v

theorem entry_setex (w : World) (key : Key) (seconds : ℕ) (v : key.Value) :
    (w.setex key seconds v).entry key = some ⟨v, some (w.after seconds)⟩ :=
  TtlStore.lookup_setex_self w.store w.now key (Nat.le_add_right _ _) v

/-- `EXPIRE` of a missing key does nothing. -/
theorem entry_expire (w : World) (key : Key) (seconds : ℕ) :
    (w.expire key seconds).entry key =
      (w.entry key).map fun e => { e with expiresAt := some (w.after seconds) } :=
  TtlStore.lookup_expire_self w.store w.now key (Nat.le_add_right _ _)

theorem entry_del (w : World) (key : Key) : (w.del key).entry key = none :=
  TtlStore.lookup_del_self w.store w.now key

/-! ### Time -/

@[simp] theorem advance_store (w : World) (d : ℕ) : (w.advance d).store = w.store := rfl

@[simp] theorem advance_now (w : World) (d : ℕ) : (w.advance d).now = w.now + d := rfl

theorem Elapses.refl (w : World) : w.Elapses w := ⟨0, rfl⟩

theorem Elapses.trans {w₁ w₂ w₃ : World} (h : w₁.Elapses w₂) (h' : w₂.Elapses w₃) :
    w₁.Elapses w₃ := by
  obtain ⟨d, rfl⟩ := h
  obtain ⟨d', rfl⟩ := h'
  exact ⟨d + d', by simp [advance, Nat.add_assoc]⟩

theorem Elapses.store_eq {w w' : World} (h : w.Elapses w') : w'.store = w.store := by
  obtain ⟨d, rfl⟩ := h
  rfl

theorem Elapses.now_le {w w' : World} (h : w.Elapses w') : w.now ≤ w'.now := by
  obtain ⟨d, rfl⟩ := h
  exact Nat.le_add_right _ _

/-- What is there after some time was there before, and is the same. -/
theorem Elapses.entry {w w' : World} (h : w.Elapses w') {key : Key}
    {e : TtlStore.Entry key.Value} (hentry : w'.entry key = some e) : w.entry key = some e := by
  have hnow := h.now_le
  unfold World.entry at hentry ⊢
  rw [h.store_eq] at hentry
  exact TtlStore.lookup_anti hentry hnow

/-- What was there before is there after some time, when it has not expired. -/
theorem Elapses.entry_of_live {w w' : World} (h : w.Elapses w') {key : Key}
    {e : TtlStore.Entry key.Value} (hentry : w.entry key = some e) (hlive : e.Live w'.now) :
    w'.entry key = some e := by
  unfold World.entry at hentry ⊢
  rw [h.store_eq]
  exact TtlStore.lookup_eq_some_iff.mpr ⟨(TtlStore.lookup_eq_some_iff.mp hentry).1, hlive⟩

/-- What is there has not expired. -/
theorem live_of_entry {w : World} {key : Key} {e : TtlStore.Entry key.Value}
    (h : w.entry key = some e) : e.Live w.now :=
  (TtlStore.lookup_eq_some_iff.mp h).2

/-- What is not there does not come with time. -/
theorem Elapses.entry_eq_none {w w' : World} (h : w.Elapses w') {key : Key}
    (hentry : w.entry key = none) : w'.entry key = none := by
  cases hentry' : w'.entry key with
  | none => rfl
  | some e => exact absurd (h.entry hentry') (by simp [hentry])

/-- `Elapses.entry` for a value. -/
theorem Elapses.get {w w' : World} (h : w.Elapses w') {key : Key} {v : key.Value}
    (hget : w'.store.get w'.now key = some v) : w.store.get w.now key = some v := by
  obtain ⟨e, hlook, rfl⟩ := TtlStore.get_eq_some_iff.mp hget
  exact TtlStore.get_of_lookup (h.entry hlook)

/-- Time passes, and `key` does not expire. -/
def Keeps (key : Key) (w w' : World) : Prop :=
  w.Elapses w' ∧ ((w.entry key).isSome → (w'.entry key).isSome)

/-- No time at all passes. -/
theorem Keeps.of_eq {key : Key} {w w' : World} (h : w = w') : Keeps key w w' := by
  subst h
  exact ⟨.refl w, id⟩

/-- A key that does not expire shows the same entry. -/
theorem Keeps.entry {key : Key} {w w' : World} (h : Keeps key w w') :
    w'.entry key = w.entry key := by
  obtain ⟨helapse, hkeep⟩ := h
  cases hentry : w.entry key with
  | some e =>
    obtain ⟨e', he'⟩ := Option.isSome_iff_exists.mp (hkeep (by simp [hentry]))
    rw [he', ← hentry, helapse.entry he']
  | none => exact helapse.entry_eq_none hentry

/-- A key that does not expire shows the same value. -/
theorem Keeps.get {key : Key} {w w' : World} (h : Keeps key w w') :
    w'.store.get w'.now key = w.store.get w.now key := by
  rw [get_eq_entry, get_eq_entry, h.entry]

/-- A session that does not expire shows the same hash. -/
theorem Keeps.hash {k : String} {w w' : World} (h : Keeps (.session k) w w') :
    w'.hash k = w.hash k := h.get

/-! ### The session hash -/

/-- The hash of a session depends on its key only. -/
theorem hash_of_ne {c : Command} {k : String} (h : c.changes ≠ some (.session k)) (w : World) :
    (machine c w).2.hash k = w.hash k := by
  rw [hash_eq_entry, hash_eq_entry, machine_entry_of_ne h]

/-- The mapping of a `jti` depends on its key only. -/
theorem jti_of_ne {c : Command} {j : String} (h : c.changes ≠ some (.jti j)) (w : World) :
    (machine c w).2.jti j = w.jti j := by
  unfold jti
  rw [get_eq_entry, get_eq_entry, machine_entry_of_ne h]

@[simp] theorem hash_hset (w : World) (k : String) (mapping : Hash) :
    (w.hset k mapping).hash k = some (((w.hash k).getD Hash.empty).merge mapping) :=
  hash_of_entry (entry_hset w k mapping)

@[simp] theorem hash_expire (w : World) (k : String) (seconds : ℕ) :
    (w.expire (.session k) seconds).hash k = w.hash k := by
  rw [hash_eq_entry, hash_eq_entry, entry_expire, Option.map_map]
  rfl

end World

end SessionManager
