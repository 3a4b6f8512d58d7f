import SessionManager.Frame

/-!
# What is stored under a key

Invariants of the store that say of every entry, by its own, what its value is like.

* `Command.Stores`, `Command.Shows` — the commands that store such values, and the replies that
  show such.
* `World.Holds` — every stored value is such a one; `World.Holds.machine` keeps it.
* `storing` — the protocol of a program that stores such values when it reads such.
-/

namespace SessionManager

open Python Interaction

variable {Fit : (key : Key) → key.Value → Prop}

/-- The command stores values that fit their keys, when what is there already does. -/
def Command.Stores (Fit : (key : Key) → key.Value → Prop) : Command → Prop
  | .hset k mapping => ∀ h, h = Hash.empty ∨ Fit (.session k) h → Fit (.session k) (h.merge mapping)
  | .rpush k turn => ∀ turns, turns = [] ∨ Fit (.turns k) turns → Fit (.turns k) (turns ++ [turn])
  | .set key v => Fit key v
  | .setex key _ v => Fit key v
  | _ => True

/-- The reply shows values that fit their keys. -/
def Command.Shows (Fit : (key : Key) → key.Value → Prop) : (c : Command) → c.Reply → Prop
  | .hgetall k, reply => ∀ h, reply = some h → Fit (.session k) h
  | .get key, reply => ∀ v, reply = some v → Fit key v
  | .lrange k, reply => reply = [] ∨ Fit (.turns k) reply
  | _, _ => True

/-- Every stored value fits its key. -/
def World.Holds (Fit : (key : Key) → key.Value → Prop) (w : World) : Prop :=
  ∀ key e, w.store key = some e → Fit key e.value

/-- The protocol of a program that stores values that fit, when it is shown such. -/
def storing (Fit : (key : Key) → key.Value → Prop) : Protocol redis where
  State := Unit
  Allow _ := Command.Stores Fit
  Answer _ := Command.Shows Fit
  step _ _ _ := ()

/-- What is read is there, or it is the default. -/
theorem getD_or {α : Type} {P : α → Prop} {stored : Option α} (h : ∀ a, stored = some a → P a)
    (default : α) : stored.getD default = default ∨ P (stored.getD default) := by
  cases stored with
  | none => exact .inl rfl
  | some a => exact .inr (h a rfl)

namespace World

theorem Holds.get {w : World} (h : w.Holds Fit) {key : Key} {v : key.Value}
    (hget : w.store.get w.now key = some v) : Fit key v := by
  obtain ⟨e, hlook, rfl⟩ := TtlStore.get_eq_some_iff.mp hget
  exact h key e (TtlStore.lookup_eq_some_iff.mp hlook).1

theorem Holds.shows {w : World} (h : w.Holds Fit) (c : Command) : c.Shows Fit (machine c w).1 := by
  cases c
  case hgetall k =>
    intro session hget
    exact @Holds.get Fit w h (.session k) session hget
  case get key => exact fun v hget => h.get hget
  case lrange k => exact getD_or (fun turns hget => @Holds.get Fit w h (.turns k) turns hget) []
  all_goals trivial

theorem Holds.elapses {w w' : World} (h : w.Holds Fit) (helapses : w.Elapses w') :
    w'.Holds Fit := by
  intro key e he
  rw [helapses.store_eq] at he
  exact h key e he

/-- A command that stores values that fit keeps the store so. -/
theorem Holds.machine {w : World} (h : w.Holds Fit) {c : Command} (hc : c.Stores Fit) :
    (machine c w).2.Holds Fit := by
  intro key e he
  -- only the key that the command changes needs a look
  by_cases hkey : c.changes = some key
  · cases c <;> simp only [Command.changes, Option.some.injEq, reduceCtorEq] at hkey <;> subst hkey
    case hset k mapping =>
      have hnew := TtlStore.upsert_apply_self w.store w.now (.session k)
        fun old => (old.getD Hash.empty).merge mapping
      obtain rfl := Option.some.inj (hnew.symm.trans he)
      apply hc
      exact getD_or (fun session hget => @Holds.get Fit w h (.session k) session hget) Hash.empty
    case rpush k turn =>
      have hnew := TtlStore.upsert_apply_self w.store w.now (.turns k)
        fun turns => turns.getD [] ++ [turn]
      obtain rfl := Option.some.inj (hnew.symm.trans he)
      apply hc
      exact getD_or (fun turns hget => @Holds.get Fit w h (.turns k) turns hget) []
    case set key v =>
      obtain rfl := Option.some.inj ((TtlStore.set_apply_self w.store _ v).symm.trans he)
      exact hc
    case setex key seconds v =>
      obtain rfl := Option.some.inj ((TtlStore.setex_apply_self w.store _ _ v).symm.trans he)
      exact hc
    case expire key seconds =>
      -- a new lifetime for a value that is there
      cases hlook : w.store.lookup w.now key with
      | none =>
        have hsame := TtlStore.expire_of_lookup_none w.store w.now key hlook (w.after seconds)
        exact h key e ((congrFun hsame key).symm.trans he)
      | some e' =>
        have hnew := TtlStore.expire_apply_self w.store w.now key hlook (w.after seconds)
        obtain rfl := Option.some.inj (hnew.symm.trans he)
        exact h key e' (TtlStore.lookup_eq_some_iff.mp hlook).1
    case del key =>
      cases he.symm.trans (TtlStore.del_apply_self w.store key)
  · rw [machine_store_of_ne hkey] at he
    exact h key e he

end World

end SessionManager
