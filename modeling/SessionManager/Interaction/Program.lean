import Mathlib.Tactic.Common
import Mathlib.Logic.Function.Basic

/-!
# Programs that issue commands

A program talks to a server it does not own: it issues a command, waits for the reply and goes
on from there. This module gives such programs as trees, and what a server makes of them when
nothing else runs.

* `Signature` — the commands and the type of reply each of them gets.
* `Program σ E α` — a program over `σ` that returns an `α` or raises an `E`; it is a monad.
* `Machine σ S` — a server with states `S`.
* `Program.run` — the uninterrupted run of a program.
* `Program.Exec` — the runs in which the server's state may move along `env` before each command.
-/

namespace Interaction

/-- The commands a program may issue, and the type of the reply to each. -/
structure Signature where
  /-- The commands. -/
  Command : Type
  /-- The type of the reply to a command. -/
  Reply : Command → Type

/-- A server with states `S`: the reply to a command and the state after it. -/
abbrev Machine (σ : Signature) (S : Type) := (c : σ.Command) → S → σ.Reply c × S

/-- A program that issues commands of `σ`, and returns an `α` or raises an `E`. -/
inductive Program (σ : Signature) (E α : Type) : Type where
  /-- Return a value. -/
  | pure (a : α)
  /-- Raise an exception. -/
  | throw (e : E)
  /-- Issue a command and go on with its reply. -/
  | call (c : σ.Command) (next : σ.Reply c → Program σ E α)

/-- A sequence returns what its second part makes of the first. -/
theorem bind_eq_ok {E α β : Type} {x : Except E α} {f : α → Except E β} {b : β} :
    (x >>= f) = .ok b ↔ ∃ a, x = .ok a ∧ f a = .ok b := by
  cases x with
  | ok a => exact ⟨fun h => ⟨a, rfl, h⟩, fun ⟨_, ha, h⟩ => Except.ok.inj ha ▸ h⟩
  | error e =>
    constructor
    · intro h
      cases h
    · rintro ⟨a, ha, -⟩
      cases ha

namespace Program

variable {σ : Signature} {E α β γ S : Type}

/-- Run `p`, then `f` on what it returned. An exception of `p` skips `f`. -/
def bind : Program σ E α → (α → Program σ E β) → Program σ E β
  | .pure a, f => f a
  | .throw e, _ => .throw e
  | .call c next, f => .call c fun r => (next r).bind f

/-- Run `p`; on an exception go on with the handler. -/
def catchWith : Program σ E α → (E → Program σ E α) → Program σ E α
  | .pure a, _ => .pure a
  | .throw e, handler => handler e
  | .call c next, handler => .call c fun r => (next r).catchWith handler

instance : Monad (Program σ E) where
  pure := .pure
  bind := .bind

instance : MonadExcept E (Program σ E) where
  throw := .throw
  tryCatch := .catchWith

/-- Issue one command and return its reply. -/
def perform (c : σ.Command) : Program σ E (σ.Reply c) := .call c .pure

/-- Return the value that was computed, or raise the exception. -/
def ofExcept : Except E α → Program σ E α
  | .ok a => .pure a
  | .error e => .throw e

@[simp] theorem ofExcept_ok (a : α) : (ofExcept (.ok a) : Program σ E α) = .pure a := rfl

@[simp] theorem ofExcept_error (e : E) : (ofExcept (.error e) : Program σ E α) = .throw e := rfl

@[simp] theorem pure_bind' (a : α) (f : α → Program σ E β) :
    (Program.pure a >>= f : Program σ E β) = f a := rfl

@[simp] theorem monadPure_eq (a : α) : (Pure.pure a : Program σ E α) = .pure a := rfl

@[simp] theorem monadThrow_eq (e : E) : (MonadExcept.throw e : Program σ E α) = .throw e := rfl

@[simp] theorem throw_bind (e : E) (f : α → Program σ E β) :
    (Program.throw e >>= f : Program σ E β) = .throw e := rfl

@[simp] theorem call_bind (c : σ.Command) (next : σ.Reply c → Program σ E α)
    (f : α → Program σ E β) :
    (Program.call c next >>= f : Program σ E β) = .call c fun r => next r >>= f := rfl

@[simp] theorem perform_bind (c : σ.Command) (f : σ.Reply c → Program σ E β) :
    (perform c >>= f : Program σ E β) = .call c f := rfl

private theorem bind_pure_right (p : Program σ E α) : p.bind .pure = p := by
  induction p with
  | pure a => rfl
  | throw e => rfl
  | call c next ih => simp only [bind, ih]

private theorem bind_assoc_of (p : Program σ E α) (f : α → Program σ E β)
    (g : β → Program σ E γ) : (p.bind f).bind g = p.bind fun a => (f a).bind g := by
  induction p with
  | pure a => rfl
  | throw e => rfl
  | call c next ih => simp only [bind, ih]

instance : LawfulMonad (Program σ E) :=
  LawfulMonad.mk' (Program σ E) (fun p => bind_pure_right p) (fun _ _ => rfl)
    (fun p f g => bind_assoc_of p f g)

@[simp] theorem bind_pure_eq (p : Program σ E α) : (p >>= Program.pure) = p := bind_pure p

/-! ### Runs without interference -/

/-- The outcome of `p` from state `s`, and the state it leaves, when nothing else runs. -/
def run (m : Machine σ S) : Program σ E α → S → Except E α × S
  | .pure a, s => (.ok a, s)
  | .throw e, s => (.error e, s)
  | .call c next, s => run m (next (m c s).1) (m c s).2

section Run

variable (m : Machine σ S)

@[simp] theorem run_pure (a : α) (s : S) : (Program.pure a : Program σ E α).run m s = (.ok a, s) :=
  rfl

@[simp] theorem run_throw (e : E) (s : S) :
    (Program.throw e : Program σ E α).run m s = (.error e, s) := rfl

@[simp] theorem run_call (c : σ.Command) (next : σ.Reply c → Program σ E α) (s : S) :
    (Program.call c next).run m s = (next (m c s).1).run m (m c s).2 := rfl

/-- A sequence runs its first part and, if that returned, its second part from there. -/
theorem run_bind (p : Program σ E α) (f : α → Program σ E β) (s : S) :
    (p >>= f).run m s =
      match p.run m s with
      | (.ok a, s') => (f a).run m s'
      | (.error e, s') => (.error e, s') := by
  induction p generalizing s with
  | pure a => rfl
  | throw e => rfl
  | call c next ih => exact ih _ _

/-- `run_bind` when the first part is known to return. -/
theorem run_bind_ok {p : Program σ E α} {f : α → Program σ E β} {s s' : S} {a : α}
    (h : p.run m s = (.ok a, s')) : (p >>= f).run m s = (f a).run m s' := by
  rw [run_bind, h]

end Run

/-! ### Runs with a moving environment -/

/-- `p.Exec m env s x s'`: from `s` the program can end with outcome `x` in state `s'` when the
state may move along `env` before each command. -/
inductive Exec (m : Machine σ S) (env : S → S → Prop) :
    Program σ E α → S → Except E α → S → Prop
  | pure {a s} : Exec m env (.pure a) s (.ok a) s
  | throw {e s} : Exec m env (.throw e) s (.error e) s
  | call {c next s s₁ x s₂} : env s s₁ → Exec m env (next (m c s₁).1) (m c s₁).2 x s₂ →
      Exec m env (.call c next) s x s₂

/-- The uninterrupted run is one of the runs under a reflexive environment. -/
theorem Exec.of_run {m : Machine σ S} {env : S → S → Prop} (henv : ∀ s, env s s)
    (p : Program σ E α) (s : S) : p.Exec m env s (p.run m s).1 (p.run m s).2 := by
  induction p generalizing s with
  | pure a => exact .pure
  | throw e => exact .throw
  | call c next ih => exact .call (henv s) (ih _ _)

end Program

end Interaction
