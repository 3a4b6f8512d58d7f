import Mathlib.Data.List.Forall2
import SessionManager.Interaction.Program

/-!
# Servers that only answer

Against a server that keeps no state a program is decided by the answers it gets: by one answer to
each command, or by any of several ones.

* `Program.eval` — the outcome when every command has one answer.
* `Program.Ends` — the outcomes when a command may get any of several answers.
* `ends_bind`, `ends_catchWith` — the outcomes of a sequence and of a handler.
* `Program.Meets` — the postconditions that all outcomes meet, with a rule for each way to build a
  program that is an equivalence.
-/

namespace Interaction

namespace Program

variable {σ : Signature} {E α β : Type}

/-- The outcome of `p` when every command gets the same answer each time. -/
def eval (answer : (c : σ.Command) → σ.Reply c) : Program σ E α → Except E α
  | .pure a => .ok a
  | .throw e => .error e
  | .call c next => (next (answer c)).eval answer

/-- `p.Ends A x`: `p` can end with outcome `x` when the replies to each command are among `A`. -/
def Ends (A : (c : σ.Command) → σ.Reply c → Prop) : Program σ E α → Except E α → Prop
  | .pure a, x => x = .ok a
  | .throw e, x => x = .error e
  | .call c next, x => ∃ r, A c r ∧ (next r).Ends A x

/-- `p.Meets A Q R`: whichever of the answers among `A` it gets, `p` returns a value with `Q` or
raises an exception with `R`. -/
def Meets (A : (c : σ.Command) → σ.Reply c → Prop) (Q : α → Prop) (R : E → Prop) :
    Program σ E α → Prop
  | .pure a => Q a
  | .throw e => R e
  | .call c next => ∀ r, A c r → (next r).Meets A Q R

section Eval

variable (answer : (c : σ.Command) → σ.Reply c)

@[simp] theorem eval_pure (a : α) : (Program.pure a : Program σ E α).eval answer = .ok a := rfl

@[simp] theorem eval_throw (e : E) : (Program.throw e : Program σ E α).eval answer = .error e := rfl

@[simp] theorem eval_call (c : σ.Command) (next : σ.Reply c → Program σ E α) :
    (Program.call c next).eval answer = (next (answer c)).eval answer := rfl

@[simp] theorem eval_ofExcept (x : Except E α) :
    (ofExcept x : Program σ E α).eval answer = x := by
  cases x <;> rfl

/-- A sequence. -/
theorem eval_bind (p : Program σ E α) (f : α → Program σ E β) :
    (p >>= f).eval answer = p.eval answer >>= fun a => (f a).eval answer := by
  induction p with
  | pure a => rfl
  | throw e => rfl
  | call c next ih => exact ih _

/-- A sequence whose first part returns. -/
theorem eval_bind_ok {p : Program σ E α} {a : α} (h : p.eval answer = .ok a)
    (f : α → Program σ E β) : (p >>= f).eval answer = (f a).eval answer := by
  rw [eval_bind, h]
  rfl

/-- A sequence whose first part raises. -/
theorem eval_bind_error {p : Program σ E α} {e : E} (h : p.eval answer = .error e)
    (f : α → Program σ E β) : (p >>= f).eval answer = .error e := by
  rw [eval_bind, h]
  rfl

/-- A program for each element of a list, one after the other. -/
theorem eval_mapM_eq_ok {f : α → Program σ E β} {as : List α} {bs : List β} :
    (as.mapM f).eval answer = .ok bs ↔
      List.Forall₂ (fun a b => (f a).eval answer = .ok b) as bs := by
  induction as generalizing bs with
  | nil =>
    rw [List.mapM_nil, List.forall₂_nil_left_iff]
    constructor
    · intro h
      exact (Except.ok.inj h).symm
    · rintro rfl
      rfl
  | cons a as ih =>
    rw [List.mapM_cons, eval_bind, bind_eq_ok, List.forall₂_cons_left_iff]
    refine exists_congr fun b => ?_
    rw [eval_bind, bind_eq_ok]
    constructor
    · rintro ⟨hb, bs', hbs, heq⟩
      exact ⟨bs', hb, ih.mp hbs, (Except.ok.inj heq).symm⟩
    · rintro ⟨bs', hb, hbs, rfl⟩
      exact ⟨hb, bs', ih.mpr hbs, rfl⟩

/-- A handler that is not needed. -/
theorem eval_catchWith_ok {p : Program σ E α} {a : α} (h : p.eval answer = .ok a)
    (handler : E → Program σ E α) : (p.catchWith handler).eval answer = .ok a := by
  induction p with
  | pure a => exact h
  | throw e => cases h
  | call c next ih => exact ih _ h

/-- A handler that is needed. -/
theorem eval_catchWith_error {p : Program σ E α} {e : E} (h : p.eval answer = .error e)
    (handler : E → Program σ E α) :
    (p.catchWith handler).eval answer = (handler e).eval answer := by
  induction p with
  | pure a => cases h
  | throw e' =>
    obtain rfl := Except.error.inj h
    rfl
  | call c next ih => exact ih _ h

end Eval

section Ends

variable {A : (c : σ.Command) → σ.Reply c → Prop}

@[simp] theorem ends_pure {a : α} {x : Except E α} :
    (Program.pure a : Program σ E α).Ends A x ↔ x = .ok a := Iff.rfl

@[simp] theorem ends_throw {e : E} {x : Except E α} :
    (Program.throw e : Program σ E α).Ends A x ↔ x = .error e := Iff.rfl

@[simp] theorem ends_call {c : σ.Command} {next : σ.Reply c → Program σ E α} {x : Except E α} :
    (Program.call c next).Ends A x ↔ ∃ r, A c r ∧ (next r).Ends A x := Iff.rfl

/-- What a program gives with one answer to each command is one of its outcomes. -/
theorem ends_eval {answer : (c : σ.Command) → σ.Reply c} (hA : ∀ c, A c (answer c))
    (p : Program σ E α) : p.Ends A (p.eval answer) := by
  induction p with
  | pure a => rfl
  | throw e => rfl
  | call c next ih => exact ⟨answer c, hA c, ih _⟩

@[simp] theorem ends_ofExcept {x y : Except E α} :
    (ofExcept x : Program σ E α).Ends A y ↔ y = x := by
  cases x <;> exact Iff.rfl

/-- A sequence ends with what its second part ends with, or with what its first part raises. -/
theorem ends_bind {p : Program σ E α} {f : α → Program σ E β} {x : Except E β} :
    (p >>= f).Ends A x ↔
      (∃ a, p.Ends A (.ok a) ∧ (f a).Ends A x) ∨ ∃ e, p.Ends A (.error e) ∧ x = .error e := by
  induction p with
  | pure a =>
    rw [pure_bind']
    constructor
    · intro h
      exact .inl ⟨a, rfl, h⟩
    · rintro (⟨a', ha, h⟩ | ⟨e, he, -⟩)
      · rwa [Except.ok.inj ha] at h
      · cases he
  | throw e =>
    rw [throw_bind]
    constructor
    · intro h
      exact .inr ⟨e, rfl, h⟩
    · rintro (⟨a, ha, -⟩ | ⟨e', he, h⟩)
      · cases ha
      · rwa [Except.error.inj he] at h
  | call c next ih =>
    rw [call_bind, ends_call]
    constructor
    · rintro ⟨r, hr, h⟩
      rcases (ih r).mp h with ⟨a, ha, hf⟩ | ⟨e, he, hx⟩
      · exact .inl ⟨a, ⟨r, hr, ha⟩, hf⟩
      · exact .inr ⟨e, ⟨r, hr, he⟩, hx⟩
    · rintro (⟨a, ⟨r, hr, ha⟩, hf⟩ | ⟨e, ⟨r, hr, he⟩, hx⟩)
      · exact ⟨r, hr, (ih r).mpr (.inl ⟨a, ha, hf⟩)⟩
      · exact ⟨r, hr, (ih r).mpr (.inr ⟨e, he, hx⟩)⟩

/-- What a sequence returns is returned by its second part. -/
theorem ends_bind_ok {p : Program σ E α} {f : α → Program σ E β} {b : β} :
    (p >>= f).Ends A (.ok b) ↔ ∃ a, p.Ends A (.ok a) ∧ (f a).Ends A (.ok b) := by
  rw [ends_bind]
  exact or_iff_left (by simp)

/-- With a handler, a program ends with what it returns, or with what the handler makes of an
exception. -/
theorem ends_catchWith {p : Program σ E α} {handler : E → Program σ E α} {x : Except E α} :
    (p.catchWith handler).Ends A x ↔
      (∃ a, p.Ends A (.ok a) ∧ x = .ok a) ∨ ∃ e, p.Ends A (.error e) ∧ (handler e).Ends A x := by
  induction p with
  | pure a =>
    constructor
    · intro h
      exact .inl ⟨a, rfl, h⟩
    · rintro (⟨a', ha, h⟩ | ⟨e, he, -⟩)
      · rw [h, Except.ok.inj ha]
        exact rfl
      · cases he
  | throw e =>
    constructor
    · intro h
      exact .inr ⟨e, rfl, h⟩
    · rintro (⟨a, ha, -⟩ | ⟨e', he, h⟩)
      · cases ha
      · rwa [Except.error.inj he] at h
  | call c next ih =>
    constructor
    · rintro ⟨r, hr, h⟩
      rcases (ih r).mp h with ⟨a, ha, hx⟩ | ⟨e, he, hx⟩
      · exact .inl ⟨a, ⟨r, hr, ha⟩, hx⟩
      · exact .inr ⟨e, ⟨r, hr, he⟩, hx⟩
    · rintro (⟨a, ⟨r, hr, ha⟩, hx⟩ | ⟨e, ⟨r, hr, he⟩, hx⟩)
      · exact ⟨r, hr, (ih r).mpr (.inl ⟨a, ha, hx⟩)⟩
      · exact ⟨r, hr, (ih r).mpr (.inr ⟨e, he, hx⟩)⟩

end Ends

section Meets

variable {A : (c : σ.Command) → σ.Reply c → Prop} {R : E → Prop}

@[simp] theorem meets_pure {a : α} {Q : α → Prop} :
    (Program.pure a : Program σ E α).Meets A Q R ↔ Q a := Iff.rfl

@[simp] theorem meets_throw {e : E} {Q : α → Prop} :
    (Program.throw e : Program σ E α).Meets A Q R ↔ R e := Iff.rfl

@[simp] theorem meets_call {c : σ.Command} {next : σ.Reply c → Program σ E α} {Q : α → Prop} :
    (Program.call c next).Meets A Q R ↔ ∀ r, A c r → (next r).Meets A Q R := Iff.rfl

/-- A program meets what all its outcomes meet. -/
theorem meets_iff_ends {p : Program σ E α} {Q : α → Prop} :
    p.Meets A Q R ↔ (∀ a, p.Ends A (.ok a) → Q a) ∧ ∀ e, p.Ends A (.error e) → R e := by
  induction p with
  | pure a =>
    refine ⟨fun h => ⟨?_, nofun⟩, fun h => h.1 a rfl⟩
    rintro _ ⟨⟩
    exact h
  | throw e =>
    refine ⟨fun h => ⟨nofun, ?_⟩, fun h => h.2 e rfl⟩
    rintro _ ⟨⟩
    exact h
  | call c next ih =>
    constructor
    · intro h
      constructor
      · rintro a ⟨r, hr, ha⟩
        exact ((ih r).mp (h r hr)).1 a ha
      · rintro e ⟨r, hr, he⟩
        exact ((ih r).mp (h r hr)).2 e he
    · intro h r hr
      exact (ih r).mpr ⟨fun a ha => h.1 a ⟨r, hr, ha⟩, fun e he => h.2 e ⟨r, hr, he⟩⟩

theorem Meets.mono {p : Program σ E α} {Q Q' : α → Prop} {R' : E → Prop} (h : p.Meets A Q R)
    (hQ : ∀ a, Q a → Q' a) (hR : ∀ e, R e → R' e) : p.Meets A Q' R' := by
  obtain ⟨hok, herror⟩ := meets_iff_ends.mp h
  exact meets_iff_ends.mpr ⟨fun a ha => hQ a (hok a ha), fun e he => hR e (herror e he)⟩

/-- The same postconditions. -/
theorem meets_congr {p : Program σ E α} {Q Q' : α → Prop} {R' : E → Prop}
    (hQ : ∀ a, Q a ↔ Q' a) (hR : ∀ e, R e ↔ R' e) : p.Meets A Q R ↔ p.Meets A Q' R' :=
  ⟨fun h => h.mono (fun a => (hQ a).mp) fun e => (hR e).mp,
    fun h => h.mono (fun a => (hQ a).mpr) fun e => (hR e).mpr⟩

theorem meets_ofExcept {x : Except E α} {Q : α → Prop} :
    (ofExcept x : Program σ E α).Meets A Q R ↔
      (∀ a, x = .ok a → Q a) ∧ ∀ e, x = .error e → R e := by
  rw [meets_iff_ends]
  simp only [ends_ofExcept, eq_comm]

/-- A sequence. -/
theorem meets_bind {p : Program σ E α} {f : α → Program σ E β} {Q : β → Prop} :
    (p >>= f).Meets A Q R ↔ p.Meets A (fun a => (f a).Meets A Q R) R := by
  induction p with
  | pure a => exact Iff.rfl
  | throw e => exact Iff.rfl
  | call c next ih => exact forall₂_congr fun r _ => ih r

/-- A handler. -/
theorem meets_catchWith {p : Program σ E α} {handler : E → Program σ E α} {Q : α → Prop} :
    (p.catchWith handler).Meets A Q R ↔ p.Meets A Q fun e => (handler e).Meets A Q R := by
  induction p with
  | pure a => exact Iff.rfl
  | throw e => exact Iff.rfl
  | call c next ih => exact forall₂_congr fun r _ => ih r

end Meets

end Program

end Interaction
