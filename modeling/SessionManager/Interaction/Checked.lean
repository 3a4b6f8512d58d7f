import SessionManager.Interaction.Protocol

/-!
# Programs whose client refuses commands

A client may raise an exception instead of issuing a command, for a reason that lies in the command
alone.

* `Program.checked` — the program with such a client.
* `checked_bind`, `checked_catchWith` — part by part.
* `checked_of_only`, `Only.checked` — a program none of whose commands is refused is the same, and
  no command that is issued is one that is refused.
-/

namespace Interaction

namespace Program

variable {σ : Signature} {E α β : Type}

/-- The program with a client that raises `e` for a command `c` with `refuse c = some e`. -/
def checked (refuse : σ.Command → Option E) : Program σ E α → Program σ E α
  | .pure a => .pure a
  | .throw e => .throw e
  | .call c next =>
    match refuse c with
    | some e => .throw e
    | none => .call c fun r => (next r).checked refuse

variable {refuse : σ.Command → Option E}

theorem checked_call_of_some {c : σ.Command} {e : E} (h : refuse c = some e)
    (next : σ.Reply c → Program σ E α) : (Program.call c next).checked refuse = .throw e := by
  rw [checked, h]

theorem checked_call_of_none {c : σ.Command} (h : refuse c = none)
    (next : σ.Reply c → Program σ E α) :
    (Program.call c next).checked refuse = .call c fun r => (next r).checked refuse := by
  rw [checked, h]

/-- A sequence with such a client. -/
theorem checked_bind (p : Program σ E α) (f : α → Program σ E β) :
    (p >>= f).checked refuse = p.checked refuse >>= fun a => (f a).checked refuse := by
  induction p with
  | pure a => rfl
  | throw e => rfl
  | call c next ih =>
    cases h : refuse c with
    | some e =>
      rw [call_bind, checked_call_of_some h, checked_call_of_some h]
      rfl
    | none =>
      rw [call_bind, checked_call_of_none h, checked_call_of_none h, call_bind]
      exact congrArg _ (funext ih)

/-- A handler that passes on what the client raises. -/
theorem checked_catchWith (p : Program σ E α) {handler : E → Program σ E α}
    (hhandler : ∀ c e, refuse c = some e → handler e = .throw e) :
    (p.catchWith handler).checked refuse =
      (p.checked refuse).catchWith fun e => (handler e).checked refuse := by
  induction p with
  | pure a => rfl
  | throw e => rfl
  | call c next ih =>
    cases h : refuse c with
    | some e =>
      rw [catchWith, checked_call_of_some h, checked_call_of_some h, catchWith, hhandler c e h]
      rfl
    | none =>
      rw [catchWith, checked_call_of_none h, checked_call_of_none h, catchWith]
      exact congrArg _ (funext ih)

/-- A program none of whose commands is refused. -/
theorem checked_of_only {p : Program σ E α} (hp : p.Only fun c => refuse c = none) :
    p.checked refuse = p := by
  induction p with
  | pure a => rfl
  | throw e => rfl
  | call c next ih =>
    rw [checked_call_of_none hp.1]
    exact congrArg _ (funext fun r => ih r (hp.2 r))

/-- What is issued is one of the program's commands, and is not refused. -/
theorem Only.checked {C : σ.Command → Prop} {p : Program σ E α} (hp : p.Only C) :
    (p.checked refuse).Only fun c => C c ∧ refuse c = none := by
  induction p with
  | pure a => trivial
  | throw e => trivial
  | call c next ih =>
    cases h : refuse c with
    | some e =>
      rw [checked_call_of_some h]
      trivial
    | none =>
      rw [checked_call_of_none h]
      exact ⟨⟨hp.1, h⟩, fun r => ih r (hp.2 r)⟩

end Program

end Interaction
