import SessionManager.Interaction.Relation

/-!
# Programs over another signature

A codec encodes the commands of one signature as commands of another one and decodes their replies;
either may fail. With one, a program becomes a program over the other signature that encodes what it
issues, decodes what it gets, and raises what fails.

* `Encoding`, `Codec`, `Program.encoded` — one command, all of them, and a program.
* `Codec.Faithful` — nothing fails between commands and replies that go together.
* `Program.Related.encoded` — programs that are alike stay so when one of them is encoded.
-/

namespace Interaction

variable {σ τ : Signature} {E F α β : Type}

/-- A command of `τ` that is issued for one of `σ`, and what its reply says. -/
structure Encoding (σ τ : Signature) (F : Type) (c : σ.Command) where
  /-- The command that is issued. -/
  command : τ.Command
  /-- The reply as one to the command it is issued for. -/
  decode : τ.Reply command → Except F (σ.Reply c)

/-- The commands of `σ` as commands of `τ`, and the replies to these as replies to those. -/
abbrev Codec (σ τ : Signature) (F : Type) := (c : σ.Command) → Except F (Encoding σ τ F c)

/-- The program over the other signature. -/
def Program.encoded (C : Codec σ τ F) : Program σ E α → Program τ (E ⊕ F) α
  | .pure a => .pure a
  | .throw e => .throw (.inl e)
  | .call c next =>
    match C c with
    | .error f => .throw (.inr f)
    | .ok encoding => .call encoding.command fun reply =>
      match encoding.decode reply with
      | .error f => .throw (.inr f)
      | .ok r => (next r).encoded C

/-- Commands that go together are encoded, and the replies to them that go together are decoded. -/
structure Codec.Faithful (C : Codec σ τ F) (L : Link σ σ E E) (M : Link τ σ (E ⊕ F) E) : Prop where
  /-- A command and its reply. -/
  answer : ∀ c c', L.Command c c' → ∃ encoding, C c = .ok encoding ∧
    M.Command encoding.command c' ∧ ∀ reply r', M.Reply encoding.command c' reply r' →
      ∃ r, encoding.decode reply = .ok r ∧ L.Reply c c' r r'
  /-- An exception of the program itself. -/
  raise : ∀ e e', L.Exception e e' → M.Exception (.inl e) e'

/-- A program that is like another one is still so when it is encoded. -/
theorem Program.Related.encoded {C : Codec σ τ F} {L : Link σ σ E E} {M : Link τ σ (E ⊕ F) E}
    (hC : C.Faithful L M) {Q : α → β → Prop} {p : Program σ E α} {p' : Program σ E β}
    (h : p.Related L Q p') : (p.encoded C).Related M Q p' := by
  induction p generalizing p' with
  | pure a =>
    cases p' with
    | pure b => exact h
    | throw e => exact h.elim
    | call c' next' => exact h.elim
  | throw e =>
    cases p' with
    | pure b => exact h.elim
    | throw e' => exact hC.raise e e' h
    | call c' next' => exact h.elim
  | call c next ih =>
    cases p' with
    | pure b => exact h.elim
    | throw e => exact h.elim
    | call c' next' =>
      -- neither branch of a failure is taken
      obtain ⟨encoding, hencoding, hcommand, hdecode⟩ := hC.answer c c' h.1
      simp only [Program.encoded, hencoding]
      refine ⟨hcommand, fun reply r' hreply => ?_⟩
      obtain ⟨r, hr, hrelated⟩ := hdecode reply r' hreply
      simp only [hr]
      exact ih r (h.2 r r' hrelated)

end Interaction
