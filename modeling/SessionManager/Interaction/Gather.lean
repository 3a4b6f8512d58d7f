import SessionManager.Interaction.Answers

/-!
# Two programs side by side

Two programs whose commands are interleaved in a given order. The pair of what they return is the
result, the first exception ends both.

* `Program.gather` — the two programs as one.
* `ends_gather_ok` — against a server that only answers the order does not matter for what is
  returned.
-/

namespace Interaction

namespace Program

variable {σ : Signature} {E α β : Type}

/-- Run `p` and `q` side by side. Each element of `order` lets one of them proceed, `p` for `true`
and `q` for `false`; when `order` is used up, `p` runs to its end and `q` after it. -/
def gather : List Bool → Program σ E α → Program σ E β → Program σ E (α × β)
  | [], p, q => p >>= fun a => q >>= fun b => .pure (a, b)
  | true :: order, .pure a, q => gather order (.pure a) q
  | true :: _, .throw e, _ => .throw e
  | true :: order, .call c next, q => .call c fun r => gather order (next r) q
  | false :: order, p, .pure b => gather order p (.pure b)
  | false :: _, _, .throw e => .throw e
  | false :: order, p, .call c next => .call c fun r => gather order p (next r)

variable {A : (c : σ.Command) → σ.Reply c → Prop}

/-- The two return what they return on their own. -/
theorem ends_gather_ok {order : List Bool} {p : Program σ E α} {q : Program σ E β} {a : α} {b : β} :
    (gather order p q).Ends A (.ok (a, b)) ↔ p.Ends A (.ok a) ∧ q.Ends A (.ok b) := by
  induction order generalizing p q with
  | nil =>
    rw [gather, ends_bind_ok]
    constructor
    · rintro ⟨a', hp, h⟩
      obtain ⟨b', hq, heq⟩ := ends_bind_ok.mp h
      obtain ⟨rfl, rfl⟩ := Prod.mk.inj (Except.ok.inj heq)
      exact ⟨hp, hq⟩
    · rintro ⟨hp, hq⟩
      exact ⟨a, hp, ends_bind_ok.mpr ⟨b, hq, rfl⟩⟩
  | cons turn order ih =>
    cases turn with
    | true =>
      -- the first program moves
      cases p with
      | pure a' => exact ih
      | throw e => exact ⟨nofun, fun h => nomatch h.1⟩
      | call c next =>
        rw [gather, ends_call, ends_call]
        constructor
        · rintro ⟨r, hr, h⟩
          exact ⟨⟨r, hr, (ih.mp h).1⟩, (ih.mp h).2⟩
        · rintro ⟨⟨r, hr, hp⟩, hq⟩
          exact ⟨r, hr, ih.mpr ⟨hp, hq⟩⟩
    | false =>
      cases q with
      | pure b' => exact ih
      | throw e => exact ⟨nofun, fun h => nomatch h.2⟩
      | call c next =>
        rw [gather, ends_call, ends_call]
        constructor
        · rintro ⟨r, hr, h⟩
          exact ⟨(ih.mp h).1, r, hr, (ih.mp h).2⟩
        · rintro ⟨hp, r, hr, hq⟩
          exact ⟨r, hr, ih.mpr ⟨hp, hq⟩⟩

end Program

end Interaction
