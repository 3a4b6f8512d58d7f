import SessionManager.Interaction.Pool
import SessionManager.Interaction.Wp

/-!
# One thread of a pool

A thread reasons about its own program, with the other threads as a part of its environment; and
a thread that has the machine for itself does what its program does on its own.

* `Pool.Run.rely` — what a program promises when the state may move along a relation, a thread
  that runs it keeps among threads whose commands stay inside that relation.
* `Pool.run_alone` — a thread runs to its end while the others wait.
-/

namespace Interaction

namespace Pool

open Program hiding pure

variable {σ : Signature} {E α S ι : Type} [DecidableEq ι] {m : Machine σ S} {env : S → S → Prop}

section Rely

variable {R : S → S → Prop} {C : σ.Command → Prop} {Q : Except E α → S → Prop}

/-- What thread `i` still promises, from a state that the present one was reached from along `R`,
while the other threads issue commands in `C` only. -/
structure Relies (R : S → S → Prop) (C : σ.Command → Prop) (m : Machine σ S) (i : ι)
    (Q : Except E α → S → Prop) (p : Pool σ E α S ι) : Prop where
  others : ∀ j, j ≠ i → (p.threads j).prog.Only C
  promise : ∃ s, R s p.state ∧ Wp m R (p.threads i).prog Q s

omit [DecidableEq ι] in
/-- The state may move along `R`. -/
theorem Relies.move {p : Pool σ E α S ι} {i : ι} (h : p.Relies R C m i Q)
    (htrans : ∀ s₁ s₂ s₃, R s₁ s₂ → R s₂ s₃ → R s₁ s₃) {s : S} (hs : R p.state s) :
    Relies R C m i Q { p with state := s } where
  others := h.others
  promise := by
    obtain ⟨s₀, hfrom, hwp⟩ := h.promise
    exact ⟨s₀, htrans _ _ _ hfrom hs, hwp⟩

/-- Every step keeps what thread `i` still promises. -/
theorem Relies.step {p q : Pool σ E α S ι} {i : ι} {l : Label σ ι} (h : p.Relies R C m i Q)
    (hrefl : ∀ s, R s s) (htrans : ∀ s₁ s₂ s₃, R s₁ s₂ → R s₂ s₃ → R s₁ s₃)
    (henv : ∀ s s', env s s' → R s s') (hC : ∀ c s, C c → R s (m c s).2)
    (hstep : Step m env p l q) : q.Relies R C m i Q := by
  obtain ⟨s₀, hfrom, hwp⟩ := h.promise
  cases hstep with
  | @call j c next hprog _ =>
    by_cases hj : j = i
    · -- the thread's own command: the state moved along `R` until now
      subst hj
      refine ⟨fun k hk => by simpa [hk] using h.others k hk, (m c p.state).2, hrefl _, ?_⟩
      rw [hprog] at hwp
      simpa using wp_call.mp hwp p.state hfrom
    · -- a command of another thread stays inside `R`
      have hother := h.others j hj
      rw [hprog] at hother
      refine ⟨fun k hk => ?_, s₀, htrans _ _ _ hfrom (hC c p.state hother.1), ?_⟩
      · by_cases hkj : k = j
        · subst hkj
          simpa using hother.2 _
        · simpa [hkj] using h.others k hk
      · simpa [Ne.symm hj] using hwp
  | env hs => exact h.move htrans (henv _ _ hs)
  | stop =>
    refine ⟨fun k hk => ?_, s₀, hfrom, ?_⟩
    · rw [halted_prog]
      exact h.others k hk
    · rw [halted_prog]
      exact hwp

/-- A thread that has returned has kept its promise at a state from which the present one was
reached along `R`, when the other threads and the environment stay inside `R`. -/
theorem Run.rely {guard : Pool σ E α S ι → Label σ ι → Prop} {progs : ι → Program σ E α} {s : S}
    {i : ι} (hrefl : ∀ s, R s s) (htrans : ∀ s₁ s₂ s₃, R s₁ s₂ → R s₂ s₃ → R s₁ s₃)
    (henv : ∀ s s', env s s' → R s s') (hC : ∀ c s, C c → R s (m c s).2)
    (hothers : ∀ j, j ≠ i → (progs j).Only C) (hpromise : Wp m R (progs i) Q s)
    {q : Pool σ E α S ι} (hrun : Run m env guard (start progs s) q) {a : α}
    (hret : (q.threads i).Returned a) : ∃ s₀, R s₀ q.state ∧ Q (.ok a) s₀ := by
  have hrelies : q.Relies R C m i Q := by
    refine hrun.invariant (Relies R C m i Q) (fun p l q h _ hstep => ?_)
      ⟨hothers, s, hrefl s, hpromise⟩
    exact h.step hrefl htrans henv hC hstep
  obtain ⟨s₀, hfrom, hwp⟩ := hrelies.promise
  rw [show (q.threads i).prog = .pure a from hret] at hwp
  exact ⟨s₀, hfrom, hwp⟩

end Rely

/-- A thread that has the machine for itself runs to the end of its program. -/
theorem run_alone (env : S → S → Prop) {p : Pool σ E α S ι} {i : ι}
    (hgoes : (p.threads i).stopped = false) :
    ∃ q, Run m env (fun _ _ => True) p q ∧
      (q.threads i).prog = ofExcept ((p.threads i).prog.run m p.state).1 ∧
      q.state = ((p.threads i).prog.run m p.state).2 ∧ ∀ j, j ≠ i → q.threads j = p.threads j := by
  generalize hprog : (p.threads i).prog = prog
  induction prog generalizing p with
  | pure a => exact ⟨p, .refl, hprog, rfl, fun _ _ => rfl⟩
  | throw e => exact ⟨p, .refl, hprog, rfl, fun _ _ => rfl⟩
  | call c next ih =>
    obtain ⟨q, hrun, hend, hstate, hothers⟩ :=
      ih (m c p.state).1 (p := p.answered m i c next) (by simpa using hgoes) (by simp)
    refine ⟨q, ?_, hend, hstate, fun j hj => ?_⟩
    · exact (Run.step .refl trivial (.call hprog hgoes)).trans hrun
    · rw [hothers j hj, answered_other p hj]

end Pool

end Interaction
