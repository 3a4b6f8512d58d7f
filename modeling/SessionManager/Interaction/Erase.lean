import SessionManager.Interaction.Pool

/-!
# Threads that only looked

A thread all of whose commands have left the machine as it was might as well not have moved.

* `Pool.without` — a pool some of whose threads are back at the start.
* `Pool.Run.erase` — the run without the steps of threads that only looked.
-/

namespace Interaction

variable {σ : Signature} {E α S ι : Type}

namespace Pool

variable [DecidableEq ι] {m : Machine σ S} {env : S → S → Prop}

/-- The pool in which the threads of `R` are at the start of the programs `progs`. -/
def without (p : Pool σ E α S ι) (R : ι → Prop) [DecidablePred R] (progs : ι → Program σ E α) :
    Pool σ E α S ι :=
  { p with threads := fun i => if R i then { prog := progs i } else p.threads i }

section Without

variable (p : Pool σ E α S ι) {R : ι → Prop} [DecidablePred R] (progs : ι → Program σ E α)

omit [DecidableEq ι] in
@[simp] theorem without_state : (p.without R progs).state = p.state := rfl

omit [DecidableEq ι] in
theorem without_of_not {i : ι} (h : ¬ R i) : (p.without R progs).threads i = p.threads i :=
  if_neg h

/-- What a thread that is back at the start does is not seen, when it leaves the machine as it
was. -/
theorem without_answered {i : ι} (h : R i) {c : σ.Command} (hc : (m c p.state).2 = p.state)
    (next : σ.Reply c → Program σ E α) :
    (p.answered m i c next).without R progs = p.without R progs := by
  unfold without
  congr 1
  · funext j
    by_cases hj : j = i
    · subst hj
      rw [if_pos h, if_pos h]
    · rw [answered_other p hj]

/-- The steps of the other threads are the same. -/
theorem without_answered_of_not {i : ι} (h : ¬ R i) (c : σ.Command)
    (next : σ.Reply c → Program σ E α) :
    (p.answered m i c next).without R progs = (p.without R progs).answered m i c next := by
  unfold without answered
  congr 1
  funext j
  by_cases hj : j = i
  · subst hj
    simp [h]
  · simp [hj]

/-- It is not seen that a thread which is back at the start stops. -/
theorem without_halted {i : ι} (h : R i) : (p.halted i).without R progs = p.without R progs := by
  unfold without
  congr 1
  funext j
  by_cases hj : j = i
  · subst hj
    rw [if_pos h, if_pos h]
  · rw [halted_other p hj]

theorem without_halted_of_not {i : ι} (h : ¬ R i) :
    (p.halted i).without R progs = (p.without R progs).halted i := by
  unfold without halted
  congr 1
  funext j
  by_cases hj : j = i
  · subst hj
    simp [h]
  · simp [hj]

end Without

/-- Threads that have only looked may as well be at the start, of any programs. -/
theorem Run.erase {R : ι → Prop} [DecidablePred R] {progs progs' : ι → Program σ E α} {s : S}
    {p : Pool σ E α S ι} (hrun : Run m env (fun _ _ => True) (start progs s) p)
    (hlooks : ∀ i, R i → ∀ event ∈ (p.threads i).log, ∀ s, (m event.1 s).2 = s)
    (hprogs : ∀ i, ¬ R i → progs' i = progs i) :
    Run m env (fun _ _ => True) (start progs' s) (p.without R progs') := by
  induction hrun with
  | refl =>
    have hsame : (start progs s).without R progs' = start progs' s := by
      unfold without start
      congr 1
      funext i
      by_cases hi : R i
      · rw [if_pos hi]
      · rw [if_neg hi, hprogs i hi]
    rw [hsame]
    exact .refl
  | @step q _ l _ _ hstep ih =>
    cases hstep with
    | @call i c next hprog hrunning =>
      -- the log only grows, so what was issued before were looks as well
      have hbefore (j : ι) (hj : R j) (event : Event σ) (hmem : event ∈ (q.threads j).log) (s : S) :
          (m event.1 s).2 = s := by
        refine hlooks j hj event ?_ s
        by_cases hji : j = i
        · subst hji
          rw [answered_same]
          exact List.mem_append_left _ hmem
        · rwa [answered_other q hji]
      by_cases hi : R i
      · have hlook : (m c q.state).2 = q.state := by
          refine hlooks i hi ⟨c, (m c q.state).1⟩ ?_ q.state
          rw [answered_same]
          exact List.mem_append_right _ (List.mem_singleton.mpr rfl)
        rw [without_answered q progs' hi hlook]
        exact ih hbefore
      · rw [without_answered_of_not q progs' hi]
        refine .step (ih hbefore) trivial (.call ?_ ?_)
        · rw [without_of_not q progs' hi]
          exact hprog
        · rw [without_of_not q progs' hi]
          exact hrunning
    | env henv => exact .step (ih hlooks) trivial (.env henv)
    | @stop i =>
      have hbefore (j : ι) (hj : R j) (event : Event σ) (hmem : event ∈ (q.threads j).log) (s : S) :
          (m event.1 s).2 = s := by
        refine hlooks j hj event ?_ s
        rwa [halted_log]
      by_cases hi : R i
      · rw [without_halted q progs' hi]
        exact ih hbefore
      · rw [without_halted_of_not q progs' hi]
        exact .step (ih hbefore) trivial .stop

end Pool

end Interaction
