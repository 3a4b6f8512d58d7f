import SessionManager.Interaction.Erase

/-!
# Threads that do not see each other

The threads of a pool are of two sides. What the one side does is not seen by the other: it leaves
alone all that the other side's commands depend on. Then the other side runs as if it were alone.

* `View` — what one side sees: the states it cannot tell apart.
* `Pool.alone` — a pool in which the threads of one side only have moved.
* `Pool.Run.alone` — the run of one side without the other.
-/

namespace Interaction

variable {σ : Signature} {E α S ι : Type}

/-- What one side sees of the states of a machine. The commands in `Own` are answered alike in two
states that it cannot tell apart, and the commands in `Other` make no difference to it. -/
structure View (m : Machine σ S) (env : S → S → Prop) (Own Other : σ.Command → Prop) where
  /-- The second state looks to it like the first. -/
  Alike : S → S → Prop
  refl : ∀ s, Alike s s
  reply : ∀ c s s', Own c → Alike s s' → (m c s').1 = (m c s).1
  own : ∀ c s s', Own c → Alike s s' → Alike (m c s).2 (m c s').2
  other : ∀ c s s', Other c → Alike s s' → Alike (m c s).2 s'
  env : ∀ s s₁ s', env s s₁ → Alike s s' → ∃ s₁', env s' s₁' ∧ Alike s₁ s₁'

namespace Pool

variable [DecidableEq ι] {m : Machine σ S} {env : S → S → Prop}

/-- The pool in state `s` in which the threads of `Mine` are as they are, and the others at the
start of their programs. -/
def alone (p : Pool σ E α S ι) (Mine : ι → Prop) [DecidablePred Mine] (progs : ι → Program σ E α)
    (s : S) : Pool σ E α S ι :=
  { threads := fun i => if Mine i then p.threads i else { prog := progs i }, state := s }

section Alone

variable {p : Pool σ E α S ι} {Mine : ι → Prop} [DecidablePred Mine] {progs : ι → Program σ E α}
  {s : S} {i : ι}

omit [DecidableEq ι] in
theorem alone_of (h : Mine i) : (p.alone Mine progs s).threads i = p.threads i := if_pos h

/-- A thread of the other side that is answered is at the start all the same. -/
theorem alone_answered_of_not (h : ¬ Mine i) (c : σ.Command) (next : σ.Reply c → Program σ E α) :
    (p.answered m i c next).alone Mine progs s = p.alone Mine progs s := by
  unfold alone
  congr 1
  funext j
  by_cases hj : j = i
  · subst hj
    rw [if_neg h, if_neg h]
  · rw [answered_other p hj]

/-- A thread of this side gets the same answer on its own. -/
theorem alone_answered (h : Mine i) (c : σ.Command) (next : σ.Reply c → Program σ E α)
    (hreply : (m c s).1 = (m c p.state).1) :
    (p.answered m i c next).alone Mine progs (m c s).2 =
      (p.alone Mine progs s).answered m i c next := by
  unfold alone answered
  congr 1
  funext j
  by_cases hj : j = i
  · subst hj
    simp [h, hreply]
  · simp [hj]

theorem alone_halted_of_not (h : ¬ Mine i) :
    (p.halted i).alone Mine progs s = p.alone Mine progs s := by
  unfold alone
  congr 1
  funext j
  by_cases hj : j = i
  · subst hj
    rw [if_neg h, if_neg h]
  · rw [halted_other p hj]

theorem alone_halted (h : Mine i) :
    (p.halted i).alone Mine progs s = (p.alone Mine progs s).halted i := by
  unfold alone halted
  congr 1
  funext j
  by_cases hj : j = i
  · subst hj
    simp [h]
  · simp [hj]

end Alone

/-- When the threads of one side issue commands of their own only, and the others such as make no
difference to them, the one side does the same on its own. -/
theorem Run.alone {Own Other : σ.Command → Prop} (V : View m env Own Other) {Mine : ι → Prop}
    [DecidablePred Mine] {progs : ι → Program σ E α} {s : S} {p : Pool σ E α S ι}
    (hrun : Run m env (fun _ _ => True) (start progs s) p)
    (hcommands : ∀ q i c next, Run m env (fun _ _ => True) (start progs s) q →
      (q.threads i).prog = .call c next → if Mine i then Own c else Other c) :
    ∃ s', Run m env (fun _ _ => True) (start progs s) (p.alone Mine progs s') ∧
      V.Alike p.state s' := by
  induction hrun with
  | refl =>
    refine ⟨s, ?_, V.refl s⟩
    have hsame : (start progs s).alone Mine progs s = start progs s := by
      unfold Pool.alone start
      simp
    rw [hsame]
    exact .refl
  | @step q _ l hbefore _ hstep ih =>
    obtain ⟨s', hrun', halike⟩ := ih
    cases hstep with
    | @call i c next hprog hrunning =>
      have hcommand := hcommands q i c next hbefore hprog
      by_cases hi : Mine i
      · rw [if_pos hi] at hcommand
        refine ⟨(m c s').2, ?_, V.own c _ _ hcommand halike⟩
        rw [alone_answered hi c next (V.reply c _ _ hcommand halike)]
        refine .step hrun' trivial (.call ?_ ?_)
        · rw [alone_of hi]
          exact hprog
        · rw [alone_of hi]
          exact hrunning
      · rw [if_neg hi] at hcommand
        refine ⟨s', ?_, V.other c _ _ hcommand halike⟩
        rwa [alone_answered_of_not hi]
    | env henv =>
      obtain ⟨s₁', henv', halike'⟩ := V.env _ _ _ henv halike
      exact ⟨s₁', .step hrun' trivial (.env henv'), halike'⟩
    | @stop i =>
      refine ⟨s', ?_, halike⟩
      by_cases hi : Mine i
      · rw [alone_halted hi]
        exact .step hrun' trivial .stop
      · rwa [alone_halted_of_not hi]

end Pool

end Interaction
