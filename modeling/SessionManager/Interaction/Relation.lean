import SessionManager.Interaction.Pool

/-!
# Programs that behave alike

Two programs, each over a signature of its own, are related when they issue related commands for as
long as their replies are related, and come to related ends. Run against two machines that answer
related commands with related replies, they stay related. So a run over the one machine is, thread
by thread, a run over the other.

* `Link` — how the commands of two signatures are related, their replies and their exceptions.
* `Program.Related` — the relation between programs, with one rule for each way to build them.
* `Simulates` — the machines that go together.
* `Pool.Run.simulate` — any number of threads, interleaved in any order.
-/

namespace Interaction

variable {σ τ : Signature} {E F α β S S' ι : Type}

/-- How the commands of two programs are related, the replies to related commands, and the
exceptions. -/
structure Link (σ τ : Signature) (E F : Type) where
  /-- The commands that go together. -/
  Command : σ.Command → τ.Command → Prop
  /-- The replies that go together. -/
  Reply : (c : σ.Command) → (c' : τ.Command) → σ.Reply c → τ.Reply c' → Prop
  /-- The exceptions that go together. -/
  Exception : E → F → Prop

namespace Program

variable (L : Link σ τ E F)

/-- As long as the replies are related, the programs issue related commands; they come to related
ends, returned values up to `Q`. -/
def Related (Q : α → β → Prop) : Program σ E α → Program τ F β → Prop
  | .pure a, .pure b => Q a b
  | .throw e, .throw e' => L.Exception e e'
  | .call c next, .call c' next' =>
    L.Command c c' ∧ ∀ r r', L.Reply c c' r r' → Related Q (next r) (next' r')
  | _, _ => False

variable {L} {α' β' : Type} {Q : α → β → Prop}

/-- Sequences are related when their parts are. -/
theorem Related.bind {Q' : α' → β' → Prop} {p : Program σ E α} {p' : Program τ F β}
    {f : α → Program σ E α'} {f' : β → Program τ F β'} (h : p.Related L Q p')
    (hf : ∀ a b, Q a b → (f a).Related L Q' (f' b)) : (p >>= f).Related L Q' (p' >>= f') := by
  induction p generalizing p' with
  | pure a =>
    cases p' with
    | pure b => exact hf a b h
    | throw e => exact h.elim
    | call c next => exact h.elim
  | throw e =>
    cases p' with
    | pure b => exact h.elim
    | throw e' => exact h
    | call c next => exact h.elim
  | call c next ih =>
    cases p' with
    | pure b => exact h.elim
    | throw e => exact h.elim
    | call c' next' => exact ⟨h.1, fun r r' hr => ih r (h.2 r r' hr)⟩

/-- A command on each side. -/
theorem Related.perform {c : σ.Command} {c' : τ.Command} (hc : L.Command c c') :
    (Program.perform c : Program σ E (σ.Reply c)).Related L (L.Reply c c')
      (Program.perform c' : Program τ F (τ.Reply c')) :=
  ⟨hc, fun _ _ hr => hr⟩

/-- What needs no command and has one outcome on both sides. -/
theorem related_ofExcept {L : Link σ τ E E} (hL : ∀ e, L.Exception e e) {x : Except E α}
    {Q : α → α → Prop} (h : ∀ a, x = .ok a → Q a a) :
    (ofExcept x : Program σ E α).Related L Q (ofExcept x : Program τ E α) := by
  cases x with
  | ok a => exact h a rfl
  | error e => exact hL e

end Program

/-- Related commands are answered with related replies by machines in related states, and stay so
however the environment moves. The first machine is in a state that is `Safe`. -/
structure Simulates (L : Link σ τ E F) (m : Machine σ S) (env : S → S → Prop) (m' : Machine τ S')
    (env' : S' → S' → Prop) (Safe : S → Prop) (R : S → S' → Prop) : Prop where
  /-- A command on each side. -/
  answer : ∀ s s' c c', Safe s → R s s' → L.Command c c' →
    R (m c s).2 (m' c' s').2 ∧ L.Reply c c' (m c s).1 (m' c' s').1
  /-- A move of the environment is followed by one. -/
  move : ∀ s t s', R s s' → env s t → ∃ t', env' s' t' ∧ R t t'

namespace Pool

variable {m : Machine σ S} {env : S → S → Prop} {m' : Machine τ S'}
  {env' : S' → S' → Prop} {L : Link σ τ E F} {Q : ι → α → β → Prop} {Safe : S → Prop}
  {R : S → S' → Prop}

/-- The states are related, and so are the threads, the values they return up to `Q`. -/
def Alike (L : Link σ τ E F) (Q : ι → α → β → Prop) (R : S → S' → Prop) (p : Pool σ E α S ι)
    (p' : Pool τ F β S' ι) : Prop :=
  R p.state p'.state ∧ ∀ i, (p.threads i).prog.Related L (Q i) (p'.threads i).prog ∧
    (p.threads i).stopped = (p'.threads i).stopped

/-- A thread that has returned has one beside it that has returned what goes with it. -/
theorem Alike.returned {p : Pool σ E α S ι} {p' : Pool τ F β S' ι} (h : p.Alike L Q R p') {i : ι}
    {a : α} (hret : (p.threads i).prog = .pure a) :
    ∃ b, (p'.threads i).prog = .pure b ∧ Q i a b := by
  have hrelated := (h.2 i).1
  rw [hret] at hrelated
  cases hprog' : (p'.threads i).prog with
  | pure b =>
    rw [hprog'] at hrelated
    exact ⟨b, rfl, hrelated⟩
  | throw e =>
    rw [hprog'] at hrelated
    exact hrelated.elim
  | call c next =>
    rw [hprog'] at hrelated
    exact hrelated.elim

/-- A thread that has raised has one beside it that has raised what goes with it. -/
theorem Alike.raised {p : Pool σ E α S ι} {p' : Pool τ F β S' ι} (h : p.Alike L Q R p') {i : ι}
    {e : E} (hraised : (p.threads i).prog = .throw e) :
    ∃ e', (p'.threads i).prog = .throw e' ∧ L.Exception e e' := by
  have hrelated := (h.2 i).1
  rw [hraised] at hrelated
  cases hprog' : (p'.threads i).prog with
  | pure b =>
    rw [hprog'] at hrelated
    exact hrelated.elim
  | throw e' =>
    rw [hprog'] at hrelated
    exact ⟨e', rfl, hrelated⟩
  | call c next =>
    rw [hprog'] at hrelated
    exact hrelated.elim

variable [DecidableEq ι]

/-- A step of the first pool is followed by one of the second. -/
theorem Alike.step (hsim : Simulates L m env m' env' Safe R) {p q : Pool σ E α S ι}
    {p' : Pool τ F β S' ι} {l : Label σ ι} (h : p.Alike L Q R p') (hsafe : Safe p.state)
    (hstep : Step m env p l q) : ∃ l' q', Step m' env' p' l' q' ∧ q.Alike L Q R q' := by
  cases hstep with
  | @call i c next hprog hstopped =>
    obtain ⟨hrelated, hsame⟩ := h.2 i
    rw [hprog] at hrelated
    -- the other thread is at a command too
    cases hprog' : (p'.threads i).prog with
    | pure b =>
      rw [hprog'] at hrelated
      exact hrelated.elim
    | throw e =>
      rw [hprog'] at hrelated
      exact hrelated.elim
    | call c' next' =>
      rw [hprog'] at hrelated
      obtain ⟨hstate, hreply⟩ := hsim.answer _ _ c c' hsafe h.1 hrelated.1
      refine ⟨_, _, .call hprog' (hsame ▸ hstopped), hstate, fun j => ?_⟩
      by_cases hj : j = i
      · subst hj
        rw [answered_same, answered_same]
        exact ⟨hrelated.2 _ _ hreply, hsame⟩
      · rw [answered_other _ hj, answered_other _ hj]
        exact h.2 j
  | env henv =>
    obtain ⟨t', henv', hstate⟩ := hsim.move _ _ _ h.1 henv
    exact ⟨_, _, .env henv', hstate, h.2⟩
  | @stop i =>
    refine ⟨.stop i, p'.halted i, .stop, h.1, fun j => ?_⟩
    rw [halted_prog, halted_prog]
    refine ⟨(h.2 j).1, ?_⟩
    by_cases hj : j = i
    · subst hj
      simp [halted]
    · rw [halted_other _ hj, halted_other _ hj]
      exact (h.2 j).2

/-- A run over the one machine, through safe states, is followed by a run over the other. -/
theorem Run.simulate (hsim : Simulates L m env m' env' Safe R) {p q : Pool σ E α S ι}
    {p' : Pool τ F β S' ι} (h : p.Alike L Q R p')
    (hrun : Run m env (fun p _ => Safe p.state) p q) :
    ∃ q', Run m' env' (fun _ _ => True) p' q' ∧ q.Alike L Q R q' := by
  induction hrun with
  | refl => exact ⟨p', .refl, h⟩
  | step _ hsafe hstep ih =>
    obtain ⟨q', hrun', halike⟩ := ih
    obtain ⟨l', r', hstep', halike'⟩ := halike.step hsim hsafe hstep
    exact ⟨r', .step hrun' trivial hstep', halike'⟩

end Pool

end Interaction
