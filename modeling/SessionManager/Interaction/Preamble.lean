import SessionManager.Interaction.Erase

/-!
# Programs that look before they begin

A server around a service: each of its programs issues commands that change nothing, and then it
gives an answer of its own, or goes on as a program of the service and makes an answer of the
outcome. What a pool of such programs does to the machine, a pool of the service's programs does.

* `Program.finish` — a program whose outcome is made into a value.
* `Leads`, `Looking` — the programs that may look, and those that have not begun yet.
* `Pool.Run.replace` — a thread that has not moved may as well have had another program.
* `Covers`, `Pool.Run.absorb` — the two pools side by side.
-/

namespace Interaction

variable {σ : Signature} {E E' α β γ S ι : Type}

namespace Program

/-- Run `p` and return what `f` makes of its outcome. -/
def finish (f : Except E β → α) : Program σ E β → Program σ E' α
  | .pure b => .pure (f (.ok b))
  | .throw e => .pure (f (.error e))
  | .call c next => .call c fun r => finish f (next r)

/-- A sequence with a handler that makes values of exceptions. -/
theorem catchWith_eq_finish (f : Except E β → α) (p : Program σ E β) :
    (p >>= fun b => .pure (f (.ok b))).catchWith (fun e => .pure (f (.error e))) =
      (p.finish f : Program σ E α) := by
  induction p with
  | pure b => rfl
  | throw e => rfl
  | call c next ih => exact congrArg (Program.call c) (funext ih)

/-- A handler that makes other exceptions of exceptions may as well be applied to the outcome. -/
theorem finish_mapError (f : Except E γ → α) (h : E → E) (g : β → γ) (p : Program σ E β) :
    (p.catchWith (fun e => .throw (h e)) >>= fun b => .pure (g b)).finish f =
      ((p >>= fun b => .pure (g b)).finish fun x => f (x.mapError h) : Program σ E' α) := by
  induction p with
  | pure b => rfl
  | throw e => rfl
  | call c next ih => exact congrArg (Program.call c) (funext ih)

/-- A program that begins with a command, finished. -/
theorem finish_eq_call {f : Except E β → α} {p : Program σ E β} {c : σ.Command}
    {next : σ.Reply c → Program σ E' α} (h : p.finish f = .call c next) :
    ∃ next', p = .call c next' ∧ next = fun r => (next' r).finish f := by
  cases p with
  | pure b => cases h
  | throw e => cases h
  | call c' next' =>
    cases h
    exact ⟨next', rfl, rfl⟩

end Program

open Program

section Leads

variable (m : Machine σ S) (B : Program σ E β → (Except E β → α) → Prop) (A : α → Prop)

/-- The program may look, and then it answers at once, with an answer among `A`, or goes on as a
program of the service, finished as `B` says. -/
inductive Leads : Program σ E' α → Prop
  | answer {a : α} : A a → Leads (.pure a)
  | look {c : σ.Command} {next : σ.Reply c → Program σ E' α} : (∀ s, (m c s).2 = s) →
      (∀ r, Leads (next r)) → Leads (.call c next)
  | begin {p : Program σ E β} {f : Except E β → α} {q : Program σ E' α} : B p f → q = p.finish f →
      Leads q

/-- The program is about to look or answers at once. -/
def Looking (q : Program σ E' α) : Prop :=
  (∃ a, q = .pure a ∧ A a) ∨ ∃ c next, q = .call c next ∧ (∀ s, (m c s).2 = s) ∧
    ∀ r, Leads m B A (next r)

variable {m B A}

/-- A program that may look is looking or begins. -/
theorem Leads.cases_or {q : Program σ E' α} (h : Leads m B A q) :
    Looking m B A q ∨ ∃ p f, B p f ∧ q = p.finish f := by
  cases h with
  | answer ha => exact .inl (.inl ⟨_, rfl, ha⟩)
  | look hc hnext => exact .inl (.inr ⟨_, _, rfl, hc, hnext⟩)
  | begin hp hq => exact .inr ⟨_, _, hp, hq⟩

/-- A program that looks first. -/
theorem Leads.bind {f : Except E γ → α} {p : Program σ E β} {g : β → Program σ E γ}
    {B : Program σ E γ → (Except E γ → α) → Prop} (hp : p.Only fun c => ∀ s, (m c s).2 = s)
    (hraise : p.Raises fun e => A (f (.error e)))
    (hg : ∀ b, Leads m B A ((g b).finish f : Program σ E' α)) :
    Leads m B A ((p >>= g).finish f : Program σ E' α) := by
  induction p with
  | pure b => exact hg b
  | throw e => exact .answer hraise
  | call c next ih => exact .look hp.1 fun r => ih r (hp.2 r) (hraise r)

end Leads

/-! ### Threads that have not moved -/

namespace Thread

/-- The thread has issued no command and has not stopped. -/
def Fresh (t : Thread σ E α) : Prop := t.log = [] ∧ t.stopped = false

end Thread

namespace Pool

variable [DecidableEq ι] {m : Machine σ S} {env : S → S → Prop}

/-- The pool with another thread. -/
def setThread (p : Pool σ E α S ι) (i : ι) (t : Thread σ E α) : Pool σ E α S ι :=
  { p with threads := Function.update p.threads i t }

@[simp] theorem setThread_same (p : Pool σ E α S ι) (i : ι) (t : Thread σ E α) :
    (p.setThread i t).threads i = t := by
  simp [setThread]

@[simp] theorem setThread_other (p : Pool σ E α S ι) {i j : ι} (h : j ≠ i) (t : Thread σ E α) :
    (p.setThread i t).threads j = p.threads j := by
  simp [setThread, h]

@[simp] theorem setThread_state (p : Pool σ E α S ι) (i : ι) (t : Thread σ E α) :
    (p.setThread i t).state = p.state := rfl

/-- A thread that has not moved at the end of a run may as well have had another program. -/
theorem Run.replace {progs : ι → Program σ E α} {s : S} {p : Pool σ E α S ι} {i : ι}
    (hrun : Run m env (fun _ _ => True) (start progs s) p) (hfresh : (p.threads i).Fresh)
    (q : Program σ E α) : Run m env (fun _ _ => True) (start (Function.update progs i q) s)
      (p.setThread i { prog := q }) := by
  have hsame : p.without (· = i) (Function.update progs i q) = p.setThread i { prog := q } := by
    unfold without setThread
    congr 1
    funext j
    by_cases hj : j = i
    · subst hj
      simp
    · simp [hj]
  rw [← hsame]
  refine hrun.erase ?_ fun j hj => Function.update_of_ne hj _ _
  rintro j rfl event hmem
  rw [hfresh.1] at hmem
  cases hmem

end Pool

/-! ### The two pools -/

section Covers

variable (m : Machine σ S) (B : Program σ E β → (Except E β → α) → Prop) (A : α → Prop)
  (idle body : Program σ E β)

/-- A thread of the server, and the thread of the service that stands for it and began as `body`:
the first has not begun and the second is idle, or they go on together. -/
inductive Covers : Thread σ E' α → Thread σ E β → Prop
  | before {t : Thread σ E' α} {t' : Thread σ E β} : Looking m B A t.prog → t'.Fresh →
      body = idle → Covers t t'
  | inside {t : Thread σ E' α} {t' : Thread σ E β} {f : Except E β → α} : B body f →
      t.prog = t'.prog.finish f → t.stopped = t'.stopped → Covers t t'

end Covers

namespace Pool

variable [DecidableEq ι] {m : Machine σ S} {env : S → S → Prop}
  {B : ι → Program σ E β → (Except E β → α) → Prop} {A : ι → α → Prop} {idle : Program σ E β}

/-- A pool of the service that stands for a pool of the server. Its threads are idle until those of
the server begin. -/
def Stands (m : Machine σ S) (env : S → S → Prop)
    (B : ι → Program σ E β → (Except E β → α) → Prop) (A : ι → α → Prop) (idle : Program σ E β)
    (s : S) (p : Pool σ E' α S ι) : Prop :=
  ∃ (bodies : ι → Program σ E β) (p' : Pool σ E β S ι),
    Run m env (fun _ _ => True) (start bodies s) p' ∧ p'.state = p.state ∧
    ∀ i, Covers m (B i) (A i) idle (bodies i) (p.threads i) (p'.threads i)

/-- A thread that may look is looking, or it begins as the service would. -/
theorem Stands.enter {s : S} {p : Pool σ E' α S ι} {i : ι} {bodies : ι → Program σ E β}
    {p' : Pool σ E β S ι} (hrun : Run m env (fun _ _ => True) (start bodies s) p')
    (hstate : p'.state = p.state)
    (hothers : ∀ j, j ≠ i →
      Covers m (B j) (A j) idle (bodies j) (p.threads j) (p'.threads j))
    (hfresh : (p'.threads i).Fresh) (hidle : bodies i = idle)
    (hrunning : (p.threads i).stopped = false)
    (hleads : Leads m (B i) (A i) (p.threads i).prog) : Stands m env B A idle s p := by
  rcases hleads.cases_or with hlooking | ⟨q, f, hq, heq⟩
  · refine ⟨bodies, p', hrun, hstate, fun j => ?_⟩
    by_cases hj : j = i
    · subst hj
      exact .before hlooking hfresh hidle
    · exact hothers j hj
  · -- the thread of the service is made to begin with this program
    refine ⟨Function.update bodies i q, p'.setThread i { prog := q }, hrun.replace hfresh q, hstate,
      fun j => ?_⟩
    by_cases hj : j = i
    · subst hj
      rw [setThread_same, Function.update_self]
      exact .inside hq heq hrunning
    · rw [setThread_other p' hj, Function.update_of_ne hj]
      exact hothers j hj

/-- Every step of the server is one of the service, or none. -/
theorem Stands.step {s : S} {p q : Pool σ E' α S ι} {l : Label σ ι}
    (h : Stands m env B A idle s p) (hstep : Step m env p l q) : Stands m env B A idle s q := by
  obtain ⟨bodies, p', hrun, hstate, hcovers⟩ := h
  cases hstep with
  | @call i c next hprog hrunning =>
    cases hcovers i with
    | before hlooking hfresh hidle =>
      rcases hlooking with ⟨a, heq, -⟩ | ⟨c', next', heq, hlook, hnext⟩
      · cases heq.symm.trans hprog
      · -- a look changes nothing, and the service need not move
        obtain ⟨rfl, hnexts⟩ := Program.call.inj (heq.symm.trans hprog)
        obtain rfl := eq_of_heq hnexts
        refine Stands.enter (i := i) hrun ?_ (fun j hj => ?_) hfresh hidle ?_ ?_
        · rw [answered_state, hlook, hstate]
        · rw [answered_other p hj]
          exact hcovers j
        · rw [answered_same]
          exact hrunning
        · rw [answered_same]
          exact hnext _
    | inside hbody heq hstopped =>
      obtain ⟨next', hprog', rfl⟩ := finish_eq_call (heq.symm.trans hprog)
      refine ⟨bodies, p'.answered m i c next',
        .step hrun trivial (.call hprog' (hstopped ▸ hrunning)), ?_, fun j => ?_⟩
      · rw [answered_state, answered_state, hstate]
      · by_cases hj : j = i
        · subst hj
          rw [answered_same, answered_same, hstate]
          exact .inside hbody rfl hstopped
        · rw [answered_other p hj, answered_other p' hj]
          exact hcovers j
  | @env s' henv =>
    exact ⟨bodies, { p' with state := s' }, .step hrun trivial (.env (hstate ▸ henv)), rfl, hcovers⟩
  | @stop i =>
    cases hcovers i with
    | before hlooking hfresh hidle =>
      -- the service's thread never moves then
      refine ⟨bodies, p', hrun, hstate, fun j => ?_⟩
      by_cases hj : j = i
      · subst hj
        refine .before ?_ hfresh hidle
        rw [halted_prog]
        exact hlooking
      · rw [halted_other p hj]
        exact hcovers j
    | inside hbody heq hstopped =>
      refine ⟨bodies, p'.halted i, .step hrun trivial .stop, hstate, fun j => ?_⟩
      by_cases hj : j = i
      · subst hj
        refine .inside hbody ?_ ?_
        · rw [halted_prog, halted_prog]
          exact heq
        · simp [halted]
      · rw [halted_other p hj, halted_other p' hj]
        exact hcovers j

/-- A run of programs that look before they begin is, for the machine, a run of the programs that
they go on as. -/
theorem Run.absorb {progs : ι → Program σ E' α} {s : S}
    (hleads : ∀ i, Leads m (B i) (A i) (progs i)) (idle : Program σ E β) {p : Pool σ E' α S ι}
    (hrun : Run m env (fun _ _ => True) (start progs s) p) : Stands m env B A idle s p := by
  refine hrun.invariant (Stands m env B A idle s) (fun _ _ _ h _ hstep => h.step hstep) ?_
  -- a program that begins at once is the first one of its thread
  have hbody (i : ι) : ∃ q, Covers m (B i) (A i) idle q { prog := progs i } { prog := q } := by
    rcases (hleads i).cases_or with hlooking | ⟨q, f, hq, heq⟩
    · exact ⟨idle, .before hlooking ⟨rfl, rfl⟩ rfl⟩
    · exact ⟨q, .inside hq heq rfl⟩
  choose bodies hcovers using hbody
  exact ⟨bodies, start bodies s, .refl, rfl, hcovers⟩

end Pool

end Interaction
