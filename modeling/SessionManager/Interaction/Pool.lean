import Mathlib.Data.Nat.Notation
import SessionManager.Interaction.Protocol

/-!
# Pools of threads

Any number of programs run on one machine, their commands interleaved in any order.

* `Thread`, `Pool` — a program with the commands it has had answered, and threads by index
  together with the machine's state.
* `Pool.Step`, `Pool.Run` — one command of one thread, a move of the environment, or a thread
  that stops for good; and the finite sequences of such steps that a guard lets pass.
* `Pool.Run.invariant` — the induction rule over runs.
* `Pool.GuardedRun` — the runs under a guard that sees what a step leads to as well.
* `Pool.fire`, `Pool.schedule` — the executable form of runs, for evaluating one of them.
* `Pool.Conforms` — every thread still follows its protocol from the ghost state its events led
  to; `Pool.Conforms.step` keeps it.
* `Pool.Confined` — every thread issues commands of one kind only.
-/

namespace Interaction

variable {σ : Signature} {E α S ι : Type}

/-- A program on its way: what is left of it, the events so far, and whether it has stopped
before its end. -/
structure Thread (σ : Signature) (E α : Type) where
  /-- The rest of the program. -/
  prog : Program σ E α
  /-- The commands issued so far, with their replies, oldest first. -/
  log : List (Event σ) := []
  /-- The thread crashed; it issues nothing any more. -/
  stopped : Bool := false

namespace Thread

/-- The thread has returned or raised. -/
def Finished (t : Thread σ E α) : Prop :=
  match t.prog with
  | .pure _ => True
  | .throw _ => True
  | .call _ _ => False

/-- The thread has returned `a`. -/
def Returned (t : Thread σ E α) (a : α) : Prop := t.prog = .pure a

/-- The thread has issued a command, has not ended and has not stopped. -/
def InProgress (t : Thread σ E α) : Prop :=
  t.log ≠ [] ∧ ¬ t.Finished ∧ t.stopped = false

end Thread

/-- Threads by index, and the state of the machine they share. -/
structure Pool (σ : Signature) (E α S ι : Type) where
  /-- The threads. -/
  threads : ι → Thread σ E α
  /-- The state of the machine. -/
  state : S

/-- What a step of a pool is. -/
inductive Label (σ : Signature) (ι : Type) where
  /-- Thread `i` has command `c` answered. -/
  | call (i : ι) (c : σ.Command)
  /-- The environment moves. -/
  | env
  /-- Thread `i` stops for good. -/
  | stop (i : ι)

namespace Pool

/-- The pool in which every thread is at the start of its program. -/
def start (progs : ι → Program σ E α) (s : S) : Pool σ E α S ι :=
  { threads := fun i => { prog := progs i }, state := s }

variable [DecidableEq ι] (m : Machine σ S) (env : S → S → Prop)

/-- The pool after thread `i` has had command `c` answered. -/
def answered (p : Pool σ E α S ι) (i : ι) (c : σ.Command) (next : σ.Reply c → Program σ E α) :
    Pool σ E α S ι :=
  { threads := Function.update p.threads i
      { p.threads i with
        prog := next (m c p.state).1
        log := (p.threads i).log ++ [⟨c, (m c p.state).1⟩] }
    state := (m c p.state).2 }

/-- The pool after thread `i` has stopped. -/
def halted (p : Pool σ E α S ι) (i : ι) : Pool σ E α S ι :=
  { p with threads := Function.update p.threads i { p.threads i with stopped := true } }

/-- One step of a pool. -/
inductive Step : Pool σ E α S ι → Label σ ι → Pool σ E α S ι → Prop
  | call {p : Pool σ E α S ι} {i : ι} {c next} : (p.threads i).prog = .call c next →
      (p.threads i).stopped = false → Step p (.call i c) (p.answered m i c next)
  | env {p : Pool σ E α S ι} {s : S} : env p.state s → Step p .env { p with state := s }
  | stop {p : Pool σ E α S ι} {i : ι} : Step p (.stop i) (p.halted i)

/-- The runs all of whose steps pass `guard`, which sees the pool before the step. -/
inductive Run (guard : Pool σ E α S ι → Label σ ι → Prop) :
    Pool σ E α S ι → Pool σ E α S ι → Prop
  | refl {p} : Run guard p p
  | step {p q r l} : Run guard p q → guard q l → Step m env q l r → Run guard p r

variable {m env}

/-- What holds at the start and is kept by every step that passes the guard holds at the end. -/
theorem Run.invariant {guard : Pool σ E α S ι → Label σ ι → Prop} (I : Pool σ E α S ι → Prop)
    (hstep : ∀ p l q, I p → guard p l → Step m env p l q → I q) {p q : Pool σ E α S ι}
    (hrun : Run m env guard p q) (hp : I p) : I q := by
  induction hrun with
  | refl => exact hp
  | step _ hg hs ih => exact hstep _ _ _ ih hg hs

/-- A run under a guard is a run under a weaker one. -/
theorem Run.mono {guard guard' : Pool σ E α S ι → Label σ ι → Prop}
    (hguard : ∀ p l, guard p l → guard' p l) {p q : Pool σ E α S ι}
    (hrun : Run m env guard p q) : Run m env guard' p q := by
  induction hrun with
  | refl => exact .refl
  | step _ hg hs ih => exact .step ih (hguard _ _ hg) hs

/-- Runs compose. -/
theorem Run.trans {guard : Pool σ E α S ι → Label σ ι → Prop} {p q r : Pool σ E α S ι}
    (hpq : Run m env guard p q) (hqr : Run m env guard q r) : Run m env guard p r := by
  induction hqr with
  | refl => exact hpq
  | step _ hg hs ih => exact .step ih hg hs

/-- The runs all of whose steps pass `guard`, which sees the pools before and after the step. -/
inductive GuardedRun (m : Machine σ S) (env : S → S → Prop)
    (guard : Pool σ E α S ι → Label σ ι → Pool σ E α S ι → Prop) :
    Pool σ E α S ι → Pool σ E α S ι → Prop
  | refl {p} : GuardedRun m env guard p p
  | step {p q r l} : GuardedRun m env guard p q → guard q l r → Step m env q l r →
      GuardedRun m env guard p r

section GuardedRun

variable {guard : Pool σ E α S ι → Label σ ι → Pool σ E α S ι → Prop}

/-- What holds at the start and is kept by every step that passes the guard holds at the end. -/
theorem GuardedRun.invariant (I : Pool σ E α S ι → Prop)
    (hstep : ∀ p l q, I p → guard p l q → Step m env p l q → I q) {p q : Pool σ E α S ι}
    (hrun : GuardedRun m env guard p q) (hp : I p) : I q := by
  induction hrun with
  | refl => exact hp
  | step _ hg hs ih => exact hstep _ _ _ ih hg hs

/-- A run under a guard on the pool before each step is a guarded run, when an invariant of its
steps gives the wider guard. -/
theorem Run.guardedRun {guard' : Pool σ E α S ι → Label σ ι → Prop} (I : Pool σ E α S ι → Prop)
    (hI : ∀ p l q, I p → Step m env p l q → I q)
    (hguard : ∀ p l q, I p → guard' p l → Step m env p l q → guard p l q) {p q : Pool σ E α S ι}
    (hp : I p) (hrun : Run m env guard' p q) : GuardedRun m env guard p q := by
  suffices h : I q ∧ GuardedRun m env guard p q from h.2
  induction hrun with
  | refl => exact ⟨hp, .refl⟩
  | step _ hg hs ih => exact ⟨hI _ _ _ ih.1 hs, .step ih.2 (hguard _ _ _ ih.1 hg hs) hs⟩

end GuardedRun

/-! ### Threads before and after a step -/

@[simp] theorem answered_same (p : Pool σ E α S ι) (i : ι) (c : σ.Command)
    (next : σ.Reply c → Program σ E α) :
    (p.answered m i c next).threads i =
      { p.threads i with
        prog := next (m c p.state).1
        log := (p.threads i).log ++ [⟨c, (m c p.state).1⟩] } := by
  simp [answered]

@[simp] theorem answered_other (p : Pool σ E α S ι) {i j : ι} (h : j ≠ i) (c : σ.Command)
    (next : σ.Reply c → Program σ E α) :
    (p.answered m i c next).threads j = p.threads j := by
  simp [answered, h]

@[simp] theorem answered_state (p : Pool σ E α S ι) (i : ι) (c : σ.Command)
    (next : σ.Reply c → Program σ E α) : (p.answered m i c next).state = (m c p.state).2 := rfl

@[simp] theorem halted_prog (p : Pool σ E α S ι) (i j : ι) :
    ((p.halted i).threads j).prog = (p.threads j).prog := by
  by_cases h : j = i
  · subst h; simp [halted]
  · simp [halted, h]

@[simp] theorem halted_log (p : Pool σ E α S ι) (i j : ι) :
    ((p.halted i).threads j).log = (p.threads j).log := by
  by_cases h : j = i
  · subst h; simp [halted]
  · simp [halted, h]

theorem halted_other (p : Pool σ E α S ι) {i j : ι} (h : j ≠ i) :
    (p.halted i).threads j = p.threads j := by
  simp [halted, h]

@[simp] theorem halted_state (p : Pool σ E α S ι) (i : ι) : (p.halted i).state = p.state := rfl

/-! ### Runs that can be evaluated -/

/-- Let thread `i` issue its next command; nothing happens when it has none. -/
def fire (m : Machine σ S) (p : Pool σ E α S ι) (i : ι) : Pool σ E α S ι :=
  match (p.threads i).prog with
  | .call c next => if (p.threads i).stopped then p else p.answered m i c next
  | .pure _ => p
  | .throw _ => p

/-- Let the threads issue commands in the order given. -/
def schedule (m : Machine σ S) (p : Pool σ E α S ι) (order : List ι) : Pool σ E α S ι :=
  order.foldl (fire m) p

/-- The command a thread is about to issue. -/
def next? (p : Pool σ E α S ι) (i : ι) : Option σ.Command :=
  match (p.threads i).prog with
  | .call c _ => some c
  | .pure _ => none
  | .throw _ => none

/-- Firing a thread whose next command passes the guard is a run of at most one step. -/
theorem run_fire {guard : Pool σ E α S ι → Label σ ι → Prop} (p : Pool σ E α S ι) (i : ι)
    (hguard : ∀ c, p.next? i = some c → guard p (.call i c)) :
    Run m env guard p (p.fire m i) := by
  unfold fire
  split
  · rename_i c next hprog
    split
    · exact .refl
    · rename_i hstopped
      have hnext : p.next? i = some c := by simp [next?, hprog]
      exact .step .refl (hguard c hnext) (.call hprog (by simpa using hstopped))
  · exact .refl
  · exact .refl

/-- A schedule is a run under a guard when its first command passes the guard and the rest of the
schedule is such a run. -/
theorem Run.cons {guard : Pool σ E α S ι → Label σ ι → Prop} {p : Pool σ E α S ι} {i : ι}
    {c : σ.Command} {order : List ι} (hnext : p.next? i = some c) (hguard : guard p (.call i c))
    (hrest : Run m env guard (p.fire m i) ((p.fire m i).schedule m order)) :
    Run m env guard p (p.schedule m (i :: order)) := by
  have hfire : Run m env guard p (p.fire m i) := by
    refine run_fire p i fun c' hc' => ?_
    rw [hnext, Option.some.injEq] at hc'
    exact hc' ▸ hguard
  exact hfire.trans hrest

/-- A schedule is a run under a guard that asks of the state only what every command keeps. -/
theorem run_schedule_of {guard : Pool σ E α S ι → Label σ ι → Prop} {I : S → Prop}
    (hguard : ∀ p l, I p.state → guard p l) (hkeep : ∀ c s, I s → I (m c s).2)
    {p : Pool σ E α S ι} (hp : I p.state) (order : List ι) :
    Run m env guard p (p.schedule m order) := by
  induction order generalizing p with
  | nil => exact .refl
  | cons i order ih =>
    have hfired : I (p.fire m i).state := by
      unfold fire
      split
      · split
        · exact hp
        · exact hkeep _ _ hp
      · exact hp
      · exact hp
    exact (run_fire p i fun c _ => hguard p _ hp).trans (ih hfired)

/-- A schedule is a run. -/
theorem run_schedule (p : Pool σ E α S ι) (order : List ι) :
    Run m env (fun _ _ => True) p (p.schedule m order) := by
  have hkeep (c : σ.Command) (s : S) : True → True := id
  exact run_schedule_of (fun _ _ => id) hkeep trivial order

/-- Firing one thread leaves the other threads alone. -/
theorem fire_other (p : Pool σ E α S ι) {i j : ι} (h : j ≠ i) :
    (p.fire m i).threads j = p.threads j := by
  unfold fire
  split
  · split
    · rfl
    · exact answered_other p h _ _
  · rfl
  · rfl

/-- A guard that looks at the other threads only lets one thread run on its own. -/
theorem run_schedule_alone {guard : Pool σ E α S ι → Label σ ι → Prop} {p : Pool σ E α S ι} {i : ι}
    (hguard : ∀ q : Pool σ E α S ι, (∀ j, j ≠ i → q.threads j = p.threads j) →
      ∀ c, guard q (.call i c)) (n : ℕ) :
    Run m env guard p (p.schedule m (List.replicate n i)) := by
  suffices h : ∀ q : Pool σ E α S ι, (∀ j, j ≠ i → q.threads j = p.threads j) →
      Run m env guard q (q.schedule m (List.replicate n i)) from h p fun _ _ => rfl
  induction n with
  | zero => exact fun q _ => .refl
  | succ n ih =>
    intro q hq
    have hfire : Run m env guard q (q.fire m i) := run_fire q i fun c _ => hguard q hq c
    exact hfire.trans (ih _ fun j hj => (fire_other q hj).trans (hq j hj))

/-! ### Threads that follow a protocol -/

section Conforms

variable (P : ι → Protocol σ) (q₀ : (i : ι) → (P i).State)
  (post : (i : ι) → (P i).State → Except E α → Prop)

/-- Every thread follows its protocol from the ghost state its events led to. -/
def Conforms (p : Pool σ E α S ι) : Prop :=
  ∀ i, (p.threads i).prog.Follows (P i) (post i) ((P i).after (q₀ i) (p.threads i).log)

variable {P q₀ post}

omit [DecidableEq ι] in
/-- A pool conforms at its start when every program follows its protocol. -/
theorem conforms_start {progs : ι → Program σ E α} {s : S}
    (h : ∀ i, (progs i).Follows (P i) (post i) (q₀ i)) : (start progs s).Conforms P q₀ post := h

omit [DecidableEq ι] in
/-- The command a conforming thread issues is one its ghost state allows. -/
theorem Conforms.allow {p : Pool σ E α S ι} (h : p.Conforms P q₀ post) {i : ι} {c next}
    (hprog : (p.threads i).prog = .call c next) :
    (P i).Allow ((P i).after (q₀ i) (p.threads i).log) c := by
  have hi := h i
  rw [hprog] at hi
  exact hi.1

omit [DecidableEq ι] in
/-- A thread that returned satisfies its postcondition. -/
theorem Conforms.returned {p : Pool σ E α S ι} (h : p.Conforms P q₀ post) {i : ι} {a : α}
    (hret : (p.threads i).Returned a) :
    post i ((P i).after (q₀ i) (p.threads i).log) (.ok a) := by
  have hi := h i
  rw [show (p.threads i).prog = .pure a from hret] at hi
  exact hi

/-- An answered command keeps the pool conforming when the reply is one reckoned with. -/
theorem Conforms.answered {p : Pool σ E α S ι} (h : p.Conforms P q₀ post) {i : ι} {c next}
    (hprog : (p.threads i).prog = .call c next)
    (hanswer : (P i).Answer ((P i).after (q₀ i) (p.threads i).log) c (m c p.state).1) :
    (p.answered m i c next).Conforms P q₀ post := by
  intro j
  by_cases hj : j = i
  · subst hj
    have hi := h j
    rw [hprog] at hi
    simpa using hi.2 _ hanswer
  · simpa [hj] using h j

/-- After its command a thread of a conforming pool follows its protocol from the next ghost
state. -/
theorem Conforms.follows_next {p : Pool σ E α S ι} {i : ι} {c next}
    (h : (p.answered m i c next).Conforms P q₀ post) :
    ((p.answered m i c next).threads i).prog.Follows (P i) (post i)
      ((P i).step ((P i).after (q₀ i) (p.threads i).log) c (m c p.state).1) := by
  have hi := h i
  simpa using hi

/-- Every step keeps the pool conforming when the replies are the ones reckoned with. -/
theorem Conforms.step {p p' : Pool σ E α S ι} {l : Label σ ι} (h : p.Conforms P q₀ post)
    (hanswer : ∀ i c, l = .call i c →
      (P i).Answer ((P i).after (q₀ i) (p.threads i).log) c (m c p.state).1)
    (hstep : Step m env p l p') : p'.Conforms P q₀ post := by
  cases hstep with
  | call hprog _ => exact h.answered hprog (hanswer _ _ rfl)
  | env _ => exact h
  | stop => intro j; simpa using h j

end Conforms

/-! ### Threads restricted to some commands -/

section Confined

variable {C : σ.Command → Prop}

/-- All threads issue commands in `C` only. -/
def Confined (C : σ.Command → Prop) (p : Pool σ E α S ι) : Prop :=
  ∀ i, (p.threads i).prog.Only C

omit [DecidableEq ι] in
/-- The command a thread issues is one of those it is confined to. -/
theorem Confined.command {p : Pool σ E α S ι} (h : p.Confined C) {i : ι} {c next}
    (hprog : (p.threads i).prog = .call c next) : C c := by
  have hi := h i
  rw [hprog] at hi
  exact hi.1

/-- Every step keeps the threads confined. -/
theorem Confined.step {p q : Pool σ E α S ι} {l : Label σ ι} (h : p.Confined C)
    (hstep : Step m env p l q) : q.Confined C := by
  cases hstep with
  | @call i c next hprog _ =>
    intro j
    by_cases hj : j = i
    · subst hj
      have hi := h j
      rw [hprog] at hi
      simpa using hi.2 _
    · simpa [hj] using h j
  | env _ => exact h
  | stop =>
    intro j
    simpa using h j

end Confined

end Pool

end Interaction
