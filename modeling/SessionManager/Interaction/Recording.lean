import SessionManager.Interaction.Pool

/-!
# Protocols that remember

Protocols that allow every command and keep what a program has done, for postconditions that are
about it.

* `noting` — whether a command of some kind has been issued.
* `recording` — the whole log, when the replies are known to be of some kind.
* `Pool.Run.returned_recording` — what the threads of a pool return, and their logs.
-/

namespace Interaction

variable {σ : Signature} {E α β S ι : Type}

/-! ### Whether a command has been issued -/

/-- The protocol that allows everything and remembers whether a command in `C` has been issued. -/
def noting (C : σ.Command → Prop) : Protocol σ where
  State := Prop
  Allow _ _ := True
  step noted c _ := noted ∨ C c

variable {C : σ.Command → Prop}

/-- Nothing is remembered when no command in `C` has been issued. -/
theorem noting_after (noted : Prop) (log : List (Event σ)) :
    (noting C).after noted log ↔ noted ∨ ∃ event ∈ log, C event.1 := by
  induction log generalizing noted with
  | nil => exact (or_iff_left (by simp)).symm
  | cons event log ih =>
    refine (ih (noted ∨ C event.1)).trans ?_
    simp [or_assoc]

namespace Program

/-- A program that raises no exception in `R` may issue any command, when only those exceptions
matter. -/
theorem follows_noting_of_raises {R : E → Prop} {p : Program σ E α} (hp : p.Raises fun e => ¬ R e)
    (noted : Prop) : p.Follows (noting C) (fun noted x => ∀ e, x = .error e → R e → ¬ noted)
      noted := by
  induction p generalizing noted with
  | pure a =>
    intro e he
    cases he
  | throw e =>
    rintro e' he hR
    obtain rfl := Except.error.inj he
    exact absurd hR hp
  | call c next ih => exact ⟨trivial, fun reply _ => ih reply (hp reply) _⟩

/-- A program that issues no command in `C` before it goes on. -/
theorem follows_noting_bind {R : E → Prop} {p : Program σ E α} {f : α → Program σ E β}
    (hp : p.Only fun c => ¬ C c) (hf : ∀ a, (f a).Follows (noting C)
      (fun noted x => ∀ e, x = .error e → R e → ¬ noted) False) :
    (p >>= f).Follows (noting C) (fun noted x => ∀ e, x = .error e → R e → ¬ noted) False := by
  refine Follows.bind ((Only.follows (P := noting C) (q := False) hp fun c hc =>
    ⟨trivial, fun _ => propext ⟨fun h => h.elim id hc, False.elim⟩⟩).mono ?_)
  rintro noted x rfl
  cases x with
  | ok a => exact hf a
  | error e => exact fun _ _ _ => id

end Program

/-! ### All events -/

/-- The protocol that allows everything and keeps the log. The replies reckoned with are those in
`A`. -/
def recording (A : (c : σ.Command) → σ.Reply c → Prop) : Protocol σ where
  State := List (Event σ)
  Allow _ _ := True
  Answer _ := A
  step log c reply := log ++ [⟨c, reply⟩]

variable {A : (c : σ.Command) → σ.Reply c → Prop}

/-- What is kept is the log. -/
theorem recording_after (log log' : List (Event σ)) :
    (recording A).after log log' = log ++ log' := by
  induction log' generalizing log with
  | nil => exact (List.append_nil log).symm
  | cons event log' ih =>
    refine (ih (log ++ [event])).trans ?_
    rw [List.append_assoc, List.singleton_append]

namespace Program

/-- What a program raises, whatever it is replied. -/
theorem follows_recording_of_raises {R : E → Prop} {p : Program σ E α} (hp : p.Raises R)
    (log : List (Event σ)) :
    p.Follows (recording A) (fun log' x => log <+: log' ∧ ∀ e, x = .error e → R e) log := by
  suffices h : ∀ log', log <+: log' →
      p.Follows (recording A) (fun log' x => log <+: log' ∧ ∀ e, x = .error e → R e) log' from
    h log (List.prefix_refl log)
  induction p with
  | pure a =>
    intro log' hlog
    refine ⟨hlog, fun e he => ?_⟩
    cases he
  | throw e =>
    intro log' hlog
    refine ⟨hlog, fun e' he => ?_⟩
    obtain rfl := Except.error.inj he
    exact hp
  | call c next ih =>
    intro log' hlog
    exact ⟨trivial, fun reply _ => ih reply (hp reply) _ (hlog.trans (List.prefix_append _ _))⟩

end Program

namespace Pool

variable [DecidableEq ι] {m : Machine σ S} {env : S → S → Prop} {progs : ι → Program σ E α} {s : S}

/-- In a run whose replies are all of the kind reckoned with, a thread that has returned satisfies
its postcondition together with its log. -/
theorem Run.returned_recording {post : ι → List (Event σ) → Except E α → Prop}
    (hanswer : ∀ q, Run m env (fun _ _ => True) (start progs s) q → ∀ c, A c (m c q.state).1)
    (hfollows : ∀ i, (progs i).Follows (recording A) (post i) []) {p : Pool σ E α S ι}
    (hrun : Run m env (fun _ _ => True) (start progs s) p) {i : ι} {a : α}
    (hreturned : (p.threads i).Returned a) : post i (p.threads i).log (.ok a) := by
  -- every pool on the way has been reached as well
  have hinv := hrun.invariant
    (fun q => Run m env (fun _ _ => True) (start progs s) q ∧
      q.Conforms (fun _ => recording A) (fun _ => []) post)
    (fun q l r h _ hstep => ⟨.step h.1 trivial hstep,
      h.2.step (fun i c _ => hanswer q h.1 c) hstep⟩)
    ⟨.refl, conforms_start hfollows⟩
  have hpost := hinv.2.returned hreturned
  rwa [recording_after, List.nil_append] at hpost

end Pool

end Interaction
