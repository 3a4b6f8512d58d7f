import SessionManager.Interaction.Protocol

/-!
# Weakest preconditions under a moving environment

`p.Wp m env Q s`: started in `s`, with the state moving along `env` before each command, the
program `p` ends in an outcome and a state that satisfy `Q`, whatever the environment does.

* `Wp`, `wp_iff_exec` — the definition by recursion, and that it speaks about all `Exec`s.
* `wp_bind`, `Wp.seq`, `wp_catchWith` — sequences and handlers.
* `Wp.mono`, `Wp.env_mono`, `Wp.and` — weakening and conjunction.
* `Wp.of_follows`, `Wp.of_only`, `Wp.of_invariant` — preconditions from a protocol or a restriction,
  if any, and an invariant.
-/

namespace Interaction

namespace Program

variable {σ : Signature} {E α β S : Type} {m : Machine σ S} {env : S → S → Prop}

/-- The weakest precondition of `Q` for a program whose commands `m` answers, where the state
moves along `env` before each command. -/
def Wp (m : Machine σ S) (env : S → S → Prop) :
    Program σ E α → (Except E α → S → Prop) → S → Prop
  | .pure a, Q, s => Q (.ok a) s
  | .throw e, Q, s => Q (.error e) s
  | .call c next, Q, s => ∀ s₁, env s s₁ → Wp m env (next (m c s₁).1) Q (m c s₁).2

@[simp] theorem wp_pure {Q : Except E α → S → Prop} {a : α} {s : S} :
    Wp m env (.pure a) Q s ↔ Q (.ok a) s := Iff.rfl

@[simp] theorem wp_throw {Q : Except E α → S → Prop} {e : E} {s : S} :
    Wp m env (.throw e) Q s ↔ Q (.error e) s := Iff.rfl

theorem wp_call {Q : Except E α → S → Prop} {c : σ.Command}
    {next : σ.Reply c → Program σ E α} {s : S} :
    Wp m env (.call c next) Q s ↔
      ∀ s₁, env s s₁ → Wp m env (next (m c s₁).1) Q (m c s₁).2 := Iff.rfl

theorem wp_perform {c : σ.Command} {Q : Except E (σ.Reply c) → S → Prop} {s : S} :
    Wp m env (perform c) Q s ↔ ∀ s₁, env s s₁ → Q (.ok (m c s₁).1) (m c s₁).2 := Iff.rfl

/-- The weakest precondition speaks about all runs. -/
theorem wp_iff_exec {p : Program σ E α} {Q : Except E α → S → Prop} {s : S} :
    Wp m env p Q s ↔ ∀ x s', p.Exec m env s x s' → Q x s' := by
  induction p generalizing s with
  | pure a =>
    constructor
    · intro h x s' hexec
      cases hexec
      exact h
    · exact fun h => h _ _ .pure
  | throw e =>
    constructor
    · intro h x s' hexec
      cases hexec
      exact h
    · exact fun h => h _ _ .throw
  | call c next ih =>
    constructor
    · intro h x s' hexec
      cases hexec with
      | call hs hrest => exact (ih _).mp (h _ hs) _ _ hrest
    · exact fun h s₁ hs => (ih _).mpr fun x s' hrest => h _ _ (.call hs hrest)

/-- What the precondition promises of one run. -/
theorem Wp.exec {p : Program σ E α} {Q : Except E α → S → Prop} {s s' : S} {x : Except E α}
    (h : Wp m env p Q s) (hexec : p.Exec m env s x s') : Q x s' := wp_iff_exec.mp h x s' hexec

/-- The postcondition may be weakened. -/
theorem Wp.mono {p : Program σ E α} {Q Q' : Except E α → S → Prop} {s : S}
    (h : Wp m env p Q s) (hQ : ∀ x s', Q x s' → Q' x s') : Wp m env p Q' s := by
  rw [wp_iff_exec] at h ⊢
  exact fun x s' hexec => hQ x s' (h x s' hexec)

/-- The environment may be restricted. -/
theorem Wp.env_mono {env' : S → S → Prop} {p : Program σ E α} {Q : Except E α → S → Prop} {s : S}
    (h : Wp m env p Q s) (henv : ∀ s s', env' s s' → env s s') : Wp m env' p Q s := by
  induction p generalizing s with
  | pure a => exact h
  | throw e => exact h
  | call c next ih => exact fun s₁ hs => ih _ (h s₁ (henv _ _ hs))

/-- Two postconditions hold together. -/
theorem Wp.and {p : Program σ E α} {Q Q' : Except E α → S → Prop} {s : S}
    (h : Wp m env p Q s) (h' : Wp m env p Q' s) :
    Wp m env p (fun x s' => Q x s' ∧ Q' x s') s := by
  rw [wp_iff_exec] at h h' ⊢
  exact fun x s' hexec => ⟨h x s' hexec, h' x s' hexec⟩

/-- A sequence: the second part starts where the first one returned. -/
theorem wp_bind {p : Program σ E α} {f : α → Program σ E β} {Q : Except E β → S → Prop} {s : S} :
    Wp m env (p >>= f) Q s ↔
      Wp m env p (fun x s' => match x with
        | .ok a => Wp m env (f a) Q s'
        | .error e => Q (.error e) s') s := by
  induction p generalizing s with
  | pure a => exact Iff.rfl
  | throw e => exact Iff.rfl
  | call c next ih => exact forall₂_congr fun s₁ _ => ih _

/-- A handler: it starts where the exception was raised. -/
theorem wp_catchWith {p : Program σ E α} {handler : E → Program σ E α}
    {Q : Except E α → S → Prop} {s : S} :
    Wp m env (p.catchWith handler) Q s ↔
      Wp m env p (fun x s' => match x with
        | .ok a => Q (.ok a) s'
        | .error e => Wp m env (handler e) Q s') s := by
  induction p generalizing s with
  | pure a => exact Iff.rfl
  | throw e => exact Iff.rfl
  | call c next ih => exact forall₂_congr fun s₁ _ => ih _

/-- A program whose result is wrapped up. -/
theorem wp_map {p : Program σ E α} {f : α → β} {Q : Except E β → S → Prop} {s : S} :
    Wp m env (do let a ← p; return f a) Q s ↔ Wp m env p (fun x s' => Q (x.map f) s') s := by
  rw [wp_bind]
  constructor
  · intro h
    refine h.mono fun x s' hx => ?_
    cases x <;> exact hx
  · intro h
    refine h.mono fun x s' hx => ?_
    cases x <;> exact hx

/-- A sequence that begins with a command. -/
theorem wp_perform_bind {c : σ.Command} {f : σ.Reply c → Program σ E β}
    {Q : Except E β → S → Prop} {s : S} :
    Wp m env (perform c >>= f) Q s ↔ ∀ s₁, env s s₁ → Wp m env (f (m c s₁).1) Q (m c s₁).2 :=
  Iff.rfl

/-- When the state does not move there is one run. -/
theorem wp_eq_iff_run {p : Program σ E α} {Q : Except E α → S → Prop} {s : S} :
    Wp m Eq p Q s ↔ Q (p.run m s).1 (p.run m s).2 := by
  induction p generalizing s with
  | pure a => exact Iff.rfl
  | throw e => exact Iff.rfl
  | call c next ih => exact forall_eq'.trans (ih _)

/-- A sequence whose first part is known to return, when the state does not move. -/
theorem wp_bind_of_run {p : Program σ E α} {f : α → Program σ E β} {Q : Except E β → S → Prop}
    {s s' : S} {a : α} (h : p.run m s = (.ok a, s')) :
    Wp m Eq (p >>= f) Q s ↔ Wp m Eq (f a) Q s' := by
  rw [wp_eq_iff_run, wp_eq_iff_run, run_bind_ok m h]

/-- A command when the state does not move. -/
theorem wp_perform_eq {c : σ.Command} {Q : Except E (σ.Reply c) → S → Prop} {s : S} :
    Wp m Eq (perform c) Q s ↔ Q (.ok (m c s).1) (m c s).2 := forall_eq'

/-- A sequence that begins with a command when the state does not move. -/
theorem wp_perform_bind_eq {c : σ.Command} {f : σ.Reply c → Program σ E β}
    {Q : Except E β → S → Prop} {s : S} :
    Wp m Eq (perform c >>= f) Q s ↔ Wp m Eq (f (m c s).1) Q (m c s).2 := forall_eq'

/-- A sequence that begins with a value or an exception. -/
theorem wp_ofExcept_bind {x : Except E α} {f : α → Program σ E β} {Q : Except E β → S → Prop}
    {s : S} :
    Wp m env (ofExcept x >>= f) Q s ↔
      match x with
      | .ok a => Wp m env (f a) Q s
      | .error e => Q (.error e) s := by
  cases x <;> exact Iff.rfl

/-- `wp_bind` with the assertion between the two parts named. -/
theorem Wp.seq (mid : α → S → Prop) {p : Program σ E α} {f : α → Program σ E β}
    {Q : Except E β → S → Prop} {s : S}
    (hp : Wp m env p (fun x s' => match x with
      | .ok a => mid a s'
      | .error e => Q (.error e) s') s)
    (hf : ∀ a s', mid a s' → Wp m env (f a) Q s') : Wp m env (p >>= f) Q s := by
  refine wp_bind.mpr (hp.mono fun x s' hx => ?_)
  cases x with
  | ok a => exact hf a s' hx
  | error e => exact hx

/-- `Wp.seq` where the first part returns in any case. -/
theorem Wp.seq_ok (mid : α → S → Prop) {p : Program σ E α} {f : α → Program σ E β}
    {Q : Except E β → S → Prop} {s : S}
    (hp : Wp m env p (fun x s' => ∃ a, x = .ok a ∧ mid a s') s)
    (hf : ∀ a s', mid a s' → Wp m env (f a) Q s') : Wp m env (p >>= f) Q s := by
  refine Wp.seq mid (hp.mono ?_) hf
  rintro x s' ⟨a, rfl, ha⟩
  exact ha

/-- A sequence whose first part keeps an assertion, however it ends. -/
theorem Wp.bind_kept {I : S → Prop} {p : Program σ E α} {f : α → Program σ E β}
    {Q : Except E β → S → Prop} {s : S} (hp : Wp m env p (fun _ s' => I s') s)
    (herror : ∀ e s', I s' → Q (.error e) s') (hf : ∀ a s', I s' → Wp m env (f a) Q s') :
    Wp m env (p >>= f) Q s := by
  refine Wp.seq (fun _ s' => I s') (hp.mono fun x s' hI => ?_) hf
  cases x with
  | ok a => exact hI
  | error e => exact herror e s' hI

/-- A sequence whose second part is right wherever the first one leaves it. -/
theorem Wp.bind_of_forall {p : Program σ E α} {f : α → Program σ E β} {Q : Except E β → S → Prop}
    {s : S} (herror : ∀ e s', Q (.error e) s') (hf : ∀ a s', Wp m env (f a) Q s') :
    Wp m env (p >>= f) Q s := by
  induction p generalizing s with
  | pure a => exact hf a s
  | throw e => exact herror e s
  | call c next ih => exact fun s₁ _ => ih _

/-- A program that follows a protocol keeps an invariant that the environment and every allowed
command keep. -/
theorem Wp.of_follows {P : Protocol σ} {post : P.State → Except E α → Prop}
    {I : P.State → S → Prop} (henv : ∀ q s s', env s s' → I q s → I q s')
    (hcall : ∀ q c s, P.Allow q c → I q s →
      P.Answer q c (m c s).1 ∧ I (P.step q c (m c s).1) (m c s).2)
    {p : Program σ E α} {q : P.State} {s : S} (hp : Follows P post q p) (hI : I q s) :
    Wp m env p (fun x s' => ∃ q', post q' x ∧ I q' s') s :=
  wp_iff_exec.mpr fun _ _ hexec => Exec.invariant henv hcall hexec hp hI

/-- A program restricted to commands that keep an assertion keeps it. -/
theorem Wp.of_only {C : σ.Command → Prop} {I : S → Prop} {p : Program σ E α} {s : S}
    (hp : Only C p) (henv : ∀ s s', env s s' → I s → I s')
    (hC : ∀ c s, C c → I s → I (m c s).2) (hI : I s) : Wp m env p (fun _ s' => I s') s := by
  induction p generalizing s with
  | pure a => exact hI
  | throw e => exact hI
  | call c next ih =>
    exact fun s₁ hs => ih _ (hp.2 _) (hC c s₁ hp.1 (henv s s₁ hs hI))

/-- Every program keeps what the environment and all commands keep. -/
theorem Wp.of_invariant {I : S → Prop} (henv : ∀ s s', env s s' → I s → I s')
    (hcall : ∀ c s, I s → I (m c s).2) (p : Program σ E α) {s : S} (hI : I s) :
    Wp m env p (fun _ s' => I s') s := by
  induction p generalizing s with
  | pure a => exact hI
  | throw e => exact hI
  | call c next ih => exact fun s₁ hs => ih _ (hcall c s₁ (henv s s₁ hs hI))

end Program

end Interaction
