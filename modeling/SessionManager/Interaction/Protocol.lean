import SessionManager.Interaction.Program

/-!
# Protocols that programs follow

A protocol is a ghost automaton that reads the commands of one program together with their
replies. It says which command may come next and, at the end, with which outcome a program may
stop. What a thread can do next is then read off its ghost state, so that a proof about many
threads needs no look inside their programs.

* `Event`, `Protocol.after` — an answered command, and the ghost state after a list of them.
* `Program.Follows` — every path of the program obeys the protocol, for all replies the protocol
  reckons with (`Protocol.Answer`).
* `Program.Follows.bind`, `Program.Follows.mono`, `Program.Follows.perform` — how to prove it,
  part by part.
* `Program.Follows.simulate` — from one protocol to a coarser one.
* `Program.Only`, `Program.Raises` — every path issues commands of one kind only, or raises
  exceptions of one kind only.
* `Program.Exec.invariant` — what every allowed command and the environment preserve holds after
  a run.
-/

namespace Interaction

variable {σ : Signature} {E α β S : Type}

/-- A command together with the reply it got. -/
abbrev Event (σ : Signature) := (c : σ.Command) × σ.Reply c

/-- A ghost automaton over the events of one program. -/
structure Protocol (σ : Signature) where
  /-- The ghost states. -/
  State : Type
  /-- The commands a program may issue in a ghost state. -/
  Allow : State → σ.Command → Prop
  /-- The replies reckoned with. -/
  Answer : State → (c : σ.Command) → σ.Reply c → Prop := fun _ _ _ => True
  /-- The ghost state after an answered command. -/
  step : State → (c : σ.Command) → σ.Reply c → State

namespace Protocol

/-- The ghost state after a list of events. -/
def after (P : Protocol σ) (q : P.State) (log : List (Event σ)) : P.State :=
  log.foldl (fun q e => P.step q e.1 e.2) q

@[simp] theorem after_nil (P : Protocol σ) (q : P.State) : P.after q [] = q := rfl

@[simp] theorem after_append_singleton (P : Protocol σ) (q : P.State) (log : List (Event σ))
    (e : Event σ) : P.after q (log ++ [e]) = P.step (P.after q log) e.1 e.2 := by
  simp [after]

end Protocol

namespace Program

variable (P : Protocol σ)

/-- From ghost state `q` every path of the program issues allowed commands only, and ends with
an outcome that satisfies `post` together with the last ghost state. -/
def Follows (post : P.State → Except E α → Prop) : P.State → Program σ E α → Prop
  | q, .pure a => post q (.ok a)
  | q, .throw e => post q (.error e)
  | q, .call c next => P.Allow q c ∧ ∀ r, P.Answer q c r → Follows post (P.step q c r) (next r)

variable {P} {q : P.State}

@[simp] theorem follows_pure {post : P.State → Except E α → Prop} {a : α} :
    Follows P post q (.pure a) ↔ post q (.ok a) := Iff.rfl

@[simp] theorem follows_throw {post : P.State → Except E α → Prop} {e : E} :
    Follows P post q (.throw e : Program σ E α) ↔ post q (.error e) := Iff.rfl

/-- The postcondition may be weakened. -/
theorem Follows.mono {post post' : P.State → Except E α → Prop} {p : Program σ E α}
    (h : Follows P post q p) (hpost : ∀ q x, post q x → post' q x) : Follows P post' q p := by
  induction p generalizing q with
  | pure a => exact hpost _ _ h
  | throw e => exact hpost _ _ h
  | call c next ih => exact ⟨h.1, fun r hr => ih r (h.2 r hr)⟩

/-- Where every command is allowed and every end is accepted, every program follows. -/
theorem follows_of_forall {post : P.State → Except E α → Prop} (hallow : ∀ q c, P.Allow q c)
    (hpost : ∀ q x, post q x) (q : P.State) (p : Program σ E α) : Follows P post q p := by
  induction p generalizing q with
  | pure a => exact hpost q _
  | throw e => exact hpost q _
  | call c next ih => exact ⟨hallow q c, fun r _ => ih r _⟩

/-- A program that follows a protocol follows every protocol that simulates it: one that allows
what the first allows, reckons with no other replies, and whose ghost state is a function of the
first one's. -/
theorem Follows.simulate (P' : Protocol σ) (f : P.State → P'.State)
    (hallow : ∀ q c, P.Allow q c → P'.Allow (f q) c)
    (hanswer : ∀ q c r, P'.Answer (f q) c r → P.Answer q c r)
    (hstep : ∀ q c r, f (P.step q c r) = P'.step (f q) c r)
    {post : P.State → Except E α → Prop} {post' : P'.State → Except E α → Prop}
    (hpost : ∀ q x, post q x → post' (f q) x) {p : Program σ E α} (h : Follows P post q p) :
    Follows P' post' (f q) p := by
  induction p generalizing q with
  | pure a => exact hpost q _ h
  | throw e => exact hpost q _ h
  | call c next ih =>
    refine ⟨hallow q c h.1, fun r hr => ?_⟩
    rw [← hstep q c r]
    exact ih r (h.2 r (hanswer q c r hr))

/-- A sequence follows the protocol when its first part does and ends where the second part can
take over. -/
theorem Follows.bind {post : P.State → Except E β → Prop} {p : Program σ E α}
    {f : α → Program σ E β}
    (h : Follows P (fun q x => match x with
      | .ok a => Follows P post q (f a)
      | .error e => post q (.error e)) q p) :
    Follows P post q (p >>= f) := by
  induction p generalizing q with
  | pure a => exact h
  | throw e => exact h
  | call c next ih => exact ⟨h.1, fun r hr => ih r (h.2 r hr)⟩

/-- A program whose result is wrapped up. -/
theorem Follows.wrap {post : P.State → Except E β → Prop} {p : Program σ E α} {f : α → β}
    (h : Follows P (fun q x => post q (x.map f)) q p) :
    Follows P post q (do let a ← p; return f a) := by
  refine Follows.bind (h.mono fun q x hx => ?_)
  cases x with
  | ok a => exact hx
  | error e => exact hx

/-- A program with a handler follows the protocol when it does and ends where the handler can take
over. -/
theorem Follows.catchWith {post : P.State → Except E α → Prop} {p : Program σ E α}
    {handler : E → Program σ E α}
    (h : Follows P (fun q x => match x with
      | .ok a => post q (.ok a)
      | .error e => Follows P post q (handler e)) q p) :
    Follows P post q (p.catchWith handler) := by
  induction p generalizing q with
  | pure a => exact h
  | throw e => exact h
  | call c next ih => exact ⟨h.1, fun r hr => ih r (h.2 r hr)⟩

/-- `Follows.bind` with the assertion between the two parts named. -/
theorem Follows.seq (mid : P.State → α → Prop) {post : P.State → Except E β → Prop}
    {p : Program σ E α} {f : α → Program σ E β}
    (hp : Follows P (fun q x => match x with
      | .ok a => mid q a
      | .error e => post q (.error e)) q p)
    (hf : ∀ q a, mid q a → Follows P post q (f a)) : Follows P post q (p >>= f) := by
  refine Follows.bind (hp.mono fun q x hx => ?_)
  cases x with
  | ok a => exact hf q a hx
  | error e => exact hx

/-- A single command follows the protocol when it is allowed and the state after its reply is
as wanted. -/
theorem Follows.perform {c : σ.Command} {post : P.State → Except E (σ.Reply c) → Prop}
    (hallow : P.Allow q c) (hpost : ∀ r, P.Answer q c r → post (P.step q c r) (.ok r)) :
    Follows P post q (Program.perform c : Program σ E (σ.Reply c)) :=
  ⟨hallow, hpost⟩

/-- A sequence that begins with a command. -/
theorem Follows.perform_bind {c : σ.Command} {post : P.State → Except E β → Prop}
    {f : σ.Reply c → Program σ E β} (hallow : P.Allow q c)
    (hnext : ∀ r, P.Answer q c r → Follows P post (P.step q c r) (f r)) :
    Follows P post q (Program.perform c >>= f) := ⟨hallow, hnext⟩

/-- A sequence that begins with a value or an exception. -/
theorem Follows.ofExcept_bind {x : Except E α} {post : P.State → Except E β → Prop}
    {f : α → Program σ E β} (herror : ∀ e, x = .error e → post q (.error e))
    (hok : ∀ a, x = .ok a → Follows P post q (f a)) : Follows P post q (ofExcept x >>= f) := by
  cases x with
  | ok a => exact hok a rfl
  | error e => exact herror e rfl

/-! ### Programs restricted to some commands -/

/-- Every path of the program issues commands in `C` only. -/
def Only (C : σ.Command → Prop) : Program σ E α → Prop
  | .pure _ => True
  | .throw _ => True
  | .call c next => C c ∧ ∀ r, Only C (next r)

variable {C C' : σ.Command → Prop}

@[simp] theorem only_pure {a : α} : Only C (.pure a : Program σ E α) := trivial

@[simp] theorem only_throw {e : E} : Only C (.throw e : Program σ E α) := trivial

theorem only_perform {c : σ.Command} :
    Only C (Program.perform c : Program σ E (σ.Reply c)) ↔ C c :=
  ⟨fun h => h.1, fun h => ⟨h, fun _ => trivial⟩⟩

theorem Only.perform_bind {c : σ.Command} {f : σ.Reply c → Program σ E β} (hc : C c)
    (hf : ∀ r, Only C (f r)) : Only C (Program.perform c >>= f) := ⟨hc, hf⟩

@[simp] theorem only_ofExcept {x : Except E α} : Only C (ofExcept x : Program σ E α) := by
  cases x <;> trivial

/-- A sequence is restricted when both parts are. -/
theorem Only.bind {p : Program σ E α} {f : α → Program σ E β} (hp : Only C p)
    (hf : ∀ a, Only C (f a)) : Only C (p >>= f) := by
  induction p with
  | pure a => exact hf a
  | throw e => trivial
  | call c next ih => exact ⟨hp.1, fun r => ih r (hp.2 r)⟩

/-- A program with a handler is restricted when both are. -/
theorem Only.catchWith {p : Program σ E α} {handler : E → Program σ E α} (hp : Only C p)
    (hhandler : ∀ e, Only C (handler e)) : Only C (p.catchWith handler) := by
  induction p with
  | pure a => trivial
  | throw e => exact hhandler e
  | call c next ih => exact ⟨hp.1, fun r => ih r (hp.2 r)⟩

/-- A program for each element of a list is restricted when all of them are. -/
theorem Only.mapM {f : α → Program σ E β} (hf : ∀ a, Only C (f a)) (as : List α) :
    Only C (as.mapM f) := by
  induction as with
  | nil => trivial
  | cons a as ih =>
    rw [List.mapM_cons]
    exact (hf a).bind fun b => ih.bind fun bs => trivial

/-- A restriction may be relaxed. -/
theorem Only.mono {p : Program σ E α} (hp : Only C p) (hC : ∀ c, C c → C' c) : Only C' p := by
  induction p with
  | pure a => trivial
  | throw e => trivial
  | call c next ih => exact ⟨hC c hp.1, fun r => ih r (hp.2 r)⟩

/-- Two restrictions hold together. -/
theorem Only.and {p : Program σ E α} (hp : Only C p) (hp' : Only C' p) :
    Only (fun c => C c ∧ C' c) p := by
  induction p with
  | pure a => trivial
  | throw e => trivial
  | call c next ih => exact ⟨⟨hp.1, hp'.1⟩, fun r => ih r (hp.2 r) (hp'.2 r)⟩

/-- A program restricted to commands that are allowed in `q` and lead back to it follows the
protocol and ends in `q`. -/
theorem Only.follows {p : Program σ E α} (hp : Only C p)
    (hC : ∀ c, C c → P.Allow q c ∧ ∀ r, P.step q c r = q) :
    Follows P (fun q' _ => q' = q) q p := by
  induction p with
  | pure a => rfl
  | throw e => rfl
  | call c next ih =>
    obtain ⟨hc, hnext⟩ := hp
    obtain ⟨hallow, hstep⟩ := hC c hc
    refine ⟨hallow, fun r _ => ?_⟩
    rw [hstep r]
    exact ih r (hnext r)

/-- A program restricted to commands that are allowed in every ghost state follows the protocol. -/
theorem Only.follows_allowed {p : Program σ E α} (hp : Only C p)
    (hC : ∀ q c, C c → P.Allow q c) (q : P.State) : Follows P (fun _ _ => True) q p := by
  induction p generalizing q with
  | pure a => trivial
  | throw e => trivial
  | call c next ih => exact ⟨hC q c hp.1, fun r _ => ih r (hp.2 r) _⟩

/-- A program that follows a protocol whatever the replies issues allowed commands only. -/
theorem Follows.only (hanswer : ∀ q c r, P.Answer q c r) (hC : ∀ q c, P.Allow q c → C c)
    {post : P.State → Except E α → Prop} {p : Program σ E α} (h : Follows P post q p) :
    Only C p := by
  induction p generalizing q with
  | pure a => trivial
  | throw e => trivial
  | call c next ih => exact ⟨hC q c h.1, fun r => ih r (h.2 r (hanswer q c r))⟩

/-! ### Programs restricted to some exceptions -/

/-- Every exception that the program raises, whatever the replies, satisfies `R`. -/
def Raises (R : E → Prop) : Program σ E α → Prop
  | .pure _ => True
  | .throw e => R e
  | .call _ next => ∀ r, Raises R (next r)

section Raises

variable {R : E → Prop}

theorem raises_ofExcept {x : Except E α} (h : ∀ e, x = .error e → R e) :
    Raises R (ofExcept x : Program σ E α) := by
  cases x with
  | ok a => trivial
  | error e => exact h e rfl

theorem Raises.perform_bind {c : σ.Command} {f : σ.Reply c → Program σ E β}
    (hf : ∀ r, Raises R (f r)) : Raises R (Program.perform c >>= f) := hf

/-- More exceptions may be reckoned with. -/
theorem Raises.mono {R' : E → Prop} {p : Program σ E α} (hp : Raises R p) (hR : ∀ e, R e → R' e) :
    Raises R' p := by
  induction p with
  | pure a => trivial
  | throw e => exact hR e hp
  | call c next ih => exact fun r => ih r (hp r)

/-- A sequence raises what its parts raise. -/
theorem Raises.bind {p : Program σ E α} {f : α → Program σ E β} (hp : Raises R p)
    (hf : ∀ a, Raises R (f a)) : Raises R (p >>= f) := by
  induction p with
  | pure a => exact hf a
  | throw e => exact hp
  | call c next ih => exact fun r => ih r (hp r)

/-- What a handler raises comes from the exceptions that reach it. -/
theorem Raises.catchWith {R' : E → Prop} {p : Program σ E α} {handler : E → Program σ E α}
    (hp : Raises R' p) (hhandler : ∀ e, R' e → Raises R (handler e)) :
    Raises R (p.catchWith handler) := by
  induction p with
  | pure a => trivial
  | throw e => exact hhandler e hp
  | call c next ih => exact fun r => ih r (hp r)

/-- The exceptions of every run. -/
theorem Raises.exec {m : Machine σ S} {env : S → S → Prop} {p : Program σ E α} (hp : Raises R p)
    {s s' : S} {e : E} (hexec : p.Exec m env s (.error e) s') : R e := by
  generalize houtcome : (Except.error e : Except E α) = x at hexec
  induction hexec with
  | pure => cases houtcome
  | throw =>
    cases houtcome
    exact hp
  | call _ _ ih => exact ih (hp _) houtcome

end Raises

/-- In a run whose replies are the ones reckoned with, what the environment and every allowed
command preserve holds at the end, and so does the postcondition. -/
theorem Exec.invariant {m : Machine σ S} {env : S → S → Prop}
    {post : P.State → Except E α → Prop} {I : P.State → S → Prop}
    (henv : ∀ q s s', env s s' → I q s → I q s')
    (hcall : ∀ q c s, P.Allow q c → I q s →
      P.Answer q c (m c s).1 ∧ I (P.step q c (m c s).1) (m c s).2)
    {p : Program σ E α} {s s' : S} {x : Except E α} (hexec : p.Exec m env s x s')
    (hp : Follows P post q p) (hI : I q s) : ∃ q', post q' x ∧ I q' s' := by
  induction hexec generalizing q with
  | pure => exact ⟨q, hp, hI⟩
  | throw => exact ⟨q, hp, hI⟩
  | call hs _ ih =>
    obtain ⟨hanswer, hI'⟩ := hcall q _ _ hp.1 (henv q _ _ hs hI)
    exact ih (hp.2 _ hanswer) hI'

end Program

end Interaction
