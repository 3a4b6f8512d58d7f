import SessionManager.Interaction.Wp

/-!
# Commands that fail

A program may end early because one of its commands fails: the earlier commands have taken effect,
the failing one has not.

* `Program.Breaks` — the command at which a program may break off, and the state it leaves.
* `Program.Always` — an assertion about every command and the state it is issued in, by recursion
  over the program; `always_iff` says that this is what holds wherever the program breaks off.
* `Always.bind`, `Always.of_only` — the rules for sequences and for restricted programs.
* `Program.commandAt` — the command at one position, for evaluating a broken run.
-/

namespace Interaction

namespace Program

variable {σ : Signature} {E α β S : Type}

/-- From `s` the program can get to command `c` in state `s'`, when the state may move along `env`
before each command. -/
inductive Breaks (m : Machine σ S) (env : S → S → Prop) :
    Program σ E α → S → σ.Command → S → Prop
  | here {c next s s₁} : env s s₁ → Breaks m env (.call c next) s c s₁
  | later {c next s s₁ c' s'} : env s s₁ → Breaks m env (next (m c s₁).1) (m c s₁).2 c' s' →
      Breaks m env (.call c next) s c' s'

/-- `A c s'` holds of every command `c` that the program issues, in the state `s'` it meets. -/
def Always (m : Machine σ S) (env : S → S → Prop) (A : σ.Command → S → Prop) :
    Program σ E α → S → Prop
  | .pure _, _ => True
  | .throw _, _ => True
  | .call c next, s => ∀ s₁, env s s₁ → A c s₁ ∧ Always m env A (next (m c s₁).1) (m c s₁).2

variable {m : Machine σ S} {env : S → S → Prop} {A : σ.Command → S → Prop}

/-- What always holds is what holds wherever the program breaks off. -/
theorem always_iff {p : Program σ E α} {s : S} :
    Always m env A p s ↔ ∀ c s', p.Breaks m env s c s' → A c s' := by
  induction p generalizing s with
  | pure a =>
    refine ⟨fun _ c s' hbreaks => ?_, fun _ => trivial⟩
    cases hbreaks
  | throw e =>
    refine ⟨fun _ c s' hbreaks => ?_, fun _ => trivial⟩
    cases hbreaks
  | call c next ih =>
    constructor
    · intro h c' s' hbreaks
      cases hbreaks with
      | here hs => exact (h _ hs).1
      | later hs hrest => exact (ih _).mp (h _ hs).2 _ _ hrest
    · exact fun h s₁ hs => ⟨h _ _ (.here hs), (ih _).mpr fun c' s' hrest => h _ _ (.later hs hrest)⟩

/-- What always holds, at one broken run. -/
theorem Always.breaks {p : Program σ E α} {s s' : S} {c : σ.Command} (h : Always m env A p s)
    (hbreaks : p.Breaks m env s c s') : A c s' := always_iff.mp h c s' hbreaks

/-- A sequence: the second part starts where the first one returned. -/
theorem Always.bind (mid : α → S → Prop) {p : Program σ E α} {f : α → Program σ E β} {s : S}
    (hp : Always m env A p s) (hmid : Wp m env p (fun x s' => ∀ a, x = .ok a → mid a s') s)
    (hf : ∀ a s', mid a s' → Always m env A (f a) s') : Always m env A (p >>= f) s := by
  induction p generalizing s with
  | pure a => exact hf a s (hmid a rfl)
  | throw e => trivial
  | call c next ih =>
    intro s₁ hs
    obtain ⟨hA, hrest⟩ := hp s₁ hs
    exact ⟨hA, ih _ hrest (hmid s₁ hs)⟩

/-- A program whose commands keep an invariant, which gives the assertion. -/
theorem Always.of_only {C : σ.Command → Prop} {I : S → Prop} {p : Program σ E α} {s : S}
    (hp : Only C p) (henv : ∀ s s', env s s' → I s → I s')
    (hC : ∀ c s, C c → I s → I (m c s).2) (hA : ∀ c s, C c → I s → A c s) (hI : I s) :
    Always m env A p s := by
  induction p generalizing s with
  | pure a => trivial
  | throw e => trivial
  | call c next ih =>
    intro s₁ hs
    have hI₁ : I s₁ := henv s s₁ hs hI
    exact ⟨hA c s₁ hp.1 hI₁, ih _ (hp.2 _) (hC c s₁ hp.1 hI₁)⟩

/-- A sequence that begins with a command. -/
theorem always_perform_bind {c : σ.Command} {f : σ.Reply c → Program σ E β} {s : S} :
    Always m env A (perform c >>= f) s ↔
      ∀ s₁, env s s₁ → A c s₁ ∧ Always m env A (f (m c s₁).1) (m c s₁).2 := Iff.rfl

/-- The command at position `n` and the state it meets, when nothing else moves the state. -/
def commandAt (m : Machine σ S) : ℕ → Program σ E α → S → Option (σ.Command × S)
  | 0, .call c _, s => some (c, s)
  | n + 1, .call c next, s => commandAt m n (next (m c s).1) (m c s).2
  | _, .pure _, _ => none
  | _, .throw _, _ => none

/-- The program may break off at any position. -/
theorem breaks_of_commandAt (henv : ∀ s, env s s) {n : ℕ} {p : Program σ E α} {s s' : S}
    {c : σ.Command} (h : commandAt m n p s = some (c, s')) : p.Breaks m env s c s' := by
  induction n generalizing p s with
  | zero =>
    cases p with
    | call c₀ next =>
      cases h
      exact .here (henv _)
    | pure a => cases h
    | throw e => cases h
  | succ n ih =>
    cases p with
    | call c₀ next => exact .later (henv s) (ih h)
    | pure a => cases h
    | throw e => cases h

end Program

end Interaction
