import SessionManager.Footprint
import SessionManager.TokenCheck

/-!
# Rotation of refresh tokens

Any number of `refresh_token` calls present the refresh token of one `jti`. A call accepts the
token when its `GET jti:{old}` hits, and revokes it with a later `DEL`; in between another call
can accept the same token.

* `Stage`, `rotation` — how far a call has come, as a protocol that `refreshToken` follows.
* `Exclusive` — the condition under which rotation is single-use: no call reads the old mapping
  while another one is between its own hit and its `DEL`.
* `Rotation` — the invariant of a pool of calls that meets the condition.
-/

namespace SessionManager

open Python Interaction

namespace TokenRotation

/-- How far a call has come with the `jti` it was presented. -/
inductive Stage where
  /-- The mapping has not been found yet. -/
  | checking
  /-- The mapping was found and not deleted yet. -/
  | between
  /-- The mapping was deleted by this call. -/
  | revoked
  /-- The new mapping is stored. -/
  | issued
  deriving DecidableEq

/-- The stage after an answered command. -/
def Stage.next (old : String) : Stage → (c : Command) → c.Reply → Stage
  | .checking, .get (.jti j), reply =>
    if j = old ∧ (nonEmpty reply).isSome then .between else .checking
  | .between, .del (.jti j), _ => if j = old then .revoked else .between
  | .revoked, .setex (.jti _) _ _, _ => .issued
  | stage, _, _ => stage

/-- The commands of a call that is to replace `old` by `new`. -/
def Stage.Allows (old new : String) : Stage → Command → Prop
  | .checking, c => c.changes = none
  | .between, c => c = .del (.jti old) ∨ ∀ j, c.changes ≠ some (.jti j)
  | .revoked, c => ∃ seconds k, c = .setex (.jti new) seconds k
  | .issued, c => c.changes = none

/-- The protocol of one call. -/
def rotation (old new : String) : Protocol redis where
  State := Stage
  Allow := Stage.Allows old new
  step := Stage.next old

/-- A call that returns has stored the new mapping. -/
def Ends {α : Type} (stage : Stage) (outcome : Except ServiceError α) : Prop :=
  ∀ a, outcome = .ok a → stage = .issued

/-! ### The program follows the protocol -/

section Follows

open Program hiding pure

variable {old new : String}

/-- A command that changes no `jti` keeps a call between its two steps. -/
theorem next_between {c : Command} (h : ∀ j, c.changes ≠ some (.jti j)) (r : c.Reply) :
    Stage.next old .between c r = .between := by
  unfold Stage.next
  split
  · contradiction
  · rename_i j _ hc
    cases hc
    exact absurd rfl (h j)
  · contradiction
  · rfl

/-- A program on one session keeps a call between its two steps. -/
theorem follows_within {α : Type} {k : String} {p : Svc α} (h : WithinSession k p) :
    p.Follows (rotation old new) (fun stage _ => stage = Stage.between) Stage.between := by
  apply h.follows
  intro c hc
  have hjti (j : String) : c.changes ≠ some (.jti j) := fun heq => hc.changes heq
  exact ⟨.inr hjti, fun r => next_between hjti r⟩

theorem follows_rotate (cfg : Config) (payload : Payload) (k : String) :
    (AuthService.rotate cfg new payload old k).Follows (rotation old new) Ends
      Stage.between := by
  have hnow : (rotation old new).Allow Stage.between .now := .inr (by simp [Command.changes])
  have hdel : Stage.next old .between (.del (.jti old)) () = .revoked := by simp [Stage.next]
  refine Follows.seq (fun stage _ => stage = Stage.between)
    ((follows_within (SessionRepository.refreshTtl_within cfg k)).mono fun stage x h => ?_) ?_
  · cases x with
    | ok session => exact h
    | error e => rintro a ⟨⟩
  · rintro stage session rfl
    -- the clock is read twice for each of the two tokens
    refine ⟨hnow, fun _ _ => ⟨hnow, fun _ _ => ⟨hnow, fun _ _ => ⟨hnow, fun _ _ => ?_⟩⟩⟩⟩
    refine ⟨.inl rfl, fun _ _ => ?_⟩
    show Follows (rotation old new) Ends (Stage.next old .between (.del (.jti old)) ()) _
    rw [hdel]
    exact ⟨⟨_, _, rfl⟩, fun _ _ => ⟨rfl, fun _ _ _ _ => rfl⟩⟩

/-- A look-up that finds the session leads a call to the stage between `GET` and `DEL`. -/
theorem follows_sessionOfJti {α : Type} {f : String → Svc α}
    (hf : ∀ k, (f k).Follows (rotation old new) Ends Stage.between) :
    (sessionOfJti old >>= f).Follows (rotation old new) Ends Stage.checking := by
  rw [sessionOfJti_bind]
  refine .perform_bind rfl fun reply _ => ?_
  cases hreply : nonEmpty reply with
  | none => rintro a ⟨⟩
  | some k =>
    have hnext : Stage.next old .checking (.get (.jti old)) reply = .between := by
      simp [Stage.next, hreply]
    show Follows (rotation old new) Ends (Stage.next old .checking (.get (.jti old)) reply) (f k)
    rw [hnext]
    exact hf k

/-- A call whose token names `old` follows the protocol. -/
theorem follows_refreshToken (cfg : Config) {payload : Payload}
    (hclaim : payload.jtiClaim = some old) :
    (AuthService.refreshToken cfg new (.signed payload)).Follows (rotation old new) Ends
      Stage.checking := by
  unfold AuthService.refreshToken
  rw [authenticate_signed]
  simp only [bind_assoc, pure_bind]
  refine .perform_bind rfl fun now _ => .ofExcept_bind (fun e _ => ?_) fun jti hjti => ?_
  · rintro a ⟨⟩
  · obtain rfl : jti = old := by
      have := (acceptedJti_eq_ok.mp hjti).2.2.2
      rw [hclaim] at this
      exact (Option.some.inj this).symm
    exact follows_sessionOfJti fun k => follows_rotate cfg payload k

end Follows

/-! ### A pool of calls -/

/-- What an allowed command does: it leaves the stage and every mapping alone, or it is one of
the three that take a call to its next stage. -/
theorem next_cases {old new : String} {stage : Stage} {c : Command}
    (hallow : stage.Allows old new c) (w : World) :
    (stage.next old c (machine c w).1 = stage ∧ ∀ j, c.changes ≠ some (.jti j)) ∨
    (stage = .checking ∧ c = .get (.jti old) ∧ (w.jti old).isSome ∧
      stage.next old c (machine c w).1 = .between) ∨
    (stage = .between ∧ c = .del (.jti old) ∧ stage.next old c (machine c w).1 = .revoked) ∨
    (stage = .revoked ∧ (∃ seconds k, c = .setex (.jti new) seconds k) ∧
      stage.next old c (machine c w).1 = .issued) := by
  cases stage with
  | checking =>
    -- before the look at the old `jti` nothing is written
    have hquiet (j : String) : c.changes ≠ some (.jti j) := by
      rw [show c.changes = none from hallow]
      exact nofun
    by_cases hhit : c = .get (.jti old) ∧ (nonEmpty (w.jti old)).isSome
    · obtain ⟨rfl, hsome⟩ := hhit
      have hthere : (w.jti old).isSome := by
        cases hjti : w.jti old with
        | none => simp [hjti, nonEmpty] at hsome
        | some k => rfl
      refine .inr (.inl ⟨rfl, rfl, hthere, ?_⟩)
      show (if old = old ∧ (nonEmpty (w.jti old)).isSome then Stage.between else .checking) = _
      simp [hsome]
    · refine .inl ⟨?_, hquiet⟩
      unfold Stage.next
      split
      · rename_i hc
        cases hc
        rw [if_neg]
        rintro ⟨rfl, hsome⟩
        exact hhit ⟨rfl, hsome⟩
      · contradiction
      · contradiction
      · rfl
  | between =>
    rcases hallow with rfl | hquiet
    · exact .inr (.inr (.inl ⟨rfl, rfl, by simp [Stage.next]⟩))
    · exact .inl ⟨next_between hquiet _, hquiet⟩
  | revoked =>
    obtain ⟨seconds, k, rfl⟩ := hallow
    exact .inr (.inr (.inr ⟨rfl, ⟨seconds, k, rfl⟩, rfl⟩))
  | issued =>
    refine .inl ⟨by cases c <;> rfl, fun j => ?_⟩
    rw [show c.changes = none from hallow]
    exact nofun

section Pool

variable {ι : Type} [DecidableEq ι]

/-- The calls and the world they run in. -/
abbrev Calls (ι : Type) := Pool redis ServiceError TokenRefreshResponse World ι

/-- The stage of call `i`. -/
def stage (old : String) (p : Calls ι) (i : ι) : Stage :=
  (p.threads i).log.foldl (fun stage e => stage.next old e.1 e.2) .checking

/-- Before a call finds the old mapping, every other call that found it has deleted it. -/
def Exclusive (old : String) (p : Calls ι) (l : Label redis ι) : Prop :=
  ∀ i, l = .call i (.get (.jti old)) → (p.state.jti old).isSome →
    ∀ j, j ≠ i → stage old p j ≠ .between

/-- The invariant of a pool of calls that present `old`, a `jti` of session `k`. -/
structure Rotation (old k : String) (new : ι → String) (p : Calls ι) : Prop where
  /-- Each call follows its protocol. -/
  conforms : p.Conforms (fun i => rotation old (new i)) (fun _ => Stage.checking) (fun _ => Ends)
  /-- At most one call has found the old mapping. -/
  unique : ∀ i j, stage old p i ≠ .checking → stage old p j ≠ .checking → i = j
  /-- Once it has been deleted the old mapping is gone. -/
  gone : ∀ i, stage old p i = .revoked ∨ stage old p i = .issued → p.state.store (.jti old) = none
  /-- A live mapping to the session is the old one or one that a call has issued. -/
  live : ∀ j, p.state.jti j = some k → j = old ∨ ∃ i, stage old p i = .issued ∧ j = new i

variable {old k : String} {new : ι → String}

@[simp] theorem stage_answered_same (p : Calls ι) (i : ι) (c : Command)
    (next : c.Reply → Svc TokenRefreshResponse) :
    stage old (p.answered machine i c next) i =
      (stage old p i).next old c (machine c p.state).1 := by
  simp [stage]

theorem stage_answered_other (p : Calls ι) {i j : ι} (h : j ≠ i) (c : Command)
    (next : c.Reply → Svc TokenRefreshResponse) :
    stage old (p.answered machine i c next) j = stage old p j := by
  simp [stage, h]

omit [DecidableEq ι] in
theorem rotation_start (cfg : Config) {payload : Payload} (hclaim : payload.jtiClaim = some old)
    {w : World} (hone : ∀ j, w.jti j = some k → j = old) :
    Rotation old k new
      (Pool.start (fun i => AuthService.refreshToken cfg (new i) (.signed payload)) w) where
  conforms := Pool.conforms_start fun i => follows_refreshToken cfg hclaim
  unique i j hi _ := absurd rfl hi
  gone i h := by rcases h with h | h <;> cases h
  live j hj := .inl (hone j hj)

section Answered

variable {p : Calls ι} {i : ι} {c : Command} {next : c.Reply → Svc TokenRefreshResponse}

/-- A command that does not change a mapping shows it unchanged. -/
theorem jti_answered {j : String} (hquiet : c.changes ≠ some (.jti j)) :
    (p.answered machine i c next).state.jti j = p.state.jti j := by
  rw [Pool.answered_state, World.jti_of_ne hquiet]

/-- When the stage of call `i` stays, so do all stages. -/
theorem stage_answered (hstage : (stage old p i).next old c (machine c p.state).1 = stage old p i)
    (j : ι) : stage old (p.answered machine i c next) j = stage old p j := by
  by_cases hj : j = i
  · rw [hj, stage_answered_same, hstage]
  · exact stage_answered_other p hj c next

/-- A command that changes no mapping and no stage. -/
theorem Rotation.quiet (h : Rotation old k new p) (hprog : (p.threads i).prog = .call c next)
    (hstage : (stage old p i).next old c (machine c p.state).1 = stage old p i)
    (hquiet : ∀ j, c.changes ≠ some (.jti j)) :
    Rotation old k new (p.answered machine i c next) where
  conforms := h.conforms.answered hprog trivial
  unique a b ha hb := by
    rw [stage_answered hstage] at ha hb
    exact h.unique a b ha hb
  gone a ha := by
    rw [stage_answered hstage] at ha
    rw [Pool.answered_state, machine_store_of_ne (hquiet old)]
    exact h.gone a ha
  live j hj := by
    rw [jti_answered (hquiet j)] at hj
    simpa only [stage_answered hstage] using h.live j hj

/-- A step of the only call that is past its `GET` leaves no other call past it. -/
theorem past_answered (hothers : ∀ j, j ≠ i → stage old p j = .checking) {j : ι}
    (hj : stage old (p.answered machine i c next) j ≠ .checking) : j = i := by
  by_contra hne
  rw [stage_answered_other p hne] at hj
  exact hj (hothers j hne)

/-- The `GET` that finds the old mapping. -/
theorem Rotation.found (h : Rotation old k new p) (hprog : (p.threads i).prog = .call c next)
    (hguard : Exclusive old p (.call i c)) (hc : c = .get (.jti old))
    (hlive : (p.state.jti old).isSome) (hchecking : stage old p i = .checking)
    (hnext : (stage old p i).next old c (machine c p.state).1 = .between) :
    Rotation old k new (p.answered machine i c next) := by
  have hquiet (j : String) : c.changes ≠ some (.jti j) := by simp [hc, Command.changes]
  -- the other calls cannot be past the `GET`: the mapping is still there, and none is between
  have hothers (j : ι) (hj : j ≠ i) : stage old p j = .checking := by
    have hbetween := hguard i (by rw [hc]) hlive j hj
    have hgone : ¬ (stage old p j = .revoked ∨ stage old p j = .issued) := by
      intro hdone
      simp [World.jti, TtlStore.get, TtlStore.lookup, h.gone j hdone] at hlive
    cases hstage : stage old p j <;> simp [hstage] at hbetween hgone ⊢
  refine ⟨h.conforms.answered hprog trivial, fun a b ha hb => ?_, fun a ha => ?_, fun j hj => ?_⟩
  · rw [past_answered hothers ha, past_answered hothers hb]
  · have hpast : stage old (p.answered machine i c next) a ≠ .checking := by
      rcases ha with ha | ha <;> simp [ha]
    rw [past_answered hothers hpast, stage_answered_same, hnext] at ha
    rcases ha with ha | ha <;> cases ha
  · rw [jti_answered (hquiet j)] at hj
    rcases h.live j hj with hold | ⟨a, ha, -⟩
    · exact .inl hold
    · by_cases hai : a = i
      · rw [hai, hchecking] at ha
        cases ha
      · rw [hothers a hai] at ha
        cases ha

/-- The `DEL` of the old mapping. -/
theorem Rotation.deleted (h : Rotation old k new p) (hprog : (p.threads i).prog = .call c next)
    (hc : c = .del (.jti old)) (hbetween : stage old p i = .between)
    (hnext : (stage old p i).next old c (machine c p.state).1 = .revoked) :
    Rotation old k new (p.answered machine i c next) := by
  have hothers (j : ι) (hj : j ≠ i) : stage old p j = .checking := by
    by_contra hpast
    exact hj (h.unique j i hpast (by simp [hbetween]))
  have hgone : (p.answered machine i c next).state.store (.jti old) = none := by
    subst hc
    exact TtlStore.del_apply_self _ _
  refine ⟨h.conforms.answered hprog trivial, fun a b ha hb => ?_, fun _ _ => hgone, fun j hj => ?_⟩
  · rw [past_answered hothers ha, past_answered hothers hb]
  · by_cases hold : j = old
    · exact .inl hold
    · -- another mapping is as it was, and no call had issued one
      have hquiet : c.changes ≠ some (.jti j) := by
        simpa [hc, Command.changes] using fun e => hold e.symm
      have hj' : p.state.jti j = some k := by rwa [jti_answered hquiet] at hj
      rcases h.live j hj' with hold' | ⟨a, ha, -⟩
      · exact absurd hold' hold
      · have hai : a = i := h.unique a i (by simp [ha]) (by simp [hbetween])
        rw [hai, hbetween] at ha
        cases ha

/-- The `SETEX` of the new mapping. -/
theorem Rotation.stored (hfresh : ∀ i, new i ≠ old) (h : Rotation old k new p)
    (hprog : (p.threads i).prog = .call c next)
    (hc : ∃ seconds k', c = .setex (.jti (new i)) seconds k') (hrevoked : stage old p i = .revoked)
    (hnext : (stage old p i).next old c (machine c p.state).1 = .issued) :
    Rotation old k new (p.answered machine i c next) := by
  obtain ⟨seconds, k', hc⟩ := hc
  -- the others have not got past the look, since the old `jti` was there once only
  have hothers (j : ι) (hj : j ≠ i) : stage old p j = .checking := by
    by_contra hpast
    exact hj (h.unique j i hpast (by simp [hrevoked]))
  have hold : c.changes ≠ some (.jti old) := by simpa [hc, Command.changes] using hfresh i
  have hgone : (p.answered machine i c next).state.store (.jti old) = none := by
    rw [Pool.answered_state, machine_store_of_ne hold]
    exact h.gone i (.inl hrevoked)
  refine ⟨h.conforms.answered hprog trivial, fun a b ha hb => ?_, fun _ _ => hgone, fun j hj => ?_⟩
  · rw [past_answered hothers ha, past_answered hothers hb]
  · by_cases hnew : j = new i
    · exact .inr ⟨i, by rw [stage_answered_same, hnext], hnew⟩
    · have hquiet : c.changes ≠ some (.jti j) := by
        simpa [hc, Command.changes] using fun e => hnew e.symm
      have hj' : p.state.jti j = some k := by rwa [jti_answered hquiet] at hj
      rcases h.live j hj' with hold' | ⟨a, ha, -⟩
      · exact .inl hold'
      · have hai : a = i := h.unique a i (by simp [ha]) (by simp [hrevoked])
        rw [hai, hrevoked] at ha
        cases ha

end Answered

/-- Every step that meets the condition keeps the invariant. -/
theorem Rotation.step (hfresh : ∀ i, new i ≠ old) {p q : Calls ι} {l : Label redis ι}
    (h : Rotation old k new p) (hguard : Exclusive old p l)
    (hstep : Pool.Step machine World.Elapses p l q) : Rotation old k new q := by
  cases hstep with
  | call hprog _ =>
    rcases next_cases (h.conforms.allow hprog) p.state with
      ⟨hstage, hquiet⟩ | ⟨hchecking, hc, hlive, hnext⟩ | ⟨hbetween, hc, hnext⟩ |
        ⟨hrevoked, hc, hnext⟩
    · exact h.quiet hprog hstage hquiet
    · exact h.found hprog hguard hc hlive hchecking hnext
    · exact h.deleted hprog hc hbetween hnext
    · exact h.stored hfresh hprog hc hrevoked hnext
  | env helapse =>
    refine ⟨h.conforms, h.unique, fun i hi => ?_, fun j hj => h.live j (helapse.get hj)⟩
    rw [helapse.store_eq]
    exact h.gone i hi
  | stop =>
    refine ⟨fun j => by simpa using h.conforms j, fun a b ha hb => ?_, fun a ha => ?_,
      fun j hj => ?_⟩ <;> simp only [stage, Pool.halted_log, Pool.halted_state] at *
    · exact h.unique a b ha hb
    · exact h.gone a ha
    · exact h.live j hj

/-- Refresh-token rotation is single-use in every run in which no call reads the old mapping while
another one is between its `GET` and its `DEL`: at most one call returns tokens, and at most one
mapping to the session is live. -/
theorem refreshToken_singleUse (cfg : Config) {payload : Payload} {old k : String}
    {new : ι → String} {w : World} {p : Calls ι} (hclaim : payload.jtiClaim = some old)
    (hone : ∀ j, w.jti j = some k ↔ j = old)
    (hfresh : ∀ i, new i ≠ old)
    (hrun : Pool.Run machine World.Elapses (Exclusive old)
      (Pool.start (fun i => AuthService.refreshToken cfg (new i) (.signed payload)) w) p) :
    (∀ i j r r', (p.threads i).Returned r → (p.threads j).Returned r' → i = j) ∧
      ((∀ i, (p.threads i).Finished) →
        ∀ j j', p.state.jti j = some k → p.state.jti j' = some k → j = j') := by
  have hinv : Rotation old k new p :=
    hrun.invariant (Rotation old k new) (fun _ _ _ h hg hs => h.step hfresh hg hs)
      (rotation_start cfg hclaim fun j => (hone j).mp)
  -- whoever returns has issued a token
  have hissued (i : ι) (r : TokenRefreshResponse) (hret : (p.threads i).Returned r) :
      stage old p i = .issued := hinv.conforms.returned hret r rfl
  refine ⟨fun i j r r' hi hj => ?_, fun _ j j' hj hj' => ?_⟩
  · exact hinv.unique i j (by simp [hissued i r hi]) (by simp [hissued j r' hj])
  · -- the old mapping is gone as soon as a new one is issued
    have hexclusive (i : ι) (hi : stage old p i = .issued) : p.state.jti old ≠ some k := by
      simp [World.jti, TtlStore.get, TtlStore.lookup, hinv.gone i (.inr hi)]
    rcases hinv.live j hj with rfl | ⟨a, ha, rfl⟩ <;>
      rcases hinv.live j' hj' with rfl | ⟨b, hb, rfl⟩
    · rfl
    · exact absurd hj (hexclusive b hb)
    · exact absurd hj' (hexclusive a ha)
    · rw [hinv.unique a b (by simp [ha]) (by simp [hb])]

end Pool

/-! ### Two calls at once -/

/-- The store after one session was created in an empty one. -/
def opened : World :=
  ((SessionService.createSession .default "gsess_1" "jti_0" {}).run machine (.init 0)).2

/-- The claims of the refresh token that the creation returned. -/
def presented : Payload := tokenPayload "jti_0" "" "refresh" 330 0 0

/-- Two calls that present it. -/
def twoCalls : Calls Bool :=
  Pool.start (fun i => AuthService.refreshToken .default (if i then "jti_1" else "jti_2")
    (.signed presented)) opened

theorem opened_jti (j : String) : opened.jti j = some "gsess_1" ↔ j = "jti_0" := by
  have hstore : opened.store =
      (((TtlStore.empty : Store).setex (.jti "jti_0") 300000 "gsess_1").upsert 0
        (.session "gsess_1") fun old => (old.getD Hash.empty).merge
          (SessionRepository.created .default (SessionService.createArgs {} "gsess_1") 0)).expire
        0 (.session "gsess_1") 300000 := rfl
  constructor
  · intro hj
    by_contra hne
    have hnone : opened.store (.jti j) = none := by
      rw [hstore, TtlStore.expire_apply_of_ne (by simp), TtlStore.upsert_apply_of_ne (by simp),
        TtlStore.setex_apply_of_ne (by simpa using hne)]
      rfl
    simp [World.jti, TtlStore.get, TtlStore.lookup, hnone] at hj
  · rintro rfl
    rfl

/-- One call after the other. -/
def oneAfterTheOther : Calls Bool :=
  (twoCalls.schedule machine (List.replicate 15 true)).schedule machine (List.replicate 15 false)

/-- The first one ends before the second one begins. -/
theorem run_oneAfterTheOther :
    Pool.Run machine World.Elapses (Exclusive "jti_0") twoCalls oneAfterTheOther := by
  have hfirst : Pool.Run machine World.Elapses (Exclusive "jti_0") twoCalls
      (twoCalls.schedule machine (List.replicate 15 true)) := by
    apply Pool.run_schedule_alone
    rintro q hq c i heq - j hj
    cases heq
    unfold stage
    rw [hq j hj]
    exact nofun
  have hissued : stage "jti_0" (twoCalls.schedule machine (List.replicate 15 true)) true =
      .issued := rfl
  refine hfirst.trans (Pool.run_schedule_alone ?_ 15)
  rintro q hq c i heq - j hj
  cases heq
  obtain rfl : j = true := by simpa using hj
  -- the first call does not move any more
  have hstage : stage "jti_0" q true = .issued := by
    rw [← hissued, stage, stage, hq true hj]
  rw [hstage]
  exact nofun

/-- The first call returns tokens, and the second one is refused. -/
theorem refreshToken_singleUse_sequential :
    (∃ r, (oneAfterTheOther.threads true).Returned r) ∧
      (oneAfterTheOther.threads false).prog = .throw (.http 401 "Token expired or invalid") ∧
      (∀ i j r r', (oneAfterTheOther.threads i).Returned r →
        (oneAfterTheOther.threads j).Returned r' → i = j) ∧
      ((∀ i, (oneAfterTheOther.threads i).Finished) →
        ∀ j j', oneAfterTheOther.state.jti j = some "gsess_1" →
          oneAfterTheOther.state.jti j' = some "gsess_1" → j = j') :=
  ⟨⟨_, rfl⟩, rfl, refreshToken_singleUse .default rfl opened_jti (fun i => by cases i <;> decide)
    run_oneAfterTheOther⟩

/-- Both calls look the mapping up before either deletes it: both return tokens, and two mappings
to the session are live. -/
theorem refreshToken_twice :
    let p := twoCalls.schedule machine
      ([true, true, false, false] ++ List.replicate 15 true ++ List.replicate 15 false)
    Pool.Run machine World.Elapses (fun _ _ => True) twoCalls p ∧
      (∃ r, (p.threads true).Returned r) ∧ (∃ r, (p.threads false).Returned r) ∧
      p.state.jti "jti_1" = some "gsess_1" ∧ p.state.jti "jti_2" = some "gsess_1" :=
  ⟨Pool.run_schedule _ _, ⟨_, rfl⟩, ⟨_, rfl⟩, rfl, rfl⟩

end TokenRotation

end SessionManager
