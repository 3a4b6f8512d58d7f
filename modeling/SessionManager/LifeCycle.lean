import SessionManager.SessionEffects
import SessionManager.SoundStore

/-!
# The life cycle of a session

`SessionPolicy` says which changes of `session_state` are allowed, and that `end` is final. No
service consults it: a patch stores any state that it carries. Stored states follow the policy
exactly when the patches do.

* `state`, `trace` — the stored state, and the states that a run of requests goes through.
* `FollowsPolicy` — the policy holds throughout a run.
* `Obeys` — a patch that is stored carries the state that it finds or an allowed one.
* `followsPolicy_iff` — a run follows the policy exactly when its patches obey it.
-/

namespace SessionManager

open Python Interaction
open SessionService SessionPolicy

open Program hiding pure

namespace LifeCycle

/-- The stored state of session `k`. -/
def state (w : World) (k : String) : Option SessionState :=
  (w.field k .sessionState).bind (ofValue? SessionState)

/-- The states of session `k` before and after each request. -/
def trace (k : String) (served : List Served) : List (Option SessionState) :=
  served.flatMap fun s => [state s.before k, state s.after k]

/-- The policy holds on session `k` throughout a run. -/
structure FollowsPolicy (k : String) (served : List Served) : Prop where
  /-- A patch that changes the stored state makes an allowed transition. -/
  transitions : ∀ s ∈ served, ∀ request, s.request = .patchSessionState request →
    ∀ a b, state s.before k = some a → state s.after k = some b → a ≠ b → canTransition a b
  /-- A session that has ended stays so. -/
  absorbing : (trace k served).Pairwise fun a b => a = some .end_ → b = some .end_

/-- A patch of session `k` with valid reference information carries no state, the stored one or one
that the policy allows after it. -/
def Obeys (k : String) (s : Served) : Prop :=
  ∀ request, s.request = .patchSessionState request → request.globalSessionKey = k →
    validatePatch request = .ok () → ∀ a b, state s.before k = some a →
      request.sessionState = some b → a ≠ b → canTransition a b

/-- What a request does to the state: it is accepted when it is valid, and the state that is sent
replaces the stored one. -/
structure Stepped (k : String) (s : Served) : Prop where
  after : state s.after k = ((s.effect? k).bind Effect.state?).or (state s.before k)
  accepted : ∀ request, s.request = .patchSessionState request → request.globalSessionKey = k →
    (s.effect? k = some (.patch request) ↔ validatePatch request = .ok ())

variable {cfg : Config} {within between : World → World → Prop} {k : String}

/-- A live session has an entry. -/
theorem entry_of_live {w : World} (hlive : (w.hash k).isSome) :
    ∃ e : TtlStore.Entry Hash, w.entry (.session k) = some e := by
  rw [World.hash_eq_entry, Option.isSome_map] at hlive
  exact Option.isSome_iff_exists.mp hlive

/-- The stored state after an effect. -/
theorem state_of_leaves {e : TtlStore.Entry Hash} {w w' : World} {effect : Option Effect}
    (he : w.entry (.session k) = some e) (hleaves : Leaves k e effect w') :
    state w' k = (effect.bind Effect.state?).or (state w k) := by
  obtain ⟨e', he', hafter⟩ := hleaves
  have hfield := hafter .sessionState (by decide)
  unfold state World.field
  rw [World.hash_of_entry he, World.hash_of_entry he', Option.bind_some, Option.bind_some, hfield]
  rcases effect with _ | request | _ | turn
  · rfl
  · show ((request.sessionState.map value).or _).bind _ = request.sessionState.or _
    cases request.sessionState with
    | none => rfl
    | some b => simp
  · simp [Effect.writes, Effect.state?]
  · rfl

/-- A session keeps its state while it does not expire. -/
theorem state_of_keeps {w w' : World} (h : World.Keeps (.session k) w w') :
    state w' k = state w k := by
  unfold state
  rw [h.field]

/-- A valid patch of a live session is accepted, an invalid one is not. -/
theorem patchSessionState_accepted (hwithin : ∀ w w', within w w' → World.Keeps (.session k) w w')
    {request : SessionPatchRequest} (hk : request.globalSessionKey = k) {e : TtlStore.Entry Hash}
    {w : World} (he : w.entry (.session k) = some e) (hsound : w.Sound fun _ => True) :
    ((Request.patchSessionState request).program cfg).Wp machine within (fun outcome _ =>
      (Request.patchSessionState request).effect? k outcome = some (.patch request) ↔
        validatePatch request = .ok ()) w := by
  have hmappings : MappingsOk e.value := fun stored hstored => by
    have hok : e.value.Ok fun _ => True := hsound.hash (World.hash_of_entry he)
    obtain ⟨mappings, heq, -⟩ := hok .agentMappings stored hstored
    exact ⟨mappings, heq⟩
  refine wp_map.mpr ((patchSessionState_leaves hwithin request hk he).mono fun x w' h => ?_)
  cases x with
  | ok response => exact ⟨fun _ => h.2, fun _ => if_pos hk⟩
  | error err => exact ⟨nofun, fun hvalid => absurd hmappings (h.2 hvalid)⟩

/-- Every request that is served on a live session. -/
theorem stepped (hwithin : ∀ w w', within w w' → World.Keeps (.session k) w w')
    (request : Request) {w : World} (hlive : (w.hash k).isSome) (hsound : w.Sound fun _ => True) :
    (request.program cfg).Wp machine within (fun outcome w' =>
      Stepped k ⟨request, outcome, w, w'⟩ ∧ (w'.hash k).isSome ∧ w'.Sound fun _ => True) w := by
  obtain ⟨e, he⟩ := entry_of_live hlive
  have helapses (w w' : World) (h : within w w') : w.Elapses w' := (hwithin w w' h).1
  rw [wp_iff_exec]
  intro outcome w' hexec
  have hleaves := (request.leaves hwithin he).exec hexec
  refine ⟨⟨state_of_leaves he hleaves, ?_⟩, ?_, ?_⟩
  · rintro request' rfl hk
    exact (patchSessionState_accepted hwithin hk he hsound).exec hexec
  · obtain ⟨e', he', -⟩ := hleaves
    rw [World.hash_of_entry he']
    rfl
  · exact (request.keeps_sound helapses request.refers_true hsound).exec hexec

/-- Every request of a run is a step from a live session. -/
theorem stepped_of_history (hwithin : ∀ w w', within w w' → World.Keeps (.session k) w w')
    (hbetween : ∀ w w', between w w' → World.Keeps (.session k) w w') {w₀ w : World}
    (hreach : Reachable cfg (fun _ => True) w₀) (hlive : (w₀.hash k).isSome) {served : List Served}
    (h : History cfg within between w₀ served w) : ∀ s ∈ served, Stepped k s := by
  refine (h.invariant (I := fun served w => (∀ s ∈ served, Stepped k s) ∧ (w.hash k).isSome ∧
    w.Sound fun _ => True) ?_ ?_ ?_).1
  · rintro served w w' hstep ⟨hserved, hlive, hsound⟩
    refine ⟨hserved, ?_, hsound.elapses (hbetween _ _ hstep).1⟩
    rwa [(hbetween _ _ hstep).hash]
  · rintro served request w ⟨hserved, hlive, hsound⟩
    refine (stepped hwithin request hlive hsound).mono ?_
    rintro outcome w' ⟨hstep, hlive', hsound'⟩
    refine ⟨fun s hs => ?_, hlive', hsound'⟩
    rcases List.mem_append.mp hs with hs | hs
    · exact hserved s hs
    · rw [List.mem_singleton.mp hs]
      exact hstep
  · exact ⟨List.forall_mem_nil _, hlive, (hreach.mono fun request _ => request.refers_true).sound⟩

/-- A patch has itself as effect, on its own session, or none. -/
theorem effect?_patch {s : Served} {request : SessionPatchRequest}
    (hs : s.request = .patchSessionState request) :
    s.effect? k = none ∨ request.globalSessionKey = k ∧ s.effect? k = some (.patch request) := by
  unfold Served.effect?
  rw [hs]
  cases s.outcome with
  | error err => exact .inl rfl
  | ok response =>
    by_cases hk : request.globalSessionKey = k
    · exact .inr ⟨hk, if_pos hk⟩
    · exact .inl (if_neg hk)

/-- A patch changes the state only by the state that it carries. -/
theorem Stepped.obeys_iff {s : Served} (hstep : Stepped k s) :
    Obeys k s ↔ ∀ request, s.request = .patchSessionState request →
      ∀ a b, state s.before k = some a → state s.after k = some b → a ≠ b → canTransition a b := by
  constructor
  · intro hobeys request hs a b ha hb hne
    have hafter := hstep.after
    rcases effect?_patch hs with heffect | ⟨hk, heffect⟩
    · rw [heffect, hb, ha] at hafter
      exact absurd (Option.some.inj hafter).symm hne
    · have hvalid := (hstep.accepted request hs hk).mp heffect
      rw [heffect, hb, ha, Option.bind_some] at hafter
      cases hsent : request.sessionState with
      | none =>
        rw [Effect.state?, hsent] at hafter
        exact absurd (Option.some.inj hafter).symm hne
      | some sent =>
        rw [Effect.state?, hsent] at hafter
        obtain rfl : b = sent := Option.some.inj hafter
        exact hobeys request hs hk hvalid a b ha hsent hne
  · intro hallowed request hs hk hvalid a b ha hsent hne
    have hafter := hstep.after
    rw [(hstep.accepted request hs hk).mpr hvalid, Option.bind_some, Effect.state?, hsent] at hafter
    exact hallowed request hs a b ha hafter hne

/-- Only a patch has a patch as effect. -/
theorem request_of_effect? {s : Served} {request : SessionPatchRequest}
    (h : s.effect? k = some (.patch request)) :
    s.request = .patchSessionState request ∧ request.globalSessionKey = k := by
  unfold Served.effect? Request.effect? at h
  split at h
  · rename_i patch _ hrequest _
    by_cases hk : patch.globalSessionKey = k
    · rw [if_pos hk] at h
      obtain rfl := Effect.patch.inj (Option.some.inj h)
      exact ⟨hrequest, hk⟩
    · rw [if_neg hk] at h
      cases h
  all_goals simp at h

/-- From `end` the policy allows nothing, so a patch that obeys it leaves a session ended. -/
theorem Stepped.ended {s : Served} (hstep : Stepped k s) (hobeys : Obeys k s)
    (hended : state s.before k = some .end_) : state s.after k = some .end_ := by
  rw [hstep.after, hended]
  rcases heffect : s.effect? k with _ | request | _ | turn
  · rfl
  · obtain ⟨hs, hk⟩ := request_of_effect? heffect
    have hvalid := (hstep.accepted request hs hk).mp heffect
    rw [Option.bind_some, Effect.state?]
    cases hsent : request.sessionState with
    | none => rfl
    | some sent =>
      -- the policy allows no other state
      by_cases hsame : SessionState.end_ = sent
      · rw [← hsame]
        rfl
      · have hallowed := hobeys request hs hk hvalid .end_ sent hended hsent hsame
        exact absurd hallowed (by simp [canTransition, allowedTransitions])
  · rfl
  · rfl

/-- A run of patches that obey the policy does not leave `end`. -/
theorem absorbing (hbetween : ∀ w w', between w w' → World.Keeps (.session k) w w') {w₀ w : World}
    {served : List Served} (h : History cfg within between w₀ served w)
    (hstepped : ∀ s ∈ served, Stepped k s) (hobeys : ∀ s ∈ served, Obeys k s) :
    (trace k served).Pairwise fun a b => a = some .end_ → b = some .end_ := by
  -- the induction carries that the last state of the trace is the one that is stored
  have hinv : (trace k served).Pairwise (fun a b => a = some .end_ → b = some .end_) ∧
      (some .end_ ∈ trace k served → state w k = some .end_) := by
    induction h with
    | nil => exact ⟨.nil, nofun⟩
    | @snoc w w₁ w₂ served request outcome hprefix hb hexec ih =>
      rw [List.forall_mem_append, List.forall_mem_singleton] at hstepped hobeys
      obtain ⟨hpairwise, hlast⟩ := ih hstepped.1 hobeys.1
      have hbefore : state w₁ k = state w k := state_of_keeps (hbetween _ _ hb)
      have hended : state w₁ k = some .end_ → state w₂ k = some .end_ :=
        hstepped.2.ended hobeys.2
      have htrace : trace k (served ++ [⟨request, outcome, w₁, w₂⟩]) =
          trace k served ++ [state w₁ k, state w₂ k] := by
        simp [trace]
      rw [htrace, List.pairwise_append]
      refine ⟨⟨hpairwise, by simpa using hended, ?_⟩, ?_⟩
      · intro a ha b hb hend
        subst hend
        have h₁ : state w₁ k = some .end_ := hbefore.trans (hlast ha)
        rcases List.mem_pair.mp hb with rfl | rfl
        · exact h₁
        · exact hended h₁
      · intro hmem
        rcases List.mem_append.mp hmem with hmem | hmem
        · exact hended (hbefore.trans (hlast hmem))
        · rcases List.mem_pair.mp hmem with h₁ | h₂
          · exact hended h₁.symm
          · exact h₂.symm
  exact hinv.1

/-- A run on a live session of a reachable store, in which the session does not expire: the policy
holds exactly when every patch obeys it. -/
theorem followsPolicy_iff (cfg : Config) {k : String}
    (hwithin : ∀ w w', within w w' → World.Keeps (.session k) w w')
    (hbetween : ∀ w w', between w w' → World.Keeps (.session k) w w') {w₀ w : World}
    (hreach : Reachable cfg (fun _ => True) w₀) (hlive : (w₀.hash k).isSome) {served : List Served}
    (h : History cfg within between w₀ served w) :
    FollowsPolicy k served ↔ ∀ s ∈ served, Obeys k s := by
  have hstepped := stepped_of_history hwithin hbetween hreach hlive h
  constructor
  · intro hpolicy s hs
    exact (hstepped s hs).obeys_iff.mpr (hpolicy.transitions s hs)
  · intro hobeys
    refine ⟨fun s hs => (hstepped s hs).obeys_iff.mp (hobeys s hs), ?_⟩
    exact absorbing hbetween h hstepped hobeys

/-! ### A session that is opened again -/

/-- A store in which a session has been created. -/
def opened : World := (((Request.createSession "gsess_1" "jti_0" {}).program .default).run machine
  (.init 0)).2

/-- The session can be reached by its creation. -/
theorem reachable_opened : Reachable .default (fun _ => True) opened := by
  refine ⟨Unit, inferInstance, fun _ => .createSession "gsess_1" "jti_0" {}, 0, _, fun _ => trivial,
    Pool.run_schedule _ (List.replicate 11 ()), rfl⟩

/-- A patch of the session to a state. -/
def patchTo (state : SessionState) : Request :=
  .patchSessionState { globalSessionKey := "gsess_1", sessionState := some state }

/-- A request, then a patch to a state. -/
def andThen (request : Request) (state : SessionState) : List Served :=
  [request.serve .default opened,
    (patchTo state).serve .default (request.serve .default opened).after]

theorem history_andThen (request : Request) (state : SessionState) :
    History .default Eq Eq opened (andThen request state)
      ((patchTo state).serve .default (request.serve .default opened).after).after :=
  (History.nil.serve request).serve (patchTo state)

/-- A patch to the state obeys when the policy allows the change. -/
theorem obeys_patchTo {w : World} {a b : SessionState} (ha : state w "gsess_1" = some a)
    (hallowed : canTransition a b) : Obeys "gsess_1" ((patchTo b).serve .default w) := by
  rintro request hrequest - - a' b' ha' hb' -
  obtain rfl := Request.patchSessionState.inj hrequest
  obtain rfl : a = a' := Option.some.inj (ha.symm.trans ha')
  obtain rfl : b = b' := Option.some.inj hb'
  exact hallowed

/-- From `start` to `talk` and on to `end`. -/
theorem followsPolicy_talk_end : FollowsPolicy "gsess_1" (andThen (patchTo .talk) .end_) := by
  refine (followsPolicy_iff .default (fun _ _ => World.Keeps.of_eq) (fun _ _ => World.Keeps.of_eq)
    reachable_opened rfl (history_andThen (patchTo .talk) .end_)).mpr ?_
  have htalk : state opened "gsess_1" = some .start := by decide
  have hend : state ((patchTo .talk).serve .default opened).after "gsess_1" = some .talk := by
    decide
  simpa [andThen] using ⟨obeys_patchTo htalk rfl, obeys_patchTo hend rfl⟩

/-- A session that is closed and then patched is back in state `talk`. -/
theorem not_followsPolicy_close_talk :
    let served := andThen (.closeSession { globalSessionKey := "gsess_1" }) .talk
    Reachable .default (fun _ => True) opened ∧ (opened.hash "gsess_1").isSome ∧
      (∃ w, History .default Eq Eq opened served w) ∧
      trace "gsess_1" served = [some .start, some .end_, some .end_, some .talk] ∧
      ¬ FollowsPolicy "gsess_1" served := by
  have htrace : trace "gsess_1" (andThen (.closeSession { globalSessionKey := "gsess_1" }) .talk) =
      [some .start, some .end_, some .end_, some .talk] := by decide
  refine ⟨reachable_opened, rfl, ⟨_, history_andThen _ .talk⟩, htrace, fun hpolicy => ?_⟩
  have habsorbing := hpolicy.absorbing
  rw [htrace] at habsorbing
  exact absurd habsorbing (by decide)

end LifeCycle

end SessionManager
