import SessionManager.OwnProfiles

/-!
# Profiles of unrelated sessions

Realtime profiles are stored under customer numbers and under session keys alike, and a request
chooses the number itself. So an update for one session reaches another one when the number it
carries is the key of the other session, or when the number of the other session is its own key.

* `resolved`, `World.shownProfiles` — the response of `resolve_session` as a function of what it
  reads.
* `Meets` — an update saves its profile where another session looks for its own.
* `resolveSession_unaffected_iff` — what another session is shown stays the same exactly when the
  two do not meet, or the profile is the same anyway.
-/

namespace SessionManager

open Python Interaction
open SessionRepository RedisHelper SessionService

/-- The batch profile that is stored under an id. -/
def World.batch (w : World) (u : String) : Option Json := w.store.get w.now (.batchProfile u)

/-- The batch and the realtime profile that are shown for a session. -/
def World.shownProfiles (w : World) (k : String) (cusno : Option String) :
    Option Json × Option Json :=
  match cusno.filter (· ≠ "") with
  | some cusno => (w.batch cusno, w.profile cusno)
  | none => (none, w.profile k)

/-- The key of the mapped agent, from the stored hash. -/
def mappedOf (request : SessionResolveRequest) (session : Hash) : Except ServiceError Json :=
  match request.agentType, request.agentId with
  | some .task, some agentId =>
    if agentId = "" then .ok .null else mappedKey (session .agentMappings) agentId
  | _, _ => .ok .null

/-- What `resolve_session` returns or raises for what it reads. -/
def resolved (request : SessionResolveRequest) (session : Hash)
    (profiles : Option Json × Option Json) : Except ServiceError SessionResolveResponse := do
  let mapped ← mappedOf request session
  let status ← enumField TaskQueueStatus "TaskQueueStatus"
    ((session .taskQueueStatus).getD (value TaskQueueStatus.null))
  resolveResponse request session status mapped profiles

namespace ProfileSeparation

open Program hiding pure

variable {cfg : Config} {env : World → World → Prop} {k : String} {w : World}

/-- Time passes, and what is read for session `k` does not expire: the session, and its profiles
under `id`. -/
structure Watches (k id : String) (w w' : World) : Prop where
  session : World.Keeps (.session k) w w'
  realtime : World.Keeps (.realtimeProfile id) w w'
  batch : World.Keeps (.batchProfile id) w w'

/-- The profiles shown depend on two keys. -/
theorem shownProfiles_congr {w' : World} {cusno : Option String}
    (hrealtime : w'.profile (shownId k cusno) = w.profile (shownId k cusno))
    (hbatch : w'.batch (shownId k cusno) = w.batch (shownId k cusno)) :
    w'.shownProfiles k cusno = w.shownProfiles k cusno := by
  unfold World.shownProfiles
  unfold shownId at hrealtime hbatch
  cases hnumber : cusno.filter (· ≠ "") with
  | none =>
    rw [hnumber] at hrealtime
    exact congrArg _ hrealtime
  | some c =>
    rw [hnumber] at hrealtime hbatch
    exact congrArg₂ Prod.mk hbatch hrealtime

theorem shownProfiles_realtime (w : World) (k : String) (cusno : Option String) :
    (w.shownProfiles k cusno).2 = w.profile (shownId k cusno) := by
  unfold World.shownProfiles shownId
  cases cusno.filter (· ≠ "") <;> rfl

/-! ### Responses -/

section Reads

variable {id : String} (henv : ∀ w w', env w w' → Watches k id w w')
include henv

theorem agentSessionKey_eq {e : TtlStore.Entry Hash} (he : w.entry (.session k) = some e)
    {request : SessionResolveRequest} (hk : request.globalSessionKey = k) :
    (agentSessionKey request).Wp machine env (fun x _ => x = mappedOf request e.value) w := by
  have hother {α : Type} (a : α) :
      (Pure.pure a : Svc α).Wp machine env (fun x _ => x = .ok a) w := rfl
  unfold agentSessionKey mappedOf
  cases request.agentType with
  | none => exact hother _
  | some agentType =>
    cases agentType with
    | task =>
      cases request.agentId with
      | none => exact hother _
      | some agentId =>
        dsimp only
        split_ifs with hempty
        · exact hother _
        · rw [hk]
          refine hgetall_bind (fun _ _ hstep => (henv _ _ hstep).session) he fun w₁ _ => ?_
          dsimp only
          cases mappedKey (e.value .agentMappings) agentId <;> rfl
    | _ => exact hother _

theorem sessionProfiles_eq {cusno : Option String} (hid : id = shownId k cusno) (w : World) :
    (sessionProfiles k cusno).Wp machine env (fun x _ => x = .ok (w.shownProfiles k cusno)) w := by
  subst hid
  have hrealtime {w₁ w₂ : World} (hstep : env w₁ w₂) :
      w₂.profile (shownId k cusno) = w₁.profile (shownId k cusno) := (henv _ _ hstep).realtime.get
  have hbatch {w₁ w₂ : World} (hstep : env w₁ w₂) :
      w₂.batch (shownId k cusno) = w₁.batch (shownId k cusno) := (henv _ _ hstep).batch.get
  unfold sessionProfiles World.shownProfiles
  unfold shownId at hrealtime hbatch
  cases hnumber : cusno.filter (· ≠ "") with
  | none =>
    rw [hnumber] at hrealtime
    exact wp_perform_bind.mpr fun w₁ h₁ => congrArg (fun p => Except.ok (none, p)) (hrealtime h₁)
  | some c =>
    rw [hnumber] at hrealtime hbatch
    refine wp_perform_bind.mpr fun w₁ h₁ => wp_perform_bind.mpr fun w₂ h₂ => ?_
    exact congrArg₂ (fun b p => Except.ok (b, p)) (hbatch h₁) ((hrealtime h₂).trans (hrealtime h₁))

/-- Looking leaves the profiles as they are. -/
theorem reads_shown {cusno : Option String} (hid : id = shownId k cusno) {α : Type} {p : Svc α}
    (hp : p.Only (Command.Within fun _ => False)) (w : World) :
    p.Wp machine env (fun _ w' => w'.shownProfiles k cusno = w.shownProfiles k cusno) w := by
  subst hid
  have hsame := (entry_of_within (fun _ _ hstep => (henv _ _ hstep).realtime) id hp w).and
    (entry_of_within (fun _ _ hstep => (henv _ _ hstep).batch) id hp w)
  refine hsame.mono fun x w' ⟨hrealtime, hbatch⟩ => shownProfiles_congr ?_ ?_
  · rw [World.profile, World.profile, World.get_eq_entry, World.get_eq_entry, hrealtime]
  · rw [World.batch, World.batch, World.get_eq_entry, World.get_eq_entry, hbatch]

/-- The outcome of `resolve_session` is made of the session and its profiles. -/
theorem resolveSession_eq {e : TtlStore.Entry Hash} (he : w.entry (.session k) = some e)
    (hid : id = shownId k (e.value .cusno)) {request : SessionResolveRequest}
    (hk : request.globalSessionKey = k) :
    (resolveSession request).Wp machine env
      (fun x _ => x = resolved request e.value (w.shownProfiles k (e.value .cusno))) w := by
  have hread : SessionRepository.get request.globalSessionKey = issue (.hgetall k) := by
    rw [hk]
    rfl
  -- no step of the environment changes the profiles that are shown
  have hsame {w₁ : World} (hstep : env w w₁) : w₁.shownProfiles k (e.value .cusno) =
      w.shownProfiles k (e.value .cusno) :=
    shownProfiles_congr (hid ▸ (henv _ _ hstep).realtime.get) (hid ▸ (henv _ _ hstep).batch.get)
  unfold resolveSession resolved
  rw [hread]
  refine wp_perform_bind.mpr fun w₁ h₁ => ?_
  have he₁ : w₁.entry (.session k) = some e := (henv _ _ h₁).session.entry.trans he
  have hreply : (machine (.hgetall k) w₁).1 = some e.value := World.hash_of_entry he₁
  rw [hreply, hk]
  refine Wp.seq (fun mapped w₂ => mappedOf request e.value = .ok mapped ∧
    w₂.shownProfiles k (e.value .cusno) = w.shownProfiles k (e.value .cusno))
    (((agentSessionKey_eq henv he₁ hk).and
      (reads_shown henv hid (agentSessionKey_within request) w₁)).mono ?_) ?_
  · rintro x w₂ ⟨hmapped, hshown⟩
    cases x with
    | ok mapped => exact ⟨hmapped.symm, hshown.trans (hsame h₁)⟩
    | error err =>
      rw [← hmapped]
      rfl
  · rintro mapped w₂ ⟨hmapped, hshown⟩
    rw [hmapped]
    refine wp_ofExcept_bind.mpr ?_
    cases enumField TaskQueueStatus "TaskQueueStatus"
        ((e.value .taskQueueStatus).getD (value TaskQueueStatus.null)) with
    | error err => rfl
    | ok status =>
      refine Wp.seq_ok (fun profiles _ => profiles = w.shownProfiles k (e.value .cusno))
        ((sessionProfiles_eq henv hid w₂).mono ?_) ?_
      · rintro x w₃ rfl
        exact ⟨_, rfl, hshown⟩
      · rintro profiles w₃ rfl
        refine wp_perform_bind.mpr fun w₄ _ => ?_
        show Wp machine env (Program.ofExcept (resolveResponse request e.value status mapped _))
          (fun x _ => x = resolveResponse request e.value status mapped _) _
        cases resolveResponse request e.value status mapped
            (w.shownProfiles k (e.value .cusno)) <;> rfl

end Reads

/-! ### Updates of another session -/

/-- An update for session `a` saves its realtime profile where session `b` looks for its own: the
number of the update is the key of `b`, which has none, or the number of `b` is the key of `a`. -/
def Meets (a b : String) (data : Dict) (w : World) : Prop :=
  ProfileService.cusnoOf data = .ok (some b) ∧ shownId b (w.field b .cusno) = b ∨
    ProfileService.cusnoOf data = .ok none ∧ shownId b (w.field b .cusno) = a

/-- The response with another realtime profile. -/
theorem resolved_realtime {request : SessionResolveRequest} {session : Hash}
    {profiles : Option Json × Option Json} {response : SessionResolveResponse}
    (h : resolved request session profiles = .ok response) (data : Dict) :
    resolved request session (profiles.1, some (.obj data)) =
      .ok { response with realtimeProfile := some data } := by
  unfold resolved resolveResponse at h ⊢
  simp only [bind_eq_ok] at h ⊢
  obtain ⟨mapped, hmapped, status, hstatus, state, hstate, subagent, hsubagent, agentKey, hagentKey,
    batchProfile, hbatch, _, -, activeTask, htask, history, hhistory, intent, hintent, taskId,
    htaskId, detail, hdetail, turnCount, hturnCount, refInfo, hrefInfo, hresponse⟩ := h
  obtain rfl := Except.ok.inj hresponse
  exact ⟨mapped, hmapped, status, hstatus, state, hstate, subagent, hsubagent, agentKey, hagentKey,
    batchProfile, hbatch, some data, rfl, activeTask, htask, history, hhistory, intent, hintent,
    taskId, htaskId, detail, hdetail, turnCount, hturnCount, refInfo, hrefInfo, rfl⟩

theorem resolved_profile {request : SessionResolveRequest} {session : Hash}
    {profiles : Option Json × Option Json} {response : SessionResolveResponse}
    (h : resolved request session profiles = .ok response) (data : Dict) :
    response.realtimeProfile = some data ↔ profiles.2 = some (.obj data) := by
  unfold resolved at h
  simp only [bind_eq_ok] at h
  obtain ⟨mapped, -, status, -, hresponse⟩ := h
  exact OwnProfiles.resolveResponse_profile hresponse data

/-- Only a session that is there is resolved. -/
theorem live_of_resolved (henv : ∀ w w', env w w' → World.Keeps (.session k) w w')
    {request : SessionResolveRequest} (hk : request.globalSessionKey = k)
    {response : SessionResolveResponse} {w' : World}
    (h : (resolveSession request).Exec machine env w (.ok response) w') : (w.hash k).isSome := by
  subst hk
  cases hhash : w.hash request.globalSessionKey with
  | some session => rfl
  | none =>
    have hraises : (resolveSession request).Wp machine env
        (fun x _ => ∀ response, x ≠ .ok response) w := by
      refine wp_perform_bind.mpr fun w₁ h₁ => ?_
      have hreply : (machine (.hgetall request.globalSessionKey) w₁).1 = none :=
        (henv _ _ h₁).hash.trans hhash
      rw [hreply]
      intro response hx
      cases hx
    exact absurd rfl (hraises.exec h response)

theorem shownProfiles_ext {w' : World} {cusno : Option String}
    (hbatch : (w'.shownProfiles k cusno).1 = (w.shownProfiles k cusno).1) {profile : Option Json}
    (hrealtime : w'.profile (shownId k cusno) = profile) :
    w'.shownProfiles k cusno = ((w.shownProfiles k cusno).1, profile) :=
  Prod.ext hbatch ((shownProfiles_realtime w' k cusno).trans hrealtime)

section Updates

variable {a b : String} {lookup : ProfileService.BatchLookup} {data : Dict}

/-- Where an update saves its profile, when that is where session `b` looks for its own. -/
theorem meets_of_savesTo (hother : ∀ c, ProfileService.cusnoOf data = .ok (some c) →
      w.field b .cusno ≠ some c) {k' : String}
    (hsaves : (Request.updateRealtimePersonalContext lookup a data).savesTo? =
      some (k', shownId b (w.field b .cusno))) : Meets a b data w := by
  obtain ⟨found, hfound, heq⟩ := Option.map_eq_some_iff.mp hsaves
  have hid : found.getD a = shownId b (w.field b .cusno) := (Prod.mk.inj heq).2
  have hcusno : ProfileService.cusnoOf data = .ok found := by
    cases hdata : ProfileService.cusnoOf data with
    | error err =>
      rw [hdata] at hfound
      cases hfound
    | ok found' =>
      rw [hdata] at hfound
      rw [Option.some.inj hfound]
  cases found with
  | none => exact .inr ⟨hcusno, hid.symm⟩
  | some c =>
    rcases OwnProfiles.shownId_cases b (w.field b .cusno) with ⟨u, hu, -, hshown⟩ | ⟨-, hshown⟩
    · -- the numbers of the two differ
      have hcu : c = u := hid.trans hshown
      exact absurd (hcu ▸ hu) (hother c hcusno)
    · have hcb : c = b := hid.trans hshown
      exact .inl ⟨hcb ▸ hcusno, hshown⟩

variable (hab : a ≠ b)
  (hother : ∀ c, ProfileService.cusnoOf data = .ok (some c) → w.field b .cusno ≠ some c)
  (hwatches : ∀ w₁ w₂, env w₁ w₂ → Watches b (shownId b (w.field b .cusno)) w₁ w₂)
include hab hother hwatches

/-- An update for session `a` leaves session `b` and the batch profile shown for it. -/
theorem update_leaves (cfg : Config) :
    (ProfileService.updateRealtimePersonalContext cfg lookup a data).Wp machine env (fun _ w' =>
      w'.entry (.session b) = w.entry (.session b) ∧
      (w'.shownProfiles b (w.field b .cusno)).1 = (w.shownProfiles b (w.field b .cusno)).1) w := by
  have hb : ¬ Key.BelongsTo a (.session b) := fun h => hab h.symm
  refine Wp.and (entry_of_within (fun _ _ hstep => (hwatches _ _ hstep).session) hb
    (ProfileService.updateRealtimePersonalContext_within cfg lookup a data) w) ?_
  rcases OwnProfiles.shownId_cases b (w.field b .cusno) with ⟨u, hu, hempty, hshown⟩ | ⟨hempty, -⟩
  · have hbatch (w' : World) : (w'.shownProfiles b (w.field b .cusno)).1 = w'.batch u := by
      unfold World.shownProfiles
      rw [hu]
      simp [Option.filter, hempty]
    have hkeys : (ProfileService.updateRealtimePersonalContext cfg lookup a data).Only
        (Command.Within fun key => key ≠ .batchProfile u) := by
      refine OwnProfiles.updateRealtimePersonalContext_keys (by simp) (by simp) fun c hc heq => ?_
      obtain rfl := Key.batchProfile.inj heq
      exact hother c hc hu
    have hkeeps (w₁ w₂ : World) (hstep : env w₁ w₂) : World.Keeps (.batchProfile u) w₁ w₂ :=
      hshown ▸ (hwatches _ _ hstep).batch
    refine (entry_of_within hkeeps (by simp) hkeys w).mono fun _ w' hsame => ?_
    rw [hbatch, hbatch, World.batch, World.batch, World.get_eq_entry, World.get_eq_entry, hsame]
  · rw [wp_iff_exec]
    intro _ w' _
    -- without a number no batch profile is shown
    have hnone (w' : World) : (w'.shownProfiles b (w.field b .cusno)).1 = none := by
      unfold World.shownProfiles
      cases hc : w.field b .cusno with
      | none => rfl
      | some c =>
        obtain rfl := hempty c hc
        rfl
    rw [hnone, hnone]

omit hab in
/-- Whether the realtime profile shown for `b` is replaced depends on whether the two meet. -/
theorem update_realtime (cfg : Config) (hsession : ∀ w w', env w w' → World.Keeps (.session a) w w')
    (ha : (w.hash a).isSome) :
    (ProfileService.updateRealtimePersonalContext cfg lookup a data).Wp machine env (fun _ w' =>
      (Meets a b data w → w'.profile (shownId b (w.field b .cusno)) = some (.obj data)) ∧
      (¬ Meets a b data w → w'.profile (shownId b (w.field b .cusno)) =
        w.profile (shownId b (w.field b .cusno)))) w := by
  rw [wp_iff_exec]
  intro x w' hexec
  have hkeeps (w₁ w₂ : World) (hstep : env w₁ w₂) :
      World.Keeps (.realtimeProfile (shownId b (w.field b .cusno))) w₁ w₂ :=
    (hwatches _ _ hstep).realtime
  constructor
  · -- with the number, and without one under the key of the session
    rintro (⟨hcusno, hshown⟩ | ⟨hcusno, hshown⟩)
    · rw [hshown] at hkeeps ⊢
      exact ((OwnProfiles.updateRealtimePersonalContext_spec hcusno hsession hkeeps ha).exec
        hexec).2.2
    · rw [hshown] at hkeeps ⊢
      exact ((OwnProfiles.updateRealtimePersonalContext_spec hcusno hsession hkeeps ha).exec
        hexec).2.2
  · intro hmeets
    have hkept := wp_map.mp (OwnProfiles.profile_kept cfg
      (.updateRealtimePersonalContext lookup a data) hkeeps
      (fun k' hsaves => hmeets (meets_of_savesTo hother hsaves)) w)
    exact hkept.exec hexec

end Updates

end ProfileSeparation

open ProfileSeparation OwnProfiles in
/-- An update for session `a`, whose number is not that of session `b`: the response of
`resolve_session` for `b` stays the same exactly when the two do not meet, or the profile that is
saved is the one that was there. -/
theorem resolveSession_unaffected_iff (cfg : Config) {env : World → World → Prop} {a b : String}
    (hab : a ≠ b) {w : World} (hsession : ∀ w w', env w w' → World.Keeps (.session a) w w')
    (hwatches : ∀ w₁ w₂, env w₁ w₂ → Watches b (shownId b (w.field b .cusno)) w₁ w₂)
    (ha : (w.hash a).isSome) {lookup : ProfileService.BatchLookup} {data : Dict}
    (hother : ∀ c, ProfileService.cusnoOf data = .ok (some c) → w.field b .cusno ≠ some c)
    {request : SessionResolveRequest} (hb : request.globalSessionKey = b)
    {response : SessionResolveResponse} {w₁ : World}
    (hbefore : (resolveSession request).Exec machine env w (.ok response) w₁)
    {outcome : Except ServiceError ProfileService.RealtimePersonalContextResponse} {w' : World}
    (hupdate : (ProfileService.updateRealtimePersonalContext cfg lookup a data).Exec machine env w
      outcome w')
    {x : Except ServiceError SessionResolveResponse} {w₂ : World}
    (hafter : (resolveSession request).Exec machine env w' x w₂) :
    x = .ok response ↔
      (Meets a b data w → w.profile (shownId b (w.field b .cusno)) = some (.obj data)) := by
  obtain ⟨e, he⟩ := LifeCycle.entry_of_live
    (live_of_resolved (fun _ _ hstep => (hwatches _ _ hstep).session) hb hbefore)
  have hfield : w.field b .cusno = e.value .cusno := by
    rw [World.field, World.hash_of_entry he]
    rfl
  have hid : shownId b (w.field b .cusno) = shownId b (e.value .cusno) :=
    congrArg (shownId b) hfield
  -- both responses are made of the same session, and of the profiles shown for it
  obtain ⟨hsame, hbatch⟩ := (update_leaves hab hother hwatches cfg).exec hupdate
  obtain ⟨hreplaced, hkept⟩ :=
    (update_realtime hother hwatches cfg hsession ha).exec hupdate
  have hresponse := (resolveSession_eq hwatches he hid hb).exec hbefore
  have hx := (resolveSession_eq hwatches (hsame.trans he) hid hb).exec hafter
  have hshown : w'.shownProfiles b (e.value .cusno) =
      ((w.shownProfiles b (e.value .cusno)).1, w'.profile (shownId b (w.field b .cusno))) :=
    hfield ▸ shownProfiles_ext hbatch rfl
  rw [hshown] at hx
  by_cases hmeets : Meets a b data w
  · rw [hreplaced hmeets, resolved_realtime hresponse.symm data] at hx
    have hiff := resolved_profile hresponse.symm data
    rw [shownProfiles_realtime, ← hid] at hiff
    rw [hx]
    refine Iff.trans ⟨fun heq => ?_, fun heq => ?_⟩ (hiff.trans ⟨fun h _ => h, fun h => h hmeets⟩)
    · exact (congrArg SessionResolveResponse.realtimeProfile (Except.ok.inj heq)).symm
    · rw [← heq]
  · rw [hkept hmeets, hid, ← shownProfiles_realtime, Prod.eta] at hx
    exact ⟨fun _ h => absurd h hmeets, fun _ => hx.trans hresponse.symm⟩

namespace ProfileSeparation

open OwnProfiles

/-- A store with two sessions. -/
def both : World := (((Request.createSession "gsess_2" "jti_1" {}).program .default).run machine
  LifeCycle.opened).2

/-- The two creations, one after the other. -/
def creating (i : Bool) : Request :=
  if i then .createSession "gsess_2" "jti_1" {} else .createSession "gsess_1" "jti_0" {}

theorem reachable_both : Reachable .default (fun _ => True) both :=
  ⟨Bool, inferInstance, creating, 0, _, fun _ => trivial,
    Pool.run_schedule _ (List.replicate 11 false ++ List.replicate 11 true), rfl⟩

/-- An update for the first session. -/
def updating (data : Dict) : Svc ProfileService.RealtimePersonalContextResponse :=
  ProfileService.updateRealtimePersonalContext .default (fun _ => .ok none) "gsess_1" data

/-- A profile whose number is the key of the second session. -/
def crossing : Dict := [("cusnoN10", .str "gsess_2")]

/-- The question for the second session. -/
def query : SessionResolveRequest := { globalSessionKey := "gsess_2" }

/-- Neither session has a number. -/
theorem field_both (k : String) (hk : k = "gsess_1" ∨ k = "gsess_2") :
    both.field k .cusno = none := by
  rcases hk with rfl | rfl <;> rfl

/-- An update with a number that is no session key does not reach the second session. -/
theorem resolveSession_unaffected_numbered :
    ((resolveSession query).run machine ((updating numbered).run machine both).2).1 =
      ((resolveSession query).run machine both).1 := by
  have hnone : both.field "gsess_2" .cusno = none := field_both _ (.inr rfl)
  refine (resolveSession_unaffected_iff .default (by decide) (fun _ _ => World.Keeps.of_eq)
    (fun _ _ h => ⟨.of_eq h, .of_eq h, .of_eq h⟩) rfl (fun c _ h => ?_) rfl
    (Program.Exec.of_run (fun _ => rfl) (resolveSession query) both)
    (Program.Exec.of_run (fun _ => rfl) (updating numbered) both)
    (Program.Exec.of_run (fun _ => rfl) (resolveSession query) _)).mpr fun hmeets => ?_
  · cases hnone.symm.trans h
  · rcases hmeets with ⟨hcusno, -⟩ | ⟨hcusno, -⟩
    · have hfound : ProfileService.cusnoOf numbered = .ok (some "1000000001") := by decide
      exact absurd (Option.some.inj (Except.ok.inj (hfound.symm.trans hcusno))) (by decide)
    · have hfound : ProfileService.cusnoOf numbered = .ok (some "1000000001") := by decide
      cases hfound.symm.trans hcusno

/-- An update whose number is the key of the second session is shown there. -/
theorem resolveSession_affected :
    Reachable .default (fun _ => True) both ∧ (both.hash "gsess_1").isSome ∧
      (both.hash "gsess_2").isSome ∧ both.field "gsess_1" .cusno = none ∧
      both.field "gsess_2" .cusno = none ∧
      ProfileService.cusnoOf crossing = .ok (some "gsess_2") ∧
      (∃ response, ((resolveSession query).run machine both).1 = .ok response ∧
        response.realtimeProfile = none) ∧
      ∃ response, ((resolveSession query).run machine ((updating crossing).run machine both).2).1 =
        .ok response ∧ response.realtimeProfile = some crossing :=
  ⟨reachable_both, rfl, rfl, rfl, rfl, rfl, ⟨_, rfl, rfl⟩, _, rfl, rfl⟩

end ProfileSeparation

end SessionManager
