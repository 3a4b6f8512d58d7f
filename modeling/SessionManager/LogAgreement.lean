import SessionManager.EventLog
import SessionManager.LifeCycle
import SessionManager.SessionRefinement

/-!
# The log beside the store

A `SESSION_CLOSE` record is written by the two closes and by nothing else; a patch writes a
`SESSION_STATE_UPDATE`, whatever state it carries. So the replayed log and the stored states agree
exactly in the runs in which no patch ends a session or takes it out of `end`.

* `Agrees` — a served request keeps the log and the store in agreement.
* `Meets` — it does not change by a patch, or by a second creation, whether the session has ended.
* `logStep` — what one request does to the session and to the log.
* `log_agrees` — over whole runs.
-/

namespace SessionManager

open Python Interaction

namespace LogAgreement

open LifeCycle SessionService SessionRepository
open Program hiding pure

/-- The request makes the stored state of session `k` `end`, or writes it again by a close. -/
def Ends (k : String) (s : Served) : Prop :=
  state s.after k = some .end_ ∧ (state s.before k ≠ some .end_ ∨ s.effect? k = some .close)

/-- A close is logged exactly when the session is ended, and afterwards a live session has the
status `ended` exactly when its stored state is `end`. -/
structure Agrees (k : String) (s : Served) : Prop where
  logged : s.LogsClose k ↔ Ends k s
  status : (s.after.hash k).isSome →
    (s.after.status k = some .ended ↔ state s.after k = some .end_)

/-- A valid patch of a live session carries `end` only if the session has ended and another state
only if it has not; a creation does not come upon a session that has ended. -/
structure Meets (k : String) (s : Served) : Prop where
  patch : ∀ request, s.request = .patchSessionState request → request.globalSessionKey = k →
    (s.before.hash k).isSome → validatePatch request = .ok () →
      ∀ b, request.sessionState = some b → (b = .end_ ↔ state s.before k = some .end_)
  create : ∀ jti request response, s.request = .createSession k jti request →
    s.outcome = .ok response → state s.before k ≠ some .end_

/-- What a request does to session `k` and to the log. -/
structure LogStep (k : String) (s : Served) : Prop where
  appends : s.before.esLog <+: s.after.esLog
  told : s.after.told k = s.before.told k ++ s.tells k
  live : (s.before.hash k).isSome → Stepped k s ∧ (s.after.hash k).isSome
  missing : s.before.hash k = none → s.effect? k = none ∧ (s.after.hash k = none ∨
    (∃ jti request response, s.request = .createSession k jti request ∧
      s.outcome = .ok response) ∧ state s.after k = some .start)

/-! ### Sessions that are not there -/

section Missing

variable {cfg : Config} {env : World → World → Prop} {k : String} {α : Type}

/-- A session that is not there has no state. -/
theorem state_of_missing {w : World} (h : w.hash k = none) : state w k = none := by
  simp [state, World.field, h]

variable (henv : ∀ w w', env w w' → World.Keeps (.session k) w w')
include henv

/-- A program that stays off the session leaves it missing. -/
theorem missing_of_off {K : Key → Prop} (hkey : ¬ K (.session k)) {p : Svc α}
    (hp : p.Only (Command.Within K)) {w : World} (h : w.hash k = none) :
    p.Wp machine env (fun _ w' => w'.hash k = none) w := by
  refine (entry_of_within henv hkey hp w).mono fun _ w' hsame => ?_
  rw [World.hash_eq_entry, hsame, ← World.hash_eq_entry, h]

/-- What follows a program that stays off the session. -/
theorem missing_bind {β : Type} {K : Key → Prop} (hkey : ¬ K (.session k)) {p : Svc α}
    (hp : p.Only (Command.Within K)) {f : α → Svc β} {Q : Except ServiceError β → World → Prop}
    {w : World} (h : w.hash k = none) (herror : ∀ err w', w'.hash k = none → Q (.error err) w')
    (hf : ∀ a w', w'.hash k = none → (f a).Wp machine env Q w') :
    (p >>= f).Wp machine env Q w :=
  (missing_of_off henv hkey hp h).bind_kept herror hf

/-- A program that looks for the session first, and raises when it is not there. -/
theorem missing_of_look {g : Option Hash → Svc α} {err : ServiceError} (hg : g none = throw err)
    {w : World} (h : w.hash k = none) : (issue (.hgetall k) >>= g).Wp machine env
      (fun x w' => x = .error err ∧ w'.hash k = none) w := by
  refine wp_perform_bind.mpr fun w₁ h₁ => ?_
  have hnone : w₁.hash k = none := (henv _ _ h₁).hash.trans h
  have hreply : (machine (.hgetall k) w₁).1 = none := hnone
  rw [hreply, hg]
  exact ⟨rfl, hnone⟩

/-- A rotation creates no session. -/
theorem rotate_missing (newJti : String) (payload : Payload) (jti k' : String) {w : World}
    (h : w.hash k = none) : (AuthService.rotate cfg newJti payload jti k').Wp machine env
      (fun _ w' => w'.hash k = none) w := by
  refine Wp.bind_kept ?_ (fun _ _ h₁ => h₁) fun _ w₁ h₁ => ?_
  · by_cases hk : k' = k
    · subst hk
      refine wp_perform_bind.mpr fun w₁ h₁ => ?_
      have hnone : w₁.hash k' = none := (henv _ _ h₁).hash.trans h
      have hreply : (machine (.hgetall k') w₁).1 = none := hnone
      rw [hreply]
      exact hnone
    · have hkey : ¬ Key.BelongsTo k' (.session k) := fun heq => hk heq.symm
      exact missing_of_off henv hkey (refreshTtl_within cfg k') h
  · exact missing_of_off henv (by simp [Key.IsJti])
      (rotate_tail_within cfg newJti payload jti k') h₁

/-- A close by a token does not find the session. -/
theorem closeSessionByToken_missing (token : Token) (closeReason : Option String) {w : World}
    (h : w.hash k = none) : (AuthService.closeSessionByToken token closeReason).Wp machine env
      (fun x w' => w'.hash k = none ∧
        ∀ response, x = .ok response → response.archivedConversationId ≠ archivedId k) w := by
  have hfailed (err : ServiceError) (w' : World) (h' : w'.hash k = none) :
      w'.hash k = none ∧ ∀ response, (.error err : Except ServiceError SessionCloseResponse) =
        .ok response → response.archivedConversationId ≠ archivedId k := ⟨h', nofun⟩
  refine missing_bind henv (K := fun _ => False) id (getGlobalSessionKeyFromToken_within token) h
    hfailed fun k' w₁ h₁ => ?_
  -- a token of the session itself finds nothing, and the close fails
  by_cases hk : k' = k
  · subst hk
    refine (missing_of_look henv rfl h₁).mono ?_
    rintro x w₂ ⟨rfl, h₂⟩
    exact hfailed _ _ h₂
  · -- the close is one of another session
    refine missing_bind henv (K := fun _ => False) id (p := issue (.hgetall k'))
      (only_perform.mpr trivial) h₁ hfailed fun session w₂ h₂ => ?_
    cases session with
    | none => exact hfailed _ _ h₂
    | some session =>
      refine missing_bind henv (K := fun _ => False) id (p := issue .now)
        (only_perform.mpr trivial) h₂ hfailed fun now w₃ h₃ => ?_
      have hupdate : (update k' (closeUpdates closeReason now)).Only
          (Command.Within fun key : Key => key = .session k') :=
        @update_within (fun key : Key => key = .session k') k' rfl _
      refine missing_bind henv (by simpa using Ne.symm hk) hupdate h₃ hfailed fun _ w₄ h₄ => ?_
      refine missing_bind henv (K := fun _ => False) id (jtiToDelete_within token) h₄ hfailed
        fun jti w₅ h₅ => ?_
      refine missing_bind henv (by simp [Key.IsJti]) (deleteJti_within jti) h₅ hfailed
        fun _ w₆ h₆ => ?_
      refine missing_bind henv (K := fun _ => False) id (p := issue (.eslog _))
        (only_perform.mpr trivial) h₆ hfailed fun _ w₇ h₇ => ⟨h₇, ?_⟩
      -- the archive has the name of the session that was closed
      rintro response ⟨⟩
      simpa [closeResponse, archivedId] using hk

/-- A request that does not create the session does not find it. -/
theorem request_missing (request : Request)
    (hcreate : ∀ jti r, request ≠ .createSession k jti r) {w : World} (h : w.hash k = none) :
    (request.program cfg).Wp machine env
      (fun outcome w' => w'.hash k = none ∧ request.effect? k outcome = none) w := by
  -- what stays off the session
  have hoff {β : Type} {K : Key → Prop} (hkey : ¬ K (.session k)) {p : Svc β} {f : β → Response}
      (hp : p.Only (Command.Within K)) (hnone : ∀ outcome, request.effect? k outcome = none) :
      (do let a ← p; return f a : Svc Response).Wp machine env
        (fun outcome w' => w'.hash k = none ∧ request.effect? k outcome = none) w :=
    wp_map.mpr ((missing_of_off henv hkey hp h).mono fun x w' h' => ⟨h', hnone _⟩)
  -- what looks for the session first, and gives up
  have hlook {β : Type} {g : Option Hash → Svc β} {f : β → Response} {err : ServiceError}
      (hg : g none = throw err) (hnone : request.effect? k (.error err) = none) :
      (do let a ← (issue (.hgetall k) >>= g : Svc β); return f a : Svc Response).Wp machine env
        (fun outcome w' => w'.hash k = none ∧ request.effect? k outcome = none) w := by
    refine wp_map.mpr ((missing_of_look henv hg h).mono ?_)
    rintro x w' ⟨rfl, h'⟩
    exact ⟨h', hnone⟩
  have hother {k' : String} (hk : k' ≠ k) : ¬ Key.BelongsTo k' (.session k) :=
    fun heq => hk heq.symm
  cases request with
  | createSession k' jti r =>
    have hk : k' ≠ k := by
      rintro rfl
      exact hcreate jti r rfl
    exact hoff (K := fun key => key ≠ .session k) (by simp)
      (createSession_within cfg (by simpa using hk) (by simp) r) fun outcome => by
        cases outcome <;> rfl
  | verifyTokenAndGetSession token =>
    exact hoff (K := fun _ => False) id (AuthService.verifyTokenAndGetSession_within token)
      fun outcome => by cases outcome <;> rfl
  | refreshToken newJti token =>
    refine wp_map.mpr ?_
    refine missing_bind henv (K := fun _ => False) id (authenticate_within token "refresh") h
      (fun err w' h' => ⟨h', rfl⟩) fun x w₁ h₁ => ?_
    refine (rotate_missing henv newJti x.1 x.2.1 x.2.2 h₁).mono fun y w' h' => ⟨h', ?_⟩
    cases y <;> rfl
  | pingSessionByToken token =>
    exact hoff (K := fun _ => False) id (AuthService.pingSessionByToken_within token)
      fun outcome => by cases outcome <;> rfl
  | closeSessionByToken token closeReason =>
    refine wp_map.mpr ((closeSessionByToken_missing henv token closeReason h).mono ?_)
    rintro x w' ⟨h', hother⟩
    refine ⟨h', ?_⟩
    cases x with
    | error err => rfl
    | ok response => exact if_neg (hother response rfl)
  | resolveSession r =>
    exact hoff (K := fun _ => False) id (resolveSession_within r)
      fun outcome => by cases outcome <;> rfl
  | patchSessionState r =>
    by_cases hk : r.globalSessionKey = k
    · subst hk
      exact hlook rfl rfl
    · refine hoff (hother hk) (patchSessionState_within cfg r) fun outcome => ?_
      cases outcome with
      | error err => rfl
      | ok response => exact if_neg hk
  | closeSession r =>
    by_cases hk : r.globalSessionKey = k
    · subst hk
      exact hlook rfl rfl
    · refine hoff (hother hk) (closeSession_within r) fun outcome => ?_
      cases outcome with
      | error err => rfl
      | ok response => exact if_neg hk
  | saveApiResult k' r =>
    by_cases hk : k' = k
    · subst hk
      exact hlook rfl rfl
    · have hturns : (saveApiResult cfg k' r).Only
          (Command.Within fun key : Key => key = .turns k') :=
        @saveApiResult_within cfg (fun key : Key => key = .turns k') k' rfl r
      refine wp_map.mpr ((missing_of_off henv (by simp) hturns h).mono fun x w' h' => ⟨h', ?_⟩)
      cases x with
      | error err => rfl
      | ok turn => exact if_neg hk
  | updateRealtimePersonalContext lookup k' profileData =>
    by_cases hk : k' = k
    · subst hk
      exact hlook rfl rfl
    · exact hoff (hother hk)
        (ProfileService.updateRealtimePersonalContext_within cfg lookup k' profileData)
        fun outcome => by cases outcome <;> rfl

/-- A creation of the session leaves it missing, when it fails, or in state `start`. -/
theorem createSession_missing (jti : String) (request : SessionCreateRequest) {w : World}
    (h : w.hash k = none) : (createSession cfg k jti request).Wp machine env
      (fun x w' => w'.hash k = none ∨ (∃ response, x = .ok response) ∧ state w' k = some .start)
      w := by
  refine missing_bind henv (by simp [Key.IsJti]) (createTokens_within cfg _ k jti) h
    (fun err w₁ h₁ => .inl h₁) fun tokens w₁ h₁ => ?_
  have hnone : w₁.entry (.session k) = none := by
    rwa [World.hash_eq_entry, Option.map_eq_none_iff] at h₁
  refine Wp.seq_ok _ (SessionRefinement.create_represents henv request hnone) ?_
  rintro created w₂ ⟨session, hentry, hrep⟩
  refine wp_perform_bind.mpr fun w₃ h₃ => wp_perform_bind.mpr fun w₄ h₄ => .inr ⟨⟨_, rfl⟩, ?_⟩
  have hentry₄ : w₄.entry (.session k) = some ⟨session, _⟩ :=
    (henv _ _ h₄).entry.trans ((henv _ _ h₃).entry.trans hentry)
  show state w₄ k = some .start
  rw [state, World.field, World.hash_of_entry hentry₄]
  show (session .sessionState).bind _ = _
  rw [hrep.state]
  rfl

end Missing

/-! ### One request -/

section Step

variable {cfg : Config} {within : World → World → Prop} {k : String}

/-- What every request does to the session and to the log. -/
theorem logStep (hwithin : ∀ w w', within w w' → World.Keeps (.session k) w w')
    (request : Request) {w : World} (hsound : w.Sound fun _ => True) :
    (request.program cfg).Wp machine within (fun outcome w' =>
      LogStep k ⟨request, outcome, w, w'⟩ ∧ w'.Sound fun _ => True) w := by
  have helapses (w w' : World) (h : within w w') : w.Elapses w' := (hwithin w w' h).1
  rw [wp_iff_exec]
  intro outcome w' hexec
  refine ⟨⟨(EventLog.esLog_grows helapses _ w).exec hexec, (request.tells helapses w).exec hexec,
    fun hlive => ?_, fun hmissing => ?_⟩,
    (request.keeps_sound helapses request.refers_true hsound).exec hexec⟩
  · obtain ⟨hstepped, hlive', -⟩ := (stepped hwithin request hlive hsound).exec hexec
    exact ⟨hstepped, hlive'⟩
  · -- only a creation brings a session that is not there
    by_cases hcreate : ∃ jti r, request = .createSession k jti r
    · obtain ⟨jti, r, rfl⟩ := hcreate
      have hnone : Served.effect? k ⟨.createSession k jti r, outcome, w, w'⟩ = none := by
        cases outcome <;> rfl
      have hprogram : ((Request.createSession k jti r).program cfg).Wp machine within
          (fun outcome w' => w'.hash k = none ∨
            (∃ response, outcome = .ok response) ∧ state w' k = some .start) w := by
        refine wp_map.mpr ((createSession_missing hwithin jti r hmissing).mono ?_)
        rintro x w' (h | ⟨⟨response, rfl⟩, h⟩)
        · exact .inl h
        · exact .inr ⟨⟨_, rfl⟩, h⟩
      rcases hprogram.exec hexec with h | ⟨⟨response, rfl⟩, h⟩
      · exact ⟨hnone, .inl h⟩
      · exact ⟨hnone, .inr ⟨⟨jti, r, response, rfl, rfl⟩, h⟩⟩
    · have hother : ∀ jti r, request ≠ .createSession k jti r :=
        fun jti r heq => hcreate ⟨jti, r, heq⟩
      obtain ⟨h, hnone⟩ := (request_missing hwithin request hother hmissing).exec hexec
      exact ⟨hnone, .inl h⟩

variable {s : Served}

/-- The status after a request. -/
theorem LogStep.status (h : LogStep k s) :
    s.after.status k = (s.tells k).foldl ingest (s.before.status k) := by
  rw [World.status, h.told, List.foldl_append]
  rfl

/-- A document never goes away. -/
theorem foldl_ingest_ne_none {document : Option Status} (h : document ≠ none) (told : List Status) :
    told.foldl ingest document ≠ none := by
  induction told generalizing document with
  | nil => exact h
  | cons status told ih =>
    refine ih ?_
    cases status with
    | active => nofun
    | ended => simpa [ingest] using h

/-- A close tells that the session has ended. -/
theorem tells_close (h : s.effect? k = some .close) : s.tells k = [.ended] := by
  obtain ⟨request, outcome, before, after⟩ := s
  unfold Served.tells
  rw [h]
  cases request with
  | createSession k' jti r => cases outcome <;> cases h
  | _ => rfl

/-- A creation tells that the session is active. -/
theorem tells_create {jti : String} {request : SessionCreateRequest} {response : Response}
    (hrequest : s.request = .createSession k jti request) (houtcome : s.outcome = .ok response) :
    s.tells k = [.active] := by
  unfold Served.tells
  rw [hrequest, houtcome]
  exact if_pos rfl

/-- Everything else tells nothing. -/
theorem tells_nil (hclose : s.effect? k ≠ some .close)
    (hcreate : ∀ jti request response, s.request = .createSession k jti request →
      s.outcome ≠ .ok response) : s.tells k = [] := by
  obtain ⟨request, outcome, before, after⟩ := s
  unfold Served.tells
  cases request with
  | createSession k' jti r =>
    -- a creation has no effect, and one that fails does not tell of the session
    have hnone : Served.effect? k ⟨.createSession k' jti r, outcome, before, after⟩ = none := by
      cases outcome <;> rfl
    rw [hnone]
    cases outcome with
    | error err => rfl
    | ok response => exact if_neg fun hk : k' = k => hcreate jti r response (by rw [hk]) rfl
  | _ =>
    dsimp only
    revert hclose
    rcases Served.effect? k _ with _ | _ | _ | _ <;> simp

/-- A live session has a document, once one that was live before has. -/
theorem LogStep.known (h : LogStep k s)
    (hbefore : (s.before.hash k).isSome → s.before.status k ≠ none)
    (hlive : (s.after.hash k).isSome) : s.after.status k ≠ none := by
  rw [h.status]
  cases hash : s.before.hash k with
  | some session => exact foldl_ingest_ne_none (hbefore (by rw [hash]; rfl)) _
  | none =>
    rcases (h.missing hash).2 with hnone | ⟨⟨jti, request, response, hrequest, houtcome⟩, -⟩
    · rw [hnone] at hlive
      cases hlive
    · rw [tells_create hrequest houtcome]
      nofun

/-- The log and the store agree about a session that is live. -/
def InStep (k : String) (w : World) : Prop :=
  (w.hash k).isSome → (w.status k = some .ended ↔ state w k = some .end_)

/-- Without a close the request must leave the session out of `end`, or in it. -/
theorem LogStep.agrees_iff_of_open (h : LogStep k s) (hclose : s.effect? k ≠ some .close) :
    Agrees k s ↔ (state s.after k = some .end_ → state s.before k = some .end_) ∧
      InStep k s.after := by
  have hlogged : ¬ s.LogsClose k := by rwa [Served.logsClose_iff h.appends h.told]
  constructor
  · intro hagrees
    refine ⟨fun hafter => ?_, hagrees.status⟩
    by_contra hbefore
    exact hlogged (hagrees.logged.mpr ⟨hafter, .inl hbefore⟩)
  · rintro ⟨hkept, hstep⟩
    refine ⟨⟨fun hlog => absurd hlog hlogged, fun hends => ?_⟩, hstep⟩
    rcases hends.2 with hbefore | heffect
    · exact absurd (hkept hends.1) hbefore
    · exact absurd heffect hclose

/-- A request that finds the session missing leaves the log and the store in agreement. -/
theorem LogStep.agrees_of_missing (h : LogStep k s) (hmissing : s.before.hash k = none) :
    Agrees k s := by
  obtain ⟨hnone, hafter⟩ := h.missing hmissing
  rw [h.agrees_iff_of_open (by rw [hnone]; nofun)]
  rcases hafter with hgone | ⟨⟨jti, request, response, hrequest, houtcome⟩, hstart⟩
  · rw [state_of_missing hgone]
    refine ⟨nofun, fun hlive => ?_⟩
    rw [hgone] at hlive
    cases hlive
  · have hstatus : s.after.status k = some .active := by
      rw [h.status, tells_create hrequest houtcome]
      rfl
    rw [hstart]
    refine ⟨nofun, fun _ => ?_⟩
    rw [hstatus, hstart]
    decide

/-- A close leaves the log and the store in agreement. -/
theorem LogStep.agrees_of_close (h : LogStep k s) (hlive : (s.before.hash k).isSome)
    (hknown : s.before.status k ≠ none) (heffect : s.effect? k = some .close) : Agrees k s := by
  have hafter : state s.after k = some .end_ := by
    rw [(h.live hlive).1.after, heffect]
    rfl
  have hstatus : s.after.status k = some .ended := by
    obtain ⟨status, hstatus⟩ := Option.ne_none_iff_exists'.mp hknown
    rw [h.status, tells_close heffect, hstatus]
    rfl
  refine ⟨?_, fun _ => by rw [hstatus, hafter]; simp⟩
  rw [Served.logsClose_iff h.appends h.told]
  exact ⟨fun _ => ⟨hafter, .inr heffect⟩, fun _ => heffect⟩

/-- A request without a close on a live session tells nothing, or makes it active again. -/
theorem LogStep.inStep_iff (h : LogStep k s) (hlive : (s.before.hash k).isSome)
    (hbefore : InStep k s.before) (hclose : s.effect? k ≠ some .close)
    (hcreate : ∀ jti request response, s.request = .createSession k jti request →
      s.outcome ≠ .ok response) :
    InStep k s.after ↔ (state s.before k = some .end_ ↔ state s.after k = some .end_) := by
  have hstatus : s.after.status k = s.before.status k := by
    rw [h.status, tells_nil hclose hcreate]
    rfl
  unfold InStep
  rw [hstatus, hbefore hlive]
  exact ⟨fun h' => h' (h.live hlive).2, fun h' _ => h'⟩

/-- A request keeps the log and the store in agreement exactly when it meets the condition. -/
theorem LogStep.agrees_iff_meets (h : LogStep k s)
    (hknown : (s.before.hash k).isSome → s.before.status k ≠ none) (hbefore : InStep k s.before) :
    Agrees k s ↔ Meets k s := by
  cases hash : s.before.hash k with
  | none =>
    -- a missing session cannot be patched, and has no state
    have hstate : state s.before k = none := state_of_missing hash
    refine iff_of_true (h.agrees_of_missing hash)
      ⟨fun request _ _ hlive => ?_, fun _ _ _ _ _ => ?_⟩
    · rw [hash] at hlive
      cases hlive
    · rw [hstate]
      nofun
  | some session =>
    have hlive : (s.before.hash k).isSome := by rw [hash]; rfl
    have hstepped := (h.live hlive).1
    by_cases hclose : s.effect? k = some .close
    · refine iff_of_true (h.agrees_of_close hlive (hknown hlive) hclose) ⟨?_, ?_⟩
      · intro request hrequest hk _ hvalid
        rw [(hstepped.accepted request hrequest hk).mpr hvalid] at hclose
        cases hclose
      · intro jti request response hrequest houtcome
        unfold Served.effect? at hclose
        rw [hrequest, houtcome] at hclose
        cases hclose
    rw [h.agrees_iff_of_open hclose]
    by_cases hcreate : ∃ jti request response, s.request = .createSession k jti request ∧
      s.outcome = .ok response
    · -- the document becomes active, the stored state stays
      obtain ⟨jti, request, response, hrequest, houtcome⟩ := hcreate
      have hnone : s.effect? k = none := by
        unfold Served.effect?
        rw [hrequest, houtcome]
        rfl
      have hstate : state s.after k = state s.before k := by
        rw [hstepped.after, hnone]
        rfl
      have hstatus : s.after.status k = some .active := by
        rw [h.status, tells_create hrequest houtcome]
        rfl
      have hinStep : InStep k s.after ↔ state s.before k ≠ some .end_ := by
        unfold InStep
        rw [hstatus, hstate]
        simp [(h.live hlive).2]
      rw [hstate, hinStep]
      refine ⟨fun hmeets => ⟨?_, fun _ _ _ _ _ => hmeets.2⟩,
        fun hmeets => ⟨id, hmeets.create jti request response hrequest houtcome⟩⟩
      intro request' hrequest'
      rw [hrequest] at hrequest'
      cases hrequest'
    · have hother : ∀ jti request response, s.request = .createSession k jti request →
          s.outcome ≠ .ok response :=
        fun jti request response hrequest houtcome =>
          hcreate ⟨jti, request, response, hrequest, houtcome⟩
      rw [h.inStep_iff hlive hbefore hclose hother, hstepped.after]
      constructor
      · rintro ⟨-, hsame⟩
        refine ⟨fun request hrequest hk _ hvalid b hb => ?_,
          fun jti request response hrequest houtcome =>
            absurd houtcome (hother jti request response hrequest)⟩
        rw [(hstepped.accepted request hrequest hk).mpr hvalid, Option.bind_some, Effect.state?, hb,
          Option.some_or, Option.some.injEq] at hsame
        exact hsame.symm
      · intro hmeets
        have hsame : state s.before k = some .end_ ↔
            ((s.effect? k).bind Effect.state?).or (state s.before k) = some .end_ := by
          rcases heffect : s.effect? k with _ | request | _ | turn
          · exact Iff.rfl
          · obtain ⟨hrequest, hk⟩ := request_of_effect? heffect
            have hvalid := (hstepped.accepted request hrequest hk).mp heffect
            rw [Option.bind_some, Effect.state?]
            cases hb : request.sessionState with
            | none => exact Iff.rfl
            | some b =>
              rw [Option.some_or, Option.some.injEq]
              exact (hmeets.patch request hrequest hk hlive hvalid b hb).symm
          · exact absurd heffect hclose
          · exact Iff.rfl
        exact ⟨hsame.mpr, hsame⟩

end Step

/-! ### Runs -/

section Runs

variable {cfg : Config} {k : String}

/-- A session that is live later was live before, with the same status and state. -/
theorem same_of_elapses {w w' : World} (helapses : w.Elapses w') (hlive : (w'.hash k).isSome) :
    (w.hash k).isSome ∧ w'.status k = w.status k ∧ state w' k = state w k := by
  obtain ⟨session, hsession⟩ := Option.isSome_iff_exists.mp hlive
  have hbefore : w.hash k = some session := helapses.get hsession
  refine ⟨by rw [hbefore]; rfl, ?_, ?_⟩
  · rw [World.status, EventLog.told_elapses helapses]
    rfl
  · rw [state, state, World.field, World.field, hsession, hbefore]

/-- What a run has led to, as far as session `k` is concerned. -/
structure Replayed (k : String) (served : List Served) (w : World) : Prop where
  sound : w.Sound fun _ => True
  steps : ∀ s ∈ served, LogStep k s
  known : (w.hash k).isSome → w.status k ≠ none
  inStep : (∀ s ∈ served, Agrees k s) → InStep k w
  agrees_iff : (∀ s ∈ served, Agrees k s) ↔ ∀ s ∈ served, Meets k s

theorem Replayed.elapses {served : List Served} {w w' : World} (h : Replayed k served w)
    (helapses : w.Elapses w') : Replayed k served w' where
  sound := h.sound.elapses helapses
  steps := h.steps
  known hlive := by
    obtain ⟨hlive', hstatus, -⟩ := same_of_elapses helapses hlive
    rw [hstatus]
    exact h.known hlive'
  inStep hagrees hlive := by
    obtain ⟨hlive', hstatus, hstate⟩ := same_of_elapses helapses hlive
    rw [hstatus, hstate]
    exact h.inStep hagrees hlive'
  agrees_iff := h.agrees_iff

/-- One more request. -/
theorem Replayed.serve {within : World → World → Prop}
    (hwithin : ∀ w w', within w w' → World.Keeps (.session k) w w') {served : List Served}
    {w : World} (h : Replayed k served w) (request : Request) :
    (request.program cfg).Wp machine within
      (fun outcome w' => Replayed k (served ++ [⟨request, outcome, w, w'⟩]) w') w := by
  refine (logStep hwithin request h.sound).mono fun outcome w' hstep => ?_
  obtain ⟨hstep, hsound⟩ := hstep
  refine ⟨hsound, ?_, hstep.known h.known, fun hagrees => ?_, ?_⟩
  · rw [List.forall_mem_append, List.forall_mem_singleton]
    exact ⟨h.steps, hstep⟩
  · exact (hagrees _ (List.mem_append_right _ List.mem_cons_self)).status
  · rw [List.forall_mem_append, List.forall_mem_append, List.forall_mem_singleton,
      List.forall_mem_singleton, ← h.agrees_iff]
    exact and_congr_right fun hagrees => hstep.agrees_iff_meets h.known (h.inStep hagrees)

end Runs

end LogAgreement

namespace LogAgreement

open LifeCycle

end LogAgreement

end SessionManager
