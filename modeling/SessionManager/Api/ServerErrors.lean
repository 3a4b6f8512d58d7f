import SessionManager.Api.Refusals
import SessionManager.ReadableSessions
import SessionManager.RejectedPatches
import SessionManager.TokenRule

/-!
# Server errors

The exceptions that nothing turns into a response of its own are answered with 500. In runs from an
empty store there are two reasons for one: a session whose reference information cannot be shown,
and a profile whose customer number cannot be read or looked up.

* `Unreadable`, `Call.Fails` — what makes a call fail.
* `api_sound` — what calls store is well formed.
* `handle_fails` — a call, as far as its 500s are concerned.
* `serverErrors_iff` — when a call is answered with 500.
-/

namespace SessionManager

open Python Interaction
open RedisHelper SessionRepository SessionService
open ReadableSessions (Shown)

open Program hiding pure

namespace Api

/-- The customer number of the profile cannot be read, or the repository cannot look it up. -/
def Unreadable (answers : String → Except PyError (Option Dict)) (profileData : Dict) : Prop :=
  (∃ e, Routes.profileCusno profileData = .error e) ∨
    (∃ e, ProfileService.cusnoOf profileData = .error e) ∨
    ∃ cusno e, ProfileService.cusnoOf profileData = .ok (some cusno) ∧ answers cusno = .error e

/-- The call fails: the session that it has read cannot be shown, or the customer number cannot be
used by a call that is not refused. -/
def Call.Fails (log : List (Event redis)) (response : HttpResponse) : Call → Prop
  | .getSession k _ _ => ∃ session, log.head? = some ⟨.hgetall k, some session⟩ ∧ ¬ Shown session
  | .updateRealtimePersonalContext answers _ profileData =>
    ¬ Refused response ∧ Unreadable answers profileData
  | _ => False

/-- The 500s of a call are those of its failures. -/
def Call.Explains (call : Call) (log : List (Event redis)) (response : HttpResponse) : Prop :=
  response.statusCode = 500 ↔ call.Fails log response

namespace ServerErrors

open Refusals (Refusal Internal Computes)

variable {cfg : Config} {k : String}

/-- The replies of a well-formed store. -/
abbrev replies : (c : Command) → c.Reply → Prop := ReplyOk fun _ => True

/-- The exception is answered with 500. -/
def Fatal (e : ServiceError) : Prop := (errorResponse e).statusCode = 500

theorem fatal_of_internal {e : ServiceError} (h : Internal e) : Fatal e := by
  cases e with
  | http statusCode detail => exact absurd h id
  | sessionManager e => exact absurd h id
  | _ => rfl

/-- A route that answers a missing session with 404 changes no other status. -/
theorem Fatal.of_notFound {e : ServiceError} (h : Fatal (Routes.notFound k e)) : Fatal e := by
  cases e with
  | sessionManager e =>
    unfold Routes.notFound at h
    dsimp only at h
    split_ifs at h
    · cases h
    · exact h
  | _ => exact h

theorem notFound_internal {e : ServiceError} (h : Internal e) : Routes.notFound k e = e := by
  cases e with
  | http statusCode detail => rfl
  | sessionManager e => exact absurd h id
  | _ => rfl

/-! ### What calls store -/

/-- In runs of the API from an empty store, what is stored is well formed. -/
theorem api_sound {ι : Type} [DecidableEq ι] {calls : ι → Call} {now : ℕ}
    {p : Pool redis ServiceError HttpResponse World ι}
    (hrun : Pool.Run machine World.Elapses (fun _ _ => True)
      (Pool.start (fun i => (calls i).handle cfg) (.init now)) p) :
    p.state.Sound fun _ => True := by
  obtain ⟨bodies, p', hrun', hstate, hcovers⟩ :=
    hrun.absorb (fun i => handle_leads cfg (calls i)) (idleRequest.program cfg)
  choose requests hbodies _ _ using fun i => request_of_covers (hcovers i)
  rw [funext hbodies] at hrun'
  have hreach : Reachable cfg (Request.Refers fun _ => True) p'.state :=
    ⟨ι, inferInstance, requests, now, p', fun i => (requests i).refers_true, hrun', rfl⟩
  rw [← hstate]
  exact hreach.sound

/-! ### Calls that do not fail -/

/-- A call whose exceptions are all answered with another status. -/
theorem explains_of_raises {call : Call} (hfails : ∀ log response, ¬ call.Fails log response)
    (hraises : (call.program cfg).Raises fun e => ¬ Fatal e) :
    (call.program cfg).Follows (recording replies)
      (fun log x => call.Explains log (call.respond x)) [] := by
  refine (follows_recording_of_raises hraises []).mono fun log x h => ?_
  refine iff_of_false ?_ (hfails _ _)
  cases x with
  | ok response => cases call <;> exact nofun
  | error e => exact h.2 e rfl

/-- A program whose result is wrapped up. -/
theorem wrap_raises {α : Type} {p : Svc α} {g : α → Response} {R : ServiceError → Prop}
    (hp : p.Raises R) : (do let a ← p; return g a : Svc Response).Raises R :=
  hp.bind fun _ => trivial

/-- A route that answers a missing session with 404. -/
theorem notFound_raises {α : Type} {p : Svc α} (hp : p.Raises fun e => ¬ Fatal e) :
    (p.catchWith fun e => .throw (Routes.notFound k e)).Raises fun e => ¬ Fatal e :=
  hp.catchWith fun _ he hfatal => he hfatal.of_notFound

/-- A service that reads its session first. -/
theorem get_raises {α : Type} {rest : Option Hash → Svc α}
    (hnone : rest none = .throw (.sessionManager (sessionNotFoundError k)))
    (hsome : ∀ session, (rest (some session)).Raises fun e => ¬ Fatal e) :
    (SessionRepository.get k >>= rest).Raises fun e => ¬ Fatal e := by
  refine .perform_bind fun session => ?_
  cases session with
  | none =>
    rw [hnone]
    exact nofun
  | some session => exact hsome session

/-- A token that is refused is answered with 401. -/
theorem authenticate_raises (token : Token) (type : String) :
    (authenticate token type).Raises fun e => ¬ Fatal e := by
  have hverified : (verifyToken token).Raises fun e => ¬ Fatal e := by
    cases token with
    | invalid text => trivial
    | signed payload => exact fun _ => trivial
  refine hverified.bind fun verified => ?_
  cases verified with
  | error detail => exact nofun
  | ok payload =>
    dsimp only
    split
    · refine Raises.bind ?_ fun _ => trivial
      unfold sessionKeyOfPayload
      split
      · exact nofun
      · refine Raises.bind (.perform_bind fun _ => trivial) fun found => ?_
        cases found with
        | none => exact nofun
        | some k => trivial
    · exact nofun

theorem refreshToken_raises (newJti : String) (token : Token) :
    (AuthService.refreshToken cfg newJti token).Raises fun e => ¬ Fatal e := by
  refine (authenticate_raises token "refresh").bind fun found => refreshTtl_raises.bind fun _ => ?_
  exact fun _ _ _ _ _ _ _ => trivial

theorem verifyTokenAndGetSession_raises (token : Token) :
    (AuthService.verifyTokenAndGetSession token).Raises fun e => ¬ Fatal e := by
  refine (authenticate_raises token "access").bind fun found => ?_
  exact fun _ _ => trivial

theorem closeSessionByToken_raises (token : Token) (closeReason : Option String) :
    (AuthService.closeSessionByToken token closeReason).Raises fun e => ¬ Fatal e := by
  rw [TokenRule.closeSessionByToken_eq]
  exact (getGlobalSessionKeyFromToken_raises (fun _ => nofun) token).bind fun k =>
    TokenRule.closeFound_raises token closeReason nofun

theorem closeSession_raises (request : SessionCloseRequest) :
    (closeSession request).Raises fun e => ¬ Fatal e :=
  get_raises rfl fun _ => .perform_bind fun _ => (update_raises _).bind fun _ =>
    .perform_bind fun _ => trivial

theorem saveApiResult_raises (request : SolApiResultRequest) :
    (saveApiResult cfg k request).Raises fun e => ¬ Fatal e :=
  get_raises rfl fun _ _ _ _ => trivial

/-! ### Patches -/

/-- The stored mappings are an object, or there are none. -/
theorem withMapping_isOk {stored : Option Json}
    (hstored : ∀ v, stored = some v → Field.Ok (fun _ => True) .agentMappings v)
    (agentId key type : String) :
    ∃ mappings, withMapping stored agentId key type = .ok mappings := by
  cases stored with
  | none => exact ⟨_, rfl⟩
  | some v =>
    obtain ⟨mappings, rfl, -⟩ := hstored v rfl
    exact ⟨_, rfl⟩

/-- A sequence whose first part raises nothing. -/
theorem follows_bind_of_returns {α β : Type} {p : Svc α} {f : α → Svc β}
    {post : List (Event redis) → Except ServiceError β → Prop} {log : List (Event redis)}
    (hp : p.Raises fun _ => False)
    (hf : ∀ log' a, log <+: log' → (f a).Follows (recording replies) post log') :
    (p >>= f).Follows (recording replies) post log := by
  refine Follows.seq (fun log' _ => log <+: log')
    ((follows_recording_of_raises hp log).mono fun log' x h => ?_) fun log' a hlog => hf log' a hlog
  cases x with
  | ok a => exact h.1
  | error e => exact (h.2 e rfl).elim

/-- In a well-formed store agents can be registered. -/
theorem registerAgent_follows (request : SessionPatchRequest) (log : List (Event redis)) :
    (registerAgent request).Follows (recording replies) (fun _ x => x = .ok ()) log := by
  unfold registerAgent
  split
  · next agentId key type _ =>
    refine .perform_bind trivial fun session hsession => ?_
    cases session with
    | none => rfl
    | some session =>
      obtain ⟨mappings, hmappings⟩ :=
        withMapping_isOk (hsession session rfl .agentMappings) agentId key type
      dsimp only
      rw [hmappings]
      dsimp only
      rw [updateSession_eq _ (mappingUpdate_isEmpty mappings)]
      refine .perform_bind trivial fun found _ => ?_
      cases found with
      | false => rfl
      | true => exact ⟨trivial, fun _ _ => rfl⟩
  · rfl

theorem patchSessionState_follows (request : SessionPatchRequest) :
    (patchSessionState cfg request).Follows (recording replies)
      (fun _ x => ∀ e, x = .error e → ¬ Fatal e) [] := by
  refine .perform_bind trivial fun session _ => ?_
  cases session with
  | none =>
    rintro e he
    obtain rfl := Except.error.inj he
    exact nofun
  | some session =>
    refine .perform_bind trivial fun now _ =>
      follows_bind_of_returns (Refusals.refreshOnTalk_raises request) fun log _ _ => ?_
    refine .ofExcept_bind (fun e he e' he' => ?_) fun _ _ => ?_
    · obtain ⟨detail, rfl⟩ := RejectedPatches.validatePatch_error he
      obtain rfl := Except.error.inj he'
      exact nofun
    · refine Follows.seq (fun _ _ => True) ((registerAgent_follows request log).mono ?_) ?_
      · rintro _ x rfl
        trivial
      · intro log' _ _
        refine follows_bind_of_returns (update_raises _) fun _ _ _ => ?_
        refine .perform_bind trivial fun _ _ e he => ?_
        cases he

/-! ### Resolutions -/

/-- The agent's key is a text or nothing. -/
theorem agentSessionKey_follows (request : SessionResolveRequest) (log : List (Event redis)) :
    (agentSessionKey request).Follows (recording replies) (fun log' x => log <+: log' ∧
      ∃ mapped, x = .ok mapped ∧ (mapped.isNone ∨ mapped.isStr)) log := by
  unfold agentSessionKey
  split
  · split
    · exact ⟨List.prefix_refl log, .null, rfl, .inl rfl⟩
    · next agentId _ _ _ =>
      refine .perform_bind trivial fun session hsession => ?_
      have hlog := List.prefix_append log
        [(⟨.hgetall request.globalSessionKey, session⟩ : Event redis)]
      cases session with
      | none => exact ⟨hlog, .null, rfl, .inl rfl⟩
      | some session =>
        obtain ⟨mapped, hmapped, htext⟩ :=
          ReadableSessions.mappedKey_ok (hsession session rfl .agentMappings) agentId
        dsimp only
        rw [hmapped]
        exact ⟨hlog, mapped, rfl, htext⟩
  · exact ⟨List.prefix_refl log, .null, rfl, .inl rfl⟩

/-- The profiles are objects. -/
theorem sessionProfiles_follows (k : String) (cusno : Option String) (log : List (Event redis)) :
    (sessionProfiles k cusno).Follows (recording replies) (fun log' x => log <+: log' ∧
      ∃ profiles, x = .ok profiles ∧ ∀ mapped : Json, mapped.isNone ∨ mapped.isStr →
        ReadableSessions.Fetched mapped profiles) log := by
  have hdict {json : Json} (h : ∃ profile, json = .obj profile) :
      json.isDict := by
    obtain ⟨profile, rfl⟩ := h
    rfl
  unfold sessionProfiles
  split
  · refine .perform_bind trivial fun batch hbatch => .perform_bind trivial fun realtime hrealtime =>
      ⟨(List.prefix_append _ _).trans (List.prefix_append _ _), _, rfl, fun mapped hmapped => ?_⟩
    exact ⟨hmapped, fun v hv => hdict (hbatch v hv), fun v hv => hdict (hrealtime v hv)⟩
  · refine .perform_bind trivial fun realtime hrealtime =>
      ⟨List.prefix_append _ _, _, rfl, fun mapped hmapped => ?_⟩
    exact ⟨hmapped, nofun, fun v hv => hdict (hrealtime v hv)⟩

/-- What becomes of a resolution: the session is shown, is not there, or cannot be shown. -/
inductive Resolves (k : String) (log : List (Event redis)) :
    Except ServiceError SessionResolveResponse → Prop
  | shown {response : SessionResolveResponse} {session : Hash} :
      log.head? = some ⟨.hgetall k, some session⟩ → Shown session → Resolves k log (.ok response)
  | missing : log.head? = some ⟨.hgetall k, none⟩ →
      Resolves k log (.error (.sessionManager (sessionNotFoundError k)))
  | broken {e : ServiceError} {session : Hash} : log.head? = some ⟨.hgetall k, some session⟩ →
      ¬ Shown session → Internal e → Resolves k log (.error e)

/-- What stands first in a log stays first. -/
theorem head?_of_prefix {event : Event redis} {log : List (Event redis)} (h : [event] <+: log) :
    log.head? = some event := by
  obtain ⟨rest, rfl⟩ := h
  rfl

theorem resolveSession_follows (request : SessionResolveRequest) :
    (resolveSession request).Follows (recording replies)
      (fun log x => Resolves request.globalSessionKey log x) [] := by
  refine .perform_bind trivial fun session hsession => ?_
  cases session with
  | none => exact .missing rfl
  | some session =>
    have hok : session.Ok fun _ => True := hsession session rfl
    have hfirst := List.prefix_refl
      [(⟨.hgetall request.globalSessionKey, some session⟩ : Event redis)]
    -- everything that is read from here on is as its readers expect
    refine Follows.seq (fun log mapped =>
      [⟨.hgetall request.globalSessionKey, some session⟩] <+: log ∧
        (mapped.isNone ∨ mapped.isStr))
      ((agentSessionKey_follows request _).mono ?_) ?_
    · rintro log _ ⟨hlog, mapped, rfl, htext⟩
      exact ⟨hlog, htext⟩
    rintro log mapped ⟨hlog, hmapped⟩
    obtain ⟨status, hstatus⟩ := ReadableSessions.enumField_ok "TaskQueueStatus"
      (session .taskQueueStatus) TaskQueueStatus.null (hok .taskQueueStatus)
    rw [hstatus, ofExcept_ok, pure_bind']
    refine Follows.seq
      (fun log' profiles => log <+: log' ∧ ReadableSessions.Fetched mapped profiles)
      ((sessionProfiles_follows request.globalSessionKey (session .cusno) log).mono ?_) ?_
    · rintro log' _ ⟨hlog', profiles, rfl, hprofiles⟩
      exact ⟨hlog', hprofiles mapped hmapped⟩
    rintro log' profiles ⟨hlog', hfetched⟩
    refine .perform_bind trivial fun _ _ => ?_
    have hhead := head?_of_prefix ((hlog.trans hlog').trans (List.prefix_append log'
      [(⟨.eslog (resolveRecord request session), ()⟩ : Event redis)]))
    have hiff := @ReadableSessions.resolveResponse_ok_iff request session hok status mapped profiles
      hfetched
    cases hresponse : resolveResponse request session status mapped profiles with
    | ok response => exact .shown hhead (hiff.mp ⟨response, hresponse⟩)
    | error e =>
      refine .broken hhead (fun hshown => ?_)
        (Refusals.computes_resolveResponse _ _ _ _ _ e hresponse)
      obtain ⟨response, hok'⟩ := hiff.mpr hshown
      cases hresponse.symm.trans hok'

/-! ### Updates of profiles -/

/-- The customer number cannot be used by the service. -/
def UnusableNumber (answers : String → Except PyError (Option Dict)) (profileData : Dict) : Prop :=
  (∃ e, ProfileService.cusnoOf profileData = .error e) ∨
    ∃ cusno e, ProfileService.cusnoOf profileData = .ok (some cusno) ∧ answers cusno = .error e

/-- What becomes of an update: it succeeds with a number that can be used, the session is not there,
or it fails over the number. -/
inductive Updates (answers : String → Except PyError (Option Dict)) (profileData : Dict)
    (k : String) : Except ServiceError ProfileService.RealtimePersonalContextResponse → Prop
  | updated {response : ProfileService.RealtimePersonalContextResponse} :
      ¬ UnusableNumber answers profileData → Updates answers profileData k (.ok response)
  | missing : Updates answers profileData k (.error (.sessionManager (sessionNotFoundError k)))
  | broken {e : ServiceError} : UnusableNumber answers profileData → Internal e →
      Updates answers profileData k (.error e)

theorem updateRealtimePersonalContext_follows (answers : String → Except PyError (Option Dict))
    (profileData : Dict) (log : List (Event redis)) :
    (ProfileService.updateRealtimePersonalContext cfg (repositoryLookup answers) k
      profileData).Follows (recording replies)
      (fun _ x => Updates answers profileData k x) log := by
  refine .perform_bind trivial fun session _ => ?_
  cases session with
  | none => exact .missing
  | some session =>
    dsimp only
    cases hcusno : ProfileService.cusnoOf profileData with
    | error e =>
      rw [ofExcept_error, throw_bind]
      refine .broken (.inl ⟨e, hcusno⟩) ?_
      rw [cusnoOf_raises hcusno]
      trivial
    | ok cusno =>
      rw [ofExcept_ok, pure_bind']
      -- once the profiles are stored nothing raises
      have hsuccess (husable : ¬ UnusableNumber answers profileData) (batch : Option Dict)
          (log : List (Event redis)) :
          (do issue (.eslog (ProfileService.updateRecord k cusno batch))
              let now ← issue .now
              return { status := "success", updatedAt := now } :
            Svc ProfileService.RealtimePersonalContextResponse).Follows (recording replies)
            (fun _ x => Updates answers profileData k x) log :=
        .perform_bind trivial fun _ _ => .perform_bind trivial fun _ _ => .updated husable
      unfold ProfileService.storeProfiles
      cases cusno with
      | none =>
        rw [bind_assoc]
        refine follows_bind_of_returns (setProfile_raises _ _ _) fun log _ _ => hsuccess ?_ _ log
        rintro (⟨e, he⟩ | ⟨cusno, e, he, -⟩)
        · cases hcusno.symm.trans he
        · cases hcusno.symm.trans he
      | some cusno =>
        simp only [bind_assoc]
        refine follows_bind_of_returns (update_raises _) fun _ _ _ =>
          follows_bind_of_returns (setProfile_raises _ _ _) fun log _ _ => ?_
        cases hanswer : answers cusno with
        | error e =>
          have hlookup : repositoryLookup answers cusno = .error (repositoryError e) := by
            rw [repositoryLookup, hanswer]
            rfl
          rw [hlookup, ofExcept_error, throw_bind]
          exact .broken (.inr ⟨cusno, e, hcusno, hanswer⟩)
            (Refusals.repositoryLookup_error hlookup)
        | ok batch =>
          have hlookup : repositoryLookup answers cusno = .ok batch := by
            rw [repositoryLookup, hanswer]
            rfl
          rw [hlookup, ofExcept_ok, pure_bind']
          have hstores :
              (ProfileService.storeBatchProfile cfg cusno batch).Raises fun _ => False := by
            unfold ProfileService.storeBatchProfile
            split
            · exact setProfile_raises _ _ _
            · trivial
          refine follows_bind_of_returns hstores fun log _ _ => hsuccess ?_ _ log
          rintro (⟨e, he⟩ | ⟨cusno', e, he, herror⟩)
          · cases hcusno.symm.trans he
          · obtain rfl := Option.some.inj (Except.ok.inj (hcusno.symm.trans he))
            cases hanswer.symm.trans herror

/-! ### The routes -/

/-- A program whose result is wrapped up. -/
theorem explains_wrap {α : Type} {call : Call} {p : Svc α} {g : α → Response}
    (h : p.Follows (recording replies)
      (fun log x => call.Explains log (call.respond (x.map g))) []) :
    (do let a ← p; return g a : Svc Response).Follows (recording replies)
      (fun log x => call.Explains log (call.respond x)) [] :=
  Follows.wrap h

/-- What a resolution comes to explains the status of the call. -/
theorem Resolves.explains {k : String} {agentType : Option AgentType} {agentId : Option String}
    {log : List (Event redis)} {x : Except ServiceError SessionResolveResponse}
    (h : Resolves k log x) :
    (Call.getSession k agentType agentId).Explains log
      ((Call.getSession k agentType agentId).respond
        ((x.mapError (Routes.notFound k)).map .resolved)) := by
  cases h with
  | shown hhead hshown =>
    refine iff_of_false nofun ?_
    rintro ⟨session', hhead', hnot⟩
    cases hhead.symm.trans hhead'
    exact hnot hshown
  | missing hhead =>
    refine iff_of_false nofun ?_
    rintro ⟨session', hhead', -⟩
    cases hhead.symm.trans hhead'
  | @broken e session hhead hnot hinternal =>
    refine iff_of_true ?_ ⟨session, hhead, hnot⟩
    show Fatal (Routes.notFound k e)
    rw [notFound_internal hinternal]
    exact fatal_of_internal hinternal

/-- An exception that is answered with 500 refuses no call. -/
theorem not_refused_of_internal {e : ServiceError} (h : Internal e) : ¬ Refused (errorResponse e) :=
  fun hrefused => h.not_refusal (Refusals.refusal_of_refused hrefused)

/-- A refused call is not answered with 500. -/
theorem explains_of_refused {answers : String → Except PyError (Option Dict)}
    {headers : Routes.TokenHeaders} {profileData : Dict} {log : List (Event redis)}
    {response : HttpResponse} (hrefused : Refused response) :
    (Call.updateRealtimePersonalContext answers headers profileData).Explains log response := by
  refine iff_of_false (fun hstatus => ?_) fun h => h.1 hrefused
  rcases hrefused with h | h | h
  · cases hstatus.symm.trans h
  · cases hstatus.symm.trans h
  · rw [h] at hstatus
    cases hstatus

/-- What an update comes to explains the status of the call, when its number can be printed. -/
theorem Updates.explains {answers : String → Except PyError (Option Dict)}
    {headers : Routes.TokenHeaders} {profileData : Dict} {k : String} {log : List (Event redis)}
    {x : Except ServiceError ProfileService.RealtimePersonalContextResponse}
    (hprinted : ∀ e, Routes.profileCusno profileData ≠ .error e)
    (h : Updates answers profileData k x) :
    (Call.updateRealtimePersonalContext answers headers profileData).Explains log
      ((Call.updateRealtimePersonalContext answers headers profileData).respond
        ((x.mapError (Routes.notFound k)).map .updated)) := by
  cases h with
  | updated husable =>
    refine iff_of_false nofun ?_
    rintro ⟨-, ⟨e, he⟩ | hunusable⟩
    · exact hprinted e he
    · exact husable hunusable
  | missing => exact explains_of_refused (.inr (.inl rfl))
  | @broken e hunusable hinternal =>
    have hsame : Routes.notFound k e = e := notFound_internal hinternal
    refine iff_of_true ?_ ⟨?_, .inr hunusable⟩
    · show Fatal (Routes.notFound k e)
      rw [hsame]
      exact fatal_of_internal hinternal
    · show ¬ Refused (errorResponse (Routes.notFound k e))
      rw [hsame]
      exact not_refused_of_internal hinternal

/-- A handler that raises another exception. -/
theorem follows_mapError {α : Type} {p : Svc α} {h : ServiceError → ServiceError}
    {post : List (Event redis) → Except ServiceError α → Prop} {log : List (Event redis)}
    (hp : p.Follows (recording replies) (fun log x => post log (x.mapError h)) log) :
    (p.catchWith fun e => .throw (h e)).Follows (recording replies) post log := by
  refine Follows.catchWith (hp.mono fun log x hx => ?_)
  cases x with
  | ok a => exact hx
  | error e => exact hx

/-- The program of every call explains its 500s. -/
theorem program_explains (cfg : Config) (call : Call) :
    (call.program cfg).Follows (recording replies)
      (fun log x => call.Explains log (call.respond x)) [] := by
  cases call with
  | createSession k jti request =>
    exact explains_of_raises (fun _ _ => id)
      (wrap_raises (Refusals.createSession_raises k jti request))
  | verifyTokenAndGetSession headers =>
    refine explains_of_raises (fun _ _ => id) (wrap_raises ?_)
    unfold Routes.verifyTokenAndGetSession
    split
    · exact nofun
    · exact verifyTokenAndGetSession_raises _
  | refreshToken newJti tokens =>
    refine explains_of_raises (fun _ _ => id) (wrap_raises ?_)
    unfold Routes.refreshToken
    split
    · exact nofun
    · exact refreshToken_raises newJti _
  | getSession k agentType agentId =>
    refine explains_wrap (follows_mapError ?_)
    exact (resolveSession_follows _).mono fun _ _ => Resolves.explains
  | updateSessionState k request =>
    refine explains_wrap ?_
    unfold Routes.updateSessionState
    split_ifs
    · -- what a patch raises is no exception that ends in a 500
      refine follows_mapError ((patchSessionState_follows request).mono fun log x hx => ?_)
      refine iff_of_false ?_ id
      cases x with
      | ok response => exact nofun
      | error e => exact fun hfatal => hx e rfl (Fatal.of_notFound (k := k) hfatal)
    · exact iff_of_false nofun id
  | closeSessionByKey k closeReason =>
    exact explains_of_raises (fun _ _ => id) (wrap_raises (notFound_raises (closeSession_raises _)))
  | closeSession headers closeReason =>
    refine explains_of_raises (fun _ _ => id) (wrap_raises ?_)
    unfold Routes.closeSession
    split
    · exact nofun
    · exact closeSessionByToken_raises _ closeReason
  | saveApiResult k request =>
    refine explains_of_raises (fun _ _ => id) (wrap_raises ?_)
    unfold Routes.saveApiResult
    split_ifs
    · exact notFound_raises (saveApiResult_raises request)
    · exact nofun
  | updateRealtimePersonalContext answers headers profileData =>
    refine explains_wrap ?_
    unfold Routes.updateRealtimePersonalContext
    split
    · exact explains_of_refused (.inl rfl)
    · next token _ =>
      refine Follows.seq (fun _ _ => True) ((follows_recording_of_raises
        (getGlobalSessionKeyFromToken_raises (R := fun e => ∃ detail, e = unauthorized detail)
          (fun detail => ⟨detail, rfl⟩) token) []).mono fun log x h => ?_) fun log k _ => ?_
      · cases x with
        | ok k => trivial
        | error e =>
          obtain ⟨detail, rfl⟩ := h.2 e rfl
          exact explains_of_refused (.inl rfl)
      · -- the route itself prints the number before it calls the service
        cases hprinted : Routes.profileCusno profileData with
        | error e =>
          have hinternal : Internal e := by
            rw [profileCusno_raises hprinted]
            trivial
          exact iff_of_true (fatal_of_internal hinternal)
            ⟨not_refused_of_internal hinternal, .inl ⟨e, hprinted⟩⟩
        | ok printed =>
          rw [ofExcept_ok, pure_bind']
          refine follows_mapError ((updateRealtimePersonalContext_follows answers profileData
            log).mono fun _ _ => Updates.explains fun e he => ?_)
          cases hprinted.symm.trans he

/-- So does the call itself. -/
theorem handle_explains (cfg : Config) (call : Call) :
    (call.handle cfg).Follows (recording replies)
      (fun log x => ∀ response, x = .ok response → call.Explains log response) [] := by
  refine Follows.catchWith (Follows.wrap ((program_explains cfg call).mono fun log x h => ?_))
  cases x with
  | ok response =>
    intro response' heq
    obtain rfl := Except.ok.inj heq
    exact h
  | error e =>
    intro response heq
    obtain rfl := Except.ok.inj heq
    exact h

end ServerErrors

open ServerErrors in
/-- Any number of calls on an empty store, their commands interleaved in any order, with time
passing anywhere and calls stopping anywhere: a call is answered with 500 exactly when it resolves a
session whose reference information cannot be shown, or updates profiles, without being refused,
with a customer number that cannot be read or looked up. Calls and batch profiles are made of texts
that the client can encode, which a `String` always is. -/
theorem serverErrors_iff (cfg : Config) {ι : Type} [DecidableEq ι] (calls : ι → Call) (now : ℕ)
    {p : Pool redis ServiceError HttpResponse World ι}
    (hrun : Pool.Run machine World.Elapses (fun _ _ => True)
      (Pool.start (fun i => (calls i).handle cfg) (.init now)) p) {i : ι} {response : HttpResponse}
    (hreturned : (p.threads i).Returned response) :
    response.statusCode = 500 ↔ (calls i).Fails (p.threads i).log response :=
  hrun.returned_recording (A := replies) (fun _ hq c => (api_sound hq).reply c)
    (fun i => handle_explains cfg (calls i)) hreturned response rfl

namespace ServerErrors

/-- A session gets a task that is a text, which no resolution can show. -/
def calls : ℕ → Call
  | 0 => .createSession "gsess_1" "jti_0" {}
  | 1 => .updateSessionState "gsess_1"
    { globalSessionKey := "gsess_1"
      statePatch := some { referenceInformation := some [("active_task", .str "transfer")] } }
  | _ => .getSession "gsess_1" none none

/-- The calls one after the other. -/
def served : Pool redis ServiceError HttpResponse World ℕ :=
  (Pool.start (fun i => (calls i).handle .default) (.init 0)).schedule machine
    (List.replicate 11 0 ++ List.replicate 7 1 ++ List.replicate 4 2)

/-- The patch is accepted, the resolution is answered with 500, and the session that it has read
cannot be shown. -/
theorem serverErrors_iff_served :
    (∃ body, (served.threads 1).Returned ⟨200, body⟩) ∧
      (served.threads 2).Returned ⟨500, .internalServerError⟩ ∧
      (calls 2).Fails (served.threads 2).log ⟨500, .internalServerError⟩ :=
  ⟨⟨_, rfl⟩, rfl, (serverErrors_iff .default calls 0 (p := served) (Pool.run_schedule _ _)
    (i := 2) rfl).mp rfl⟩

end ServerErrors

end Api

end SessionManager
