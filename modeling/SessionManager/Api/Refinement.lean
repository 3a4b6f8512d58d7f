import SessionManager.Api.App
import SessionManager.Interaction.Preamble
import SessionManager.SoundStore
import SessionManager.TokenRule

/-!
# The API refines the services

A route looks at the token and the keys of a call before it hands it to a service. Whatever calls
are made and however their commands interleave, what they do to the store and to the log is what the
requests do that they come down to, and the responses are made of the outcomes of these.

* `Call.Reaches` — the request that a call comes down to, and what becomes of its exceptions.
* `OwnAnswer` — the answers that a route gives by itself.
* `handle_leads` — a route only looks before it begins.
* `api_refines` — a run of calls is a run of requests.
-/

namespace SessionManager

open Python Interaction

open Program hiding pure

namespace Api

/-- The call comes down to the request, and `translate` is what its route makes of an exception. -/
inductive Call.Reaches : Call → Request → (ServiceError → ServiceError) → Prop
  | createSession (k jti : String) (request : SessionCreateRequest) :
      Reaches (.createSession k jti request) (.createSession k jti request) id
  | verifyTokenAndGetSession {headers : Routes.TokenHeaders} {token : Token} :
      Routes.requestToken headers = some token →
      Reaches (.verifyTokenAndGetSession headers) (.verifyTokenAndGetSession token) id
  | refreshToken (newJti : String) {tokens : Routes.RefreshTokens} {token : Token} :
      Routes.requestRefreshToken tokens = some token →
      Reaches (.refreshToken newJti tokens) (.refreshToken newJti token) id
  | getSession (k : String) (agentType : Option AgentType) (agentId : Option String) :
      Reaches (.getSession k agentType agentId)
        (.resolveSession { globalSessionKey := k, agentType, agentId }) (Routes.notFound k)
  | updateSessionState (request : SessionPatchRequest) :
      Reaches (.updateSessionState request.globalSessionKey request) (.patchSessionState request)
        (Routes.notFound request.globalSessionKey)
  | closeSessionByKey (k : String) (closeReason : Option String) :
      Reaches (.closeSessionByKey k closeReason)
        (.closeSession { globalSessionKey := k, closeReason }) (Routes.notFound k)
  | closeSession {headers : Routes.TokenHeaders} {token : Token} (closeReason : Option String) :
      Routes.requestToken headers = some token →
      Reaches (.closeSession headers closeReason) (.closeSessionByToken token closeReason) id
  | saveApiResult (request : SolApiResultRequest) :
      Reaches (.saveApiResult request.globalSessionKey request)
        (.saveApiResult request.globalSessionKey request) (Routes.notFound request.globalSessionKey)
  | updateRealtimePersonalContext (answers : String → Except PyError (Option Dict))
      (headers : Routes.TokenHeaders) (k : String) (profileData : Dict) :
      Reaches (.updateRealtimePersonalContext answers headers profileData)
        (.updateRealtimePersonalContext (repositoryLookup answers) k profileData)
        (Routes.notFound k)

/-- An answer that a route gives by itself: the call has no valid token, it names two sessions, or
the customer number cannot be printed. -/
def OwnAnswer (response : HttpResponse) : Prop :=
  (∃ detail, response = errorResponse (unauthorized detail)) ∨
    response = errorResponse Routes.keyMismatch ∨ response = errorResponse .attribute

/-- The program is that of a request which the call comes down to, and its outcome is answered as
the route answers it. -/
def Call.Begins (cfg : Config) (call : Call) (p : Svc Response)
    (f : Except ServiceError Response → HttpResponse) : Prop :=
  ∃ request translate, call.Reaches request translate ∧ p = request.program cfg ∧
    f = fun outcome => call.respond (outcome.mapError translate)

variable {cfg : Config}

/-- A call is its route, with the response made of the outcome. -/
theorem handle_eq (cfg : Config) (call : Call) :
    call.handle cfg = (call.program cfg).finish call.respond :=
  catchWith_eq_finish call.respond (call.program cfg)

theorem mapError_id {α : Type} (x : Except ServiceError α) : x.mapError id = x := by
  cases x <;> rfl

/-- A route that hands the call on at once. -/
theorem leads_of_program {call : Call} {request : Request}
    (hreaches : call.Reaches request id) (hprogram : call.program cfg = request.program cfg) :
    Leads machine (call.Begins cfg) OwnAnswer (call.handle cfg) := by
  refine .begin ⟨request, id, hreaches, rfl, rfl⟩ ?_
  simp only [mapError_id]
  rw [handle_eq, hprogram]

/-- A route that hands the call on at once, and answers a missing session with 404. -/
theorem leads_of_catch {α : Type} {call : Call} {request : Request} {k : String} {p : Svc α}
    {g : α → Response} (hreaches : call.Reaches request (Routes.notFound k))
    (hcall : call.program cfg = (p.catchWith fun e => .throw (Routes.notFound k e)) >>=
      fun a => .pure (g a))
    (hrequest : request.program cfg = p >>= fun a => .pure (g a)) :
    Leads machine (call.Begins cfg) OwnAnswer (call.handle cfg) := by
  refine .begin ⟨request, Routes.notFound k, hreaches, rfl, rfl⟩ ?_
  rw [handle_eq, hcall, hrequest]
  exact finish_mapError call.respond (Routes.notFound k) g p

/-- A route that refuses the call. -/
theorem leads_of_throw {call : Call} {e : ServiceError} (hprogram : call.program cfg = .throw e)
    (hanswer : OwnAnswer (errorResponse e)) :
    Leads machine (call.Begins cfg) OwnAnswer (call.handle cfg) := by
  rw [handle_eq, hprogram]
  exact .answer hanswer

/-- Looking up the session of a token changes nothing. -/
theorem getGlobalSessionKeyFromToken_looks (token : Token) :
    (getGlobalSessionKeyFromToken token).Only fun c => ∀ w, (machine c w).2 = w := by
  cases token with
  | invalid text => trivial
  | signed payload =>
    rw [getGlobalSessionKeyFromToken_signed]
    refine .perform_bind (fun _ => rfl) fun now => only_ofExcept.bind fun jti => ?_
    refine Only.bind (.perform_bind (fun _ => rfl) fun _ => trivial) fun found => ?_
    cases found <;> trivial

/-- A token that is refused is answered with 401. -/
theorem getGlobalSessionKeyFromToken_raises {R : ServiceError → Prop}
    (hR : ∀ detail, R (unauthorized detail)) (token : Token) :
    (getGlobalSessionKeyFromToken token).Raises R := by
  cases token with
  | invalid text => exact hR _
  | signed payload =>
    rw [getGlobalSessionKeyFromToken_signed]
    refine .perform_bind fun now => (raises_ofExcept fun e he => ?_).bind fun jti => ?_
    · obtain ⟨detail, rfl⟩ := TokenRule.acceptedJti_error he
      exact hR detail
    · refine Raises.bind (.perform_bind fun _ => trivial) fun found => ?_
      cases found with
      | none => exact hR _
      | some k => trivial

/-- A route only looks before it begins. -/
theorem handle_leads (cfg : Config) (call : Call) :
    Leads machine (call.Begins cfg) OwnAnswer (call.handle cfg) := by
  cases call with
  | createSession k jti request => exact leads_of_program (.createSession k jti request) rfl
  | verifyTokenAndGetSession headers =>
    cases htoken : Routes.requestToken headers with
    | none =>
      refine leads_of_throw (e := unauthorized "Access token required") ?_ (.inl ⟨_, rfl⟩)
      simp only [Call.program, Routes.verifyTokenAndGetSession, htoken]
      rfl
    | some token =>
      refine leads_of_program (.verifyTokenAndGetSession htoken) ?_
      simp only [Call.program, Routes.verifyTokenAndGetSession, htoken]
      rfl
  | refreshToken newJti tokens =>
    cases htoken : Routes.requestRefreshToken tokens with
    | none =>
      refine leads_of_throw (e := unauthorized "Refresh token required") ?_ (.inl ⟨_, rfl⟩)
      simp only [Call.program, Routes.refreshToken, htoken]
      rfl
    | some token =>
      refine leads_of_program (.refreshToken newJti htoken) ?_
      simp only [Call.program, Routes.refreshToken, htoken]
      rfl
  | getSession k agentType agentId => exact leads_of_catch (.getSession k agentType agentId) rfl rfl
  | updateSessionState k request =>
    by_cases hkey : request.globalSessionKey = k
    · subst hkey
      refine leads_of_catch (p := SessionService.patchSessionState cfg request)
        (.updateSessionState request) ?_ rfl
      simp only [Call.program, Routes.updateSessionState, if_true]
      rfl
    · refine leads_of_throw (e := Routes.keyMismatch) ?_ (.inr (.inl rfl))
      simp only [Call.program, Routes.updateSessionState, if_neg hkey]
      rfl
  | closeSessionByKey k closeReason =>
    exact leads_of_catch (.closeSessionByKey k closeReason) rfl rfl
  | closeSession headers closeReason =>
    cases htoken : Routes.requestToken headers with
    | none =>
      refine leads_of_throw (e := unauthorized "Access token required") ?_ (.inl ⟨_, rfl⟩)
      simp only [Call.program, Routes.closeSession, htoken]
      rfl
    | some token =>
      refine leads_of_program (.closeSession closeReason htoken) ?_
      simp only [Call.program, Routes.closeSession, htoken]
      rfl
  | saveApiResult k request =>
    by_cases hkey : request.globalSessionKey = k
    · subst hkey
      refine leads_of_catch (p := SessionService.saveApiResult cfg request.globalSessionKey request)
        (.saveApiResult request) ?_ rfl
      simp only [Call.program, Routes.saveApiResult, if_true]
      rfl
    · refine leads_of_throw (e := Routes.keyMismatch) ?_ (.inr (.inl rfl))
      simp only [Call.program, Routes.saveApiResult, if_neg hkey]
      rfl
  | updateRealtimePersonalContext answers headers profileData =>
    cases htoken : Routes.requestToken headers with
    | none =>
      refine leads_of_throw (e := unauthorized "Access token required") ?_ (.inl ⟨_, rfl⟩)
      simp only [Call.program, Routes.updateRealtimePersonalContext, htoken]
      rfl
    | some token =>
      rw [handle_eq]
      simp only [Call.program, Routes.updateRealtimePersonalContext, htoken, bind_assoc]
      -- the session of the token, and the number that is printed
      refine Leads.bind (getGlobalSessionKeyFromToken_looks token)
        (getGlobalSessionKeyFromToken_raises (fun detail => .inl ⟨detail, rfl⟩) token) fun k => ?_
      refine Leads.bind only_ofExcept (raises_ofExcept fun e he => ?_) fun _ => ?_
      · rw [profileCusno_raises he]
        exact .inr (.inr rfl)
      · refine .begin ⟨_, Routes.notFound k,
          .updateRealtimePersonalContext answers headers k profileData, rfl, rfl⟩ ?_
        exact finish_mapError _ (Routes.notFound k) Response.updated _

/-- The request that stands for a call which has not reached its service. -/
def idleRequest : Request := .resolveSession { globalSessionKey := "" }

/-- The response of a call is made of the outcome of its request, whose thread has ended, or is the
route's own, and the thread that stands for it has not moved. -/
def AnsweredBy (call : Call) (request : Request) (t : Thread redis ServiceError Response)
    (response : HttpResponse) : Prop :=
  (OwnAnswer response ∧ t.Fresh) ∨
    ∃ translate outcome, call.Reaches request translate ∧ t.prog = Program.ofExcept outcome ∧
      response = call.respond (outcome.mapError translate)

/-- The request that stands for a call. -/
theorem request_of_covers {call : Call} {body : Svc Response}
    {t : Thread redis ServiceError HttpResponse} {t' : Thread redis ServiceError Response}
    (h : Covers machine (call.Begins cfg) OwnAnswer (idleRequest.program cfg) body t t') :
    ∃ request : Request, body = request.program cfg ∧
      (request = idleRequest ∨ ∃ translate, call.Reaches request translate) ∧
      ∀ response, t.Returned response → AnsweredBy call request t' response := by
  cases h with
  | before hlooking hfresh hidle =>
    refine ⟨idleRequest, hidle, .inl rfl, fun response hresponse => ?_⟩
    rcases hlooking with ⟨a, heq, ha⟩ | ⟨c, next, heq, -⟩
    · cases heq.symm.trans hresponse
      exact .inl ⟨ha, hfresh⟩
    · cases heq.symm.trans hresponse
  | inside hbegins heq hstopped =>
    obtain ⟨request, translate, hreaches, hbody, rfl⟩ := hbegins
    refine ⟨request, hbody, .inr ⟨translate, hreaches⟩, fun response hresponse => .inr ?_⟩
    -- the route is done when the service is
    have hfinish := heq.symm.trans hresponse
    cases hprog : t'.prog with
    | pure b =>
      rw [hprog] at hfinish
      cases hfinish
      exact ⟨translate, .ok b, hreaches, rfl, rfl⟩
    | throw e =>
      rw [hprog] at hfinish
      cases hfinish
      exact ⟨translate, .error e, hreaches, rfl, rfl⟩
    | call c next =>
      rw [hprog] at hfinish
      cases hfinish

/-- A run of requests stands for what the calls have done: it leads to the same store and log, every
request is one that its call comes down to, or none at all, and every response is made of an
outcome. -/
def Refines (cfg : Config) {ι : Type} [DecidableEq ι] (calls : ι → Call) (now : ℕ)
    (p : Pool redis ServiceError HttpResponse World ι) : Prop :=
  ∃ (requests : ι → Request) (p' : Pool redis ServiceError Response World ι),
    Pool.Run machine World.Elapses (fun _ _ => True)
      (Pool.start (fun i => (requests i).program cfg) (.init now)) p' ∧
    p'.state = p.state ∧
    (∀ i, requests i = idleRequest ∨ ∃ translate, (calls i).Reaches (requests i) translate) ∧
    ∀ i response, (p.threads i).Returned response →
      AnsweredBy (calls i) (requests i) (p'.threads i) response

namespace Refinement

/-- A session is created, read, and closed without a token. -/
def calls : ℕ → Call
  | 0 => .createSession "gsess_1" "jti_0" {}
  | 1 => .getSession "gsess_1" none none
  | _ => .closeSession {} none

/-- The session is created before it is read. -/
def served : Pool redis ServiceError HttpResponse World ℕ :=
  (Pool.start (fun i => (calls i).handle .default) (.init 0)).schedule machine
    (List.replicate 11 0 ++ List.replicate 5 1)

end Refinement

end Api

end SessionManager
