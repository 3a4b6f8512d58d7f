import SessionManager.Api.Refinement
import SessionManager.Exceptions
import SessionManager.Interaction.Recording

/-!
# Refused calls

A call without a valid token, one for a session that is not there, and one that names two sessions
are refused. By then a route has only looked, whatever Redis replied to it.

* `Refused`, `Refusal` — the responses and the exceptions that refuse a call.
* `Command.Changes` — the commands that may change the store or the log.
* `program_notes` — a program that raises a refusal has issued none of them.
* `refused_calls_unseen` — a run of the API without the calls that it has refused.
-/

namespace SessionManager

open Python Interaction
open RedisHelper SessionRepository SessionService

open Program hiding pure

namespace Api

/-- The response refuses the call: there is no valid token, no such session, or two sessions are
named. -/
def Refused (response : HttpResponse) : Prop :=
  response.statusCode = 401 ∨ response.statusCode = 404 ∨
    response = errorResponse Routes.keyMismatch

/-- The command may change the store or the log. -/
def Changes (c : Command) : Prop := ∃ w, (machine c w).2 ≠ w

namespace Refusals

variable {cfg : Config} {k : String}

/-- The exception refuses the call. -/
def Refusal : ServiceError → Prop
  | .http statusCode detail =>
    statusCode = 401 ∨ statusCode = 404 ∨ .http statusCode detail = Routes.keyMismatch
  | .sessionManager _ => True
  | _ => False

/-- What follows when a refusal is raised: nothing has been changed. -/
def Unchanged {α : Type} (noted : Prop) (x : Except ServiceError α) : Prop :=
  ∀ e, x = .error e → Refusal e → ¬ noted

/-- What a session that is missing is answered with. -/
theorem refusal_of_notFound {e : ServiceError} (h : Refusal (Routes.notFound k e)) : Refusal e := by
  cases e with
  | sessionManager e => trivial
  | _ => exact h

/-- A refused call has been refused by an exception. -/
theorem refusal_of_refused {e : ServiceError} (h : Refused (errorResponse e)) : Refusal e := by
  cases e with
  | http statusCode detail =>
    rcases h with h | h | h
    · exact .inl h
    · exact .inr (.inl h)
    · obtain ⟨rfl, hbody⟩ := HttpResponse.mk.inj h
      obtain rfl := Body.detail.inj hbody
      exact .inr (.inr rfl)
  | sessionManager e => trivial
  | _ =>
    rcases h with h | h | h
    · cases h
    · cases h
    · cases congrArg HttpResponse.statusCode h

/-! ### The parts of the services -/

theorem not_changes {c : Command} (h : ∀ w, (machine c w).2 = w) : ¬ Changes c :=
  fun ⟨w, hw⟩ => hw (h w)

/-- A program that looks only has changed nothing. -/
theorem only_not_changes {α : Type} {p : Svc α} (hp : p.Only fun c => ∀ w, (machine c w).2 = w) :
    p.Only fun c => ¬ Changes c :=
  hp.mono fun _ => not_changes

theorem get_looks (k : String) :
    (SessionRepository.get k).Only fun c => ∀ w, (machine c w).2 = w :=
  .perform_bind (fun _ => rfl) fun _ => trivial

/-- A refusal before anything else. -/
theorem throw_notes {α : Type} (e : ServiceError) :
    (Program.throw e : Svc α).Follows (noting Changes) Unchanged False := fun _ _ _ => id

/-- A service that reads its session first, and raises no refusal once it has found it. -/
theorem get_notes {α : Type} {rest : Option Hash → Svc α} {e : ServiceError}
    (hnone : rest none = .throw e)
    (hsome : ∀ session, (rest (some session)).Raises fun e => ¬ Refusal e) :
    (SessionRepository.get k >>= rest).Follows (noting Changes) Unchanged False := by
  refine follows_noting_bind (only_not_changes (get_looks k)) fun session => ?_
  cases session with
  | none =>
    rw [hnone]
    exact throw_notes e
  | some session => exact follows_noting_of_raises (hsome session) False

/-- An exception that the application answers with 500. -/
def Internal : ServiceError → Prop
  | .http _ _ => False
  | .sessionManager _ => False
  | _ => True

theorem Internal.not_refusal {e : ServiceError} (h : Internal e) : ¬ Refusal e := by
  cases e with
  | http statusCode detail => exact absurd h id
  | sessionManager e => exact absurd h id
  | _ => exact id

/-- Every exception of the computation is an internal one. -/
def Computes {α : Type} (x : Except ServiceError α) : Prop := ∀ e, x = .error e → Internal e

theorem Computes.bind {α β : Type} {x : Except ServiceError α} {f : α → Except ServiceError β}
    (hx : Computes x) (hf : ∀ a, Computes (f a)) : Computes (x >>= f) := by
  cases x with
  | ok a => exact hf a
  | error e =>
    intro e' he
    cases he
    exact hx e rfl

theorem computes_enumField {α : Type} [ValueEnum α] (enum text : String) :
    Computes (enumField α enum text) := by
  unfold enumField
  intro e he
  split at he <;> cases he
  trivial

theorem computes_optStr (field : String) (v : Json) : Computes (optStr field v) := by
  intro e he
  cases v <;> cases he <;> trivial

theorem computes_optInt (field : String) (v : Json) : Computes (optInt field v) := by
  intro e he
  cases v <;> cases he <;> trivial

theorem computes_optDict (field : String) (v : Json) : Computes (optDict field v) := by
  intro e he
  cases v <;> cases he <;> trivial

theorem computes_dictItems (field : String) (items : List Json) :
    Computes (dictItems field items) := by
  induction items with
  | nil =>
    intro e he
    cases he
  | cons item items ih =>
    cases item with
    | obj d =>
      intro e he
      cases hitems : dictItems field items with
      | ok ds =>
        rw [dictItems, hitems] at he
        cases he
      | error e' =>
        rw [dictItems, hitems] at he
        exact Except.error.inj he ▸ ih e' hitems
    | _ =>
      intro e he
      cases he
      trivial

theorem computes_optDictList (field : String) (v : Json) : Computes (optDictList field v) := by
  cases v with
  | arr items =>
    intro e he
    cases hitems : dictItems field items with
    | ok ds =>
      rw [optDictList, hitems] at he
      cases he
    | error e' =>
      rw [optDictList, hitems] at he
      exact Except.error.inj he ▸ computes_dictItems field items e' hitems
  | null =>
    intro e he
    cases he
  | _ =>
    intro e he
    cases he
    trivial

theorem computes_mappedKey (stored : Option Json) (agentId : String) :
    Computes (SessionRepository.mappedKey stored agentId) := by
  unfold SessionRepository.mappedKey
  intro e he
  split at he
  · cases he
  · split at he
    · cases he
    · split_ifs at he
      cases he
      trivial
  · cases he
    trivial

/-- A response that cannot be built is an internal error. -/
theorem computes_resolveResponse (request : SessionResolveRequest) (session : Hash)
    (status : TaskQueueStatus) (mapped : Json) (profiles : Option Json × Option Json) :
    Computes (resolveResponse request session status mapped profiles) := by
  unfold resolveResponse
  refine (computes_enumField _ _).bind fun _ => (computes_enumField _ _).bind fun _ => ?_
  refine (computes_optStr _ _).bind fun _ => (computes_optDict _ _).bind fun _ => ?_
  refine (computes_optDict _ _).bind fun _ => (computes_optDict _ _).bind fun _ => ?_
  refine (computes_optDictList _ _).bind fun _ => (computes_optStr _ _).bind fun _ => ?_
  refine (computes_optStr _ _).bind fun _ => (computes_optDictList _ _).bind fun _ => ?_
  refine (computes_optInt _ _).bind fun _ => (computes_optDict _ _).bind fun _ => ?_
  intro e he
  cases he

/-- A session that has been found is resolved, or cannot be shown. -/
theorem resolveFound_raises (request : SessionResolveRequest) (session : Hash) :
    (do let mapped ← agentSessionKey request
        let taskQueueStatus ← Program.ofExcept
          (enumField TaskQueueStatus "TaskQueueStatus"
            ((session .taskQueueStatus).getD (value TaskQueueStatus.null)))
        let profiles ← sessionProfiles request.globalSessionKey (session .cusno)
        issue (.eslog (resolveRecord request session))
        Program.ofExcept (resolveResponse request session taskQueueStatus mapped profiles) :
      Svc SessionResolveResponse).Raises Internal := by
  have hmapped : (agentSessionKey request).Raises Internal := by
    unfold agentSessionKey
    split
    · split
      · trivial
      · refine .perform_bind fun session => ?_
        cases session with
        | none => trivial
        | some session =>
          dsimp only
          cases hmapped : SessionRepository.mappedKey (session .agentMappings) _ with
          | ok mapped => trivial
          | error e => exact computes_mappedKey _ _ e hmapped
    · trivial
  have hprofiles : (sessionProfiles request.globalSessionKey (session .cusno)).Raises Internal := by
    unfold sessionProfiles
    split
    · exact fun _ _ => trivial
    · exact fun _ => trivial
  refine hmapped.bind fun mapped => Raises.bind ?_ fun status => ?_
  · exact raises_ofExcept (computes_enumField _ _)
  · refine hprofiles.bind fun profiles => .perform_bind fun _ => ?_
    exact raises_ofExcept (computes_resolveResponse _ _ _ _ _)

/-- The check of a patch refuses no call. -/
theorem validatePatch_raises (request : SessionPatchRequest) :
    (Program.ofExcept (validatePatch request) : Svc Unit).Raises fun e => ¬ Refusal e := by
  refine raises_ofExcept fun e he => ?_
  unfold validatePatch at he
  split at he
  · unfold validateReferenceInformation at he
    dsimp only at he
    split_ifs at he <;> cases he <;> simp [Refusal, Routes.keyMismatch]
  · cases he

/-! ### The services -/

/-- A creation raises nothing. -/
theorem createSession_raises {R : ServiceError → Prop} (globalSessionKey jti : String)
    (request : SessionCreateRequest) :
    (SessionService.createSession cfg globalSessionKey jti request).Raises R := by
  unfold SessionService.createSession
  have htokens : (AuthService.createTokens cfg (request.userId.getD "") globalSessionKey jti).Raises
      R := fun _ _ _ _ _ => trivial
  refine htokens.bind fun tokens => Raises.bind ?_ fun _ =>
    .perform_bind fun _ => .perform_bind fun _ => trivial
  refine .perform_bind fun existing => ?_
  cases existing with
  | none => exact fun _ _ _ => trivial
  | some session => trivial

theorem createSession_notes (globalSessionKey jti : String) (request : SessionCreateRequest) :
    (SessionService.createSession cfg globalSessionKey jti request).Follows (noting Changes)
      Unchanged False :=
  follows_noting_of_raises (createSession_raises globalSessionKey jti request) False

theorem resolveSession_notes (request : SessionResolveRequest) :
    (resolveSession request).Follows (noting Changes) Unchanged False :=
  get_notes rfl fun session =>
    (resolveFound_raises request session).mono fun _ => Internal.not_refusal

/-- The extension of a session raises nothing. -/
theorem refreshOnTalk_raises {R : ServiceError → Prop} (request : SessionPatchRequest) :
    (refreshOnTalk cfg request).Raises R := by
  unfold refreshOnTalk
  split
  · exact refreshTtl_raises.bind fun _ => trivial
  · trivial

theorem patchSessionState_notes (request : SessionPatchRequest) :
    (patchSessionState cfg request).Follows (noting Changes) Unchanged False := by
  refine get_notes rfl fun session => .perform_bind fun now => ?_
  have hregisters : (registerAgent request).Raises fun e => ¬ Refusal e := by
    unfold registerAgent
    split
    · exact setLocalMapping_raises id _ _ _
    · trivial
  refine (refreshOnTalk_raises request).bind fun _ => ?_
  refine (validatePatch_raises request).bind fun _ => ?_
  exact hregisters.bind fun _ => (update_raises _).bind fun _ => .perform_bind fun _ => trivial

theorem closeSession_notes (request : SessionCloseRequest) :
    (closeSession request).Follows (noting Changes) Unchanged False :=
  get_notes rfl fun _ => .perform_bind fun _ => (update_raises _).bind fun _ =>
    .perform_bind fun _ => trivial

theorem saveApiResult_notes (request : SolApiResultRequest) :
    (saveApiResult cfg k request).Follows (noting Changes) Unchanged False :=
  get_notes rfl fun _ _ _ _ => trivial

/-- The check of a token looks only. -/
theorem verifyToken_looks (token : Token) :
    (verifyToken token).Only fun c => ∀ w, (machine c w).2 = w := by
  cases token with
  | invalid text => trivial
  | signed payload => exact .perform_bind (fun _ => rfl) fun _ => trivial

theorem sessionKeyOfPayload_looks (payload : Payload) :
    (sessionKeyOfPayload payload).Only fun c => ∀ w, (machine c w).2 = w := by
  unfold sessionKeyOfPayload
  split
  · trivial
  · refine Only.bind (.perform_bind (fun _ => rfl) fun _ => trivial) fun found => ?_
    cases found <;> trivial

theorem authenticate_looks (token : Token) (type : String) :
    (authenticate token type).Only fun c => ∀ w, (machine c w).2 = w := by
  refine (verifyToken_looks token).bind fun verified => ?_
  cases verified with
  | error detail => trivial
  | ok payload =>
    dsimp only
    split
    · exact (sessionKeyOfPayload_looks payload).bind fun _ => trivial
    · trivial

theorem verifyTokenAndGetSession_notes (token : Token) :
    (AuthService.verifyTokenAndGetSession token).Follows (noting Changes) Unchanged False := by
  refine follows_noting_bind (only_not_changes (authenticate_looks token "access")) fun found => ?_
  refine follows_noting_of_raises ?_ False
  exact fun _ _ => trivial

theorem refreshToken_notes (newJti : String) (token : Token) :
    (AuthService.refreshToken cfg newJti token).Follows (noting Changes) Unchanged False := by
  refine follows_noting_bind (only_not_changes (authenticate_looks token "refresh")) fun found =>
    follows_noting_of_raises ?_ False
  refine refreshTtl_raises.bind fun _ => ?_
  exact fun _ _ _ _ _ _ _ => trivial

theorem closeSessionByToken_notes (token : Token) (closeReason : Option String) :
    (AuthService.closeSessionByToken token closeReason).Follows (noting Changes) Unchanged
      False := by
  refine follows_noting_bind (only_not_changes (getGlobalSessionKeyFromToken_looks token))
    fun k => get_notes rfl fun _ => ?_
  refine .perform_bind fun now => (update_raises _).bind fun _ => ?_
  refine (jtiToDelete_raises token).bind fun jti => (deleteJti_raises jti).bind fun _ => ?_
  exact .perform_bind fun _ => trivial

/-- The repository refuses no call. -/
theorem repositoryLookup_error {answers : String → Except PyError (Option Dict)} {cusno : String}
    {e : ServiceError} (h : repositoryLookup answers cusno = .error e) : Internal e := by
  unfold repositoryLookup at h
  cases hanswer : answers cusno with
  | ok batch =>
    rw [hanswer] at h
    cases h
  | error e' =>
    rw [hanswer] at h
    obtain rfl := Except.error.inj h
    cases e' <;> trivial

theorem updateRealtimePersonalContext_notes (answers : String → Except PyError (Option Dict))
    (profileData : Dict) :
    (ProfileService.updateRealtimePersonalContext cfg (repositoryLookup answers) k
      profileData).Follows (noting Changes) Unchanged False := by
  refine get_notes rfl fun session => ?_
  refine (raises_ofExcept fun e he => ?_).bind fun cusno => ?_
  · rw [cusnoOf_raises he]
    exact id
  · refine Raises.bind (storeProfiles_raises (repositoryLookup answers) profileData cusno ?_)
      fun batch => ?_
    · exact fun cusno e he => (repositoryLookup_error he).not_refusal
    · exact .perform_bind fun _ => .perform_bind fun _ => trivial

/-! ### The routes -/

/-- A program whose result is wrapped up. -/
theorem wrap_notes {α : Type} {p : Svc α} {g : α → Response}
    (hp : p.Follows (noting Changes) Unchanged False) :
    (do let a ← p; return g a : Svc Response).Follows (noting Changes) Unchanged False := by
  refine Follows.wrap (hp.mono fun noted x h e he => ?_)
  cases x with
  | ok a => cases he
  | error e' =>
    obtain rfl := Except.error.inj he
    exact h e' rfl

/-- A route that answers a missing session with 404. -/
theorem notFound_notes {α : Type} {p : Svc α} (hp : p.Follows (noting Changes) Unchanged False) :
    (p.catchWith fun e => .throw (Routes.notFound k e)).Follows (noting Changes) Unchanged
      False := by
  refine Follows.catchWith (hp.mono fun noted x h => ?_)
  cases x with
  | ok a =>
    intro e he
    cases he
  | error e =>
    intro e' he' hrefusal
    obtain rfl := Except.error.inj he'
    exact h e rfl (refusal_of_notFound hrefusal)

/-- A route that raises a refusal has changed nothing. -/
theorem program_notes (cfg : Config) (call : Call) :
    (call.program cfg).Follows (noting Changes) Unchanged False := by
  cases call with
  | createSession k jti request => exact wrap_notes (createSession_notes k jti request)
  | verifyTokenAndGetSession headers =>
    refine wrap_notes ?_
    unfold Routes.verifyTokenAndGetSession
    split
    · exact throw_notes _
    · exact verifyTokenAndGetSession_notes _
  | refreshToken newJti tokens =>
    refine wrap_notes ?_
    unfold Routes.refreshToken
    split
    · exact throw_notes _
    · exact refreshToken_notes newJti _
  | getSession k agentType agentId => exact wrap_notes (notFound_notes (resolveSession_notes _))
  | updateSessionState k request =>
    refine wrap_notes ?_
    unfold Routes.updateSessionState
    split_ifs
    · exact notFound_notes (patchSessionState_notes request)
    · exact throw_notes _
  | closeSessionByKey k closeReason => exact wrap_notes (notFound_notes (closeSession_notes _))
  | closeSession headers closeReason =>
    refine wrap_notes ?_
    unfold Routes.closeSession
    split
    · exact throw_notes _
    · exact closeSessionByToken_notes _ closeReason
  | saveApiResult k request =>
    refine wrap_notes ?_
    unfold Routes.saveApiResult
    split_ifs
    · exact notFound_notes (saveApiResult_notes request)
    · exact throw_notes _
  | updateRealtimePersonalContext answers headers profileData =>
    refine wrap_notes ?_
    unfold Routes.updateRealtimePersonalContext
    split
    · exact throw_notes _
    · next token _ =>
      refine follows_noting_bind (only_not_changes (getGlobalSessionKeyFromToken_looks token))
        fun k => follows_noting_bind only_ofExcept fun _ => ?_
      exact notFound_notes (updateRealtimePersonalContext_notes answers profileData)

/-- A successful response refuses nothing. -/
theorem not_refused_ok (call : Call) (response : Response) :
    ¬ Refused (call.respond (.ok response)) := by
  have hbody : call.respond (.ok response) ≠ errorResponse Routes.keyMismatch := by
    intro h
    cases congrArg HttpResponse.body h
  rintro (h | h | h)
  · cases call <;> cases h
  · cases call <;> cases h
  · exact hbody h

/-- A call that answers with a refusal has changed nothing. -/
theorem handle_notes (cfg : Config) (call : Call) : (call.handle cfg).Follows (noting Changes)
    (fun noted x => ∀ response, x = .ok response → Refused response → ¬ noted) False := by
  refine Follows.catchWith (Follows.wrap ((program_notes cfg call).mono fun noted x h => ?_))
  cases x with
  | ok response =>
    intro response' heq hrefused
    obtain rfl := Except.ok.inj heq
    exact absurd hrefused (not_refused_ok call response)
  | error e =>
    intro response heq hrefused
    obtain rfl := Except.ok.inj heq
    exact h e rfl (refusal_of_refused hrefused)

/-- The thread's call has been refused. -/
def RefusedThread (t : Thread redis ServiceError HttpResponse) : Prop :=
  ∃ response, t.Returned response ∧ Refused response

/-- By then it has only looked. -/
theorem looks_of_refused {cfg : Config} {ι : Type} [DecidableEq ι] {calls : ι → Call} {w : World}
    {p : Pool redis ServiceError HttpResponse World ι}
    (hrun : Pool.Run machine World.Elapses (fun _ _ => True)
      (Pool.start (fun i => (calls i).handle cfg) w) p) {i : ι}
    (hrefused : RefusedThread (p.threads i))
    (event : Event redis) (hmem : event ∈ (p.threads i).log) (w : World) :
    (machine event.1 w).2 = w := by
  have hconforms := hrun.invariant
    (Pool.Conforms (fun _ => noting Changes) (fun _ => False)
      (fun _ noted x => ∀ response, x = .ok response → Refused response → ¬ noted))
    (fun _ _ _ h _ hstep => h.step (fun _ _ _ => trivial) hstep)
    (Pool.conforms_start fun i => handle_notes cfg (calls i))
  obtain ⟨response, hreturned, hresponse⟩ := hrefused
  have hnoted := hconforms.returned hreturned response rfl hresponse
  by_contra hchanges
  exact hnoted ((noting_after _ _).mpr (.inr ⟨event, hmem, w, hchanges⟩))

end Refusals

open Refusals

open scoped Classical in
/-- Any number of calls, their commands interleaved in any order, with time passing anywhere and
calls stopping anywhere, from any store: the calls that have been refused might as well not have
been made. Without them the others do the same, and the store and the log are the same. -/
theorem refused_calls_unseen (cfg : Config) {ι : Type} [DecidableEq ι] (calls : ι → Call)
    (w : World) {p : Pool redis ServiceError HttpResponse World ι}
    (hrun : Pool.Run machine World.Elapses (fun _ _ => True)
      (Pool.start (fun i => (calls i).handle cfg) w) p) :
    ∃ p' : Pool redis ServiceError HttpResponse World ι,
      Pool.Run machine World.Elapses (fun _ _ => True)
        (Pool.start (fun i => (calls i).handle cfg) w) p' ∧
      p'.state = p.state ∧
      ∀ i, p'.threads i =
        if RefusedThread (p.threads i) then { prog := (calls i).handle cfg } else p.threads i :=
  ⟨_, hrun.erase (R := fun i => RefusedThread (p.threads i))
    (fun _ hrefused => looks_of_refused hrun hrefused) fun _ _ => rfl, rfl, fun _ => rfl⟩

namespace Refusals

/-- The store after one session was created in an empty one. -/
def opened : World :=
  ((SessionService.createSession .default "gsess_1" "jti_1" {}).run machine (.init 0)).2

/-- Two calls to close a session, of which one is not there, and one without a token. -/
def calls : Option Bool → Call
  | some true => .closeSessionByKey "gsess_1" none
  | some false => .closeSessionByKey "gsess_2" none
  | none => .closeSession {} none

/-- The missing session is looked up while the other one is closed. -/
def served : Pool redis ServiceError HttpResponse World (Option Bool) :=
  (Pool.start (fun i => (calls i).handle .default) opened).schedule machine
    ([some true, some true, some false] ++ List.replicate 10 (some true))

/-- Two calls are refused. Without them the third one closes its session all the same. -/
theorem refused_calls_unseen_closed :
    ((served.threads (some false)).Returned ⟨404, .detail "Session not found: gsess_2"⟩ ∧
      (served.threads none).Returned ⟨401, .detail "Access token required"⟩ ∧
      ∃ body, (served.threads (some true)).Returned ⟨200, body⟩) ∧
    ∃ p' : Pool redis ServiceError HttpResponse World (Option Bool),
      Pool.Run machine World.Elapses (fun _ _ => True)
        (Pool.start (fun i => (calls i).handle .default) opened) p' ∧
      p'.state = served.state ∧
      p'.threads (some false) = { prog := (calls (some false)).handle .default } ∧
      p'.threads (some true) = served.threads (some true) ∧
      p'.threads none = { prog := (calls none).handle .default } := by
  have hrefused : (served.threads (some false)).Returned
      ⟨404, .detail "Session not found: gsess_2"⟩ := rfl
  have hrefused' : (served.threads none).Returned ⟨401, .detail "Access token required"⟩ := rfl
  obtain ⟨body, hclosed⟩ : ∃ body, (served.threads (some true)).Returned ⟨200, body⟩ := ⟨_, rfl⟩
  obtain ⟨p', hrun, hstate, hthreads⟩ :=
    refused_calls_unseen .default calls opened (p := served) (Pool.run_schedule _ _)
  refine ⟨⟨hrefused, hrefused', body, hclosed⟩, p', hrun, hstate, ?_, ?_, ?_⟩
  · rw [hthreads (some false), if_pos ⟨_, hrefused, .inr (.inl rfl)⟩]
  · -- no response with the code 200 refuses a call
    rw [hthreads (some true), if_neg]
    rintro ⟨response, hresponse, hcode⟩
    obtain rfl : ⟨200, body⟩ = response := Program.pure.inj (hclosed.symm.trans hresponse)
    rcases hcode with h | h | h
    · cases h
    · cases h
    · cases congrArg HttpResponse.statusCode h
  · rw [hthreads none, if_pos ⟨_, hrefused', .inl rfl⟩]

end Refusals

end Api

end SessionManager
