import SessionManager.BatchProfile.Repository
import SessionManager.Requests
import SessionManager.Routes

/-!
# The application

The routes as one type of calls, and what `main.py` makes of what they return or raise. Matching a
path to its route and a body to its model is left to FastAPI: a call is what reaches a route.

* `repositoryLookup` — the batch profile repository as the services see it.
* `Call`, `Call.program` — the calls of the API with their programs.
* `HttpResponse`, `sessionManagerExceptionHandler`, `errorResponse` — the responses.
* `Call.handle` — a call from its route to its response.
-/

namespace SessionManager

open Python Interaction

open Program hiding pure

namespace Api

/-- An exception of the repository, as the services see it: they tell no two of them apart. -/
def repositoryError : PyError → ServiceError
  | .typeError => .type
  | .attributeError => .attribute
  | _ => .value "" ""

/-- What the repository answers for each customer number. -/
def repositoryLookup (answers : String → Except PyError (Option Dict)) :
    ProfileService.BatchLookup := fun cusno => (answers cusno).mapError repositoryError

/-- A call of the API. The keys and the `jti`s that the code draws at random are part of it, and so
is what the batch profile repository answers. -/
inductive Call where
  /-- `POST /sessions`. -/
  | createSession (globalSessionKey jti : String) (request : SessionCreateRequest)
  /-- `GET /sessions/verify`. -/
  | verifyTokenAndGetSession (request : Routes.TokenHeaders)
  /-- `POST /sessions/refresh`. -/
  | refreshToken (newJti : String) (request : Routes.RefreshTokens)
  /-- `GET /sessions/{global_session_key}`. -/
  | getSession (globalSessionKey : String) (agentType : Option AgentType) (agentId : Option String)
  /-- `PATCH /sessions/{global_session_key}/state`. -/
  | updateSessionState (globalSessionKey : String) (request : SessionPatchRequest)
  /-- `DELETE /sessions/{global_session_key}`. -/
  | closeSessionByKey (globalSessionKey : String) (closeReason : Option String)
  /-- `DELETE /sessions`. -/
  | closeSession (request : Routes.TokenHeaders) (closeReason : Option String)
  /-- `POST /sessions/{global_session_key}/api-results`. -/
  | saveApiResult (globalSessionKey : String) (request : SolApiResultRequest)
  /-- `POST /sessions/realtime-personal-context`. -/
  | updateRealtimePersonalContext (answers : String → Except PyError (Option Dict))
      (request : Routes.TokenHeaders) (profileData : Dict)

/-- The body of a response. -/
inductive Body where
  /-- The response model of the route. -/
  | model (response : Response)
  /-- The detail of an `HTTPException`. -/
  | detail (detail : String)
  /-- The body that the handler for `SessionManagerError` writes. -/
  | error (code message : String) (detail : Option String)
  /-- What the server answers to any other exception. -/
  | internalServerError

/-- The response to a call. -/
structure HttpResponse where
  statusCode : ℕ
  body : Body

/-- `session_manager_exception_handler`. -/
def sessionManagerExceptionHandler (e : SessionManagerError) : HttpResponse where
  statusCode := e.statusCode
  body := .error e.code e.message e.detail

/-- The response to an exception. -/
def errorResponse : ServiceError → HttpResponse
  | .http statusCode detail => ⟨statusCode, .detail detail⟩
  | .sessionManager e => sessionManagerExceptionHandler e
  | _ => ⟨500, .internalServerError⟩

namespace Call

/-- The `status_code` of the route. -/
def successCode : Call → ℕ
  | .createSession _ _ _ => 201
  | .saveApiResult _ _ => 201
  | _ => 200

/-- The route of a call. -/
def program (cfg : Config) : Call → Svc Response
  | .createSession globalSessionKey jti request => do
    pure (.created (← Routes.createSession cfg globalSessionKey jti request))
  | .verifyTokenAndGetSession request => do
    pure (.verified (← Routes.verifyTokenAndGetSession request))
  | .refreshToken newJti request => do
    pure (.refreshed (← Routes.refreshToken cfg newJti request))
  | .getSession globalSessionKey agentType agentId => do
    pure (.resolved (← Routes.getSession globalSessionKey agentType agentId))
  | .updateSessionState globalSessionKey request => do
    pure (.patched (← Routes.updateSessionState cfg globalSessionKey request))
  | .closeSessionByKey globalSessionKey closeReason => do
    pure (.closed (← Routes.closeSessionByKey globalSessionKey closeReason))
  | .closeSession request closeReason => do
    pure (.closed (← Routes.closeSession request closeReason))
  | .saveApiResult globalSessionKey request => do
    pure (.saved (← Routes.saveApiResult cfg globalSessionKey request))
  | .updateRealtimePersonalContext answers request profileData => do
    pure (.updated (← Routes.updateRealtimePersonalContext cfg (repositoryLookup answers) request
      profileData))

/-- The response to what the route returns or raises. -/
def respond (call : Call) : Except ServiceError Response → HttpResponse
  | .ok response => ⟨call.successCode, .model response⟩
  | .error e => errorResponse e

/-- A call from its route to its response. -/
def handle (cfg : Config) (call : Call) : Svc HttpResponse :=
  tryCatch (do pure (call.respond (.ok (← call.program cfg))))
    fun e => pure (call.respond (.error e))

end Call

end Api

end SessionManager
