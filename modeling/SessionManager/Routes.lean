import SessionManager.AuthService
import SessionManager.ProfileService
import SessionManager.SessionService

/-!
# Routes

The routes of `api/v1/sessions.py`, with the extraction of the token from `core/jwt_auth.py`.

* `TokenHeaders`, `extractTokenFromRequest` — where a request carries its token.
* `profileCusno` — the customer number that the route prints.
* `updateRealtimePersonalContext` — the route that updates realtime profiles.
* `RefreshTokens`, `refreshToken` — where a request carries its refresh token, and that route.
* `createSession`, `verifyTokenAndGetSession`, `getSession`, `updateSessionState`,
  `closeSessionByKey`, `closeSession`, `saveApiResult` — the other routes.
-/

namespace SessionManager

open Python Interaction

namespace Routes

/-- The places of a request where its token may stand: after `Bearer ` in the `Authorization`
header, and in the cookie `access_token`. -/
structure TokenHeaders where
  bearer : Option Token := none
  cookie : Option Token := none

/-- `extract_token_from_request`; an empty cookie counts as none. -/
def extractTokenFromRequest (request : TokenHeaders) : Option Token :=
  match request.bearer with
  | some token => some token
  | none => request.cookie.filter (· ≠ .invalid "")

/-- The token of a request, when it is not empty. -/
def requestToken (request : TokenHeaders) : Option Token :=
  (extractTokenFromRequest request).filter (· ≠ .invalid "")

/-- `(profile_data.get("responseData") or {}).get("cusnoN10")`. -/
def responseDataCusno (profileData : Dict) : Except ServiceError Json :=
  let responseData := Dict.get profileData "responseData"
  if responseData.truthy then
    match responseData with
    | .obj responseData => .ok (Dict.get responseData "cusnoN10")
    | _ => .error .attribute
  else .ok .null

/-- The customer number that the route prints. -/
def profileCusno (profileData : Dict) : Except ServiceError (Option String) := do
  let raw := Dict.get profileData "cusnoN10"
  let raw ← if raw.truthy then .ok raw else responseDataCusno profileData
  pure (if raw.truthy then some (strip raw.pyStr) else none)

/-- A `SessionNotFoundError` is answered with 404, every other exception is passed on. -/
def notFound (globalSessionKey : String) : ServiceError → ServiceError
  | .sessionManager e =>
    if e.code = "SM001" then .http 404 ("Session not found: " ++ globalSessionKey)
    else .sessionManager e
  | e => e

/-- `update_realtime_personal_context`. -/
def updateRealtimePersonalContext (cfg : Config) (lookup : ProfileService.BatchLookup)
    (request : TokenHeaders) (profileData : Dict) :
    Svc ProfileService.RealtimePersonalContextResponse := do
  match requestToken request with
  | none => throw (unauthorized "Access token required")
  | some token => do
    let globalSessionKey ← getGlobalSessionKeyFromToken token
    let _ ← Program.ofExcept (profileCusno profileData)
    tryCatch
      (ProfileService.updateRealtimePersonalContext cfg lookup globalSessionKey profileData)
      fun e => throw (notFound globalSessionKey e)

/-! ### The other routes -/

/-- `create_session`. -/
def createSession (cfg : Config) (globalSessionKey jti : String) (request : SessionCreateRequest) :
    Svc SessionService.SessionCreateResponse :=
  SessionService.createSession cfg globalSessionKey jti request

/-- `verify_token_and_get_session`. -/
def verifyTokenAndGetSession (request : TokenHeaders) : Svc SessionVerifyResponse :=
  match requestToken request with
  | none => throw (unauthorized "Access token required")
  | some token => AuthService.verifyTokenAndGetSession token

/-- The places of a request where its refresh token may stand: the cookie `refresh_token`, the
body, and after `Bearer ` in the `Authorization` header. -/
structure RefreshTokens where
  cookie : Option Token := none
  body : Option Token := none
  bearer : Option Token := none

/-- The refresh token of a request: the first one that is not empty. -/
def requestRefreshToken (request : RefreshTokens) : Option Token :=
  (request.cookie.filter (· ≠ .invalid "")).or
    ((request.body.filter (· ≠ .invalid "")).or (request.bearer.filter (· ≠ .invalid "")))

/-- `refresh_token`. -/
def refreshToken (cfg : Config) (newJti : String) (request : RefreshTokens) :
    Svc TokenRefreshResponse :=
  match requestRefreshToken request with
  | none => throw (unauthorized "Refresh token required")
  | some token => AuthService.refreshToken cfg newJti token

/-- `get_session`. -/
def getSession (globalSessionKey : String) (agentType : Option AgentType)
    (agentId : Option String) : Svc SessionResolveResponse :=
  tryCatch (SessionService.resolveSession { globalSessionKey, agentType, agentId })
    fun e => throw (notFound globalSessionKey e)

/-- The answer to a body that names another session than the path. -/
def keyMismatch : ServiceError := .http 400 "global_session_key mismatch"

/-- `update_session_state`. -/
def updateSessionState (cfg : Config) (globalSessionKey : String) (request : SessionPatchRequest) :
    Svc SessionService.SessionPatchResponse :=
  if request.globalSessionKey = globalSessionKey then
    tryCatch (SessionService.patchSessionState cfg request)
      fun e => throw (notFound globalSessionKey e)
  else throw keyMismatch

/-- `close_session_by_key`. -/
def closeSessionByKey (globalSessionKey : String) (closeReason : Option String) :
    Svc SessionCloseResponse :=
  tryCatch (SessionService.closeSession { globalSessionKey, closeReason })
    fun e => throw (notFound globalSessionKey e)

/-- `close_session`; a `SessionNotFoundError` is left to the application. -/
def closeSession (request : TokenHeaders) (closeReason : Option String) :
    Svc SessionCloseResponse :=
  match requestToken request with
  | none => throw (unauthorized "Access token required")
  | some token => AuthService.closeSessionByToken token closeReason

/-- `save_api_result`. -/
def saveApiResult (cfg : Config) (globalSessionKey : String) (request : SolApiResultRequest) :
    Svc Json :=
  if request.globalSessionKey = globalSessionKey then
    tryCatch (SessionService.saveApiResult cfg globalSessionKey request)
      fun e => throw (notFound globalSessionKey e)
  else throw keyMismatch

end Routes

end SessionManager
