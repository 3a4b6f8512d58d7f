import SessionManager.SessionRepository

/-!
# Tokens and AuthService

`core/jwt.py`, `core/jwt_auth.py` and `services/auth_service.py`. A `jti` drawn with `uuid4()` is
an argument of the program that draws it.

* `createAccessToken`, `createRefreshToken`, `verifyToken` — signing and checking tokens. The
  clock is read where the code reads it; the signature itself is symbolic (`Token`).
* `getGlobalSessionKeyFromToken` — the authentication of the routes that take any token.
* `AuthService.createTokens`, `verifyTokenAndGetSession`, `refreshToken`, `pingSessionByToken`,
  `closeSessionByToken` — one method of the service each.
-/

namespace SessionManager

open Python Interaction RedisHelper

/-! ### core/jwt.py -/

/-- The payload of a token that is created between the two clock readings. -/
def tokenPayload (jti userId type : String) (seconds now issued : ℕ) : Payload where
  jti := some jti
  sub := some userId
  exp := some ((now + seconds * 1000) / 1000)
  iat := some (issued / 1000)
  type := some type

/-- `create_access_token`. -/
def createAccessToken (cfg : Config) (jti userId : String) : Svc Token := do
  let now ← issue .now
  let issued ← issue .now
  pure (.signed (tokenPayload jti userId "access" cfg.jwtAccessTokenExpireSeconds now issued))

/-- `create_refresh_token`. -/
def createRefreshToken (cfg : Config) (jti userId : String) : Svc Token := do
  let now ← issue .now
  let issued ← issue .now
  pure (.signed (tokenPayload jti userId "refresh" cfg.jwtRefreshTokenExpireSeconds now issued))

/-- The `iat` claim lies in the future. -/
def Payload.Immature (p : Payload) (now : ℕ) : Prop := ∃ iat ∈ p.iat, now < iat * 1000

/-- The `exp` claim has been reached. -/
def Payload.Expired (p : Payload) (now : ℕ) : Prop := ∃ exp ∈ p.exp, exp * 1000 ≤ now

instance (p : Payload) (now : ℕ) : Decidable (p.Immature now) := by
  unfold Payload.Immature
  infer_instance

instance (p : Payload) (now : ℕ) : Decidable (p.Expired now) := by
  unfold Payload.Expired
  infer_instance

/-- What `jwt.decode` makes of the claims of a correctly signed token at instant `now`; the
error is the text of the `ValueError` that `verify_token` raises. -/
def checkClaims (p : Payload) (now : ℕ) : Except String Payload :=
  if p.Immature now then .error "Invalid token: The token is not yet valid (iat)"
  else if p.Expired now then .error "Token has expired"
  else .ok p

/-- `verify_token`; every caller turns the `ValueError` into a value, so it is one here. -/
def verifyToken : Token → Svc (Except String Payload)
  | .invalid _ => pure (.error "Invalid token format")
  | .signed p => do
    let now ← issue .now
    pure (checkClaims p now)

/-- `payload.get("jti")` when it is truthy. -/
def Payload.jtiClaim (p : Payload) : Option String := p.jti.filter (· ≠ "")

/-! ### core/jwt_auth.py -/

/-- `HTTPException(status_code=401, detail=detail)`. -/
def unauthorized (detail : String) : ServiceError := .http 401 detail

/-- The session the `jti` of a checked token names: both look-ups end in a 401 when they find
nothing. -/
def sessionKeyOfPayload (payload : Payload) : Svc (String × String) :=
  match payload.jtiClaim with
  | none => throw (unauthorized "Invalid token: jti not found")
  | some jti => do
    let globalSessionKey ← getGlobalSessionKeyByJti jti
    match globalSessionKey with
    | none => throw (unauthorized "Token expired or invalid")
    | some globalSessionKey => pure (jti, globalSessionKey)

/-- `get_global_session_key_from_token`; it looks at the signature, the times and the `jti`, not
at the type of the token. -/
def getGlobalSessionKeyFromToken (token : Token) : Svc String := do
  let verified ← verifyToken token
  match verified with
  | .error detail => throw (unauthorized detail)
  | .ok payload => do
    let (_, globalSessionKey) ← sessionKeyOfPayload payload
    pure globalSessionKey

/-- The token check of `verify_token_and_get_session` and `refresh_token`: signature, times, the
type, and the `jti` with its session. -/
def authenticate (token : Token) (type : String) : Svc (Payload × String × String) := do
  let verified ← verifyToken token
  match verified with
  | .error detail => throw (unauthorized detail)
  | .ok payload =>
    if payload.type = some type then do
      let (jti, globalSessionKey) ← sessionKeyOfPayload payload
      pure (payload, jti, globalSessionKey)
    else throw (unauthorized "Invalid token type")

/-! ### services/auth_service.py -/

/-- The result of `create_tokens`. -/
structure Tokens where
  accessToken : Token
  refreshToken : Token
  jti : String

/-- `SessionVerifyResponse`. -/
structure SessionVerifyResponse where
  globalSessionKey : String
  sessionState : String
  isAlive : Bool
  expiresAt : Option ℕ

/-- `SessionPingResponse`. -/
structure SessionPingResponse where
  isAlive : Bool
  expiresAt : Option ℕ

/-- `TokenRefreshResponse`. -/
structure TokenRefreshResponse where
  accessToken : Token
  refreshToken : Token
  globalSessionKey : String
  jti : String

/-- `SessionCloseResponse`. -/
structure SessionCloseResponse where
  status : String
  closedAt : ℕ
  archivedConversationId : String
  cleanedLocalSessions : ℕ

/-- `f"arch_{global_session_key}"`. -/
def archivedId (globalSessionKey : String) : String := "arch_" ++ globalSessionKey

theorem archivedId_injective {k k' : String} (h : archivedId k = archivedId k') : k = k' := by
  simpa [archivedId] using h

/-- The response of both close operations. -/
def closeResponse (globalSessionKey : String) (now : ℕ) : SessionCloseResponse where
  status := "success"
  closedAt := now
  archivedConversationId := archivedId globalSessionKey
  cleanedLocalSessions := 0

/-- The fields that both close operations write. -/
def closeUpdates (closeReason : Option String) (now : ℕ) : Hash
  | .sessionState => some (value SessionState.end_)
  | .closeReason => closeReason
  | .endedAt => some now
  | _ => none

namespace AuthService

/-- `create_tokens`. -/
def createTokens (cfg : Config) (userId globalSessionKey jti : String) : Svc Tokens := do
  setJtiMapping jti globalSessionKey cfg.sessionCacheTtl
  let accessToken ← createAccessToken cfg jti userId
  let refreshToken ← createRefreshToken cfg jti userId
  pure { accessToken, refreshToken, jti }

/-- The log record of `verify_token_and_get_session`. -/
def verifyRecord (jti globalSessionKey : String) (isAlive : Bool) : LoggerExtraData where
  logType := "SESSION_VERIFY"
  sessionId := globalSessionKey
  transactionId := jti
  payload := .obj
    [("result", .str "success"), ("reason", .str "verify"), ("isAlive", .bool isAlive)]

/-- The response of `verify_token_and_get_session` for what is stored of the session. -/
def verifyResponse (globalSessionKey : String) : Option Hash → SessionVerifyResponse
  | none => { globalSessionKey, sessionState := "", isAlive := false, expiresAt := none }
  | some session =>
    { globalSessionKey, sessionState := (session .sessionState).getD "", isAlive := true,
      expiresAt := session .expiresAt }

/-- `verify_token_and_get_session`. -/
def verifyTokenAndGetSession (token : Token) : Svc SessionVerifyResponse := do
  let (_, jti, globalSessionKey) ← authenticate token "access"
  let session ← SessionRepository.get globalSessionKey
  issue (.eslog (verifyRecord jti globalSessionKey session.isSome))
  pure (verifyResponse globalSessionKey session)

/-- The log record of `refresh_token`. -/
def refreshRecord (jti globalSessionKey : String) : LoggerExtraData where
  logType := "SESSION_REFRESH"
  sessionId := globalSessionKey
  transactionId := jti
  payload := .obj [("result", .str "success"), ("reason", .str "refresh")]

/-- What `refresh_token` does once the presented token is accepted. -/
def rotate (cfg : Config) (newJti : String) (payload : Payload) (jti globalSessionKey : String) :
    Svc TokenRefreshResponse := do
  let _ ← SessionRepository.refreshTtl cfg globalSessionKey
  let userId := payload.sub.getD ""
  let accessToken ← createAccessToken cfg newJti userId
  let refreshToken ← createRefreshToken cfg newJti userId
  issue (.del (.jti jti))
  setJtiMapping newJti globalSessionKey cfg.sessionCacheTtl
  issue (.eslog (refreshRecord newJti globalSessionKey))
  pure { accessToken, refreshToken, globalSessionKey, jti := newJti }

/-- `refresh_token`. -/
def refreshToken (cfg : Config) (newJti : String) (token : Token) :
    Svc TokenRefreshResponse := do
  let (payload, jti, globalSessionKey) ← authenticate token "refresh"
  rotate cfg newJti payload jti globalSessionKey

/-- `ping_session_by_token`. -/
def pingSessionByToken (token : Token) : Svc SessionPingResponse := do
  let globalSessionKey ← getGlobalSessionKeyFromToken token
  let session ← SessionRepository.get globalSessionKey
  match session with
  | none => pure { isAlive := false, expiresAt := none }
  | some session => pure { isAlive := true, expiresAt := session .expiresAt }

/-- The log record of `close_session_by_token`. -/
def closeByTokenRecord (globalSessionKey : String) (jti closeReason : Option String) (now : ℕ) :
    LoggerExtraData where
  logType := "SESSION_CLOSE"
  sessionId := globalSessionKey
  transactionId := jti.getD "-"
  payload := .obj
    [("closeReason", .str (closeReason.getD "")), ("closedAt", .str (isoformat now)),
      ("byToken", .bool true)]

/-- The `jti` that `close_session_by_token` deletes: the token is verified once more, and one
that has expired since counts as having none. -/
def jtiToDelete (token : Token) : Svc (Option String) := do
  let verified ← verifyToken token
  match verified with
  | .error _ => pure none
  | .ok payload => pure payload.jtiClaim

/-- `if jti: await redis_client.delete(f"jti:{jti}")`. -/
def deleteJti : Option String → Svc Unit
  | none => pure ()
  | some jti => issue (.del (.jti jti))

/-- `close_session_by_token`. -/
def closeSessionByToken (token : Token) (closeReason : Option String) :
    Svc SessionCloseResponse := do
  let globalSessionKey ← getGlobalSessionKeyFromToken token
  let session ← SessionRepository.get globalSessionKey
  match session with
  | none => throw (.sessionManager (sessionNotFoundError globalSessionKey))
  | some _ => do
    let now ← issue .now
    let _ ← SessionRepository.update globalSessionKey (closeUpdates closeReason now)
    let jti ← jtiToDelete token
    deleteJti jti
    issue (.eslog (closeByTokenRecord globalSessionKey jti closeReason now))
    pure (closeResponse globalSessionKey now)

end AuthService

end SessionManager
