import SessionManager.AuthService
import SessionManager.ProfileService

/-!
# SessionService

`core/policy.py` and `services/session_service.py`. The key of a new session and its `jti` are
arguments of the program that creates it.

* `SessionPolicy` — the transition map; no service consults it.
* `generateId` — the keys that new sessions get.
* `createSession`, `resolveSession`, `patchSessionState`, `closeSession`, `saveApiResult` — one
  method of the service each.
* `validateReferenceInformation`, `mergedReference`, `patchUpdates` — what a patch checks and
  writes.
* `resolveResponse` — the response of `resolveSession` for what is stored.
-/

namespace SessionManager

open Python Interaction RedisHelper

/-! ### core/policy.py -/

namespace SessionPolicy

/-- `ALLOWED_TRANSITIONS`. -/
def allowedTransitions : SessionState → List SessionState
  | .start => [.talk]
  | .talk => [.talk, .end_]
  | .end_ => []

/-- `can_transition`. -/
def canTransition (fromState toState : SessionState) : Bool :=
  toState ∈ allowedTransitions fromState

/-- `validate_transition`. -/
def validateTransition (fromState toState : SessionState) : Except SessionManagerError Unit :=
  if canTransition fromState toState then .ok ()
  else .error (invalidStateTransitionError (value fromState) (value toState))

end SessionPolicy

namespace SessionService

/-! ### create_session -/

/-- `SessionCreateResponse`. -/
structure SessionCreateResponse where
  globalSessionKey : String
  accessToken : Token
  refreshToken : Token
  jti : String

/-- `_generate_id`, for the time stamp and the random digits that it draws. -/
def generateId (idPrefix timestamp digits : String) : String :=
  idPrefix ++ "_" ++ timestamp ++ "_" ++ digits

/-- The channel that is stored: the event channel of the request, or `utterance`. -/
def channelValue (request : SessionCreateRequest) : String :=
  match request.channel with
  | some channel => channel.eventChannel
  | none => "utterance"

/-- The arguments that `create_session` gives to the repository. -/
def createArgs (request : SessionCreateRequest) (globalSessionKey : String) :
    SessionRepository.CreateArgs where
  globalSessionKey := globalSessionKey
  userId := request.userId.getD ""
  channel := channelValue request
  conversationId := ""
  sessionState := value SessionState.start
  taskQueueStatus := value TaskQueueStatus.null
  subagentStatus := value SubAgentStatus.undefined
  startType := request.channel.map ChannelInfo.eventType
  triggerId := some request.triggerId

/-- The log record of `create_session`. -/
def createRecord (request : SessionCreateRequest) (globalSessionKey : String) (now : ℕ) :
    LoggerExtraData where
  logType := "SESSION_CREATE"
  sessionId := globalSessionKey
  payload := .obj
    [("userId", .str (request.userId.getD "")), ("channel", .str (channelValue request)),
      ("startType", optJson (request.channel.map ChannelInfo.eventType)),
      ("triggerId", .str request.triggerId), ("createdAt", .str (isoformat now))]

/-- `create_session`. The tokens come before the session they are for. -/
def createSession (cfg : Config) (globalSessionKey jti : String)
    (request : SessionCreateRequest) : Svc SessionCreateResponse := do
  let tokens ← AuthService.createTokens cfg (request.userId.getD "") globalSessionKey jti
  let _ ← SessionRepository.create cfg (createArgs request globalSessionKey)
  let now ← issue .now
  issue (.eslog (createRecord request globalSessionKey now))
  pure
    { globalSessionKey, accessToken := tokens.accessToken, refreshToken := tokens.refreshToken,
      jti := tokens.jti }

/-! ### resolve_session -/

/-- `Enum(text)`, which raises `ValueError` for a text that is no value of the enumeration. -/
def enumField (α : Type) [ValueEnum α] (enum text : String) : Except ServiceError α :=
  match ofValue? α text with
  | some a => .ok a
  | none => .error (.value enum text)

@[simp] theorem enumField_value {α : Type} [ValueEnum α] (enum : String) (a : α) :
    enumField α enum (value a) = .ok a := by
  simp [enumField]

/-- An optional enumeration field of a stored event; `none` stands for a `ValidationError`. -/
def optEnum? (α : Type) [ValueEnum α] : Json → Option (Option α)
  | .null => some none
  | .str s => (ofValue? α s).map some
  | _ => none

/-- An optional string field of a stored event. -/
def optStr? : Json → Option (Option String)
  | .null => some none
  | .str s => some (some s)
  | _ => none

/-- `LastEvent(**event_data)`; `none` stands for the error that `resolve_session` suppresses. The
only text the code stores as `updated_at` is that of an instant. -/
def lastEventOf? (event : Dict) : Option LastEvent := do
  let eventType ← (← optStr? (Dict.get event "event_type"))
  let agentId ← optStr? (Dict.get event "agent_id")
  let agentType ← optEnum? AgentType (Dict.get event "agent_type")
  let responseType ← optEnum? ResponseType (Dict.get event "response_type")
  let updatedAt ← (← optStr? (Dict.get event "updated_at"))
  pure { eventType, agentId, agentType, responseType, updatedAt }

/-- The last event of a session hash. -/
def lastEvent (session : Hash) : Option LastEvent :=
  match session .lastEvent with
  | some (.obj event) => if event.isEmpty then none else lastEventOf? event
  | _ => none

/-- `ref_info.get(key)` when `ref_info` is a `dict`. -/
def referenceField (refInfo : Json) (key : String) : Json :=
  match refInfo with
  | .obj entries => Dict.get entries key
  | _ => .null

/-- A value that is no list counts as missing. -/
def listOrNone (v : Json) : Json := if v.isList then v else .null

/-- A value that is no integer counts as missing. -/
def intOrNone (v : Json) : Json := if v.isInt then v else .null

/-- The channel information of a session hash. -/
def channelInfo (session : Hash) : Option ChannelInfo :=
  let eventType := (session .startType).getD ""
  let eventChannel := (session .channel).getD ""
  if eventType = "" ∧ eventChannel = "" then none else some { eventType, eventChannel }

/-- The `turn_id`s of a session hash, when they are a list. -/
def turnIds? (session : Hash) : Option (List String) :=
  match session .turnIds with
  | some (.arr items) => some (items.map Json.pyStr)
  | _ => none

/-- A stored list of `turn_id`s is read back as it was written. -/
theorem turnIds?_of_str {session : Hash} {turnIds : List String}
    (h : session .turnIds = some (.arr (turnIds.map .str))) : turnIds? session = some turnIds := by
  simp [turnIds?, h, Function.comp_def]

/-- The mapped key of the agent in the request, for a task agent. -/
def agentSessionKey (request : SessionResolveRequest) : Svc Json :=
  match request.agentType, request.agentId with
  | some .task, some agentId =>
    if agentId = "" then pure .null
    else SessionRepository.getLocalMapping request.globalSessionKey agentId
  | _, _ => pure .null

/-- The profiles of a session: those of its customer, or the realtime profile saved under the
session's own key. -/
def sessionProfiles (globalSessionKey : String) (cusno : Option String) :
    Svc (Option Json × Option Json) :=
  match cusno.filter (· ≠ "") with
  | some cusno => ProfileService.getBatchAndRealtimeProfiles cusno
  | none => do
    let realtimeProfile ← getRealtimeProfile globalSessionKey
    pure (none, realtimeProfile)

/-- `session.get("session_state") == "start"`. -/
def isFirstCall (session : Hash) : Bool := session .sessionState = some (value SessionState.start)

/-- The log record of `resolve_session`. -/
def resolveRecord (request : SessionResolveRequest) (session : Hash) : LoggerExtraData where
  logType := "SESSION_RESOLVE"
  custNo := orDash (session .cusno)
  sessionId := request.globalSessionKey
  agentId := orDash request.agentId
  payload := .obj
    [("sessionState", .str ((session .sessionState).getD "")),
      ("agentType", optJson (request.agentType.map value)),
      ("isFirstCall", .bool (isFirstCall session))]

/-- The `SessionResolveResponse` for what `resolve_session` has read, its fields validated. -/
def resolveResponse (request : SessionResolveRequest) (session : Hash)
    (taskQueueStatus : TaskQueueStatus) (mapped : Json) (profiles : Option Json × Option Json) :
    Except ServiceError SessionResolveResponse := do
  let refInfo := (session .referenceInformation).getD .null
  let sessionState ← enumField SessionState "SessionState"
    ((session .sessionState).getD (value SessionState.start))
  let subagentStatus ← enumField SubAgentStatus "SubAgentStatus"
    ((session .subagentStatus).getD (value SubAgentStatus.undefined))
  let agentSessionKey ← optStr "agent_session_key" mapped
  let batchProfile ← optDict "batch_profile" (profiles.1.getD .null)
  let realtimeProfile ← optDict "realtime_profile" (profiles.2.getD .null)
  let activeTask ← optDict "active_task" (referenceField refInfo "active_task")
  let conversationHistory ← optDictList "conversation_history"
    (listOrNone (referenceField refInfo "conversation_history"))
  let currentIntent ← optStr "current_intent" (referenceField refInfo "current_intent")
  let currentTaskId ← optStr "current_task_id" (referenceField refInfo "current_task_id")
  let taskQueueStatusDetail ← optDictList "task_queue_status_detail"
    (listOrNone (referenceField refInfo "task_queue_status"))
  let turnCount ← optInt "turn_count" (intOrNone (referenceField refInfo "turn_count"))
  let referenceInformation ← optDict "reference_information" refInfo
  pure
    { globalSessionKey := request.globalSessionKey
      triggerId := (session .triggerId).getD ""
      channel := channelInfo session
      agentSessionKey
      sessionState
      isFirstCall := isFirstCall session
      taskQueueStatus
      subagentStatus
      lastEvent := lastEvent session
      cusno := session .cusno
      batchProfile
      realtimeProfile
      activeTask
      conversationHistory
      currentIntent
      currentTaskId
      taskQueueStatusDetail
      turnCount
      referenceInformation
      turnIds := turnIds? session }

/-- `resolve_session`. -/
def resolveSession (request : SessionResolveRequest) : Svc SessionResolveResponse := do
  let session ← SessionRepository.get request.globalSessionKey
  match session with
  | none => throw (.sessionManager (sessionNotFoundError request.globalSessionKey))
  | some session => do
    let mapped ← agentSessionKey request
    let taskQueueStatus ← Program.ofExcept
      (enumField TaskQueueStatus "TaskQueueStatus"
        ((session .taskQueueStatus).getD (value TaskQueueStatus.null)))
    let profiles ← sessionProfiles request.globalSessionKey (session .cusno)
    issue (.eslog (resolveRecord request session))
    Program.ofExcept (resolveResponse request session taskQueueStatus mapped profiles)

/-! ### patch_session_state -/

/-- `SessionPatchResponse`. -/
structure SessionPatchResponse where
  status : String
  updatedAt : ℕ

/-- `_validate_reference_information`. -/
def validateReferenceInformation (refInfo : Dict) : Except ServiceError Unit :=
  let conv := Dict.get refInfo "conversation_history"
  let turnCount := Dict.get refInfo "turn_count"
  if !conv.isNone && !conv.isList then
    .error (.http 400 "reference_information.conversation_history must be a list")
  else if Dict.contains refInfo "turn_count" && !turnCount.isNone && !turnCount.isInt then
    .error (.http 400 "reference_information.turn_count must be an integer")
  else .ok ()

/-- The `reference_information` of a patch with `current_intent` and `turn_count` of its top
level put in. -/
def mergedReference (patch : StatePatch) : Dict :=
  let refInfo := patch.referenceInformation.getD []
  let refInfo := match patch.currentIntent with
    | some intent => Dict.set refInfo "current_intent" (.str intent)
    | none => refInfo
  match patch.turnCount with
  | some n => Dict.set refInfo "turn_count" (.int n)
  | none => refInfo

/-- The reference information that a request stores; an empty one is not stored. -/
def newReference (request : SessionPatchRequest) : Option Dict :=
  (request.statePatch.map mergedReference).filter fun refInfo => !refInfo.isEmpty

/-- The check of what the request would store. -/
def validatePatch (request : SessionPatchRequest) : Except ServiceError Unit :=
  match newReference request with
  | some refInfo => validateReferenceInformation refInfo
  | none => .ok ()

/-- The event that a patch records. -/
def lastEventDict (patch : StatePatch) (now : ℕ) : Dict :=
  [("event_type", .str "AGENT_RESPONSE"), ("agent_id", optJson patch.lastAgentId),
    ("agent_type", optJson (patch.lastAgentType.map value)),
    ("response_type", optJson (patch.lastResponseType.map value)),
    ("updated_at", .str (isoformat now))]

/-- The event of a request: there is one when the agent or the response type is known. -/
def newLastEvent (request : SessionPatchRequest) (now : ℕ) : Option Dict :=
  request.statePatch.bind fun patch =>
    if (nonEmpty patch.lastAgentId).isSome || patch.lastResponseType.isSome then
      some (lastEventDict patch now)
    else none

/-- `turn_ids.append(turn_id)` unless it is there already. -/
def appendTurnId (turnIds : List String) (turnId : String) : List String :=
  if turnId ∈ turnIds then turnIds else turnIds ++ [turnId]

theorem mem_appendTurnId {turnIds : List String} {t turnId : String} :
    t ∈ appendTurnId turnIds turnId ↔ t ∈ turnIds ∨ t = turnId := by
  unfold appendTurnId
  split_ifs with hmem
  · constructor
    · exact .inl
    · rintro (ht | rfl)
      · exact ht
      · exact hmem
  · simp

/-- What is there already is not appended again. -/
theorem appendTurnId_again (turnIds : List String) (turnId : String) :
    appendTurnId (appendTurnId turnIds turnId) turnId = appendTurnId turnIds turnId :=
  if_pos (mem_appendTurnId.mpr (.inr rfl))

/-- The list that replaces `turn_ids`, computed from the hash read when the request began. -/
def newTurnIds (session : Hash) (request : SessionPatchRequest) : Option (List String) :=
  request.turnId.map fun turnId => appendTurnId ((turnIds? session).getD []) turnId

/-- The `updates` of a patch. -/
def patchUpdates (session : Hash) (request : SessionPatchRequest) (now : ℕ) : Hash
  | .sessionState => request.sessionState.map value
  | .subagentStatus => (request.statePatch.bind StatePatch.subagentStatus).map value
  | .actionOwner => nonEmpty (request.statePatch.bind StatePatch.actionOwner)
  | .referenceInformation => (newReference request).map .obj
  | .cushionMessage => nonEmpty (request.statePatch.bind StatePatch.cushionMessage)
  | .sessionAttributes =>
    ((request.statePatch.bind StatePatch.sessionAttributes).filter (!·.isEmpty)).map .obj
  | .lastEvent => (newLastEvent request now).map .obj
  | .turnIds => (newTurnIds session request).map fun turnIds => .arr (turnIds.map .str)
  | _ => none

/-- The agent mapping that a request registers: the agent, its session key and its type. -/
def newMapping (request : SessionPatchRequest) : Option (String × String × String) := do
  let patch ← request.statePatch
  let agentSessionKey ← nonEmpty patch.agentSessionKey
  let agentId ← nonEmpty patch.lastAgentId
  pure (agentId, agentSessionKey, value (patch.lastAgentType.getD .task))

/-- A patch to `talk` extends the session. -/
def refreshOnTalk (cfg : Config) (request : SessionPatchRequest) : Svc Unit :=
  match request.sessionState with
  | some .talk => do
    let _ ← SessionRepository.refreshTtl cfg request.globalSessionKey
    pure ()
  | _ => pure ()

/-- The registration of the agent mapping. -/
def registerAgent (request : SessionPatchRequest) : Svc Unit :=
  match newMapping request with
  | some (agentId, agentSessionKey, agentType) =>
    SessionRepository.setLocalMapping request.globalSessionKey agentId agentSessionKey agentType
  | none => pure ()

/-- The log record of `patch_session_state`. -/
def patchRecord (session : Hash) (request : SessionPatchRequest) : LoggerExtraData where
  logType := "SESSION_STATE_UPDATE"
  sessionId := request.globalSessionKey
  turnId := orDash request.turnId
  agentId := orDash (request.statePatch.bind StatePatch.lastAgentId)
  payload := .obj
    [("newSessionState", optJson ((request.sessionState.map value).or (session .sessionState))),
      ("hasStatePatch", .bool request.statePatch.isSome)]

/-- `patch_session_state`. -/
def patchSessionState (cfg : Config) (request : SessionPatchRequest) :
    Svc SessionPatchResponse := do
  let session ← SessionRepository.get request.globalSessionKey
  match session with
  | none => throw (.sessionManager (sessionNotFoundError request.globalSessionKey))
  | some session => do
    let now ← issue .now
    refreshOnTalk cfg request
    Program.ofExcept (validatePatch request)
    registerAgent request
    let _ ← SessionRepository.update request.globalSessionKey (patchUpdates session request now)
    issue (.eslog (patchRecord session request))
    pure { status := "success", updatedAt := now }

/-! ### close_session -/

/-- The log record of `close_session`. -/
def closeRecord (globalSessionKey : String) (session : Hash) (now : ℕ) : LoggerExtraData where
  logType := "SESSION_CLOSE"
  custNo := orDash (session .cusno)
  sessionId := globalSessionKey
  payload := .obj
    [("sessionState", optJson (session .sessionState)), ("closedAt", .str (isoformat now))]

/-- `updates["final_summary"]` on top of the fields that both close operations write. -/
def closeSessionUpdates (request : SessionCloseRequest) (now : ℕ) : Hash
  | .finalSummary => nonEmpty request.finalSummary
  | f => closeUpdates request.closeReason now f

/-- `close_session`. -/
def closeSession (request : SessionCloseRequest) : Svc SessionCloseResponse := do
  let session ← SessionRepository.get request.globalSessionKey
  match session with
  | none => throw (.sessionManager (sessionNotFoundError request.globalSessionKey))
  | some session => do
    let now ← issue .now
    let _ ← SessionRepository.update request.globalSessionKey (closeSessionUpdates request now)
    issue (.eslog (closeRecord request.globalSessionKey session now))
    pure (closeResponse request.globalSessionKey now)

/-! ### save_api_result -/

/-- A transaction as `model_dump(by_alias=True)` gives it, its body under `bodyKey`. -/
def transactionDict (bodyKey : String) (t : SolTransaction) : Json :=
  .obj [("trxCd", .str t.trxCd), (bodyKey, t.body.elim .str .obj)]

/-- A list of transactions; `None` and an empty list are left out. -/
def transactionList (bodyKey : String) (ts : Option (List SolTransaction)) : Option Json :=
  (ts.filter (!·.isEmpty)).map fun ts => .arr (ts.map (transactionDict bodyKey))

/-- A block of the metadata; an empty one is left out. -/
def block (entries : Dict) : Option Json := if entries.isEmpty then none else some (.obj entries)

/-- The `request` block. -/
def requestBlock (request : SolApiResultRequest) : Dict :=
  optEntry "transactionPayload" (transactionList "dataBody" request.transactionPayload)

/-- The `response` block. -/
def responseBlock (request : SolApiResultRequest) : Dict :=
  optEntry "globId" (request.globId.map .str) ++ optEntry "requestId" (request.requestId.map .str)
    ++ optEntry "result" (request.result.map .str)
    ++ optEntry "resultCode" (request.resultCode.map .str)
    ++ optEntry "resultMsg" (request.resultMsg.map .str)
    ++ optEntry "transactionResult" (transactionList "responseData" request.transactionResult)

/-- The metadata of a saved API result. -/
def solMetadata (request : SolApiResultRequest) : Dict :=
  [("global_session_key", .str request.globalSessionKey), ("turn_id", .str request.turnId)]
    ++ optEntry "agent" (request.agentId.map .str)
    ++ optEntry "request" (block (requestBlock request))
    ++ optEntry "response" (block (responseBlock request))

/-- The turn that is saved for an API result. -/
def turnData (request : SolApiResultRequest) (now : ℕ) : Json :=
  .obj
    [("turn_id", .str request.turnId), ("global_session_key", .str request.globalSessionKey),
      ("timestamp", .str (isoformat now)),
      ("metadata", .obj [("sol_api", .obj (solMetadata request))])]

/-- `save_api_result`; its `TurnResponse` is the saved turn. -/
def saveApiResult (cfg : Config) (globalSessionKey : String) (request : SolApiResultRequest) :
    Svc Json := do
  let session ← SessionRepository.get globalSessionKey
  match session with
  | none => throw (.sessionManager (sessionNotFoundError globalSessionKey))
  | some _ => do
    let now ← issue .now
    SessionRepository.addTurn cfg globalSessionKey (turnData request now)
    pure (turnData request now)

end SessionService

end SessionManager
