import SessionManager.Python.Builtins

/-!
# Schemas

The enumerations, requests and responses of `schemas/common.py`, the exceptions of
`core/exceptions.py`, and the configuration the services read. A field that pydantic has accepted
has its declared type; the validators at the end are for the fields of `SessionResolveResponse`
that are filled from stored JSON.

* `ValueEnum` — an `Enum` whose members are told apart by their string values, with the lookup
  `SessionState(value)` as `ofValue?`.
* `SessionState`, `AgentType`, `ResponseType`, `TaskQueueStatus`, `SubAgentStatus` — the enums.
* `Payload`, `Token` — a signed token by its claims, or a string that no key of ours signed.
* `ServiceError` — what a request can raise.
* `optStr`, `optInt`, `optDict`, `optDictList` — the pydantic check of one response field.
-/

namespace SessionManager

open Python

/-! ### Enumerations -/

/-- An enumeration with a distinct string value for each member. -/
class ValueEnum (α : Type) where
  /-- The `.value` of a member. -/
  value : α → String
  /-- The members, in declaration order. -/
  members : List α
  mem_members : ∀ a, a ∈ members
  value_injective : Function.Injective value

/-- `Enum(value)`; `none` stands for the `ValueError` of an unknown value. -/
def ofValue? (α : Type) [ValueEnum α] (s : String) : Option α :=
  (ValueEnum.members (α := α)).find? fun a => ValueEnum.value a = s

/-- Looking up the value of a member gives the member back. -/
@[simp] theorem ofValue?_value {α : Type} [ValueEnum α] (a : α) :
    ofValue? α (ValueEnum.value a) = some a := by
  unfold ofValue?
  cases hfind : (ValueEnum.members (α := α)).find?
      fun b => decide (ValueEnum.value b = ValueEnum.value a) with
  | none =>
    have := List.find?_eq_none.mp hfind a (ValueEnum.mem_members a)
    simp at this
  | some b =>
    have hb : ValueEnum.value b = ValueEnum.value a := by simpa using List.find?_some hfind
    rw [ValueEnum.value_injective hb]

/-- `SessionState`. -/
inductive SessionState where
  | start
  | talk
  | end_
  deriving DecidableEq, Repr

instance : ValueEnum SessionState where
  value
    | .start => "start"
    | .talk => "talk"
    | .end_ => "end"
  members := [.start, .talk, .end_]
  mem_members a := by cases a <;> decide
  value_injective a b h := by cases a <;> cases b <;> first | rfl | simp at h

/-- `AgentType`. -/
inductive AgentType where
  | knowledge
  | task
  deriving DecidableEq, Repr

instance : ValueEnum AgentType where
  value
    | .knowledge => "knowledge"
    | .task => "task"
  members := [.knowledge, .task]
  mem_members a := by cases a <;> decide
  value_injective a b h := by cases a <;> cases b <;> first | rfl | simp at h

/-- `ResponseType`. -/
inductive ResponseType where
  | continue_
  | end_
  | fallback
  deriving DecidableEq, Repr

instance : ValueEnum ResponseType where
  value
    | .continue_ => "continue"
    | .end_ => "end"
    | .fallback => "fallback"
  members := [.continue_, .end_, .fallback]
  mem_members a := by cases a <;> decide
  value_injective a b h := by cases a <;> cases b <;> first | rfl | simp at h

/-- `TaskQueueStatus`. -/
inductive TaskQueueStatus where
  | null
  | notnull
  deriving DecidableEq, Repr

instance : ValueEnum TaskQueueStatus where
  value
    | .null => "null"
    | .notnull => "notnull"
  members := [.null, .notnull]
  mem_members a := by cases a <;> decide
  value_injective a b h := by cases a <;> cases b <;> first | rfl | simp at h

/-- `SubAgentStatus`. -/
inductive SubAgentStatus where
  | undefined
  | continue_
  | end_
  deriving DecidableEq, Repr

instance : ValueEnum SubAgentStatus where
  value
    | .undefined => "undefined"
    | .continue_ => "continue"
    | .end_ => "end"
  members := [.undefined, .continue_, .end_]
  mem_members a := by cases a <;> decide
  value_injective a b h := by cases a <;> cases b <;> first | rfl | simp at h

export ValueEnum (value)

/-! ### Configuration -/

/-- The settings of `config.py` that the services read, in seconds. `SETEX` refuses a lifetime
that is not positive, so no session comes into being without a positive `SESSION_CACHE_TTL`. -/
structure Config where
  /-- `SESSION_CACHE_TTL`. -/
  sessionCacheTtl : ℕ := 300
  /-- `JWT_ACCESS_TOKEN_EXPIRE_SECONDS`. -/
  jwtAccessTokenExpireSeconds : ℕ := 300
  /-- `JWT_REFRESH_TOKEN_EXPIRE_SECONDS`. -/
  jwtRefreshTokenExpireSeconds : ℕ := 330
  sessionCacheTtl_pos : 0 < sessionCacheTtl

/-- The defaults of `config.py`. -/
def Config.default : Config := { sessionCacheTtl_pos := by decide }

/-! ### Tokens -/

/-- The claims of a JWT; `exp` and `iat` are whole seconds. -/
structure Payload where
  jti : Option String
  sub : Option String
  exp : Option ℕ
  iat : Option ℕ
  type : Option String
  deriving DecidableEq, Repr

/-- A token string: one signed with the server's key, by its claims, or any other string. -/
inductive Token where
  | signed (payload : Payload)
  | invalid (text : String)
  deriving DecidableEq, Repr

/-! ### Errors -/

/-- `SessionManagerError`. -/
structure SessionManagerError where
  code : String
  message : String
  detail : Option String
  statusCode : ℕ
  deriving DecidableEq, Repr

/-- `SessionNotFoundError(session_key)`. -/
def sessionNotFoundError (sessionKey : String) : SessionManagerError where
  code := "SM001"
  message := "Session not found"
  detail := some ("Session with key '" ++ sessionKey ++ "' does not exist")
  statusCode := 404

/-- `InvalidStateTransitionError(from_state, to_state)`. -/
def invalidStateTransitionError (fromState toState : String) : SessionManagerError where
  code := "SM006"
  message := "Invalid state transition"
  detail := some ("Cannot transition from '" ++ fromState ++ "' to '" ++ toState ++ "'")
  statusCode := 400

/-- What a request can raise. -/
inductive ServiceError where
  /-- `HTTPException(status_code, detail)`. -/
  | http (statusCode : ℕ) (detail : String)
  /-- An exception of `core/exceptions.py`. -/
  | sessionManager (e : SessionManagerError)
  /-- pydantic's `ValidationError` for a field of a response. -/
  | validation (field : String)
  /-- `ValueError`: no member of the enumeration has this value. -/
  | value (enum text : String)
  /-- `TypeError`. -/
  | type
  /-- `AttributeError`. -/
  | attribute
  /-- `UnicodeEncodeError`. -/
  | unicodeEncode
  deriving DecidableEq, Repr

/-! ### Requests -/

/-- `ChannelInfo`. -/
structure ChannelInfo where
  eventType : String
  eventChannel : String
  deriving DecidableEq, Repr

/-- `SessionCreateRequest`. -/
structure SessionCreateRequest where
  userId : Option String := none
  triggerId : String := ""
  channel : Option ChannelInfo := none

/-- `SessionResolveRequest`; `channel` is not read. -/
structure SessionResolveRequest where
  globalSessionKey : String
  agentType : Option AgentType := none
  agentId : Option String := none

/-- `StatePatch`. -/
structure StatePatch where
  subagentStatus : Option SubAgentStatus := none
  actionOwner : Option String := none
  referenceInformation : Option Dict := none
  cushionMessage : Option String := none
  lastAgentId : Option String := none
  lastAgentType : Option AgentType := none
  lastResponseType : Option ResponseType := none
  agentSessionKey : Option String := none
  sessionAttributes : Option Dict := none
  currentIntent : Option String := none
  turnCount : Option ℤ := none

/-- `SessionPatchRequest`. -/
structure SessionPatchRequest where
  globalSessionKey : String
  turnId : Option String := none
  sessionState : Option SessionState := none
  statePatch : Option StatePatch := none

/-- `SessionCloseRequest`. -/
structure SessionCloseRequest where
  globalSessionKey : String
  closeReason : Option String := none
  finalSummary : Option String := none

/-- `SolDBSTransactionPayload` and `SolDBSTransactionResult`: a transaction code and a body that
is a string or an object, under its alias. -/
structure SolTransaction where
  trxCd : String
  body : String ⊕ Dict

/-- `SolApiResultRequest`. -/
structure SolApiResultRequest where
  globalSessionKey : String
  turnId : String
  agentId : Option String := none
  transactionPayload : Option (List SolTransaction) := none
  globId : Option String := none
  requestId : Option String := none
  result : Option String := none
  resultCode : Option String := none
  resultMsg : Option String := none
  transactionResult : Option (List SolTransaction) := none

/-! ### Responses -/

/-- `LastEvent`; `updated_at` is kept as the text of its instant. -/
structure LastEvent where
  eventType : String
  agentId : Option String
  agentType : Option AgentType
  responseType : Option ResponseType
  updatedAt : String

/-- `SessionResolveResponse`; `dialog_context` is always `None`. -/
structure SessionResolveResponse where
  globalSessionKey : String
  triggerId : String
  channel : Option ChannelInfo
  agentSessionKey : Option String
  sessionState : SessionState
  isFirstCall : Bool
  taskQueueStatus : TaskQueueStatus
  subagentStatus : SubAgentStatus
  lastEvent : Option LastEvent
  cusno : Option String
  batchProfile : Option Dict
  realtimeProfile : Option Dict
  activeTask : Option Dict
  conversationHistory : Option (List Dict)
  currentIntent : Option String
  currentTaskId : Option String
  taskQueueStatusDetail : Option (List Dict)
  turnCount : Option ℤ
  referenceInformation : Option Dict
  turnIds : Option (List String)

/-! ### Validation of response fields -/

/-- A field declared `str | None`. -/
def optStr (field : String) : Json → Except ServiceError (Option String)
  | .null => .ok none
  | .str s => .ok (some s)
  | _ => .error (.validation field)

/-- A field declared `int | None`; a `bool` is taken as the `int` it is. -/
def optInt (field : String) : Json → Except ServiceError (Option ℤ)
  | .null => .ok none
  | .int n => .ok (some n)
  | .bool b => .ok (some (if b then 1 else 0))
  | _ => .error (.validation field)

/-- A field declared `dict[str, Any] | None`. -/
def optDict (field : String) : Json → Except ServiceError (Option Dict)
  | .null => .ok none
  | .obj d => .ok (some d)
  | _ => .error (.validation field)

/-- The items of a field declared `list[dict[str, Any]]`. -/
def dictItems (field : String) : List Json → Except ServiceError (List Dict)
  | [] => .ok []
  | .obj d :: items => (dictItems field items).map (d :: ·)
  | _ :: _ => .error (.validation field)

/-- A field declared `list[dict[str, Any]] | None`. -/
def optDictList (field : String) : Json → Except ServiceError (Option (List Dict))
  | .null => .ok none
  | .arr items => (dictItems field items).map some
  | _ => .error (.validation field)

end SessionManager
