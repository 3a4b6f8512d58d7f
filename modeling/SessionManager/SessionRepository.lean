import SessionManager.Redis

/-!
# Redis access

`RedisHelper` of `db/redis.py` and `RedisSessionRepository`: the programs through which every
service reaches the store. An `updates` dictionary is a `Hash`; a key that is missing and one
whose value is `None` are the same there, as `update_session` drops the latter.

* `setSession`, `updateSession`, `addContextTurn`, `setJtiMapping`, `setRealtimeProfile` and
  their readers — one method of `RedisHelper` each.
* `SessionRepository.create`, `update`, `refreshTtl`, `setLocalMapping`, `getLocalMapping`,
  `addTurn`, `getTurns` — one method of the repository each.
-/

namespace SessionManager

open Python Interaction

/-- `ttl or SESSION_CACHE_TTL`. -/
def ttlOr (cfg : Config) : Option ℕ → ℕ
  | some (n + 1) => n + 1
  | _ => cfg.sessionCacheTtl

@[simp] theorem ttlOr_none (cfg : Config) : ttlOr cfg none = cfg.sessionCacheTtl := rfl

@[simp] theorem ttlOr_sessionCacheTtl (cfg : Config) :
    ttlOr cfg (some cfg.sessionCacheTtl) = cfg.sessionCacheTtl := by
  obtain ⟨n, hn⟩ := Nat.exists_eq_succ_of_ne_zero (Nat.pos_iff_ne_zero.mp cfg.sessionCacheTtl_pos)
  rw [hn]
  rfl

namespace Hash

/-- The fields, in declaration order. -/
def fields : List Field :=
  [.globalSessionKey, .userId, .channel, .conversationId, .sessionState, .taskQueueStatus,
    .subagentStatus, .profile, .expiresAt, .createdAt, .updatedAt, .triggerId, .startType,
    .customerProfile, .actionOwner, .referenceInformation, .cushionMessage, .sessionAttributes,
    .lastEvent, .agentMappings, .turnIds, .closeReason, .endedAt, .finalSummary, .cusno]

theorem mem_fields (f : Field) : f ∈ fields := by
  cases f <;> decide

/-- `not hash`. -/
def isEmpty (h : Hash) : Bool := fields.all fun f => (h f).isNone

/-- A hash with a field is not empty. -/
theorem isEmpty_eq_false {h : Hash} {f : Field} {v : f.Value} (hf : h f = some v) :
    h.isEmpty = false := by
  rw [isEmpty, List.all_eq_false]
  exact ⟨f, mem_fields f, by simp [hf]⟩

end Hash

/-! ### RedisHelper -/

namespace RedisHelper

/-- `get_session`. -/
def getSession (globalSessionKey : String) : Svc (Option Hash) := issue (.hgetall globalSessionKey)

/-- `set_session`. -/
def setSession (cfg : Config) (globalSessionKey : String) (data : Hash) (ttl : Option ℕ) :
    Svc Unit := do
  issue (.hset globalSessionKey data)
  issue (.expire (.session globalSessionKey) (ttlOr cfg ttl))

/-- `update_session`. -/
def updateSession (globalSessionKey : String) (updates : Hash) : Svc Unit := do
  let exists_ ← issue (.exists_ (.session globalSessionKey))
  if exists_ then
    if updates.isEmpty then pure () else issue (.hset globalSessionKey updates)
  else pure ()

/-- `HSET`, when the key was found. -/
def hsetWhen (found : Bool) (globalSessionKey : String) (mapping : Hash) : Svc Unit :=
  if found then issue (.hset globalSessionKey mapping) else pure ()

/-- `update_session` with something to write: `EXISTS`, then `HSET` when the session was found. -/
theorem updateSession_eq (globalSessionKey : String) {updates : Hash}
    (h : updates.isEmpty = false) :
    updateSession globalSessionKey updates = (do
      let found ← issue (.exists_ (.session globalSessionKey))
      hsetWhen found globalSessionKey updates) := by
  unfold updateSession hsetWhen
  simp [h]

/-- `add_context_turn`. -/
def addContextTurn (cfg : Config) (globalSessionKey : String) (turn : Json) : Svc Unit := do
  issue (.rpush globalSessionKey turn)
  issue (.expire (.turns globalSessionKey) cfg.sessionCacheTtl)

/-- `set_jti_mapping`. -/
def setJtiMapping (jti globalSessionKey : String) (ttl : ℕ) : Svc Unit :=
  issue (.setex (.jti jti) ttl globalSessionKey)

/-- `get_global_session_key_by_jti`; an empty text counts as missing. -/
def getGlobalSessionKeyByJti (jti : String) : Svc (Option String) := do
  let result ← issue (.get (.jti jti))
  pure (result.filter (· ≠ ""))

/-- `get_realtime_profile`. -/
def getRealtimeProfile (userId : String) : Svc (Option Json) :=
  issue (.get (.realtimeProfile userId))

/-- `SET key` with the profile, then `EXPIRE key`. -/
def setProfile (cfg : Config) (key : Key) (profile : key.Value) (ttl : Option ℕ) : Svc Unit := do
  issue (.set key profile)
  issue (.expire key (ttlOr cfg ttl))

/-- `set_realtime_profile`. -/
def setRealtimeProfile (cfg : Config) (userId : String) (profileData : Dict)
    (ttl : Option ℕ := none) : Svc Unit :=
  setProfile cfg (.realtimeProfile userId) (.obj profileData) ttl

/-- `get_batch_profile`. -/
def getBatchProfile (userId : String) : Svc (Option Json) := issue (.get (.batchProfile userId))

/-- `set_batch_profile`. -/
def setBatchProfile (cfg : Config) (userId : String) (profileData : Dict)
    (ttl : Option ℕ := none) : Svc Unit :=
  setProfile cfg (.batchProfile userId) (.obj profileData) ttl

end RedisHelper

/-! ### RedisSessionRepository -/

namespace SessionRepository

open RedisHelper

/-- The instant `datetime.now(UTC) + timedelta(seconds=SESSION_CACHE_TTL)`, from the one read. -/
def expiry (cfg : Config) (now : ℕ) : ℕ := now + cfg.sessionCacheTtl * 1000

/-- The arguments of `create`. -/
structure CreateArgs where
  globalSessionKey : String
  userId : String
  channel : String
  conversationId : String
  sessionState : String
  taskQueueStatus : String
  subagentStatus : String
  customerProfile : Option Dict := none
  profile : Option Dict := none
  startType : Option String := none
  triggerId : Option String := none

/-- The hash that `create` writes at instant `now`. -/
def created (cfg : Config) (args : CreateArgs) (now : ℕ) : Hash
  | .globalSessionKey => some args.globalSessionKey
  | .userId => some args.userId
  | .channel => some args.channel
  | .conversationId => some args.conversationId
  | .sessionState => some args.sessionState
  | .taskQueueStatus => some args.taskQueueStatus
  | .subagentStatus => some args.subagentStatus
  | .profile => some (.obj (args.profile.getD []))
  | .expiresAt => some (expiry cfg now)
  | .createdAt => some now
  | .updatedAt => some now
  | .triggerId => some (args.triggerId.getD "")
  | .startType => args.startType
  | .customerProfile => args.customerProfile.map .obj
  | _ => none

/-- `create`: an existing session is returned as it is. -/
def create (cfg : Config) (args : CreateArgs) : Svc Hash := do
  let existing ← getSession args.globalSessionKey
  match existing with
  | some session => pure session
  | none =>
    let now ← issue .now
    let session := created cfg args now
    setSession cfg args.globalSessionKey session (some cfg.sessionCacheTtl)
    pure session

/-- `get`. -/
def get (globalSessionKey : String) : Svc (Option Hash) := getSession globalSessionKey

/-- `update`. -/
def update (globalSessionKey : String) (updates : Hash) : Svc Hash := do
  let now ← issue .now
  updateSession globalSessionKey (updates.set .updatedAt now)
  let updated ← getSession globalSessionKey
  pure (updated.getD Hash.empty)

/-- `update` command by command: there is always something to write. -/
theorem update_eq (globalSessionKey : String) (updates : Hash) :
    update globalSessionKey updates = (do
      let now ← issue .now
      let found ← issue (.exists_ (.session globalSessionKey))
      hsetWhen found globalSessionKey (updates.set .updatedAt now)
      let updated ← getSession globalSessionKey
      pure (updated.getD Hash.empty)) := by
  have hset (now : ℕ) : (updates.set .updatedAt now).isEmpty = false :=
    Hash.isEmpty_eq_false (updates.set_self .updatedAt now)
  unfold update
  simp only [updateSession_eq globalSessionKey (hset _), bind_assoc]

/-- `EXISTS key`, and `EXPIRE key` when it is there. -/
def extend (cfg : Config) (key : Key) : Svc Unit := do
  let exists_ ← issue (.exists_ key)
  if exists_ then issue (.expire key cfg.sessionCacheTtl) else pure ()

/-- The profile keys that `refresh_ttl` extends for a session hash. -/
def extendProfiles (cfg : Config) (globalSessionKey : String) (session : Hash) : Svc Unit :=
  match session .cusno with
  | some cusno =>
    if cusno = "" then extend cfg (.realtimeProfile globalSessionKey)
    else do
      extend cfg (.realtimeProfile cusno)
      extend cfg (.batchProfile cusno)
  | none => extend cfg (.realtimeProfile globalSessionKey)

/-- `refresh_ttl`. -/
def refreshTtl (cfg : Config) (globalSessionKey : String) : Svc (Option Hash) := do
  let session ← getSession globalSessionKey
  match session with
  | none => pure none
  | some session =>
    let now ← issue .now
    let session := session.set .expiresAt (expiry cfg now)
    setSession cfg globalSessionKey session (some cfg.sessionCacheTtl)
    extend cfg (.turns globalSessionKey)
    extendProfiles cfg globalSessionKey session
    pure (some session)

/-- The mapping of one agent. -/
def mappingJson (agentSessionKey agentType : String) : Json :=
  .obj [("agent_session_key", .str agentSessionKey), ("agent_type", .str agentType)]

/-- The stored mappings with the one for `agentId` replaced; `agent_mappings[agent_id] = …` on
anything but a `dict` is a `TypeError`. -/
def withMapping (stored : Option Json) (agentId agentSessionKey agentType : String) :
    Except ServiceError Dict :=
  match stored with
  | none => .ok [(agentId, mappingJson agentSessionKey agentType)]
  | some (.obj mappings) =>
    .ok (Dict.set mappings agentId (mappingJson agentSessionKey agentType))
  | some _ => .error .type

/-- An `updates` dictionary with `agent_mappings` only. -/
def mappingUpdate (mappings : Dict) : Hash := Hash.empty.set .agentMappings (.obj mappings)

theorem mappingUpdate_isEmpty (mappings : Dict) : (mappingUpdate mappings).isEmpty = false :=
  Hash.isEmpty_eq_false (Hash.set_self _ .agentMappings _)

/-- `set_local_mapping`. -/
def setLocalMapping (globalSessionKey agentId agentSessionKey agentType : String) :
    Svc Unit := do
  let session ← getSession globalSessionKey
  match session with
  | none => pure ()
  | some session =>
    match withMapping (session .agentMappings) agentId agentSessionKey agentType with
    | .error e => throw e
    | .ok mappings => updateSession globalSessionKey (mappingUpdate mappings)

/-- The `agent_session_key` that stored mappings hold for `agentId`: `None` without an entry,
`AttributeError` where `get` meets something that is not a `dict`. -/
def mappedKey (stored : Option Json) (agentId : String) : Except ServiceError Json :=
  match stored with
  | none => .ok .null
  | some (.obj mappings) =>
    match Dict.get mappings agentId with
    | .obj mapping => .ok (Dict.get mapping "agent_session_key")
    | mapping => if mapping.truthy then .error .attribute else .ok .null
  | some _ => .error .attribute

/-- `get_local_mapping(…)`, down to the `agent_session_key` its only caller takes from it. -/
def getLocalMapping (globalSessionKey agentId : String) : Svc Json := do
  let session ← getSession globalSessionKey
  match session with
  | none => pure .null
  | some session =>
    match mappedKey (session .agentMappings) agentId with
    | .error e => throw e
    | .ok agentSessionKey => pure agentSessionKey

/-- `add_turn`. -/
def addTurn (cfg : Config) (globalSessionKey : String) (turnData : Json) : Svc Unit :=
  addContextTurn cfg globalSessionKey turnData

end SessionRepository

end SessionManager
