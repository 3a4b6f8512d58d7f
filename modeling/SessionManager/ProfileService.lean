import SessionManager.SessionRepository

/-!
# ProfileService

`services/profile_service.py`, as far as the session services use it. The batch profile comes
from a repository outside Redis; what it answers is an argument of the request.

* `getBatchAndRealtimeProfiles` — the stored profiles of a customer.
* `cusnoOf` — the customer number in a realtime profile.
* `updateRealtimePersonalContext` — the update of the profiles and of the session's `cusno`.
-/

namespace SessionManager

open Python Interaction RedisHelper

namespace ProfileService

/-- `profile_repo.get_batch_profile`, one answer for each customer number; without a repository
every answer is `None`. -/
abbrev BatchLookup := String → Except ServiceError (Option Dict)

/-- `get_batch_and_realtime_profiles`. -/
def getBatchAndRealtimeProfiles (cusno : String) : Svc (Option Json × Option Json) := do
  let batchProfile ← getBatchProfile cusno
  let realtimeProfile ← getRealtimeProfile cusno
  pure (batchProfile, realtimeProfile)

/-- `RealtimePersonalContextResponse`. -/
structure RealtimePersonalContextResponse where
  status : String
  updatedAt : ℕ

/-- `profile_data.get("responseData", {}).get("cusnoN10")`. -/
def responseDataCusno (profileData : Dict) : Except ServiceError Json :=
  match profileData.lookup "responseData" with
  | none => .ok .null
  | some (.obj responseData) => .ok (Dict.get responseData "cusnoN10")
  | some _ => .error .attribute

/-- The raw customer number: at the top level, or else in `responseData`. -/
def cusnoRaw (profileData : Dict) : Except ServiceError Json :=
  let raw := Dict.get profileData "cusnoN10"
  if raw.truthy then .ok raw else responseDataCusno profileData

/-- `str(cusno_raw).strip() or None`. -/
def cusnoOfRaw (raw : Json) : Option String :=
  if raw.truthy then some (strip raw.pyStr) |>.filter (· ≠ "") else none

/-- The customer number of a realtime profile. -/
def cusnoOf (profileData : Dict) : Except ServiceError (Option String) :=
  (cusnoRaw profileData).map cusnoOfRaw

/-- The `updates` that set the session's `cusno`. -/
def cusnoUpdates (cusno : String) : Hash := Hash.empty.set .cusno cusno

/-- The batch profile that is there to be stored: a non-empty one. -/
def batchToStore (batch : Option Dict) : Option Dict := batch.filter (!·.isEmpty)

/-- `if batch_profile_data: await helper.set_batch_profile(cusno, batch_profile_data)`. -/
def storeBatchProfile (cfg : Config) (cusno : String) (batch : Option Dict) : Svc Unit :=
  match batchToStore batch with
  | some batch => setBatchProfile cfg cusno batch
  | none => pure ()

/-- The log record of `update_realtime_personal_context`. -/
def updateRecord (globalSessionKey : String) (cusno : Option String) (batch : Option Dict) :
    LoggerExtraData where
  logType := "REALTIME_BATCH_PROFILE_UPDATE"
  custNo := orDash cusno
  sessionId := globalSessionKey
  payload :=
    let savedKey := cusno.getD globalSessionKey
    let batch := (batchToStore batch).getD []
    .obj
      [("hasCusno", .bool cusno.isSome), ("savedRealtimeKey", .str savedKey),
        ("batchProfileFetched", .bool (!batch.isEmpty)),
        ("batchDailyFetched", .bool (Dict.contains batch "daily")),
        ("batchMonthlyFetched", .bool (Dict.contains batch "monthly")),
        ("redisKeys", .obj
          [("realtime", .str (Key.realtimeProfile savedKey).text),
            ("batch", optJson (cusno.map fun cusno => (Key.batchProfile cusno).text))])]

/-- Store the profiles under the customer number, or the realtime profile under the session's key
when there is none; the batch profile that was fetched. -/
def storeProfiles (cfg : Config) (lookup : BatchLookup) (globalSessionKey : String)
    (profileData : Dict) : Option String → Svc (Option Dict)
  | some cusno => do
    let _ ← SessionRepository.update globalSessionKey (cusnoUpdates cusno)
    setRealtimeProfile cfg cusno profileData
    let batch ← Program.ofExcept (lookup cusno)
    storeBatchProfile cfg cusno batch
    pure batch
  | none => do
    setRealtimeProfile cfg globalSessionKey profileData
    pure none

/-- `update_realtime_personal_context`. -/
def updateRealtimePersonalContext (cfg : Config) (lookup : BatchLookup)
    (globalSessionKey : String) (profileData : Dict) : Svc RealtimePersonalContextResponse := do
  let session ← SessionRepository.get globalSessionKey
  match session with
  | none => throw (.sessionManager (sessionNotFoundError globalSessionKey))
  | some _ => do
    let cusno ← Program.ofExcept (cusnoOf profileData)
    let batch ← storeProfiles cfg lookup globalSessionKey profileData cusno
    issue (.eslog (updateRecord globalSessionKey cusno batch))
    let now ← issue .now
    pure { status := "success", updatedAt := now }

end ProfileService

end SessionManager
