import SessionManager.Routes
import SessionManager.SessionService

/-!
# What operations raise

The exceptions of an operation, whatever is stored: most commands are followed by none.

* `SessionRepository.update_raises`, `refreshTtl_raises`, … — the repository.
* `updateRealtimePersonalContext_raises` — the update of realtime profiles.
-/

namespace SessionManager

open Python Interaction
open SessionRepository RedisHelper

open Program hiding pure

variable {cfg : Config} {k : String} {R : ServiceError → Prop}

/-! ### The repository -/

theorem hsetWhen_raises (found : Bool) (mapping : Hash) : (hsetWhen found k mapping).Raises R := by
  cases found with
  | false => trivial
  | true => exact fun _ => trivial

theorem extend_raises (key : Key) : (extend cfg key).Raises R := by
  intro found
  cases found with
  | false => trivial
  | true => exact fun _ => trivial

theorem extendProfiles_raises (session : Hash) : (extendProfiles cfg k session).Raises R := by
  unfold extendProfiles
  split
  · split
    · exact extend_raises _
    · exact (extend_raises _).bind fun _ => extend_raises _
  · exact extend_raises _

theorem refreshTtl_raises : (refreshTtl cfg k).Raises R := by
  refine .perform_bind fun session => ?_
  cases session with
  | none => trivial
  | some session =>
    have hset (session : Hash) : (setSession cfg k session (some cfg.sessionCacheTtl)).Raises R :=
      fun _ _ => trivial
    refine .perform_bind fun now => (hset _).bind fun _ => (extend_raises _).bind fun _ => ?_
    exact (extendProfiles_raises _).bind fun _ => trivial

theorem update_raises (updates : Hash) : (update k updates).Raises R := by
  rw [update_eq]
  refine .perform_bind fun now => .perform_bind fun found => ?_
  exact (hsetWhen_raises found _).bind fun _ => .perform_bind fun _ => trivial

/-- Registering a mapping raises a `TypeError` at most. -/
theorem setLocalMapping_raises (htype : R .type) (agentId agentSessionKey agentType : String) :
    (setLocalMapping k agentId agentSessionKey agentType).Raises R := by
  refine .perform_bind fun session => ?_
  cases session with
  | none => trivial
  | some session =>
    dsimp only
    cases hmappings : withMapping (session .agentMappings) agentId agentSessionKey agentType with
    | error e =>
      obtain rfl : e = .type := by
        unfold withMapping at hmappings
        split at hmappings <;> cases hmappings
        rfl
      exact htype
    | ok mappings =>
      dsimp only
      rw [updateSession_eq k (mappingUpdate_isEmpty mappings)]
      exact .perform_bind fun found => hsetWhen_raises found _

theorem setProfile_raises (key : Key) (profile : key.Value) (ttl : Option ℕ) :
    (setProfile cfg key profile ttl).Raises R := fun _ _ => trivial

/-! ### Services -/

theorem storeProfiles_raises (lookup : ProfileService.BatchLookup) (profileData : Dict)
    (cusno : Option String) (hlookup : ∀ cusno e, lookup cusno = .error e → R e) :
    (ProfileService.storeProfiles cfg lookup k profileData cusno).Raises R := by
  cases cusno with
  | none => exact (setProfile_raises _ _ _).bind fun _ => trivial
  | some cusno =>
    have hstores (batch : Option Dict) :
        (ProfileService.storeBatchProfile cfg cusno batch).Raises R := by
      unfold ProfileService.storeBatchProfile
      split
      · exact setProfile_raises _ _ _
      · trivial
    refine (update_raises _).bind fun _ => (setProfile_raises _ _ _).bind fun _ => ?_
    refine (raises_ofExcept (hlookup cusno)).bind fun batch => ?_
    exact (hstores batch).bind fun _ => trivial

theorem responseDataCusno_raises {profileData : Dict} {e : ServiceError}
    (h : ProfileService.responseDataCusno profileData = .error e) : e = .attribute := by
  unfold ProfileService.responseDataCusno at h
  split at h <;> cases h
  rfl

/-- Reading the customer number raises an `AttributeError` at most. -/
theorem cusnoOf_raises {profileData : Dict} {e : ServiceError}
    (h : ProfileService.cusnoOf profileData = .error e) : e = .attribute := by
  unfold ProfileService.cusnoOf at h
  cases hraw : ProfileService.cusnoRaw profileData with
  | ok raw =>
    rw [hraw] at h
    cases h
  | error e' =>
    rw [hraw] at h
    obtain rfl : e' = e := Except.error.inj h
    unfold ProfileService.cusnoRaw at hraw
    dsimp only at hraw
    split_ifs at hraw
    exact responseDataCusno_raises hraw

/-- So does printing it. -/
theorem profileCusno_raises {profileData : Dict} {e : ServiceError}
    (h : Routes.profileCusno profileData = .error e) : e = .attribute := by
  unfold Routes.profileCusno at h
  dsimp only at h
  split_ifs at h
  · cases h
  · cases hraw : Routes.responseDataCusno profileData with
    | ok raw =>
      rw [hraw] at h
      cases h
    | error e' =>
      rw [hraw] at h
      obtain rfl : e' = e := Except.error.inj h
      unfold Routes.responseDataCusno at hraw
      dsimp only at hraw
      split_ifs at hraw
      split at hraw <;> cases hraw
      rfl

/-- The second look at the token raises nothing. -/
theorem jtiToDelete_raises (token : Token) : (AuthService.jtiToDelete token).Raises R := by
  cases token with
  | invalid text => trivial
  | signed payload =>
    refine .perform_bind fun now => ?_
    cases checkClaims payload now <;> trivial

theorem deleteJti_raises (jti : Option String) : (AuthService.deleteJti jti).Raises R := by
  cases jti with
  | none => trivial
  | some jti => exact fun _ => trivial

end SessionManager
