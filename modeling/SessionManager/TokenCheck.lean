import SessionManager.AuthService

/-!
# The token check

Every operation that takes a token begins in the same way: it reads the clock, checks the claims,
and looks up the session that the `jti` names. This module states the check in that form.

* `acceptedJti` — the `jti` of a token whose claims are accepted at an instant, or the 401.
* `sessionOfJti` — the look-up of the session.
* `authenticate_signed`, `getGlobalSessionKeyFromToken_signed` — the two token checks in these
  terms; a string that was not signed is refused without a command.
-/

namespace SessionManager

open Python Interaction RedisHelper

/-- The `jti` of a payload that is accepted at instant `now`, where `type` is the type of token
asked for, if any. -/
def acceptedJti (type : Option String) (payload : Payload) (now : ℕ) :
    Except ServiceError String :=
  match checkClaims payload now with
  | .error detail => .error (unauthorized detail)
  | .ok payload =>
    if type = none ∨ payload.type = type then
      match payload.jtiClaim with
      | none => .error (unauthorized "Invalid token: jti not found")
      | some jti => .ok jti
    else .error (unauthorized "Invalid token type")

/-- Checked claims are the claims of the token. -/
theorem checkClaims_eq_ok {payload payload' : Payload} {now : ℕ}
    (h : checkClaims payload now = .ok payload') : payload' = payload := by
  unfold checkClaims at h
  split_ifs at h
  exact (Except.ok.inj h).symm

/-- What an accepted `jti` says about its token. -/
theorem acceptedJti_eq_ok {type : Option String} {payload : Payload} {now : ℕ} {jti : String} :
    acceptedJti type payload now = .ok jti ↔
      ¬ payload.Immature now ∧ ¬ payload.Expired now ∧ (type = none ∨ payload.type = type) ∧
        payload.jtiClaim = some jti := by
  by_cases himmature : payload.Immature now
  · simp [acceptedJti, checkClaims, himmature]
  by_cases hexpired : payload.Expired now
  · simp [acceptedJti, checkClaims, himmature, hexpired]
  have hchecked : checkClaims payload now = .ok payload := by
    simp [checkClaims, himmature, hexpired]
  by_cases htype : type = none ∨ payload.type = type
  · cases hclaim : payload.jtiClaim <;>
      simp [acceptedJti, hchecked, himmature, hexpired, htype, hclaim]
  · simp [acceptedJti, hchecked, htype]

/-- The `jti` of an accepted token is the one in its claims. -/
theorem jti_of_acceptedJti {type : Option String} {payload : Payload} {now : ℕ} {jti : String}
    (h : acceptedJti type payload now = .ok jti) : payload.jti = some jti := by
  have hclaim := (acceptedJti_eq_ok.mp h).2.2.2
  exact (Option.filter_eq_some_iff.mp hclaim).1

/-- The session that the mapping of `jti` names; a 401 when there is none. -/
def sessionOfJti (jti : String) : Svc String := do
  let globalSessionKey ← getGlobalSessionKeyByJti jti
  match globalSessionKey with
  | none => throw (unauthorized "Token expired or invalid")
  | some globalSessionKey => pure globalSessionKey

/-- The look-up command by command: one `GET`, whose empty reply counts as none. -/
theorem sessionOfJti_bind {α : Type} (jti : String) (f : String → Svc α) :
    (sessionOfJti jti >>= f) = (do
      let reply ← issue (.get (.jti jti))
      match nonEmpty reply with
      | none => throw (unauthorized "Token expired or invalid")
      | some globalSessionKey => f globalSessionKey) := by
  refine congrArg (@Program.call redis ServiceError _ (.get (.jti jti))) (funext fun reply => ?_)
  have hcases (found : Option String) : ((match found with
      | none => throw (unauthorized "Token expired or invalid")
      | some globalSessionKey => pure globalSessionKey : Svc String) >>= f) = (match found with
      | none => throw (unauthorized "Token expired or invalid")
      | some globalSessionKey => f globalSessionKey) := by
    cases found <;> rfl
  exact hcases (nonEmpty reply)

theorem sessionKeyOfPayload_eq {payload : Payload} {jti : String}
    (h : payload.jtiClaim = some jti) :
    sessionKeyOfPayload payload = (do
      let globalSessionKey ← sessionOfJti jti
      pure (jti, globalSessionKey)) := by
  unfold sessionKeyOfPayload sessionOfJti
  rw [h, bind_assoc]
  show (getGlobalSessionKeyByJti jti >>= _) = _
  refine congrArg _ (funext fun globalSessionKey => ?_)
  cases globalSessionKey <;> rfl

/-- The check of `verify_token_and_get_session` and `refresh_token`. -/
theorem authenticate_signed (payload : Payload) (type : String) :
    authenticate (.signed payload) type = (do
      let now ← issue .now
      let jti ← Program.ofExcept (acceptedJti (some type) payload now)
      let globalSessionKey ← sessionOfJti jti
      pure (payload, jti, globalSessionKey)) := by
  unfold authenticate verifyToken acceptedJti
  rw [bind_assoc]
  refine congrArg _ (funext fun now => ?_)
  rw [pure_bind]
  cases hchecked : checkClaims payload now with
  | error detail => rfl
  | ok payload' =>
    obtain rfl := checkClaims_eq_ok hchecked
    by_cases htype : payload'.type = some type
    · cases hclaim : payload'.jtiClaim with
      | none => simp [htype, hclaim, sessionKeyOfPayload]
      | some jti => simp [htype, hclaim, sessionKeyOfPayload_eq hclaim]
    · simp [htype]

/-- The check of `ping_session_by_token` and `close_session_by_token`. -/
theorem getGlobalSessionKeyFromToken_signed (payload : Payload) :
    getGlobalSessionKeyFromToken (.signed payload) = (do
      let now ← issue .now
      let jti ← Program.ofExcept (acceptedJti none payload now)
      sessionOfJti jti) := by
  unfold getGlobalSessionKeyFromToken verifyToken acceptedJti
  rw [bind_assoc]
  refine congrArg _ (funext fun now => ?_)
  rw [pure_bind]
  cases hchecked : checkClaims payload now with
  | error detail => rfl
  | ok payload' =>
    obtain rfl := checkClaims_eq_ok hchecked
    cases hclaim : payload'.jtiClaim with
    | none => simp [hclaim, sessionKeyOfPayload]
    | some jti => simp [hclaim, sessionKeyOfPayload_eq hclaim]

end SessionManager
