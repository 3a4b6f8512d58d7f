import SessionManager.Frame
import SessionManager.Requests
import SessionManager.TokenCheck

/-!
# Footprints

Which keys an operation may change. The operations on a session `k` change its hash, its turns
and profiles, no `jti`, and nothing of another session; they never set or delete a session key
as a whole.

* `Key.BelongsTo`, `Command.Within` — the keys of a session, and the commands that stay within a
  set of keys.
* `SameJtis` — nothing has happened to the mappings of `jti`s.
* `World.field`, `written`, `field_machine` — a field of a session, and what a command makes of it.
* `SessionRepository.refreshTtl_within`, `SessionService.patchSessionState_within`, … — one lemma
  for each operation.
-/

namespace SessionManager

open Python Interaction

/-- The keys an operation on session `k` may change. Profile keys are shared between sessions. -/
def Key.BelongsTo (k : String) : Key → Prop
  | .session k' => k' = k
  | .turns k' => k' = k
  | .realtimeProfile _ => True
  | .batchProfile _ => True
  | .jti _ => False

/-- The keys of profiles. -/
def Key.IsProfile : Key → Prop
  | .realtimeProfile _ => True
  | .batchProfile _ => True
  | _ => False

/-- The command changes keys in `K` only; a session key is changed by `HSET` and `EXPIRE` only. -/
def Command.Within (K : Key → Prop) : Command → Prop
  | .hset k _ => K (.session k)
  | .rpush k _ => K (.turns k)
  | .expire key _ => K key
  | .set key _ => K key ∧ ∀ k, key ≠ .session k
  | .setex key _ _ => K key ∧ ∀ k, key ≠ .session k
  | .del key => K key ∧ ∀ k, key ≠ .session k
  | _ => True

theorem Command.Within.changes {K : Key → Prop} {c : Command} (h : c.Within K) {key : Key}
    (hkey : c.changes = some key) : K key := by
  cases c <;> simp only [Command.changes, Option.some.injEq, reduceCtorEq] at hkey <;>
    subst hkey <;> first | exact h.1 | exact h

theorem Command.Within.mono {K K' : Key → Prop} {c : Command} (h : c.Within K)
    (hK : ∀ key, K key → K' key) : c.Within K' := by
  cases c <;> first | trivial | exact ⟨hK _ h.1, h.2⟩ | exact hK _ h

/-! ### The mappings of `jti`s -/

/-- The mappings are stored as before, with their expiries. -/
structure SameJtis (w w' : World) : Prop where
  now_le : w.now ≤ w'.now
  stored : ∀ j, w'.store (.jti j) = w.store (.jti j)

namespace SameJtis

theorem refl (w : World) : SameJtis w w := ⟨Nat.le_refl _, fun _ => rfl⟩

theorem trans {w₁ w₂ w₃ : World} (h : SameJtis w₁ w₂) (h' : SameJtis w₂ w₃) : SameJtis w₁ w₃ :=
  ⟨Nat.le_trans h.now_le h'.now_le, fun j => (h'.stored j).trans (h.stored j)⟩

theorem elapses {w w₁ w₂ : World} (h : SameJtis w w₁) (helapses : w₁.Elapses w₂) :
    SameJtis w w₂ :=
  h.trans ⟨helapses.now_le, fun j => by rw [helapses.store_eq]⟩

theorem of_elapses {w w' : World} (h : w.Elapses w') : SameJtis w w' := (refl w).elapses h

/-- A command that changes no mapping. -/
theorem machine {w w₁ : World} (h : SameJtis w w₁) {c : Command}
    (hc : ∀ j, c.changes ≠ some (.jti j)) : SameJtis w (machine c w₁).2 :=
  h.trans ⟨Nat.le_of_eq (machine_now c w₁).symm, fun j => machine_store_of_ne (hc j) w₁⟩

end SameJtis

/-! ### Fields of a session -/

/-- The stored value of a field of a session. -/
def World.field (w : World) (k : String) (f : Field) : Option f.Value :=
  (w.hash k).bind fun h => h f

/-- A session that does not expire shows the same fields. -/
theorem World.Keeps.field {k : String} {w w' : World} (h : World.Keeps (.session k) w w')
    (f : Field) : w'.field k f = w.field k f := by
  unfold World.field
  rw [h.hash]

/-- The value that a command writes to field `f` of session `k`, or else the one before it. -/
def written (k : String) (f : Field) (before : Option f.Value) : Command → Option f.Value
  | .hset k' mapping => if k' = k then (mapping f).or before else before
  | _ => before

/-- A command that sets or deletes no session key leaves a live session live. -/
theorem hash_isSome {c : Command} (hc : c.Within fun _ => True) {w : World} {k : String}
    (h : (w.hash k).isSome) : ((machine c w).2.hash k).isSome := by
  by_cases hk : c.changes = some (.session k)
  · cases c <;>
      simp only [Command.changes, Option.some.injEq, reduceCtorEq, Key.session.injEq] at hk
    case hset k' mapping =>
      subst hk
      simp [machine]
    case expire key seconds =>
      subst hk
      simpa [machine] using h
    case set key v => exact absurd hk (hc.2 k)
    case setex key seconds v => exact absurd hk (hc.2 k)
    case del key => exact absurd hk (hc.2 k)
  · rwa [World.hash_of_ne hk]

/-- A field of a session after a command: what an `HSET` of it writes, or else what was stored. -/
theorem field_machine {c : Command} (hc : c.Within fun _ => True) (w : World) (k : String)
    (f : Field) :
    World.field (machine c w).2 k f = written k f (w.field k f) c := by
  by_cases hk : c.changes = some (.session k)
  · cases c <;>
      simp only [Command.changes, Option.some.injEq, reduceCtorEq, Key.session.injEq] at hk
    case hset k' mapping =>
      subst hk
      cases hhash : w.hash k' <;>
        simp [World.field, written, machine, hhash, Hash.merge, Hash.empty]
    case expire key seconds =>
      subst hk
      simp [World.field, written, machine]
    case set key v => exact absurd hk (hc.2 k)
    case setex key seconds v => exact absurd hk (hc.2 k)
    case del key => exact absurd hk (hc.2 k)
  · unfold World.field
    rw [World.hash_of_ne hk]
    cases c
    case hset k' mapping =>
      have hne : k' ≠ k := by simpa [Command.changes] using hk
      simp [written, hne]
    all_goals rfl

/-- A command that stays off a session writes none of its fields. -/
theorem written_of_within {K : Key → Prop} {c : Command} (hc : c.Within K) {k : String}
    (hk : ¬ K (.session k)) (f : Field) (before : Option f.Value) :
    written k f before c = before := by
  cases c
  case hset k' mapping =>
    have hne : k' ≠ k := fun h => hk (h ▸ hc)
    simp [written, hne]
  all_goals rfl

/-! ### Operations on one session -/

/-- All commands of the program belong to session `k`. -/
abbrev WithinSession {α : Type} (k : String) (p : Svc α) : Prop :=
  p.Only (Command.Within (Key.BelongsTo k))

open Program hiding pure

/-! ### RedisHelper and the repository -/

section Repository

variable {K : Key → Prop} {k : String}

namespace RedisHelper

theorem setSession_within (cfg : Config) (hk : K (.session k)) (data : Hash) (ttl : Option ℕ) :
    (setSession cfg k data ttl).Only (Command.Within K) :=
  ⟨hk, fun _ => only_perform.mpr hk⟩

theorem hsetWhen_within (hk : K (.session k)) (found : Bool) (mapping : Hash) :
    (hsetWhen found k mapping).Only (Command.Within K) := by
  cases found with
  | false => trivial
  | true => exact only_perform.mpr hk

theorem updateSession_within (hk : K (.session k)) {updates : Hash}
    (hupdates : updates.isEmpty = false) : (updateSession k updates).Only (Command.Within K) := by
  rw [updateSession_eq k hupdates]
  exact .perform_bind trivial fun found => hsetWhen_within hk found updates

theorem setProfile_within (cfg : Config) {key : Key} (hkey : K key)
    (hne : ∀ k', key ≠ .session k') (profile : key.Value) (ttl : Option ℕ) :
    (setProfile cfg key profile ttl).Only (Command.Within K) :=
  ⟨⟨hkey, hne⟩, fun _ => only_perform.mpr hkey⟩

theorem addContextTurn_within (cfg : Config) (hk : K (.turns k)) (turn : Json) :
    (addContextTurn cfg k turn).Only (Command.Within K) :=
  ⟨hk, fun _ => only_perform.mpr hk⟩

end RedisHelper

namespace SessionRepository

open RedisHelper

theorem update_within (hk : K (.session k)) (updates : Hash) :
    (update k updates).Only (Command.Within K) := by
  rw [update_eq]
  refine .perform_bind trivial fun now => .perform_bind trivial fun found => ?_
  exact (hsetWhen_within hk found _).bind fun _ => .perform_bind trivial fun _ => trivial

theorem extend_within (cfg : Config) {key : Key} (hkey : K key) :
    (extend cfg key).Only (Command.Within K) := by
  refine .perform_bind trivial fun found => ?_
  cases found with
  | false => trivial
  | true => exact only_perform.mpr hkey

theorem extendProfiles_within (cfg : Config) (hrealtime : ∀ u, K (.realtimeProfile u))
    (hbatch : ∀ u, K (.batchProfile u)) (k : String) (session : Hash) :
    (extendProfiles cfg k session).Only (Command.Within K) := by
  unfold extendProfiles
  split
  · split
    · exact extend_within cfg (hrealtime k)
    · exact (extend_within cfg (hrealtime _)).bind fun _ => extend_within cfg (hbatch _)
  · exact extend_within cfg (hrealtime k)

theorem refreshTtl_within (cfg : Config) (k : String) : WithinSession k (refreshTtl cfg k) := by
  have hk : Key.BelongsTo k (.session k) := rfl
  have hturns : Key.BelongsTo k (.turns k) := rfl
  refine .perform_bind trivial fun session => ?_
  cases session with
  | none => trivial
  | some session =>
    refine .perform_bind trivial fun now => (setSession_within cfg hk _ _).bind fun _ => ?_
    refine (extend_within cfg hturns).bind fun _ => ?_
    exact (extendProfiles_within cfg (fun _ => trivial) (fun _ => trivial) k _).bind
      fun _ => trivial

theorem setLocalMapping_within (hk : K (.session k)) (agentId agentSessionKey agentType : String) :
    (setLocalMapping k agentId agentSessionKey agentType).Only (Command.Within K) := by
  refine .perform_bind trivial fun session => ?_
  cases session with
  | none => trivial
  | some session =>
    dsimp only
    split
    · trivial
    · exact updateSession_within hk (mappingUpdate_isEmpty _)

theorem getLocalMapping_within (k agentId : String) :
    (getLocalMapping k agentId).Only (Command.Within K) := by
  refine .perform_bind trivial fun session => ?_
  cases session with
  | none => trivial
  | some session =>
    dsimp only
    split <;> trivial

end SessionRepository

end Repository

/-! ### Services -/

namespace SessionService

open SessionRepository

theorem registerAgent_within {K : Key → Prop} (request : SessionPatchRequest)
    (hk : K (.session request.globalSessionKey)) :
    (registerAgent request).Only (Command.Within K) := by
  unfold registerAgent
  split
  · exact setLocalMapping_within hk _ _ _
  · trivial

theorem refreshOnTalk_within (cfg : Config) (request : SessionPatchRequest) :
    WithinSession request.globalSessionKey (refreshOnTalk cfg request) := by
  unfold refreshOnTalk
  split
  · exact (refreshTtl_within cfg _).bind fun _ => trivial
  · trivial

theorem patchSessionState_within (cfg : Config) (request : SessionPatchRequest) :
    WithinSession request.globalSessionKey (patchSessionState cfg request) := by
  refine ⟨trivial, fun session => ?_⟩
  cases session with
  | none => trivial
  | some session =>
    refine ⟨trivial, fun now => (refreshOnTalk_within cfg request).bind fun _ => ?_⟩
    have hk : Key.BelongsTo request.globalSessionKey (.session request.globalSessionKey) := rfl
    refine only_ofExcept.bind fun _ => (registerAgent_within request hk).bind fun _ => ?_
    exact (update_within hk _).bind fun _ => ⟨trivial, fun _ => trivial⟩

theorem closeSession_within (request : SessionCloseRequest) :
    WithinSession request.globalSessionKey (closeSession request) := by
  refine ⟨trivial, fun session => ?_⟩
  cases session with
  | none => trivial
  | some session =>
    have hk : Key.BelongsTo request.globalSessionKey (.session request.globalSessionKey) := rfl
    exact ⟨trivial, fun now => (update_within hk _).bind fun _ => ⟨trivial, fun _ => trivial⟩⟩

theorem saveApiResult_within (cfg : Config) {K : Key → Prop} {k : String} (hk : K (.turns k))
    (request : SolApiResultRequest) :
    (saveApiResult cfg k request).Only (Command.Within K) := by
  refine .perform_bind trivial fun session => ?_
  cases session with
  | none => trivial
  | some session =>
    refine .perform_bind trivial fun now => ?_
    exact (RedisHelper.addContextTurn_within cfg hk _).bind fun _ => trivial

theorem create_within (cfg : Config) {K : Key → Prop} {args : CreateArgs}
    (hk : K (.session args.globalSessionKey)) : (create cfg args).Only (Command.Within K) := by
  refine .perform_bind trivial fun existing => ?_
  cases existing with
  | some session => trivial
  | none =>
    refine .perform_bind trivial fun now => ?_
    exact (RedisHelper.setSession_within cfg hk _ _).bind fun _ => trivial

theorem createSession_within (cfg : Config) {K : Key → Prop} {k jti : String}
    (hk : K (.session k)) (hjti : K (.jti jti)) (request : SessionCreateRequest) :
    (createSession cfg k jti request).Only (Command.Within K) := by
  refine ⟨⟨hjti, by simp⟩, fun _ => ⟨trivial, fun _ => ⟨trivial, fun _ => ⟨trivial, fun _ =>
    ⟨trivial, fun _ => ?_⟩⟩⟩⟩⟩
  exact (create_within cfg hk : Only _ (create cfg (createArgs request k))).bind
    fun _ => ⟨trivial, fun _ => ⟨trivial, fun _ => trivial⟩⟩

end SessionService

namespace ProfileService

open SessionRepository RedisHelper

theorem storeProfiles_within (cfg : Config) (lookup : BatchLookup) (k : String)
    (profileData : Dict) (cusno : Option String) :
    WithinSession k (storeProfiles cfg lookup k profileData cusno) := by
  have hprofile (u : String) : WithinSession k (setRealtimeProfile cfg u profileData) :=
    @setProfile_within (Key.BelongsTo k) cfg (.realtimeProfile u) trivial (by simp) _ _
  cases cusno with
  | none => exact (hprofile k).bind fun _ => trivial
  | some cusno =>
    have hk : Key.BelongsTo k (.session k) := rfl
    refine (update_within hk _).bind fun _ => (hprofile cusno).bind fun _ => ?_
    refine only_ofExcept.bind fun batch => ?_
    unfold storeBatchProfile
    split
    · exact (@setProfile_within (Key.BelongsTo k) cfg (.batchProfile cusno) trivial (by simp)
        _ _).bind fun _ => trivial
    · trivial

theorem updateRealtimePersonalContext_within (cfg : Config) (lookup : BatchLookup) (k : String)
    (profileData : Dict) :
    WithinSession k (updateRealtimePersonalContext cfg lookup k profileData) := by
  refine ⟨trivial, fun session => ?_⟩
  cases session with
  | none => trivial
  | some session =>
    refine only_ofExcept.bind fun _ => (storeProfiles_within cfg lookup k _ _).bind fun _ => ?_
    exact ⟨trivial, fun _ => ⟨trivial, fun _ => trivial⟩⟩

end ProfileService

/-- A program of one session stays within all keys. -/
theorem WithinSession.anywhere {α : Type} {k : String} {p : Svc α} (h : WithinSession k p) :
    p.Only (Command.Within fun _ => True) :=
  h.mono fun _ hc => hc.mono fun _ _ => trivial

/-! ### Operations that only look -/

section Reads

variable {K : Key → Prop}

namespace SessionService

open SessionRepository

theorem sessionProfiles_within (k : String) (cusno : Option String) :
    (sessionProfiles k cusno).Only (Command.Within K) := by
  unfold sessionProfiles
  split
  · exact ⟨trivial, fun _ => ⟨trivial, fun _ => trivial⟩⟩
  · exact ⟨trivial, fun _ => trivial⟩

theorem agentSessionKey_within (request : SessionResolveRequest) :
    (agentSessionKey request).Only (Command.Within K) := by
  unfold agentSessionKey
  split
  · split
    · trivial
    · exact getLocalMapping_within _ _
  · trivial

theorem resolveSession_within (request : SessionResolveRequest) :
    (resolveSession request).Only (Command.Within K) := by
  refine .perform_bind trivial fun session => ?_
  cases session with
  | none => trivial
  | some session =>
    refine (agentSessionKey_within request).bind fun _ => only_ofExcept.bind fun _ => ?_
    exact (sessionProfiles_within _ _).bind fun _ => ⟨trivial, fun _ => only_ofExcept⟩

end SessionService

theorem sessionOfJti_within (jti : String) : (sessionOfJti jti).Only (Command.Within K) := by
  have hget : (RedisHelper.getGlobalSessionKeyByJti jti).Only (Command.Within K) :=
    ⟨trivial, fun _ => trivial⟩
  refine hget.bind fun found => ?_
  cases found <;> trivial

theorem getGlobalSessionKeyFromToken_within (token : Token) :
    (getGlobalSessionKeyFromToken token).Only (Command.Within K) := by
  cases token with
  | invalid text => trivial
  | signed payload =>
    rw [getGlobalSessionKeyFromToken_signed]
    exact .perform_bind trivial fun now => only_ofExcept.bind fun jti => sessionOfJti_within jti

theorem authenticate_within (token : Token) (type : String) :
    (authenticate token type).Only (Command.Within K) := by
  cases token with
  | invalid text => trivial
  | signed payload =>
    rw [authenticate_signed]
    refine .perform_bind trivial fun now => only_ofExcept.bind fun jti => ?_
    exact (sessionOfJti_within jti).bind fun k => trivial

namespace AuthService

theorem verifyTokenAndGetSession_within (token : Token) :
    (verifyTokenAndGetSession token).Only (Command.Within K) :=
  (authenticate_within token "access").bind fun (_, _, _) =>
    .perform_bind trivial fun _ => .perform_bind trivial fun _ => trivial

theorem pingSessionByToken_within (token : Token) :
    (pingSessionByToken token).Only (Command.Within K) := by
  refine (getGlobalSessionKeyFromToken_within token).bind fun k => ?_
  refine .perform_bind trivial fun session => ?_
  cases session <;> trivial

end AuthService

end Reads

/-! ### Operations on tokens -/

/-- The keys that map a `jti` to its session. -/
def Key.IsJti : Key → Prop
  | .jti _ => True
  | _ => False

theorem createTokens_within (cfg : Config) (userId k jti : String) :
    (AuthService.createTokens cfg userId k jti).Only (Command.Within Key.IsJti) :=
  ⟨⟨trivial, by simp⟩, fun _ => ⟨trivial, fun _ => ⟨trivial, fun _ => ⟨trivial, fun _ =>
    ⟨trivial, fun _ => trivial⟩⟩⟩⟩⟩

theorem createAccessToken_within (cfg : Config) {K : Key → Prop} (jti userId : String) :
    (createAccessToken cfg jti userId).Only (Command.Within K) :=
  ⟨trivial, fun _ => ⟨trivial, fun _ => trivial⟩⟩

theorem createRefreshToken_within (cfg : Config) {K : Key → Prop} (jti userId : String) :
    (createRefreshToken cfg jti userId).Only (Command.Within K) :=
  ⟨trivial, fun _ => ⟨trivial, fun _ => trivial⟩⟩

/-- What a rotation does once the session is extended. -/
theorem rotate_tail_within (cfg : Config) (newJti : String) (payload : Payload) (jti k : String) :
    (do let accessToken ← createAccessToken cfg newJti (payload.sub.getD "")
        let refreshToken ← createRefreshToken cfg newJti (payload.sub.getD "")
        issue (.del (.jti jti))
        RedisHelper.setJtiMapping newJti k cfg.sessionCacheTtl
        issue (.eslog (AuthService.refreshRecord newJti k))
        return ({ accessToken, refreshToken, globalSessionKey := k, jti := newJti } :
          TokenRefreshResponse) : Svc TokenRefreshResponse).Only
      (Command.Within Key.IsJti) := by
  refine (createAccessToken_within cfg _ _).bind fun _ => ?_
  refine (createRefreshToken_within cfg _ _).bind fun _ => ?_
  exact ⟨⟨trivial, by simp⟩, fun _ => ⟨⟨trivial, by simp⟩, fun _ => ⟨trivial, fun _ => trivial⟩⟩⟩

theorem jtiToDelete_within {K : Key → Prop} (token : Token) :
    (AuthService.jtiToDelete token).Only (Command.Within K) := by
  have hverify : (verifyToken token).Only (Command.Within K) := by
    cases token with
    | invalid text => trivial
    | signed payload => exact ⟨trivial, fun _ => trivial⟩
  exact hverify.bind fun verified => by cases verified <;> trivial

theorem deleteJti_within (jti : Option String) :
    (AuthService.deleteJti jti).Only (Command.Within Key.IsJti) := by
  cases jti with
  | none => trivial
  | some jti => exact ⟨⟨trivial, by simp⟩, fun _ => trivial⟩

end SessionManager
