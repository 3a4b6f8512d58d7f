import SessionManager.Footprint
import SessionManager.TokenCheck

/-!
# What requests write

Every command that a request may issue, with the data it writes, said once for all requests.

* `Request.Updates` — the `updates` dictionaries of a request.
* `Request.Writes` — the commands of a request. `Seen` is what is known about the session hashes
  it has read, as some of what it writes is made from them.
* `Command.owes` — the key that a command leaves without an expiry, or may leave so.
* `Hash.Whole`, `Command.finds` — a hash written as a whole, and the session that a command finds.
* `writing` — the protocol of a request: its commands, each write that owes an expiry followed at
  once by the `EXPIRE` of its key, each update of a session preceded by the `EXISTS` that finds it.
* `Request.serves` — every request follows it; `Request.program_within` is a first consequence.
-/

namespace SessionManager

open Python Interaction

/-! ### The commands of a request -/

/-- The `updates` dictionaries of a request, with the session each is for. -/
inductive Request.Updates (Seen : Hash → Prop) : Request → String → Hash → Prop
  | patch {request : SessionPatchRequest} {session : Hash} (now : ℕ) : Seen session →
      SessionService.validatePatch request = .ok () →
      Updates Seen (.patchSessionState request) request.globalSessionKey
        (SessionService.patchUpdates session request now)
  | close (request : SessionCloseRequest) (now : ℕ) :
      Updates Seen (.closeSession request) request.globalSessionKey
        (SessionService.closeSessionUpdates request now)
  | closeByToken (token : Token) (closeReason : Option String) (k : String) (now : ℕ) :
      Updates Seen (.closeSessionByToken token closeReason) k (closeUpdates closeReason now)
  | profile {lookup : ProfileService.BatchLookup} {k : String} {profileData : Dict}
      {cusno : String} : ProfileService.cusnoOf profileData = .ok (some cusno) →
      Updates Seen (.updateRealtimePersonalContext lookup k profileData) k
        (ProfileService.cusnoUpdates cusno)

/-- The keys whose lifetime a request may begin anew. -/
def Request.Extends : Request → Key → Prop
  | .createSession k _ _, key => key = .session k
  | .refreshToken _ _, _ => True
  | .patchSessionState request, key =>
    request.sessionState = some .talk ∧ key.BelongsTo request.globalSessionKey
  | .saveApiResult k _, key => key = .turns k
  | .updateRealtimePersonalContext _ _ _, key => key.IsProfile
  | _, _ => False

/-- The commands of a request. -/
inductive Request.Writes (cfg : Config) (Seen : Hash → Prop) : Request → Command → Prop
  /-- A command that changes no key. -/
  | look {request : Request} {c : Command} : c.changes = none → Writes cfg Seen request c
  /-- The hash of a new session. -/
  | create {k jti : String} {request : SessionCreateRequest} (now : ℕ) :
      Writes cfg Seen (.createSession k jti request)
        (.hset k (SessionRepository.created cfg (SessionService.createArgs request k) now))
  /-- The whole hash, with another `expires_at`. -/
  | rewrite {request : Request} {session : Hash} (k : String) (now : ℕ) : Seen session →
      Writes cfg Seen request
        (.hset k (session.set .expiresAt (SessionRepository.expiry cfg now)))
  /-- An `updates` dictionary. -/
  | update {request : Request} {k : String} {updates : Hash} (now : ℕ) :
      request.Updates Seen k updates →
        Writes cfg Seen request (.hset k (updates.set .updatedAt now))
  /-- The agent mappings with one registered. -/
  | register {request : SessionPatchRequest} {session : Hash}
      {agentId agentSessionKey agentType : String} {mappings : Dict} : Seen session →
      SessionService.newMapping request = some (agentId, agentSessionKey, agentType) →
      SessionRepository.withMapping (session .agentMappings) agentId agentSessionKey agentType
        = .ok mappings →
      Writes cfg Seen (.patchSessionState request)
        (.hset request.globalSessionKey (SessionRepository.mappingUpdate mappings))
  /-- A saved turn. -/
  | turn {k : String} {request : SolApiResultRequest} (now : ℕ) :
      Writes cfg Seen (.saveApiResult k request) (.rpush k (SessionService.turnData request now))
  /-- A realtime profile. -/
  | realtimeProfile {lookup : ProfileService.BatchLookup} {k : String} {profileData : Dict}
      (userId : String) :
      Writes cfg Seen (.updateRealtimePersonalContext lookup k profileData)
        (.set (.realtimeProfile userId) (.obj profileData))
  /-- A batch profile. -/
  | batchProfile {lookup : ProfileService.BatchLookup} {k : String} {profileData : Dict}
      (userId : String) (batch : Dict) :
      Writes cfg Seen (.updateRealtimePersonalContext lookup k profileData)
        (.set (.batchProfile userId) (.obj batch))
  /-- The lifetime of a key. -/
  | expire {request : Request} {key : Key} : request.Extends key →
      Writes cfg Seen request (.expire key cfg.sessionCacheTtl)
  /-- The mapping of a new `jti`. -/
  | issueJti {request : Request} (jti k : String) :
      Writes cfg Seen request (.setex (.jti jti) cfg.sessionCacheTtl k)
  /-- The mapping of a `jti` that is not valid any more. -/
  | revokeJti {request : Request} (jti : String) : Writes cfg Seen request (.del (.jti jti))

/-- The key that a command leaves without an expiry when there is none before it. Updates of a
session have no `global_session_key`; they are for a session that is there. -/
def Command.owes : Command → Option Key
  | .hset k mapping => if (mapping .globalSessionKey).isSome then some (.session k) else none
  | .rpush k _ => some (.turns k)
  | .set key _ => some key
  | _ => none

/-- The session that a command has found to be there. -/
def Command.finds : (c : Command) → c.Reply → Option String
  | .exists_ (.session k), true => some k
  | _, _ => none

/-- What `set_session` writes: the hash of a new session, or one that has been read, with another
`expires_at`. -/
inductive Hash.Whole (cfg : Config) (Seen : Hash → Prop) : Hash → Prop
  | created (args : SessionRepository.CreateArgs) (now : ℕ) :
      Whole cfg Seen (SessionRepository.created cfg args now)
  | rewritten {session : Hash} (now : ℕ) : Seen session →
      Whole cfg Seen (session.set .expiresAt (SessionRepository.expiry cfg now))

/-- The session hashes in a reply are as `Seen` says. -/
def Shows (Seen : Hash → Prop) : (c : Command) → c.Reply → Prop
  | .hgetall _, reply => ∀ session, reply = some session → Seen session
  | _, _ => True

/-- The protocol of a request. The ghost state is the key whose `EXPIRE` has to come next, and the
session that the last command has found. -/
def writing (cfg : Config) (Seen : Hash → Prop) (request : Request) : Protocol redis where
  State := Option Key × Option String
  Allow q c := request.Writes cfg Seen c ∧
    (∀ key, q.1 = some key → ∃ seconds, c = .expire key seconds) ∧
    ∀ k mapping, c = .hset k mapping → mapping.Whole cfg Seen ∨ q.2 = some k
  Answer _ := Shows Seen
  step _ c reply := (c.owes, c.finds reply)

/-- A command that changes no key owes none an expiry. -/
theorem Command.owes_of_changes {c : Command} (h : c.changes = none) : c.owes = none := by
  cases c <;> first | rfl | exact absurd h (by simp [Command.changes])

/-- Only an `EXISTS` finds a session. -/
theorem Command.finds_eq_some {c : Command} {reply : c.Reply} {k : String}
    (h : c.finds reply = some k) :
    (⟨c, reply⟩ : Event redis) = ⟨.exists_ (.session k), true⟩ := by
  unfold Command.finds at h
  split at h
  · obtain rfl := Option.some.inj h
    rfl
  · cases h

/-- The session of the ghost state is the one that the last command has found. -/
theorem writing_after_found {cfg : Config} {Seen : Hash → Prop} {request : Request}
    {log : List (Event redis)} {k : String}
    (h : ((writing cfg Seen request).after (none, none) log).2 = some k) :
    log.getLast? = some ⟨.exists_ (.session k), true⟩ := by
  rcases List.eq_nil_or_concat log with rfl | ⟨events, ⟨c, reply⟩, rfl⟩
  · cases h
  · have hstep := (writing cfg Seen request).after_append_singleton (none, none) events ⟨c, reply⟩
    rw [List.concat_eq_append] at h ⊢
    rw [hstep] at h
    rw [List.getLast?_concat, Command.finds_eq_some h]

/-- No update contains the `global_session_key`. -/
theorem Request.Updates.globalSessionKey {Seen : Hash → Prop} {request : Request} {k : String}
    {updates : Hash} (h : request.Updates Seen k updates) : updates .globalSessionKey = none := by
  cases h with
  | patch | close | closeByToken => rfl
  | profile => exact Hash.set_of_ne Hash.empty (by decide) _

/-! ### Programs -/

variable {cfg : Config} {Seen : Hash → Prop} {request : Request}

/-- The program is part of the service of a request. -/
abbrev Serves (cfg : Config) (Seen : Hash → Prop) (request : Request) {α : Type} (p : Svc α) :
    Prop :=
  p.Follows (writing cfg Seen request) (fun q _ => q.1 = none) (none, none)

open Program hiding pure

namespace Serves

/-- What needs no session to be found may follow the command that has found one. -/
theorem after {α : Type} {p : Svc α} (hp : Serves cfg Seen request p)
    {q : Option Key × Option String} (howed : q.1 = none) :
    p.Follows (writing cfg Seen request) (fun q _ => q.1 = none) q := by
  cases p with
  | pure a => exact howed
  | throw e => exact howed
  | call c next =>
    obtain ⟨⟨hwrites, -, hwhole⟩, hnext⟩ := hp
    refine ⟨⟨hwrites, fun key hkey => ?_, fun k mapping hc => ?_⟩, hnext⟩
    · rw [howed] at hkey
      cases hkey
    · exact .inl ((hwhole k mapping hc).resolve_right nofun)

theorem bind {α β : Type} {p : Svc α} {f : α → Svc β} (hp : Serves cfg Seen request p)
    (hf : ∀ a, Serves cfg Seen request (f a)) : Serves cfg Seen request (p >>= f) := by
  refine Follows.bind (hp.mono fun q outcome howed => ?_)
  cases outcome with
  | ok a => exact (hf a).after howed
  | error e => exact howed

theorem ofExcept {α : Type} (x : Except ServiceError α) :
    Serves cfg Seen request (Program.ofExcept x) := by
  cases x <;> rfl

theorem ofExcept_bind {α β : Type} {x : Except ServiceError α} {f : α → Svc β}
    (hf : ∀ a, x = .ok a → Serves cfg Seen request (f a)) :
    Serves cfg Seen request (Program.ofExcept x >>= f) :=
  Follows.ofExcept_bind (fun _ _ => rfl) hf

/-- A look at the store, and what follows. -/
theorem look_bind {α : Type} {c : Command} {f : c.Reply → Svc α} (hc : c.changes = none)
    (hf : ∀ reply, Shows Seen c reply → Serves cfg Seen request (f reply)) :
    Serves cfg Seen request (issue c >>= f) := by
  refine .perform_bind ⟨.look hc, nofun, fun k mapping hhset => ?_⟩ fun reply hreply => ?_
  · subst hhset
    cases hc
  · exact (hf reply hreply).after (Command.owes_of_changes hc)

/-- A write, not to a session, that owes nothing. -/
theorem write {c : Command} (hc : request.Writes cfg Seen c) (howes : c.owes = none)
    (hhset : ∀ k mapping, c ≠ .hset k mapping) : Serves cfg Seen request (issue c) :=
  .perform ⟨hc, nofun, fun k mapping h => absurd h (hhset k mapping)⟩ fun _ _ => howes

/-- A write and the `EXPIRE` of its key. -/
theorem write_expire {c : Command} {key : Key} (hc : request.Writes cfg Seen c)
    (hwhole : ∀ k mapping, c = .hset k mapping → mapping.Whole cfg Seen)
    (howes : ∀ owed, c.owes = some owed → owed = key) (hkey : request.Extends key) :
    Serves cfg Seen request
      (issue c >>= fun _ => issue (.expire key cfg.sessionCacheTtl)) := by
  refine .perform_bind ⟨hc, nofun, fun k mapping h => .inl (hwhole k mapping h)⟩ fun _ _ => ?_
  have hnext (owed : Key) (howed : c.owes = some owed) :
      ∃ seconds, Command.expire key cfg.sessionCacheTtl = .expire owed seconds :=
    ⟨cfg.sessionCacheTtl, by rw [howes owed howed]⟩
  exact .perform ⟨.expire hkey, hnext, nofun⟩ fun _ _ => rfl

end Serves

/-! ### RedisHelper and the repository -/

namespace RedisHelper

theorem setSession_serves {k : String} {data : Hash}
    (hdata : request.Writes cfg Seen (.hset k data)) (hwhole : data.Whole cfg Seen)
    (hkey : request.Extends (.session k)) {ttl : Option ℕ}
    (httl : ttlOr cfg ttl = cfg.sessionCacheTtl) :
    Serves cfg Seen request (setSession cfg k data ttl) := by
  unfold setSession
  rw [httl]
  refine Serves.write_expire hdata (fun k' mapping h => ?_) (fun owed howed => ?_) hkey
  · obtain ⟨-, rfl⟩ := Command.hset.inj h
    exact hwhole
  · simp only [Command.owes] at howed
    split_ifs at howed
    exact (Option.some.inj howed).symm

/-- An `HSET` that an `EXISTS` decides on. -/
theorem hsetWhen_serves {k : String} {mapping : Hash}
    (hmapping : request.Writes cfg Seen (.hset k mapping))
    (hid : mapping .globalSessionKey = none) :
    Serves cfg Seen request
      (issue (.exists_ (.session k)) >>= fun found => hsetWhen found k mapping) := by
  refine .perform_bind ⟨.look rfl, nofun, nofun⟩ fun found _ => ?_
  cases found with
  | false => rfl
  | true =>
    have howes : (Command.hset k mapping).owes = none := by simp [Command.owes, hid]
    refine .perform ⟨hmapping, nofun, fun k' mapping' h => .inr ?_⟩ fun _ _ => howes
    rw [(Command.hset.inj h).1]
    rfl

theorem setProfile_serves {key : Key} {profile : key.Value}
    (hprofile : request.Writes cfg Seen (.set key profile)) (hkey : request.Extends key)
    {ttl : Option ℕ} (httl : ttlOr cfg ttl = cfg.sessionCacheTtl) :
    Serves cfg Seen request (setProfile cfg key profile ttl) := by
  unfold setProfile
  rw [httl]
  exact Serves.write_expire hprofile nofun (fun _ howed => (Option.some.inj howed).symm) hkey

end RedisHelper

namespace SessionRepository

open RedisHelper

theorem update_serves {k : String} {updates : Hash} (h : request.Updates Seen k updates) :
    Serves cfg Seen request (update k updates) := by
  rw [update_eq]
  refine .look_bind rfl fun now _ => ?_
  have hid : (updates.set .updatedAt now) .globalSessionKey = none := by
    rw [Hash.set_of_ne _ (by decide)]
    exact h.globalSessionKey
  have hset : Serves cfg Seen request (issue (.exists_ (.session k)) >>= fun found =>
      hsetWhen found k (updates.set .updatedAt now)) := hsetWhen_serves (.update now h) hid
  exact hset.bind fun _ => .look_bind rfl fun _ _ => rfl

theorem extend_serves {key : Key} (hkey : request.Extends key) :
    Serves cfg Seen request (extend cfg key) := by
  refine .look_bind rfl fun found _ => ?_
  cases found with
  | false => rfl
  | true => exact .write (.expire hkey) rfl nofun

theorem extendProfiles_serves (hkey : ∀ key : Key, key.IsProfile → request.Extends key) (k : String)
    (session : Hash) : Serves cfg Seen request (extendProfiles cfg k session) := by
  have hrealtime (u : String) : Serves cfg Seen request (extend cfg (.realtimeProfile u)) :=
    extend_serves (hkey (.realtimeProfile u) trivial)
  have hbatch (u : String) : Serves cfg Seen request (extend cfg (.batchProfile u)) :=
    extend_serves (hkey (.batchProfile u) trivial)
  unfold extendProfiles
  split
  · split
    · exact hrealtime _
    · exact (hrealtime _).bind fun _ => hbatch _
  · exact hrealtime _

theorem refreshTtl_serves {k : String} (hkey : ∀ key : Key, key.BelongsTo k → request.Extends key) :
    Serves cfg Seen request (refreshTtl cfg k) := by
  refine .look_bind rfl fun session hsession => ?_
  cases session with
  | none => rfl
  | some session =>
    refine .look_bind rfl fun now _ => ?_
    have hsession' : request.Extends (.session k) := hkey (.session k) rfl
    have hseen := hsession session rfl
    refine (setSession_serves (.rewrite k now hseen) (.rewritten now hseen) hsession'
      (ttlOr_sessionCacheTtl cfg)).bind fun _ => ?_
    refine (extend_serves (hkey (.turns k) rfl)).bind fun _ => ?_
    refine (extendProfiles_serves (fun key hprofile => hkey key ?_) k _).bind fun _ => rfl
    cases key <;> trivial

theorem setLocalMapping_serves {request : SessionPatchRequest}
    {agentId agentSessionKey agentType : String}
    (hnew : SessionService.newMapping request = some (agentId, agentSessionKey, agentType)) :
    Serves cfg Seen (.patchSessionState request)
      (setLocalMapping request.globalSessionKey agentId agentSessionKey agentType) := by
  refine .look_bind rfl fun session hsession => ?_
  cases session with
  | none => rfl
  | some session =>
    dsimp only
    cases hmappings : withMapping (session .agentMappings) agentId agentSessionKey agentType with
    | error e => rfl
    | ok mappings =>
      dsimp only
      rw [updateSession_eq _ (mappingUpdate_isEmpty mappings)]
      exact hsetWhen_serves (.register (hsession session rfl) hnew hmappings)
        (Hash.set_of_ne Hash.empty (by decide) _)

end SessionRepository

/-! ### Tokens -/

theorem sessionOfJti_serves (jti : String) : Serves cfg Seen request (sessionOfJti jti) := by
  have hget : Serves cfg Seen request (RedisHelper.getGlobalSessionKeyByJti jti) :=
    .look_bind rfl fun _ _ => rfl
  refine hget.bind fun found => ?_
  cases found <;> rfl

theorem getGlobalSessionKeyFromToken_serves (token : Token) :
    Serves cfg Seen request (getGlobalSessionKeyFromToken token) := by
  cases token with
  | invalid text => rfl
  | signed payload =>
    rw [getGlobalSessionKeyFromToken_signed]
    refine .look_bind rfl fun now _ => Serves.ofExcept_bind fun jti _ => ?_
    exact sessionOfJti_serves jti

theorem authenticate_serves (token : Token) (type : String) :
    Serves cfg Seen request (authenticate token type) := by
  cases token with
  | invalid text => rfl
  | signed payload =>
    rw [authenticate_signed]
    refine .look_bind rfl fun now _ => Serves.ofExcept_bind fun jti _ => ?_
    exact (sessionOfJti_serves jti).bind fun k => rfl

/-! ### The services -/

namespace SessionService

open SessionRepository

theorem createSession_serves (k jti : String) (request : SessionCreateRequest) :
    Serves cfg Seen (.createSession k jti request) (createSession cfg k jti request) := by
  have htokens : Serves cfg Seen (.createSession k jti request)
      (AuthService.createTokens cfg (request.userId.getD "") k jti) := by
    refine (Serves.write (.issueJti jti k) rfl nofun).bind fun _ => ?_
    refine Serves.bind (.look_bind rfl fun _ _ => .look_bind rfl fun _ _ => rfl) fun _ => ?_
    exact Serves.bind (.look_bind rfl fun _ _ => .look_bind rfl fun _ _ => rfl) fun _ => rfl
  have hcreate : Serves cfg Seen (.createSession k jti request)
      (SessionRepository.create cfg (createArgs request k)) := by
    refine .look_bind rfl fun existing _ => ?_
    cases existing with
    | some session => rfl
    | none =>
      refine .look_bind rfl fun now _ => ?_
      exact (RedisHelper.setSession_serves (.create now) (.created _ now) rfl
        (ttlOr_sessionCacheTtl cfg)).bind fun _ => rfl
  refine htokens.bind fun tokens => hcreate.bind fun _ => ?_
  exact .look_bind rfl fun _ _ => .look_bind rfl fun _ _ => rfl

theorem patchSessionState_serves (request : SessionPatchRequest) :
    Serves cfg Seen (.patchSessionState request) (patchSessionState cfg request) := by
  have hrefresh : Serves cfg Seen (.patchSessionState request) (refreshOnTalk cfg request) := by
    unfold refreshOnTalk
    split
    · rename_i htalk
      have hkey (key : Key) (hbelongs : key.BelongsTo request.globalSessionKey) :
          (Request.patchSessionState request).Extends key := ⟨htalk, hbelongs⟩
      exact (refreshTtl_serves hkey).bind fun _ => rfl
    · rfl
  have hregister : Serves cfg Seen (.patchSessionState request) (registerAgent request) := by
    unfold registerAgent
    split
    · rename_i hnew
      exact setLocalMapping_serves hnew
    · rfl
  -- the session is looked at, and the rest follows in the order of the source
  refine .look_bind rfl fun session hsession => ?_
  cases session with
  | none => rfl
  | some session =>
    refine .look_bind rfl fun now _ => hrefresh.bind fun _ => ?_
    refine Serves.ofExcept_bind fun _ hvalid => hregister.bind fun _ => ?_
    refine (update_serves (.patch now (hsession session rfl) hvalid)).bind fun _ => ?_
    exact .look_bind rfl fun _ _ => rfl

theorem closeSession_serves (request : SessionCloseRequest) :
    Serves cfg Seen (.closeSession request) (closeSession request) := by
  refine .look_bind rfl fun session _ => ?_
  cases session with
  | none => rfl
  | some session =>
    refine .look_bind rfl fun now _ => (update_serves (.close request now)).bind fun _ => ?_
    exact .look_bind rfl fun _ _ => rfl

theorem saveApiResult_serves (k : String) (request : SolApiResultRequest) :
    Serves cfg Seen (.saveApiResult k request) (saveApiResult cfg k request) := by
  refine .look_bind rfl fun session _ => ?_
  cases session with
  | none => rfl
  | some session =>
    refine .look_bind rfl fun now _ => Serves.bind (Serves.write_expire (.turn now) nofun ?_ rfl)
      fun _ => rfl
    exact fun _ howed => (Option.some.inj howed).symm

theorem resolveSession_serves (r : SessionResolveRequest) :
    Serves cfg Seen request (resolveSession r) := by
  have hmapping : Serves cfg Seen request (agentSessionKey r) := by
    unfold agentSessionKey
    split
    · split
      · rfl
      · -- a resolution only looks
        refine .look_bind rfl fun session _ => ?_
        cases session with
        | none => rfl
        | some session =>
          dsimp only
          split <;> rfl
    · rfl
  have hprofiles (cusno : Option String) :
      Serves cfg Seen request (sessionProfiles r.globalSessionKey cusno) := by
    unfold sessionProfiles
    split
    · exact .look_bind rfl fun _ _ => .look_bind rfl fun _ _ => rfl
    · exact .look_bind rfl fun _ _ => rfl
  refine .look_bind rfl fun session _ => ?_
  cases session with
  | none => rfl
  | some session =>
    refine hmapping.bind fun _ => Serves.ofExcept_bind fun _ _ => (hprofiles _).bind fun _ => ?_
    exact .look_bind rfl fun _ _ => Serves.ofExcept _

end SessionService

namespace AuthService

theorem verifyTokenAndGetSession_serves (token : Token) :
    Serves cfg Seen request (verifyTokenAndGetSession token) :=
  (authenticate_serves token "access").bind fun (_, _, _) =>
    .look_bind rfl fun _ _ => .look_bind rfl fun _ _ => rfl

theorem refreshToken_serves (newJti : String) (token : Token) :
    Serves cfg Seen (.refreshToken newJti token) (refreshToken cfg newJti token) := by
  refine (authenticate_serves token "refresh").bind fun (payload, jti, k) => ?_
  have hkey (key : Key) (_ : key.BelongsTo k) :
      (Request.refreshToken newJti token).Extends key := trivial
  refine (SessionRepository.refreshTtl_serves hkey).bind fun _ => ?_
  refine Serves.bind (.look_bind rfl fun _ _ => .look_bind rfl fun _ _ => rfl) fun _ => ?_
  refine Serves.bind (.look_bind rfl fun _ _ => .look_bind rfl fun _ _ => rfl) fun _ => ?_
  refine (Serves.write (.revokeJti jti) rfl nofun).bind fun _ => ?_
  refine (Serves.write (.issueJti newJti k) rfl nofun).bind fun _ => ?_
  exact .look_bind rfl fun _ _ => rfl

theorem pingSessionByToken_serves (token : Token) :
    Serves cfg Seen request (pingSessionByToken token) := by
  refine (getGlobalSessionKeyFromToken_serves token).bind fun k => ?_
  refine .look_bind rfl fun session _ => ?_
  cases session <;> rfl

theorem closeSessionByToken_serves (token : Token) (closeReason : Option String) :
    Serves cfg Seen (.closeSessionByToken token closeReason)
      (closeSessionByToken token closeReason) := by
  have hverify : Serves cfg Seen (.closeSessionByToken token closeReason) (verifyToken token) := by
    cases token with
    | invalid text => rfl
    | signed payload => exact .look_bind rfl fun _ _ => rfl
  have hjti : Serves cfg Seen (.closeSessionByToken token closeReason) (jtiToDelete token) :=
    hverify.bind fun verified => by cases verified <;> rfl
  have hdelete (jti : Option String) :
      Serves cfg Seen (.closeSessionByToken token closeReason) (deleteJti jti) := by
    cases jti with
    | none => rfl
    | some jti => exact .write (.revokeJti jti) rfl nofun
  refine (getGlobalSessionKeyFromToken_serves token).bind fun k => ?_
  refine .look_bind rfl fun session _ => ?_
  cases session with
  | none => rfl
  | some session =>
    -- the session is closed first, then the mapping of the token is deleted
    refine .look_bind rfl fun now _ => ?_
    refine (SessionRepository.update_serves
      (.closeByToken token closeReason k now)).bind fun _ => ?_
    exact hjti.bind fun jti => (hdelete jti).bind fun _ => .look_bind rfl fun _ _ => rfl

end AuthService

namespace ProfileService

open SessionRepository RedisHelper

theorem updateRealtimePersonalContext_serves (lookup : BatchLookup) (k : String)
    (profileData : Dict) :
    Serves cfg Seen (.updateRealtimePersonalContext lookup k profileData)
      (updateRealtimePersonalContext cfg lookup k profileData) := by
  have hrealtime (u : String) :
      Serves cfg Seen (.updateRealtimePersonalContext lookup k profileData)
      (setRealtimeProfile cfg u profileData) :=
    setProfile_serves (.realtimeProfile u) trivial rfl
  have hbatch (u : String) (batch : Option Dict) :
      Serves cfg Seen (.updateRealtimePersonalContext lookup k profileData)
        (storeBatchProfile cfg u batch) := by
    unfold storeBatchProfile
    split
    · rename_i stored _
      exact setProfile_serves (.batchProfile u stored) trivial rfl
    · rfl
  refine .look_bind rfl fun session _ => ?_
  cases session with
  | none => rfl
  | some session =>
    refine Serves.ofExcept_bind fun cusno hcusno => Serves.bind ?_ fun batch => ?_
    · -- with a number the session is updated before the profiles
      cases cusno with
      | none => exact (hrealtime k).bind fun _ => rfl
      | some cusno =>
        refine (update_serves (.profile hcusno)).bind fun _ => (hrealtime cusno).bind fun _ => ?_
        exact Serves.ofExcept_bind fun batch _ => (hbatch cusno batch).bind fun _ => rfl
    · exact .look_bind rfl fun _ _ => .look_bind rfl fun _ _ => rfl

end ProfileService

/-- Every request follows the protocol. -/
theorem Request.serves (cfg : Config) (Seen : Hash → Prop) (request : Request) :
    Serves cfg Seen request (request.program cfg) := by
  cases request with
  | createSession k jti request =>
    exact (SessionService.createSession_serves k jti request).bind fun _ => rfl
  | verifyTokenAndGetSession token =>
    exact (AuthService.verifyTokenAndGetSession_serves token).bind fun _ => rfl
  | refreshToken newJti token =>
    exact (AuthService.refreshToken_serves newJti token).bind fun _ => rfl
  | pingSessionByToken token =>
    exact (AuthService.pingSessionByToken_serves token).bind fun _ => rfl
  | closeSessionByToken token reason =>
    exact (AuthService.closeSessionByToken_serves token reason).bind fun _ => rfl
  | resolveSession request =>
    exact (SessionService.resolveSession_serves request).bind fun _ => rfl
  | patchSessionState request =>
    exact (SessionService.patchSessionState_serves request).bind fun _ => rfl
  | closeSession request => exact (SessionService.closeSession_serves request).bind fun _ => rfl
  | saveApiResult k request =>
    exact (SessionService.saveApiResult_serves k request).bind fun _ => rfl
  | updateRealtimePersonalContext lookup k profileData =>
    exact (ProfileService.updateRealtimePersonalContext_serves lookup k profileData).bind
      fun _ => rfl

/-- No command of a request sets or deletes a session key as a whole. -/
theorem Request.Writes.within {c : Command} (h : request.Writes cfg Seen c) :
    c.Within fun _ => True := by
  cases h with
  | look hc => cases c <;> trivial
  | create | rewrite | update | register | turn | expire => trivial
  | realtimeProfile | batchProfile | issueJti | revokeJti => exact ⟨trivial, by simp⟩

/-- Every lifetime that a command sets is `SESSION_CACHE_TTL`. -/
def Command.Lasts (cfg : Config) : Command → Prop
  | .expire _ seconds | .setex _ seconds _ => seconds = cfg.sessionCacheTtl
  | _ => True

theorem Request.Writes.lasts {c : Command} (h : request.Writes cfg Seen c) : c.Lasts cfg := by
  cases h with
  | look hc => cases c <;> trivial
  | expire | issueJti => rfl
  | create | rewrite | update | register | turn | realtimeProfile | batchProfile | revokeJti =>
    trivial

/-- Every command of a request is one of those above. -/
theorem Request.program_writes (cfg : Config) (request : Request) :
    (request.program cfg).Only (request.Writes cfg fun _ => True) := by
  have hserves : Serves cfg (fun _ => True) request (request.program cfg) := request.serves cfg _
  have hshows (c : Command) (reply : c.Reply) : Shows (fun _ => True) c reply := by
    cases c <;> first | trivial | exact fun _ _ => trivial
  have hwrites (q : Option Key × Option String) (c : Command)
      (hc : (writing cfg (fun _ => True) request).Allow q c) :
      request.Writes cfg (fun _ => True) c := hc.1
  exact Follows.only (fun _ c reply => hshows c reply) hwrites hserves

/-- No request sets or deletes a session key as a whole. -/
theorem Request.program_within (cfg : Config) (request : Request) :
    (request.program cfg).Only (Command.Within fun _ => True) :=
  (request.program_writes cfg).mono fun _ hc => hc.within

/-- A request that extends no turns leaves the turns alone. -/
theorem Request.Writes.changes_turns {c : Command} (h : request.Writes cfg Seen c) {k : String}
    (hk : ¬ request.Extends (.turns k)) : c.changes ≠ some (.turns k) := by
  intro hc
  cases h with
  | look hlook => exact absurd (hlook.symm.trans hc) (by simp)
  | turn => exact hk (Option.some.inj hc).symm
  | expire hkey => exact hk (Option.some.inj hc ▸ hkey)
  | create | rewrite | update | register | realtimeProfile | batchProfile | issueJti | revokeJti =>
    simp [Command.changes] at hc

/-- A request that does not extend a session that is there leaves its expiry as it is. -/
theorem Request.Writes.expiresAt {c : Command} (h : request.Writes cfg Seen c) {k : String}
    (hk : ¬ request.Extends (.session k)) {w : World} {e : TtlStore.Entry Hash}
    (he : w.entry (.session k) = some e) :
    ∃ e' : TtlStore.Entry Hash, World.entry (machine c w).2 (.session k) = some e' ∧
      e'.expiresAt = e.expiresAt := by
  by_cases hc : c.changes = some (.session k)
  · have hhset (k' : String) (mapping : Hash) (hk' : k' = k) :
        ∃ e' : TtlStore.Entry Hash, (w.hset k' mapping).entry (.session k) = some e' ∧
          e'.expiresAt = e.expiresAt := by
      subst hk'
      exact ⟨_, World.entry_hset w k' mapping, by rw [he]; rfl⟩
    cases h with
    | look hlook => exact absurd (hlook.symm.trans hc) (by simp)
    | expire hkey => exact absurd (Option.some.inj hc ▸ hkey) hk
    | create | rewrite | update | register =>
      exact hhset _ _ (Key.session.inj (Option.some.inj hc))
    | turn | realtimeProfile | batchProfile | issueJti | revokeJti => simp [Command.changes] at hc
  · exact ⟨e, by rw [World.machine_entry_of_ne hc, he], rfl⟩

end SessionManager
