import SessionManager.Writes

/-!
# Fields that requests keep

A request that has no business with a field of a session leaves its value as it is, although
`refresh_ttl` writes back the whole hash: it writes what it has read before.

* `keeping` — the protocol of a program that keeps a field, for a session that stays there.
* `Request.Spares` — the requests whose `updates` do not contain the field.
* `Request.keeping` — these requests follow the protocol.
* `keeps_field` — what that means for the stored value.
-/

namespace SessionManager

open Python Interaction

/-- The protocol of a program that keeps the value of field `f` of session `k`. The replies reckoned
with show the session with that value. -/
def keeping (k : String) (f : Field) (v : Option f.Value) : Protocol redis where
  State := Unit
  Allow _ c := (c.Within fun _ => True) ∧
    ∀ mapping, c = .hset k mapping → mapping f = none ∨ mapping f = v
  Answer _ c reply := ∀ reply', (⟨c, reply⟩ : Event redis) = ⟨.hgetall k, reply'⟩ →
    ∃ session, reply' = some session ∧ session f = v
  step _ _ _ := ()

/-- The request updates session `k`, if at all, without field `f`. -/
def Request.Spares (k : String) (f : Field) (request : Request) : Prop :=
  ∀ updates, request.Updates (fun _ => True) k updates → updates f = none

open Program hiding pure

section Keeping

variable {cfg : Config} {k : String} {f : Field} {v : Option f.Value} {α β : Type}

/-- The program keeps the field. -/
abbrev KeepsField (k : String) (f : Field) (v : Option f.Value) {α : Type} (p : Svc α) : Prop :=
  p.Follows (keeping k f v) (fun _ _ => True) ()

namespace KeepsField

theorem bind {p : Svc α} {g : α → Svc β} (hp : KeepsField k f v p)
    (hg : ∀ a, KeepsField k f v (g a)) : KeepsField k f v (p >>= g) := by
  refine Follows.bind (hp.mono fun _ outcome _ => ?_)
  cases outcome with
  | ok a => exact hg a
  | error e => trivial

/-- A program that stays off the session. -/
theorem of_off {K : Key → Prop} (hk : ¬ K (.session k)) {p : Svc α}
    (hp : p.Only (Command.Within K)) : KeepsField k f v p := by
  refine (hp.follows (P := keeping k f v) (q := ()) fun c hc => ⟨⟨?_, ?_⟩, fun _ => rfl⟩).mono
    fun _ _ _ => trivial
  · exact hc.mono fun _ _ => trivial
  · rintro mapping rfl
    exact absurd hc hk

theorem ofExcept_bind {x : Except ServiceError α} {g : α → Svc β}
    (hg : ∀ a, KeepsField k f v (g a)) : KeepsField k f v (Program.ofExcept x >>= g) :=
  Follows.ofExcept_bind (fun _ _ => trivial) fun a _ => hg a

/-- A command that changes no key. -/
theorem look_bind {c : Command} {g : c.Reply → Svc α} (hc : c.changes = none)
    (hg : ∀ reply, KeepsField k f v (g reply)) : KeepsField k f v (issue c >>= g) := by
  refine .perform_bind ⟨?_, ?_⟩ fun reply _ => hg reply
  · cases c <;> trivial
  · rintro mapping rfl
    simp [Command.changes] at hc

/-- A look at a session: when it is `k`, it is there with the value. -/
theorem hgetall_bind {k' : String} {g : Option Hash → Svc α}
    (hsame : k' = k → ∀ session : Hash, session f = v → KeepsField k f v (g (some session)))
    (hother : k' ≠ k → ∀ reply, KeepsField k f v (g reply)) :
    KeepsField k f v (issue (.hgetall k') >>= g) := by
  refine .perform_bind ⟨trivial, nofun⟩ fun reply hreply => ?_
  by_cases hk : k' = k
  · subst hk
    obtain ⟨session, rfl, hv⟩ := hreply reply rfl
    exact hsame rfl session hv
  · exact hother hk reply

end KeepsField

/-! ### RedisHelper and the repository -/

open SessionRepository RedisHelper

theorem hsetWhen_keeps {k' : String} {mapping : Hash}
    (hmapping : k' = k → mapping f = none ∨ mapping f = v) (found : Bool) :
    KeepsField k f v (hsetWhen found k' mapping) := by
  cases found with
  | false => trivial
  | true =>
    refine .perform ⟨trivial, ?_⟩ fun _ _ => trivial
    rintro mapping' hset
    obtain ⟨rfl, rfl⟩ := Command.hset.inj hset
    exact hmapping rfl

theorem setSession_keeps {k' : String} {data : Hash}
    (hdata : k' = k → data f = none ∨ data f = v) (ttl : Option ℕ) :
    KeepsField k f v (setSession cfg k' data ttl) := by
  refine .perform_bind ⟨trivial, ?_⟩ fun _ _ => .perform ⟨trivial, nofun⟩ fun _ _ => trivial
  rintro mapping hset
  obtain ⟨rfl, rfl⟩ := Command.hset.inj hset
  exact hdata rfl

theorem update_keeps {k' : String} {updates : Hash} (hf : f ≠ .updatedAt)
    (hupdates : k' = k → updates f = none) : KeepsField k f v (update k' updates) := by
  rw [update_eq]
  refine .look_bind rfl fun now => .look_bind rfl fun found => ?_
  refine (hsetWhen_keeps (fun hk => .inl ?_) found).bind fun _ => .look_bind rfl fun _ => trivial
  rw [Hash.set_of_ne _ hf]
  exact hupdates hk

theorem setLocalMapping_keeps (k' : String) (hf : f ≠ .agentMappings)
    (agentId agentSessionKey agentType : String) :
    KeepsField k f v (setLocalMapping k' agentId agentSessionKey agentType) := by
  refine .look_bind rfl fun session => ?_
  cases session with
  | none => trivial
  | some session =>
    dsimp only
    cases withMapping (session .agentMappings) agentId agentSessionKey agentType with
    | error e => trivial
    | ok mappings =>
      dsimp only
      rw [updateSession_eq k' (mappingUpdate_isEmpty mappings)]
      refine .look_bind rfl fun found => hsetWhen_keeps (fun _ => .inl ?_) found
      exact Hash.set_of_ne _ hf _

/-- The snapshot that is written back holds the value that was read. -/
theorem refreshTtl_keeps (k' : String) (hf : f ≠ .expiresAt) :
    KeepsField k f v (refreshTtl cfg k') := by
  by_cases hk : k' = k
  · subst hk
    have hprofiles (session : Hash) : KeepsField k' f v (extendProfiles cfg k' session) :=
      .of_off (K := fun key => key ≠ .session k') (by simp)
        (extendProfiles_within cfg (by simp) (by simp) k' session)
    refine .hgetall_bind (fun _ session hv => ?_) fun hne => absurd rfl hne
    refine .look_bind rfl fun now => (setSession_keeps (fun _ => .inr ?_) _).bind fun _ => ?_
    · rw [Hash.set_of_ne _ hf]
      exact hv
    · refine (KeepsField.of_off (K := fun key => key ≠ .session k') (by simp)
        (extend_within cfg (by simp))).bind fun _ => (hprofiles _).bind fun _ => trivial
  · exact .of_off (fun h => hk h.symm) (refreshTtl_within cfg k')

/-- A session that is there is not created again. -/
theorem create_keeps (args : CreateArgs) : KeepsField k f v (create cfg args) := by
  have hoff (hk : args.globalSessionKey ≠ k) (session : Hash) :
      KeepsField k f v (setSession cfg args.globalSessionKey session (some cfg.sessionCacheTtl)) :=
    setSession_keeps (fun h => absurd h hk) _
  refine .hgetall_bind (fun _ session _ => trivial) fun hk reply => ?_
  cases reply with
  | some session => trivial
  | none => exact .look_bind rfl fun now => (hoff hk _).bind fun _ => trivial

/-! ### Requests -/

section Requests

open SessionService

theorem createSession_keeps (k' jti : String) (r : SessionCreateRequest) :
    KeepsField k f v (createSession cfg k' jti r) := by
  refine (KeepsField.of_off (by simp [Key.IsJti]) (createTokens_within cfg _ k' jti)).bind
    fun tokens => ?_
  refine (create_keeps _).bind fun _ => ?_
  exact .look_bind rfl fun _ => .look_bind rfl fun _ => trivial

theorem refreshToken_keeps (hf : f ≠ .expiresAt) (newJti : String) (token : Token) :
    KeepsField k f v (AuthService.refreshToken cfg newJti token) := by
  refine (KeepsField.of_off (K := fun _ => False) id (authenticate_within token "refresh")).bind ?_
  rintro ⟨payload, jti, k'⟩
  refine (refreshTtl_keeps k' hf).bind fun _ => ?_
  exact .of_off (by simp [Key.IsJti]) (rotate_tail_within cfg newJti payload jti k')

theorem closeSessionByToken_keeps (hf : f ≠ .updatedAt) (token : Token)
    (closeReason : Option String) (hupdates : ∀ now, closeUpdates closeReason now f = none) :
    KeepsField k f v (AuthService.closeSessionByToken token closeReason) := by
  refine (KeepsField.of_off (K := fun _ => False) id
    (getGlobalSessionKeyFromToken_within token)).bind fun k' => ?_
  refine .look_bind rfl fun session => ?_
  cases session with
  | none => trivial
  | some session =>
    refine .look_bind rfl fun now => (update_keeps hf fun _ => hupdates now).bind fun _ => ?_
    refine (KeepsField.of_off (K := fun _ => False) id
      (jtiToDelete_within token)).bind fun jti => ?_
    refine (KeepsField.of_off (by simp [Key.IsJti]) (deleteJti_within jti)).bind fun _ => ?_
    exact .look_bind rfl fun _ => trivial

theorem patchSessionState_keeps (hf : f ≠ .updatedAt ∧ f ≠ .expiresAt ∧ f ≠ .agentMappings)
    (r : SessionPatchRequest) (hspares : Request.Spares k f (.patchSessionState r)) :
    KeepsField k f v (patchSessionState cfg r) := by
  refine .look_bind rfl fun session => ?_
  cases session with
  | none => trivial
  | some session =>
    refine .look_bind rfl fun now => ?_
    have hrefresh : KeepsField k f v (refreshOnTalk cfg r) := by
      unfold refreshOnTalk
      split
      · exact (refreshTtl_keeps r.globalSessionKey hf.2.1).bind fun _ => trivial
      · trivial
    have hregister : KeepsField k f v (registerAgent r) := by
      unfold registerAgent
      split
      · exact setLocalMapping_keeps r.globalSessionKey hf.2.2 _ _ _
      · trivial
    refine hrefresh.bind fun _ => ?_
    refine Follows.ofExcept_bind (fun _ _ => trivial) fun u hvalid => hregister.bind fun _ => ?_
    refine (update_keeps hf.1 fun hk => ?_).bind fun _ => .look_bind rfl fun _ => trivial
    exact hspares _ (hk ▸ .patch now trivial hvalid)

theorem closeSession_keeps (hf : f ≠ .updatedAt) (r : SessionCloseRequest)
    (hspares : Request.Spares k f (.closeSession r)) :
    KeepsField k f v (closeSession r) := by
  refine .look_bind rfl fun session => ?_
  cases session with
  | none => trivial
  | some session =>
    refine .look_bind rfl fun now => (update_keeps hf fun hk => ?_).bind fun _ => ?_
    · exact hspares _ (hk ▸ .close r now)
    · exact .look_bind rfl fun _ => trivial

theorem updateRealtimePersonalContext_keeps (hf : f ≠ .updatedAt)
    (lookup : ProfileService.BatchLookup) (k' : String) (data : Dict)
    (hspares : Request.Spares k f (.updateRealtimePersonalContext lookup k' data)) :
    KeepsField k f v (ProfileService.updateRealtimePersonalContext cfg lookup k' data) := by
  have hkey : ¬ Key.IsProfile (.session k) := id
  have hprofile (key : Key) (hkey' : key.IsProfile) (profile : key.Value) (ttl : Option ℕ) :
      KeepsField k f v (setProfile cfg key profile ttl) := by
    refine .of_off hkey (setProfile_within cfg hkey' ?_ profile ttl)
    rintro k' rfl
    exact hkey'
  refine .look_bind rfl fun session => ?_
  cases session with
  | none => trivial
  | some session =>
    refine Follows.ofExcept_bind (fun _ _ => trivial) fun cusno hcusno => ?_
    refine KeepsField.bind ?_ fun _ => .look_bind rfl fun _ => .look_bind rfl fun _ => trivial
    -- only the update with a number writes to the session
    cases cusno with
    | none => exact (hprofile (.realtimeProfile k') trivial _ _).bind fun _ => trivial
    | some cusno =>
      refine (update_keeps hf fun hk => hspares _ (hk ▸ .profile hcusno)).bind fun _ => ?_
      refine (hprofile (.realtimeProfile cusno) trivial _ _).bind fun _ => ?_
      refine KeepsField.ofExcept_bind fun batch => KeepsField.bind ?_ fun _ => by trivial
      unfold ProfileService.storeBatchProfile
      split
      · exact hprofile (.batchProfile cusno) trivial _ _
      · trivial

end Requests

/-- A request keeps the fields that it does not update. -/
theorem Request.keeping (cfg : Config) {request : Request} {k : String} {f : Field}
    {v : Option f.Value} (hf : f ≠ .updatedAt ∧ f ≠ .expiresAt ∧ f ≠ .agentMappings)
    (hspares : request.Spares k f) : KeepsField k f v (request.program cfg) := by
  have hreads {γ : Type} {p : Svc γ} (hp : p.Only (Command.Within fun _ => False)) :
      KeepsField k f v p := .of_off id hp
  -- what only reads keeps every field
  cases request with
  | createSession k' jti r => exact (createSession_keeps k' jti r).bind fun _ => trivial
  | verifyTokenAndGetSession token =>
    exact (hreads (AuthService.verifyTokenAndGetSession_within token)).bind fun _ => trivial
  | refreshToken newJti token =>
    exact (refreshToken_keeps hf.2.1 newJti token).bind fun _ => trivial
  | pingSessionByToken token =>
    exact (hreads (AuthService.pingSessionByToken_within token)).bind fun _ => trivial
  | closeSessionByToken token closeReason =>
    refine (closeSessionByToken_keeps hf.1 token closeReason fun now => ?_).bind fun _ => trivial
    exact hspares _ (.closeByToken token closeReason k now)
  | resolveSession r =>
    exact (hreads (SessionService.resolveSession_within r)).bind fun _ => trivial
  | patchSessionState r => exact (patchSessionState_keeps hf r hspares).bind fun _ => trivial
  | closeSession r => exact (closeSession_keeps hf.1 r hspares).bind fun _ => trivial
  | saveApiResult k' r =>
    have hoff : (SessionService.saveApiResult cfg k' r).Only
        (Command.Within fun key : Key => key = .turns k') :=
      @SessionService.saveApiResult_within cfg (fun key : Key => key = .turns k') k' rfl r
    exact (KeepsField.of_off (by simp) hoff).bind fun _ => trivial
  | updateRealtimePersonalContext lookup k' data =>
    exact (updateRealtimePersonalContext_keeps hf.1 lookup k' data hspares).bind fun _ => trivial

end Keeping

/-- A program that keeps the field leaves the stored value as it is, when the session stays
there. -/
theorem keeps_field {env : World → World → Prop} {k : String} {f : Field} {v : Option f.Value}
    (henv : ∀ w w', env w w' → World.Keeps (.session k) w w') {α : Type} {p : Svc α}
    (hp : KeepsField k f v p) {w : World} (hlive : (w.hash k).isSome) (hv : w.field k f = v) :
    p.Wp machine env (fun _ w' => (w'.hash k).isSome ∧ w'.field k f = v) w := by
  refine (Wp.of_follows (P := keeping k f v)
    (I := fun _ (w : World) => (w.hash k).isSome ∧ w.field k f = v) ?_ ?_ hp ⟨hlive, hv⟩).mono
    fun _ _ ⟨_, _, h⟩ => h
  · rintro _ w w' hstep ⟨hlive, hv⟩
    rw [(henv _ _ hstep).hash, (henv _ _ hstep).field]
    exact ⟨hlive, hv⟩
  · rintro _ c w ⟨hwithin, hset⟩ ⟨hlive, hv⟩
    refine ⟨fun reply' heq => ?_, hash_isSome hwithin hlive, ?_⟩
    · cases heq
      obtain ⟨session, hsession⟩ := Option.isSome_iff_exists.mp hlive
      refine ⟨session, hsession, ?_⟩
      rw [← hv, World.field, hsession]
      rfl
    · rw [field_machine hwithin, hv]
      cases c with
      | hset k' mapping =>
        -- the write leaves the field out, or writes what is there
        by_cases hk : k' = k
        · subst hk
          rcases hset mapping rfl with hnone | hsame
          · simp [written, hnone]
          · rw [written, if_pos rfl, hsame]
            cases v <;> rfl
        · simp [written, hk]
      | _ => rfl

end SessionManager
