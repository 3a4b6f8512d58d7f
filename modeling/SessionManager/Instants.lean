import SessionManager.SessionSpecs

/-!
# Operations at one instant

When no time passes within a request, what it leaves in the store can be said exactly.

* `entries_of_within` — what stays as it is: the clock and the keys that are not written.
* `World.extendAll` — the lifetimes of some keys begin anew.
* `refreshTtl_instant`, `setProfile_instant`, … — the store after an operation.
-/

namespace SessionManager

open Python Interaction
open SessionRepository RedisHelper

open Program hiding pure

/-- The keys of a program are the only ones it changes, and no time passes. -/
theorem entries_of_within {α : Type} {p : Svc α} {K : Key → Prop}
    (hp : p.Only (Command.Within K)) (w : World) :
    p.Wp machine Eq (fun _ w' => w'.now = w.now ∧
      ∀ key, ¬ K key → w'.entry key = w.entry key) w := by
  rw [wp_iff_exec]
  intro x w' hexec
  refine ⟨?_, fun key hkey => ?_⟩
  · have hnow : p.Wp machine Eq (fun _ w' => w'.now = w.now) w := by
      refine Wp.of_only (I := fun w' : World => w'.now = w.now) hp ?_ ?_ rfl
      · intro w₁ w₂ hsame h
        rw [← hsame, h]
      · intro c w₁ _ h
        rw [machine_now, h]
    exact hnow.exec hexec
  · exact (entry_of_within (fun _ _ => World.Keeps.of_eq) hkey hp w).exec hexec

/-! ### Extending -/

/-- `EXPIRE` of each key with the usual lifetime. -/
def World.extendAll (cfg : Config) (keys : List Key) (w : World) : World :=
  keys.foldl (fun w key => w.expire key cfg.sessionCacheTtl) w

@[simp] theorem World.extendAll_now (cfg : Config) (keys : List Key) (w : World) :
    (w.extendAll cfg keys).now = w.now := by
  induction keys generalizing w with
  | nil => rfl
  | cons key keys ih => exact ih (w.expire key cfg.sessionCacheTtl)

/-- `EXPIRE` of a key changes no other one. -/
theorem World.entry_expire_of_ne (w : World) {key key' : Key} (h : key' ≠ key) (seconds : ℕ) :
    (w.expire key seconds).entry key' = w.entry key' :=
  machine_entry_of_ne (c := .expire key seconds) (by simpa [Command.changes] using h.symm) w

/-- The keys that are there expire a lifetime from now, the others stay missing. -/
theorem World.entry_extendAll (cfg : Config) (keys : List Key) (w : World) (key : Key) :
    (w.extendAll cfg keys).entry key = if key ∈ keys then
      (w.entry key).map fun e => { e with expiresAt := some (expiry cfg w.now) }
      else w.entry key := by
  induction keys generalizing w with
  | nil => rfl
  | cons key' keys ih =>
    show ((w.expire key' cfg.sessionCacheTtl).extendAll cfg keys).entry key = _
    rw [ih]
    by_cases hsame : key = key'
    · subst hsame
      rw [World.entry_expire, if_pos List.mem_cons_self]
      split_ifs
      · rw [Option.map_map]
        rfl
      · rfl
    · rw [World.entry_expire_of_ne w hsame]
      simp only [List.mem_cons, hsame, false_or]
      rfl

/-- `EXPIRE` of a missing key does nothing at all. -/
theorem World.expire_of_missing {w : World} {key : Key} (h : w.entry key = none) (seconds : ℕ) :
    w.expire key seconds = w := by
  unfold World.expire
  rw [TtlStore.expire_of_lookup_none w.store w.now key h]

variable {cfg : Config}

/-- `EXISTS` and `EXPIRE` do the same as `EXPIRE`. -/
theorem extend_instant {Q : Except ServiceError Unit → World → Prop} {key : Key} {w : World} :
    (extend cfg key).Wp machine Eq Q w ↔ Q (.ok ()) (w.extendAll cfg [key]) := by
  unfold extend
  rw [wp_perform_bind_eq]
  have hreply : (machine (.exists_ key) w).1 = (w.entry key).isSome := rfl
  rw [hreply]
  cases hentry : w.entry key with
  | none =>
    show Q (.ok ()) w ↔ Q (.ok ()) (w.expire key cfg.sessionCacheTtl)
    rw [World.expire_of_missing hentry]
  | some e => exact wp_perform_eq

/-- The profile keys that are extended with a session. -/
def profileKeys (k : String) (session : Hash) : List Key :=
  match session .cusno with
  | some cusno =>
    if cusno = "" then [.realtimeProfile k] else [.realtimeProfile cusno, .batchProfile cusno]
  | none => [.realtimeProfile k]

theorem extendProfiles_instant {Q : Except ServiceError Unit → World → Prop} {k : String}
    {session : Hash} {w : World} :
    (extendProfiles cfg k session).Wp machine Eq Q w ↔
      Q (.ok ()) (w.extendAll cfg (profileKeys k session)) := by
  unfold extendProfiles profileKeys
  cases session .cusno with
  | none => exact extend_instant
  | some cusno =>
    dsimp only
    split_ifs with hempty
    · exact extend_instant
    · rw [wp_bind, extend_instant]
      exact extend_instant

/-- The keys that are extended with a session. -/
def sessionKeys (k : String) (session : Hash) : List Key :=
  .session k :: .turns k :: profileKeys k session

/-- `refresh_ttl` of a session that is there: the new `expires_at`, and new lifetimes. -/
theorem refreshTtl_instant {Q : Except ServiceError (Option Hash) → World → Prop} {k : String}
    {e : TtlStore.Entry Hash} {w : World} (he : w.entry (.session k) = some e) :
    (refreshTtl cfg k).Wp machine Eq Q w ↔
      Q (.ok (some (e.value.set .expiresAt (expiry cfg w.now))))
        ((w.hset k (e.value.set .expiresAt (expiry cfg w.now))).extendAll cfg
          (sessionKeys k e.value)) := by
  have hreply : (machine (.hgetall k) w).1 = some e.value := World.hash_of_entry he
  have hkeys (t : ℕ) : profileKeys k (e.value.set .expiresAt t) = profileKeys k e.value := by
    unfold profileKeys
    rw [Hash.set_of_ne _ (by decide)]
  unfold refreshTtl
  rw [getSession, wp_perform_bind_eq, hreply]
  dsimp only
  rw [wp_perform_bind_eq, setSession, bind_assoc, wp_perform_bind_eq, wp_perform_bind_eq, wp_bind,
    extend_instant]
  dsimp only
  rw [wp_bind, extendProfiles_instant, hkeys, ttlOr_sessionCacheTtl]
  exact Iff.rfl

/-- A profile and its lifetime. -/
theorem setProfile_instant {Q : Except ServiceError Unit → World → Prop} {key : Key}
    {profile : key.Value} {w : World} :
    (setProfile cfg key profile none).Wp machine Eq Q w ↔
      Q (.ok ()) ((w.set key profile).extendAll cfg [key]) := by
  unfold setProfile
  rw [wp_perform_bind_eq, wp_perform_eq]
  exact Iff.rfl

/-- `EXISTS` finds a key that is there. -/
theorem exists_reply {key : Key} {e : TtlStore.Entry key.Value} {w : World}
    (he : w.entry key = some e) : (machine (.exists_ key) w).1 = true := by
  show (w.entry key).isSome = true
  rw [he]
  rfl

/-- An update of a session that is there. -/
theorem update_instant {Q : Except ServiceError Hash → World → Prop} {k : String}
    {e : TtlStore.Entry Hash} {w : World} (he : w.entry (.session k) = some e) (updates : Hash) :
    (update k updates).Wp machine Eq Q w ↔
      Q (.ok (e.value.merge (updates.set .updatedAt w.now)))
        (w.hset k (updates.set .updatedAt w.now)) := by
  have hreply : (machine (.hgetall k) (w.hset k (updates.set .updatedAt w.now))).1 =
      some (e.value.merge (updates.set .updatedAt w.now)) := by
    show (w.hset k (updates.set .updatedAt w.now)).hash k = _
    rw [World.hash_hset, World.hash_of_entry he]
    rfl
  rw [update_eq, wp_perform_bind_eq, wp_perform_bind_eq]
  have hfound : (machine (.exists_ (.session k)) (machine .now w).2).1 = true := exists_reply he
  rw [hfound, hsetWhen, if_pos rfl, wp_perform_bind_eq, getSession, wp_perform_bind_eq]
  show Q (.ok ((machine (.hgetall k) (w.hset k (updates.set .updatedAt w.now))).1.getD _)) _ ↔ _
  rw [hreply]
  exact Iff.rfl

/-- A registration of a mapping in a session that is there. -/
theorem setLocalMapping_instant {Q : Except ServiceError Unit → World → Prop} {k : String}
    {e : TtlStore.Entry Hash} {w : World} (he : w.entry (.session k) = some e)
    (agentId agentSessionKey agentType : String) :
    (setLocalMapping k agentId agentSessionKey agentType).Wp machine Eq Q w ↔
      match withMapping (e.value .agentMappings) agentId agentSessionKey agentType with
      | .ok mappings => Q (.ok ()) (w.hset k (mappingUpdate mappings))
      | .error err => Q (.error err) w := by
  have hreply : (machine (.hgetall k) w).1 = some e.value := World.hash_of_entry he
  unfold setLocalMapping
  rw [getSession, wp_perform_bind_eq, hreply]
  dsimp only
  cases withMapping (e.value .agentMappings) agentId agentSessionKey agentType with
  | error err => exact Iff.rfl
  | ok mappings =>
    dsimp only
    have hfound : (machine (.exists_ (.session k)) w).1 = true := exists_reply he
    rw [updateSession_eq k (mappingUpdate_isEmpty mappings), wp_perform_bind_eq]
    have hfound' : (machine (.exists_ (.session k)) (machine (.hgetall k) w).2).1 = true := hfound
    rw [hfound', hsetWhen, if_pos rfl, wp_perform_eq]
    exact Iff.rfl

/-- A saved turn. -/
theorem addTurn_instant {Q : Except ServiceError Unit → World → Prop} {k : String} {turn : Json}
    {w : World} :
    (addTurn cfg k turn).Wp machine Eq Q w ↔
      Q (.ok ()) ((w.rpush k turn).extendAll cfg [.turns k]) := by
  unfold addTurn addContextTurn
  rw [wp_perform_bind_eq, wp_perform_eq]
  exact Iff.rfl

/-! ### Creating -/

/-- The access token that is signed at an instant. -/
def accessTokenAt (cfg : Config) (jti userId : String) (now : ℕ) : Token :=
  .signed (tokenPayload jti userId "access" cfg.jwtAccessTokenExpireSeconds now now)

/-- The refresh token that is signed at an instant. -/
def refreshTokenAt (cfg : Config) (jti userId : String) (now : ℕ) : Token :=
  .signed (tokenPayload jti userId "refresh" cfg.jwtRefreshTokenExpireSeconds now now)

/-- The tokens of a session, and the mapping of their `jti`. -/
theorem createTokens_instant {Q : Except ServiceError Tokens → World → Prop}
    {userId k jti : String} {w : World} :
    (AuthService.createTokens cfg userId k jti).Wp machine Eq Q w ↔
      Q (.ok ⟨accessTokenAt cfg jti userId w.now, refreshTokenAt cfg jti userId w.now, jti⟩)
        (w.setex (.jti jti) cfg.sessionCacheTtl k) := by
  rw [wp_eq_iff_run]
  exact Iff.rfl

/-- The store with a new session. -/
def World.withSession (cfg : Config) (args : CreateArgs) (w : World) : World :=
  (w.hset args.globalSessionKey (created cfg args w.now)).extendAll cfg
    [.session args.globalSessionKey]

/-- The hash of a new session is what `create` writes. -/
theorem World.entry_withSession (cfg : Config) (args : CreateArgs) {w : World}
    (hnone : w.entry (.session args.globalSessionKey) = none) :
    (w.withSession cfg args).entry (.session args.globalSessionKey) =
      some ⟨Hash.empty.merge (created cfg args w.now), some (expiry cfg w.now)⟩ := by
  unfold World.withSession
  rw [World.entry_extendAll, if_pos List.mem_cons_self, World.entry_hset, World.hash_eq_entry,
    hnone]
  rfl

/-- A new session is the only change. -/
theorem World.entry_withSession_of_ne (cfg : Config) (args : CreateArgs) (w : World) {key : Key}
    (hkey : key ≠ .session args.globalSessionKey) :
    (w.withSession cfg args).entry key = w.entry key := by
  unfold World.withSession
  rw [World.entry_extendAll, if_neg (by simpa using hkey)]
  exact machine_entry_of_ne (c := .hset args.globalSessionKey _)
    (by simpa [Command.changes] using hkey.symm) w

/-- The creation of a session with a key that is free. -/
theorem create_instant {Q : Except ServiceError Hash → World → Prop} {args : CreateArgs}
    {w : World} (hnone : w.entry (.session args.globalSessionKey) = none) :
    (create cfg args).Wp machine Eq Q w ↔
      Q (.ok (created cfg args w.now)) (w.withSession cfg args) := by
  have hreply : (machine (.hgetall args.globalSessionKey) w).1 = none := by
    show w.hash args.globalSessionKey = none
    rw [World.hash_eq_entry, hnone]
    rfl
  unfold create
  rw [getSession, wp_perform_bind_eq, hreply]
  dsimp only
  rw [wp_perform_bind_eq, setSession, bind_assoc, wp_perform_bind_eq, wp_perform_bind_eq,
    ttlOr_sessionCacheTtl]
  exact Iff.rfl

/-- The creation of a session with a key that is taken leaves the session as it is. -/
theorem create_instant_of_entry {Q : Except ServiceError Hash → World → Prop} {args : CreateArgs}
    {e : TtlStore.Entry Hash} {w : World}
    (he : w.entry (.session args.globalSessionKey) = some e) :
    (create cfg args).Wp machine Eq Q w ↔ Q (.ok e.value) w := by
  have hreply : (machine (.hgetall args.globalSessionKey) w).1 = some e.value :=
    World.hash_of_entry he
  unfold create
  rw [getSession, wp_perform_bind_eq, hreply]
  exact Iff.rfl

/-! ### Tokens -/

section Tokens

variable {α : Type} {Q : Except ServiceError α → World → Prop} {w : World}

/-- The session that a `jti` names comes from its mapping. -/
theorem sessionOfJti_bind_instant {jti : String} {f : String → Svc α}
    (hreject : ∀ err, Q (.error err) w)
    (haccept : ∀ k, w.jti jti = some k → (f k).Wp machine Eq Q w) :
    (sessionOfJti jti >>= f).Wp machine Eq Q w := by
  rw [sessionOfJti_bind, wp_perform_bind_eq]
  have hreply : (machine (.get (.jti jti)) w).1 = w.jti jti := rfl
  rw [hreply]
  cases hjti : w.jti jti with
  | none => exact hreject _
  | some k =>
    by_cases hempty : k = ""
    · subst hempty
      exact hreject _
    · have hfound : nonEmpty (some k) = some k := by simp [nonEmpty, hempty]
      rw [hfound]
      exact haccept k hjti

/-- An accepted token names a session by the mapping of its `jti`. -/
theorem authenticate_bind_instant {token : Token} {type : String}
    {f : Payload × String × String → Svc α} (hreject : ∀ err, Q (.error err) w)
    (haccept : ∀ payload jti k, token = .signed payload → payload.jti = some jti →
      w.jti jti = some k → (f (payload, jti, k)).Wp machine Eq Q w) :
    (authenticate token type >>= f).Wp machine Eq Q w := by
  cases token with
  | invalid text => exact hreject _
  | signed payload =>
    rw [authenticate_signed, bind_assoc, wp_perform_bind_eq, bind_assoc]
    refine wp_ofExcept_bind.mpr ?_
    cases haccepted : acceptedJti (some type) payload (machine .now w).1 with
    | error err => exact hreject err
    | ok jti =>
      dsimp only
      rw [bind_assoc]
      exact sessionOfJti_bind_instant hreject fun k hk =>
        haccept payload jti k rfl (jti_of_acceptedJti haccepted) hk

theorem getGlobalSessionKeyFromToken_bind_instant {token : Token} {f : String → Svc α}
    (hreject : ∀ err, Q (.error err) w)
    (haccept : ∀ payload jti k, token = .signed payload → payload.jti = some jti →
      w.jti jti = some k → (f k).Wp machine Eq Q w) :
    (getGlobalSessionKeyFromToken token >>= f).Wp machine Eq Q w := by
  cases token with
  | invalid text => exact hreject _
  | signed payload =>
    rw [getGlobalSessionKeyFromToken_signed, bind_assoc, wp_perform_bind_eq, bind_assoc]
    refine wp_ofExcept_bind.mpr ?_
    cases haccepted : acceptedJti none payload (machine .now w).1 with
    | error err => exact hreject err
    | ok jti =>
      exact sessionOfJti_bind_instant hreject fun k hk =>
        haccept payload jti k rfl (jti_of_acceptedJti haccepted) hk

/-- A token that is accepted, and whose `jti` is mapped. -/
theorem authenticate_bind_of_mapped {payload : Payload} {type jti k : String}
    {f : Payload × String × String → Svc α}
    (haccepted : acceptedJti (some type) payload w.now = .ok jti) (hjti : w.jti jti = some k)
    (hk : k ≠ "") : (authenticate (.signed payload) type >>= f).Wp machine Eq Q w ↔
      (f (payload, jti, k)).Wp machine Eq Q w := by
  have hfound : nonEmpty (some k) = some k := by simp [nonEmpty, hk]
  have hnow : acceptedJti (some type) payload (machine .now w).1 = .ok jti := haccepted
  have hreply : (machine (.get (.jti jti)) (machine .now w).2).1 = some k := hjti
  rw [authenticate_signed, bind_assoc, wp_perform_bind_eq, hnow, Program.ofExcept_ok, bind_assoc,
    pure_bind', bind_assoc, sessionOfJti_bind, wp_perform_bind_eq, hreply, hfound]
  exact Iff.rfl

/-- A token that is accepted, but whose `jti` is gone. -/
theorem authenticate_bind_of_unmapped {payload : Payload} {type jti : String}
    {f : Payload × String × String → Svc α}
    (haccepted : acceptedJti (some type) payload w.now = .ok jti) (hjti : w.jti jti = none) :
    (authenticate (.signed payload) type >>= f).Wp machine Eq Q w ↔
      Q (.error (unauthorized "Token expired or invalid")) w := by
  have hnow : acceptedJti (some type) payload (machine .now w).1 = .ok jti := haccepted
  have hreply : (machine (.get (.jti jti)) (machine .now w).2).1 = none := hjti
  rw [authenticate_signed, bind_assoc, wp_perform_bind_eq, hnow, Program.ofExcept_ok, bind_assoc,
    pure_bind', bind_assoc, sessionOfJti_bind, wp_perform_bind_eq, hreply]
  exact Iff.rfl

/-- A token that is accepted, but whose `jti` is mapped to nothing. -/
theorem authenticate_bind_of_empty {payload : Payload} {type jti : String}
    {f : Payload × String × String → Svc α}
    (haccepted : acceptedJti (some type) payload w.now = .ok jti) (hjti : w.jti jti = some "") :
    (authenticate (.signed payload) type >>= f).Wp machine Eq Q w ↔
      Q (.error (unauthorized "Token expired or invalid")) w := by
  have hnow : acceptedJti (some type) payload (machine .now w).1 = .ok jti := haccepted
  have hreply : (machine (.get (.jti jti)) (machine .now w).2).1 = some "" := hjti
  rw [authenticate_signed, bind_assoc, wp_perform_bind_eq, hnow, Program.ofExcept_ok, bind_assoc,
    pure_bind', bind_assoc, sessionOfJti_bind, wp_perform_bind_eq, hreply]
  exact Iff.rfl

end Tokens

/-- `refresh_ttl` of any session, there or not: it returns, and keeps to the keys of the session. -/
theorem refreshTtl_returns (cfg : Config) (k : String) (w : World) :
    (refreshTtl cfg k).Wp machine Eq (fun x w' => (∃ session, x = .ok session) ∧ w'.now = w.now ∧
      ∀ key, ¬ key.BelongsTo k → w'.entry key = w.entry key) w := by
  refine Wp.mono (Wp.and ?_ (entries_of_within (refreshTtl_within cfg k) w)) fun _ _ h => h
  cases he : w.entry (.session k) with
  | some e => exact (refreshTtl_instant he).mpr ⟨_, rfl⟩
  | none =>
    have hreply : (machine (.hgetall k) w).1 = none := by
      show w.hash k = none
      rw [World.hash_eq_entry, he]
      rfl
    unfold refreshTtl
    rw [getSession, wp_perform_bind_eq, hreply]
    exact ⟨none, rfl⟩

/-- The answer of a rotation at an instant. -/
def rotatedAt (cfg : Config) (newJti userId k : String) (now : ℕ) : TokenRefreshResponse where
  accessToken := accessTokenAt cfg newJti userId now
  refreshToken := refreshTokenAt cfg newJti userId now
  globalSessionKey := k
  jti := newJti

/-- A rotation replaces the mapping of `jti` by one of `newJti`; the others stay. -/
theorem rotate_returns (cfg : Config) (newJti : String) (payload : Payload) (jti k : String)
    (w : World) :
    (AuthService.rotate cfg newJti payload jti k).Wp machine Eq (fun x w' =>
      x = .ok (rotatedAt cfg newJti (payload.sub.getD "") k w.now) ∧ w'.now = w.now ∧
      w'.entry (.jti newJti) = some ⟨k, some (expiry cfg w.now)⟩ ∧
      ∀ j, j ≠ newJti → w'.entry (.jti j) = if j = jti then none else w.entry (.jti j)) w := by
  refine Wp.seq_ok (fun _ w₁ => w₁.now = w.now ∧
    ∀ key, ¬ key.BelongsTo k → w₁.entry key = w.entry key) ((refreshTtl_returns cfg k w).mono ?_) ?_
  · rintro x w₁ ⟨⟨session, rfl⟩, hsame⟩
    exact ⟨session, rfl, hsame⟩
  · rintro - w₁ ⟨hnow, hsame⟩
    have hset : ((w₁.del (.jti jti)).setex (.jti newJti) cfg.sessionCacheTtl k).entry
        (.jti newJti) = some ⟨k, some (expiry cfg w₁.now)⟩ := World.entry_setex _ (.jti newJti) _ k
    rw [wp_eq_iff_run]
    refine ⟨?_, hnow, ?_, fun j hj => ?_⟩
    · rw [← hnow]
      rfl
    · rw [← hnow]
      exact hset
    · have hkept : ((w₁.del (.jti jti)).setex (.jti newJti) cfg.sessionCacheTtl k).entry (.jti j) =
          (w₁.del (.jti jti)).entry (.jti j) :=
        World.machine_entry_of_ne (c := .setex (.jti newJti) cfg.sessionCacheTtl k)
          (by simpa [Command.changes] using hj.symm) _
      refine hkept.trans ?_
      -- the old `jti` is deleted, the new one bound, and no other moves
      split_ifs with hjti
      · subst hjti
        exact World.entry_del _ _
      · rw [← hsame (.jti j) id]
        exact World.machine_entry_of_ne (c := .del (.jti jti))
          (by simpa [Command.changes] using Ne.symm hjti) _

end SessionManager
