import SessionManager.CoherentRuns

/-!
# Renewed keys

Every lifetime is the same, and a request begins the lifetimes of some keys anew: those that it
saves, and those that it extends with a session. Which ones can be told from the request and the
store before it, so that what is in the store can be told from the requests and their instants.

* `Served.renewed` — the keys that a request renews.
* `Renews` — between two worlds the lifetimes of some keys begin anew, and no other.
* `request_renews` — every request renews the keys that it is said to renew.
* `live_iff_renewedLately` — a key is there exactly if it was renewed at most a lifetime ago.
-/

namespace SessionManager

open Python Interaction
open SessionService SessionRepository RedisHelper TimedCoherence

open Program hiding pure

/-! ### What a request renews -/

/-- The keys that are renewed with session `k`: of its keys those that are there. -/
def World.extended (w : World) (k : String) : List Key :=
  (w.hash k).elim [] fun session => (sessionKeys k session).filter fun key => (w.entry key).isSome

/-- The batch profile that an update with a customer number saves, if one is found. -/
def batchSaved (lookup : ProfileService.BatchLookup) (cusno : String) : List Key :=
  if ((lookup cusno).toOption.bind ProfileService.batchToStore).isSome then [.batchProfile cusno]
  else []

/-- The profiles that an update saves. -/
def profilesSaved (lookup : ProfileService.BatchLookup) (k : String) (data : Dict) : List Key :=
  (ProfileService.cusnoOf data).toOption.elim [] fun cusno =>
    .realtimeProfile (cusno.getD k) :: cusno.elim [] (batchSaved lookup)

/-- The keys whose lifetimes a request begins anew. A patch to `talk` extends the session even if
the rest of it is rejected, and an update keeps what it has saved even if it fails later. -/
def Request.renewed (w : World) : Request → Except ServiceError Response → List Key
  | .createSession k _ _, _ => if (w.hash k).isSome then [] else [.session k]
  | .refreshToken _ _, .ok (.refreshed response) => w.extended response.globalSessionKey
  | .patchSessionState request, _ =>
    if request.sessionState = some .talk then w.extended request.globalSessionKey else []
  | .saveApiResult k _, _ => if (w.hash k).isSome then [.turns k] else []
  | .updateRealtimePersonalContext lookup k data, _ =>
    if (w.hash k).isSome then profilesSaved lookup k data else []
  | _, _ => []

/-- The keys whose lifetimes a served request has begun anew. -/
def Served.renewed (s : Served) : List Key := s.request.renewed s.before s.outcome

/-- The key was renewed at most a lifetime ago. -/
def RenewedLately (cfg : Config) (served : List Served) (now : ℕ) (key : Key) : Prop :=
  ∃ s ∈ served, key ∈ s.renewed ∧ now ≤ expiry cfg s.before.now

/-! ### Lifetimes that begin anew -/

/-- From `w` to `w'` the lifetimes of `keys` begin anew, and the other keys keep theirs; `jti`s are
left out. -/
structure Renews (cfg : Config) (keys : List Key) (w w' : World) : Prop where
  now : w'.now = w.now
  expiryOf : ∀ key : Key, ¬ key.IsJti → expiryOf w' key =
    if key ∈ keys then some (some (expiry cfg w.now)) else expiryOf w key

variable {cfg : Config} {keys keys' : List Key} {w w₁ w' : World} {k : String}

/-- Nothing is renewed when no key but `jti`s is changed. -/
theorem Renews.of_entries (hnow : w'.now = w.now)
    (hsame : ∀ key : Key, ¬ key.IsJti → w'.entry key = w.entry key) : Renews cfg [] w w' :=
  ⟨hnow, fun key hkey => expiryOf_congr (hsame key hkey)⟩

/-- The keys of one step and then those of another. -/
theorem Renews.trans (h : Renews cfg keys w w₁) (h' : Renews cfg keys' w₁ w') :
    Renews cfg (keys ++ keys') w w' := by
  refine ⟨h'.now.trans h.now, fun key hkey => ?_⟩
  rw [h'.expiryOf key hkey, h.expiryOf key hkey, h.now]
  by_cases hmem : key ∈ keys <;> by_cases hmem' : key ∈ keys' <;> simp [hmem, hmem']

/-- A step that renews nothing, and then another. -/
theorem Renews.after (h : Renews cfg [] w w₁) (h' : Renews cfg keys w₁ w') :
    Renews cfg keys w w' := h.trans h'

/-- A step, and then another that renews nothing. -/
theorem Renews.before (h : Renews cfg keys w w₁) (h' : Renews cfg [] w₁ w') :
    Renews cfg keys w w' := List.append_nil keys ▸ h.trans h'

/-- What is renewed and what is not does not depend on the order. -/
theorem Renews.of_mem (h : Renews cfg keys w w') (hkeys : ∀ key, key ∈ keys ↔ key ∈ keys') :
    Renews cfg keys' w w' := by
  refine ⟨h.now, fun key hkey => ?_⟩
  rw [h.expiryOf key hkey]
  simp only [hkeys]

theorem expiryOf_isSome (w : World) (key : Key) :
    (expiryOf w key).isSome = (w.entry key).isSome := by
  rw [expiryOf, Option.isSome_map]

/-- A session is still there after a step. -/
theorem Renews.live (h : Renews cfg keys w w') (hk : (w.entry (.session k)).isSome) :
    (w'.entry (.session k)).isSome := by
  rw [← expiryOf_isSome, h.expiryOf _ id]
  split_ifs
  · rfl
  · rwa [expiryOf_isSome]

/-! ### Operations -/

/-- `HSET` of a session that is there renews nothing. -/
theorem hset_renews (hk : (w.entry (.session k)).isSome) (mapping : Hash) :
    Renews cfg [] w (w.hset k mapping) := by
  obtain ⟨e, he⟩ := Option.isSome_iff_exists.mp hk
  refine ⟨rfl, fun key _ => ?_⟩
  by_cases hkey : key = .session k
  · subst hkey
    rw [expiryOf_of_entry (World.entry_hset w k mapping), he]
    exact (expiryOf_of_entry he).symm
  · exact expiryOf_congr (entry_hset_of_ne w hkey mapping)

/-- `EXPIRE` renews the keys that are there. -/
theorem extendAll_renews (cfg : Config) (keys : List Key) (w : World) :
    Renews cfg (keys.filter fun key => (w.entry key).isSome) w (w.extendAll cfg keys) := by
  refine ⟨World.extendAll_now cfg keys w, fun key _ => ?_⟩
  rw [expiryOf, World.entry_extendAll]
  cases hentry : w.entry key with
  | none =>
    have hmem : key ∉ keys.filter fun key => (w.entry key).isSome := by simp [hentry]
    rw [if_neg hmem, expiryOf, hentry]
    split_ifs <;> rfl
  | some e =>
    simp only [List.mem_filter, hentry, Option.isSome_some, and_true]
    rw [expiryOf, hentry]
    split_ifs <;> rfl

/-- A write to one key and its `EXPIRE` renew that key. -/
theorem write_extend_renews {key : Key} (hnow : w₁.now = w.now) (hlive : (w₁.entry key).isSome)
    (hothers : ∀ key', key' ≠ key → w₁.entry key' = w.entry key') :
    Renews cfg [key] w (w₁.extendAll cfg [key]) := by
  refine ⟨(World.extendAll_now cfg _ w₁).trans hnow, fun key' hkey => ?_⟩
  rw [(extendAll_renews cfg [key] w₁).expiryOf key' hkey, hnow]
  by_cases hkey' : key' = key
  · subst hkey'
    simp [hlive]
  · simp [hkey', expiryOf_congr (hothers key' hkey')]

/-- A program that keeps to `jti`s renews nothing. -/
theorem renews_of_within (cfg : Config) {α : Type} {p : Svc α} {K : Key → Prop}
    (hK : ∀ key, K key → key.IsJti) (hp : p.Only (Command.Within K)) (w : World) :
    p.Wp machine Eq (fun _ w' => Renews cfg [] w w') w :=
  (entries_of_within hp w).mono fun _ _ h =>
    .of_entries h.1 fun key hkey => h.2 key fun hK' => hkey (hK key hK')

theorem update_renews (cfg : Config) (hk : (w.entry (.session k)).isSome) (updates : Hash) :
    (update k updates).Wp machine Eq
      (fun x w' => (∃ updated, x = .ok updated) ∧ Renews cfg [] w w') w := by
  obtain ⟨e, he⟩ := Option.isSome_iff_exists.mp hk
  exact (update_instant he updates).mpr ⟨⟨_, rfl⟩, hset_renews hk _⟩

/-- An extension renews the keys of the session that are there, and nothing when it is gone. -/
theorem refreshTtl_renews (cfg : Config) (k : String) (w : World) :
    (refreshTtl cfg k).Wp machine Eq
      (fun x w' => (∃ session, x = .ok session) ∧ Renews cfg (w.extended k) w w') w := by
  cases he : w.entry (.session k) with
  | none =>
    have hnone : w.hash k = none := by
      rw [World.hash_eq_entry, he]
      rfl
    have hreply : (machine (.hgetall k) w).1 = none := hnone
    unfold refreshTtl
    rw [getSession, wp_perform_bind_eq, hreply, World.extended, hnone]
    exact ⟨⟨none, rfl⟩, .of_entries rfl fun _ _ => rfl⟩
  | some e =>
    rw [refreshTtl_instant he]
    have hk : (w.entry (.session k)).isSome := by
      rw [he]
      rfl
    -- the write of `expires_at` renews nothing, the extensions do
    have hset : Renews cfg [] w (w.hset k (e.value.set .expiresAt (expiry cfg w.now))) :=
      hset_renews hk _
    refine ⟨⟨_, rfl⟩, ?_⟩
    rw [World.extended, World.hash_of_entry he, Option.elim_some]
    refine hset.after ((extendAll_renews cfg _ _).of_mem fun key => ?_)
    simp only [List.mem_filter]
    refine and_congr_right fun hmem => ?_
    have hjti : ¬ key.IsJti := by
      rcases mem_sessionKeys hmem with rfl | rfl | hprofile
      · exact id
      · exact id
      · cases key <;> first | exact hprofile.elim | exact id
    rw [← expiryOf_isSome, hset.expiryOf key hjti, if_neg List.not_mem_nil, expiryOf_isSome]

theorem setProfile_renews {key : Key} (profile : key.Value) :
    (setProfile cfg key profile none).Wp machine Eq
      (fun x w' => x = .ok () ∧ Renews cfg [key] w w') w := by
  rw [setProfile_instant]
  refine ⟨rfl, write_extend_renews rfl ?_ fun key' hne => ?_⟩
  · rw [World.entry_set]
    rfl
  · exact World.machine_entry_of_ne (c := .set key profile)
      (by simpa [Command.changes] using hne.symm) w

/-! ### Requests -/

/-- A request that looks, or changes `jti`s only. -/
theorem quiet_renews {α : Type} {p : Svc α} {f : α → Response} {request : Request} {K : Key → Prop}
    (hK : ∀ key, K key → key.IsJti) (hp : p.Only (Command.Within K))
    (hnone : ∀ outcome, request.renewed w outcome = []) :
    (do let a ← p; return f a : Svc Response).Wp machine Eq
      (fun outcome w' => Renews cfg (request.renewed w outcome) w w') w := by
  refine wp_map.mpr ((renews_of_within cfg hK hp w).mono fun x w' h => ?_)
  rw [hnone]
  exact h

/-- Nothing but steps that renew nothing. -/
theorem renews_bind {α β : Type} {p : Svc α} {f : α → Svc β}
    (hp : p.Wp machine Eq (fun _ w' => Renews cfg [] w w') w)
    (hf : ∀ a w₁, Renews cfg [] w w₁ → (f a).Wp machine Eq (fun _ w' => Renews cfg [] w₁ w') w₁) :
    (p >>= f).Wp machine Eq (fun _ w' => Renews cfg [] w w') w :=
  hp.bind_kept (fun _ _ h₁ => h₁) fun a w₁ h₁ => (hf a w₁ h₁).mono fun _ _ h => h₁.after h

/-- A look at a session. -/
theorem look_bind_instant {α : Type} {f : Option Hash → Svc α}
    {Q : Except ServiceError α → World → Prop} :
    (issue (.hgetall k) >>= f).Wp machine Eq Q w ↔ (f (w.hash k)).Wp machine Eq Q w :=
  wp_perform_bind_eq

theorem isSome_of_hash {session : Hash} (h : w.hash k = some session) :
    (w.entry (.session k)).isSome := by
  rw [World.hash_eq_entry, Option.map_eq_some_iff] at h
  obtain ⟨e, he, -⟩ := h
  rw [he]
  rfl

/-- Nothing happens to a session that is not there. -/
theorem extended_of_missing (h : w.hash k = none) : w.extended k = [] := by
  rw [World.extended, h]
  rfl

/-- A registration writes to the hash. -/
theorem registerAgent_renews (request : SessionPatchRequest)
    (hk : (w.entry (.session request.globalSessionKey)).isSome) :
    (registerAgent request).Wp machine Eq (fun _ w' => Renews cfg [] w w') w := by
  have hnothing : Renews cfg [] w w := .of_entries rfl fun _ _ => rfl
  unfold registerAgent
  split
  · obtain ⟨e, he⟩ := Option.isSome_iff_exists.mp hk
    rw [setLocalMapping_instant he]
    split
    · exact hset_renews hk _
    · exact hnothing
  · exact hnothing

/-- What a patch does after the extension renews nothing. -/
theorem patch_tail_renews (request : SessionPatchRequest) (session : Hash) (now : ℕ)
    (hk : (w.entry (.session request.globalSessionKey)).isSome) :
    (do Program.ofExcept (validatePatch request)
        registerAgent request
        let _ ← update request.globalSessionKey (patchUpdates session request now)
        issue (.eslog (patchRecord session request))
        return ({ status := "success", updatedAt := now } : SessionPatchResponse) :
          Svc SessionPatchResponse).Wp machine Eq (fun _ w' => Renews cfg [] w w') w := by
  refine wp_ofExcept_bind.mpr ?_
  cases validatePatch request with
  | error err => exact .of_entries rfl fun _ _ => rfl
  | ok u =>
    refine renews_bind (registerAgent_renews request hk) fun _ w₁ h₁ => ?_
    refine renews_bind ((update_renews cfg (h₁.live hk) _).mono fun _ _ h => h.2) fun _ w₂ h₂ => ?_
    exact wp_perform_bind_eq.mpr (.of_entries rfl fun _ _ => rfl)

/-- A patch extends the session if its new state is `talk`, before everything else. -/
theorem patchSessionState_renews (cfg : Config) (request : SessionPatchRequest) (w : World) :
    (patchSessionState cfg request).Wp machine Eq (fun _ w' => Renews cfg
      (if request.sessionState = some .talk then w.extended request.globalSessionKey else []) w w')
      w := by
  refine look_bind_instant.mpr ?_
  cases hhash : w.hash request.globalSessionKey with
  | none =>
    rw [extended_of_missing hhash, ite_self]
    exact .of_entries rfl fun _ _ => rfl
  | some session =>
    have hk := isSome_of_hash hhash
    refine wp_perform_bind_eq.mpr (Wp.seq_ok (fun _ w₁ => Renews cfg (if request.sessionState =
      some .talk then w.extended request.globalSessionKey else []) w w₁) ?_ fun _ w₁ h₁ => ?_)
    · unfold refreshOnTalk
      split
      · rename_i htalk
        rw [if_pos htalk]
        refine wp_map.mpr ((refreshTtl_renews cfg _ w).mono ?_)
        rintro x w₁ ⟨⟨session, rfl⟩, h₁⟩
        exact ⟨_, rfl, h₁⟩
      · rename_i hnot
        rw [if_neg fun htalk => hnot htalk]
        exact ⟨_, rfl, .of_entries rfl fun _ _ => rfl⟩
    · exact (patch_tail_renews request session _ (h₁.live hk)).mono fun _ _ h => h₁.before h

/-- A close writes to the hash. -/
theorem closeSession_renews (request : SessionCloseRequest) (w : World) :
    (closeSession request).Wp machine Eq (fun _ w' => Renews cfg [] w w') w := by
  refine look_bind_instant.mpr ?_
  cases hhash : w.hash request.globalSessionKey with
  | none => exact .of_entries rfl fun _ _ => rfl
  | some session =>
    refine wp_perform_bind_eq.mpr (renews_bind (w := w)
      ((update_renews cfg (isSome_of_hash hhash) _).mono fun _ _ h => h.2) fun _ w₁ _ => ?_)
    exact wp_perform_bind_eq.mpr (.of_entries rfl fun _ _ => rfl)

theorem closeSessionByToken_renews (token : Token) (closeReason : Option String) (w : World) :
    (AuthService.closeSessionByToken token closeReason).Wp machine Eq
      (fun _ w' => Renews cfg [] w w') w := by
  have hlooks {α : Type} {p : Svc α} (hp : p.Only (Command.Within fun _ => False)) (w : World) :
      p.Wp machine Eq (fun _ w' => Renews cfg [] w w') w :=
    renews_of_within cfg (fun _ => False.elim) hp w
  refine renews_bind (hlooks (getGlobalSessionKeyFromToken_within token) w) fun k w₁ _ => ?_
  refine look_bind_instant.mpr ?_
  cases hhash : w₁.hash k with
  | none => exact .of_entries rfl fun _ _ => rfl
  | some session =>
    refine wp_perform_bind_eq.mpr (renews_bind (w := w₁)
      ((update_renews cfg (isSome_of_hash hhash) _).mono fun _ _ h => h.2) fun _ w₂ _ => ?_)
    refine renews_bind (hlooks (jtiToDelete_within token) w₂) fun jti w₃ _ => ?_
    refine renews_bind (renews_of_within cfg (fun _ => id) (deleteJti_within jti) w₃)
      fun _ w₄ _ => ?_
    exact wp_perform_bind_eq.mpr (.of_entries rfl fun _ _ => rfl)

/-- A rotation extends the session that the token names, if the token is accepted. -/
theorem refreshToken_renews (cfg : Config) (newJti : String) (token : Token) (w : World) :
    (AuthService.refreshToken cfg newJti token).Wp machine Eq (fun x w' => Renews cfg
      (x.toOption.elim [] fun response => w.extended response.globalSessionKey) w w') w := by
  have hrejected (err : ServiceError) : Renews cfg ((.error err : Except ServiceError
      TokenRefreshResponse).toOption.elim [] fun response => w.extended response.globalSessionKey)
      w w := .of_entries rfl fun _ _ => rfl
  refine authenticate_bind_instant hrejected fun payload jti k _ _ _ => ?_
  refine Wp.seq_ok (fun _ w₁ => Renews cfg (w.extended k) w w₁)
    ((refreshTtl_renews cfg k w).mono ?_) fun _ w₁ h₁ => ?_
  · rintro x w₁ ⟨⟨session, rfl⟩, h₁⟩
    exact ⟨session, rfl, h₁⟩
  · -- what follows is about `jti`s, and answers with the key of the session
    have htail := wp_eq_iff_run.mp
      (renews_of_within cfg (fun _ => id) (rotate_tail_within cfg newJti payload jti k) w₁)
    rw [wp_eq_iff_run]
    exact h₁.before htail

/-- A saved result renews the turns. -/
theorem saveApiResult_renews (cfg : Config) (k : String) (request : SolApiResultRequest)
    (w : World) : (saveApiResult cfg k request).Wp machine Eq
      (fun _ w' => Renews cfg (if (w.hash k).isSome then [.turns k] else []) w w') w := by
  refine look_bind_instant.mpr ?_
  cases hhash : w.hash k with
  | none => exact .of_entries rfl fun _ _ => rfl
  | some session =>
    refine wp_perform_bind_eq.mpr (wp_map.mpr (addTurn_instant.mpr ?_))
    refine write_extend_renews rfl ?_ fun key hkey => ?_
    · rw [World.entry_rpush]
      rfl
    · exact World.machine_entry_of_ne (c := .rpush k _)
        (by simpa [Command.changes] using hkey.symm) w

/-- The batch profile that is found is saved. -/
theorem storeBatchProfile_renews (cfg : Config) (cusno : String) (batch : Option Dict) (w : World) :
    (ProfileService.storeBatchProfile cfg cusno batch).Wp machine Eq (fun x w' => x = .ok () ∧
      Renews cfg (if (ProfileService.batchToStore batch).isSome then [.batchProfile cusno] else [])
        w w') w := by
  unfold ProfileService.storeBatchProfile
  cases ProfileService.batchToStore batch with
  | none => exact ⟨rfl, .of_entries rfl fun _ _ => rfl⟩
  | some batch => exact setProfile_renews _

/-- A session is created when its key is free. -/
theorem createSession_renews (cfg : Config) (k jti : String) (request : SessionCreateRequest)
    (w : World) : (createSession cfg k jti request).Wp machine Eq
      (fun _ w' => Renews cfg (if (w.hash k).isSome then [] else [.session k]) w w') w := by
  have htokens : Renews cfg [] w (w.setex (.jti jti) cfg.sessionCacheTtl k) := by
    refine .of_entries rfl fun key hkey => World.machine_entry_of_ne
      (c := .setex (.jti jti) cfg.sessionCacheTtl k) ?_ w
    rintro ⟨⟩
    exact hkey trivial
  -- the tokens are created first, and leave the session alone
  have hsame : (w.setex (.jti jti) cfg.sessionCacheTtl k).entry (.session k) =
      w.entry (.session k) := World.machine_entry_of_ne
        (c := .setex (.jti jti) cfg.sessionCacheTtl k) (by simp [Command.changes]) w
  refine wp_bind.mpr (createTokens_instant.mpr (wp_bind.mpr ?_))
  rw [World.hash_eq_entry, Option.isSome_map]
  cases he : w.entry (.session k) with
  | some e =>
    refine (create_instant_of_entry (hsame.trans he)).mpr ?_
    exact wp_perform_bind_eq.mpr (wp_perform_bind_eq.mpr
      (htokens.before (.of_entries rfl fun _ _ => rfl)))
  | none =>
    refine (create_instant (hsame.trans he)).mpr ?_
    have hcreated : Renews cfg [.session k] (w.setex (.jti jti) cfg.sessionCacheTtl k)
        ((w.setex (.jti jti) cfg.sessionCacheTtl k).withSession cfg (createArgs request k)) := by
      refine write_extend_renews rfl ?_ fun key hkey => entry_hset_of_ne _ hkey _
      have hentry := World.entry_hset (w.setex (.jti jti) cfg.sessionCacheTtl k) k
        (created cfg (createArgs request k) w.now)
      exact Option.isSome_iff_exists.mpr ⟨_, hentry⟩
    exact wp_perform_bind_eq.mpr (wp_perform_bind_eq.mpr
      ((htokens.after hcreated).before (.of_entries rfl fun _ _ => rfl)))

/-- An update saves the profiles, the realtime profile first. -/
theorem storeProfiles_renews (cfg : Config) (lookup : ProfileService.BatchLookup) (data : Dict)
    (cusno : Option String) (hk : (w.entry (.session k)).isSome) :
    (ProfileService.storeProfiles cfg lookup k data cusno).Wp machine Eq (fun _ w' => Renews cfg
      (.realtimeProfile (cusno.getD k) :: cusno.elim [] (batchSaved lookup)) w w') w := by
  cases cusno with
  | none => exact wp_map.mpr ((setProfile_renews _).mono fun _ _ h => h.2)
  | some cusno =>
    refine Wp.seq_ok (fun _ w₁ => Renews cfg [] w w₁) ((update_renews cfg hk _).mono ?_)
      fun _ w₁ h₁ => ?_
    · rintro x w₁ ⟨⟨updated, rfl⟩, h₁⟩
      exact ⟨updated, rfl, h₁⟩
    · refine Wp.seq_ok (fun _ w₂ => Renews cfg [.realtimeProfile cusno] w w₂)
        ((setProfile_renews _).mono ?_) fun _ w₂ h₂ => wp_ofExcept_bind.mpr ?_
      · rintro x w₂ ⟨rfl, h₂⟩
        exact ⟨(), rfl, h₁.after h₂⟩
      · simp only [Option.elim_some, Option.getD_some, batchSaved]
        cases lookup cusno with
        | error err => exact h₂
        | ok batch =>
          refine wp_map.mpr ((storeBatchProfile_renews cfg cusno batch w₂).mono ?_)
          rintro x w₃ ⟨-, h₃⟩
          exact h₂.trans h₃

/-- An update saves profiles for a session that is there. -/
theorem updateRealtimePersonalContext_renews (cfg : Config) (lookup : ProfileService.BatchLookup)
    (k : String) (data : Dict) (w : World) :
    (ProfileService.updateRealtimePersonalContext cfg lookup k data).Wp machine Eq (fun _ w' =>
      Renews cfg (if (w.hash k).isSome then profilesSaved lookup k data else []) w w') w := by
  refine look_bind_instant.mpr ?_
  cases hhash : w.hash k with
  | none => exact .of_entries rfl fun _ _ => rfl
  | some session =>
    refine wp_ofExcept_bind.mpr ?_
    unfold profilesSaved
    cases ProfileService.cusnoOf data with
    | error err => exact .of_entries rfl fun _ _ => rfl
    | ok cusno =>
      refine wp_bind.mpr ((storeProfiles_renews cfg lookup data cusno
        (isSome_of_hash hhash)).mono fun x w₁ h₁ => ?_)
      cases x with
      | error err => exact h₁
      | ok batch =>
        exact wp_perform_bind_eq.mpr (wp_perform_bind_eq.mpr
          (h₁.before (.of_entries rfl fun _ _ => rfl)))

/-- Every request renews the keys that it is said to renew. -/
theorem request_renews (cfg : Config) (request : Request) (w : World) :
    (request.program cfg).Wp machine Eq
      (fun outcome w' => Renews cfg (request.renewed w outcome) w w') w := by
  -- what a request does not write to keeps its expiry
  cases request with
  | createSession k jti r => exact wp_map.mpr (createSession_renews cfg k jti r w)
  | verifyTokenAndGetSession token =>
    exact quiet_renews (fun _ => False.elim) (AuthService.verifyTokenAndGetSession_within token)
      fun _ => rfl
  | refreshToken newJti token =>
    refine wp_map.mpr ((refreshToken_renews cfg newJti token w).mono fun x w' h => ?_)
    cases x <;> exact h
  | pingSessionByToken token =>
    exact quiet_renews (fun _ => False.elim) (AuthService.pingSessionByToken_within token)
      fun _ => rfl
  | closeSessionByToken token closeReason =>
    exact wp_map.mpr (closeSessionByToken_renews token closeReason w)
  | resolveSession r =>
    exact quiet_renews (fun _ => False.elim) (resolveSession_within r) fun _ => rfl
  | patchSessionState r => exact wp_map.mpr (patchSessionState_renews cfg r w)
  | closeSession r => exact wp_map.mpr (closeSession_renews r w)
  | saveApiResult k r => exact wp_map.mpr (saveApiResult_renews cfg k r w)
  | updateRealtimePersonalContext lookup k data =>
    exact wp_map.mpr (updateRealtimePersonalContext_renews cfg lookup k data w)

/-! ### Runs -/

variable {served : List Served}

/-- The invariant: a key that is there expires a lifetime after a request that renewed it, and no
earlier than a lifetime after any other that did. -/
structure Accounted (cfg : Config) (served : List Served) (w : World) : Prop where
  past : ∀ s ∈ served, s.before.now ≤ w.now
  source : ∀ (key : Key) l, ¬ key.IsJti → expiryOf w key = some l →
    ∃ s ∈ served, key ∈ s.renewed ∧ l = some (expiry cfg s.before.now)
  lasts : ∀ key : Key, ¬ key.IsJti → ∀ s ∈ served, key ∈ s.renewed →
    w.now ≤ expiry cfg s.before.now →
      ∃ t, expiryOf w key = some (some t) ∧ expiry cfg s.before.now ≤ t

/-- Time takes away the keys that have expired. -/
theorem Accounted.elapses (h : Accounted cfg served w) (helapses : w.Elapses w') :
    Accounted cfg served w' := by
  refine ⟨fun s hs => Nat.le_trans (h.past s hs) helapses.now_le, fun key l hkey hl => ?_,
    fun key hkey s hs hrenewed hlive => ?_⟩
  · rw [expiryOf, Option.map_eq_some_iff] at hl
    obtain ⟨e, he, rfl⟩ := hl
    exact h.source key _ hkey (expiryOf_of_entry (helapses.entry he))
  · obtain ⟨t, ht, hle⟩ := h.lasts key hkey s hs hrenewed
      (Nat.le_trans helapses.now_le hlive)
    rw [expiryOf, Option.map_eq_some_iff] at ht
    obtain ⟨e, he, hexpires⟩ := ht
    have hlater : e.Live w'.now :=
      (TtlStore.Entry.live_iff_of_some hexpires _).mpr (Nat.le_trans hlive hle)
    exact ⟨t, by rw [expiryOf_of_entry (helapses.entry_of_live he hlater), hexpires], hle⟩

/-- One more request. -/
theorem Accounted.snoc (h : Accounted cfg served w) {s : Served} (hbefore : s.before = w)
    (hrenews : Renews cfg s.renewed w w') : Accounted cfg (served ++ [s]) w' := by
  have hself : s ∈ served ++ [s] := List.mem_append_right _ (List.mem_singleton_self _)
  refine ⟨fun s' hs' => ?_, fun key l hkey hl => ?_, fun key hkey s' hs' hrenewed hlive => ?_⟩
  · rw [hrenews.now]
    rcases List.mem_append.mp hs' with hmem | hmem
    · exact h.past s' hmem
    · obtain rfl := List.mem_singleton.mp hmem
      exact Nat.le_of_eq (congrArg World.now hbefore)
  · rw [hrenews.expiryOf key hkey] at hl
    -- the key was renewed by this request, or by the one that it owed its expiry to
    split_ifs at hl with hmem
    · exact ⟨s, hself, hmem, by rw [hbefore]; exact (Option.some.inj hl).symm⟩
    · obtain ⟨s', hs', hrest⟩ := h.source key l hkey hl
      exact ⟨s', List.mem_append_left _ hs', hrest⟩
  · rw [hrenews.now] at hlive
    rw [hrenews.expiryOf key hkey]
    rcases List.mem_append.mp hs' with hmem | hmem
    · split_ifs
      · exact ⟨_, rfl, expiry_mono cfg (h.past s' hmem)⟩
      · exact h.lasts key hkey s' hmem hrenewed hlive
    · obtain rfl := List.mem_singleton.mp hmem
      rw [if_pos hrenewed, hbefore]
      exact ⟨_, rfl, Nat.le_refl _⟩

/-- The invariant holds after every run of requests that are served at one instant each. -/
theorem accounted_history {now : ℕ} (h : History cfg Eq World.Elapses (.init now) served w) :
    Accounted cfg served w := by
  refine h.invariant (I := Accounted cfg) (fun _ _ _ helapses hI => hI.elapses helapses)
    (fun served request w hI => ?_) 
      ⟨fun _ hs => (List.not_mem_nil hs).elim, fun key l _ hl => ?_,
        fun _ _ _ hs => (List.not_mem_nil hs).elim⟩
  · exact (request_renews cfg request w).mono fun _ _ hrenews => hI.snoc rfl hrenews
  · have hentry : (World.init now).entry key = none := rfl
    rw [expiryOf, hentry] at hl
    cases hl

/-- At every instant of every run a key is there exactly if it was renewed at most a lifetime
ago. -/
theorem live_iff_renewedLately {now : ℕ} (h : History cfg Eq World.Elapses (.init now) served w)
    (helapses : w.Elapses w') (key : Key) (hkey : ¬ key.IsJti) :
    (w'.entry key).isSome ↔ RenewedLately cfg served w'.now key := by
  have haccounted := (accounted_history h).elapses helapses
  rw [Option.isSome_iff_exists]
  constructor
  · rintro ⟨e, he⟩
    obtain ⟨s, hs, hrenewed, hexpires⟩ := haccounted.source key _ hkey (expiryOf_of_entry he)
    have hlive := (TtlStore.Entry.live_iff_of_some hexpires _).mp (World.live_of_entry he)
    exact ⟨s, hs, hrenewed, hlive⟩
  · rintro ⟨s, hs, hrenewed, hle⟩
    obtain ⟨t, ht, -⟩ := haccounted.lasts key hkey s hs hrenewed hle
    rw [expiryOf, Option.map_eq_some_iff] at ht
    obtain ⟨e, he, -⟩ := ht
    exact ⟨e, he⟩

end SessionManager
