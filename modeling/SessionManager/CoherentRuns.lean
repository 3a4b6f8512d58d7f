import SessionManager.TimedCoherence
import SessionManager.SavedTurns

/-!
# Coherent runs

Every request keeps timed coherence when it is served at one instant, and so do all runs of
requests with new session keys.

* `reads_coherent`, `refreshTtl_coherent`, … — one lemma for each operation.
* `request_coherent`, `coherent_history` — one request, with what it adds to the turns and profiles
  that are saved, and then every run.
* `OnTime`, `timed_coherence` — what coherence says to an observer, in every state of every run.
-/

namespace SessionManager

open Python Interaction
open SessionService SessionRepository RedisHelper

open Program hiding pure

namespace TimedCoherence

variable {cfg : Config} {saved : String → List Json} {profiled known : String → Prop} {w : World}
  {k : String}

/-- The invariant holds and session `k` is there. -/
def Alive (cfg : Config) (saved : String → List Json) (profiled known : String → Prop) (k : String)
    (w : World) : Prop :=
  Coherent cfg saved profiled known w ∧ ∃ e : TtlStore.Entry Hash, w.entry (.session k) = some e

/-- Looking changes nothing. -/
theorem reads_same {α : Type} {p : Svc α} (hp : p.Only (Command.Within fun _ => False))
    (w : World) :
    p.Wp machine Eq (fun _ w' => w'.now = w.now ∧ ∀ key, w'.entry key = w.entry key) w :=
  (entries_of_within hp w).mono fun _ _ h => ⟨h.1, fun key => h.2 key id⟩

theorem reads_coherent {α : Type} {p : Svc α} (hp : p.Only (Command.Within fun _ => False))
    (h : Coherent cfg saved profiled known w) :
    p.Wp machine Eq (fun _ w' => Coherent cfg saved profiled known w') w :=
  (reads_same hp w).mono fun _ _ hsame => h.congr hsame.1 hsame.2

/-- A log record. -/
theorem Coherent.eslog (h : Coherent cfg saved profiled known w) (record : LoggerExtraData) :
    Coherent cfg saved profiled known (w.eslog record) :=
  h.congr rfl fun _ => rfl

/-- Every operation on a session begins with a look at it. -/
theorem found_bind {α : Type} {f : Option Hash → Svc α} {Q : Except ServiceError α → World → Prop}
    (hnone : (f none).Wp machine Eq Q w)
    (hsome : ∀ e : TtlStore.Entry Hash, w.entry (.session k) = some e →
      (f (some e.value)).Wp machine Eq Q w) :
    (issue (.hgetall k) >>= f).Wp machine Eq Q w := by
  rw [wp_perform_bind_eq]
  have hreply : (machine (.hgetall k) w).1 = (w.entry (.session k)).map TtlStore.Entry.value := rfl
  rw [hreply]
  cases hentry : w.entry (.session k) with
  | none => exact hnone
  | some e => exact hsome e hentry

/-! ### Operations -/

theorem refreshTtl_coherent (h : Alive cfg saved profiled known k w) :
    (refreshTtl cfg k).Wp machine Eq (fun x w' => (∃ session, x = .ok session) ∧
      Alive cfg saved profiled known k w' ∧
      expiryOf w' (.session k) = some (some (expiry cfg w'.now))) w := by
  obtain ⟨hcoherent, e, he⟩ := h
  rw [refreshTtl_instant he]
  have hentry : ((w.hset k (e.value.set .expiresAt (expiry cfg w.now))).extendAll cfg
      (sessionKeys k e.value)).entry (.session k) =
        some ⟨e.value.merge (e.value.set .expiresAt (expiry cfg w.now)),
          some (expiry cfg w.now)⟩ := by
    rw [World.entry_extendAll, if_pos (by simp [sessionKeys]), World.entry_hset,
      World.hash_of_entry he]
    rfl
  refine ⟨⟨_, rfl⟩, ⟨hcoherent.refresh he, _, hentry⟩, ?_⟩
  rw [expiryOf_of_entry hentry, World.extendAll_now]
  rfl

theorem hset_alive (h : Alive cfg saved profiled known k w) {mapping : Hash}
    (hexpires : mapping .expiresAt = none) (hcusno : mapping .cusno = none) :
    Alive cfg saved profiled known k (w.hset k mapping) := by
  obtain ⟨hcoherent, e, he⟩ := h
  refine ⟨hcoherent.hset he hexpires fun cusno hc => ?_, _, World.entry_hset w k mapping⟩
  rw [hcusno] at hc
  cases hc

/-- An update apart from `expires_at` and `cusno`. -/
theorem update_coherent (h : Alive cfg saved profiled known k w) {updates : Hash}
    (hexpires : updates .expiresAt = none) (hcusno : updates .cusno = none) :
    (update k updates).Wp machine Eq (fun x w' => (∃ updated, x = .ok updated) ∧
      Alive cfg saved profiled known k w') w := by
  obtain ⟨e, he⟩ := h.2
  rw [update_instant he]
  refine ⟨⟨_, rfl⟩, hset_alive h ?_ ?_⟩
  · rw [Hash.set_of_ne _ (by decide), hexpires]
  · rw [Hash.set_of_ne _ (by decide), hcusno]

theorem registerAgent_coherent (request : SessionPatchRequest)
    (h : Alive cfg saved profiled known request.globalSessionKey w) :
    (registerAgent request).Wp machine Eq
      (fun _ w' => Alive cfg saved profiled known request.globalSessionKey w') w := by
  unfold registerAgent
  split
  · obtain ⟨e, he⟩ := h.2
    rw [setLocalMapping_instant he]
    split
    · refine hset_alive h ?_ ?_
      · exact Hash.set_of_ne Hash.empty (by decide) _
      · exact Hash.set_of_ne Hash.empty (by decide) _
    · exact h
  · exact h

theorem refreshOnTalk_coherent (request : SessionPatchRequest)
    (h : Alive cfg saved profiled known request.globalSessionKey w) :
    (refreshOnTalk cfg request).Wp machine Eq (fun x w' => (∃ u, x = .ok u) ∧
      Alive cfg saved profiled known request.globalSessionKey w') w := by
  unfold refreshOnTalk
  split
  · refine Wp.seq_ok (fun _ w' => Alive cfg saved profiled known request.globalSessionKey w')
      ((refreshTtl_coherent h).mono ?_) fun _ _ h' => ⟨⟨_, rfl⟩, h'⟩
    rintro x w' ⟨⟨session, rfl⟩, h', -⟩
    exact ⟨session, rfl, h'⟩
  · exact ⟨⟨_, rfl⟩, h⟩

theorem patchSessionState_coherent (request : SessionPatchRequest)
    (h : Coherent cfg saved profiled known w) :
    (patchSessionState cfg request).Wp machine Eq
      (fun _ w' => Coherent cfg saved profiled known w') w := by
  refine found_bind h fun e he => ?_
  refine wp_perform_bind_eq.mpr (Wp.seq_ok
    (fun _ w' => Alive cfg saved profiled known request.globalSessionKey w')
    ((refreshOnTalk_coherent request ⟨h, e, he⟩).mono ?_) fun _ w₁ h₁ => ?_)
  · rintro x w' ⟨⟨u, rfl⟩, h'⟩
    exact ⟨u, rfl, h'⟩
  · refine wp_ofExcept_bind.mpr ?_
    cases validatePatch request with
    | error err => exact h₁.1
    | ok u =>
      refine wp_bind.mpr ((registerAgent_coherent request h₁).mono fun x w₂ h₂ => ?_)
      cases x with
      | error err => exact h₂.1
      | ok u =>
        refine Wp.seq_ok (fun _ w₃ => Alive cfg saved profiled known request.globalSessionKey w₃)
          ((update_coherent h₂ rfl rfl).mono ?_) fun _ w₃ h₃ => ?_
        · rintro x w₃ ⟨⟨updated, rfl⟩, h₃⟩
          exact ⟨updated, rfl, h₃⟩
        · exact wp_perform_bind_eq.mpr (h₃.1.eslog _)

theorem closeSession_coherent (request : SessionCloseRequest)
    (h : Coherent cfg saved profiled known w) :
    (closeSession request).Wp machine Eq
      (fun _ w' => Coherent cfg saved profiled known w') w := by
  refine found_bind h fun e he => wp_perform_bind_eq.mpr ?_
  have halive : Alive cfg saved profiled known request.globalSessionKey w := ⟨h, e, he⟩
  refine Wp.seq_ok (fun _ w₁ => Alive cfg saved profiled known request.globalSessionKey w₁)
    ((update_coherent halive rfl rfl).mono ?_) fun _ w₁ h₁ => ?_
  · rintro x w₁ ⟨⟨updated, rfl⟩, h₁⟩
    exact ⟨updated, rfl, h₁⟩
  · exact wp_perform_bind_eq.mpr (h₁.1.eslog _)

/-! ### Tokens -/

/-- The session of a live `jti` is there. -/
theorem Coherent.session_of_jti (h : Coherent cfg saved profiled known w) {jti : String}
    (hjti : w.jti jti = some k) : ∃ e : TtlStore.Entry Hash, w.entry (.session k) = some e := by
  obtain ⟨e, he, rfl⟩ : ∃ e : TtlStore.Entry String, w.entry (.jti jti) = some e ∧ e.value = k := by
    rw [World.jti, World.get_eq_entry, Option.map_eq_some_iff] at hjti
    exact hjti
  exact Option.isSome_iff_exists.mp (h.live_of_linked (.jti he) (by rw [he]; rfl))

theorem refreshToken_coherent (newJti : String) (token : Token)
    (h : Coherent cfg saved profiled known w) :
    (AuthService.refreshToken cfg newJti token).Wp machine Eq
      (fun _ w' => Coherent cfg saved profiled known w') w := by
  refine authenticate_bind_instant (fun _ => h) fun payload jti k _ _ hjti => ?_
  -- the session is there, so it is extended, and the new `jti` expires with it
  refine Wp.seq_ok (fun _ w₁ => Alive cfg saved profiled known k w₁ ∧
    expiryOf w₁ (.session k) = some (some (expiry cfg w₁.now)))
    ((refreshTtl_coherent ⟨h, h.session_of_jti hjti⟩).mono ?_) ?_
  · rintro x w₁ ⟨⟨session, rfl⟩, h₁, hfresh⟩
    exact ⟨session, rfl, h₁, hfresh⟩
  · rintro - w₁ ⟨⟨h₁, -⟩, hfresh⟩
    have hdeleted : expiryOf (w₁.del (.jti jti)) (.session k) = expiryOf w₁ (.session k) :=
      expiryOf_congr
        (World.machine_entry_of_ne (c := .del (.jti jti)) (by simp [Command.changes]) w₁)
    have hfinal := ((h₁.del_jti jti).setex_jti newJti k (hdeleted.trans hfresh)).eslog
      (AuthService.refreshRecord newJti k)
    rw [wp_eq_iff_run]
    exact hfinal

theorem closeSessionByToken_coherent (token : Token) (closeReason : Option String)
    (h : Coherent cfg saved profiled known w) :
    (AuthService.closeSessionByToken token closeReason).Wp machine Eq
      (fun _ w' => Coherent cfg saved profiled known w') w := by
  refine getGlobalSessionKeyFromToken_bind_instant (fun _ => h) fun payload jti k _ _ _ => ?_
  refine found_bind h fun e he => wp_perform_bind_eq.mpr ?_
  have halive : Alive cfg saved profiled known k w := ⟨h, e, he⟩
  refine Wp.seq_ok (fun _ w₁ => Alive cfg saved profiled known k w₁)
    ((update_coherent halive rfl rfl).mono ?_) fun _ w₁ h₁ => ?_
  · rintro x w₁ ⟨⟨updated, rfl⟩, h₁⟩
    exact ⟨updated, rfl, h₁⟩
  · refine wp_bind.mpr ((reads_coherent (jtiToDelete_within token) h₁.1).mono fun x w₂ h₂ => ?_)
    cases x with
    | error err => exact h₂
    | ok deleted =>
      cases deleted with
      | none => exact wp_perform_bind_eq.mpr (h₂.eslog _)
      | some j =>
        refine wp_perform_bind_eq.mpr (wp_perform_bind_eq.mpr ?_)
        exact (h₂.del_jti j).eslog _

/-- A saved turn. -/
theorem saveApiResult_coherent (request : SolApiResultRequest)
    (h : Coherent cfg saved profiled known w) :
    (saveApiResult cfg k request).Wp machine Eq (fun x w' => match x with
      | .ok turn =>
        Coherent cfg (Function.update saved k (saved k ++ [turn])) profiled known w'
      | .error _ => Coherent cfg saved profiled known w') w := by
  refine found_bind h fun e he => wp_perform_bind_eq.mpr (wp_bind.mpr ?_)
  rw [addTurn_instant]
  exact h.rpush he _

/-- The profile of a session, saved under its own key or under the customer number. -/
theorem storeProfiles_coherent (lookup : ProfileService.BatchLookup) (data : Dict)
    (cusno : Option String) (hcusno : cusno ≠ some "")
    (h : Alive cfg saved profiled known k w) :
    (ProfileService.storeProfiles cfg lookup k data cusno).Wp machine Eq (fun x w' =>
      Coherent cfg saved (fun k' => profiled k' ∨ k' = k ∧ cusno = none ∧ ∃ batch, x = .ok batch)
        known w') w := by
  obtain ⟨hcoherent, e, he⟩ := h
  unfold ProfileService.storeProfiles
  cases cusno with
  -- the profile is stored under the key of the session
  | none =>
    have hkey : (Key.realtimeProfile k).IsProfile := trivial
    refine wp_bind.mpr (setProfile_instant.mpr (hcoherent.set_profile hkey _ fun k' hk' => ?_))
    rcases hk' with hbefore | ⟨rfl, -⟩
    · exact .inl hbefore
    · exact .inr ⟨rfl, hcoherent.known_of_entry he⟩
  | some cusno =>
    have hne : cusno ≠ "" := fun heq => hcusno (heq ▸ rfl)
    refine wp_bind.mpr ((update_instant he _).mpr (wp_bind.mpr (setProfile_instant.mpr ?_)))
    have hset : (ProfileService.cusnoUpdates cusno).set .updatedAt w.now .cusno = some cusno := rfl
    have hupdated := hcoherent.hset_cusno he rfl hset hne (.obj data)
    -- a session with a customer number has no profile of its own
    have hfewer {w' : World} (h' : Coherent cfg saved profiled known w')
        (x : Except ServiceError (Option Dict)) : Coherent cfg saved
          (fun k' => profiled k' ∨ k' = k ∧ some cusno = none ∧ ∃ batch, x = .ok batch) known w' :=
      h'.fewer fun k' hk' => hk'.resolve_right fun hsome => absurd hsome.2.1 (by simp)
    refine wp_ofExcept_bind.mpr ?_
    cases lookup cusno with
    | error err => exact hfewer hupdated _
    | ok batch =>
      dsimp only
      unfold ProfileService.storeBatchProfile
      split
      · have hkey : (Key.batchProfile cusno).IsProfile := trivial
        exact wp_bind.mpr (setProfile_instant.mpr
          (hfewer (hupdated.set_profile hkey _ fun _ => .inl) _))
      · exact hfewer hupdated _

/-- A customer number that is found is not empty. -/
theorem cusnoOf_ne_empty {data : Dict} {cusno : Option String}
    (h : ProfileService.cusnoOf data = .ok cusno) : cusno ≠ some "" := by
  unfold ProfileService.cusnoOf at h
  cases hraw : ProfileService.cusnoRaw data with
  | error err =>
    rw [hraw] at h
    cases h
  | ok raw =>
    rw [hraw] at h
    obtain rfl := Except.ok.inj h
    unfold ProfileService.cusnoOfRaw
    split
    · simp [Option.filter]
    · simp

theorem updateRealtimePersonalContext_coherent (lookup : ProfileService.BatchLookup) (data : Dict)
    (h : Coherent cfg saved profiled known w) :
    (ProfileService.updateRealtimePersonalContext cfg lookup k data).Wp machine Eq (fun x w' =>
      Coherent cfg saved (fun k' => profiled k' ∨ k' = k ∧ ProfileService.cusnoOf data = .ok none ∧
        ∃ response, x = .ok response) known w') w := by
  have hfewer {err : ServiceError} : Coherent cfg saved (fun k' => profiled k' ∨ k' = k ∧
      ProfileService.cusnoOf data = .ok none ∧
      ∃ response, (.error err : Except ServiceError
        ProfileService.RealtimePersonalContextResponse) = .ok response) known w :=
    h.fewer fun k' hk' => hk'.resolve_right (by simp)
  refine found_bind hfewer fun e he => wp_ofExcept_bind.mpr ?_
  cases hcusno : ProfileService.cusnoOf data with
  | error err =>
    rw [hcusno] at hfewer
    exact hfewer
  | ok cusno =>
    refine wp_bind.mpr ((storeProfiles_coherent lookup data cusno (cusnoOf_ne_empty hcusno)
      ⟨h, e, he⟩).mono fun x w₁ h₁ => ?_)
    cases x with
    | error err => exact h₁.fewer fun k' hk' => .inl (hk'.resolve_right (by simp))
    | ok batch =>
      refine wp_perform_bind_eq.mpr (wp_perform_bind_eq.mpr ((h₁.eslog _).fewer fun k' hk' => ?_))
      exact hk'.imp_right fun hk => ⟨hk.1, Except.ok.inj hk.2.1, _, rfl⟩

/-- A session with a new key. -/
theorem createSession_coherent (jti : String) (request : SessionCreateRequest)
    (h : Coherent cfg saved profiled known w) (hk : ¬ known k) :
    (createSession cfg k jti request).Wp machine Eq (fun _ w' =>
      Coherent cfg saved profiled (fun k' => known k' ∨ k' = k) w') w := by
  have hjti : (w.setex (.jti jti) cfg.sessionCacheTtl k).entry (.jti jti) =
      some ⟨k, some (expiry cfg w.now)⟩ := World.entry_setex w (.jti jti) _ k
  have hsame (key : Key) (hkey : key ≠ .jti jti) :
      (w.setex (.jti jti) cfg.sessionCacheTtl k).entry key = w.entry key :=
    World.machine_entry_of_ne (c := .setex (.jti jti) cfg.sessionCacheTtl k)
      (by simpa [Command.changes] using hkey.symm) w
  have hnone : (w.setex (.jti jti) cfg.sessionCacheTtl k).entry (.session k) = none :=
    (hsame _ (by simp)).trans (h.unknown k hk).1
  refine wp_bind.mpr (createTokens_instant.mpr (wp_bind.mpr ((create_instant hnone).mpr ?_)))
  refine wp_perform_bind_eq.mpr (wp_perform_bind_eq.mpr (Coherent.eslog ?_ _))
  refine h.create hk rfl (World.entry_withSession cfg (createArgs request k) hnone) rfl rfl
    ((World.entry_withSession_of_ne cfg _ _ (by simp)).trans hjti) fun key hkey hkey' => ?_
  exact (World.entry_withSession_of_ne cfg (createArgs request k) _ hkey).trans (hsame key hkey')

end TimedCoherence

/-! ### Requests -/

/-- The key that a request creates a session with. -/
def Request.creates? : Request → Option String
  | .createSession k _ _ => some k
  | _ => none

/-- A request that saves a profile under the key of session `k`. -/
def Request.SavesProfile (k : String) (outcome : Except ServiceError Response) : Request → Prop
  | .updateRealtimePersonalContext _ k' data =>
    k = k' ∧ ProfileService.cusnoOf data = .ok none ∧ ∃ response, outcome = .ok response
  | _ => False

/-- The profiles that have been saved under the key of session `k`. -/
def SavedProfile (served : List Served) (k : String) : Prop :=
  ∃ s ∈ served, s.request.SavesProfile k s.outcome

/-- The keys that sessions have been created with. -/
def createdKeys (served : List Served) : List String :=
  served.filterMap fun s => s.request.creates?

/-- The turns that have been saved for each session. -/
def savedTurns (served : List Served) (k : String) : List Json :=
  (AbstractSession.ofServed k served).turns

/-- One more request, as far as turns are concerned. -/
theorem savedTurns_snoc (served : List Served) (s : Served) (k : String) :
    savedTurns (served ++ [s]) k =
      savedTurns served k ++ ((s.effect? k).bind Effect.turn?).toList := by
  unfold savedTurns
  rw [AbstractSession.ofServed_snoc]
  cases s.effect? k with
  | none => simp
  | some effect => rfl

theorem savedProfile_snoc {served : List Served} {s : Served} {k : String} :
    SavedProfile (served ++ [s]) k ↔
      SavedProfile served k ∨ s.request.SavesProfile k s.outcome := by
  simp [SavedProfile, or_and_right, exists_or]

theorem createdKeys_snoc (served : List Served) (s : Served) :
    createdKeys (served ++ [s]) = createdKeys served ++ s.request.creates?.toList :=
  filterMap_snoc (fun s : Served => s.request.creates?) served s

namespace TimedCoherence

variable {cfg : Config} {served : List Served} {w : World}

/-- The invariant of a history. -/
abbrev CoherentAfter (cfg : Config) (served : List Served) (w : World) : Prop :=
  Coherent cfg (savedTurns served) (SavedProfile served) (· ∈ createdKeys served) w

/-- The invariant after a request that saves no turn or profile and creates no session. -/
theorem Coherent.snoc_quiet {s : Served} (h : CoherentAfter cfg served w)
    (hturn : ∀ k, (s.effect? k).bind Effect.turn? = none)
    (hprofile : ∀ k, ¬ s.request.SavesProfile k s.outcome) (hcreates : s.request.creates? = none) :
    CoherentAfter cfg (served ++ [s]) w := by
  have hturns : savedTurns (served ++ [s]) = savedTurns served :=
    funext fun k => by simp [savedTurns_snoc, hturn k]
  have hkeys : createdKeys (served ++ [s]) = createdKeys served := by
    simp [createdKeys_snoc, hcreates]
  unfold CoherentAfter
  rw [hturns, hkeys]
  exact h.fewer fun k hk => (savedProfile_snoc.mp hk).resolve_right (hprofile k)

/-- Only a saved result adds to the turns. -/
theorem turn?_eq_none {request : Request} (hsave : ∀ k r, request ≠ .saveApiResult k r)
    (outcome : Except ServiceError Response) (k : String) :
    (request.effect? k outcome).bind Effect.turn? = none := by
  cases hturn : (request.effect? k outcome).bind Effect.turn? with
  | none => rfl
  | some turn =>
    obtain ⟨r, hr⟩ := Request.turn_of_effect? hturn
    exact absurd hr (hsave k r)

/-- A request that only keeps the invariant. -/
theorem quiet_coherent {α : Type} {p : Svc α} {f : α → Response} {request : Request}
    (h : p.Wp machine Eq (fun _ w' => CoherentAfter cfg served w') w)
    (hsave : ∀ k r, request ≠ .saveApiResult k r)
    (hprofile : ∀ k outcome, ¬ request.SavesProfile k outcome)
    (hcreates : request.creates? = none) :
    (do let a ← p; return f a : Svc Response).Wp machine Eq
      (fun outcome w' => CoherentAfter cfg (served ++ [⟨request, outcome, w, w'⟩]) w') w :=
  wp_map.mpr (h.mono fun _ _ h' => h'.snoc_quiet (fun k => turn?_eq_none hsave _ k)
    (fun k => hprofile k _) hcreates)

/-- Every request keeps the invariant, with a new key where it creates a session. -/
theorem request_coherent (request : Request) (h : CoherentAfter cfg served w)
    (hfresh : ∀ k, request.creates? = some k → k ∉ createdKeys served) :
    (request.program cfg).Wp machine Eq
      (fun outcome w' => CoherentAfter cfg (served ++ [⟨request, outcome, w, w'⟩]) w') w := by
  -- only a saved result adds a turn
  have hquiet {s : Served} (hs : ∀ k r, s.request ≠ .saveApiResult k r) :
      savedTurns (served ++ [s]) = savedTurns served :=
    funext fun k => by
      have hnone : (s.effect? k).bind Effect.turn? = none := turn?_eq_none hs s.outcome k
      simp [savedTurns_snoc, hnone]
  cases request with
  | createSession k jti request =>
    refine wp_map.mpr ((createSession_coherent jti request h (hfresh k rfl)).mono fun x w' h' => ?_)
    have hkeys (s : Served) (hs : s.request = .createSession k jti request) :
        createdKeys (served ++ [s]) = createdKeys served ++ [k] := by
      rw [createdKeys_snoc, hs]
      rfl
    unfold CoherentAfter
    rw [hquiet (by simp), hkeys _ rfl]
    simp only [List.mem_append, List.mem_singleton]
    exact h'.fewer fun k hk => (savedProfile_snoc.mp hk).resolve_right id
  | saveApiResult k request =>
    refine wp_map.mpr ((saveApiResult_coherent request h).mono fun x w' h' => ?_)
    cases x with
    | error err =>
      exact h'.snoc_quiet (fun _ => rfl) (fun _ => id) rfl
    | ok turn =>
      have hturns (s : Served) (hrequest : s.request = .saveApiResult k request)
          (houtcome : s.outcome = .ok (.saved turn)) : savedTurns (served ++ [s]) =
            Function.update (savedTurns served) k (savedTurns served k ++ [turn]) := by
        refine funext fun k' => ?_
        have heffect : s.effect? k' = if k = k' then some (.save turn) else none := by
          rw [Served.effect?, hrequest, houtcome]
          rfl
        rw [savedTurns_snoc, heffect]
        by_cases hk : k = k'
        · subst hk
          simp [Effect.turn?]
        · simp [hk, Function.update_of_ne (Ne.symm hk)]
      have hkeys (s : Served) (hrequest : s.request = .saveApiResult k request) :
          createdKeys (served ++ [s]) = createdKeys served := by
        simp [createdKeys_snoc, hrequest, Request.creates?]
      unfold CoherentAfter
      rw [hturns _ rfl rfl, hkeys _ rfl]
      exact h'.fewer fun k hk => (savedProfile_snoc.mp hk).resolve_right id
  | updateRealtimePersonalContext lookup k data =>
    refine wp_map.mpr ((updateRealtimePersonalContext_coherent lookup data h).mono
      fun x w' h' => ?_)
    have hkeys (s : Served) (hrequest : s.request.creates? = none) :
        createdKeys (served ++ [s]) = createdKeys served := by
      simp [createdKeys_snoc, hrequest]
    unfold CoherentAfter
    rw [hquiet (by simp), hkeys _ rfl]
    refine h'.fewer fun k' hk' => (savedProfile_snoc.mp hk').imp_right ?_
    rintro ⟨rfl, hnone, response, houtcome⟩
    refine ⟨rfl, hnone, ?_⟩
    cases x with
    | error err => cases houtcome
    | ok response => exact ⟨response, rfl⟩
  | verifyTokenAndGetSession token =>
    exact quiet_coherent (reads_coherent (AuthService.verifyTokenAndGetSession_within token) h)
      (by simp) (fun _ _ => id) rfl
  | pingSessionByToken token =>
    exact quiet_coherent (reads_coherent (AuthService.pingSessionByToken_within token) h) (by simp)
      (fun _ _ => id) rfl
  | resolveSession request =>
    exact quiet_coherent (reads_coherent (resolveSession_within request) h) (by simp)
      (fun _ _ => id) rfl
  | refreshToken newJti token =>
    exact quiet_coherent (refreshToken_coherent newJti token h) (by simp) (fun _ _ => id) rfl
  | closeSessionByToken token closeReason =>
    exact quiet_coherent (closeSessionByToken_coherent token closeReason h) (by simp)
      (fun _ _ => id) rfl
  | patchSessionState request =>
    exact quiet_coherent (patchSessionState_coherent request h) (by simp) (fun _ _ => id) rfl
  | closeSession request =>
    exact quiet_coherent (closeSession_coherent request h) (by simp) (fun _ _ => id) rfl

/-- The empty store is coherent. -/
theorem coherent_init (cfg : Config) (now : ℕ) : CoherentAfter cfg [] (.init now) := by
  have hentry (key : Key) : (World.init now).entry key = none := rfl
  refine ⟨?_, ?_, ?_, ?_, ?_, ?_⟩
  · intro key l hl
    rw [expiryOf, hentry] at hl
    cases hl
  · intro a b _ t ht
    rw [expiryOf, hentry] at ht
    cases ht
  · intro k e he
    rw [hentry] at he
    cases he
  · intro k e he
    rw [hentry] at he
    cases he
  · intro k hk
    rw [hentry] at hk
    cases hk
  · intro k _
    exact ⟨rfl, rfl, rfl, by simp [SavedProfile]⟩

/-- The invariant holds after every run in which each session has a key of its own. -/
theorem coherent_history {now : ℕ} (h : History cfg Eq World.Elapses (.init now) served w)
    (hkeys : (createdKeys served).Nodup) : CoherentAfter cfg served w := by
  refine h.invariant (I := fun served w => (createdKeys served).Nodup → CoherentAfter cfg served w)
    (fun _ _ _ helapses hI hk => (hI hk).elapses helapses) (fun served request w hI => ?_)
    (fun _ => coherent_init cfg now) hkeys
  by_cases hfresh : (createdKeys served).Nodup ∧
      ∀ k, request.creates? = some k → k ∉ createdKeys served
  · exact (request_coherent request (hI hfresh.1) hfresh.2).mono fun _ _ h' _ => h'
  · exact wp_iff_exec.mpr fun outcome w' _ hnodup => absurd (nodup_filterMap_snoc hnodup) hfresh

/-! ### What an observer sees -/

/-- What `verify` and `ping` say about a session at an instant: whether its key is there, and when
it expires. -/
def Reports (w : World) (k : String) (isAlive : Bool) (expiresAt : Option ℕ) : Prop :=
  isAlive = (w.entry (.session k)).isSome ∧ expiresAt = (expiryOf w (.session k)).join

/-- Timed coherence, as it is seen from outside. -/
structure OnTime (served : List Served) (w : World) : Prop where
  /-- `expires_at` is the expiry of the key. -/
  expiresAt : ∀ k (e : TtlStore.Entry Hash), w.entry (.session k) = some e →
    ∃ t, e.value .expiresAt = some t ∧ e.expiresAt = some t
  verify : ∀ token response,
    ((AuthService.verifyTokenAndGetSession token).run machine w).1 = .ok response →
      Reports w response.globalSessionKey response.isAlive response.expiresAt
  ping : ∀ token response, ((AuthService.pingSessionByToken token).run machine w).1 = .ok response →
    ∃ k, ((getGlobalSessionKeyFromToken token).run machine w).1 = .ok k ∧
      Reports w k response.isAlive response.expiresAt
  /-- The turns that were saved for a session are there. -/
  turns : ∀ k, (w.entry (.session k)).isSome →
    (machine (.lrange k) w).1 = savedTurns served k
  /-- The profile of the session's customer is there. -/
  cusno : ∀ k (e : TtlStore.Entry Hash) cusno, w.entry (.session k) = some e →
    e.value .cusno = some cusno → (w.entry (.realtimeProfile cusno)).isSome
  /-- A profile that was saved under the session's own key is there. -/
  profile : ∀ k (e : TtlStore.Entry Hash), w.entry (.session k) = some e →
    e.value .cusno = none → SavedProfile served k → (w.entry (.realtimeProfile k)).isSome
  /-- A `jti` names a session that is there. -/
  jti : ∀ j k, w.jti j = some k → (w.entry (.session k)).isSome

/-- What is reported of a session comes from its hash. -/
theorem Coherent.reports {saved : String → List Json} {profiled known : String → Prop}
    (h : Coherent cfg saved profiled known w) (k : String) :
    Reports w k ((w.hash k).isSome) ((w.hash k).bind fun session => session .expiresAt) := by
  unfold Reports expiryOf
  rw [World.hash_eq_entry]
  cases he : w.entry (.session k) with
  | none => exact ⟨rfl, rfl⟩
  | some e => exact ⟨rfl, h.expiresAt k e he⟩

theorem Coherent.verify_reports {saved : String → List Json} {profiled known : String → Prop}
    (h : Coherent cfg saved profiled known w) (token : Token) :
    (AuthService.verifyTokenAndGetSession token).Wp machine Eq (fun x _ => ∀ response,
      x = .ok response → Reports w response.globalSessionKey response.isAlive response.expiresAt)
      w := by
  refine authenticate_bind_instant (fun err response hx => by cases hx)
    fun payload jti k _ _ _ => ?_
  refine wp_perform_bind_eq.mpr (wp_perform_bind_eq.mpr ?_)
  rintro response hx
  obtain rfl := Except.ok.inj hx
  have hreports := h.reports k
  show Reports w (AuthService.verifyResponse k (w.hash k)).globalSessionKey
    (AuthService.verifyResponse k (w.hash k)).isAlive
    (AuthService.verifyResponse k (w.hash k)).expiresAt
  cases hhash : w.hash k with
  | none =>
    rw [hhash] at hreports
    exact hreports
  | some session =>
    rw [hhash] at hreports
    exact hreports

theorem Coherent.ping_reports {saved : String → List Json} {profiled known : String → Prop}
    (h : Coherent cfg saved profiled known w) (token : Token) :
    (AuthService.pingSessionByToken token).Wp machine Eq (fun x _ => ∀ response,
      x = .ok response → ∃ k, ((getGlobalSessionKeyFromToken token).run machine w).1 = .ok k ∧
        Reports w k response.isAlive response.expiresAt) w := by
  have hsame := (wp_eq_iff_run.mp (reads_same (getGlobalSessionKeyFromToken_within token) w)).2
  unfold AuthService.pingSessionByToken
  rw [wp_bind, wp_eq_iff_run]
  -- the token is read without a change, so the world is the one of the report
  generalize (getGlobalSessionKeyFromToken token).run machine w = looked at hsame ⊢
  obtain ⟨x, w₁⟩ := looked
  dsimp only at hsame
  cases x with
  | error err => exact fun response hx => by cases hx
  | ok k =>
    refine wp_perform_bind_eq.mpr ?_
    have hhash : (machine (.hgetall k) w₁).1 = w.hash k := by
      show w₁.hash k = w.hash k
      rw [World.hash_eq_entry, World.hash_eq_entry, hsame]
    have hreports := h.reports k
    rw [hhash]
    cases hfound : w.hash k with
    | none =>
      rw [hfound] at hreports
      rintro response hx
      obtain rfl := Except.ok.inj hx
      exact ⟨k, rfl, hreports⟩
    | some session =>
      rw [hfound] at hreports
      rintro response hx
      obtain rfl := Except.ok.inj hx
      exact ⟨k, rfl, hreports⟩

/-- Coherence seen from outside. -/
theorem onTime_of_coherent (h : CoherentAfter cfg served w) : OnTime served w where
  expiresAt k e he := by
    obtain ⟨t, hexpires, -⟩ := h.bounded _ _ (expiryOf_of_entry he)
    exact ⟨t, (h.expiresAt k e he).trans hexpires, hexpires⟩
  verify token response hrun := wp_eq_iff_run.mp (h.verify_reports token) response hrun
  ping token response hrun := wp_eq_iff_run.mp (h.ping_reports token) response hrun
  turns k hk := h.turns k hk
  cusno k e cusno he hc := h.live_of_linked (.cusno he hc) (by rw [he]; rfl)
  profile k e he hc hprofile := h.live_of_linked (.profile he hc hprofile) (by rw [he]; rfl)
  jti j k hj := by
    obtain ⟨e, he⟩ := h.session_of_jti hj
    rw [he]
    rfl

end TimedCoherence

/-- Timed coherence of the store: at every instant of every run in which each session is created
with a key of its own and each request is served at one instant. -/
theorem timed_coherence (cfg : Config) {now : ℕ} {served : List Served} {w w' : World}
    (h : History cfg Eq World.Elapses (.init now) served w) (hkeys : (createdKeys served).Nodup)
    (helapses : w.Elapses w') : TimedCoherence.OnTime served w' :=
  TimedCoherence.onTime_of_coherent ((TimedCoherence.coherent_history h hkeys).elapses helapses)

namespace TimedCoherence

/-- A session is opened at instant 0. -/
def opened : Served := (Request.createSession "gsess_1" "jti_0" {}).serve .default (.init 0)

/-- A result is saved for it one second later. -/
def savedLater : Served :=
  (Request.saveApiResult "gsess_1" { globalSessionKey := "gsess_1", turnId := "turn_1" }).serve
    .default (opened.after.advance 1000)

/-- Five minutes after it was opened the session is still there, and so is the turn. -/
theorem timed_coherence_saved :
    OnTime [opened, savedLater] (savedLater.after.advance 299000) ∧
      ((savedLater.after.advance 299000).entry (.session "gsess_1")).isSome = true ∧
      (machine (.lrange "gsess_1") (savedLater.after.advance 299000)).1.length = 1 := by
  have hopened : History .default Eq World.Elapses (.init 0) [opened] opened.after :=
    .snoc .nil (.refl _) (Program.Exec.of_run (fun _ => rfl) _ _)
  have hsaved : History .default Eq World.Elapses (.init 0) [opened, savedLater] savedLater.after :=
    .snoc hopened ⟨1000, rfl⟩ (Program.Exec.of_run (fun _ => rfl) _ _)
  exact ⟨timed_coherence .default hsaved (by decide) ⟨299000, rfl⟩, rfl, rfl⟩

end TimedCoherence

end SessionManager
