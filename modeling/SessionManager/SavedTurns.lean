import SessionManager.SessionEffects
import SessionManager.Writes

/-!
# Saved turns outlive their session

The turns of a session are a list of its own with an expiry of its own. While the session is there,
they expire no earlier than it does, whatever is served.

* `TurnsOutlive` — the session is there, and its turns are the saved ones and last as long.
* `TurnsOutlive.keeps` — they are still there after some time, if the session is.
* `Request.keeps_turns` — one request keeps this, with the turn that it saves.
-/

namespace SessionManager

open Python Interaction
open SessionService SessionRepository RedisHelper

open Program hiding pure

/-- Session `k` is there until `t`, at most a lifetime from now, and `turns`, unless there are none,
are saved for it at least until `t`. -/
structure TurnsOutlive (cfg : Config) (k : String) (turns : List Json) (e : TtlStore.Entry Hash)
    (t : ℕ) (w : World) : Prop where
  session : w.entry (.session k) = some e
  expiresAt : e.expiresAt = some t
  le_expiry : t ≤ expiry cfg w.now
  saved : turns = [] ∧ w.entry (.turns k) = none ∨
    ∃ t', t ≤ t' ∧ w.entry (.turns k) = some ⟨turns, some t'⟩

/-- The same, whatever the entry. -/
def SavedTurns (cfg : Config) (k : String) (turns : List Json) (w : World) : Prop :=
  ∃ e t, TurnsOutlive cfg k turns e t w

variable {cfg : Config} {k : String} {turns : List Json} {e : TtlStore.Entry Hash} {t : ℕ}
  {w : World}

/-- A lifetime that begins later ends later. -/
theorem expiry_mono (cfg : Config) {now now' : ℕ} (h : now ≤ now') :
    expiry cfg now ≤ expiry cfg now' := by
  unfold expiry
  omega

/-- While the session does not expire its turns do not either. -/
theorem TurnsOutlive.keeps (h : TurnsOutlive cfg k turns e t w) {w' : World}
    (hkeeps : World.Keeps (.session k) w w') : TurnsOutlive cfg k turns e t w' := by
  have hsession : w'.entry (.session k) = some e := hkeeps.entry.trans h.session
  have hlive : w'.now ≤ t :=
    (TtlStore.Entry.live_iff_of_some h.expiresAt _).mp (World.live_of_entry hsession)
  refine ⟨hsession, h.expiresAt, ?_, ?_⟩
  · exact Nat.le_trans h.le_expiry (expiry_mono cfg hkeeps.1.now_le)
  · rcases h.saved with ⟨hnil, hnone⟩ | ⟨t', hle, hentry⟩
    · exact .inl ⟨hnil, hkeeps.1.entry_eq_none hnone⟩
    · refine .inr ⟨t', hle, hkeeps.1.entry_of_live hentry ?_⟩
      exact (TtlStore.Entry.live_iff_of_some rfl _).mpr (by omega)

/-- A later world in which the session has the same expiry and the turns are the same. -/
theorem TurnsOutlive.congr (h : TurnsOutlive cfg k turns e t w) {w' : World}
    {e' : TtlStore.Entry Hash} (hle : w.now ≤ w'.now) (hsession : w'.entry (.session k) = some e')
    (hexpires : e'.expiresAt = e.expiresAt) (hturns : w'.entry (.turns k) = w.entry (.turns k)) :
    TurnsOutlive cfg k turns e' t w' where
  session := hsession
  expiresAt := hexpires.trans h.expiresAt
  le_expiry := Nat.le_trans h.le_expiry (expiry_mono cfg hle)
  saved := by
    rw [hturns]
    exact h.saved

section Programs

variable {env : World → World → Prop}
  (hsession : ∀ w w', env w w' → World.Keeps (.session k) w w')
  (hturns : ∀ w w', env w w' → World.Keeps (.turns k) w w')
include hsession hturns

/-- A program that stays off the session and its turns. -/
theorem savedTurns_of_off {α : Type} {p : Svc α} {K : Key → Prop} (hk : ¬ K (.session k))
    (hk' : ¬ K (.turns k)) (hp : p.Only (Command.Within K)) (h : TurnsOutlive cfg k turns e t w) :
    p.Wp machine env (fun _ w' => SavedTurns cfg k turns w') w := by
  refine ((now_le (fun _ _ h => (hsession _ _ h).1.now_le) p w).and
    ((entry_of_within hsession hk hp w).and (entry_of_within hturns hk' hp w))).mono ?_
  rintro x w' ⟨hle, hsame, hsame'⟩
  exact ⟨e, t, h.congr hle (hsame.trans h.session) rfl hsame'⟩

/-- An extension of the session extends its turns after it. -/
theorem refreshTtl_savedTurns (h : TurnsOutlive cfg k turns e t w) :
    (refreshTtl cfg k).Wp machine env
      (fun x w' => (∃ session, x = .ok session) ∧ SavedTurns cfg k turns w') w := by
  refine (refreshTtl_spec hsession h.session).mono ?_
  rintro x w' ⟨hok, t₁, t₂, -, -, hle₂, hentry, hextended⟩
  obtain ⟨t₃, hle₃, -, hturns₃⟩ := hextended hturns
  refine ⟨hok, _, expiry cfg t₂, hentry, rfl, expiry_mono cfg hle₂, ?_⟩
  rw [hturns₃]
  rcases h.saved with ⟨hnil, hnone⟩ | ⟨t', -, hturns'⟩
  · exact .inl ⟨hnil, by rw [hnone]; rfl⟩
  · exact .inr ⟨expiry cfg t₃, expiry_mono cfg hle₃, by rw [hturns']; rfl⟩

/-- An extension of any session. -/
theorem refreshTtl_savedTurns_any (k' : String) (h : TurnsOutlive cfg k turns e t w) :
    (refreshTtl cfg k').Wp machine env (fun _ w' => SavedTurns cfg k turns w') w := by
  by_cases hk : k' = k
  · subst hk
    exact (refreshTtl_savedTurns hsession hturns h).mono fun _ _ h => h.2
  · have hk₁ : ¬ Key.BelongsTo k' (.session k) := fun h => hk h.symm
    have hk₂ : ¬ Key.BelongsTo k' (.turns k) := fun h => hk h.symm
    exact savedTurns_of_off hsession hturns hk₁ hk₂ (refreshTtl_within cfg k') h

/-- A first part that stays off the session and its turns. -/
theorem savedTurns_off_bind {α β : Type} {p : Svc α} {f : α → Svc β}
    {Q : Except ServiceError β → World → Prop} {K : Key → Prop} (hk : ¬ K (.session k))
    (hk' : ¬ K (.turns k)) (hp : p.Only (Command.Within K)) (h : TurnsOutlive cfg k turns e t w)
    (herror : ∀ err w₁, SavedTurns cfg k turns w₁ → Q (.error err) w₁)
    (hok : ∀ a w₁ e t, TurnsOutlive cfg k turns e t w₁ → (f a).Wp machine env Q w₁) :
    (p >>= f).Wp machine env Q w := by
  refine (savedTurns_of_off hsession hturns hk hk' hp h).bind_kept herror fun a w₁ h₁ => ?_
  obtain ⟨e₁, t₁, h₁⟩ := h₁
  exact hok a w₁ e₁ t₁ h₁

/-- A program that writes to the hash of a session only, and not to its expiry. -/
theorem savedTurns_of_kept {α : Type} {p : Svc α} {k' : String}
    (hp : p.Only (Command.Within fun key => key = .session k'))
    (hkept : k' = k → p.Wp machine env (fun _ w' => ∃ e' : TtlStore.Entry Hash,
      w'.entry (.session k) = some e' ∧ e'.expiresAt = e.expiresAt) w)
    (h : TurnsOutlive cfg k turns e t w) :
    p.Wp machine env (fun _ w' => SavedTurns cfg k turns w') w := by
  by_cases hk : k' = k
  · refine ((now_le (fun _ _ h => (hsession _ _ h).1.now_le) p w).and ((hkept hk).and
      (entry_of_within hturns (by simp) hp w))).mono ?_
    rintro x w' ⟨hle, ⟨e', he', hexpires⟩, hsame⟩
    exact ⟨e', t, h.congr hle he' hexpires hsame⟩
  · have hne : ¬ (Key.session k = .session k') := by simpa using fun h => hk h.symm
    exact savedTurns_of_off hsession hturns hne (by simp) hp h

/-! ### Requests -/

omit hturns in
/-- A request that extends neither the session nor its turns. -/
theorem Request.savedTurns_of_quiet (request : Request) (hk : ¬ request.Extends (.session k))
    (hk' : ¬ request.Extends (.turns k)) (h : TurnsOutlive cfg k turns e t w) :
    (request.program cfg).Wp machine env (fun _ w' => SavedTurns cfg k turns w') w := by
  refine Wp.of_only (I := fun w' : World => SavedTurns cfg k turns w') (request.program_writes cfg)
    ?_ ?_ ⟨e, t, h⟩
  · rintro w₁ w₂ hstep ⟨e₁, t₁, h₁⟩
    exact ⟨e₁, t₁, h₁.keeps (hsession _ _ hstep)⟩
  · rintro c w₁ hc ⟨e₁, t₁, h₁⟩
    obtain ⟨e₂, he₂, hexpires⟩ := hc.expiresAt hk h₁.session
    have hsame := World.machine_entry_of_ne (hc.changes_turns hk') w₁
    exact ⟨e₂, t₁, h₁.congr (Nat.le_of_eq (machine_now c w₁).symm) he₂ hexpires hsame⟩

/-- A rotation extends the session of the token and goes on with other keys. -/
theorem refreshToken_savedTurns (newJti : String) (token : Token)
    (h : TurnsOutlive cfg k turns e t w) :
    (AuthService.refreshToken cfg newJti token).Wp machine env
      (fun _ w' => SavedTurns cfg k turns w') w := by
  refine savedTurns_off_bind hsession hturns (K := fun _ => False) id id
    (authenticate_within token "refresh") h (fun _ _ h₁ => h₁) ?_
  rintro ⟨payload, jti, k'⟩ w₁ e₁ t₁ h₁
  refine (refreshTtl_savedTurns_any hsession hturns k' h₁).bind_kept (fun _ _ h₂ => h₂)
    fun _ w₂ h₂ => ?_
  obtain ⟨e₂, t₂, h₂⟩ := h₂
  exact savedTurns_of_off hsession hturns (by simp [Key.IsJti]) (by simp [Key.IsJti])
    (rotate_tail_within cfg newJti payload jti k') h₂

omit hturns in
/-- What a patch writes after a possible extension keeps the expiry of the session. -/
theorem patch_tail_expiresAt (request : SessionPatchRequest) (hk : request.globalSessionKey = k)
    (session : Hash) (now : ℕ) (he : w.entry (.session k) = some e) :
    (do Program.ofExcept (validatePatch request)
        registerAgent request
        let _ ← update request.globalSessionKey (patchUpdates session request now)
        issue (.eslog (patchRecord session request))
        return ({ status := "success", updatedAt := now } : SessionPatchResponse) :
          Svc SessionPatchResponse).Wp machine env (fun _ w' => ∃ e' : TtlStore.Entry Hash,
            w'.entry (.session k) = some e' ∧ e'.expiresAt = e.expiresAt) w := by
  refine wp_ofExcept_bind.mpr ?_
  cases validatePatch request with
  | error err => exact ⟨e, he, rfl⟩
  | ok u =>
    refine wp_bind.mpr ((registerAgent_leaves hsession request hk he).mono ?_)
    -- registering an agent leaves the expiry alone
    rintro x w₁ ⟨e₁, he₁, hexpires₁, -, -⟩
    cases x with
    | error err => exact ⟨e₁, he₁, hexpires₁⟩
    | ok u =>
      rw [hk]
      refine Wp.seq_ok (fun _ w₂ => ∃ e' : TtlStore.Entry Hash,
        w₂.entry (.session k) = some e' ∧ e'.expiresAt = e.expiresAt)
        ((update_spec hsession he₁ _).mono ?_) ?_
      · rintro x w₂ ⟨updated, rfl, now', hentry⟩
        exact ⟨updated, rfl, _, hentry, hexpires₁⟩
      · rintro - w₂ ⟨e₂, he₂, hexpires₂⟩
        exact look_bind hsession rfl he₂ fun _ w₃ he₃ => ⟨e₂, he₃, hexpires₂⟩

omit hsession hturns in
theorem patch_tail_within {K : Key → Prop} (request : SessionPatchRequest) (session : Hash)
    (now : ℕ) (hk : K (.session request.globalSessionKey)) :
    (do Program.ofExcept (validatePatch request)
        registerAgent request
        let _ ← update request.globalSessionKey (patchUpdates session request now)
        issue (.eslog (patchRecord session request))
        return ({ status := "success", updatedAt := now } : SessionPatchResponse) :
          Svc SessionPatchResponse).Only (Command.Within K) := by
  refine only_ofExcept.bind fun _ => (registerAgent_within request hk).bind fun _ => ?_
  exact (update_within hk _).bind fun _ => ⟨trivial, fun _ => trivial⟩

theorem refreshOnTalk_savedTurns (request : SessionPatchRequest)
    (h : TurnsOutlive cfg k turns e t w) :
    (refreshOnTalk cfg request).Wp machine env (fun _ w' => SavedTurns cfg k turns w') w := by
  unfold refreshOnTalk
  split
  · exact (refreshTtl_savedTurns_any hsession hturns _ h).bind_kept (fun _ _ h' => h')
      fun _ _ h' => h'
  · exact ⟨e, t, h⟩

/-- A patch extends the session, if at all, before everything that it writes. -/
theorem patchSessionState_savedTurns (request : SessionPatchRequest)
    (h : TurnsOutlive cfg k turns e t w) :
    (patchSessionState cfg request).Wp machine env (fun _ w' => SavedTurns cfg k turns w') w := by
  refine savedTurns_off_bind hsession hturns (K := fun _ => False) id id (only_perform.mpr trivial)
    h (fun _ _ h₁ => h₁) fun session w₁ e₁ t₁ h₁ => ?_
  cases session with
  | none => exact ⟨e₁, t₁, h₁⟩
  | some session =>
    refine savedTurns_off_bind hsession hturns (K := fun _ => False) id id
      (only_perform.mpr trivial) h₁ (fun _ _ h₂ => h₂) fun now w₂ e₂ t₂ h₂ => ?_
    refine (refreshOnTalk_savedTurns hsession hturns request h₂).bind_kept (fun _ _ h₃ => h₃)
      fun _ w₃ h₃ => ?_
    obtain ⟨e₃, t₃, h₃⟩ := h₃
    refine savedTurns_of_kept hsession hturns
      (patch_tail_within request session now rfl) (fun hk => ?_) h₃
    exact patch_tail_expiresAt hsession request hk session now h₃.session

/-- A saved turn goes to the end of the turns. -/
theorem saveApiResult_savedTurns (request : SolApiResultRequest)
    (h : TurnsOutlive cfg k turns e t w) :
    (saveApiResult cfg k request).Wp machine env (fun x w' => match x with
      | .ok turn => SavedTurns cfg k (turns ++ [turn]) w'
      | .error _ => SavedTurns cfg k turns w') w := by
  refine savedTurns_off_bind hsession hturns (K := fun _ => False) id id (only_perform.mpr trivial)
    h (fun _ _ h₁ => h₁) fun session w₁ e₁ t₁ h₁ => ?_
  cases session with
  | none => exact ⟨e₁, t₁, h₁⟩
  | some session =>
    refine savedTurns_off_bind hsession hturns (K := fun _ => False) id id
      (only_perform.mpr trivial) h₁ (fun _ _ h₂ => h₂) fun now w₂ e₂ t₂ h₂ => ?_
    have hoff : (addTurn cfg k (turnData request now)).Only
        (Command.Within fun key : Key => key = .turns k) :=
      @addContextTurn_within (fun key : Key => key = .turns k) k cfg rfl (turnData request now)
    refine Wp.seq_ok (fun _ w₃ => SavedTurns cfg k (turns ++ [turnData request now]) w₃)
      (((addTurn_spec hturns (turnData request now) w₂).and
        (entry_of_within hsession (by simp) hoff w₂)).mono ?_) fun _ w₃ h₃ => h₃
    rintro x w₃ ⟨⟨rfl, now', hle, hle', hentry⟩, hsame⟩
    refine ⟨(), rfl, e₂, t₂, hsame.trans h₂.session, h₂.expiresAt, ?_,
      .inr ⟨expiry cfg now', ?_, ?_⟩⟩
    · exact Nat.le_trans h₂.le_expiry (expiry_mono cfg (Nat.le_trans hle hle'))
    · exact Nat.le_trans h₂.le_expiry (expiry_mono cfg hle)
    · rw [hentry]
      -- the first turn makes the list
      rcases h₂.saved with ⟨hnil, hnone⟩ | ⟨t', -, hturns'⟩
      · rw [hnone, hnil]
        rfl
      · rw [hturns']
        rfl

/-- A session that is there is not created again. -/
theorem createSession_savedTurns (k' jti : String) (request : SessionCreateRequest)
    (h : TurnsOutlive cfg k turns e t w) :
    (createSession cfg k' jti request).Wp machine env
      (fun _ w' => SavedTurns cfg k turns w') w := by
  by_cases hk : k' = k
  · subst hk
    refine savedTurns_off_bind hsession hturns (by simp [Key.IsJti]) (by simp [Key.IsJti])
      (createTokens_within cfg _ k' jti) h (fun _ _ h₁ => h₁) fun tokens w₁ e₁ t₁ h₁ => ?_
    refine Wp.seq_ok (fun _ w₂ => SavedTurns cfg k' turns w₂) ?_ ?_
    · refine wp_perform_bind.mpr fun w₂ hstep => ?_
      have h₂ := h₁.keeps (hsession _ _ hstep)
      have hreply : (machine (.hgetall (createArgs request k').globalSessionKey) w₂).1 =
          some e₁.value := World.hash_of_entry h₂.session
      rw [hreply]
      exact ⟨_, rfl, e₁, t₁, h₂⟩
    · rintro - w₂ ⟨e₂, t₂, h₂⟩
      exact savedTurns_of_off hsession hturns (K := fun _ => False) id id
        (.perform_bind trivial fun _ => .perform_bind trivial fun _ => trivial) h₂
  · have hkey : ¬ (Key.session k = .session k' ∨ Key.session k = .jti jti) := by
      simpa using fun h => hk h.symm
    exact savedTurns_of_off hsession hturns
      (K := fun key : Key => key = .session k' ∨ key = .jti jti) hkey (by simp)
      (createSession_within cfg (.inl rfl) (.inr rfl) request) h

omit hsession hturns in
/-- Only a saved turn of the session is one of its turns. -/
theorem Request.turn_of_effect? {request : Request} {outcome : Except ServiceError Response}
    {turn : Json} (h : (request.effect? k outcome).bind Effect.turn? = some turn) :
    ∃ request', request = .saveApiResult k request' := by
  unfold Request.effect? at h
  split at h
  case h_4 k' request' saved =>
    by_cases hk : k' = k
    · exact ⟨request', by rw [hk]⟩
    · rw [if_neg hk] at h
      cases h
  all_goals first | (split_ifs at h <;> cases h) | cases h

/-- Every request keeps the saved turns, with the one that it saves. -/
theorem Request.keeps_turns (request : Request) (h : SavedTurns cfg k turns w) :
    (request.program cfg).Wp machine env (fun outcome w' =>
      SavedTurns cfg k (turns ++ ((request.effect? k outcome).bind Effect.turn?).toList) w') w := by
  obtain ⟨e, t, h⟩ := h
  -- only a save for this session adds to its turns
  by_cases hsave : ∃ request', request = .saveApiResult k request'
  · obtain ⟨request', rfl⟩ := hsave
    refine wp_map.mpr ((saveApiResult_savedTurns hsession hturns request' h).mono ?_)
    rintro x w' h'
    cases x with
    | error err => simpa [Request.effect?, Except.map] using h'
    | ok turn => simpa [Request.effect?, Except.map, Effect.turn?] using h'
  · have hnone (outcome : Except ServiceError Response) :
        (request.effect? k outcome).bind Effect.turn? = none := by
      cases hturn : (request.effect? k outcome).bind Effect.turn? with
      | none => rfl
      | some turn => exact absurd (Request.turn_of_effect? hturn) hsave
    simp only [hnone, Option.toList_none, List.append_nil]
    cases request with
    | createSession k' jti request =>
      exact wp_map.mpr (createSession_savedTurns hsession hturns k' jti request h)
    | refreshToken newJti token =>
      exact wp_map.mpr (refreshToken_savedTurns hsession hturns newJti token h)
    | patchSessionState request =>
      exact wp_map.mpr (patchSessionState_savedTurns hsession hturns request h)
    | saveApiResult k' request =>
      have hk : ¬ (Key.turns k = .turns k') := by
        rintro heq
        exact hsave ⟨request, by rw [Key.turns.inj heq]⟩
      exact Request.savedTurns_of_quiet hsession _ (by simp [Request.Extends]) hk h
    | verifyTokenAndGetSession | pingSessionByToken | closeSessionByToken | resolveSession
      | closeSession | updateRealtimePersonalContext =>
      exact Request.savedTurns_of_quiet hsession _ id id h

end Programs

end SessionManager
