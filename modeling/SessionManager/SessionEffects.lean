import SessionManager.AbstractSession
import SessionManager.PatchedSessions

/-!
# What a request does to the hash of a session

For every request, what it leaves in the fields of a live session's hash that the session is to
remember, in terms of the hash before it and of the request's effect on the session.

* `rememberedFields` — the fields in question.
* `Effect.writes`, `Hash.After` — what an effect writes to them, and a hash after it.
* `Leaves` — the entry of the session is one with its hash after an effect.
* `Request.leaves` — every request leaves what its effect says.
-/

namespace SessionManager

open Python Interaction
open SessionService SessionRepository RedisHelper

open Program hiding pure

/-- The fields that hold what a session remembers. -/
def rememberedFields : List Field :=
  [.sessionState, .subagentStatus, .turnIds, .agentMappings, .referenceInformation]

/-- What an effect writes to the remembered fields of hash `h`. -/
def Effect.writes (h : Hash) : Effect → Hash
  | .patch request => fun f => match f with
    | .agentMappings => registered h request
    | f => patchUpdates h request 0 f
  | .close => Hash.empty.set .sessionState (value SessionState.end_)
  | .save _ => Hash.empty

/-- The remembered fields of `h'` are those of `h` after an effect. -/
def Hash.After (effect : Option Effect) (h h' : Hash) : Prop :=
  ∀ f ∈ rememberedFields, h' f = (effect.bind fun effect => effect.writes h f).or (h f)

/-- Session `k` is live, with the hash of `e` after an effect. -/
def Leaves (k : String) (e : TtlStore.Entry Hash) (effect : Option Effect) (w : World) : Prop :=
  ∃ e', w.entry (.session k) = some e' ∧ e.value.After effect e'.value

/-- Nothing is remembered of a request without an effect, and the hash tells nothing of a saved
turn. -/
theorem Hash.after_refl (h : Hash) {effect : Option Effect}
    (heffect : effect = none ∨ ∃ turn, effect = some (.save turn)) : h.After effect h := by
  intro f _
  rcases heffect with rfl | ⟨turn, rfl⟩
  · rfl
  · rfl

/-- `expires_at` is not remembered. -/
theorem set_expiresAt_remembered (h : Hash) (t : ℕ) :
    ∀ f ∈ rememberedFields, h.set .expiresAt t f = h f := by
  intro f hf
  refine Hash.set_of_ne _ ?_ _
  rintro rfl
  exact absurd hf (by decide)

/-- `updated_at` is not remembered. -/
theorem merge_set_updatedAt (h updates : Hash) (t : ℕ) :
    ∀ f ∈ rememberedFields, h.merge (updates.set .updatedAt t) f = (updates f).or (h f) := by
  intro f hf
  have hne : f ≠ .updatedAt := by
    rintro rfl
    exact absurd hf (by decide)
  simp [Hash.merge, Hash.set_of_ne _ hne]

theorem forall_remembered {P : Field → Prop} :
    (∀ f ∈ rememberedFields, P f) ↔ P .sessionState ∧ P .subagentStatus ∧ P .turnIds ∧
      P .agentMappings ∧ P .referenceInformation := by
  simp [rememberedFields]

theorem closeUpdates_remembered (closeReason : Option String) (now : ℕ) (h : Hash) :
    ∀ f ∈ rememberedFields, closeUpdates closeReason now f = Effect.close.writes h f :=
  forall_remembered.mpr ⟨rfl, rfl, rfl, rfl, rfl⟩

theorem closeSessionUpdates_remembered (request : SessionCloseRequest) (now : ℕ) (h : Hash) :
    ∀ f ∈ rememberedFields, closeSessionUpdates request now f = Effect.close.writes h f :=
  forall_remembered.mpr ⟨rfl, rfl, rfl, rfl, rfl⟩

/-- The updates of a patch, apart from the mappings, which it registers on its own. -/
theorem patchUpdates_remembered (h : Hash) (request : SessionPatchRequest) (now : ℕ) :
    ∀ f ∈ rememberedFields, f ≠ .agentMappings →
      patchUpdates h request now f = (Effect.patch request).writes h f :=
  forall_remembered.mpr
    ⟨fun _ => rfl, fun _ => rfl, fun _ => rfl, fun hne => absurd rfl hne, fun _ => rfl⟩

theorem cusnoUpdates_remembered (cusno : String) :
    ∀ f ∈ rememberedFields, ProfileService.cusnoUpdates cusno f = none :=
  forall_remembered.mpr ⟨rfl, rfl, rfl, rfl, rfl⟩

variable {cfg : Config} {env : World → World → Prop} {k : String} {e : TtlStore.Entry Hash}
  {w : World}

/-- A session that is as before has been left without effect. -/
theorem leaves_of_entry (he : w.entry (.session k) = some e) {effect : Option Effect}
    (heffect : effect = none ∨ ∃ turn, effect = some (.save turn)) : Leaves k e effect w :=
  ⟨e, he, e.value.after_refl heffect⟩

variable (henv : ∀ w w', env w w' → World.Keeps (.session k) w w')
include henv

/-- A first part that stays off the session. -/
theorem off_bind {α β : Type} {p : Svc α} {f : α → Svc β}
    {Q : Except ServiceError β → World → Prop} {K : Key → Prop} (hkey : ¬ K (.session k))
    (hp : p.Only (Command.Within K)) (he : w.entry (.session k) = some e)
    (herror : ∀ err w₁, w₁.entry (.session k) = some e → Q (.error err) w₁)
    (hok : ∀ a w₁, w₁.entry (.session k) = some e → (f a).Wp machine env Q w₁) :
    (p >>= f).Wp machine env Q w := by
  refine wp_bind.mpr ((entry_of_within henv hkey hp w).mono fun x w₁ hsame => ?_)
  have he₁ : w₁.entry (.session k) = some e := hsame.trans he
  cases x with
  | ok a => exact hok a w₁ he₁
  | error err => exact herror err w₁ he₁

/-- A program that stays off the session leaves it without effect. -/
theorem leaves_of_off {α : Type} {p : Svc α} {K : Key → Prop} (hkey : ¬ K (.session k))
    (hp : p.Only (Command.Within K)) (he : w.entry (.session k) = some e) :
    p.Wp machine env (fun _ w' => Leaves k e none w') w :=
  (entry_of_within henv hkey hp w).mono fun _ _ hsame =>
    leaves_of_entry (hsame.trans he) (.inl rfl)

/-! ### Operations on the session itself -/

theorem refreshTtl_leaves (he : w.entry (.session k) = some e) :
    (refreshTtl cfg k).Wp machine env (fun x w' => ∃ session, x = .ok session ∧
      ∃ e', w'.entry (.session k) = some e' ∧
        ∀ f ∈ rememberedFields, e'.value f = e.value f) w := by
  refine (refreshTtl_spec henv he).mono ?_
  rintro x w' ⟨⟨session, rfl⟩, t₁, t₂, -, -, -, hentry, -⟩
  exact ⟨session, rfl, _, hentry, set_expiresAt_remembered e.value _⟩

/-- A close of the session ends it. -/
theorem update_close_leaves (he : w.entry (.session k) = some e) {updates : Hash}
    (hupdates : ∀ f ∈ rememberedFields, updates f = Effect.close.writes e.value f) :
    (update k updates).Wp machine env (fun x w' => ∃ updated, x = .ok updated ∧
      Leaves k e (some .close) w') w := by
  refine (update_spec henv he updates).mono ?_
  rintro x w' ⟨updated, rfl, now, hentry⟩
  refine ⟨updated, rfl, _, hentry, fun f hf => ?_⟩
  exact (merge_set_updatedAt e.value updates now f hf).trans (by rw [hupdates f hf]; rfl)

/-! ### The services on their own session -/

theorem closeSession_leaves (request : SessionCloseRequest)
    (hk : request.globalSessionKey = k) (he : w.entry (.session k) = some e) :
    (closeSession request).Wp machine env (fun x w' => ∃ response, x = .ok response ∧
      Leaves k e (some .close) w') w := by
  unfold closeSession
  rw [hk]
  refine hgetall_bind henv he fun w₁ he₁ => look_bind henv rfl he₁ fun now w₂ he₂ => ?_
  refine Wp.seq_ok _ (update_close_leaves henv he₂
    (closeSessionUpdates_remembered request now e.value)) ?_
  rintro updated w₃ ⟨e', he', hafter⟩
  exact look_bind henv rfl he' fun _ w₄ he₄ => ⟨_, rfl, e', he₄, hafter⟩

/-- A patch of a live session is accepted when its reference information is valid, and then does
what it says; otherwise it leaves the session without effect. -/
theorem patchSessionState_leaves (request : SessionPatchRequest)
    (hk : request.globalSessionKey = k) (he : w.entry (.session k) = some e) :
    (patchSessionState cfg request).Wp machine env (fun x w' => match x with
      | .ok _ => Leaves k e (some (.patch request)) w' ∧ validatePatch request = .ok ()
      | .error _ => Leaves k e none w' ∧
          (validatePatch request = .ok () → ¬ MappingsOk e.value)) w := by
  refine (patchSessionState_spec henv request hk he).mono ?_
  rintro x w' ⟨t, e', he', hend⟩
  cases x with
  | error err =>
    obtain ⟨hrefused, hsame⟩ := hend
    refine ⟨⟨e', he', fun f hf => hsame f ?_⟩, fun hvalid hok =>
      hrefused hvalid (hok.registers request)⟩
    rintro rfl
    exact absurd hf (by decide)
  | ok response =>
    obtain ⟨hvalid, -, now, t', hpatched⟩ := hend
    refine ⟨⟨e', he', fun f hf => ?_⟩, hvalid⟩
    rw [hpatched]
    -- the mappings are written apart from the other fields
    by_cases hmap : f = .agentMappings
    · subst hmap
      rfl
    · have hne : f ≠ .updatedAt ∧ f ≠ .expiresAt ∧ f ≠ .agentMappings := by
        refine ⟨?_, ?_, hmap⟩ <;> rintro rfl <;> exact absurd hf (by decide)
      rw [patched_of_ne cfg request t now t' e.value hne,
        patchUpdates_remembered e.value request now f hf hmap]
      rfl

/-- Extending any session leaves this one without effect. -/
theorem refreshTtl_leaves_any (k' : String) (he : w.entry (.session k) = some e) :
    (refreshTtl cfg k').Wp machine env (fun _ w' => ∃ e', w'.entry (.session k) = some e' ∧
      ∀ f ∈ rememberedFields, e'.value f = e.value f) w := by
  by_cases hk : k' = k
  · subst hk
    refine (refreshTtl_leaves henv he).mono ?_
    rintro x w' ⟨session, -, h⟩
    exact h
  · have hkey : ¬ Key.BelongsTo k' (.session k) := fun h => hk h.symm
    refine (entry_of_within henv hkey (refreshTtl_within cfg k') w).mono fun x w' hsame => ?_
    exact ⟨e, hsame.trans he, fun _ _ => rfl⟩

theorem refreshToken_leaves (newJti : String) (token : Token)
    (he : w.entry (.session k) = some e) :
    (AuthService.refreshToken cfg newJti token).Wp machine env
      (fun _ w' => Leaves k e none w') w := by
  refine off_bind henv (K := fun _ => False) id (authenticate_within token "refresh") he
    (fun _ _ he₁ => leaves_of_entry he₁ (.inl rfl)) ?_
  rintro ⟨payload, jti, k'⟩ w₁ he₁
  refine Wp.seq (fun _ w₂ => ∃ e', w₂.entry (.session k) = some e' ∧
    ∀ f ∈ rememberedFields, e'.value f = e.value f)
    ((refreshTtl_leaves_any henv k' he₁).mono ?_) ?_
  · rintro x w₂ h
    cases x with
    | ok session => exact h
    | error err => exact h
  · rintro - w₂ ⟨e', he₂, hsame⟩
    -- what follows only reads the clock, writes mappings of `jti`s and logs
    refine (entry_of_within henv (by simp [Key.IsJti])
      (rotate_tail_within cfg newJti payload jti k') w₂).mono fun x w₃ hentry => ?_
    exact ⟨e', hentry.trans he₂, hsame⟩

omit henv in
theorem jtiToDelete_returns (token : Token) (w : World) :
    (AuthService.jtiToDelete token).Wp machine env (fun x _ => ∃ jti, x = .ok jti) w := by
  cases token with
  | invalid text => exact ⟨none, rfl⟩
  | signed payload =>
    refine wp_perform_bind.mpr fun w₁ _ => ?_
    cases checkClaims payload (machine .now w₁).1 <;> exact ⟨_, rfl⟩

omit henv in
theorem deleteJti_returns (jti : Option String) (w : World) :
    (AuthService.deleteJti jti).Wp machine env (fun x _ => ∃ u, x = .ok u) w := by
  cases jti with
  | none => exact ⟨(), rfl⟩
  | some jti => exact fun _ _ => ⟨(), rfl⟩

/-- The end of a close by a token deletes a mapping and returns. -/
theorem closeByToken_tail (token : Token) (k' : String) (closeReason : Option String) (now : ℕ)
    (he : w.entry (.session k) = some e) :
    (do let jti ← AuthService.jtiToDelete token
        AuthService.deleteJti jti
        issue (.eslog (AuthService.closeByTokenRecord k' jti closeReason now))
        return closeResponse k' now : Svc SessionCloseResponse).Wp machine env
      (fun x w' => x = .ok (closeResponse k' now) ∧ w'.entry (.session k) = some e) w := by
  have hkey : ¬ Key.IsJti (.session k) := by simp [Key.IsJti]
  refine Wp.seq_ok (fun _ w₁ => w₁.entry (.session k) = some e) ?_ ?_
  · refine ((jtiToDelete_returns token w).and
      (entry_of_within henv hkey (jtiToDelete_within token) w)).mono ?_
    rintro x w₁ ⟨⟨jti, rfl⟩, hsame⟩
    exact ⟨jti, rfl, hsame.trans he⟩
  · intro jti w₁ he₁
    refine Wp.seq_ok (fun _ w₂ => w₂.entry (.session k) = some e) ?_ ?_
    · refine ((deleteJti_returns jti w₁).and
        (entry_of_within henv hkey (deleteJti_within jti) w₁)).mono ?_
      rintro x w₂ ⟨⟨u, rfl⟩, hsame⟩
      exact ⟨u, rfl, hsame.trans he₁⟩
    · exact fun _ w₂ he₂ => look_bind henv rfl he₂ fun _ w₃ he₃ => ⟨rfl, he₃⟩

/-- A close by a token ends the session that its response names. -/
theorem closeSessionByToken_leaves (token : Token) (closeReason : Option String)
    (he : w.entry (.session k) = some e) :
    (AuthService.closeSessionByToken token closeReason).Wp machine env (fun x w' => match x with
      | .ok response => Leaves k e
          (if response.archivedConversationId = archivedId k then some .close else none) w'
      | .error _ => Leaves k e none w') w := by
  refine off_bind henv (K := fun _ => False) id (getGlobalSessionKeyFromToken_within token) he
    (fun _ _ he₁ => leaves_of_entry he₁ (.inl rfl)) fun k' w₁ he₁ => ?_
  refine look_bind henv rfl he₁ fun session w₂ he₂ => ?_
  cases session with
  | none => exact leaves_of_entry he₂ (.inl rfl)
  | some session =>
    refine look_bind henv rfl he₂ fun now w₃ he₃ => ?_
    -- the update ends session `k` or is one of another session
    refine Wp.seq (fun _ w₄ => Leaves k e (if k' = k then some .close else none) w₄) ?_ ?_
    · by_cases hk : k' = k
      · subst hk
        refine (update_close_leaves henv he₃ (closeUpdates_remembered closeReason now _)).mono ?_
        rintro x w₄ ⟨updated, rfl, hleaves⟩
        rwa [if_pos rfl]
      · have hoff : (update k' (closeUpdates closeReason now)).Only
            (Command.Within fun key : Key => key = .session k') :=
          @update_within (fun key : Key => key = .session k') k' rfl _
        have hkey : ¬ (Key.session k = .session k') := by simpa using fun h => hk h.symm
        refine (entry_of_within henv hkey hoff w₃).mono ?_
        intro x w₄ hsame
        have hleaves : Leaves k e none w₄ := leaves_of_entry (hsame.trans he₃) (.inl rfl)
        cases x with
        | ok updated => rwa [if_neg hk]
        | error err => exact hleaves
    · rintro - w₄ ⟨e', he₄, hafter⟩
      refine (closeByToken_tail henv token k' closeReason now he₄).mono ?_
      rintro x w₅ ⟨rfl, he₅⟩
      refine ⟨e', he₅, ?_⟩
      simpa [closeResponse, archivedId] using hafter

omit henv in
theorem setProfile_isProfile (cfg : Config) {key : Key} (hkey : key.IsProfile)
    (profile : key.Value) (ttl : Option ℕ) :
    (setProfile cfg key profile ttl).Only (Command.Within Key.IsProfile) := by
  refine setProfile_within cfg hkey ?_ profile ttl
  rintro k' rfl
  exact hkey

omit henv in
/-- What is stored once the customer number is set. -/
theorem storeBatch_isProfile (cusno : String) (profileData : Dict)
    (batch : Except ServiceError (Option Dict)) :
    (do setRealtimeProfile cfg cusno profileData
        let batch ← Program.ofExcept batch
        ProfileService.storeBatchProfile cfg cusno batch
        return batch : Svc (Option Dict)).Only (Command.Within Key.IsProfile) := by
  refine (@setProfile_isProfile cfg (.realtimeProfile cusno) trivial _ _).bind fun _ => ?_
  refine only_ofExcept.bind fun batch => ?_
  unfold ProfileService.storeBatchProfile
  split
  · refine (@setProfile_isProfile cfg (.batchProfile cusno) trivial _ _).bind fun _ => ?_
    trivial
  · trivial

theorem storeProfiles_leaves (lookup : ProfileService.BatchLookup) (profileData : Dict)
    (cusno : Option String) (he : w.entry (.session k) = some e) :
    (ProfileService.storeProfiles cfg lookup k profileData cusno).Wp machine env
      (fun _ w' => Leaves k e none w') w := by
  have hkey : ¬ Key.IsProfile (.session k) := id
  cases cusno with
  | none =>
    refine leaves_of_off henv hkey ?_ he
    exact (@setProfile_isProfile cfg (.realtimeProfile k) trivial _ _).bind fun _ => trivial
  | some cusno =>
    -- the update sets `cusno`, the rest stays off the session
    refine Wp.seq_ok (fun _ w₁ => Leaves k e none w₁)
      ((update_spec henv he (ProfileService.cusnoUpdates cusno)).mono ?_) ?_
    · rintro x w₁ ⟨updated, rfl, now, hentry⟩
      refine ⟨updated, rfl, _, hentry, fun f hf => ?_⟩
      refine (merge_set_updatedAt e.value _ now f hf).trans ?_
      rw [cusnoUpdates_remembered cusno f hf]
      rfl
    · rintro - w₁ ⟨e', he₁, hafter⟩
      refine (entry_of_within henv hkey
        (storeBatch_isProfile cusno profileData (lookup cusno)) w₁).mono fun x w₂ hsame => ?_
      exact ⟨e', hsame.trans he₁, hafter⟩

/-- The update of the profiles sets no remembered field. -/
theorem updateRealtimePersonalContext_leaves (lookup : ProfileService.BatchLookup) (k' : String)
    (profileData : Dict) (he : w.entry (.session k) = some e) :
    (ProfileService.updateRealtimePersonalContext cfg lookup k' profileData).Wp machine env
      (fun _ w' => Leaves k e none w') w := by
  by_cases hk : k' = k
  · subst hk
    refine hgetall_bind henv he fun w₁ he₁ => wp_ofExcept_bind.mpr ?_
    cases ProfileService.cusnoOf profileData with
    | error err => exact leaves_of_entry he₁ (.inl rfl)
    | ok cusno =>
      refine Wp.seq (fun _ w₂ => Leaves k' e none w₂)
        ((storeProfiles_leaves henv lookup profileData cusno he₁).mono ?_) ?_
      · rintro x w₂ h
        cases x <;> exact h
      · rintro batch w₂ ⟨e', he₂, hafter⟩
        refine look_bind henv rfl he₂ fun _ w₃ he₃ => look_bind henv rfl he₃ fun _ w₄ he₄ => ?_
        exact ⟨e', he₄, hafter⟩
  · have hkey : ¬ Key.BelongsTo k' (.session k) := fun h => hk h.symm
    exact leaves_of_off henv hkey
      (ProfileService.updateRealtimePersonalContext_within cfg lookup k' profileData) he

/-- A session that is there is not created again. -/
theorem createSession_leaves (k' jti : String) (request : SessionCreateRequest)
    (he : w.entry (.session k) = some e) :
    (createSession cfg k' jti request).Wp machine env (fun _ w' => Leaves k e none w') w := by
  by_cases hk : k' = k
  · subst hk
    refine off_bind henv (by simp [Key.IsJti]) (createTokens_within cfg _ k' jti) he
      (fun _ _ he₁ => leaves_of_entry he₁ (.inl rfl)) fun tokens w₁ he₁ => ?_
    refine Wp.seq_ok (fun _ w₂ => w₂.entry (.session k') = some e) ?_ ?_
    · exact hgetall_bind henv he₁ fun w₂ he₂ => ⟨_, rfl, he₂⟩
    · exact fun _ w₂ he₂ => look_bind henv rfl he₂ fun _ w₃ he₃ =>
        look_bind henv rfl he₃ fun _ w₄ he₄ => leaves_of_entry he₄ (.inl rfl)
  · have hkey : ¬ (Key.session k = .session k' ∨ Key.session k = .jti jti) := by
      simpa using fun h => hk h.symm
    exact leaves_of_off henv (K := fun key : Key => key = .session k' ∨ key = .jti jti) hkey
      (createSession_within cfg (.inl rfl) (.inr rfl) request) he

/-! ### Requests -/

omit henv in
/-- A saved turn is for its session only. -/
theorem saveApiResult_effect (k k' : String) (request : SolApiResultRequest) (turn : Json) :
    (Request.saveApiResult k' request).effect? k (.ok (.saved turn)) = none ∨
      ∃ saved, (Request.saveApiResult k' request).effect? k (.ok (.saved turn)) =
        some (.save saved) := by
  by_cases hk : k' = k
  · exact .inr ⟨turn, if_pos hk⟩
  · exact .inl (if_neg hk)

/-- Every request leaves a live session as its effect says: one that fails, that is for another
session or that only extends lifetimes leaves what the session remembers unchanged. -/
theorem Request.leaves (request : Request) (he : w.entry (.session k) = some e) :
    (request.program cfg).Wp machine env
      (fun outcome w' => Leaves k e (request.effect? k outcome) w') w := by
  cases request with
  | createSession k' jti request =>
    refine wp_map.mpr ((createSession_leaves henv k' jti request he).mono fun x w' h => ?_)
    cases x <;> exact h
  | verifyTokenAndGetSession token =>
    refine wp_map.mpr ((leaves_of_off henv (K := fun _ => False) id
      (AuthService.verifyTokenAndGetSession_within token) he).mono fun x w' h => ?_)
    cases x <;> exact h
  | refreshToken newJti token =>
    refine wp_map.mpr ((refreshToken_leaves henv newJti token he).mono fun x w' h => ?_)
    cases x <;> exact h
  | pingSessionByToken token =>
    refine wp_map.mpr ((leaves_of_off henv (K := fun _ => False) id
      (AuthService.pingSessionByToken_within token) he).mono fun x w' h => ?_)
    cases x <;> exact h
  | closeSessionByToken token closeReason =>
    refine wp_map.mpr
      ((closeSessionByToken_leaves henv token closeReason he).mono fun x w' h => ?_)
    cases x <;> exact h
  | resolveSession request =>
    refine wp_map.mpr ((leaves_of_off henv (K := fun _ => False) id
      (resolveSession_within request) he).mono fun x w' h => ?_)
    cases x <;> exact h
  | patchSessionState request =>
    refine wp_map.mpr ?_
    by_cases hk : request.globalSessionKey = k
    · refine (patchSessionState_leaves henv request hk he).mono fun x w' h => ?_
      cases x with
      | error err => exact h.1
      | ok response =>
        have heffect : (Request.patchSessionState request).effect? k
            (Except.map Response.patched (.ok response)) = some (.patch request) := if_pos hk
        rw [heffect]
        exact h.1
    · have hkey : ¬ Key.BelongsTo request.globalSessionKey (.session k) := fun h => hk h.symm
      refine (leaves_of_off henv hkey (patchSessionState_within cfg request) he).mono
        fun x w' h => ?_
      cases x with
      | error err => exact h
      | ok response =>
        have heffect : (Request.patchSessionState request).effect? k
            (Except.map Response.patched (.ok response)) = none := if_neg hk
        rwa [heffect]
  | closeSession request =>
    refine wp_map.mpr ?_
    by_cases hk : request.globalSessionKey = k
    · refine (closeSession_leaves henv request hk he).mono fun x w' h => ?_
      obtain ⟨response, rfl, h⟩ := h
      have heffect : (Request.closeSession request).effect? k
          (Except.map Response.closed (.ok response)) = some .close := if_pos hk
      rwa [heffect]
    · have hkey : ¬ Key.BelongsTo request.globalSessionKey (.session k) := fun h => hk h.symm
      refine (leaves_of_off henv hkey (closeSession_within request) he).mono fun x w' h => ?_
      cases x with
      | error err => exact h
      | ok response =>
        have heffect : (Request.closeSession request).effect? k
            (Except.map Response.closed (.ok response)) = none := if_neg hk
        rwa [heffect]
  | saveApiResult k' request =>
    -- a saved result goes to the turns, which are not part of the hash
    have hturns : (SessionService.saveApiResult cfg k' request).Only
        (Command.Within fun key : Key => key = .turns k') :=
      @saveApiResult_within cfg (fun key : Key => key = .turns k') k' rfl request
    refine wp_map.mpr ((entry_of_within henv (by simp) hturns w).mono fun x w' hsame => ?_)
    refine leaves_of_entry (hsame.trans he) ?_
    cases x with
    | error err => exact .inl rfl
    | ok turn => exact saveApiResult_effect k k' request turn
  | updateRealtimePersonalContext lookup k' profileData =>
    refine wp_map.mpr
      ((updateRealtimePersonalContext_leaves henv lookup k' profileData he).mono fun x w' h => ?_)
    cases x <;> exact h

end SessionManager
