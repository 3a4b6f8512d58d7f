import SessionManager.SessionSpecs

/-!
# What a patch does to the hash of a session

`patch_session_state` of a session that does not expire meanwhile, field by field.

* `registered` — the agent mappings that a patch registers.
* `patched` — the hash that an accepted patch leaves of the one before it, at given instants.
* `patchSessionState_spec` — an accepted patch leaves that hash; a refused one has extended the
  session at most.
-/

namespace SessionManager

open Python Interaction
open SessionService SessionRepository RedisHelper

open Program hiding pure

/-- The agent mappings that a patch registers on top of the stored ones. -/
def registered (h : Hash) (request : SessionPatchRequest) : Option Json :=
  (newMapping request).bind fun (agentId, agentSessionKey, agentType) =>
    (withMapping (h .agentMappings) agentId agentSessionKey agentType).toOption.map .obj

theorem registered_of_none {request : SessionPatchRequest} (h : Hash)
    (hnew : newMapping request = none) : registered h request = none := by
  unfold registered
  rw [hnew]
  rfl

theorem registered_of_ok {h : Hash} {request : SessionPatchRequest}
    {agentId agentSessionKey agentType : String} {mappings : Dict}
    (hnew : newMapping request = some (agentId, agentSessionKey, agentType))
    (hmappings : withMapping (h .agentMappings) agentId agentSessionKey agentType = .ok mappings) :
    registered h request = some (.obj mappings) := by
  unfold registered
  rw [hnew]
  show (withMapping (h .agentMappings) agentId agentSessionKey agentType).toOption.map _ = _
  rw [hmappings]
  rfl

/-- The hash that a patch leaves of `h`: the instants are those at which it extends the session, at
which it computes its updates and at which it writes them. -/
def patched (cfg : Config) (request : SessionPatchRequest) (extendedAt now updatedAt : ℕ)
    (h : Hash) : Hash
  | .updatedAt => some updatedAt
  | .expiresAt =>
    if request.sessionState = some .talk then some (expiry cfg extendedAt) else h .expiresAt
  | .agentMappings => (registered h request).or (h .agentMappings)
  | f => (patchUpdates h request now f).or (h f)

/-- The other fields are those of the `updates`. -/
theorem patched_of_ne (cfg : Config) (request : SessionPatchRequest) (t now t' : ℕ) (h : Hash)
    {f : Field} (hf : f ≠ .updatedAt ∧ f ≠ .expiresAt ∧ f ≠ .agentMappings) :
    patched cfg request t now t' h f = (patchUpdates h request now f).or (h f) := by
  obtain ⟨hupdated, hexpires, hmappings⟩ := hf
  cases f <;> first | contradiction | rfl

/-- A patch to any other state, or to none, extends nothing. -/
theorem refreshOnTalk_of_ne (cfg : Config) {request : SessionPatchRequest}
    (htalk : request.sessionState ≠ some .talk) : refreshOnTalk cfg request = .pure () := by
  unfold refreshOnTalk
  split
  · rename_i heq
    exact absurd heq htalk
  · rfl

variable {cfg : Config} {env : World → World → Prop} {k : String} {e : TtlStore.Entry Hash}
  {w : World} (henv : ∀ w w', env w w' → World.Keeps (.session k) w w')
include henv

/-- A look at the store, from which the session comes out as it was. -/
theorem look_bind {α : Type} {c : Command} {f : c.Reply → Svc α}
    {Q : Except ServiceError α → World → Prop} (hc : c.changes = none)
    (he : w.entry (.session k) = some e)
    (hf : ∀ reply w₁, w₁.entry (.session k) = some e → (f reply).Wp machine env Q w₁) :
    (issue c >>= f).Wp machine env Q w := by
  refine wp_perform_bind.mpr fun w₁ h₁ => hf _ _ ?_
  rw [World.machine_entry_of_ne (by simp [hc]), (henv _ _ h₁).entry]
  exact he

/-- The look at the session itself finds it. -/
theorem hgetall_bind {α : Type} {f : Option Hash → Svc α}
    {Q : Except ServiceError α → World → Prop} (he : w.entry (.session k) = some e)
    (hf : ∀ w₁, w₁.entry (.session k) = some e → (f (some e.value)).Wp machine env Q w₁) :
    (issue (.hgetall k) >>= f).Wp machine env Q w := by
  refine wp_perform_bind.mpr fun w₁ h₁ => ?_
  have he₁ : w₁.entry (.session k) = some e := (henv _ _ h₁).entry.trans he
  have hreply : (machine (.hgetall k) w₁).1 = some e.value := World.hash_of_entry he₁
  rw [hreply]
  exact hf _ he₁

/-- The extension of a session by a patch to `talk`. -/
theorem refreshOnTalk_spec (request : SessionPatchRequest) (hk : request.globalSessionKey = k)
    (he : w.entry (.session k) = some e) :
    (refreshOnTalk cfg request).Wp machine env (fun x w' => ∃ u, x = .ok u ∧ ∃ t e',
      w'.entry (.session k) = some e' ∧
      e'.value .expiresAt = (if request.sessionState = some .talk then some (expiry cfg t)
        else e.value .expiresAt) ∧
      ∀ f, f ≠ .expiresAt → e'.value f = e.value f) w := by
  by_cases htalk : request.sessionState = some .talk
  · unfold refreshOnTalk
    rw [htalk, hk]
    refine Wp.seq_ok (fun _ w₁ => ∃ t exp,
      w₁.entry (.session k) = some ⟨e.value.set .expiresAt (expiry cfg t), exp⟩)
      ((refreshTtl_spec henv he).mono ?_) ?_
    · rintro x w₁ ⟨⟨session, rfl⟩, t, t', -, -, -, hentry, -⟩
      exact ⟨session, rfl, t, _, hentry⟩
    · rintro session w₁ ⟨t, exp, hentry⟩
      refine ⟨(), rfl, t, _, hentry, ?_, fun f hf => Hash.set_of_ne _ hf _⟩
      rw [if_pos rfl]
      exact Hash.set_self e.value .expiresAt (expiry cfg t)
  · rw [refreshOnTalk_of_ne cfg htalk]
    exact ⟨(), rfl, 0, e, he, (if_neg htalk).symm, fun _ _ => rfl⟩

/-- The stored mappings are missing or an object, as every write of the code leaves them. -/
def MappingsOk (h : Hash) : Prop := ∀ stored, h .agentMappings = some stored → ∃ m, stored = .obj m

omit henv in
theorem withMapping_returns {h : Hash} (hmappings : MappingsOk h)
    (agentId agentSessionKey agentType : String) :
    ∃ mappings,
      withMapping (h .agentMappings) agentId agentSessionKey agentType = .ok mappings := by
  cases hstored : h .agentMappings with
  | none => exact ⟨_, rfl⟩
  | some stored =>
    obtain ⟨m, rfl⟩ := hmappings stored hstored
    exact ⟨_, rfl⟩

/-- The mapping of the request, if it has one, can be registered in the stored mappings. -/
def Registers (h : Hash) (request : SessionPatchRequest) : Prop :=
  ∀ agentId agentSessionKey agentType,
    newMapping request = some (agentId, agentSessionKey, agentType) →
    ∃ mappings, withMapping (h .agentMappings) agentId agentSessionKey agentType = .ok mappings

omit henv in
/-- Mappings as the code leaves them take every other one. -/
theorem MappingsOk.registers {h : Hash} (hmappings : MappingsOk h)
    (request : SessionPatchRequest) : Registers h request :=
  fun agentId agentSessionKey agentType _ =>
    withMapping_returns hmappings agentId agentSessionKey agentType

/-- The registration of an agent changes the mappings, or nothing when they do not take it. -/
theorem registerAgent_leaves (request : SessionPatchRequest)
    (hk : request.globalSessionKey = k) (he : w.entry (.session k) = some e) :
    (registerAgent request).Wp machine env (fun x w' => ∃ e', w'.entry (.session k) = some e' ∧
      e'.expiresAt = e.expiresAt ∧ (∀ f, f ≠ .agentMappings → e'.value f = e.value f) ∧
      match x with
      | .ok _ => Registers e.value request ∧ e'.value .agentMappings =
          (registered e.value request).or (e.value .agentMappings)
      | .error _ => ¬ Registers e.value request ∧
          e'.value .agentMappings = e.value .agentMappings) w := by
  unfold registerAgent registered
  cases hnew : newMapping request with
  | none =>
    refine ⟨e, he, rfl, fun _ _ => rfl, fun agentId agentSessionKey agentType h => ?_, rfl⟩
    rw [hnew] at h
    cases h
  | some mapping =>
    obtain ⟨agentId, agentSessionKey, agentType⟩ := mapping
    dsimp only
    rw [hk]
    -- the stored value may be no object, and then nothing is written
    cases hmappings : withMapping (e.value .agentMappings) agentId agentSessionKey agentType with
    | error err =>
      refine hgetall_bind henv he fun w₁ he₁ => ?_
      dsimp only
      rw [hmappings]
      refine ⟨e, he₁, rfl, fun _ _ => rfl, fun hregisters => ?_, rfl⟩
      obtain ⟨mappings, hm⟩ := hregisters agentId agentSessionKey agentType hnew
      rw [hm] at hmappings
      cases hmappings
    | ok mappings =>
      refine (setLocalMapping_spec henv he hmappings).mono ?_
      rintro x w' ⟨rfl, hentry⟩
      refine ⟨_, hentry, rfl, fun f hf => ?_, fun agentId' agentSessionKey' agentType' h => ?_, ?_⟩
      · exact Hash.merge_of_none (Hash.set_of_ne Hash.empty hf _)
      · rw [hnew] at h
        cases h
        exact ⟨mappings, hmappings⟩
      · simp [Hash.merge, mappingUpdate, hmappings, Except.toOption]

/-- What a patch leaves of a live session: an accepted one the hash `patched`; a refused one, with
its updates invalid or a mapping that cannot be registered, what extending the session leaves. -/
theorem patchSessionState_spec (request : SessionPatchRequest)
    (hk : request.globalSessionKey = k) (he : w.entry (.session k) = some e) :
    (patchSessionState cfg request).Wp machine env (fun x w' => ∃ t e',
      w'.entry (.session k) = some e' ∧ match x with
      | .ok _ => validatePatch request = .ok () ∧ Registers e.value request ∧
          ∃ now t', e'.value = patched cfg request t now t' e.value
      | .error _ => (validatePatch request = .ok () → ¬ Registers e.value request) ∧
          ∀ f, f ≠ .expiresAt → e'.value f = e.value f) w := by
  unfold patchSessionState
  rw [hk]
  refine hgetall_bind henv he fun w₁ he₁ => look_bind henv rfl he₁ fun now w₂ he₂ => ?_
  refine Wp.seq_ok _ (refreshOnTalk_spec henv request hk he₂) ?_
  rintro - w₃ ⟨t, e₃, he₃, hexpires₃, hsame₃⟩
  have hstored : e₃.value .agentMappings = e.value .agentMappings := hsame₃ _ (by decide)
  refine wp_ofExcept_bind.mpr ?_
  cases hvalid : validatePatch request with
  | error err => exact ⟨t, e₃, he₃, fun h => absurd h (by simp), hsame₃⟩
  | ok u =>
    have hregisters : Registers e₃.value request ↔ Registers e.value request := by
      unfold Registers
      rw [hstored]
    refine wp_bind.mpr ((registerAgent_leaves henv request hk he₃).mono ?_)
    rintro x w₄ ⟨e₄, he₄, -, hsame₄, hend₄⟩
    cases x with
    | error err =>
      obtain ⟨hrefused, hmappings⟩ := hend₄
      refine ⟨t, e₄, he₄, fun _ h => hrefused (hregisters.mpr h), fun f hf => ?_⟩
      by_cases hne : f = .agentMappings
      · subst hne
        exact hmappings.trans hstored
      · exact (hsame₄ f hne).trans (hsame₃ f hf)
    | ok u =>
      obtain ⟨htaken, hmappings⟩ := hend₄
      have hregistered : registered e₃.value request = registered e.value request := by
        unfold registered
        rw [hstored]
      -- the final update is computed from the hash that was read first
      refine Wp.seq_ok (fun _ w₅ => ∃ t' exp, w₅.entry (.session k) =
          some ⟨e₄.value.merge ((patchUpdates e.value request now).set .updatedAt t'), exp⟩)
        ((update_spec henv he₄ (patchUpdates e.value request now)).mono ?_) ?_
      · rintro x w₅ ⟨updated, rfl, t', hentry⟩
        exact ⟨updated, rfl, t', _, hentry⟩
      · rintro - w₅ ⟨t', exp, he₅⟩
        refine look_bind henv rfl he₅ fun _ w₆ he₆ =>
          ⟨t, _, he₆, rfl, hregisters.mp htaken, now, t', ?_⟩
        funext f
        show ((patchUpdates e.value request now).set .updatedAt t' f).or (e₄.value f) = _
        by_cases hupdated : f = .updatedAt
        · subst hupdated
          rw [Hash.set_self]
          rfl
        rw [Hash.set_of_ne _ hupdated]
        by_cases hmap : f = .agentMappings
        · subst hmap
          show (none : Option Json).or _ = _
          rw [Option.none_or, hmappings, hregistered, hstored]
          rfl
        rw [hsame₄ f hmap]
        by_cases hexp : f = .expiresAt
        · subst hexp
          show (none : Option ℕ).or _ = _
          rw [Option.none_or, hexpires₃]
          rfl
        rw [hsame₃ f hexp, patched_of_ne cfg request t now t' e.value ⟨hupdated, hexp, hmap⟩]

end SessionManager
