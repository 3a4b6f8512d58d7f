import SessionManager.Exceptions
import SessionManager.Footprint
import SessionManager.Instants
import SessionManager.PatchedSessions
import SessionManager.TokenRotation

/-!
# Patches that are refused

A patch is refused with `SessionNotFoundError`, or with the 400 of the check of its reference
information. That check comes after the extension of a session that the patch brings to `talk`.

* `Refusal`, `ChangesNothing` — the errors in question, and that the whole store is as before.
* `ExtendsUnchecked` — the patches that extend a session and are refused then.
* `patchSessionState_refused_iff` — the others are the patches that change nothing.
-/

namespace SessionManager

open Python Interaction
open SessionService SessionRepository RedisHelper

namespace RejectedPatches

open Program hiding pure

/-- The patch is refused: there is no session, or its reference information is malformed. -/
def Refusal (request : SessionPatchRequest) (e : ServiceError) : Prop :=
  e = .sessionManager (sessionNotFoundError request.globalSessionKey) ∨
    ∃ detail, e = .http 400 detail

/-- Whenever the patch is refused, the store is as before, with every expiry. -/
def ChangesNothing (cfg : Config) (request : SessionPatchRequest) (w : World) : Prop :=
  ∀ e w', (patchSessionState cfg request).Exec machine World.Elapses w (.error e) w' →
    Refusal request e → w'.store = w.store

/-- The patch brings a live session to `talk` with reference information that is malformed. -/
def ExtendsUnchecked (request : SessionPatchRequest) (w : World) : Prop :=
  (w.hash request.globalSessionKey).isSome ∧ request.sessionState = some .talk ∧
    validatePatch request ≠ .ok ()

instance (request : SessionPatchRequest) (w : World) : Decidable (ExtendsUnchecked request w) :=
  inferInstanceAs (Decidable (_ ∧ _ ∧ _))

variable {cfg : Config} {request : SessionPatchRequest}

/-- The check answers 400. -/
theorem validatePatch_error {e : ServiceError} (h : validatePatch request = .error e) :
    ∃ detail, e = .http 400 detail := by
  unfold validatePatch at h
  cases hnew : newReference request with
  | none =>
    rw [hnew] at h
    cases h
  | some refInfo =>
    rw [hnew] at h
    replace h : validateReferenceInformation refInfo = .error e := h
    unfold validateReferenceInformation at h
    dsimp only at h
    split_ifs at h
    · exact ⟨_, (Except.error.inj h).symm⟩
    · exact ⟨_, (Except.error.inj h).symm⟩

/-! ### A checked patch -/

/-- A patch whose reference information is well formed raises a `TypeError` at most, once it has
found the session. -/
theorem checked_raises (hvalid : validatePatch request = .ok ()) (session : Hash) :
    (do let now ← issue .now
        refreshOnTalk cfg request
        Program.ofExcept (validatePatch request)
        registerAgent request
        let _ ← SessionRepository.update request.globalSessionKey
          (patchUpdates session request now)
        issue (.eslog (patchRecord session request))
        return { status := "success", updatedAt := now } : Svc SessionPatchResponse).Raises
      (· = .type) := by
  have hextends : (refreshOnTalk cfg request).Raises (· = ServiceError.type) := by
    unfold refreshOnTalk
    split
    · exact refreshTtl_raises.bind fun _ => trivial
    · trivial
  have hregisters : (registerAgent request).Raises (· = ServiceError.type) := by
    unfold registerAgent
    split
    · exact setLocalMapping_raises (R := (· = ServiceError.type)) rfl _ _ _
    · trivial
  -- with the check out of the way, only a stored value of a wrong type is left
  refine .perform_bind fun now => hextends.bind fun _ => ?_
  rw [hvalid]
  refine Raises.bind trivial fun _ => hregisters.bind fun _ => (update_raises _).bind fun _ => ?_
  exact .perform_bind fun _ => trivial

/-- A patch that does not extend a session before its check changes nothing when it is refused. -/
theorem changesNothing {w : World} (h : ¬ ExtendsUnchecked request w) :
    ChangesNothing cfg request w := by
  suffices hwp : (patchSessionState cfg request).Wp machine World.Elapses
      (fun x w' => ∀ e, x = .error e → Refusal request e → w'.store = w.store) w from
    fun e w' hexec => hwp.exec hexec e rfl
  refine wp_perform_bind.mpr fun w₁ h₁ => ?_
  have hsame₁ : w₁.store = w.store := h₁.store_eq
  cases hfound : w₁.hash request.globalSessionKey with
  | none =>
    have hreply : (machine (.hgetall request.globalSessionKey) w₁).1 = none := hfound
    rw [hreply]
    exact fun _ _ _ => hsame₁
  | some session =>
    have hreply : (machine (.hgetall request.globalSessionKey) w₁).1 = some session := hfound
    have hlive : w.hash request.globalSessionKey = some session := h₁.get hfound
    rw [hreply]
    by_cases hvalid : validatePatch request = .ok ()
    · rw [wp_iff_exec]
      rintro x w' hexec e rfl hrefusal
      -- past the check nothing is refused any more
      obtain rfl : e = .type := (checked_raises hvalid session).exec hexec
      rcases hrefusal with heq | ⟨detail, heq⟩ <;> cases heq
    · have htalk : request.sessionState ≠ some .talk := fun htalk =>
        h ⟨by rw [hlive]; rfl, htalk, hvalid⟩
      refine wp_perform_bind.mpr fun w₂ h₂ => ?_
      rw [refreshOnTalk_of_ne cfg htalk]
      cases hcheck : validatePatch request with
      | ok u => exact absurd hcheck hvalid
      | error err => exact fun _ _ _ => h₂.store_eq.trans hsame₁

/-! ### The extension before the check -/

/-- The lifetimes of keys are no part of a session's hash. -/
theorem field_extendAll (cfg : Config) (keys : List Key) (w : World) (k : String) (f : Field) :
    (w.extendAll cfg keys).field k f = w.field k f := by
  induction keys generalizing w with
  | nil => rfl
  | cons key keys ih =>
    refine (ih (w.expire key cfg.sessionCacheTtl)).trans ?_
    exact field_machine (c := .expire key cfg.sessionCacheTtl) trivial w k f

/-- A field of a live session is stored. -/
theorem store_of_field {w : World} {k : String} {f : Field} {v : f.Value}
    (h : w.field k f = some v) : ∃ e, w.store (.session k) = some e ∧ e.value f = some v := by
  unfold World.field at h
  rw [World.hash_eq_entry] at h
  cases hentry : w.entry (.session k) with
  | none =>
    rw [hentry] at h
    cases h
  | some e =>
    rw [hentry] at h
    exact ⟨e, (TtlStore.lookup_eq_some_iff.mp hentry).1, h⟩

/-- An extension of a live session whose clock is read after `d` milliseconds stores the new
`expires_at`. -/
theorem refreshTtl_stores {k : String} {e : TtlStore.Entry Hash} {w : World}
    {Q : Except ServiceError (Option Hash) → World → Prop} (he : w.entry (.session k) = some e)
    (h : (refreshTtl cfg k).Wp machine World.Elapses Q w) (d : ℕ) :
    ∃ session w', Q (.ok session) w' ∧ w'.field k .expiresAt = some (expiry cfg (w.now + d)) := by
  have hreply : (machine (.hgetall k) w).1 = some e.value := World.hash_of_entry he
  unfold refreshTtl at h
  have hread := wp_perform_bind.mp h w (.refl w)
  rw [hreply] at hread
  -- time passes before the clock is read, and then no more
  have hpasses (w₁ w₂ : World) (heq : w₁ = w₂) : w₁.Elapses w₂ := heq ▸ World.Elapses.refl w₁
  have hrest := (wp_perform_bind.mp hread (w.advance d) ⟨d, rfl⟩).env_mono hpasses
  dsimp only at hrest
  rw [setSession, bind_assoc, wp_perform_bind_eq, wp_perform_bind_eq, wp_bind] at hrest
  have hend := extendProfiles_instant.mp (wp_bind.mp (extend_instant.mp hrest))
  refine ⟨_, _, hend, ?_⟩
  rw [field_extendAll, field_extendAll, field_machine (c := .expire _ _) trivial,
    field_machine (c := .hset _ _) trivial]
  -- what the `HSET` wrote
  show ite (k = k) _ _ = _
  rw [if_pos rfl, Hash.set_self]
  rfl

/-- A patch that extends a live session and is refused then stores an `expires_at` that depends on
when the clock was read. -/
theorem extends_unchecked {w : World} (h : ExtendsUnchecked request w)
    (hunchanged : ChangesNothing cfg request w) (d : ℕ) : ∃ e,
      w.store (.session request.globalSessionKey) = some e ∧
        e.value .expiresAt = some (expiry cfg (w.now + d)) := by
  obtain ⟨hlive, htalk, hinvalid⟩ := h
  obtain ⟨session, hsession⟩ := Option.isSome_iff_exists.mp hlive
  obtain ⟨e, he, rfl⟩ := TtlStore.get_eq_some_iff.mp hsession
  cases hcheck : validatePatch request with
  | ok u => exact absurd hcheck hinvalid
  | error err =>
    have hwp : (patchSessionState cfg request).Wp machine World.Elapses
        (fun x w' => ∀ e, x = .error e → Refusal request e → w'.store = w.store) w := by
      rw [wp_iff_exec]
      rintro x w' hexec e rfl
      exact hunchanged e w' hexec
    have hreply : (machine (.hgetall request.globalSessionKey) w).1 = some e.value :=
      World.hash_of_entry he
    -- the run without any time passing, one command after the other
    have hread := wp_perform_bind.mp hwp w (.refl w)
    rw [hreply] at hread
    have hextends := wp_perform_bind.mp hread w (.refl w)
    unfold refreshOnTalk at hextends
    rw [htalk, hcheck] at hextends
    obtain ⟨session, w', hend, hfield⟩ := refreshTtl_stores he (wp_bind.mp (wp_bind.mp hextends)) d
    have hrefusal : Refusal request err := .inr (validatePatch_error hcheck)
    have hstore : w'.store = w.store := hend err rfl hrefusal
    rw [← hstore]
    exact store_of_field hfield

end RejectedPatches

open RejectedPatches in
/-- A refused patch leaves the whole store as it was, expiries included, unless it is one that
brings a live session to `talk` with malformed reference information. -/
theorem patchSessionState_refused_iff (cfg : Config) (request : SessionPatchRequest) (w : World) :
    ChangesNothing cfg request w ↔ ¬ ExtendsUnchecked request w := by
  refine ⟨fun hunchanged h => ?_, changesNothing⟩
  -- the run that reads the clock at once and the one that reads it a millisecond later
  obtain ⟨e₀, hstored₀, hexpires₀⟩ := extends_unchecked h hunchanged 0
  obtain ⟨e₁, hstored₁, hexpires₁⟩ := extends_unchecked h hunchanged 1
  obtain rfl : e₀ = e₁ := Option.some.inj (hstored₀.symm.trans hstored₁)
  have hsame : expiry cfg (w.now + 0) = expiry cfg (w.now + 1) :=
    Option.some.inj (hexpires₀.symm.trans hexpires₁)
  unfold expiry at hsame
  omega

namespace RejectedPatches

/-- A second after a session has been created. -/
def later : World := TokenRotation.opened.advance 1000

/-- A message of the user whose conversation history is no list. -/
def malformed : SessionPatchRequest where
  globalSessionKey := "gsess_1"
  sessionState := some .talk
  statePatch := some { referenceInformation := some [("conversation_history", .str "hello")] }

/-- The patch is answered with 400, and the session expires a second later than before. -/
theorem malformed_extends :
    (∃ detail w', (patchSessionState .default malformed).Exec machine World.Elapses later
      (.error (.http 400 detail)) w' ∧
      later.field "gsess_1" .expiresAt = some 300000 ∧
      w'.field "gsess_1" .expiresAt = some 301000) ∧
    ¬ ChangesNothing .default malformed later := by
  have hexec := Program.Exec.of_run (m := machine) World.Elapses.refl
    (patchSessionState .default malformed) later
  have hexpires : ((patchSessionState .default malformed).run machine later).2.field "gsess_1"
      .expiresAt = some 301000 := rfl
  refine ⟨⟨_, _, hexec, rfl, hexpires⟩, fun h => ?_⟩
  have hstore := h _ _ hexec (.inr ⟨_, rfl⟩)
  obtain ⟨e, he, hvalue⟩ := store_of_field hexpires
  rw [hstore] at he
  obtain rfl := Option.some.inj he
  cases hvalue

end RejectedPatches

end SessionManager
