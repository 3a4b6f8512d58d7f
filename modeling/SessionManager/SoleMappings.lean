import SessionManager.ClosedSessions
import SessionManager.CoherentRuns

/-!
# One mapping for a session

A session is created with one mapping, and a rotation deletes the mapping of the presented token
before it stores the new one. So in a run that creates every session key once, no two mappings name
the same session, and to delete the one of a token is to delete all that the session has.

* `TakesAway`, `Replaces` — what a part of a request leaves of the mappings.
* `request_replaces` — every request takes mappings away, or replaces one.
* `SoleMapping` — the invariant.
* `closeSessionByToken_deletes` — a close by a token deletes the mapping of a session.
-/

namespace SessionManager

open Python Interaction
open SessionService SessionRepository AuthService RedisHelper

open Program hiding pure

namespace SoleMappings

open TokenOwnership IssuedTokens ClosedSessions

variable {cfg : Config} {served : List Served} {w w' : World} {k : String}

/-- Some mappings have been taken away since `w`. -/
def TakesAway (w w' : World) : Prop :=
  ∀ j (e : TtlStore.Entry String), w'.store (.jti j) = some e → w.store (.jti j) = some e

/-- The mapping of `presented` has been replaced by one of `drawn`, which names `k`. -/
def Replaces (presented : Option String) (drawn k : String) (w w' : World) : Prop :=
  ∀ j (e : TtlStore.Entry String), w'.store (.jti j) = some e →
    w.store (.jti j) = some e ∧ presented ≠ some j ∨ j = drawn ∧ e.value = k

/-- A command on another key. -/
theorem sameJtis_of_within {c : Command} (hc : c.Within fun key => ¬ key.IsJti) (w : World) :
    SameJtis w (machine c w).2 :=
  (SameJtis.refl w).machine fun _ hj => hc.changes hj trivial

/-- A program that stays off the mappings. -/
theorem sameJtis_of_off {α : Type} {p : Svc α} (hp : p.Only (Command.Within fun key => ¬ key.IsJti))
    (w : World) : p.Wp machine World.Elapses (fun _ w' => SameJtis w w') w :=
  Wp.of_only (I := SameJtis w) hp (fun _ _ helapses h => h.elapses helapses)
    (fun _ _ hc h => h.trans (sameJtis_of_within hc _)) (.refl w)

/-- A first part that stays off the mappings. -/
theorem off_bind {α β : Type} {p : Svc α} {f : α → Svc β}
    {Q : Except ServiceError β → World → Prop}
    (hp : p.Only (Command.Within fun key => ¬ key.IsJti))
    (herror : ∀ err w', SameJtis w w' → Q (.error err) w')
    (hf : ∀ a w', SameJtis w w' → (f a).Wp machine World.Elapses Q w') :
    (p >>= f).Wp machine World.Elapses Q w :=
  (sameJtis_of_off hp w).bind_kept herror hf

/-! ### Requests -/

/-- A session is created with one mapping. -/
theorem createSession_replaces (jti : String) (request : SessionCreateRequest) (w : World) :
    (createSession cfg k jti request).Wp machine World.Elapses
      (fun _ w' => Replaces none jti k w w') w := by
  unfold createSession createTokens
  rw [bind_assoc]
  refine wp_perform_bind.mpr fun w₁ h₁ => ?_
  -- what follows stays off the mappings
  refine (sameJtis_of_off ?_ _).mono fun x w₂ hsame j e he => ?_
  · rw [bind_assoc]
    refine (createAccessToken_within cfg _ _).bind fun _ => ?_
    rw [bind_assoc]
    refine (createRefreshToken_within cfg _ _).bind fun _ => ?_
    have hkey : ¬ (Key.session (createArgs request k).globalSessionKey).IsJti := id
    exact (create_within cfg hkey).bind fun _ => ⟨trivial, fun _ => ⟨trivial, fun _ => trivial⟩⟩
  · rw [hsame.stored] at he
    rcases stored_setex he with ⟨he, -⟩ | hnew
    · rw [h₁.store_eq] at he
      exact .inl ⟨he, by simp⟩
    · exact .inr hnew

/-- What is stored after a part that stays off the mappings has been taken from before it. -/
theorem TakesAway.of_same (h : SameJtis w w') : TakesAway w w' := fun j e he => by
  rwa [h.stored] at he

theorem TakesAway.trans {w₁ w₂ w₃ : World} (h : TakesAway w₁ w₂) (h' : TakesAway w₂ w₃) :
    TakesAway w₁ w₃ := fun j e he => h j e (h' j e he)

/-- A rotation replaces the mapping of the presented token. -/
theorem rotate_replaces (newJti : String) (payload : Payload) (jti k : String) (w : World) :
    (rotate cfg newJti payload jti k).Wp machine World.Elapses
      (fun _ w' => TakesAway w w' ∨ Replaces (some jti) newJti k w w') w := by
  unfold rotate
  refine off_bind (not_jti_of_within (refreshTtl_within cfg k)) (fun _ _ h => .inl (.of_same h))
    fun _ w₁ h₁ => ?_
  refine off_bind (createAccessToken_within cfg _ _) (fun _ _ h => .inl (.of_same (h₁.trans h)))
    fun access w₂ h₂ => ?_
  refine off_bind (createRefreshToken_within cfg _ _)
    (fun _ _ h => .inl (.of_same ((h₁.trans h₂).trans h))) fun refresh w₃ h₃ => ?_
  -- `DEL` of the old mapping, `SETEX` of the new one, and the log
  refine wp_perform_bind.mpr fun w₄ h₄ => wp_perform_bind.mpr fun w₅ h₅ => ?_
  refine wp_perform_bind.mpr fun w₆ h₆ => .inr fun j e he => ?_
  have hset : w₆.store (.jti j) = some e := he
  rw [h₆.store_eq] at hset
  rcases stored_setex hset with ⟨hdel, -⟩ | hnew
  · rw [h₅.store_eq] at hdel
    obtain ⟨hold, hne⟩ := stored_del hdel
    rw [h₄.store_eq, h₃.stored, h₂.stored, h₁.stored] at hold
    exact .inl ⟨hold, by simpa using hne.symm⟩
  · exact .inr hnew

/-- A mapping that is there is stored, and was stored before some time has passed. -/
theorem stored_of_jti {jti : String} (helapses : w.Elapses w') (hjti : w'.jti jti = some k) :
    ∃ e : TtlStore.Entry String, w.store (.jti jti) = some e ∧ e.value = k := by
  obtain ⟨e, hlook, rfl⟩ := TtlStore.get_eq_some_iff.mp hjti
  rw [helapses.store_eq] at hlook
  exact ⟨e, (TtlStore.lookup_eq_some_iff.mp hlook).1, rfl⟩

/-- Every request takes mappings away, or replaces one by one for the same session, or adds the one
of the session that it creates. -/
theorem request_replaces (cfg : Config) (request : Request) (w : World) :
    (request.program cfg).Wp machine World.Elapses (fun _ w' => TakesAway w w' ∨
      ∃ presented drawn k, Replaces presented drawn k w w' ∧ (request.creates? = some k ∨
        ∃ j e, presented = some j ∧ w.store (.jti j) = some e ∧ e.value = k)) w := by
  -- a request that draws no `jti` binds none
  have hquiet (hdraws : request.draws? = none) : (request.program cfg).Wp machine World.Elapses
      (fun _ w' => TakesAway w w') w := by
    refine (program_binds cfg request w).mono ?_
    rintro outcome w' ⟨q, -, hbinds⟩ j e he
    rcases hbinds.stored j e he with he | ⟨hj, -⟩
    · exact he
    · rw [hdraws] at hj
      cases hj
  cases request with
  | createSession k jti r =>
    refine wp_map.mpr ((createSession_replaces jti r w).mono fun x w' h => ?_)
    exact .inr ⟨none, jti, k, h, .inl rfl⟩
  | refreshToken newJti token =>
    refine wp_map.mpr (authenticate_bind (fun _ w' h => .inl (.of_same (.of_elapses h))) ?_)
    intro payload jti k w₁ w₂ _ h₁ h₂ _ hjti _
    refine (rotate_replaces newJti payload jti k w₂).mono fun x w₃ h => ?_
    obtain ⟨e, he, hvalue⟩ := stored_of_jti (h₁.trans h₂) hjti
    have hsame := SameJtis.of_elapses (h₁.trans h₂)
    refine h.imp (fun htakes => (TakesAway.of_same hsame).trans htakes) fun hreplaces => ?_
    refine ⟨some jti, newJti, k, fun j e he => ?_, .inr ⟨jti, e, rfl, he, hvalue⟩⟩
    rw [← hsame.stored j]
    exact hreplaces j e he
  | verifyTokenAndGetSession | pingSessionByToken | closeSessionByToken | resolveSession
    | patchSessionState | closeSession | saveApiResult | updateRealtimePersonalContext =>
    exact (hquiet rfl).mono fun _ _ h => .inl h

/-! ### The invariant -/

/-- No two mappings name the same session, and the sessions they name have been created. -/
structure SoleMapping (served : List Served) (w : World) : Prop where
  keyed : ∀ j (e : TtlStore.Entry String), w.store (.jti j) = some e →
    e.value ∈ createdKeys served
  sole : ∀ j j' (e e' : TtlStore.Entry String), w.store (.jti j) = some e →
    w.store (.jti j') = some e' → e.value = e'.value → j = j'

theorem SoleMapping.takesAway (h : SoleMapping served w) (htakes : TakesAway w w') :
    SoleMapping served w' :=
  ⟨fun j e he => h.keyed j e (htakes j e he),
    fun j j' e e' he he' => h.sole j j' e e' (htakes j e he) (htakes j' e' he')⟩

/-- A mapping is replaced by one for a session that no other mapping names. -/
theorem SoleMapping.replaces {presented : Option String} {drawn : String}
    (h : SoleMapping served w) (hreplaces : Replaces presented drawn k w w')
    (hk : k ∈ createdKeys served)
    (hpresented : ∀ j (e : TtlStore.Entry String), w.store (.jti j) = some e → e.value = k →
      presented = some j) : SoleMapping served w' := by
  refine ⟨fun j e he => ?_, fun j j' e e' he he' hsame => ?_⟩
  · rcases hreplaces j e he with ⟨hold, -⟩ | ⟨-, hvalue⟩
    · exact h.keyed j e hold
    · rwa [hvalue]
  · rcases hreplaces j e he with ⟨hold, hne⟩ | ⟨rfl, hvalue⟩ <;>
      rcases hreplaces j' e' he' with ⟨hold', hne'⟩ | ⟨rfl, hvalue'⟩
    · exact h.sole j j' e e' hold hold' hsame
    · exact absurd (hpresented j e hold (hsame.trans hvalue')) hne
    · exact absurd (hpresented j' e' hold' (hsame.symm.trans hvalue)) hne'
    · rfl

theorem SoleMapping.mono (h : SoleMapping served w) {served' : List Served}
    (hkeys : ∀ k ∈ createdKeys served, k ∈ createdKeys served') : SoleMapping served' w :=
  ⟨fun j e he => hkeys _ (h.keyed j e he), h.sole⟩

/-- A request that creates no session whose key has been used keeps the invariant. -/
theorem SoleMapping.request (h : SoleMapping served w) (request : Request)
    (hfresh : ∀ k, request.creates? = some k → k ∉ createdKeys served) :
    (request.program cfg).Wp machine World.Elapses
      (fun outcome w' => SoleMapping (served ++ [⟨request, outcome, w, w'⟩]) w') w := by
  refine (request_replaces cfg request w).mono fun outcome w' hstep => ?_
  have hkeys (k : String) (hk : k ∈ createdKeys served) :
      k ∈ createdKeys (served ++ [⟨request, outcome, w, w'⟩]) := by
    rw [createdKeys_snoc]
    exact List.mem_append_left _ hk
  rcases hstep with htakes | ⟨presented, drawn, k, hreplaces, hcreates | ⟨j₀, e₀, rfl, he₀, rfl⟩⟩
  · exact (h.takesAway htakes).mono hkeys
  · refine (h.mono hkeys).replaces hreplaces ?_ fun j e he hvalue => ?_
    · rw [createdKeys_snoc]
      exact List.mem_append_right _ (by simp [hcreates])
    · -- nothing has named the new session
      exact absurd (hvalue ▸ h.keyed j e he) (hfresh k hcreates)
  · refine (h.mono hkeys).replaces hreplaces (hkeys _ (h.keyed j₀ e₀ he₀)) fun j e he hvalue => ?_
    rw [h.sole j₀ j e₀ e he₀ he hvalue.symm]

/-- The invariant holds after every run that creates every key once. -/
theorem soleMapping_history {now : ℕ}
    (h : History cfg World.Elapses World.Elapses (.init now) served w)
    (hkeys : (createdKeys served).Nodup) : SoleMapping served w := by
  refine h.invariant (I := fun served w => (createdKeys served).Nodup → SoleMapping served w) ?_
    (fun served request w hI => ?_) ?_ hkeys
  · exact fun served w w' helapses hI hk => (hI hk).takesAway (.of_same (.of_elapses helapses))
  · by_cases hok : (createdKeys served).Nodup ∧
        ∀ k, request.creates? = some k → k ∉ createdKeys served
    · exact ((hI hok.1).request request hok.2).mono fun _ _ h' _ => h'
    · exact wp_iff_exec.mpr fun outcome w' _ hk => absurd (nodup_filterMap_snoc hk) hok
  · refine fun _ => ⟨fun j e he => ?_, fun j j' e e' he => ?_⟩
    · cases he
    · cases he

/-! ### Closing by a token -/

/-- The token is verified once more, and its `jti` deleted, unless its claims are refused now. -/
theorem deleteJti_bind {α : Type} {payload : Payload} {jti : String}
    (hclaim : payload.jtiClaim = some jti) (hmature : ¬ payload.Immature w.now)
    {f : Option String → Svc α} {Q : Except ServiceError α → World → Prop}
    (hexpired : ∀ w', w.Elapses w' → payload.Expired w'.now →
      (deleteJti none >>= fun _ => f none).Wp machine World.Elapses Q w')
    (hdeleted : ∀ w', SameJtis w w' →
      (deleteJti (some jti) >>= fun _ => f (some jti)).Wp machine World.Elapses Q w') :
    (jtiToDelete (.signed payload) >>= fun jti => deleteJti jti >>= fun _ => f jti).Wp machine
      World.Elapses Q w := by
  rw [jtiToDelete_signed, bind_assoc]
  refine wp_perform_bind.mpr fun w₁ h₁ => ?_
  have hmature₁ : ¬ payload.Immature w₁.now := by
    rintro ⟨iat, hiat, hlt⟩
    have hle := h₁.now_le
    exact hmature ⟨iat, hiat, by omega⟩
  have hnow : (machine .now w₁).1 = w₁.now := rfl
  rw [pure_bind, hnow]
  -- the token may expire between the check and the deletion
  by_cases hexp : payload.Expired w₁.now
  · have hchecked : checkClaims payload w₁.now = .error "Token has expired" := by
      simp [checkClaims, hmature₁, hexp]
    rw [hchecked]
    exact hexpired w₁ h₁ hexp
  · have hchecked : checkClaims payload w₁.now = .ok payload := by
      simp [checkClaims, hmature₁, hexp]
    have hjti : (Except.ok payload : Except String Payload).toOption.bind Payload.jtiClaim =
        some jti := hclaim
    rw [hchecked, hjti]
    exact hdeleted w₁ (.of_elapses h₁)

/-- A close by a token that has not expired when it ends has deleted a mapping of the session. -/
theorem closeSessionByToken_deletes (token : Token) (closeReason : Option String) (w : World) :
    (closeSessionByToken token closeReason).Wp machine World.Elapses (fun x w' => ∀ response k,
      x = .ok response → response.archivedConversationId = archivedId k →
        (∀ payload, token = .signed payload → ¬ payload.Expired w'.now) →
          TakesAway w w' ∧ ∃ j e, w.store (.jti j) = some e ∧ e.value = k ∧
            w'.store (.jti j) = none) w := by
  rw [TokenRule.closeSessionByToken_eq]
  refine getGlobalSessionKeyFromToken_bind (fun _ _ _ _ _ hx => by cases hx) ?_
  rintro payload jti k w₁ w₂ rfl h₁ h₂ haccepted hjti -
  obtain ⟨hmature, -, -, hclaim⟩ := acceptedJti_eq_ok.mp haccepted
  obtain ⟨e, he, hvalue⟩ := stored_of_jti (h₁.trans h₂) hjti
  have hsame₂ := SameJtis.of_elapses (h₁.trans h₂)
  -- the session is looked up and updated
  refine off_bind (p := SessionRepository.get k) ⟨trivial, fun _ => trivial⟩
    (fun _ _ _ _ _ hx => by cases hx) fun session w₃ h₃ => ?_
  cases session with
  | none =>
    rintro response k' hx
    cases hx
  | some session =>
    refine off_bind (p := issue .now) ⟨trivial, fun _ => trivial⟩
      (fun _ _ _ _ _ hx => by cases hx) fun now w₄ h₄ => ?_
    have hkey : ¬ (Key.session k).IsJti := id
    refine off_bind (update_within hkey _) (fun _ _ _ _ _ hx => by cases hx) fun _ w₅ h₅ => ?_
    have hsame₅ := ((hsame₂.trans h₃).trans h₄).trans h₅
    have hmature₅ : ¬ payload.Immature w₅.now := by
      rintro ⟨iat, hiat, hlt⟩
      have hle := (((SameJtis.of_elapses h₂).trans h₃).trans (h₄.trans h₅)).now_le
      exact hmature ⟨iat, hiat, by omega⟩
    refine deleteJti_bind hclaim hmature₅ (fun w₆ h₆ hexpired => ?_) fun w₆ h₆ => ?_
    · -- expired now, expired at the end
      refine wp_perform_bind.mpr fun w₇ h₇ response k' _ _ hvalid => ?_
      obtain ⟨exp, hexp, hle⟩ := hexpired
      exact absurd ⟨exp, hexp, Nat.le_trans hle h₇.now_le⟩ (hvalid payload rfl)
    · refine wp_perform_bind.mpr fun w₇ h₇ => ?_
      refine wp_perform_bind.mpr fun w₈ h₈ response k' hx hk' _ => ?_
      obtain rfl := Except.ok.inj hx
      obtain rfl := archivedId_injective hk'
      have hsame₇ := (hsame₅.trans h₆).elapses h₇
      refine ⟨fun j e' he' => ?_, jti, e, he, hvalue, ?_⟩
      · have hdel : w₈.store (.jti j) = some e' := he'
        rw [h₈.store_eq] at hdel
        exact TakesAway.of_same hsame₇ j e' (stored_del hdel).1
      · show w₈.store (.jti jti) = none
        rw [h₈.store_eq]
        exact TtlStore.del_apply_self _ _

end SoleMappings

end SessionManager
