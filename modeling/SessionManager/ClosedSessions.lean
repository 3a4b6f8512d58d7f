import SessionManager.IssuedTokens
import SessionManager.SessionEffects
import SessionManager.TokenRule

/-!
# What the two ways to close a session leave

A session is closed by its key or by one of its tokens. Both write the same fields; only the close
by a token deletes a mapping.

* `Request.IsClose`, `Served.Closes` — a request that closes a session, and that it has done so.
* `SameSession` — two worlds with the same hash of a session, up to what a close stamps on it.
* `sameSession_of_closes` — both ways leave the same hash of a session that does not expire.
* `closeSession_run`, `closeSessionByToken_run` — the mappings after a close at one instant.
* `live_of_closes` — a session that a request has closed was there when the request began.
-/

namespace SessionManager

open Python Interaction
open SessionService SessionRepository AuthService

open Program hiding pure

/-- A request that closes a session. -/
def Request.IsClose : Request → Prop
  | .closeSession _ => True
  | .closeSessionByToken _ _ => True
  | _ => False

/-- The request has closed session `k`. -/
def Served.Closes (k : String) (s : Served) : Prop :=
  s.request.IsClose ∧ ∃ response, s.outcome = .ok (.closed response) ∧
    response.archivedConversationId = archivedId k

namespace ClosedSessions

variable {k : String} {e : TtlStore.Entry Hash} {w w' : World}

/-- Session `k` is the same in both worlds, up to the timestamps and the summary of a close. -/
structure SameSession (k : String) (w w' : World) : Prop where
  alive : (w.hash k).isSome = (w'.hash k).isSome
  fields : ∀ f, f ≠ .endedAt → f ≠ .updatedAt → f ≠ .finalSummary → w.field k f = w'.field k f

/-! ### Who is closed -/

section Check

variable {α : Type} {Q : Except ServiceError α → World → Prop}

/-- The check of a signed token, while time passes: the clock is read first and the mapping of the
`jti` later. -/
theorem check_bind {payload : Payload} {type : Option String} {f : String → String → Svc α}
    (hreject : ∀ detail w', w.Elapses w' → Q (.error (unauthorized detail)) w')
    (haccept : ∀ jti k w₁ w₂, w.Elapses w₁ → w₁.Elapses w₂ →
      acceptedJti type payload w₁.now = .ok jti → w₂.jti jti = some k → k ≠ "" →
        (f jti k).Wp machine World.Elapses Q w₂) :
    (do let now ← issue .now
        let jti ← Program.ofExcept (acceptedJti type payload now)
        let k ← sessionOfJti jti
        f jti k : Svc α).Wp machine World.Elapses Q w := by
  refine wp_perform_bind.mpr fun w₁ h₁ => wp_ofExcept_bind.mpr ?_
  cases haccepted : acceptedJti type payload (machine .now w₁).1 with
  | error err =>
    obtain ⟨detail, rfl⟩ := TokenRule.acceptedJti_error haccepted
    exact hreject detail w₁ h₁
  | ok jti =>
    dsimp only
    rw [sessionOfJti_bind]
    refine wp_perform_bind.mpr fun w₂ h₂ => ?_
    have h₁₂ : w.Elapses w₂ := h₁.trans h₂
    have hreply : (machine (.get (.jti jti)) w₂).1 = w₂.jti jti := rfl
    rw [hreply]
    -- no mapping, an empty one, or a session
    cases hjti : w₂.jti jti with
    | none => exact hreject _ w₂ h₁₂
    | some k =>
      by_cases hempty : k = ""
      · subst hempty
        exact hreject _ w₂ h₁₂
      · have hfound : nonEmpty (some k) = some k := by simp [nonEmpty, hempty]
        rw [hfound]
        exact haccept jti k w₁ w₂ h₁ h₂ haccepted hjti hempty

theorem getGlobalSessionKeyFromToken_bind {token : Token} {f : String → Svc α}
    (hreject : ∀ detail w', w.Elapses w' → Q (.error (unauthorized detail)) w')
    (haccept : ∀ payload jti k w₁ w₂, token = .signed payload → w.Elapses w₁ → w₁.Elapses w₂ →
      acceptedJti none payload w₁.now = .ok jti → w₂.jti jti = some k → k ≠ "" →
        (f k).Wp machine World.Elapses Q w₂) :
    (getGlobalSessionKeyFromToken token >>= f).Wp machine World.Elapses Q w := by
  cases token with
  | invalid text => exact hreject _ w (.refl w)
  | signed payload =>
    rw [getGlobalSessionKeyFromToken_signed]
    simp only [bind_assoc]
    exact check_bind hreject fun jti k w₁ w₂ => haccept payload jti k w₁ w₂ rfl

theorem authenticate_bind {token : Token} {type : String} {f : Payload × String × String → Svc α}
    (hreject : ∀ detail w', w.Elapses w' → Q (.error (unauthorized detail)) w')
    (haccept : ∀ payload jti k w₁ w₂, token = .signed payload → w.Elapses w₁ → w₁.Elapses w₂ →
      acceptedJti (some type) payload w₁.now = .ok jti → w₂.jti jti = some k → k ≠ "" →
        (f (payload, jti, k)).Wp machine World.Elapses Q w₂) :
    (authenticate token type >>= f).Wp machine World.Elapses Q w := by
  cases token with
  | invalid text => exact hreject _ w (.refl w)
  | signed payload =>
    rw [authenticate_signed]
    simp only [bind_assoc, pure_bind]
    exact check_bind hreject fun jti k w₁ w₂ => haccept payload jti k w₁ w₂ rfl

end Check

section Close

variable {env : World → World → Prop} (henv : ∀ w w', env w w' → w.Elapses w')
include henv

/-- A session that a look finds was there before. -/
theorem entry_of_look {w₁ : World} {session : Hash} (h : env w w₁)
    (hlook : (machine (.hgetall k) w₁).1 = some session) :
    ∃ e, w.entry (.session k) = some e := by
  have hhash : (w₁.entry (.session k)).map TtlStore.Entry.value = some session := hlook
  obtain ⟨e, he, -⟩ := Option.map_eq_some_iff.mp hhash
  exact ⟨e, (henv _ _ h).entry he⟩

/-- A close by the key closes a session that was there. -/
theorem closeSession_returns (request : SessionCloseRequest) (w : World) :
    (closeSession request).Wp machine env (fun x _ => ∀ response, x = .ok response →
      response.archivedConversationId = archivedId request.globalSessionKey ∧
        ∃ e, w.entry (.session request.globalSessionKey) = some e) w := by
  refine wp_perform_bind.mpr fun w₁ h₁ => ?_
  cases hlook : (machine (.hgetall request.globalSessionKey) w₁).1 with
  | none =>
    rintro response hx
    cases hx
  | some session =>
    refine Wp.bind_of_forall (fun _ _ _ hx => by cases hx) fun now w₂ => ?_
    refine Wp.bind_of_forall (fun _ _ _ hx => by cases hx) fun _ w₃ => ?_
    refine Wp.bind_of_forall (fun _ _ _ hx => by cases hx) fun _ w₄ => ?_
    rintro response hx
    obtain rfl := Except.ok.inj hx
    exact ⟨rfl, entry_of_look henv h₁ hlook⟩

/-- A close by a token closes the session that the token names, and this was there. -/
theorem closeFound_returns (token : Token) (closeReason : Option String) (k : String) (w : World) :
    (TokenRule.closeFound token closeReason k).Wp machine env (fun x _ => ∀ response,
      x = .ok response → response.archivedConversationId = archivedId k ∧
        ∃ e, w.entry (.session k) = some e) w := by
  refine wp_perform_bind.mpr fun w₁ h₁ => ?_
  cases hlook : (machine (.hgetall k) w₁).1 with
  | none =>
    rintro response hx
    cases hx
  | some session =>
    refine Wp.bind_of_forall (fun _ _ _ hx => by cases hx) fun now w₂ => ?_
    refine Wp.bind_of_forall (fun _ _ _ hx => by cases hx) fun _ w₃ => ?_
    refine Wp.bind_of_forall (fun _ _ _ hx => by cases hx) fun jti w₄ => ?_
    refine Wp.bind_of_forall (fun _ _ _ hx => by cases hx) fun _ w₅ => ?_
    refine Wp.bind_of_forall (fun _ _ _ hx => by cases hx) fun _ w₆ => ?_
    rintro response hx
    obtain rfl := Except.ok.inj hx
    exact ⟨rfl, entry_of_look henv h₁ hlook⟩

end Close

/-- A session that a request has closed was there when the request began. -/
theorem live_of_closes (cfg : Config) {request : Request} (hclose : request.IsClose) (w : World) :
    (request.program cfg).Wp machine World.Elapses (fun outcome _ => ∀ response k,
      outcome = .ok (.closed response) → response.archivedConversationId = archivedId k →
        ∃ e, w.entry (.session k) = some e) w := by
  -- the name of the archive tells which session was closed
  cases request with
  | closeSession r =>
    refine wp_map.mpr ((closeSession_returns (fun _ _ h => h) r w).mono fun x w' h => ?_)
    rintro response k hx hk
    cases x with
    | error err => cases hx
    | ok response' =>
      obtain rfl := Response.closed.inj (Except.ok.inj hx)
      obtain ⟨harchived, hlive⟩ := h response' rfl
      obtain rfl := archivedId_injective (hk.symm.trans harchived)
      exact hlive
  | closeSessionByToken token closeReason =>
    refine wp_map.mpr ?_
    rw [TokenRule.closeSessionByToken_eq]
    refine getGlobalSessionKeyFromToken_bind (fun _ _ _ _ _ hx => by cases hx) ?_
    intro payload jti k' w₁ w₂ _ h₁ h₂ _ _ _
    refine (closeFound_returns (fun _ _ h => h) token closeReason k' w₂).mono fun x w' h => ?_
    rintro response k hx hk
    cases x with
    | error err => cases hx
    | ok response' =>
      obtain rfl := Response.closed.inj (Except.ok.inj hx)
      obtain ⟨harchived, e, he⟩ := h response' rfl
      obtain rfl := archivedId_injective (hk.symm.trans harchived)
      exact ⟨e, (h₁.trans h₂).entry he⟩
  | createSession | verifyTokenAndGetSession | refreshToken | pingSessionByToken | resolveSession
    | patchSessionState | saveApiResult | updateRealtimePersonalContext => exact hclose.elim

/-! ### The hash -/

/-- Session `k` is there, closed for a reason and otherwise as `e` says. -/
def ClosedAs (k : String) (e : TtlStore.Entry Hash) (closeReason : Option String) (w : World) :
    Prop :=
  ∃ e', w.entry (.session k) = some e' ∧ ∀ f, f ≠ .endedAt → f ≠ .updatedAt → f ≠ .finalSummary →
    ∀ now, e'.value f = (closeUpdates closeReason now f).or (e.value f)

theorem ClosedAs.sameSession {closeReason : Option String} (h : ClosedAs k e closeReason w)
    (h' : ClosedAs k e closeReason w') : SameSession k w w' := by
  obtain ⟨e₁, he₁, hfields₁⟩ := h
  obtain ⟨e₂, he₂, hfields₂⟩ := h'
  refine ⟨?_, fun f hended hupdated hsummary => ?_⟩
  · rw [World.hash_of_entry he₁, World.hash_of_entry he₂]
    rfl
  · rw [World.field, World.field, World.hash_of_entry he₁, World.hash_of_entry he₂]
    exact (hfields₁ f hended hupdated hsummary 0).trans (hfields₂ f hended hupdated hsummary 0).symm

/-- The instant of a close is only in `ended_at`. -/
theorem closeUpdates_of_ne {f : Field} (hf : f ≠ .endedAt) (closeReason : Option String)
    (now now' : ℕ) : closeUpdates closeReason now f = closeUpdates closeReason now' f := by
  cases f <;> first | rfl | exact absurd rfl hf

/-- A close by the key writes the summary on top. -/
theorem closeSessionUpdates_of_ne {f : Field} (hf : f ≠ .finalSummary)
    (request : SessionCloseRequest) (now : ℕ) :
    closeSessionUpdates request now f = closeUpdates request.closeReason now f := by
  cases f <;> first | rfl | exact absurd rfl hf

section Hash

variable {env : World → World → Prop} (henv : ∀ w w', env w w' → World.Keeps (.session k) w w')
include henv

/-- An update with the fields of a close. -/
theorem update_closedAs (he : w.entry (.session k) = some e) {updates : Hash}
    {closeReason : Option String} {now : ℕ}
    (hupdates : ∀ f, f ≠ .finalSummary → updates f = closeUpdates closeReason now f) :
    (update k updates).Wp machine env (fun x w' => (∃ updated, x = .ok updated) ∧
      ClosedAs k e closeReason w') w := by
  refine (update_spec henv he updates).mono ?_
  rintro x w' ⟨updated, rfl, now', hentry⟩
  refine ⟨⟨updated, rfl⟩, _, hentry, fun f hended hupdated hsummary now'' => ?_⟩
  rw [← closeUpdates_of_ne hended closeReason now now'', ← hupdates f hsummary]
  show ((updates.set .updatedAt now') f).or (e.value f) = _
  rw [Hash.set_of_ne _ hupdated]

theorem closeSession_closedAs (request : SessionCloseRequest)
    (hk : request.globalSessionKey = k) (he : w.entry (.session k) = some e) :
    (closeSession request).Wp machine env
      (fun _ w' => ClosedAs k e request.closeReason w') w := by
  unfold closeSession
  rw [hk]
  refine hgetall_bind henv he fun w₁ he₁ => look_bind henv rfl he₁ fun now w₂ he₂ => ?_
  refine Wp.seq_ok (fun _ w₃ => ClosedAs k e request.closeReason w₃)
    ((update_closedAs henv he₂ fun f hf => closeSessionUpdates_of_ne hf request now).mono ?_) ?_
  · rintro x w₃ ⟨⟨updated, rfl⟩, hclosed⟩
    exact ⟨updated, rfl, hclosed⟩
  · rintro updated w₃ ⟨e', he', hfields⟩
    exact look_bind henv rfl he' fun _ w₄ he₄ => ⟨e', he₄, hfields⟩

/-- A close by a token closes the session that its response names. -/
theorem closeSessionByToken_closedAs (token : Token) (closeReason : Option String)
    (he : w.entry (.session k) = some e) :
    (closeSessionByToken token closeReason).Wp machine env (fun x w' => ∀ response,
      x = .ok response → response.archivedConversationId = archivedId k →
        ClosedAs k e closeReason w') w := by
  refine off_bind henv (K := fun _ => False) id (getGlobalSessionKeyFromToken_within token) he
    (fun err w₁ _ response hx => by cases hx) fun k' w₁ he₁ => ?_
  by_cases hk : k' = k
  · subst hk
    refine hgetall_bind henv he₁ fun w₂ he₂ => look_bind henv rfl he₂ fun now w₃ he₃ => ?_
    -- what comes after the update changes none of the fields
    refine Wp.seq_ok (fun _ w₄ => ClosedAs k' e closeReason w₄)
      ((update_closedAs henv he₃ fun f _ => rfl).mono ?_) ?_
    · rintro x w₄ ⟨⟨updated, rfl⟩, hclosed⟩
      exact ⟨updated, rfl, hclosed⟩
    · rintro updated w₄ ⟨e', he', hfields⟩
      refine (closeByToken_tail henv token k' closeReason now he').mono ?_
      rintro x w₅ ⟨-, he₅⟩ response - -
      exact ⟨e', he₅, hfields⟩
  · -- the response names another session
    refine (closeFound_returns (fun _ _ h => (henv _ _ h).1) token closeReason k' w₁).mono ?_
    rintro x w₂ hnames response hx hk'
    exact absurd (archivedId_injective ((hnames response hx).1.symm.trans hk')) hk

end Hash

/-- Both ways to close a session that does not expire leave the same hash. -/
theorem sameSession_of_closes {request : SessionCloseRequest} (hk : request.globalSessionKey = k)
    {token : Token} {response response' : SessionCloseResponse} {w₁ w₂ : World}
    (hexec : (closeSession request).Exec machine (World.Keeps (.session k)) w (.ok response) w₁)
    (hexec' : (closeSessionByToken token request.closeReason).Exec machine
      (World.Keeps (.session k)) w (.ok response') w₂)
    (hnames : response'.archivedConversationId = archivedId k) : SameSession k w₁ w₂ := by
  have hkeeps (w w' : World) (h : World.Keeps (.session k) w w') : w.Elapses w' := h.1
  obtain ⟨-, e, he⟩ := (closeSession_returns hkeeps request w).exec hexec response rfl
  rw [hk] at he
  have hclosed := (closeSession_closedAs (fun _ _ h => h) request hk he).exec hexec
  exact hclosed.sameSession ((closeSessionByToken_closedAs (fun _ _ h => h) token
    request.closeReason he).exec hexec' response' rfl hnames)

/-! ### The mappings -/

/-- What holds after an operation at one instant holds after one of its runs. -/
theorem exec_of_instant {α : Type} {p : Svc α} {Q : Except ServiceError α → World → Prop}
    (h : p.Wp machine Eq Q w) : ∃ x w', p.Exec machine World.Elapses w x w' ∧ Q x w' :=
  ⟨_, _, Exec.of_run World.Elapses.refl p w, wp_eq_iff_run.mp h⟩

/-- A close by the key leaves every mapping as it is. -/
theorem closeSession_instant (request : SessionCloseRequest) (hk : request.globalSessionKey = k)
    (he : w.entry (.session k) = some e) :
    (closeSession request).Wp machine Eq (fun x w' => (∃ response, x = .ok response) ∧
      w'.now = w.now ∧ ∀ jti, w'.jti jti = w.jti jti) w := by
  have hoff : (closeSession request).Only (Command.Within fun key => ¬ key.IsJti) :=
    TokenOwnership.not_jti_of_within (SessionService.closeSession_within request)
  refine ((closeSession_leaves (fun _ _ => World.Keeps.of_eq) request hk he).and
    (entries_of_within hoff w)).mono ?_
  rintro x w' ⟨⟨response, rfl, -⟩, hnow, hsame⟩
  refine ⟨⟨response, rfl⟩, hnow, fun jti => ?_⟩
  rw [World.jti, World.jti, World.get_eq_entry, World.get_eq_entry,
    hsame (.jti jti) (not_not_intro trivial)]

/-- The second look at a token: its `jti`, when the claims are still accepted. -/
theorem jtiToDelete_signed (payload : Payload) : jtiToDelete (.signed payload) = (do
    let now ← issue .now
    pure ((checkClaims payload now).toOption.bind Payload.jtiClaim)) := by
  unfold jtiToDelete verifyToken
  rw [bind_assoc]
  refine congrArg _ (funext fun now => ?_)
  rw [pure_bind]
  cases checkClaims payload now <;> rfl

/-- A close by a token deletes the mapping of its `jti`. -/
theorem closeSessionByToken_instant {token : Token} {payload : Payload}
    (h : TokenRule.Presents token payload k w) (closeReason : Option String)
    (he : w.entry (.session k) = some e) :
    (closeSessionByToken token closeReason).Wp machine Eq (fun x w' =>
      (∃ response, x = .ok response) ∧ w'.now = w.now ∧
        ∀ jti, payload.jtiClaim = some jti → w'.jti jti = none) w := by
  have hrun : (getGlobalSessionKeyFromToken token).run machine w = (.ok k, w) := by
    rcases TokenRule.getGlobalSessionKeyFromToken_run token w with
      ⟨payload', k', h', hrun⟩ | ⟨hnone, -⟩
    · rw [(h.unique h').2, hrun]
    · exact absurd ⟨payload, k, h⟩ hnone
  rw [TokenRule.closeSessionByToken_eq, wp_bind_of_run hrun]
  have hreply : (machine (.hgetall k) w).1 = some e.value := World.hash_of_entry he
  have hchecked : checkClaims payload w.now = .ok payload := by
    simp [checkClaims, h.mature, h.unexpired]
  obtain ⟨jti, hclaim, -⟩ := h.mapped
  unfold TokenRule.closeFound
  rw [SessionRepository.get, RedisHelper.getSession, wp_perform_bind_eq, hreply]
  dsimp only
  refine wp_perform_bind_eq.mpr (wp_bind.mpr ((update_instant he _).mpr ?_))
  dsimp only
  -- the token is verified once more, and nothing has changed for it
  generalize hw₁ : w.hset k _ = w₁
  have hnow₁ : w₁.now = w.now := by rw [← hw₁]; rfl
  have hdelete : (jtiToDelete token).run machine w₁ = (.ok (some jti), w₁) := by
    rw [h.signed, jtiToDelete_signed]
    show (Except.ok ((checkClaims payload w₁.now).toOption.bind Payload.jtiClaim), w₁) = _
    rw [hnow₁, hchecked]
    exact congrArg (fun claim => (Except.ok claim, w₁)) hclaim
  rw [wp_bind_of_run hdelete, wp_eq_iff_run]
  refine ⟨⟨_, rfl⟩, hnow₁, fun jti' hclaim' => ?_⟩
  obtain rfl := Option.some.inj (hclaim.symm.trans hclaim')
  show ((w₁.del (.jti jti)).entry (.jti jti)).map TtlStore.Entry.value = none
  rw [World.entry_del]
  rfl

end ClosedSessions

end SessionManager
