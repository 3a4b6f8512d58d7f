import SessionManager.Instants
import SessionManager.TokenOwnership
import SessionManager.AbstractSession

/-!
# How long a refresh token can be exchanged

A refresh token can be exchanged as long as its `exp` has not come and the mapping of its `jti` is
there. The mapping lives for `SESSION_CACHE_TTL` from the moment the token is issued, and nothing
extends it: neither the longer `exp` of the token nor a patch that extends the session.

* `lastIssued` — the refresh token that was last issued for a session, and when.
* `LastMapped` — the invariant: the mapping of the last token lives for exactly one lifetime.
* `keptAlive_iff` — when a live session can be kept alive by its last refresh token.
-/

namespace SessionManager

open Python Interaction
open SessionService SessionRepository

open Program hiding pure

/-- The refresh token that a response hands out for session `k`. -/
def Response.issues? (k : String) : Response → Option Token
  | .created response => if response.globalSessionKey = k then some response.refreshToken else none
  | .refreshed response =>
    if response.globalSessionKey = k then some response.refreshToken else none
  | _ => none

/-- The refresh token that a served request has issued for session `k`, and the instant. -/
def Served.issues? (k : String) (s : Served) : Option (Token × ℕ) :=
  match s.outcome with
  | .ok response => (response.issues? k).map fun token => (token, s.after.now)
  | .error _ => none

/-- The refresh token that was last issued for session `k`, and the instant. -/
def lastIssued (k : String) (served : List Served) : Option (Token × ℕ) :=
  (served.filterMap (Served.issues? k)).getLast?

/-- The `jti`s that have been drawn. -/
def drawnJtis (served : List Served) : List String := served.filterMap fun s => s.request.draws?

/-- A request that closes no session by a token. -/
def Request.SparesTokens : Request → Prop
  | .closeSessionByToken _ _ => False
  | _ => True

theorem lastIssued_snoc (k : String) (served : List Served) (s : Served) :
    lastIssued k (served ++ [s]) = (s.issues? k).or (lastIssued k served) :=
  AbstractSession.getLast?_filterMap_snoc (Served.issues? k) served s

theorem drawnJtis_snoc (served : List Served) (s : Served) :
    drawnJtis (served ++ [s]) = drawnJtis served ++ s.request.draws?.toList :=
  filterMap_snoc (fun s : Served => s.request.draws?) served s

namespace TokenWindow

variable {cfg : Config} {served : List Served} {w w' : World} {k : String} {token : Token}
  {issued : ℕ}

/-! ### The invariant -/

/-- `token` is a refresh token of session `k` that was signed at `issued`, and the mapping of its
`jti` is there for one lifetime from then on. -/
structure Mapped (cfg : Config) (served : List Served) (k : String) (token : Token) (issued : ℕ)
    (jti userId : String) (w : World) : Prop where
  token_eq : token = refreshTokenAt cfg jti userId issued
  drawn : jti ∈ drawnJtis served
  le_now : issued ≤ w.now
  entry : w.entry (.jti jti) =
    if w.now ≤ expiry cfg issued then some ⟨k, some (expiry cfg issued)⟩ else none

/-- The last refresh token of every session is mapped. -/
def LastMapped (cfg : Config) (served : List Served) (w : World) : Prop :=
  ∀ k token issued, lastIssued k served = some (token, issued) →
    ∃ jti userId, Mapped cfg served k token issued jti userId w

/-- A mapping does not outlive its lifetime, and it does not end before. -/
theorem Mapped.elapses {jti userId : String} (h : Mapped cfg served k token issued jti userId w)
    (helapses : w.Elapses w') : Mapped cfg served k token issued jti userId w' := by
  have hnow := helapses.now_le
  have hle := h.le_now
  refine ⟨h.token_eq, h.drawn, by omega, ?_⟩
  have hentry := h.entry
  by_cases hlive : w'.now ≤ expiry cfg issued
  · rw [if_pos (by omega)] at hentry
    rw [if_pos hlive]
    exact helapses.entry_of_live hentry ((TtlStore.Entry.live_iff_of_some rfl _).mpr hlive)
  · rw [if_neg hlive]
    cases hentry' : w'.entry (.jti jti) with
    | none => rfl
    | some e =>
      -- it would have been there before, with an expiry that has passed
      rw [helapses.entry hentry'] at hentry
      have hexpires : e.expiresAt = some (expiry cfg issued) := by
        split_ifs at hentry
        rw [Option.some.inj hentry]
      have := (TtlStore.Entry.live_iff_of_some hexpires _).mp (World.live_of_entry hentry')
      exact absurd this hlive

/-- A world at the same instant in which the mapping is the same. -/
theorem Mapped.congr {jti userId : String} (h : Mapped cfg served k token issued jti userId w)
    {served' : List Served} (hdrawn : jti ∈ drawnJtis served') (hnow : w'.now = w.now)
    (hsame : w'.entry (.jti jti) = w.entry (.jti jti)) :
    Mapped cfg served' k token issued jti userId w' := by
  refine ⟨h.token_eq, hdrawn, by rw [hnow]; exact h.le_now, ?_⟩
  rw [hsame, hnow]
  exact h.entry

/-- A token that is issued now. -/
theorem Mapped.fresh {jti userId : String} (hdrawn : jti ∈ drawnJtis served)
    (hentry : w.entry (.jti jti) = some ⟨k, some (expiry cfg w.now)⟩) :
    Mapped cfg served k (refreshTokenAt cfg jti userId w.now) w.now jti userId w := by
  have hlive : w.now ≤ expiry cfg w.now := by
    unfold expiry
    omega
  exact ⟨rfl, hdrawn, Nat.le_refl _, by rw [if_pos hlive, hentry]⟩

/-- While it is there, the mapping names the session. -/
theorem Mapped.key {jti userId k' : String} (h : Mapped cfg served k token issued jti userId w)
    (hjti : w.jti jti = some k') : k' = k := by
  rw [World.jti, World.get_eq_entry, h.entry] at hjti
  split_ifs at hjti
  · exact (Option.some.inj hjti).symm
  · cases hjti

/-! ### Requests -/

/-- A request that touches no mapping and issues no token. -/
theorem quiet_lastMapped {α : Type} {p : Svc α} {f : α → Response} {request : Request}
    (hp : p.Only (Command.Within fun key => ¬ key.IsJti)) (hissues : ∀ k a, (f a).issues? k = none)
    (h : LastMapped cfg served w) :
    (do let a ← p; return f a : Svc Response).Wp machine Eq
      (fun outcome w' => LastMapped cfg (served ++ [⟨request, outcome, w, w'⟩]) w') w := by
  refine wp_map.mpr ((entries_of_within hp w).mono ?_)
  rintro x w' ⟨hnow, hsame⟩ k token issued hlast
  have hnone : Served.issues? k ⟨request, x.map f, w, w'⟩ = none := by
    cases x with
    | ok a => exact congrArg (Option.map _) (hissues k a)
    | error e => rfl
  rw [lastIssued_snoc, hnone, Option.none_or] at hlast
  obtain ⟨jti, userId, hmapped⟩ := h k token issued hlast
  have hkey : ¬ ¬ (Key.jti jti).IsJti := not_not_intro trivial
  refine ⟨jti, userId, hmapped.congr ?_ hnow (hsame _ hkey)⟩
  rw [drawnJtis_snoc]
  exact List.mem_append_left _ hmapped.drawn

/-- A request that issues the token of the drawn `jti` for session `k'`. The mappings of the last
tokens of other sessions stay. -/
theorem issue_lastMapped {s : Served} {k' jti : String} (userId : String)
    (h : LastMapped cfg served w) (hdraws : s.request.draws? = some jti) (hnow : w'.now = w.now)
    (hissues : ∀ k, s.issues? k =
      if k' = k then some (refreshTokenAt cfg jti userId w.now, w.now) else none)
    (hentry : w'.entry (.jti jti) = some ⟨k', some (expiry cfg w.now)⟩)
    (hothers : ∀ j k, j ∈ drawnJtis served → k ≠ k' →
      (∀ k₀, w.jti j = some k₀ → k₀ = k) → w'.entry (.jti j) = w.entry (.jti j)) :
    LastMapped cfg (served ++ [s]) w' := by
  intro k token issued hlast
  rw [lastIssued_snoc, hissues] at hlast
  -- the session of the new token, and all the others
  by_cases hk : k' = k
  · subst hk
    rw [if_pos rfl, Option.some_or, Option.some.injEq, Prod.mk.injEq] at hlast
    obtain ⟨rfl, rfl⟩ := hlast
    rw [← hnow] at hentry ⊢
    refine ⟨jti, userId, Mapped.fresh ?_ hentry⟩
    rw [drawnJtis_snoc, hdraws]
    exact List.mem_append_right _ List.mem_cons_self
  · rw [if_neg hk, Option.none_or] at hlast
    obtain ⟨j, user, hmapped⟩ := h k token issued hlast
    refine ⟨j, user, hmapped.congr ?_ hnow ?_⟩
    · rw [drawnJtis_snoc]
      exact List.mem_append_left _ hmapped.drawn
    · exact hothers j k hmapped.drawn (Ne.symm hk) fun _ => hmapped.key

/-- A request that fails and leaves everything as it is. -/
theorem failed_lastMapped {s : Served} (h : LastMapped cfg served w)
    (houtcome : ∃ e, s.outcome = .error e) : LastMapped cfg (served ++ [s]) w := by
  obtain ⟨e, he⟩ := houtcome
  intro k token issued hlast
  have hnone : s.issues? k = none := by
    rw [Served.issues?, he]
  rw [lastIssued_snoc, hnone, Option.none_or] at hlast
  obtain ⟨jti, userId, hmapped⟩ := h k token issued hlast
  refine ⟨jti, userId, hmapped.congr ?_ rfl rfl⟩
  rw [drawnJtis_snoc]
  exact List.mem_append_left _ hmapped.drawn

/-- The creation of a session, whether its key is free or not. -/
theorem createSession_returns (k jti : String) (request : SessionCreateRequest) (w : World) :
    (createSession cfg k jti request).Wp machine Eq (fun x w' =>
      x = .ok ⟨k, accessTokenAt cfg jti (request.userId.getD "") w.now,
        refreshTokenAt cfg jti (request.userId.getD "") w.now, jti⟩ ∧ w'.now = w.now ∧
      w'.entry (.jti jti) = some ⟨k, some (expiry cfg w.now)⟩ ∧
      ∀ j, j ≠ jti → w'.entry (.jti j) = w.entry (.jti j)) w := by
  refine wp_bind.mpr (createTokens_instant.mpr ?_)
  generalize hw₁ : w.setex (.jti jti) cfg.sessionCacheTtl k = w₁
  have hnow₁ : w₁.now = w.now := by rw [← hw₁]; rfl
  have hjti : w₁.entry (.jti jti) = some ⟨k, some (expiry cfg w.now)⟩ := by
    rw [← hw₁]
    exact World.entry_setex w (.jti jti) _ k
  have hothers (j : String) (hj : j ≠ jti) : w₁.entry (.jti j) = w.entry (.jti j) := by
    rw [← hw₁]
    exact World.machine_entry_of_ne (c := .setex (.jti jti) cfg.sessionCacheTtl k)
      (by simpa [Command.changes] using hj.symm) w
  -- the rest is about the session
  have hcreate : (create cfg (createArgs request k)).Wp machine Eq (fun x w₂ =>
      (∃ session, x = .ok session) ∧ w₂.now = w₁.now ∧
        ∀ j, w₂.entry (.jti j) = w₁.entry (.jti j)) w₁ := by
    cases he : w₁.entry (.session k) with
    | some e => exact (create_instant_of_entry he).mpr ⟨⟨_, rfl⟩, rfl, fun _ => rfl⟩
    | none =>
      refine (create_instant he).mpr ⟨⟨_, rfl⟩, rfl, fun j => ?_⟩
      exact World.entry_withSession_of_ne cfg (createArgs request k) w₁ (by simp)
  refine Wp.seq_ok (fun _ w₂ => w₂.now = w₁.now ∧ ∀ j, w₂.entry (.jti j) = w₁.entry (.jti j))
    (hcreate.mono ?_) ?_
  · rintro x w₂ ⟨⟨session, rfl⟩, hsame⟩
    exact ⟨session, rfl, hsame⟩
  · rintro - w₂ ⟨hnow₂, hsame⟩
    rw [wp_eq_iff_run]
    exact ⟨rfl, hnow₂.trans hnow₁, (hsame jti).trans hjti,
      fun j hj => (hsame j).trans (hothers j hj)⟩

/-- Every request keeps the invariant, with a new `jti` where it draws one. -/
theorem request_lastMapped (request : Request) (hspares : request.SparesTokens)
    (h : LastMapped cfg served w)
    (hfresh : ∀ jti, request.draws? = some jti → jti ∉ drawnJtis served) :
    (request.program cfg).Wp machine Eq
      (fun outcome w' => LastMapped cfg (served ++ [⟨request, outcome, w, w'⟩]) w') w := by
  -- only a creation and a refresh issue a token
  cases request with
  | createSession k jti r =>
    refine wp_map.mpr ((createSession_returns k jti r w).mono ?_)
    rintro x w' ⟨rfl, hnow, hentry, hothers⟩
    refine issue_lastMapped (r.userId.getD "") h rfl hnow (fun k₀ => ?_) hentry ?_
    · show Option.map _ (if k = k₀ then _ else _) = _
      rw [hnow]
      split_ifs <;> rfl
    · intro j k₀ hj _ _
      exact hothers j fun heq => hfresh jti rfl (heq ▸ hj)
  | refreshToken newJti token =>
    refine wp_map.mpr (authenticate_bind_instant (fun err => ?_) fun payload jti k _ _ hjti => ?_)
    · exact failed_lastMapped h ⟨err, rfl⟩
    · refine (rotate_returns cfg newJti payload jti k w).mono ?_
      rintro x w' ⟨rfl, hnow, hentry, hothers⟩
      refine issue_lastMapped (payload.sub.getD "") h rfl hnow (fun k₀ => ?_) hentry ?_
      · show Option.map _ (if k = k₀ then _ else _) = _
        rw [hnow]
        split_ifs <;> rfl
      · intro j k₀ hj hk₀ hkey
        have hne : j ≠ newJti := fun heq => hfresh newJti rfl (heq ▸ hj)
        -- the `jti` that is revoked belongs to the session of the token
        have hne' : j ≠ jti := by
          rintro rfl
          exact hk₀ (hkey k hjti).symm
        rw [hothers j hne, if_neg hne']
  | closeSessionByToken => exact hspares.elim
  | verifyTokenAndGetSession token =>
    exact quiet_lastMapped (AuthService.verifyTokenAndGetSession_within token) (fun _ _ => rfl) h
  | pingSessionByToken token =>
    exact quiet_lastMapped (AuthService.pingSessionByToken_within token) (fun _ _ => rfl) h
  | resolveSession r =>
    exact quiet_lastMapped (SessionService.resolveSession_within r) (fun _ _ => rfl) h
  | patchSessionState r =>
    exact quiet_lastMapped (TokenOwnership.not_jti_of_within
      (SessionService.patchSessionState_within cfg r)) (fun _ _ => rfl) h
  | closeSession r =>
    exact quiet_lastMapped (TokenOwnership.not_jti_of_within
      (SessionService.closeSession_within r)) (fun _ _ => rfl) h
  | saveApiResult k r =>
    exact quiet_lastMapped (SessionService.saveApiResult_within cfg id r) (fun _ _ => rfl) h
  | updateRealtimePersonalContext lookup k data =>
    exact quiet_lastMapped (TokenOwnership.not_jti_of_within
      (ProfileService.updateRealtimePersonalContext_within cfg lookup k data)) (fun _ _ => rfl) h

/-- The invariant holds after every run that draws a new `jti` each time. -/
theorem lastMapped_history {now : ℕ} (h : History cfg Eq World.Elapses (.init now) served w)
    (hspares : ∀ s ∈ served, s.request.SparesTokens) (hfresh : (drawnJtis served).Nodup) :
    LastMapped cfg served w := by
  refine h.invariant (I := fun served w => (∀ s ∈ served, s.request.SparesTokens) →
    (drawnJtis served).Nodup → LastMapped cfg served w) ?_ (fun served request w hI => ?_) ?_
    hspares hfresh
  · intro served w w' helapses hI hs hf k token issued hlast
    obtain ⟨jti, userId, hmapped⟩ := hI hs hf k token issued hlast
    exact ⟨jti, userId, hmapped.elapses helapses⟩
  · by_cases hok : request.SparesTokens ∧ (∀ s ∈ served, s.request.SparesTokens) ∧
        (drawnJtis served).Nodup ∧ ∀ jti, request.draws? = some jti → jti ∉ drawnJtis served
    · obtain ⟨hspare, hspares, hnodup, hnew⟩ := hok
      exact (request_lastMapped request hspare (hI hspares hnodup) hnew).mono fun _ _ h' _ _ => h'
    · refine wp_iff_exec.mpr fun outcome w' _ hs hf => absurd ?_ hok
      exact ⟨hs _ (List.mem_append_right _ List.mem_cons_self),
        fun s hmem => hs s (List.mem_append_left _ hmem), nodup_filterMap_snoc hf⟩
  · rintro _ _ k token issued hlast
    cases hlast

/-! ### Exchanging the last token -/

/-- What is said of the last refresh token of a session: the session is there and not closed, and
the `exp` of the token has not come. -/
structure Current (k : String) (token : Token) (w : World) : Prop where
  session : (w.entry (.session k)).isSome
  notClosed : w.field k .sessionState ≠ some (value SessionState.end_)
  notExpired : ∀ payload, token = .signed payload → ¬ payload.Expired w.now

/-- The token can be exchanged, whatever the new `jti`. -/
def Exchangeable (cfg : Config) (token : Token) (w : World) : Prop :=
  ∀ newJti, ∃ response, ((AuthService.refreshToken cfg newJti token).run machine w).1 = .ok response

/-- A live session can be kept alive by a refresh token. -/
def KeptAlive (cfg : Config) (k : String) (token : Token) (w : World) : Prop :=
  Current k token w → Exchangeable cfg token w

/-- A refresh token is not from the future. -/
theorem not_immature (cfg : Config) (jti userId : String) {issued now : ℕ} (h : issued ≤ now) :
    ¬ (tokenPayload jti userId "refresh" cfg.jwtRefreshTokenExpireSeconds issued issued).Immature
      now := by
  rintro ⟨iat, hiat, hlt⟩
  obtain rfl : issued / 1000 = iat := by simpa [tokenPayload] using hiat
  have := Nat.div_mul_le_self issued 1000
  omega

/-- A token can be exchanged exactly when its claims are accepted and its `jti` is mapped. -/
theorem exchangeable_iff {w : World} :
    Exchangeable cfg token w ↔ ∃ payload jti k, token = .signed payload ∧
      acceptedJti (some "refresh") payload w.now = .ok jti ∧ w.jti jti = some k ∧ k ≠ "" := by
  constructor
  · intro hexchange
    obtain ⟨response, hrun⟩ := hexchange ""
    -- whatever the check refuses ends in an error
    by_contra hnone
    have hrefused : (AuthService.refreshToken cfg "" token).Wp machine Eq
        (fun x _ => ∃ err, x = .error err) w := by
      cases token with
      | invalid text => exact ⟨_, rfl⟩
      | signed payload =>
        cases haccepted : acceptedJti (some "refresh") payload w.now with
        | error err =>
          unfold AuthService.refreshToken
          rw [authenticate_signed, bind_assoc, wp_perform_bind_eq]
          show Wp machine Eq _ _ w
          have hnow : acceptedJti (some "refresh") payload (machine .now w).1 = .error err :=
            haccepted
          rw [hnow, bind_assoc]
          exact ⟨err, rfl⟩
        | ok jti =>
          cases hjti : w.jti jti with
          | none => exact (authenticate_bind_of_unmapped haccepted hjti).mpr ⟨_, rfl⟩
          | some k =>
            have hempty : k = "" := by
              by_contra hk
              exact hnone ⟨payload, jti, k, rfl, haccepted, hjti, hk⟩
            subst hempty
            exact (authenticate_bind_of_empty haccepted hjti).mpr ⟨_, rfl⟩
    obtain ⟨err, herr⟩ := wp_eq_iff_run.mp hrefused
    rw [hrun] at herr
    cases herr
  · rintro ⟨payload, jti, k, rfl, haccepted, hjti, hk⟩ newJti
    exact wp_eq_iff_run.mp ((authenticate_bind_of_mapped
      (f := fun x => AuthService.rotate cfg newJti x.1 x.2.1 x.2.2)
      (Q := fun x _ => ∃ response, x = .ok response) haccepted hjti hk).mpr
      ((rotate_returns cfg newJti _ jti k w).mono fun x w' hx => ⟨_, hx.1⟩))

/-- A mapped token that has not expired can be exchanged exactly as long as its mapping is
there. -/
theorem Mapped.exchangeable_iff {jti userId : String}
    (h : Mapped cfg served k token issued jti userId w) (hjti : jti ≠ "") (hk : k ≠ "")
    (hvalid : ∀ payload, token = .signed payload → ¬ payload.Expired w.now) :
    Exchangeable cfg token w ↔ w.now ≤ expiry cfg issued := by
  obtain ⟨rfl, -, hle, hentry⟩ := h
  have haccepted : acceptedJti (some "refresh")
      (tokenPayload jti userId "refresh" cfg.jwtRefreshTokenExpireSeconds issued issued) w.now =
        .ok jti := by
    refine acceptedJti_eq_ok.mpr ⟨not_immature cfg jti userId hle, hvalid _ rfl, .inr rfl, ?_⟩
    simp [Payload.jtiClaim, tokenPayload, hjti]
  have hmapping : w.jti jti = if w.now ≤ expiry cfg issued then some k else none := by
    rw [World.jti, World.get_eq_entry, hentry]
    split_ifs <;> rfl
  rw [TokenWindow.exchangeable_iff]
  constructor
  · rintro ⟨payload, jti', k', htoken, haccepted', hjti', -⟩
    by_contra hlate
    -- the mapping of the one `jti` of the token is gone
    cases htoken
    rw [haccepted, Except.ok.injEq] at haccepted'
    rw [← haccepted', hmapping, if_neg hlate] at hjti'
    cases hjti'
  · intro hlive
    exact ⟨_, jti, k, rfl, haccepted, by rw [hmapping, if_pos hlive], hk⟩

end TokenWindow

open TokenWindow in
/-- The last refresh token of a live session keeps it alive for as long as the mapping of its `jti`
lives, a lifetime from when it was issued, and no longer. -/
theorem keptAlive_iff (cfg : Config) {now : ℕ} {served : List Served} {w w' : World}
    (h : History cfg Eq World.Elapses (.init now) served w)
    (hspares : ∀ s ∈ served, s.request.SparesTokens) (hfresh : (drawnJtis served).Nodup)
    (hnonempty : "" ∉ drawnJtis served) {k : String} (hk : k ≠ "") {token : Token} {issued : ℕ}
    (hlast : lastIssued k served = some (token, issued)) (helapses : w.Elapses w') :
    KeptAlive cfg k token w' ↔ (Current k token w' → w'.now ≤ expiry cfg issued) := by
  obtain ⟨jti, userId, hmapped⟩ := lastMapped_history h hspares hfresh k token issued hlast
  have hjti : jti ≠ "" := fun heq => hnonempty (heq ▸ hmapped.drawn)
  have hlater := hmapped.elapses helapses
  exact forall_congr' fun hcurrent => hlater.exchangeable_iff hjti hk hcurrent.notExpired

namespace TokenWindow

/-- A session is opened at instant 0. -/
def opened : Served := (Request.createSession "gsess_1" "jti_0" {}).serve .default (.init 0)

/-- A patch to `talk` extends it 200 seconds later. -/
def talked : Served :=
  (Request.patchSessionState { globalSessionKey := "gsess_1", sessionState := some .talk }).serve
    .default (opened.after.advance 200000)

/-- The refresh token of the session. -/
def openedToken : Token := refreshTokenAt .default "jti_0" "" 0

theorem talked_history :
    History .default Eq World.Elapses (.init 0) [opened, talked] talked.after := by
  have hopened : History .default Eq World.Elapses (.init 0) [opened] opened.after :=
    .snoc .nil (.refl _) (Program.Exec.of_run (fun _ => rfl) _ _)
  exact .snoc hopened ⟨200000, rfl⟩ (Program.Exec.of_run (fun _ => rfl) _ _)

/-- The session lives until 500 seconds and its token until 330. -/
theorem talked_current {d : ℕ} (hd : d < 130000) :
    Current "gsess_1" openedToken (talked.after.advance d) := by
  obtain ⟨e, he, hexpires, hstate⟩ : ∃ e : TtlStore.Entry Hash,
      talked.after.entry (.session "gsess_1") = some e ∧ e.expiresAt = some 500000 ∧
        e.value .sessionState = some "talk" := ⟨_, rfl, rfl, rfl⟩
  have hentry : (talked.after.advance d).entry (.session "gsess_1") = some e := by
    refine World.Elapses.entry_of_live ⟨d, rfl⟩ he ?_
    refine (TtlStore.Entry.live_iff_of_some hexpires _).mpr ?_
    show 200000 + d ≤ 500000
    omega
  refine ⟨by rw [hentry]; rfl, ?_, ?_⟩
  · rw [World.field, World.hash_of_entry hentry, Option.bind_some, hstate]
    decide
  · rintro payload hpayload ⟨exp, hexp, hle⟩
    obtain rfl := Token.signed.inj hpayload
    obtain rfl : 330 = exp := Option.some.inj hexp
    have hnow : (talked.after.advance d).now = 200000 + d := rfl
    omega

/-- Within the lifetime of its mapping the token keeps the session alive. -/
theorem keptAlive_talked : Current "gsess_1" openedToken (talked.after.advance 50000) ∧
    KeptAlive .default "gsess_1" openedToken (talked.after.advance 50000) := by
  refine ⟨talked_current (by decide), ?_⟩
  have hspares : ∀ s ∈ [opened, talked], s.request.SparesTokens := by
    intro s hs
    simp only [List.mem_cons, List.not_mem_nil, or_false] at hs
    rcases hs with rfl | rfl <;> trivial
  exact (keptAlive_iff .default talked_history hspares (by decide) (by decide) (by decide) rfl
    ⟨50000, rfl⟩).mpr fun _ => by decide

/-- After 310 seconds the session is there and its token has not expired, but the token is
refused: the patch has extended the session and not the mapping. -/
theorem not_keptAlive_talked :
    History .default Eq World.Elapses (.init 0) [opened, talked] talked.after ∧
      lastIssued "gsess_1" [opened, talked] = some (openedToken, 0) ∧
      Current "gsess_1" openedToken (talked.after.advance 110000) ∧
      ¬ KeptAlive .default "gsess_1" openedToken (talked.after.advance 110000) := by
  refine ⟨talked_history, rfl, talked_current (by decide), fun hkept => ?_⟩
  obtain ⟨response, hrun⟩ := hkept (talked_current (by decide)) "jti_1"
  have hrefused : ((AuthService.refreshToken .default "jti_1" openedToken).run machine
      (talked.after.advance 110000)).1 = .error (unauthorized "Token expired or invalid") := rfl
  cases hrefused.symm.trans hrun

end TokenWindow

end SessionManager
