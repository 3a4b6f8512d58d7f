import SessionManager.SoleMappings

/-!
# Closing a session revokes its tokens

Closing a session is meant to end its tokens at once. The close by a token deletes the mapping of
the `jti` that this token carries; the close by the key deletes none, so whatever tokens the session
has can still be presented.

* `Rejected` — every operation that takes a token answers this one with 401.
* `Spent` — a token that is rejected now and later.
* `ClosedAlike` — both ways to close a session leave the same.
* `Revokes` — what every close of a run is meant to do.
* `NothingToRevoke` — no close of a run meets a token that could still be presented.
* `ByValidToken` — a close by a token that is still valid at its end.
* `revokes_iff` — the runs whose closes do what they are meant to do.
-/

namespace SessionManager

open Python Interaction
open SessionService AuthService

open Program hiding pure

namespace RevokedTokens

open TokenOwnership IssuedTokens ClosedSessions SoleMappings TokenRule

variable {cfg : Config} {served : List Served} {w w' : World} {k : String} {token : Token}

/-- The operation answers with 401, however much time passes meanwhile. -/
def RefusedThroughout {α : Type} (p : Svc α) (w : World) : Prop :=
  p.Wp machine World.Elapses (fun x _ => ∃ detail, x = .error (unauthorized detail)) w

/-- The operations that take a token reject this one. -/
structure Rejected (cfg : Config) (token : Token) (w : World) : Prop where
  verify : RefusedThroughout (verifyTokenAndGetSession token) w
  ping : RefusedThroughout (pingSessionByToken token) w
  close : ∀ closeReason, RefusedThroughout (closeSessionByToken token closeReason) w
  refresh : ∀ newJti, RefusedThroughout (AuthService.refreshToken cfg newJti token) w

/-- Closing session `k` by its key and closing it by `token` leave the same hash and the same live
mappings, when they end at the same instant. -/
def ClosedAlike (k : String) (token : Token) (w : World) : Prop :=
  ∀ (request : SessionCloseRequest) (response response' : SessionCloseResponse) (w₁ w₂ : World),
    request.globalSessionKey = k →
    (closeSession request).Exec machine World.Elapses w (.ok response) w₁ →
    (closeSessionByToken token request.closeReason).Exec machine World.Elapses w
      (.ok response') w₂ →
    w₁.now = w₂.now → SameSession k w₁ w₂ ∧ ∀ jti, (w₁.jti jti).isSome = (w₂.jti jti).isSome

/-- Every close that has returned has revoked the tokens issued before it for its session, and it
could as well have been made in the other way. -/
def Revokes (cfg : Config) (served : List Served) (w : World) : Prop :=
  ∀ before s later, served = before ++ s :: later → ∀ k, s.Closes k →
    ∀ token, IssuedTo k before token →
      (∀ w', w.Elapses w' → Rejected cfg token w') ∧ ClosedAlike k token s.before

/-- No close that has returned met a token of its session that was neither expired nor without its
mapping. -/
def NothingToRevoke (served : List Served) : Prop :=
  ∀ before s later, served = before ++ s :: later → ∀ k, s.Closes k →
    ∀ token, IssuedTo k before token → ¬ ∃ payload, Presents token payload k s.before

/-- The request presents a token whose `exp` has not come when it ends. -/
def ByValidToken (s : Served) : Prop :=
  ∃ token closeReason, s.request = .closeSessionByToken token closeReason ∧
    ∀ payload, token = .signed payload → ¬ payload.Expired s.after.now

/-! ### Rejected tokens -/

/-- The claims of the token have expired, or its `jti` names no session. -/
def Spent (token : Token) (w : World) : Prop :=
  ∀ payload, token = .signed payload → payload.Expired w.now ∨
    ∀ jti k, payload.jtiClaim = some jti → w.jti jti = some k → k = ""

/-- Time does not bring a token back. -/
theorem Spent.later (h : Spent token w) (hnow : w.now ≤ w'.now)
    (hjti : ∀ jti k, token.jti? = some jti → w'.jti jti = some k → w.jti jti = some k) :
    Spent token w' := by
  rintro payload rfl
  rcases h payload rfl with ⟨exp, hexp, hle⟩ | hunmapped
  · exact .inl ⟨exp, hexp, Nat.le_trans hle hnow⟩
  · refine .inr fun jti k hclaim hk => hunmapped jti k hclaim (hjti jti k ?_ hk)
    exact (Option.filter_eq_some_iff.mp hclaim).1

theorem Spent.elapses (h : Spent token w) (helapses : w.Elapses w') : Spent token w' :=
  h.later helapses.now_le fun _ _ _ hk => helapses.get hk

/-- A check does not accept a token that is spent. -/
theorem Spent.not_accepted (h : Spent token w) {payload : Payload} {type : Option String}
    {jti k : String} {w₁ w₂ : World} (htoken : token = .signed payload) (h₁ : w.Elapses w₁)
    (h₂ : w₁.Elapses w₂) (haccepted : acceptedJti type payload w₁.now = .ok jti)
    (hjti : w₂.jti jti = some k) (hk : k ≠ "") : False := by
  obtain ⟨-, hunexpired, -, hclaim⟩ := acceptedJti_eq_ok.mp haccepted
  rcases (h.elapses h₁) payload htoken with hexpired | hunmapped
  · exact hunexpired hexpired
  · exact hk (hunmapped jti k hclaim (h₂.get hjti))

theorem Spent.getGlobalSessionKeyFromToken {α : Type} (h : Spent token w) (f : String → Svc α) :
    RefusedThroughout (getGlobalSessionKeyFromToken token >>= f) w :=
  getGlobalSessionKeyFromToken_bind (fun detail _ _ => ⟨detail, rfl⟩)
    fun _ _ _ _ _ htoken h₁ h₂ haccepted hjti hk =>
      (h.not_accepted htoken h₁ h₂ haccepted hjti hk).elim

theorem Spent.authenticate {α : Type} (h : Spent token w) (type : String)
    (f : Payload × String × String → Svc α) :
    RefusedThroughout (authenticate token type >>= f) w :=
  authenticate_bind (fun detail _ _ => ⟨detail, rfl⟩)
    fun _ _ _ _ _ htoken h₁ h₂ haccepted hjti hk =>
      (h.not_accepted htoken h₁ h₂ haccepted hjti hk).elim

/-- A token that is spent is rejected. -/
theorem Spent.rejected (h : Spent token w) (cfg : Config) : Rejected cfg token w where
  verify := h.authenticate "access" _
  ping := h.getGlobalSessionKeyFromToken _
  close _ := h.getGlobalSessionKeyFromToken _
  refresh _ := h.authenticate "refresh" _

/-- An issued token that cannot be presented is spent. -/
theorem spent_of_not_presents {jti : String} (hbound : BoundTo served k jti token w)
    (hnone : ¬ ∃ payload, Presents token payload k w) : Spent token w := by
  rintro payload rfl
  by_cases hexpired : payload.Expired w.now
  · exact .inl hexpired
  · refine .inr fun jti' k' hclaim hjti' => ?_
    have hjti : payload.jti = some jti := hbound.jti_eq
    obtain rfl := Option.some.inj (hjti.symm.trans (Option.filter_eq_some_iff.mp hclaim).1)
    -- its mapping names the session it was issued for
    obtain ⟨e, hlook, rfl⟩ := TtlStore.get_eq_some_iff.mp hjti'
    have hvalue := hbound.mapped e (TtlStore.lookup_eq_some_iff.mp hlook).1
    by_contra hk'
    rw [hvalue] at hk' hjti'
    exact hnone ⟨payload, rfl, hbound.mature payload rfl, hexpired, ⟨jti, hclaim, hjti'⟩, hk'⟩

/-- A token that is spent stays so in runs that do not draw its `jti`. -/
theorem Spent.history {w₀ : World} (hspent : Spent token w₀)
    (h : History cfg World.Elapses World.Elapses w₀ served w)
    (hjti : ∀ jti, token.jti? = some jti → jti ∉ drawnJtis served) : Spent token w := by
  cases htoken : token.jti? with
  | none =>
    rintro payload rfl
    refine .inr fun jti k hclaim => ?_
    have hsome : payload.jti = some jti := (Option.filter_eq_some_iff.mp hclaim).1
    cases hsome.symm.trans htoken
  | some jti =>
    obtain ⟨hle, hsame⟩ := jti_of_history h (hjti jti htoken)
    refine hspent.later hle fun jti' k hjti' hk => ?_
    obtain rfl := Option.some.inj (htoken.symm.trans hjti')
    exact hsame k hk

/-! ### Closing -/

/-- Where a token could be presented, the two ways to close its session leave different
mappings. -/
theorem not_closedAlike {payload : Payload} (h : Presents token payload k w)
    {e : TtlStore.Entry Hash} (he : w.entry (.session k) = some e) : ¬ ClosedAlike k token w := by
  intro halike
  obtain ⟨x, w₁, hexec, ⟨response, rfl⟩, hnow, hsame⟩ := exec_of_instant
    (closeSession_instant { globalSessionKey := k } rfl he)
  obtain ⟨x', w₂, hexec', ⟨response', rfl⟩, hnow', hgone⟩ := exec_of_instant
    (closeSessionByToken_instant h none he)
  obtain ⟨jti, hclaim, hjti⟩ := h.mapped
  have hboth := (halike _ _ _ w₁ w₂ rfl hexec hexec' (hnow.trans hnow'.symm)).2 jti
  rw [hsame, hjti, hgone jti hclaim] at hboth
  cases hboth

/-- A token that is spent closes nothing. -/
theorem closedAlike_of_spent (h : Spent token w) (k : String) : ClosedAlike k token w := by
  intro request response response' w₁ w₂ _ _ hexec' _
  obtain ⟨detail, hx⟩ := ((h.rejected .default).close request.closeReason).exec hexec'
  cases hx

/-! ### Closes of a run -/

section Run

variable {before later : List Served} {s : Served} {now : ℕ}

/-- The tokens that were issued before a request of a run, as the request meets them. -/
theorem ledger_before (h : History cfg World.Elapses World.Elapses (.init now) served w)
    (hfresh : (drawnJtis served).Nodup) (hserved : served = before ++ s :: later) :
    Ledger before s.before := by
  obtain ⟨w₁, hprefix, helapses, -, -⟩ := h.split hserved
  rw [hserved, drawnJtis, List.filterMap_append, List.nodup_append] at hfresh
  exact (ledger_history hprefix hfresh.1).elapses helapses

/-- A token that is spent when the request begins or ends is spent at the end of the run. -/
theorem Spent.run (h : History cfg World.Elapses World.Elapses (.init now) served w)
    (hfresh : (drawnJtis served).Nodup) (hserved : served = before ++ s :: later) {jti : String}
    (hbound : BoundTo before k jti token s.before)
    (hspent : Spent token s.before ∨ Spent token s.after) : Spent token w := by
  obtain ⟨w₁, -, -, hexec, hlater⟩ := h.split hserved
  have hrequest : History cfg World.Elapses World.Elapses s.before [s] s.after :=
    .snoc .nil (.refl _) hexec
  -- neither the request nor the rest of the run draws the `jti` of the token
  have hnew : jti ∉ drawnJtis ([s] ++ later) := by
    intro hmem
    rw [hserved, drawnJtis, List.filterMap_append, List.nodup_append] at hfresh
    exact hfresh.2.2 jti hbound.drawn jti hmem rfl
  rw [drawnJtis, List.filterMap_append, List.mem_append, not_or] at hnew
  have hsame (jti' : String) (hjti' : token.jti? = some jti') : jti' = jti :=
    Option.some.inj (hjti'.symm.trans hbound.jti_eq)
  have hafter : Spent token s.after := by
    rcases hspent with hspent | hspent
    · exact hspent.history hrequest fun jti' hjti' => hsame jti' hjti' ▸ hnew.1
    · exact hspent
  exact hafter.history hlater fun jti' hjti' => hsame jti' hjti' ▸ hnew.2

/-- A token whose mapping is not stored is spent. -/
theorem spent_of_not_stored {jti : String} (hjti : token.jti? = some jti)
    (hnone : w.store (.jti jti) = none) : Spent token w := by
  rintro payload rfl
  refine .inr fun jti' k hclaim hk => ?_
  have hsame : payload.jti = some jti := hjti
  obtain rfl := Option.some.inj (hsame.symm.trans (Option.filter_eq_some_iff.mp hclaim).1)
  obtain ⟨e, hlook, -⟩ := TtlStore.get_eq_some_iff.mp hk
  rw [(TtlStore.lookup_eq_some_iff.mp hlook).1] at hnone
  cases hnone

/-- After a close by a token that is still valid, every token of the session is spent. -/
theorem spent_of_byValidToken (hexec : (s.request.program cfg).Exec machine World.Elapses s.before
      s.outcome s.after) (hsole : SoleMapping before s.before) (hcloses : s.Closes k)
    (hvalid : ByValidToken s) {jti : String} (hbound : BoundTo before k jti token s.before) :
    Spent token s.after := by
  obtain ⟨-, response, houtcome, hk⟩ := hcloses
  obtain ⟨presented, closeReason, hrequest, hunexpired⟩ := hvalid
  rw [hrequest, houtcome] at hexec
  have hclose : (Request.program cfg (.closeSessionByToken presented closeReason)).Wp machine
      World.Elapses (fun outcome w' => outcome = .ok (.closed response) →
        (∀ payload, presented = .signed payload → ¬ payload.Expired w'.now) →
          TakesAway s.before w' ∧ ∃ j e, s.before.store (.jti j) = some e ∧ e.value = k ∧
            w'.store (.jti j) = none) s.before := by
    refine wp_map.mpr ((closeSessionByToken_deletes presented closeReason s.before).mono ?_)
    rintro x w' h hx
    cases x with
    | error err => cases hx
    | ok response' =>
      obtain rfl := Response.closed.inj (Except.ok.inj hx)
      exact h response' k rfl hk
  obtain ⟨htakes, j, e, he, hvalue, hgone⟩ := hclose.exec hexec rfl hunexpired
  refine spent_of_not_stored hbound.jti_eq ?_
  -- the deleted mapping is the one that the token has, if it has one
  cases hstored : s.after.store (.jti jti) with
  | none => rfl
  | some e' =>
    have he' := htakes jti e' hstored
    obtain rfl := hsole.sole j jti e e' he he' (hvalue.trans (hbound.mapped e' he').symm)
    cases hgone.symm.trans hstored

end Run

end RevokedTokens

open RevokedTokens IssuedTokens ClosedSessions in
/-- Both ways to close a session leave the same hash when the session does not expire meanwhile, and
a close by a token that is still valid revokes every token of its session. But all closes of a run
revoke the tokens of their sessions, and do so alike, exactly if there was nothing to revoke: every
token of the session had expired or lost its mapping before. -/
theorem revokes_iff (cfg : Config) {now : ℕ} {served : List Served} {w : World}
    (h : History cfg World.Elapses World.Elapses (.init now) served w)
    (hfresh : (drawnJtis served).Nodup) :
    (∀ (request : SessionCloseRequest) (token : Token) (response response' : SessionCloseResponse)
      (w₀ w₁ w₂ : World), (closeSession request).Exec machine
          (World.Keeps (.session request.globalSessionKey)) w₀ (.ok response) w₁ →
        (closeSessionByToken token request.closeReason).Exec machine
          (World.Keeps (.session request.globalSessionKey)) w₀ (.ok response') w₂ →
        response'.archivedConversationId = archivedId request.globalSessionKey →
        SameSession request.globalSessionKey w₁ w₂) ∧
      ((createdKeys served).Nodup → ∀ before s later, served = before ++ s :: later →
        ∀ k, s.Closes k → ByValidToken s → ∀ token, IssuedTo k before token →
          ∀ w', w.Elapses w' → Rejected cfg token w') ∧
      (Revokes cfg served w ↔ NothingToRevoke served) := by
  refine ⟨fun request token response response' w₀ w₁ w₂ hexec hexec' hnames =>
    sameSession_of_closes rfl hexec hexec' hnames, ?_, ?_, ?_⟩
  · -- a close by a valid token spends the `jti` of the session, and with it every token
    intro hkeys before s later hserved k hcloses hvalid token hissued w' helapses
    obtain ⟨jti, hbound⟩ := (ledger_before h hfresh hserved).issued k token hissued
    obtain ⟨w₁, hprefix, hbetween, hexec, -⟩ := h.split hserved
    have hsole : SoleMappings.SoleMapping before s.before := by
      rw [hserved, createdKeys, List.filterMap_append, List.nodup_append] at hkeys
      exact (SoleMappings.soleMapping_history hprefix hkeys.1).takesAway
        (.of_same (.of_elapses hbetween))
    have hspent := spent_of_byValidToken hexec hsole hcloses hvalid hbound
    exact ((Spent.run h hfresh hserved hbound (.inr hspent)).elapses helapses).rejected cfg
  · rintro hrevokes before s later hserved k ⟨hclose, response, houtcome, hk⟩ token hissued
      ⟨payload, hpresents⟩
    obtain ⟨-, -, -, hexec, -⟩ := h.split hserved
    obtain ⟨e, he⟩ := (live_of_closes cfg hclose s.before).exec hexec response k houtcome hk
    -- a token that can still be presented would be closed differently by the other path
    exact not_closedAlike hpresents he
      (hrevokes before s later hserved k ⟨hclose, response, houtcome, hk⟩ token hissued).2
  · -- what cannot be presented at the close is spent, and stays so
    intro hnothing before s later hserved k hcloses token hissued
    obtain ⟨jti, hbound⟩ := (ledger_before h hfresh hserved).issued k token hissued
    have hspent := spent_of_not_presents hbound
      (hnothing before s later hserved k hcloses token hissued)
    have hgone := Spent.run h hfresh hserved hbound (.inl hspent)
    exact ⟨fun w' helapses' => (hgone.elapses helapses').rejected cfg,
      closedAlike_of_spent hspent k⟩

namespace RevokedTokens

open TokenWindow IssuedTokens

/-- The session of `opened` is closed by its key. -/
def closed : Served :=
  (Request.closeSession { globalSessionKey := "gsess_1" }).serve .default opened.after

/-- The session of `talked` is closed by its key, after 310 seconds. -/
def closedLate : Served :=
  (Request.closeSession { globalSessionKey := "gsess_1" }).serve .default
    (talked.after.advance 110000)

/-- A request served at once, some time after a run. -/
theorem history_serve {w₀ w : World} {served : List Served}
    (h : History .default World.Elapses World.Elapses w₀ served w) (d : ℕ) (request : Request) :
    History .default World.Elapses World.Elapses w₀
      (served ++ [request.serve .default (w.advance d)])
      (request.serve .default (w.advance d)).after :=
  .snoc h ⟨d, rfl⟩ (Exec.of_run World.Elapses.refl _ _)

theorem opened_history :
    History .default World.Elapses World.Elapses (.init 0) [opened] opened.after :=
  history_serve .nil 0 _

/-- When the session is closed, its tokens have lost their mapping 10 seconds before. -/
theorem revokes_closedLate :
    Revokes .default [opened, talked, closedLate] closedLate.after := by
  have hhistory : History .default World.Elapses World.Elapses (.init 0)
      [opened, talked, closedLate] closedLate.after :=
    history_serve (history_serve opened_history 200000 _) 110000 _
  refine (revokes_iff .default hhistory (by decide)).2.2.mpr ?_
  rintro before s later hserved k ⟨hclose, -⟩ token ⟨s', hs', response, hx, -, hmem⟩
    ⟨payload, hpresents⟩
  have hall (s : Served) (hs : s ∈ [opened, talked, closedLate]) :
      s = opened ∨ s = talked ∨ s = closedLate := by simpa using hs
  have hs : s ∈ [opened, talked, closedLate] := by simp [hserved]
  have hbefore : s' ∈ [opened, talked, closedLate] := by simp [hserved, hs']
  -- both tokens come from the creation
  have htoken : token ∈ [accessTokenAt .default "jti_0" "" 0, openedToken] := by
    rcases hall s' hbefore with rfl | rfl | rfl <;> obtain rfl := Except.ok.inj hx
    · exact hmem
    · cases hmem
    · cases hmem
  obtain rfl : s = closedLate := by
    rcases hall s hs with rfl | rfl | rfl
    · exact hclose.elim
    · exact hclose.elim
    · rfl
  -- their `jti` has expired before the close
  obtain ⟨jti, hclaim, hjti⟩ := hpresents.mapped
  have hgone : closedLate.before.jti "jti_0" = none := rfl
  have hsame : jti = "jti_0" := by
    have hsigned := hpresents.signed
    simp only [List.mem_cons, List.not_mem_nil, or_false] at htoken
    rcases htoken with rfl | rfl <;> obtain rfl := Token.signed.inj hsigned <;>
      exact (Option.some.inj hclaim).symm
  rw [hsame, hgone] at hjti
  cases hjti

/-- A session is opened and closed by its key, and its refresh token is exchanged all the same. -/
theorem not_revokes :
    History .default World.Elapses World.Elapses (.init 0) [opened, closed] closed.after ∧
      (drawnJtis [opened, closed]).Nodup ∧ closed.Closes "gsess_1" ∧
      IssuedTo "gsess_1" [opened] openedToken ∧
      (∃ response, ((AuthService.refreshToken .default "jti_1" openedToken).run machine
        closed.after).1 = .ok response) ∧
      ¬ Revokes .default [opened, closed] closed.after := by
  have hhistory : History .default World.Elapses World.Elapses (.init 0) [opened, closed]
      closed.after := history_serve opened_history 0 _
  have hcloses : closed.Closes "gsess_1" := ⟨trivial, _, rfl, rfl⟩
  have hissued : IssuedTo "gsess_1" [opened] openedToken :=
    ⟨opened, List.mem_cons_self, _, rfl, rfl, List.mem_cons_of_mem _ List.mem_cons_self⟩
  obtain ⟨response, hrefreshed⟩ : ∃ response,
      ((AuthService.refreshToken .default "jti_1" openedToken).run machine closed.after).1 =
        .ok response := ⟨_, rfl⟩
  refine ⟨hhistory, by decide, hcloses, hissued, ⟨response, hrefreshed⟩, fun hrevokes => ?_⟩
  have hrejected := (hrevokes [opened] closed [] rfl "gsess_1" hcloses openedToken hissued).1
    closed.after (.refl _)
  obtain ⟨detail, hrefused⟩ := (hrejected.refresh "jti_1").exec (Exec.of_run World.Elapses.refl _ _)
  cases hrefused.symm.trans hrefreshed

end RevokedTokens

end SessionManager
