import SessionManager.Interaction.Failure
import SessionManager.TokenWindow

/-!
# Requests that break off

No request undoes anything: a command of Redis that fails ends it, and what the earlier commands
did stays. For the two requests that hand out tokens, this is what it leaves of the mappings.

* `createSession_always`, `refreshToken_always` — the mappings at every command of the request.
* `failed_credentials` — what a request that broke off leaves of the credentials.
-/

namespace SessionManager

open Python Interaction

/-- The world with another clock. -/
def World.at (w : World) (t : ℕ) : World := { w with now := t }

/-- The command goes to Redis. -/
def Command.IsRedis : Command → Prop
  | .now => False
  | .eslog _ => False
  | _ => True

/-- The command is the `SETEX` that maps a `jti`. -/
def Command.Binds : Command → Prop
  | .setex (.jti _) _ _ => True
  | _ => False

/-- Mapping a `jti` is a command of Redis. -/
theorem Command.Binds.isRedis {c : Command} (h : c.Binds) : c.IsRedis := by
  cases c <;> trivial

namespace FailedCommands

open SessionRepository RedisHelper
open TokenWindow
open Program hiding pure

/-- A mapping depends on its own entry only. -/
theorem jti_at_congr {w w' : World} {j : String} (h : w'.store (.jti j) = w.store (.jti j))
    (t : ℕ) :
    (w'.at t).jti j = (w.at t).jti j := by
  show w'.store.get t (.jti j) = w.store.get t (.jti j)
  simp [TtlStore.get, TtlStore.lookup_congr h]

/-- A command that changes no mapping does not map a `jti`. -/
theorem not_binds {c : Command} (hc : ∀ j, c.changes ≠ some (.jti j)) : ¬ c.Binds := by
  intro hbinds
  unfold Command.Binds at hbinds
  split at hbinds
  · exact hc _ rfl
  · exact hbinds

/-! ### create_session -/

/-- The mappings while a creation is on its way: at its first command they are as before, then the
drawn `jti` is mapped to the drawn key for at least a lifetime from the beginning. -/
structure Creating (cfg : Config) (k jti : String) (w : World) (c : Command) (w' : World) :
    Prop where
  before : c.Binds → SameJtis w w'
  after : ¬ c.Binds → (∃ t, expiry cfg w.now ≤ t ∧ w'.store (.jti jti) = some ⟨k, some t⟩) ∧
    ∀ j, j ≠ jti → w'.store (.jti j) = w.store (.jti j)

variable {cfg : Config} {k jti : String}

theorem createSession_always (cfg : Config) (request : SessionCreateRequest) (w : World) :
    (SessionService.createSession cfg k jti request).Always machine World.Elapses
      (Creating cfg k jti w) w := by
  unfold SessionService.createSession AuthService.createTokens setJtiMapping
  rw [bind_assoc]
  refine always_perform_bind.mpr fun w₁ h₁ => ?_
  have hsame : SameJtis w w₁ := SameJtis.of_elapses h₁
  refine ⟨⟨fun _ => hsame, fun hnot => absurd trivial hnot⟩, ?_⟩
  -- no later command changes a mapping
  refine Always.of_only (C := fun c : Command => ∀ j, c.changes ≠ some (.jti j))
    (I := fun w' : World => (∃ t, expiry cfg w.now ≤ t ∧
      w'.store (.jti jti) = some ⟨k, some t⟩) ∧ ∀ j, j ≠ jti → w'.store (.jti j) = w.store (.jti j))
    ?_ ?_ ?_ ?_ ?_
  · have hquiet {α : Type} {p : Svc α} (hp : p.Only (Command.Within fun key => ¬ key.IsJti)) :
        p.Only fun c : Command => ∀ j, c.changes ≠ some (.jti j) :=
      hp.mono fun c hc j heq => hc.changes heq trivial
    have htokens : (do
        let accessToken ← createAccessToken cfg jti (request.userId.getD "")
        let refreshToken ← createRefreshToken cfg jti (request.userId.getD "")
        pure ⟨accessToken, refreshToken, jti⟩ : Svc Tokens).Only
          (Command.Within fun key => ¬ key.IsJti) :=
      (createAccessToken_within cfg jti _).bind fun _ =>
        (createRefreshToken_within cfg jti _).bind fun _ => trivial
    refine hquiet (htokens.bind fun _ => ?_)
    exact (SessionService.create_within cfg (by simp [Key.IsJti])).bind fun _ =>
      ⟨trivial, fun _ => ⟨trivial, fun _ => trivial⟩⟩
  · rintro w₂ w₃ helapses ⟨⟨t, ht, hentry⟩, hothers⟩
    rw [helapses.store_eq]
    exact ⟨⟨t, ht, hentry⟩, hothers⟩
  · rintro c w₂ hc ⟨⟨t, ht, hentry⟩, hothers⟩
    refine ⟨⟨t, ht, (machine_store_of_ne (hc jti) w₂).trans hentry⟩, fun j hj => ?_⟩
    exact (machine_store_of_ne (hc j) w₂).trans (hothers j hj)
  · intro c w₂ hc hI
    exact ⟨fun hbinds => absurd hbinds (not_binds hc), fun _ => hI⟩
  · refine ⟨⟨expiry cfg w₁.now, ?_, ?_⟩, fun j hj => ?_⟩
    · have := h₁.now_le
      unfold expiry
      omega
    · exact TtlStore.setex_apply_self _ _ _ _
    · refine Eq.trans ?_ (hsame.stored j)
      exact TtlStore.setex_apply_of_ne (by simp [hj]) _ _

/-! ### refresh_token -/

/-- The mappings while a rotation is on its way: they are as before at every command of Redis but
the last, and at that one the mapping of the presented token is gone. -/
structure Rotating (token : Token) (w : World) (c : Command) (w' : World) : Prop where
  before : ¬ c.Binds → c.IsRedis → SameJtis w w'
  lost : c.Binds → ∀ j, token.jti? = some j → w'.store (.jti j) = none

theorem Rotating.of_quiet {token : Token} {w w' : World} {c : Command} (h : SameJtis w w')
    (hc : ∀ j, c.changes ≠ some (.jti j)) : Rotating token w c w' :=
  ⟨fun _ _ => h, fun hbinds => absurd hbinds (not_binds hc)⟩

theorem rotate_always {token : Token} {payload : Payload} {w w₁ : World} (newJti : String)
    (htoken : token.jti? = some jti) (h : SameJtis w w₁) :
    (AuthService.rotate cfg newJti payload jti k).Always machine World.Elapses
      (Rotating token w) w₁ := by
  have hquiet : (refreshTtl cfg k).Only fun c : Command => ∀ j, c.changes ≠ some (.jti j) :=
    (refreshTtl_within cfg k).mono fun c hc j heq => hc.changes heq
  refine Always.bind (fun _ w' => SameJtis w w') ?_ ?_ fun _ w₂ h₂ => ?_
  · exact Always.of_only (I := SameJtis w) hquiet (fun _ _ helapses h => h.elapses helapses)
      (fun c _ hc h => h.machine hc) (fun c _ hc h => .of_quiet h hc) h
  · refine (Wp.of_only (I := SameJtis w) hquiet (fun _ _ helapses h => h.elapses helapses)
      (fun c _ hc h => h.machine hc) h).mono fun x w' hsame _ _ => hsame
  · -- the clock is read four times for the two tokens
    intro w₃ h₃
    refine ⟨.of_quiet (h₂.elapses h₃) (by simp [Command.changes]), fun w₄ h₄ => ?_⟩
    refine ⟨.of_quiet ((h₂.elapses h₃).elapses h₄) (by simp [Command.changes]), fun w₅ h₅ => ?_⟩
    have hsame₅ : SameJtis w w₅ := ((h₂.elapses h₃).elapses h₄).elapses h₅
    refine ⟨.of_quiet hsame₅ (by simp [Command.changes]), fun w₆ h₆ => ?_⟩
    refine ⟨.of_quiet (hsame₅.elapses h₆) (by simp [Command.changes]), fun w₇ h₇ => ?_⟩
    -- the old mapping is deleted, and only then the new one stored
    refine ⟨⟨fun _ _ => (hsame₅.elapses h₆).elapses h₇, fun hbinds => hbinds.elim⟩, fun w₈ h₈ => ?_⟩
    refine ⟨⟨fun hnot => absurd trivial hnot, fun _ j hj => ?_⟩, fun w₉ h₉ => ?_⟩
    · rw [htoken, Option.some.injEq] at hj
      rw [← hj, h₈.store_eq]
      exact TtlStore.del_apply_self _ _
    · exact ⟨⟨fun _ hredis => hredis.elim, fun hbinds => hbinds.elim⟩, trivial⟩

theorem refreshToken_always (cfg : Config) (newJti : String) (token : Token) (w : World) :
    (AuthService.refreshToken cfg newJti token).Always machine World.Elapses
      (Rotating token w) w := by
  unfold AuthService.refreshToken
  cases token with
  | invalid text => trivial
  | signed payload =>
    rw [authenticate_signed, bind_assoc]
    refine always_perform_bind.mpr fun w₁ h₁ => ⟨?_, ?_⟩
    · exact .of_quiet (SameJtis.of_elapses h₁) (by simp [Command.changes])
    rw [bind_assoc]
    cases haccepted : acceptedJti (some "refresh") payload (machine .now w₁).1 with
    | error err => trivial
    | ok jti =>
      rw [ofExcept_ok, pure_bind', bind_assoc, sessionOfJti_bind]
      refine always_perform_bind.mpr fun w₂ h₂ => ?_
      have hsame : SameJtis w w₂ := (SameJtis.of_elapses h₁).elapses h₂
      refine ⟨.of_quiet hsame (by simp [Command.changes]), ?_⟩
      cases nonEmpty (machine (.get (.jti jti)) w₂).1 with
      | none => trivial
      | some k => exact rotate_always newJti (jti_of_acceptedJti haccepted) hsame

/-! ### What can still be exchanged -/

/-- With the same mappings the same tokens can be exchanged. -/
theorem exchangeable_congr {token : Token} {w w' : World} (h : SameJtis w w') (t : ℕ) :
    Exchangeable cfg token (w'.at t) ↔ Exchangeable cfg token (w.at t) := by
  rw [exchangeable_iff, exchangeable_iff]
  simp only [jti_at_congr (h.stored _) t]
  exact Iff.rfl

/-- A token whose mapping is gone cannot be exchanged. -/
theorem not_exchangeable {token : Token} {w : World}
    (h : ∀ j, token.jti? = some j → w.store (.jti j) = none) (t : ℕ) :
    ¬ Exchangeable cfg token (w.at t) := by
  rw [exchangeable_iff]
  rintro ⟨payload, jti, k, rfl, haccepted, hjti, -⟩
  have hgone : (w.at t).jti jti = none := by
    show w.store.get t (.jti jti) = none
    rw [TtlStore.get_eq_none_iff, TtlStore.lookup, h jti (jti_of_acceptedJti haccepted)]
  rw [hgone] at hjti
  cases hjti

/-- The mapping of a creation lives for a lifetime. -/
theorem jti_of_store {w : World} {t t' : ℕ} (h : w.store (.jti jti) = some ⟨k, some t⟩)
    (ht : t' ≤ t) : (w.at t').jti jti = some k := by
  have hlook : w.store.lookup t' (.jti jti) = some ⟨k, some t⟩ :=
    TtlStore.lookup_eq_some_iff.mpr ⟨h, (TtlStore.Entry.live_iff_of_some rfl _).mpr ht⟩
  exact TtlStore.get_of_lookup hlook

end FailedCommands

open FailedCommands TokenWindow in
/-- A request that breaks off at a command of Redis, at any instant `t` from then on. A creation
that breaks off at its first one, which maps the `jti`, leaves the mappings as they were; at a
later one it leaves the mapping of the drawn `jti` to the drawn key behind and no other. After a
rotation that breaks off the presented token can be exchanged as if there had been none, unless
the command is the last one, which maps the new `jti`: then the token is lost. -/
theorem failed_credentials (cfg : Config) {w w' : World} {c : Command} (hredis : c.IsRedis)
    (t : ℕ) :
    (∀ k jti request,
      (SessionService.createSession cfg k jti request).Breaks machine World.Elapses w c w' →
        (c.Binds → ∀ j, (w'.at t).jti j = (w.at t).jti j) ∧
        (¬ c.Binds → (t ≤ SessionRepository.expiry cfg w.now → (w'.at t).jti jti = some k) ∧
          ∀ j, j ≠ jti → (w'.at t).jti j = (w.at t).jti j)) ∧
    ∀ newJti token,
      (AuthService.refreshToken cfg newJti token).Breaks machine World.Elapses w c w' →
        (¬ c.Binds → (Exchangeable cfg token (w'.at t) ↔ Exchangeable cfg token (w.at t))) ∧
        (c.Binds → ¬ Exchangeable cfg token (w'.at t)) := by
  refine ⟨fun k jti request hbreaks => ?_, fun newJti token hbreaks => ?_⟩
  · have hcreating := (createSession_always cfg request w).breaks hbreaks
    refine ⟨fun hbinds j => jti_at_congr ((hcreating.before hbinds).stored j) t, fun hnot => ?_⟩
    obtain ⟨⟨t₀, hlifetime, hentry⟩, hothers⟩ := hcreating.after hnot
    exact ⟨fun ht => jti_of_store hentry (by omega), fun j hj => jti_at_congr (hothers j hj) t⟩
  · have hrotating := (refreshToken_always cfg newJti token w).breaks hbreaks
    exact ⟨fun hnot => exchangeable_congr (hrotating.before hnot hredis) t,
      fun hbinds => not_exchangeable (hrotating.lost hbinds) t⟩

namespace FailedCommands

open TokenWindow
open Program (commandAt breaks_of_commandAt)

/-- A new session and its refresh token. -/
def opened : World := ((Request.createSession "gsess_1" "jti_0" {}).serve .default (.init 0)).after

/-- The refresh token of the new session. -/
def firstToken : Token := refreshTokenAt .default "jti_0" "" 0

/-- The first token can be exchanged at the instant when it is issued. -/
theorem exchangeable_firstToken : Exchangeable .default firstToken opened := by
  rw [exchangeable_iff]
  exact ⟨_, "jti_0", "gsess_1", rfl, rfl, rfl, by decide⟩

/-- A creation that breaks off when it looks for an existing session leaves the mapping behind,
and a rotation that breaks off when it maps the new `jti` leaves a live session and a token that
cannot be exchanged any more. -/
theorem credentials_half_changed :
    (∃ c w', (SessionService.createSession .default "gsess_1" "jti_0" {}).Breaks machine
        World.Elapses (.init 0) c w' ∧ c.IsRedis ∧ (World.init 0).jti "jti_0" = none ∧
        w'.jti "jti_0" = some "gsess_1") ∧
      ∃ c w', (AuthService.refreshToken .default "jti_1" firstToken).Breaks machine World.Elapses
        opened c w' ∧ c.IsRedis ∧ Exchangeable .default firstToken opened ∧
        (w'.hash "gsess_1").isSome ∧ ¬ Exchangeable .default firstToken w' := by
  constructor
  · exact ⟨_, _, breaks_of_commandAt World.Elapses.refl (n := 5) rfl, trivial, rfl, rfl⟩
  · obtain ⟨c, w', hat, hbinds, hlive⟩ : ∃ c w', commandAt machine 13
        (AuthService.refreshToken .default "jti_1" firstToken) opened = some (c, w') ∧ c.Binds ∧
        (w'.hash "gsess_1").isSome := ⟨_, _, rfl, trivial, rfl⟩
    have hbreaks : (AuthService.refreshToken .default "jti_1" firstToken).Breaks machine
        World.Elapses opened c w' := breaks_of_commandAt World.Elapses.refl hat
    have hlost :=
      ((refreshToken_always .default "jti_1" firstToken opened).breaks hbreaks).lost hbinds
    exact ⟨c, w', hbreaks, hbinds.isRedis, exchangeable_firstToken, hlive,
      not_exchangeable hlost w'.now⟩

/-- A creation that breaks off at its first command, and a rotation that breaks off when it deletes
the old mapping. -/
theorem failed_credentials_kept :
    (∃ c w', (SessionService.createSession .default "gsess_1" "jti_0" {}).Breaks machine
        World.Elapses (.init 0) c w' ∧ (w'.at 0).jti "jti_0" = none) ∧
      ∃ c w', (AuthService.refreshToken .default "jti_1" firstToken).Breaks machine World.Elapses
        opened c w' ∧ Exchangeable .default firstToken (w'.at 0) := by
  constructor
  · obtain ⟨c, w', hat, hredis, hbinds⟩ : ∃ c w', commandAt machine 0
        (SessionService.createSession .default "gsess_1" "jti_0" {}) (.init 0) = some (c, w') ∧
        c.IsRedis ∧ c.Binds := ⟨_, _, rfl, trivial, trivial⟩
    have hbreaks := breaks_of_commandAt World.Elapses.refl hat
    exact ⟨c, w', hbreaks,
      ((failed_credentials .default hredis 0).1 _ _ _ hbreaks).1 hbinds "jti_0"⟩
  · obtain ⟨c, w', hat, hredis, hbinds⟩ : ∃ c w', commandAt machine 12
        (AuthService.refreshToken .default "jti_1" firstToken) opened = some (c, w') ∧
        c.IsRedis ∧ ¬ c.Binds := ⟨_, _, rfl, trivial, id⟩
    have hbreaks := breaks_of_commandAt World.Elapses.refl hat
    exact ⟨c, w', hbreaks, (((failed_credentials .default hredis 0).2 _ _ hbreaks).1 hbinds).mpr
      exchangeable_firstToken⟩

end FailedCommands

end SessionManager
