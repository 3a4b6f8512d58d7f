import SessionManager.TokenOwnership
import SessionManager.Writes

/-!
# Refreshing a session that is gone

`refresh_token` looks up the session of the presented token by its `jti` and extends it. Whether the
session is still there is only said by the result of `refresh_ttl`, and that is not looked at.
The keys expire on their own, so it depends on when they do whether tokens are issued for a
session that is gone.

* `Stage`, `minting` — how far a creation or a refresh has come, as a protocol.
* `SessionsKept` — the condition on the passing of time: no session expires while a refresh of it is
  under way, and a refresh binds its new `jti` at the instant at which it extends the session.
* `World.LastsUntil` — a session that is there for some time at least.
* `Backed` — the invariant of the runs that meet the condition: a session lasts as long as every
  `jti` that maps to it.
* `refresh_safe` — in these runs no refresh issues tokens for a session that is gone.
-/

namespace SessionManager

open Python Interaction

namespace GoneSessions

open TokenOwnership

open Program hiding pure

/-- How far a request has come with the session it creates or refreshes. -/
inductive Stage where
  /-- The request does neither. -/
  | idle
  /-- A creation that has neither found nor written session `k`. -/
  | pending (k : String)
  /-- A creation that has. -/
  | created (k : String)
  /-- A refresh that has not found a session by its `jti`. -/
  | waiting
  /-- A refresh that has, and is about to look at session `k`. -/
  | holding (k : String)
  /-- A refresh that has seen session `k` and not yet extended it. -/
  | extending (k : String)
  /-- A refresh that has, and not yet stored the new `jti`. -/
  | extended (k : String)
  /-- A refresh that has stored the new `jti`. -/
  | done (k : String)

/-- The stage in which a request begins. -/
def Stage.first : Request → Stage
  | .createSession k _ _ => .pending k
  | .refreshToken _ _ => .waiting
  | _ => .idle

/-- The stage after an answered command. -/
def Stage.next : Stage → (c : Command) → c.Reply → Stage
  | .pending k, .hgetall _, reply => if reply.isSome then .created k else .pending k
  | .pending k, .hset _ _, _ => .created k
  | .waiting, .get (.jti _), reply => (nonEmpty reply).elim .waiting .holding
  | .holding k, .hgetall _, reply => if reply.isSome then .extending k else .holding k
  | .extending k, .expire (.session _) _, _ => .extended k
  | .extended k, .setex (.jti _) _ _, _ => .done k
  | stage, _, _ => stage

/-- The session of a refresh that has found it by a `jti` and not yet bound the new one. -/
def Stage.refreshes : Stage → Option String
  | .holding k | .extending k | .extended k => some k
  | _ => none

/-- The session that a refresh has seen. -/
def Stage.sees : Stage → Option String
  | .extending k | .extended k | .done k => some k
  | _ => none

/-- What a command of the machine does to the stage. -/
theorem next_cases (stage : Stage) (c : Command) (w : World) :
    stage.next c (machine c w).1 = stage ∨
    (∃ k k', stage = .pending k ∧ stage.next c (machine c w).1 = .created k ∧
      (c = .hgetall k' ∧ (w.hash k').isSome ∨ ∃ mapping, c = .hset k' mapping)) ∨
    (∃ j k, stage = .waiting ∧ c = .get (.jti j) ∧ nonEmpty (w.jti j) = some k ∧
      stage.next c (machine c w).1 = .holding k) ∨
    (∃ k k' session, stage = .holding k ∧ c = .hgetall k' ∧ w.hash k' = some session ∧
      stage.next c (machine c w).1 = .extending k) ∨
    (∃ k k' seconds, stage = .extending k ∧ c = .expire (.session k') seconds ∧
      stage.next c (machine c w).1 = .extended k) ∨
    ∃ k j seconds v, stage = .extended k ∧ c = .setex (.jti j) seconds v ∧
      stage.next c (machine c w).1 = .done k := by
  cases stage with
  | idle => exact .inl rfl
  | created k => exact .inl rfl
  | done k => exact .inl rfl
  -- a creation looks for its session, and writes it when there is none
  | pending k =>
    cases c with
    | hgetall k' =>
      cases hhash : w.hash k' with
      | none =>
        have hnext : Stage.next (.pending k) (.hgetall k') (w.hash k') = .pending k := by
          rw [hhash]
          rfl
        exact .inl hnext
      | some session =>
        have hnext : Stage.next (.pending k) (.hgetall k') (w.hash k') = .created k := by
          rw [hhash]
          rfl
        exact .inr (.inl ⟨k, k', rfl, hnext, .inl ⟨rfl, by rw [hhash]; rfl⟩⟩)
    | hset k' mapping => exact .inr (.inl ⟨k, k', rfl, rfl, .inr ⟨mapping, rfl⟩⟩)
    | _ => exact .inl rfl
  -- a refresh reads the session of its token
  | waiting =>
    cases c with
    | get key =>
      cases key with
      | jti j =>
        have hnext : Stage.next .waiting (.get (.jti j)) (w.jti j) =
            (nonEmpty (w.jti j)).elim .waiting .holding := rfl
        cases hfound : nonEmpty (w.jti j) with
        | none =>
          rw [hfound] at hnext
          exact .inl hnext
        | some k =>
          rw [hfound] at hnext
          exact .inr (.inr (.inl ⟨j, k, rfl, rfl, hfound, hnext⟩))
      | _ => exact .inl rfl
    | _ => exact .inl rfl
  -- it finds the session there, and may extend it
  | holding k =>
    cases c with
    | hgetall k' =>
      cases hhash : w.hash k' with
      | none =>
        have hnext : Stage.next (.holding k) (.hgetall k') (w.hash k') = .holding k := by
          rw [hhash]
          rfl
        exact .inl hnext
      | some session =>
        have hnext : Stage.next (.holding k) (.hgetall k') (w.hash k') = .extending k := by
          rw [hhash]
          rfl
        exact .inr (.inr (.inr (.inl ⟨k, k', session, rfl, rfl, hhash, hnext⟩)))
    | _ => exact .inl rfl
  -- it extends the session, and binds the new `jti`
  | extending k =>
    cases c with
    | expire key seconds =>
      cases key with
      | session k' => exact .inr (.inr (.inr (.inr (.inl ⟨k, k', seconds, rfl, rfl, rfl⟩))))
      | _ => exact .inl rfl
    | _ => exact .inl rfl
  | extended k =>
    cases c with
    | setex key seconds v =>
      cases key with
      | jti j => exact .inr (.inr (.inr (.inr (.inr ⟨k, j, seconds, v, rfl, rfl, rfl⟩))))
      | _ => exact .inl rfl
    | _ => exact .inl rfl

/-- A refresh that holds a session has held it before, or has just found it by its `jti`. -/
theorem refreshes_next {stage : Stage} {c : Command} {w : World} {k : String}
    (h : (stage.next c (machine c w).1).refreshes = some k) :
    stage.refreshes = some k ∨
      (stage = .waiting ∧ ∃ j, c = .get (.jti j) ∧ nonEmpty (w.jti j) = some k) := by
  rcases next_cases stage c w with hsame | ⟨k₁, k', -, hnext, -⟩ | ⟨j, k₁, rfl, hc, hfound, hnext⟩ |
    ⟨k₁, k', session, rfl, -, -, hnext⟩ | ⟨k₁, k', seconds, rfl, -, hnext⟩ |
    ⟨k₁, j, seconds, v, rfl, -, hnext⟩
  · rw [hsame] at h
    exact .inl h
  · rw [hnext] at h
    cases h
  · rw [hnext] at h
    obtain rfl := Option.some.inj h
    exact .inr ⟨rfl, j, hc, hfound⟩
  · rw [hnext] at h
    exact .inl h
  · rw [hnext] at h
    exact .inl h
  · rw [hnext] at h
    cases h

/-- A refresh that has seen a session has seen it before, or has just looked at it. -/
theorem sees_next {stage : Stage} {c : Command} {w : World} {k : String}
    (h : (stage.next c (machine c w).1).sees = some k) :
    stage.sees = some k ∨
      (stage = .holding k ∧ ∃ k' session, c = .hgetall k' ∧ w.hash k' = some session) := by
  rcases next_cases stage c w with hsame | ⟨k₁, k', -, hnext, -⟩ | ⟨j, k₁, -, -, -, hnext⟩ |
    ⟨k₁, k', session, rfl, hc, hhash, hnext⟩ | ⟨k₁, k', seconds, rfl, -, hnext⟩ |
    ⟨k₁, j, seconds, v, rfl, -, hnext⟩
  · rw [hsame] at h
    exact .inl h
  · rw [hnext] at h
    cases h
  · rw [hnext] at h
    cases h
  · rw [hnext] at h
    obtain rfl := Option.some.inj h
    exact .inr ⟨rfl, k', session, hc, hhash⟩
  · rw [hnext] at h
    exact .inl h
  · rw [hnext] at h
    exact .inl h

/-- A refresh that has extended a session had done so before, or has just done it. -/
theorem extended_next {stage : Stage} {c : Command} {w : World} {k : String}
    (h : stage.next c (machine c w).1 = .extended k) :
    stage = .extended k ∨
      (stage = .extending k ∧ ∃ k' seconds, c = .expire (.session k') seconds) := by
  rcases next_cases stage c w with hsame | ⟨_, _, -, hnext, -⟩ | ⟨_, _, -, -, -, hnext⟩ |
    ⟨_, _, _, -, -, -, hnext⟩ | ⟨k₁, k', seconds, rfl, hc, hnext⟩ | ⟨_, _, _, _, -, -, hnext⟩
  · exact .inl (hsame.symm.trans h)
  · cases hnext.symm.trans h
  · cases hnext.symm.trans h
  · cases hnext.symm.trans h
  · obtain rfl := Stage.extended.inj (hnext.symm.trans h)
    exact .inr ⟨rfl, k', seconds, hc⟩
  · cases hnext.symm.trans h

/-- The request creates session `k`. -/
def Creates (k : String) (request : Request) : Prop :=
  ∃ jti r, request = .createSession k jti r

/-- The commands of each stage. -/
def Stage.Allows (request : Request) (c : Command) : Stage → Prop
  | .idle => request.draws? = none ∧ ∀ j, c.changes = some (.jti j) → c = .del (.jti j)
  | .pending k => Creates k request ∧ SpeaksFor request.draws? k c
  | .created k => Creates k request ∧ SpeaksFor none k c
  | .waiting => Asks request.token? c
  | .holding k => SpeaksFor none k c
  | .extending k => SpeaksFor none k c
  | .extended k => SpeaksFor request.draws? k c
  | .done _ => c.changes = none

/-- The replies reckoned with: a refresh finds its session. -/
def Stage.Answers : Stage → (c : Command) → c.Reply → Prop
  | .holding _, .hgetall _, reply => reply.isSome
  | _, _, _ => True

/-- The protocol of a request. -/
def minting (request : Request) : Protocol redis where
  State := Stage
  Allow stage c := stage.Allows request c
  Answer := Stage.Answers
  step := Stage.next

/-- Who returns tokens has dealt with the session that they are for. -/
def Ends (stage : Stage) (outcome : Except ServiceError Response) : Prop :=
  ∀ response, outcome = .ok response → match response with
    | .created r => stage = .created r.globalSessionKey
    | .refreshed r => stage = .done r.globalSessionKey
    | _ => True

/-! ### Every request follows its protocol -/

section Follows

variable {request : Request} {k : String} {cfg : Config} {α β : Type}

/-- A command that speaks for a session and draws nothing binds no `jti`. -/
theorem SpeaksFor.ne_setex {c : Command} (h : SpeaksFor none k c) (j : String) (seconds : ℕ)
    (v : String) : c ≠ .setex (.jti j) seconds v := by
  rintro rfl
  rcases h.jti j rfl with hdel | ⟨hdraws, -⟩
  · cases hdel
  · cases hdraws

/-- A refresh that has extended the session goes on until it binds the new `jti`. -/
theorem next_extended {c : Command} (h : SpeaksFor none k c) (r : c.Reply) :
    Stage.next (.extended k) c r = .extended k := by
  cases c
  case setex key seconds v =>
    cases key
    case jti j => exact absurd rfl (SpeaksFor.ne_setex h j seconds v)
    all_goals rfl
  all_goals rfl

/-- What speaks for a session and draws nothing may also draw. -/
theorem SpeaksFor.any {c : Command} (h : SpeaksFor none k c) (draws : Option String) :
    SpeaksFor draws k c :=
  ⟨h.session, h.looks, fun j hj => (h.jti j hj).imp_right fun hdraws => by cases hdraws.1⟩

/-- A first part whose commands leave the stage as it is. -/
theorem follows_stay {stage : Stage} {C : Command → Prop}
    {post : Stage → Except ServiceError β → Prop} {p : Svc α} {f : α → Svc β}
    (herror : ∀ stage e, post stage (.error e)) (hp : p.Only C)
    (hC : ∀ c, C c → stage.Allows request c ∧ ∀ r, Stage.next stage c r = stage)
    (hf : ∀ a, (f a).Follows (minting request) post stage) :
    (p >>= f).Follows (minting request) post stage := by
  refine Follows.seq (fun q _ => q = stage) ((hp.follows (P := minting request) hC).mono
    fun q x hq => ?_) fun q a hq => hq ▸ hf a
  cases x with
  | ok a => exact hq
  | error e => exact herror q e

/-- A part of a refresh after the extension that binds no `jti`. -/
theorem follows_extended {post : Stage → Except ServiceError β → Prop} {p : Svc α} {f : α → Svc β}
    (herror : ∀ stage e, post stage (.error e)) (hp : Speaks none k p)
    (hf : ∀ a, (f a).Follows (minting request) post (Stage.extended k)) :
    (p >>= f).Follows (minting request) post (Stage.extended k) :=
  follows_stay herror hp (fun _ hc => ⟨SpeaksFor.any hc _, next_extended hc⟩) hf

/-- The session is looked at, is there with the replies reckoned with, and is extended. -/
theorem follows_refreshTtl {post : Stage → Except ServiceError β → Prop}
    {f : Option Hash → Svc β} (herror : ∀ stage e, post stage (.error e))
    (hf : ∀ a, (f a).Follows (minting request) post (Stage.extended k)) :
    (SessionRepository.refreshTtl cfg k >>= f).Follows (minting request) post
      (Stage.holding k) := by
  have hk : (Key.session k).BelongsTo k := rfl
  have hturns : (Key.turns k).BelongsTo k := rfl
  unfold SessionRepository.refreshTtl
  rw [bind_assoc]
  refine .perform_bind speaks_hgetall fun session hsession => ?_
  cases session with
  | none => cases hsession
  | some session =>
    simp only [RedisHelper.setSession, bind_assoc, pure_bind]
    refine .perform_bind speaks_now fun now _ => .perform_bind (speaks_hset _) fun _ _ => ?_
    refine .perform_bind (speaks_expire hk _) fun _ _ => ?_
    -- the turns and the profiles come after the session
    refine follows_extended herror (speaks_extend hturns) fun _ => ?_
    exact follows_extended herror (speaks_extendProfiles _) fun _ => hf _

/-- A failed request has nothing to show for. -/
theorem ends_error (f : α → Response) (stage : Stage) (e : ServiceError) :
    Ends stage ((.error e : Except ServiceError α).map f) := by
  rintro response hx
  cases hx

theorem follows_refreshToken (newJti : String) (token : Token) :
    (Request.program cfg (.refreshToken newJti token)).Follows
      (minting (.refreshToken newJti token)) Ends Stage.waiting := by
  refine Follows.wrap ?_
  unfold AuthService.refreshToken
  cases token with
  | invalid text => exact ends_error _ _ _
  | signed payload =>
    rw [authenticate_signed]
    simp only [bind_assoc, pure_bind]
    refine .perform_bind (asks_now _) fun now _ => ?_
    refine .ofExcept_bind (fun _ _ => ends_error _ _ _) fun jti hjti => ?_
    rw [sessionOfJti_bind]
    refine .perform_bind ⟨rfl, rfl, fun j hj => ?_⟩ fun reply _ => ?_
    · obtain rfl : jti = j := by simpa using hj
      exact ⟨payload, rfl, jti_of_acceptedJti hjti⟩
    · show Follows (minting _) _ ((nonEmpty reply).elim Stage.waiting Stage.holding) _
      cases nonEmpty reply with
      | none => exact ends_error _ _ _
      | some k =>
        refine follows_refreshTtl (ends_error _) fun _ => ?_
        refine follows_extended (ends_error _) (speaks_createAccessToken _ _) fun access => ?_
        refine follows_extended (ends_error _) (speaks_createRefreshToken _ _) fun refresh => ?_
        refine follows_extended (ends_error _) (only_perform.mpr (speaks_del jti)) fun _ => ?_
        -- the new `jti` is bound
        refine .perform_bind (speaks_setex rfl _) fun _ _ => .perform_bind rfl fun _ _ => ?_
        rintro response hx
        obtain rfl := Except.ok.inj hx
        rfl

theorem follows_createSession (k jti : String) (r : SessionCreateRequest) :
    (Request.program cfg (.createSession k jti r)).Follows (minting (.createSession k jti r))
      Ends (Stage.pending k) := by
  have hcreates : Creates k (.createSession k jti r) := ⟨jti, r, rfl⟩
  have hnow : (Stage.pending k).Allows (.createSession k jti r) .now := ⟨hcreates, speaks_now⟩
  refine Follows.wrap ?_
  unfold SessionService.createSession AuthService.createTokens SessionRepository.create
  simp only [bind_assoc, pure_bind]
  refine .perform_bind ⟨hcreates, speaks_setex rfl _⟩ fun _ _ => ?_
  -- the tokens are made while the session is not there yet
  refine .perform_bind hnow fun _ _ => .perform_bind hnow fun _ _ => ?_
  refine .perform_bind hnow fun _ _ => .perform_bind hnow fun _ _ => ?_
  refine .perform_bind ⟨hcreates, speaks_hgetall⟩ fun existing _ => ?_
  cases existing with
  | some session =>
    refine .perform_bind ⟨hcreates, speaks_now⟩ fun _ _ => ?_
    refine .perform_bind ⟨hcreates, speaks_eslog _⟩ fun _ _ => ?_
    rintro response hx
    obtain rfl := Except.ok.inj hx
    rfl
  | none =>
    have hk : (Key.session k).BelongsTo k := rfl
    refine .perform_bind hnow fun now _ => ?_
    refine .perform_bind ⟨hcreates, speaks_hset _⟩ fun _ _ => ?_
    refine .perform_bind ⟨hcreates, speaks_expire hk _⟩ fun _ _ => ?_
    refine .perform_bind ⟨hcreates, speaks_now⟩ fun _ _ => ?_
    refine .perform_bind ⟨hcreates, speaks_eslog _⟩ fun _ _ => ?_
    rintro response hx
    obtain rfl := Except.ok.inj hx
    rfl

/-- A command that changes the mapping of a `jti` only by deleting it. -/
def Unbinds (c : Command) : Prop := ∀ j, c.changes = some (.jti j) → c = .del (.jti j)

/-- A command that stays off the `jti`s. -/
theorem unbinds_of_within {c : Command} (h : c.Within fun key => ¬ key.IsJti) : Unbinds c :=
  fun _ hj => absurd trivial (h.changes hj)

/-- A request that neither creates nor refreshes. -/
theorem follows_idle {p : Svc α} {f : α → Response} (hdraws : request.draws? = none)
    (hp : p.Only Unbinds) (hf : ∀ a, (f a).tokens = []) :
    (do let a ← p; return f a : Svc Response).Follows (minting request) Ends Stage.idle := by
  refine Follows.wrap ((hp.follows (P := minting request) (q := Stage.idle)
    fun c hc => ⟨⟨hdraws, hc⟩, fun r => rfl⟩).mono fun stage x _ => ?_)
  rintro response hx
  cases x with
  | error e => cases hx
  | ok a =>
    obtain rfl := Except.ok.inj hx
    have htokens := hf a
    cases hfa : f a <;> rw [hfa] at htokens <;> trivial

/-- The mapping of the presented token is deleted at most. -/
theorem closeSessionByToken_unbinds (token : Token) (closeReason : Option String) :
    (AuthService.closeSessionByToken token closeReason).Only Unbinds := by
  have hoff {γ : Type} {p : Svc γ} (h : p.Only (Command.Within fun key => ¬ key.IsJti)) :
      p.Only Unbinds := h.mono fun c => unbinds_of_within
  refine (hoff (getGlobalSessionKeyFromToken_within token)).bind fun k => ?_
  refine .perform_bind (unbinds_of_within trivial) fun session => ?_
  cases session with
  | none => trivial
  | some session =>
    have hk : ¬ (Key.session k).IsJti := id
    refine .perform_bind (unbinds_of_within trivial) fun now => ?_
    refine (hoff (SessionRepository.update_within hk _)).bind fun _ => ?_
    refine (hoff (jtiToDelete_within token)).bind fun jti => ?_
    refine Only.bind ?_ fun _ => .perform_bind (unbinds_of_within trivial) fun _ => trivial
    cases jti with
    | none => trivial
    | some jti => exact only_perform.mpr fun j hj => by rw [Key.jti.inj (Option.some.inj hj)]

/-- Every request follows its protocol. -/
theorem follows_program (cfg : Config) (request : Request) :
    (request.program cfg).Follows (minting request) Ends (Stage.first request) := by
  have hoff {γ : Type} {p : Svc γ} (h : p.Only (Command.Within fun key => ¬ key.IsJti)) :
      p.Only Unbinds := h.mono fun c => unbinds_of_within
  -- only a creation and a refresh bind a `jti`
  cases request with
  | createSession k jti r => exact follows_createSession k jti r
  | refreshToken newJti token => exact follows_refreshToken newJti token
  | verifyTokenAndGetSession token =>
    exact follows_idle rfl (hoff (AuthService.verifyTokenAndGetSession_within token))
      (by intro; rfl)
  | pingSessionByToken token =>
    exact follows_idle rfl (hoff (AuthService.pingSessionByToken_within token)) (by intro; rfl)
  | closeSessionByToken token closeReason =>
    exact follows_idle rfl (closeSessionByToken_unbinds token closeReason) (by intro; rfl)
  | resolveSession r =>
    exact follows_idle rfl (hoff (SessionService.resolveSession_within r)) (by intro; rfl)
  | patchSessionState r =>
    exact follows_idle rfl
      (hoff (not_jti_of_within (SessionService.patchSessionState_within cfg r))) (by intro; rfl)
  | closeSession r =>
    exact follows_idle rfl (hoff (not_jti_of_within (SessionService.closeSession_within r)))
      (by intro; rfl)
  | saveApiResult k r =>
    exact follows_idle rfl (hoff (SessionService.saveApiResult_within cfg id r)) (by intro; rfl)
  | updateRealtimePersonalContext lookup k data =>
    exact follows_idle rfl (hoff (not_jti_of_within
      (ProfileService.updateRealtimePersonalContext_within cfg lookup k data))) (by intro; rfl)

end Follows

/-! ### Lifetimes -/

end GoneSessions

/-- Session `k` is there, and stays so up to instant `t` when no command intervenes. -/
def World.LastsUntil (w : World) (k : String) (t : ℕ) : Prop :=
  ∃ e, w.entry (.session k) = some e ∧ ∀ t', e.expiresAt = some t' → t ≤ t'

theorem World.LastsUntil.isSome {w : World} {k : String} {t : ℕ} (h : w.LastsUntil k t) :
    (w.hash k).isSome := by
  obtain ⟨e, he, -⟩ := h
  rw [World.hash_of_entry he]
  rfl

/-- No command shortens the life of a session to less than `SESSION_CACHE_TTL` from now. -/
theorem World.LastsUntil.machine {cfg : Config} {c : Command} (hc : c.Within fun _ => True)
    (hlasts : c.Lasts cfg) {w : World} {k : String} {t : ℕ} (h : w.LastsUntil k t)
    (ht : t ≤ w.after cfg.sessionCacheTtl) : World.LastsUntil (machine c w).2 k t := by
  obtain ⟨e, he, hbound⟩ := h
  by_cases hk : c.changes = some (.session k)
  · cases c <;>
      simp only [Command.changes, Option.some.injEq, reduceCtorEq, Key.session.injEq] at hk
    case hset k' mapping =>
      -- `HSET` keeps the expiry
      subst hk
      refine ⟨_, World.entry_hset w k' mapping, fun t' ht' => hbound t' ?_⟩
      rw [he] at ht'
      exact ht'
    case expire key seconds =>
      subst hk
      have hentry := World.entry_expire w (.session k) seconds
      rw [he] at hentry
      refine ⟨_, hentry, fun t' ht' => ?_⟩
      obtain rfl : seconds = cfg.sessionCacheTtl := hlasts
      obtain rfl := Option.some.inj ht'
      exact ht
    case set key v => exact absurd hk (hc.2 k)
    case setex key seconds v => exact absurd hk (hc.2 k)
    case del key => exact absurd hk (hc.2 k)
  · exact ⟨e, (World.machine_entry_of_ne hk w).trans he, hbound⟩

/-- The passing of time up to `t` does not end its life. -/
theorem World.LastsUntil.elapses {w w' : World} {k : String} {t : ℕ} (h : w.LastsUntil k t)
    (helapses : w.Elapses w') (ht : w'.now ≤ t) : w'.LastsUntil k t := by
  obtain ⟨d, rfl⟩ := helapses
  obtain ⟨e, he, hbound⟩ := h
  obtain ⟨hstored, -⟩ := TtlStore.lookup_eq_some_iff.mp he
  refine ⟨e, TtlStore.lookup_eq_some_iff.mpr ⟨hstored, ?_⟩, hbound⟩
  cases hexp : e.expiresAt with
  | none => exact TtlStore.Entry.live_of_none hexp _
  | some t' => exact (TtlStore.Entry.live_iff_of_some hexp _).mpr (ht.trans (hbound t' hexp))

namespace GoneSessions

open TokenOwnership

/-! ### Requests in flight -/

section Pool

variable {ι : Type} {cfg : Config} {requests : ι → Request}

/-- How far request `i` has come. -/
def stageOf (requests : ι → Request) (p : Threads ι) (i : ι) : Stage :=
  (minting (requests i)).after (Stage.first (requests i)) (p.threads i).log

/-- A running refresh has found session `k` by its `jti` and not yet bound the new one. -/
def Refreshing (requests : ι → Request) (p : Threads ι) (k : String) : Prop :=
  ∃ i, (p.threads i).stopped = false ∧ (stageOf requests p i).refreshes = some k

/-- The condition on a step. -/
structure SessionsKept (requests : ι → Request) (p : Threads ι) (l : Label redis ι)
    (q : Threads ι) : Prop where
  /-- What is presented was issued. -/
  unforged : Unforged requests p l
  /-- Until a creation writes its session, there is none under the key it has drawn. -/
  unused : ∀ i c k, l = .call i c → stageOf requests p i = .pending k → p.state.hash k = none
  /-- No session expires while a refresh of it is under way. -/
  kept : ∀ k, (p.state.hash k).isSome → q.state.hash k = none → ¬ Refreshing requests p k
  /-- No time passes between the extension of a session and the `SETEX` of the new `jti`. -/
  prompt : p.state.now < q.state.now →
    ∀ i k, (p.threads i).stopped = false → stageOf requests p i ≠ .extended k

/-- The invariant. -/
structure Backed (cfg : Config) (requests : ι → Request) (p : Threads ι) : Prop where
  spoken : Spoken requests p
  conforms : p.Conforms (fun i => minting (requests i)) (fun i => Stage.first (requests i))
    (fun _ => Ends)
  confined : p.Confined fun c : Command => c.Within (fun _ => True) ∧ c.Lasts cfg
  /-- The session that a `jti` maps to lasts as long as the mapping, or is still being created. -/
  live : ∀ j (e : TtlStore.Entry String), p.state.entry (.jti j) = some e →
    ∃ t, e.expiresAt = some t ∧ t ≤ p.state.after cfg.sessionCacheTtl ∧
      (p.state.LastsUntil e.value t ∨ ∃ i, (requests i).draws? = some j ∧
        Creates e.value (requests i) ∧ stageOf requests p i = .pending e.value)
  /-- A refresh under way finds its session live. -/
  held : ∀ k, Refreshing requests p k → (p.state.hash k).isSome
  /-- What it has extended has its whole lifetime ahead. -/
  extended : ∀ i k, (p.threads i).stopped = false → stageOf requests p i = .extended k →
    p.state.LastsUntil k (p.state.after cfg.sessionCacheTtl)
  /-- A refresh that has got beyond looking at the session has seen it. -/
  seen : ∀ i k, (stageOf requests p i).sees = some k →
    ∃ session, ⟨.hgetall k, some session⟩ ∈ (p.threads i).log

theorem backed_start (cfg : Config) (requests : ι → Request) (now : ℕ) :
    Backed cfg requests (Pool.start (fun i => (requests i).program cfg) (.init now)) := by
  have hfirst (i : ι) : stageOf requests
      (Pool.start (fun i => (requests i).program cfg) (.init now)) i =
        Stage.first (requests i) := rfl
  refine ⟨spoken_start cfg requests now,
    Pool.conforms_start fun i => follows_program cfg (requests i),
    fun i => ((requests i).program_within cfg).and
      (((requests i).program_writes cfg).mono fun _ hc => hc.lasts),
    fun j e he => ?_, fun k ⟨i, _, h⟩ => ?_, fun i k _ h => ?_, fun i k h => ?_⟩
  · cases he
  · rw [hfirst] at h
    cases hrequest : requests i <;> rw [hrequest] at h <;> cases h
  · rw [hfirst] at h
    cases hrequest : requests i <;> rw [hrequest] at h <;> cases h
  · rw [hfirst] at h
    cases hrequest : requests i <;> rw [hrequest] at h <;> cases h

section Steps

variable [DecidableEq ι] {p : Threads ι} {i : ι} {c : Command} {next : c.Reply → Svc Response}

theorem stageOf_answered_same :
    stageOf requests (p.answered machine i c next) i =
      Stage.next (stageOf requests p i) c (machine c p.state).1 := by
  simp [stageOf, minting]

theorem stageOf_answered_other {j : ι} (hj : j ≠ i) :
    stageOf requests (p.answered machine i c next) j = stageOf requests p j := by
  unfold stageOf
  rw [Pool.answered_other p hj]

omit [DecidableEq ι] in
/-- The command that a request issues is one that its stage allows. -/
theorem Backed.allow (h : Backed cfg requests p) (hprog : (p.threads i).prog = .call c next) :
    (stageOf requests p i).Allows (requests i) c := h.conforms.allow hprog

omit [DecidableEq ι] in
/-- A request that has returned tokens is not at the start of a creation. -/
theorem Backed.not_pending (h : Backed cfg requests p) {response : Response}
    (hreturned : (p.threads i).Returned response) {t : Token} (hmem : t ∈ response.tokens)
    (k : String) : stageOf requests p i ≠ .pending k := by
  intro hpending
  have hends : Ends (stageOf requests p i) (.ok response) := h.conforms.returned hreturned
  have hstage := hends response rfl
  rw [hpending] at hstage
  cases response with
  | created r => cases hstage
  | refreshed r => cases hstage
  | _ => cases hmem

omit [DecidableEq ι] in
/-- A mapping names a live session, or one that is still being created. -/
theorem Backed.live_of_jti (h : Backed cfg requests p) {j k : String}
    (hk : p.state.jti j = some k) : (p.state.hash k).isSome ∨
      ∃ i, (requests i).draws? = some j ∧ Creates k (requests i) ∧
        stageOf requests p i = .pending k := by
  obtain ⟨e, he, rfl⟩ := TtlStore.get_eq_some_iff.mp hk
  obtain ⟨t, -, -, hlasts | hpending⟩ := h.live j e he
  · exact .inl hlasts.isSome
  · exact .inr hpending

omit [DecidableEq ι] in
/-- The session that a presented token names is live. -/
theorem Backed.live_of_issued (h : Backed cfg requests p) (hfresh : FreshJtis requests)
    {j k : String} {payload : Payload} (hissued : Issued p (.signed payload))
    (hjti : payload.jti = some j) (hk : p.state.jti j = some k) : (p.state.hash k).isSome := by
  rcases h.live_of_jti hk with hlive | ⟨m, hdraws, -, hpending⟩
  · exact hlive
  · -- the request that drew the `jti` has returned, so its session has been created
    obtain ⟨n, response, hreturned, hmem⟩ := hissued
    have hdraws' : (requests n).draws? = some j :=
      (h.spoken.issued hreturned hmem).1.symm.trans hjti
    obtain rfl := hfresh n m j hdraws' hdraws
    exact absurd hpending (h.not_pending hreturned hmem k)

omit [DecidableEq ι] in
/-- A session lasts as long after the command of a request. -/
theorem Backed.lasts_answered (h : Backed cfg requests p)
    (hprog : (p.threads i).prog = .call c next) {k : String} {t : ℕ}
    (hk : p.state.LastsUntil k t) (ht : t ≤ p.state.after cfg.sessionCacheTtl) :
    World.LastsUntil (machine c p.state).2 k t := by
  obtain ⟨hwithin, hlasts⟩ := h.confined.command hprog
  exact hk.machine hwithin hlasts ht

/-- What a refresh holds after a command, it held before or has just found by its `jti`. -/
theorem refreshing_answered {k : String} (h : Refreshing requests (p.answered machine i c next) k)
    (hstopped : (p.threads i).stopped = false) :
    Refreshing requests p k ∨ (stageOf requests p i = .waiting ∧
      ∃ j, c = .get (.jti j) ∧ nonEmpty (p.state.jti j) = some k) := by
  obtain ⟨m, hm, hstage⟩ := h
  by_cases hmi : m = i
  · subst hmi
    rw [stageOf_answered_same] at hstage
    exact (refreshes_next hstage).imp_left fun hbefore => ⟨m, hstopped, hbefore⟩
  · rw [stageOf_answered_other hmi] at hstage
    rw [Pool.answered_other p hmi] at hm
    exact .inl ⟨m, hm, hstage⟩

omit [DecidableEq ι] in
/-- A mapping after a command was there before, or has just been made, to last for
`SESSION_CACHE_TTL`. -/
theorem Backed.jti_answered (h : Backed cfg requests p) (hprog : (p.threads i).prog = .call c next)
    {j : String} {e : TtlStore.Entry String}
    (he : World.entry (machine c p.state).2 (.jti j) = some e) :
    p.state.entry (.jti j) = some e ∨ (requests i).draws? = some j ∧
      e.expiresAt = some (p.state.after cfg.sessionCacheTtl) ∧
      (stageOf requests p i = .extended e.value ∨
        (stageOf requests p i = .pending e.value ∧ Creates e.value (requests i) ∧
          Stage.next (stageOf requests p i) c (machine c p.state).1 = .pending e.value)) := by
  by_cases hc : c.changes = some (.jti j)
  · have hallow := h.allow hprog
    obtain ⟨-, hlasts⟩ := h.confined.command hprog
    -- the command has bound the `jti`, so it is no `DEL`
    have hdel : c ≠ .del (.jti j) := by
      rintro rfl
      cases (World.entry_del p.state (.jti j)).symm.trans he
    have hbinds {draws : Option String} {k : String} (hs : SpeaksFor draws k c) :
        draws = some j ∧ c = .setex (.jti j) cfg.sessionCacheTtl k ∧
          e = ⟨k, some (p.state.after cfg.sessionCacheTtl)⟩ := by
      rcases hs.jti j hc with h' | ⟨hdraws, seconds, rfl⟩
      · exact absurd h' hdel
      · obtain rfl : seconds = cfg.sessionCacheTtl := hlasts
        have hentry := World.entry_setex p.state (.jti j) cfg.sessionCacheTtl k
        exact ⟨hdraws, rfl, Option.some.inj (he.symm.trans hentry)⟩
    -- which commands may bind one depends on the stage
    generalize hstage : stageOf requests p i = stage at hallow
    cases stage with
    | idle => exact absurd (hallow.2 j hc) hdel
    | pending k =>
      obtain ⟨hcreates, hs⟩ := hallow
      obtain ⟨hdraws, rfl, rfl⟩ := hbinds hs
      exact .inr ⟨hdraws, rfl, .inr ⟨rfl, hcreates, rfl⟩⟩
    | created k =>
      obtain ⟨hdraws, -⟩ := hbinds hallow.2
      cases hdraws
    | waiting =>
      have hnone : c.changes = none := hallow.changes
      rw [hc] at hnone
      cases hnone
    | holding k =>
      obtain ⟨hdraws, -⟩ := hbinds hallow
      cases hdraws
    | extending k =>
      obtain ⟨hdraws, -⟩ := hbinds hallow
      cases hdraws
    | extended k =>
      obtain ⟨hdraws, -, rfl⟩ := hbinds hallow
      exact .inr ⟨hdraws, rfl, .inl rfl⟩
    | done k =>
      have hnone : c.changes = none := hallow
      rw [hc] at hnone
      cases hnone
  · rw [World.machine_entry_of_ne hc] at he
    exact .inl he

omit [DecidableEq ι] in
/-- A creation goes on until it writes its session, which has no expiry yet. -/
theorem Backed.created_answered (h : Backed cfg requests p)
    (hprog : (p.threads i).prog = .call c next) {k : String}
    (hpending : stageOf requests p i = .pending k) (hunused : p.state.hash k = none) (t : ℕ) :
    World.LastsUntil (machine c p.state).2 k t ∨
      Stage.next (stageOf requests p i) c (machine c p.state).1 = .pending k := by
  have hallow := h.allow hprog
  rw [hpending] at hallow
  have hsession {k' : String} (hc : c.session? = some k') : k' = k := hallow.2.session k' hc
  rcases next_cases (stageOf requests p i) c p.state with hsame | ⟨_, k', -, -, hcase⟩ |
    ⟨_, _, hother, -⟩ | ⟨_, _, _, hother, -⟩ | ⟨_, _, _, hother, -⟩ | ⟨_, _, _, _, hother, -⟩
  · exact .inr (hsame.trans hpending)
  · rcases hcase with ⟨rfl, hsome⟩ | ⟨mapping, rfl⟩
    · obtain rfl := hsession rfl
      rw [hunused] at hsome
      cases hsome
    · -- this is the `HSET` of the new session
      obtain rfl := hsession rfl
      have hnone : p.state.entry (.session k') = none := by
        simpa [World.hash_eq_entry] using hunused
      refine .inl ⟨_, World.entry_hset p.state k' mapping, fun t' ht' => ?_⟩
      rw [hnone] at ht'
      cases ht'
  all_goals
    rw [hpending] at hother
    cases hother

omit [DecidableEq ι] in
/-- A refresh goes beyond its look at the session only when that has shown the session. -/
theorem Backed.seen_answered (h : Backed cfg requests p)
    (hprog : (p.threads i).prog = .call c next) {k : String}
    (hstage : (Stage.next (stageOf requests p i) c (machine c p.state).1).sees = some k) :
    ∃ session, (⟨.hgetall k, some session⟩ : Event redis) ∈
      (p.threads i).log ++ [⟨c, (machine c p.state).1⟩] := by
  rcases sees_next hstage with hbefore | ⟨hholding, k', session, rfl, hhash⟩
  · obtain ⟨session, hmem⟩ := h.seen i k hbefore
    exact ⟨session, List.mem_append_left _ hmem⟩
  · -- it is this command that finds the session
    have hallow := h.allow hprog
    rw [hholding] at hallow
    obtain rfl : k' = k := SpeaksFor.session hallow k' rfl
    have hreply : (machine (.hgetall k') p.state).1 = some session := hhash
    rw [hreply]
    exact ⟨session, List.mem_append_right _ (List.mem_singleton_self _)⟩

omit [DecidableEq ι] in
/-- A refresh that has extended the session has given it its whole lifetime. -/
theorem Backed.extended_answered (h : Backed cfg requests p)
    (hprog : (p.threads i).prog = .call c next) (hstopped : (p.threads i).stopped = false)
    {k : String}
    (hstage : Stage.next (stageOf requests p i) c (machine c p.state).1 = .extended k) :
    World.LastsUntil (machine c p.state).2 k (p.state.after cfg.sessionCacheTtl) := by
  rcases extended_next hstage with hbefore | ⟨hextending, k', seconds, rfl⟩
  · exact h.lasts_answered hprog (h.extended i k hstopped hbefore) le_rfl
  · have hallow := h.allow hprog
    rw [hextending] at hallow
    obtain rfl : k' = k := SpeaksFor.session hallow k' rfl
    obtain ⟨-, hlasts⟩ := h.confined.command hprog
    obtain rfl : seconds = cfg.sessionCacheTtl := hlasts
    -- the session is there, so the `EXPIRE` reaches it
    have hheld := h.held k' ⟨i, hstopped, by rw [hextending]; rfl⟩
    rw [World.hash_eq_entry, Option.isSome_map] at hheld
    obtain ⟨e, he⟩ := Option.isSome_iff_exists.mp hheld
    have hentry := World.entry_expire p.state (.session k') cfg.sessionCacheTtl
    rw [he] at hentry
    refine ⟨_, hentry, fun t' ht' => ?_⟩
    exact (Option.some.inj ht').le

/-- A command of a request keeps the invariant. -/
theorem Backed.answered (h : Backed cfg requests p) (hfresh : FreshJtis requests)
    (hunforged : Unforged requests p (.call i c))
    (hunused : ∀ k, stageOf requests p i = .pending k → p.state.hash k = none)
    (hprog : (p.threads i).prog = .call c next) (hstopped : (p.threads i).stopped = false) :
    Backed cfg requests (p.answered machine i c next) := by
  have hcommand : Pool.Step machine World.Elapses p (.call i c) (p.answered machine i c next) :=
    .call hprog hstopped
  have hallow := h.allow hprog
  have hwithin := (h.confined.command hprog).1
  have hafter : World.after (machine c p.state).2 cfg.sessionCacheTtl =
      p.state.after cfg.sessionCacheTtl := by
    rw [World.after, machine_now, World.after]
  refine ⟨h.spoken.answered hfresh hunforged hprog, h.conforms.answered hprog ?_,
    h.confined.step hcommand, fun j e he => ?_, fun k hk => ?_, fun m k hm hstage => ?_,
    fun m k hm => ?_⟩
  · show Stage.Answers (stageOf requests p i) c (machine c p.state).1
    generalize hstage : stageOf requests p i = stage at hallow ⊢
    unfold Stage.Answers
    split
    · -- a session that a refresh is about to look at is there
      obtain rfl := SpeaksFor.session hallow _ rfl
      exact h.held _ ⟨i, hstopped, by rw [hstage]; rfl⟩
    · trivial
  · rw [Pool.answered_state] at he ⊢
    rw [hafter]
    rcases h.jti_answered hprog he with hbefore | ⟨hdraws, hexp, hextended | hcase⟩
    · obtain ⟨t, hexp, hle, hlasts⟩ := h.live j e hbefore
      refine ⟨t, hexp, hle, ?_⟩
      rcases hlasts with hlasts | ⟨m, hdraws, hcreates, hpending⟩
      · exact .inl (h.lasts_answered hprog hlasts hle)
      · by_cases hm : m = i
        · subst hm
          exact (h.created_answered hprog hpending (hunused _ hpending) t).imp_right fun hnext =>
            ⟨m, hdraws, hcreates, stageOf_answered_same.trans hnext⟩
        · exact .inr ⟨m, hdraws, hcreates, (stageOf_answered_other hm).trans hpending⟩
    · -- the session of a refresh has been extended at this instant
      have hlasts := h.lasts_answered hprog (h.extended i _ hstopped hextended) le_rfl
      exact ⟨_, hexp, le_rfl, .inl hlasts⟩
    · obtain ⟨-, hcreates, hnext⟩ := hcase
      exact ⟨_, hexp, le_rfl, .inr ⟨i, hdraws, hcreates, stageOf_answered_same.trans hnext⟩⟩
  · rcases refreshing_answered hk hstopped with hbefore | ⟨hwaiting, j, hc, hfound⟩
    · exact hash_isSome hwithin (h.held k hbefore)
    · -- the mapping that has just been read is backed
      rw [hwaiting] at hallow
      have hasks : Asks (requests i).token? c := hallow
      obtain ⟨payload, htoken, hjti⟩ := hasks.looks j hc
      have hget : p.state.jti j = some k := (Option.filter_eq_some_iff.mp hfound).1
      exact hash_isSome hwithin
        (h.live_of_issued hfresh (hunforged i c payload rfl htoken) hjti hget)
  · rw [Pool.answered_state, hafter]
    by_cases hmi : m = i
    · subst hmi
      rw [stageOf_answered_same] at hstage
      exact h.extended_answered hprog hstopped hstage
    · rw [stageOf_answered_other hmi] at hstage
      rw [Pool.answered_other p hmi] at hm
      exact h.lasts_answered hprog (h.extended m k hm hstage) le_rfl
  · by_cases hmi : m = i
    · subst hmi
      rw [stageOf_answered_same] at hm
      rw [Pool.answered_same]
      exact h.seen_answered hprog hm
    · rw [stageOf_answered_other hmi] at hm
      rw [Pool.answered_other p hmi]
      exact h.seen m k hm

omit [DecidableEq ι] in
/-- So does the passing of time: a mapping that is still live maps to a session that is. -/
theorem Backed.elapsed (h : Backed cfg requests p) {w : World} (helapses : p.state.Elapses w)
    (hspoken : Spoken requests { p with state := w })
    (hkept : ∀ k, (p.state.hash k).isSome → w.hash k = none → ¬ Refreshing requests p k)
    (hprompt : p.state.now < w.now →
      ∀ i k, (p.threads i).stopped = false → stageOf requests p i ≠ .extended k) :
    Backed cfg requests { p with state := w } := by
  have hnow : p.state.now ≤ w.now := by
    obtain ⟨d, rfl⟩ := helapses
    exact Nat.le_add_right _ _
  refine ⟨hspoken, h.conforms, h.confined, fun j e he => ?_, fun k hk => ?_,
    fun i k hi hstage => ?_, h.seen⟩
  · obtain ⟨t, hexp, hle, hlasts⟩ := h.live j e (helapses.entry he)
    have hlive : e.Live w.now := (TtlStore.lookup_eq_some_iff.mp he).2
    have ht : w.now ≤ t := (TtlStore.Entry.live_iff_of_some hexp _).mp hlive
    refine ⟨t, hexp, hle.trans (Nat.add_le_add_right hnow _), ?_⟩
    exact hlasts.imp_left fun hlasts => hlasts.elapses helapses ht
  · cases hgone : w.hash k with
    | some session => rfl
    | none => exact absurd hk (hkept k (h.held k hk) hgone)
  · -- the clock stands still until the new `jti` is bound
    have hsame : w.now = p.state.now := by
      by_contra hne
      exact hprompt (Nat.lt_of_le_of_ne hnow (Ne.symm hne)) i k hi hstage
    have hafter : w.after cfg.sessionCacheTtl = p.state.after cfg.sessionCacheTtl := by
      rw [World.after, hsame, World.after]
    show w.LastsUntil k (w.after cfg.sessionCacheTtl)
    rw [hafter]
    exact (h.extended i k hi hstage).elapses helapses (hsame.le.trans (Nat.le_add_right _ _))

/-- Every step that meets the condition keeps the invariant. -/
theorem Backed.step {q : Threads ι} {l : Label redis ι} (h : Backed cfg requests p)
    (hfresh : FreshJtis requests) (hguard : SessionsKept requests p l q)
    (hstep : Pool.Step machine World.Elapses p l q) : Backed cfg requests q := by
  have hspoken : Spoken requests q := h.spoken.step hfresh hguard.unforged hstep
  cases hstep with
  | call hprog hstopped =>
    exact h.answered hfresh hguard.unforged (fun k => hguard.unused _ _ k rfl) hprog hstopped
  | env helapses => exact h.elapsed helapses hspoken hguard.kept hguard.prompt
  | @stop i =>
    -- a thread that stops leaves the logs and the store as they are
    have hstage (j : ι) : stageOf requests (p.halted i) j = stageOf requests p j := by
      unfold stageOf
      rw [Pool.halted_log]
    have hrunning {j : ι} (hj : ((p.halted i).threads j).stopped = false) :
        (p.threads j).stopped = false := by
      by_cases hji : j = i
      · subst hji
        simp [Pool.halted] at hj
      · rwa [Pool.halted_other p hji] at hj
    refine ⟨hspoken, fun j => ?_, fun j => ?_, fun j e he => ?_, fun k hk => ?_,
      fun j k hj hextended => ?_, fun j k hj => ?_⟩
    · simpa using h.conforms j
    · simpa using h.confined j
    · simpa only [hstage, Pool.halted_state] using h.live j e he
    · obtain ⟨m, hm, hrefreshes⟩ := hk
      rw [hstage] at hrefreshes
      exact h.held k ⟨m, hrunning hm, hrefreshes⟩
    · rw [hstage] at hextended
      exact h.extended j k (hrunning hj) hextended
    · rw [hstage] at hj
      rw [Pool.halted_log]
      exact h.seen j k hj

end Steps

/-- What may be expected of the refreshes in flight. -/
structure SafeMints (requests : ι → Request) (p : Threads ι) : Prop where
  /-- Who was given new tokens has been shown the session first. -/
  found : ∀ i r, (p.threads i).Returned (.refreshed r) →
    ∃ session, ⟨.hgetall r.globalSessionKey, some session⟩ ∈ (p.threads i).log
  /-- A session that a refresh is about to extend is there. -/
  extended : ∀ i c next newJti token k, requests i = .refreshToken newJti token →
    (p.threads i).prog = .call c next → (p.threads i).stopped = false →
    c.changes = some (.session k) → (p.state.hash k).isSome
  /-- The new `jti` of a refresh names no session that is gone. -/
  live : ∀ i newJti token k, requests i = .refreshToken newJti token →
    p.state.jti newJti = some k → (p.state.hash k).isSome

/-- A command that changes the hash of a session acts on this session. -/
theorem session?_of_changes {c : Command} {k : String} (h : c.changes = some (.session k)) :
    c.session? = some k := by
  cases c <;>
    simp only [Command.changes, Option.some.injEq, reduceCtorEq, Key.session.injEq] at h <;>
    subst h <;> rfl

theorem Backed.safeMints {p : Threads ι} (h : Backed cfg requests p) (hfresh : FreshJtis requests) :
    SafeMints requests p where
  found i r hreturned := by
    have hends : Ends (stageOf requests p i) (.ok (.refreshed r)) := h.conforms.returned hreturned
    have hstage : stageOf requests p i = .done r.globalSessionKey := hends _ rfl
    exact h.seen i _ (by rw [hstage]; rfl)
  extended i c next newJti token k hrequest hprog hstopped hc := by
    have hallow := h.allow hprog
    -- the request is a refresh
    have hnot (k' : String) : ¬ Creates k' (requests i) := by
      rintro ⟨jti, r, hcreate⟩
      rw [hrequest] at hcreate
      cases hcreate
    generalize hstage : stageOf requests p i = stage at hallow
    cases stage with
    | idle =>
      have hnone := hallow.1
      rw [hrequest] at hnone
      cases hnone
    | pending k' => exact absurd hallow.1 (hnot k')
    | created k' => exact absurd hallow.1 (hnot k')
    | waiting =>
      have hnone : c.changes = none := hallow.changes
      rw [hc] at hnone
      cases hnone
    | holding k' =>
      obtain rfl : k = k' := SpeaksFor.session hallow k (session?_of_changes hc)
      exact h.held k ⟨i, hstopped, by rw [hstage]; rfl⟩
    | extending k' =>
      obtain rfl : k = k' := SpeaksFor.session hallow k (session?_of_changes hc)
      exact h.held k ⟨i, hstopped, by rw [hstage]; rfl⟩
    | extended k' =>
      obtain rfl : k = k' := SpeaksFor.session hallow k (session?_of_changes hc)
      exact h.held k ⟨i, hstopped, by rw [hstage]; rfl⟩
    | done k' =>
      have hnone : c.changes = none := hallow
      rw [hc] at hnone
      cases hnone
  live i newJti token k hrequest hj := by
    rcases h.live_of_jti hj with hlive | ⟨m, hdraws, hcreates, -⟩
    · exact hlive
    · -- only the refresh itself draws this `jti`, and it creates nothing
      obtain rfl := hfresh m i newJti hdraws (by rw [hrequest]; rfl)
      obtain ⟨jti, r, hcreate⟩ := hcreates
      rw [hrequest] at hcreate
      cases hcreate

end Pool

end GoneSessions

open TokenOwnership GoneSessions in
/-- No refresh issues tokens for a session that is gone, in any run in which no session expires
while a refresh of it is under way and every refresh binds its new `jti` at the instant at which it
extends the session. -/
theorem refresh_safe {ι : Type} [DecidableEq ι] (cfg : Config) {requests : ι → Request}
    (hfresh : FreshJtis requests) {now : ℕ} {p : Threads ι}
    (hrun : Pool.GuardedRun machine World.Elapses (SessionsKept requests)
      (Pool.start (fun i => (requests i).program cfg) (.init now)) p) : SafeMints requests p := by
  have hbacked : Backed cfg requests p := hrun.invariant (fun p => Backed cfg requests p)
    (fun _ _ _ h hguard hstep => h.step hfresh hguard hstep) (backed_start cfg requests now)
  exact hbacked.safeMints hfresh

namespace GoneSessions

open TokenOwnership

/-- Only a creation that has just begun is at the start of a creation. -/
theorem pending_of_after {request : Request} {k : String} (log : List (Event redis)) :
    ∀ stage, (minting request).after stage log = .pending k → stage = .pending k := by
  have hnext (stage : Stage) (c : Command) (r : c.Reply)
      (h : Stage.next stage c r = .pending k) : stage = .pending k := by
    unfold Stage.next at h
    split at h
    · split at h
      · cases h
      · exact h
    · cases h
    · rename_i j reply
      cases hfound : nonEmpty reply <;> rw [hfound] at h <;> cases h
    · split at h <;> cases h
    · cases h
    · cases h
    · exact h
  induction log with
  | nil => exact fun _ h => h
  | cons e log ih => exact fun stage h => hnext stage e.1 e.2 (ih _ h)

/-- A step that lets time pass only when no refresh is under way. -/
structure Quiet {ι : Type} (requests : ι → Request) (p : Threads ι) (l : Label redis ι) : Prop where
  unforged : Unforged requests p l
  unused : ∀ i c k, l = .call i c → stageOf requests p i = .pending k → p.state.hash k = none
  quiet : l = .env → ∀ k, ¬ Refreshing requests p k

theorem guardedRun_of_quiet {ι : Type} [DecidableEq ι] {requests : ι → Request} {p q : Threads ι}
    (hp : p.Confined (Command.Within fun _ => True))
    (hrun : Pool.Run machine World.Elapses (Quiet requests) p q) :
    Pool.GuardedRun machine World.Elapses (SessionsKept requests) p q := by
  refine hrun.guardedRun (Pool.Confined (Command.Within fun _ => True))
    (fun _ _ _ h hstep => h.step hstep) (fun p l q hconfined hguard hstep => ?_) hp
  refine ⟨hguard.unforged, hguard.unused, fun k hlive hgone => ?_,
    fun hlt i k hrunning hstage => ?_⟩
  · cases hstep with
    | call hprog _ =>
      -- no command ends the life of a session
      have hstays := hash_isSome (hconfined.command hprog) hlive
      rw [Pool.answered_state] at hgone
      rw [hgone] at hstays
      cases hstays
    | env _ => exact hguard.quiet rfl k
    | stop =>
      rw [Pool.halted_state] at hgone
      rw [hgone] at hlive
      cases hlive
  · cases hstep with
    | call hprog _ => simp at hlt
    | env _ => exact hguard.quiet rfl k ⟨i, hrunning, by rw [hstage]; rfl⟩
    | stop => exact absurd hlt (lt_irrefl _)

/-- The session has been there for 200 s. -/
def awaited : Threads Bool := { opened with state := opened.state.advance 200000 }

/-- The token is rotated then. -/
def refreshed : Threads Bool := awaited.schedule machine (List.replicate 15 true)

/-- Another 200 s have passed. -/
def renewed : Threads Bool := { refreshed with state := refreshed.state.advance 200000 }

/-- A command of the creation, while there is no session or after the creation has written it. -/
theorem quiet_create {p : Threads Bool} {c : Command}
    (hp : p.state.hash "gsess_1" = none ∨ stageOf rotating p false = .created "gsess_1") :
    Quiet rotating p (.call false c) := by
  refine ⟨unforged_create p c, fun i c' k hl hstage => ?_, nofun⟩
  cases hl
  obtain rfl := Stage.pending.inj (pending_of_after _ _ hstage)
  rcases hp with hnone | hcreated
  · exact hnone
  · cases hcreated.symm.trans hstage

/-- The passing of time when the refresh has not begun, or has ended. -/
theorem quiet_env {p : Threads Bool} (hcreated : stageOf rotating p false = .created "gsess_1")
    (hstage : (stageOf rotating p true).refreshes = none) : Quiet rotating p .env := by
  refine ⟨fun i c _ h => (by cases h), nofun, fun _ k => ?_⟩
  rintro ⟨i, -, hk⟩
  cases i with
  | false =>
    rw [hcreated] at hk
    cases hk
  | true => cases hstage.symm.trans hk

/-- Time passes before the refresh and after it. -/
theorem run_renewed : Pool.Run machine World.Elapses (Quiet rotating) begun renewed := by
  have hopened : Pool.Run machine World.Elapses (Quiet rotating) begun opened := by
    refine .cons rfl (quiet_create (.inl rfl)) <| .cons rfl (quiet_create (.inl rfl)) <|
      .cons rfl (quiet_create (.inl rfl)) <| .cons rfl (quiet_create (.inl rfl)) <|
      .cons rfl (quiet_create (.inl rfl)) <| .cons rfl (quiet_create (.inl rfl)) <|
      .cons rfl (quiet_create (.inl rfl)) <| .cons rfl (quiet_create (.inl rfl)) <|
      .cons rfl (quiet_create (.inr rfl)) <| .cons rfl (quiet_create (.inr rfl)) <|
      .cons rfl (quiet_create (.inr rfl)) .refl
  have hawaited : Pool.Run machine World.Elapses (Quiet rotating) begun awaited :=
    .step hopened (quiet_env rfl rfl) (.env ⟨200000, rfl⟩)
  have hrefreshed : Pool.Run machine World.Elapses (Quiet rotating) awaited refreshed := by
    refine Pool.run_schedule_alone (p := awaited) (fun q hq c => ?_) 15
    refine ⟨unforged_opened (hq false (by decide)) c, fun i c' k hl hstage => ?_, nofun⟩
    cases hl
    cases pending_of_after _ _ hstage
  exact .step (hawaited.trans hrefreshed) (quiet_env rfl rfl) (.env ⟨200000, rfl⟩)

/-- The refresh at 200 s has seen the session. At 400 s its `jti` is live and so is the session,
100 s after the end of the lifetime that it was created with. -/
theorem refresh_safe_renewed :
    (∃ r, (renewed.threads true).Returned (.refreshed r) ∧
      ∃ session, ⟨.hgetall r.globalSessionKey, some session⟩ ∈ (renewed.threads true).log) ∧
    renewed.state.now = 400000 ∧ renewed.state.jti "jti_1" = some "gsess_1" ∧
      (renewed.state.hash "gsess_1").isSome := by
  have hsafe : SafeMints rotating renewed := refresh_safe .default rotating_fresh
    (guardedRun_of_quiet (fun i => (rotating i).program_within .default) run_renewed)
  exact ⟨⟨_, rfl, hsafe.found true _ rfl⟩, rfl, by decide,
    hsafe.live true "jti_1" firstToken "gsess_1" rfl (by decide)⟩

/-- The last instant at which session and `jti` are there. -/
def late : Threads Bool := { opened with state := opened.state.advance 300000 }

/-- The refresh has found its session by the `jti`. -/
def looked : Threads Bool := late.schedule machine [true, true]

/-- Session and `jti` have expired. -/
def expired : Threads Bool := { looked with state := looked.state.advance 1 }

/-- The refresh has gone on. -/
def minted : Threads Bool := expired.schedule machine (List.replicate 8 true)

/-- A refresh whose session expires after the look-up of its `jti`: it returns tokens for a
session that is gone, and their `jti` is live. -/
theorem not_safeMints_minted :
    Pool.Run machine World.Elapses (Unforged rotating) begun minted ∧
      (∃ r, (minted.threads true).Returned (.refreshed r)) ∧ ¬ SafeMints rotating minted := by
  have hopened : Pool.Run machine World.Elapses (Unforged rotating) begun opened :=
    Pool.run_schedule_alone (fun q _ c => unforged_create q c) 11
  have hlooked : Pool.Run machine World.Elapses (Unforged rotating) late looked :=
    Pool.run_schedule_alone (p := late)
      (fun q hq c => unforged_opened (hq false (by decide)) c) 2
  have hminted : Pool.Run machine World.Elapses (Unforged rotating) expired minted :=
    Pool.run_schedule_alone (p := expired)
      (fun q hq c => unforged_opened (hq false (by decide)) c) 8
  have henv (p : Threads Bool) : Unforged rotating p .env := fun i c _ h => by cases h
  have hlate : Pool.Run machine World.Elapses (Unforged rotating) begun late :=
    .step hopened (henv _) (.env ⟨300000, rfl⟩)
  have hexpired : Pool.Run machine World.Elapses (Unforged rotating) begun expired :=
    .step (hlate.trans hlooked) (henv _) (.env ⟨1, rfl⟩)
  refine ⟨hexpired.trans hminted, ⟨_, rfl⟩, fun h => ?_⟩
  have hlive := h.live true "jti_1" firstToken "gsess_1" rfl (by decide)
  revert hlive
  decide

/-- The refresh has extended the session at once. -/
def prolonged : Threads Bool := opened.schedule machine (List.replicate 6 true)

/-- A millisecond passes. -/
def paused : Threads Bool := { prolonged with state := prolonged.state.advance 1 }

/-- The refresh has bound its `jti`. -/
def lagging : Threads Bool := paused.schedule machine (List.replicate 9 true)

/-- The lifetime that it has given to the session is over. -/
def lagged : Threads Bool := { lagging with state := lagging.state.advance 300000 }

/-- Without the last condition the passing of time alone leaves a live `jti` for a session that is
gone: the one that lives longer than the session by the time between the two commands. -/
theorem not_safeMints_lagged :
    Pool.Run machine World.Elapses (Unforged rotating) begun lagged ∧
      ¬ SafeMints rotating lagged := by
  have hopened : Pool.Run machine World.Elapses (Unforged rotating) begun opened :=
    Pool.run_schedule_alone (fun q _ c => unforged_create q c) 11
  have henv (p : Threads Bool) : Unforged rotating p .env := fun i c _ h => by cases h
  have hprolonged : Pool.Run machine World.Elapses (Unforged rotating) opened prolonged :=
    Pool.run_schedule_alone (p := opened)
      (fun q hq c => unforged_opened (hq false (by decide)) c) 6
  have hlagging : Pool.Run machine World.Elapses (Unforged rotating) paused lagging :=
    Pool.run_schedule_alone (p := paused)
      (fun q hq c => unforged_opened (hq false (by decide)) c) 9
  have hpaused : Pool.Run machine World.Elapses (Unforged rotating) begun paused :=
    .step (hopened.trans hprolonged) (henv _) (.env ⟨1, rfl⟩)
  refine ⟨.step (hpaused.trans hlagging) (henv _) (.env ⟨300000, rfl⟩), fun h => ?_⟩
  have hlive := h.live true "jti_1" firstToken "gsess_1" rfl (by decide)
  revert hlive
  decide

end GoneSessions

end SessionManager
