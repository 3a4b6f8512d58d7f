import SessionManager.Interaction.Rely
import SessionManager.TokenOwnership
import SessionManager.Instants

/-!
# The session that a creation hands out

The tokens of a creation are bound to the drawn key before `create` looks whether the key is
taken, and `create_session` ignores what `create` returns. The tokens speak for a session of the
request exactly when no live session of another content has the key and no other creation drew it.

* `World.resolves` — the session that a token resolves to.
* `Describes` — a session hash is one that a request to create a session asks for.
* `createSession_spec` — what a creation returns, and what is stored under its keys then.
* `createSession_owned_iff` — for any number of creations whose commands interleave: each of them
  hands out tokens of a session of its own exactly when the drawn keys are new.
-/

namespace SessionManager

open Python Interaction

/-- The session that a token resolves to: the one that the live mapping of its `jti` names. -/
def World.resolves (w : World) (token : Token) : Option String :=
  nonEmpty (token.jti?.bind w.jti)

/-- A session hash is the one that the request asks for. -/
structure Describes (request : SessionCreateRequest) (session : Hash) : Prop where
  userId : session .userId = some (request.userId.getD "")
  channel : session .channel = some (SessionService.channelValue request)
  triggerId : session .triggerId = some request.triggerId
  startType : session .startType = request.channel.map ChannelInfo.eventType
  sessionState : session .sessionState = some (value SessionState.start)

/-- A request to create a session, with what the code draws for it. -/
structure Creation where
  timestamp : String
  digits : String
  jti : String
  request : SessionCreateRequest

namespace Creation

variable (idPrefix : String)

/-- The key that `_generate_id` makes. -/
def key (c : Creation) : String := SessionService.generateId idPrefix c.timestamp c.digits

/-- The program that serves the request. -/
def program (cfg : Config) (c : Creation) : Svc SessionService.SessionCreateResponse :=
  SessionService.createSession cfg (c.key idPrefix) c.jti c.request

theorem key_ne_empty (c : Creation) : c.key idPrefix ≠ "" := by
  intro h
  have hlength := congrArg String.length h
  simp [key, SessionService.generateId] at hlength

end Creation

namespace CreatedSessions

open Program hiding pure
open SessionRepository RedisHelper

/-! ### One creation -/

/-- Some keys show the same entries. -/
def Same (keys : List Key) (w w' : World) : Prop := ∀ key ∈ keys, w'.entry key = w.entry key

theorem Same.refl (keys : List Key) (w : World) : Same keys w w := fun _ _ => rfl

theorem Same.trans {keys : List Key} {w₁ w₂ w₃ : World} (h : Same keys w₁ w₂)
    (h' : Same keys w₂ w₃) : Same keys w₁ w₃ :=
  fun key hkey => (h' key hkey).trans (h key hkey)

/-- A command of a program that stays off some keys leaves their entries alone. -/
theorem same_of_within {keys : List Key} {K : Key → Prop} (hoff : ∀ key ∈ keys, ¬ K key)
    {c : Command} (hc : c.Within K) (w : World) : Same keys w (machine c w).2 :=
  fun key hkey => World.machine_entry_of_ne (fun heq => hoff key hkey (hc.changes heq)) w

variable {cfg : Config} {k jti : String} {request : SessionCreateRequest}

/-- The two keys of a creation. -/
abbrev ownKeys (k jti : String) : List Key := [.session k, .jti jti]

theorem Same.hash {w w' : World} (h : Same (ownKeys k jti) w w') : w'.hash k = w.hash k := by
  rw [World.hash_eq_entry, World.hash_eq_entry, h _ (by simp)]

theorem Same.mapped {w w' : World} (h : Same (ownKeys k jti) w w') : w'.jti jti = w.jti jti := by
  show w'.store.get w'.now (.jti jti) = w.store.get w.now (.jti jti)
  rw [World.get_eq_entry, World.get_eq_entry, h _ (by simp)]

/-- The session that is stored after a creation: the one that was there, or else the one that the
creation asks for. -/
def Stored (cfg : Config) (k : String) (request : SessionCreateRequest) (w w' : World) : Prop :=
  ∃ session, w'.hash k = some session ∧ (w.hash k = some session ∨
    w.hash k = none ∧ ∃ now,
      session = Hash.empty.merge (created cfg (SessionService.createArgs request k) now))

/-- The repository stores the session unless there is one, and leaves the mappings alone. -/
theorem create_stored (w : World) :
    (create cfg (SessionService.createArgs request k)).Wp machine (Same (ownKeys k jti))
      (fun x w' => (∃ session, x = .ok session) ∧ Stored cfg k request w w' ∧
        w'.jti jti = w.jti jti) w := by
  unfold create
  refine wp_perform_bind.mpr fun w₁ h₁ => ?_
  have hreply : (machine (.hgetall (SessionService.createArgs request k).globalSessionKey) w₁).1 =
      w.hash k := h₁.hash
  rw [hreply]
  cases hlive : w.hash k with
  | some session =>
    -- an existing session is returned as it is
    exact ⟨⟨session, rfl⟩, ⟨session, h₁.hash.trans hlive, .inl hlive⟩, h₁.mapped⟩
  | none =>
    dsimp only
    rw [wp_perform_bind]
    intro w₂ h₂
    rw [setSession, bind_assoc, wp_perform_bind]
    intro w₃ h₃
    refine wp_perform_bind.mpr fun w₄ h₄ => ?_
    have hmissing : w₃.hash k = none := by
      rw [h₃.hash]
      exact (h₂.hash.trans h₁.hash).trans hlive
    have hnew : w₄.hash k = some (Hash.empty.merge
        (created cfg (SessionService.createArgs request k) w₂.now)) := by
      rw [h₄.hash]
      show (w₃.hset k _).hash k = _
      rw [World.hash_hset, hmissing]
      rfl
    refine ⟨⟨_, rfl⟩, ⟨_, ?_, .inr ⟨hlive, w₂.now, rfl⟩⟩, ?_⟩
    · show (w₄.expire (.session k) _).hash k = _
      rw [World.hash_expire]
      exact hnew
    · have hjti (c : Command) (w' : World) (hc : c.changes ≠ some (.jti jti)) :
          (machine c w').2.jti jti = w'.jti jti := World.jti_of_ne hc w'
      rw [hjti _ _ (by simp [Command.changes]), h₄.mapped, hjti _ _ (by simp [Command.changes]),
        h₃.mapped]
      exact h₂.mapped.trans h₁.mapped

/-- A mapping that has just been stored is there. -/
theorem jti_setex (cfg : Config) (w : World) (k jti : String) :
    (w.setex (.jti jti) cfg.sessionCacheTtl k).jti jti = some k := by
  show (w.setex (.jti jti) cfg.sessionCacheTtl k).store.get _ _ = _
  rw [World.get_eq_entry, World.entry_setex]
  rfl

/-- A creation succeeds: its tokens carry the drawn `jti`, which is mapped to the drawn key. -/
theorem createSession_spec (cfg : Config) (k jti : String) (request : SessionCreateRequest)
    (w : World) :
    (SessionService.createSession cfg k jti request).Wp machine (Same (ownKeys k jti))
      (fun x w' => (∃ response, x = .ok response ∧
          ∀ token ∈ (Response.created response).tokens, token.jti? = some jti) ∧
        w'.jti jti = some k ∧ Stored cfg k request w w') w := by
  unfold SessionService.createSession
  refine Wp.seq_ok (fun tokens w₁ =>
    (tokens.accessToken.jti? = some jti ∧ tokens.refreshToken.jti? = some jti) ∧
      w₁.jti jti = some k ∧ w₁.hash k = w.hash k) ?_ fun tokens w₁ h₁ => ?_
  · -- the tokens are bound to the key first
    refine wp_perform_bind.mpr fun w₁ h₁ => ?_
    have hmapped : (w₁.setex (.jti jti) cfg.sessionCacheTtl k).jti jti = some k :=
      jti_setex cfg w₁ k jti
    have hhash : (w₁.setex (.jti jti) cfg.sessionCacheTtl k).hash k = w.hash k :=
      (World.hash_of_ne (c := .setex (.jti jti) cfg.sessionCacheTtl k) (by simp [Command.changes])
        w₁).trans h₁.hash
    intro w₂ h₂ w₃ h₃ w₄ h₄ w₅ h₅
    have hkept := ((h₂.trans h₃).trans h₄).trans h₅
    exact ⟨_, rfl, ⟨rfl, rfl⟩, hkept.mapped.trans hmapped, hkept.hash.trans hhash⟩
  · -- then comes the session, whatever `create` finds
    refine Wp.seq_ok (fun _ w₂ => Stored cfg k request w w₂ ∧ w₂.jti jti = some k)
      ((create_stored w₁).mono ?_) fun _ w₂ h₂ => ?_
    · rintro x w₂ ⟨⟨session, rfl⟩, ⟨session', hsession, hfrom⟩, hjti⟩
      rw [h₁.2.2] at hfrom
      exact ⟨session, rfl, ⟨session', hsession, hfrom⟩, hjti.trans h₁.2.1⟩
    · refine wp_perform_bind.mpr fun w₃ h₃ => wp_perform_bind.mpr fun w₄ h₄ => ?_
      have hkept := h₃.trans h₄
      obtain ⟨session, hsession, hfrom⟩ := h₂.1
      refine ⟨⟨_, rfl, ?_⟩, hkept.mapped.trans h₂.2, session, hkept.hash.trans hsession, hfrom⟩
      rintro token htoken
      rcases List.mem_cons.mp htoken with rfl | htoken
      · exact h₁.1.1
      · rw [List.mem_singleton.mp htoken]
        exact h₁.1.2

/-- A new session is the one that the request asks for. -/
theorem describes_created (now : ℕ) :
    Describes request
      (Hash.empty.merge (created cfg (SessionService.createArgs request k) now)) where
  userId := rfl
  channel := rfl
  triggerId := rfl
  startType := by
    show (request.channel.map ChannelInfo.eventType).or none = _
    simp
  sessionState := rfl

/-! ### Many creations -/

variable {ι : Type} {idPrefix : String} {creations : ι → Creation}

/-- Pools of creations. -/
abbrev Threads (ι : Type) := Pool redis ServiceError SessionService.SessionCreateResponse World ι

/-- Every creation at the start of its program. -/
def begun (cfg : Config) (idPrefix : String) (creations : ι → Creation) (w : World) : Threads ι :=
  Pool.start (fun i => (creations i).program idPrefix cfg) w

/-- Time passes, and no key of a creation expires meanwhile. -/
def Unexpired (idPrefix : String) (creations : ι → Creation) (w w' : World) : Prop :=
  w.Elapses w' ∧ ∀ i, ∀ key ∈ ownKeys ((creations i).key idPrefix) (creations i).jti,
    World.Keeps key w w'

/-- The tokens of each creation that has returned resolve to a session that its request asks for,
and the tokens of two creations never to the same session. -/
structure Owned (creations : ι → Creation) (p : Threads ι) : Prop where
  described : ∀ i response, (p.threads i).Returned response →
    ∀ token ∈ (Response.created response).tokens, ∃ k session, p.state.resolves token = some k ∧
      p.state.hash k = some session ∧ Describes (creations i).request session
  apart : ∀ i j, i ≠ j → ∀ response response', (p.threads i).Returned response →
    (p.threads j).Returned response' → ∀ token ∈ (Response.created response).tokens,
      ∀ token' ∈ (Response.created response').tokens, ∀ k, p.state.resolves token = some k →
        p.state.resolves token' ≠ some k

/-- No two creations draw the same key or the same `jti`, and a session that has a drawn key
already is one that the request asks for. -/
structure Fresh (idPrefix : String) (creations : ι → Creation) (w : World) : Prop where
  keys : ∀ i j, i ≠ j → (creations i).key idPrefix ≠ (creations j).key idPrefix
  jtis : ∀ i j, i ≠ j → (creations i).jti ≠ (creations j).jti
  free : ∀ i session, w.hash ((creations i).key idPrefix) = some session →
    Describes (creations i).request session

/-- A token resolves to what its `jti` is mapped to. -/
theorem resolves_of_jti {w : World} {token : Token} {j k : String} (hj : token.jti? = some j)
    (hk : w.jti j = some k) (hne : k ≠ "") : w.resolves token = some k := by
  simp [World.resolves, hj, hk, nonEmpty, hne]

variable [DecidableEq ι]

/-- Creations with keys of their own do not get in each other's way. -/
theorem returned_owned {w : World} (hfresh : Fresh idPrefix creations w) {p : Threads ι}
    (hrun : Pool.Run machine (Unexpired idPrefix creations) (fun _ _ => True)
      (begun cfg idPrefix creations w) p) {i : ι} {response : SessionService.SessionCreateResponse}
    (hret : (p.threads i).Returned response) :
    (∀ token ∈ (Response.created response).tokens,
      p.state.resolves token = some ((creations i).key idPrefix)) ∧
    ∃ session, p.state.hash ((creations i).key idPrefix) = some session ∧
      Describes (creations i).request session := by
  -- the other creations stay off the keys of this one
  have hoff (j : ι) (hj : j ≠ i) : ((creations j).program idPrefix cfg).Only
      (Command.Within fun key => key ∉ ownKeys ((creations i).key idPrefix) (creations i).jti) :=
    SessionService.createSession_within cfg (by simp [hfresh.keys j i hj])
      (by simp [hfresh.jtis j i hj]) _
  obtain ⟨w₀, hfrom, ⟨response', hresponse, hcarry⟩, hmapped, session, hsession, hdescribes⟩ :=
    hrun.rely (R := Same (ownKeys ((creations i).key idPrefix) (creations i).jti))
      (fun w => Same.refl _ w) (fun _ _ _ h h' => h.trans h')
      (fun w₁ w₂ h key hkey => (h.2 i key hkey).entry)
      (fun c w' hc => same_of_within (fun key hkey hnot => hnot hkey) hc w') hoff
      (createSession_spec cfg _ _ _ w) hret
  obtain rfl : response = response' := by simpa using hresponse
  refine ⟨fun token htoken => ?_, session, hfrom.hash.trans hsession, ?_⟩
  · exact resolves_of_jti (hcarry token htoken) (hfrom.mapped.trans hmapped)
      (Creation.key_ne_empty idPrefix _)
  · rcases hdescribes with hlive | ⟨_, now, rfl⟩
    · exact hfresh.free i session hlive
    · exact describes_created now

/-- A creation that has the machine for itself. -/
theorem run_creation (cfg : Config) (idPrefix : String) (env : World → World → Prop)
    {p : Threads ι} {i : ι} {c : Creation}
    (hprog : (p.threads i).prog = c.program idPrefix cfg) (hgoes : (p.threads i).stopped = false) :
    ∃ q response, Pool.Run machine env (fun _ _ => True) p q ∧ (q.threads i).Returned response ∧
      (∀ token ∈ (Response.created response).tokens, token.jti? = some c.jti) ∧
      q.state.jti c.jti = some (c.key idPrefix) ∧
      Stored cfg (c.key idPrefix) c.request p.state q.state ∧
      (∀ j, j ≠ c.jti → q.state.jti j = p.state.jti j) ∧
      ∀ j, j ≠ i → q.threads j = p.threads j := by
  obtain ⟨q, hrun, hend, hstate, hothers⟩ := Pool.run_alone (m := machine) env hgoes
  rw [hprog] at hend hstate
  have hspec := (createSession_spec cfg (c.key idPrefix) c.jti c.request p.state).env_mono
    fun w w' (h : w = w') => h ▸ Same.refl _ w
  obtain ⟨⟨response, hresponse, hcarry⟩, hmapped, hstored⟩ := wp_eq_iff_run.mp hspec
  -- a creation touches its session and its `jti` only
  have hwithin : (c.program idPrefix cfg).Only
      (Command.Within fun key => key ∈ ownKeys (c.key idPrefix) c.jti) :=
    SessionService.createSession_within cfg (by simp) (by simp) c.request
  have hsame := wp_eq_iff_run.mp (entries_of_within hwithin p.state)
  change (q.threads i).prog = Program.ofExcept ((SessionService.createSession cfg _ _ _).run _ _).1
    at hend
  rw [hresponse] at hend
  refine ⟨q, response, hrun, hend, hcarry, hstate ▸ hmapped, hstate ▸ hstored, fun j hj => ?_,
    hothers⟩
  show q.state.store.get q.state.now (.jti j) = p.state.store.get p.state.now (.jti j)
  rw [World.get_eq_entry, World.get_eq_entry, hstate]
  exact congrArg _ (hsame.2 (.jti j) (by simp [hj]))

/-- A creation whose key is taken shows what the session with this key is like. -/
theorem free_of_owned {w : World} (env : World → World → Prop)
    (howned : ∀ p, Pool.Run machine env (fun _ _ => True) (begun cfg idPrefix creations w) p →
      Owned creations p) {i : ι} {session : Hash}
    (hlive : w.hash ((creations i).key idPrefix) = some session) :
    Describes (creations i).request session := by
  obtain ⟨q, response, hrun, hret, hcarry, hmapped, ⟨stored, hstored, hfrom⟩, -, -⟩ :=
    run_creation cfg idPrefix env (p := begun cfg idPrefix creations w) (i := i) rfl rfl
  obtain ⟨k, session', hk, hsession', hdescribes⟩ :=
    (howned q hrun).described i response hret response.accessToken List.mem_cons_self
  -- the token resolves to the drawn key, where the session is still the old one
  rw [resolves_of_jti (hcarry _ List.mem_cons_self) hmapped (Creation.key_ne_empty idPrefix _),
    Option.some.injEq] at hk
  subst hk
  rcases hfrom with hkept | ⟨hnone, -⟩
  · rw [hstored, Option.some.injEq] at hsession'
    have hsame : some stored = some session := hkept.symm.trans hlive
    rw [Option.some.injEq] at hsame
    rwa [← hsession', hsame] at hdescribes
  · have hlive' : w.hash ((creations i).key idPrefix) = none := hnone
    rw [hlive'] at hlive
    cases hlive

/-- Two creations, one after the other. -/
theorem distinct_of_owned {w : World} (env : World → World → Prop)
    (howned : ∀ p, Pool.Run machine env (fun _ _ => True) (begun cfg idPrefix creations w) p →
      Owned creations p) {i j : ι} (hij : i ≠ j) :
    (creations i).key idPrefix ≠ (creations j).key idPrefix ∧
      (creations i).jti ≠ (creations j).jti := by
  obtain ⟨q, response, hrun, hret, hcarry, hmapped, -, -, hothers⟩ :=
    run_creation cfg idPrefix env (p := begun cfg idPrefix creations w) (i := i) rfl rfl
  have hj : q.threads j = (begun cfg idPrefix creations w).threads j := hothers j hij.symm
  obtain ⟨q', response', hrun', hret', hcarry', hmapped', -, hkept, hothers'⟩ :=
    run_creation cfg idPrefix env (p := q) (i := j) (c := creations j) (by rw [hj]; rfl)
      (by rw [hj]; rfl)
  have hreti : (q'.threads i).Returned response := by
    rw [hothers' i hij]
    exact hret
  have hapart := (howned q' (hrun.trans hrun')).apart i j hij response response' hreti hret'
    response.accessToken List.mem_cons_self response'.accessToken List.mem_cons_self
  have hsecond := resolves_of_jti (hcarry' response'.accessToken List.mem_cons_self) hmapped'
    (Creation.key_ne_empty idPrefix _)
  have hne : (creations i).jti ≠ (creations j).jti := by
    -- a `jti` drawn twice ends up with the second key
    intro hsame
    refine hapart _ (resolves_of_jti (hcarry _ List.mem_cons_self) ?_
      (Creation.key_ne_empty idPrefix (creations j))) hsecond
    exact hsame ▸ hmapped'
  refine ⟨fun hsame => ?_, hne⟩
  -- a key drawn twice has both mappings
  refine hapart _ (resolves_of_jti (hcarry _ List.mem_cons_self) ?_
    (Creation.key_ne_empty idPrefix (creations j))) hsecond
  rw [hkept _ hne, ← hsame]
  exact hmapped

end CreatedSessions

open CreatedSessions in
/-- Any number of creations, their commands interleaved in any way, time passing without a key of
theirs expiring: the tokens of each resolve to a session of its own that its request asks for,
exactly when the drawn keys and `jti`s differ and every session that has a drawn key already is
one that the request asks for. -/
theorem createSession_owned_iff {ι : Type} [DecidableEq ι] (cfg : Config) (idPrefix : String)
    (creations : ι → Creation) (w : World) :
    (∀ p, Pool.Run machine (Unexpired idPrefix creations) (fun _ _ => True)
      (begun cfg idPrefix creations w) p → Owned creations p) ↔ Fresh idPrefix creations w := by
  constructor
  · intro howned
    exact
      { keys := fun i j hij => (distinct_of_owned _ howned hij).1
        jtis := fun i j hij => (distinct_of_owned _ howned hij).2
        free := fun i session hlive => free_of_owned _ howned hlive }
  · intro hfresh p hrun
    constructor
    · intro i response hret token htoken
      obtain ⟨hresolves, session, hsession, hdescribes⟩ := returned_owned hfresh hrun hret
      exact ⟨_, session, hresolves token htoken, hsession, hdescribes⟩
    · intro i j hij response response' hret hret' token htoken token' htoken' k hk hk'
      rw [(returned_owned hfresh hrun hret).1 token htoken, Option.some.injEq] at hk
      rw [(returned_owned hfresh hrun hret').1 token' htoken', Option.some.injEq] at hk'
      exact hfresh.keys i j hij (hk.trans hk'.symm)

namespace CreatedSessions

/-- A creation for one user, and one for another that draws the same second and the same digits. -/
def twice (second : Bool) : Creation where
  timestamp := "20250101000000"
  digits := "abc123"
  jti := if second then "jti_1" else "jti_0"
  request := { userId := some (if second then "700000002" else "700000001") }

/-- The two creations, the second one after the first. -/
def created : Threads Bool :=
  (begun .default "gsess" twice (.init 0)).schedule machine
    (List.replicate 11 false ++ List.replicate 8 true)

/-- The second user is handed tokens that resolve to the session of the first. -/
theorem createSession_not_owned :
    Pool.Run machine (Unexpired "gsess" twice) (fun _ _ => True)
        (begun .default "gsess" twice (.init 0)) created ∧
      (∃ response, (created.threads true).Returned response ∧
        created.state.resolves response.accessToken = some "gsess_20250101000000_abc123") ∧
      (∃ session, created.state.hash "gsess_20250101000000_abc123" = some session ∧
        session .userId = some "700000001") ∧
      ¬ Owned twice created := by
  have hrun : Pool.Run machine (Unexpired "gsess" twice) (fun _ _ => True)
      (begun .default "gsess" twice (.init 0)) created := Pool.run_schedule _ _
  have hresolves : ∃ response, (created.threads true).Returned response ∧
      created.state.resolves response.accessToken = some "gsess_20250101000000_abc123" :=
    ⟨_, rfl, rfl⟩
  have hsession : ∃ session, created.state.hash "gsess_20250101000000_abc123" = some session ∧
      session .userId = some "700000001" := ⟨_, rfl, rfl⟩
  refine ⟨hrun, hresolves, hsession, fun howned => ?_⟩
  obtain ⟨response, hret, htoken⟩ := hresolves
  obtain ⟨session, hhash, huser⟩ := hsession
  -- the session of the second creation has the user of the first
  obtain ⟨k, session', hk, hsession', hdescribes⟩ :=
    howned.described true response hret response.accessToken List.mem_cons_self
  rw [htoken, Option.some.injEq] at hk
  subst hk
  rw [hhash, Option.some.injEq] at hsession'
  have huser' := hdescribes.userId
  rw [← hsession', huser] at huser'
  revert huser'
  decide

end CreatedSessions

end SessionManager
