import SessionManager.TokenRotation
import SessionManager.Writes

/-!
# Extending a lifetime next to another request

`refresh_ttl` reads the session hash, sets `expires_at` in what it read and writes all of it back.
Another request on the session may write in between.

* `lastWritten`, `lastRead` — the value that the commands of a log last wrote to a field of a
  session, and the hash they last read.
* `StoredAsRead` — the condition under which nothing is undone: when `refresh_ttl` executes its
  `HSET`, what its `HGETALL` read is still stored, but for `expires_at`.
* `refreshing` — the protocol of `refresh_ttl`: it writes back what it read.
* `Kept` — the invariant of the two threads.
-/

namespace SessionManager

open Python Interaction

namespace TtlRefresh

/-- The two threads. -/
inductive Role where
  /-- `refresh_ttl` of the session. -/
  | refresher
  /-- The other request. -/
  | other
  deriving DecidableEq

/-- The program of each thread: `refresh_ttl` of session `k`, and the other request. -/
def programs (cfg : Config) (k : String) (request : Request) : Role → Svc (Option Response)
  | .refresher => do
    let _ ← SessionRepository.refreshTtl cfg k
    pure none
  | .other => do
    let response ← request.program cfg
    pure (some response)

/-- The two threads and the world they run in. -/
abbrev Threads := Pool redis ServiceError (Option Response) World Role

/-- The value that a log last wrote to field `f` of session `k`. -/
def lastWritten (k : String) (log : List (Event redis)) (f : Field) : Option f.Value :=
  log.foldl (fun before e => written k f before e.1) none

/-- The hash of session `k` that a command read, or else the one before it. -/
def read (k : String) (before : Option Hash) : (c : Command) → c.Reply → Option Hash
  | .hgetall k', reply => if k' = k then reply else before
  | _, _ => before

/-- The hash that a log last read from session `k`. -/
def lastRead (k : String) (log : List (Event redis)) : Option Hash :=
  log.foldl (fun before e => read k before e.1 e.2) none

/-- When `refresh_ttl` executes its `HSET`, every field other than `expires_at` that its `HGETALL`
read is still stored as it was read. -/
def StoredAsRead (k : String) (p : Threads) (l : Label redis Role) : Prop :=
  ∀ mapping, l = .call .refresher (.hset k mapping) →
    ∀ snapshot, lastRead k (p.threads .refresher).log = some snapshot →
      ∀ f, f ≠ .expiresAt → ∀ v, snapshot f = some v → p.state.field k f = some v

@[simp] theorem lastWritten_append (k : String) (log : List (Event redis)) (e : Event redis)
    (f : Field) : lastWritten k (log ++ [e]) f = written k f (lastWritten k log f) e.1 := by
  simp [lastWritten]

/-! ### Extending -/

/-- What `refresh_ttl` of session `k` may write to a session when it last read `snapshot`: the
snapshot with another `expires_at`. -/
def Rewrites (k : String) (snapshot : Option Hash) : Command → Prop
  | .hset k' mapping => k' = k ∧ ∃ h t, snapshot = some h ∧ mapping = h.set .expiresAt t
  | _ => True

/-- The protocol of `refresh_ttl`; the ghost state is the hash last read. -/
def refreshing (k : String) : Protocol redis where
  State := Option Hash
  Allow := Rewrites k
  step := read k

section Extending

open Program hiding pure

/-- The keys that are no session's. -/
def NoSession (key : Key) : Prop := ∀ k, key ≠ .session k

/-- A command that changes no session key is no `HSET`. -/
theorem rewrites_of_within {k : String} (snapshot : Option Hash) {c : Command}
    (hc : c.Within NoSession) : Rewrites k snapshot c := by
  cases c
  case hset k' mapping => exact absurd rfl (hc k')
  all_goals trivial

/-- `refresh_ttl` writes back what it read. -/
theorem follows_refreshTtl (cfg : Config) (k : String) :
    (SessionRepository.refreshTtl cfg k).Follows (refreshing k) (fun _ _ => True) none := by
  have hextend {key : Key} (hkey : NoSession key) :=
    SessionRepository.extend_within (K := NoSession) cfg hkey
  have hprofiles (session : Hash) :=
    SessionRepository.extendProfiles_within (K := NoSession) cfg (by simp [NoSession])
      (by simp [NoSession]) k session
  refine .perform_bind trivial fun session _ => ?_
  cases session with
  | none => trivial
  | some session =>
    refine .perform_bind trivial fun now _ => ?_
    refine .perform_bind ⟨rfl, session, _, ?_, rfl⟩ fun _ _ => .perform_bind trivial fun _ _ => ?_
    · show read k (read k none (.hgetall k) (some session)) .now now = some session
      simp [read]
    -- what follows extends keys that are no session's
    exact Only.follows_allowed ((hextend (by simp [NoSession])).bind fun _ =>
      (hprofiles _).bind fun _ => only_pure) (fun q _ hc => rewrites_of_within q hc) _

end Extending

/-! ### Closing -/

/-- `EXISTS` of session `k` finds it. -/
def Finds (k : String) : (c : Command) → c.Reply → Prop
  | .exists_ (.session k'), found => k' = k → found = true
  | _, _ => True

/-- The protocol of a thread on a session that stays live: every command is allowed, and the ghost
state is the state last written to the session. -/
def closing (k : String) : Protocol redis where
  State := Option String
  Allow _ _ := True
  Answer _ := Finds k
  step q c _ := written k .sessionState q c

/-- A close of session `k` that returns has written the state `end`. -/
def Closed (k : String) (q : Option String) (outcome : Except ServiceError SessionCloseResponse) :
    Prop :=
  ∀ response, outcome = .ok response → response.archivedConversationId = archivedId k →
    q = some (value SessionState.end_)

section Follows

open Program hiding pure

variable {k : String}

/-- The protocol allows everything. -/
theorem follows_any {α : Type} (p : Svc α) (q : Option String) :
    p.Follows (closing k) (fun _ _ => True) q :=
  @follows_of_forall _ _ _ (closing k) _ (fun _ _ => trivial) (fun _ _ => trivial) q p

/-- An update of the session that carries a state writes it. -/
theorem follows_update {updates : Hash} {state : String}
    (hstate : updates .sessionState = some state) (q : Option String) :
    (SessionRepository.update k updates).Follows (closing k) (fun q' _ => q' = some state) q := by
  rw [SessionRepository.update_eq]
  refine .perform_bind trivial fun now _ => .perform_bind trivial fun found hfound => ?_
  obtain rfl : found = true := hfound rfl
  -- the session was found, so the `HSET` with the state follows
  have hset : (updates.set .updatedAt now) .sessionState = some state := by
    rw [Hash.set_of_ne _ (by decide), hstate]
  refine .perform_bind trivial fun _ _ => .perform_bind trivial fun updated _ => ?_
  show written k .sessionState q (.hset k (updates.set .updatedAt now)) = some state
  simp [written, hset]

/-- What follows an update with the state `end` may rely on it where the session is `k`. -/
theorem follows_update_bind {k' : String} {updates : Hash}
    (hstate : updates .sessionState = some (value SessionState.end_))
    {rest : Hash → Svc SessionCloseResponse}
    (hrest : ∀ q updated, (k' = k → q = some (value SessionState.end_)) →
      (rest updated).Follows (closing k) (Closed k) q) (q : Option String) :
    (SessionRepository.update k' updates >>= rest).Follows (closing k) (Closed k) q := by
  have hends : (SessionRepository.update k' updates).Follows (closing k)
      (fun q' _ => k' = k → q' = some (value SessionState.end_)) q := by
    by_cases hk : k' = k
    · subst hk
      exact (follows_update hstate q).mono fun q' _ hq' _ => hq'
    · exact @follows_of_forall _ _ _ (closing k) _ (fun _ _ => trivial)
        (fun _ _ h => absurd h hk) q _
  refine Follows.bind (hends.mono fun q' outcome hq' => ?_)
  cases outcome with
  | ok updated => exact hrest q' updated hq'
  | error e => rintro response ⟨⟩

/-- The response of a close is that of its own session. -/
theorem closed_closeResponse {k' : String} {q : Option String} (now : ℕ)
    (h : k' = k → q = some (value SessionState.end_)) :
    Closed k q (.ok (closeResponse k' now)) := by
  rintro response ⟨⟩ harchived
  exact h (archivedId_injective harchived)

theorem follows_closeSession (request : SessionCloseRequest) (q : Option String) :
    (SessionService.closeSession request).Follows (closing k) (Closed k) q := by
  refine .perform_bind trivial fun session _ => ?_
  cases session with
  | none => rintro response ⟨⟩
  | some session =>
    refine .perform_bind trivial fun now _ => follows_update_bind rfl (fun q' updated hq' => ?_) _
    exact ⟨trivial, fun _ _ => closed_closeResponse now hq'⟩

theorem follows_closeSessionByToken (token : Token) (reason : Option String)
    (q : Option String) :
    (AuthService.closeSessionByToken token reason).Follows (closing k) (Closed k) q := by
  have hraise (e : ServiceError) (q : Option String) : Closed k q (.error e) := by
    rintro response ⟨⟩
  -- deleting the mapping writes no field of a session
  have hjti {α : Type} {p : Svc α} (hp : p.Only (Command.Within Key.IsJti)) (q : Option String) :
      p.Follows (closing k) (fun q' _ => q' = q) q :=
    hp.follows fun c hc => ⟨trivial, fun _ => written_of_within hc (by simp [Key.IsJti]) _ _⟩
  refine Follows.bind ((follows_any (getGlobalSessionKeyFromToken token) q).mono
    fun q₁ outcome _ => ?_)
  rcases outcome with e | k'
  · exact hraise e q₁
  refine .perform_bind trivial fun session _ => ?_
  cases session with
  | none => exact hraise _ _
  | some session =>
    refine .perform_bind trivial fun now _ => follows_update_bind rfl (fun q₂ updated hq₂ => ?_) _
    refine Follows.bind ((hjti (jtiToDelete_within token) q₂).mono fun q₃ outcome hq₃ => ?_)
    rcases outcome with e | jti
    · exact hraise e q₃
    refine Follows.bind ((hjti (deleteJti_within jti) q₃).mono fun q₄ outcome hq₄ => ?_)
    rcases outcome with e | _
    · exact hraise e q₄
    refine .perform_bind trivial fun _ _ => closed_closeResponse now ?_
    show k' = k → q₄ = _
    rw [hq₄, hq₃]
    exact hq₂

/-- Every request follows the protocol: a close of session `k` ends with `end` written. -/
theorem follows_program (cfg : Config) (request : Request) (q : Option String) :
    (do let response ← request.program cfg
        return some response : Svc (Option Response)).Follows (closing k) (fun q' outcome =>
      ∀ response, outcome = .ok (some (.closed response)) →
        response.archivedConversationId = archivedId k →
          q' = some (value SessionState.end_)) q := by
  -- a close is followed by wrapping its response up
  have hclose {p : Svc SessionCloseResponse} (hp : p.Follows (closing k) (Closed k) q) :
      (do let response ← (do return .closed (← p) : Svc Response)
          return some response : Svc (Option Response)).Follows (closing k) (fun q' outcome =>
        ∀ response, outcome = .ok (some (.closed response)) →
          response.archivedConversationId = archivedId k →
            q' = some (value SessionState.end_)) q := by
    rw [bind_assoc]
    refine Follows.bind (hp.mono fun q' outcome hq' => ?_)
    cases outcome with
    | ok response =>
      rintro response ⟨⟩
      exact hq' response rfl
    | error e => rintro response ⟨⟩
  -- the other requests return another kind of response
  have hother {α : Type} (f : α → Response) (hf : ∀ a r, f a ≠ .closed r) (p : Svc α) :
      (do let response ← (do return f (← p) : Svc Response)
          return some response : Svc (Option Response)).Follows (closing k) (fun q' outcome =>
        ∀ response, outcome = .ok (some (.closed response)) →
          response.archivedConversationId = archivedId k →
            q' = some (value SessionState.end_)) q := by
    rw [bind_assoc]
    refine Follows.bind ((follows_any p q).mono fun q' outcome _ => ?_)
    cases outcome with
    | ok a =>
      rintro response heq
      exact absurd (Option.some.inj (Except.ok.inj heq)) (hf a response)
    | error e => rintro response ⟨⟩
  cases request with
  | closeSession request => exact hclose (follows_closeSession request q)
  | closeSessionByToken token reason => exact hclose (follows_closeSessionByToken token reason q)
  | createSession => exact hother .created (fun _ _ => Response.noConfusion) _
  | verifyTokenAndGetSession => exact hother .verified (fun _ _ => Response.noConfusion) _
  | refreshToken => exact hother .refreshed (fun _ _ => Response.noConfusion) _
  | pingSessionByToken => exact hother .pinged (fun _ _ => Response.noConfusion) _
  | resolveSession => exact hother .resolved (fun _ _ => Response.noConfusion) _
  | patchSessionState => exact hother .patched (fun _ _ => Response.noConfusion) _
  | saveApiResult => exact hother .saved (fun _ _ => Response.noConfusion) _
  | updateRealtimePersonalContext => exact hother .updated (fun _ _ => Response.noConfusion) _

end Follows

/-! ### The two threads -/

/-- The protocol of each thread. -/
def protocol (k : String) : Role → Protocol redis
  | .refresher => refreshing k
  | .other => closing k

/-- The ghost states at the start: nothing read, nothing written. -/
def fresh (k : String) : (i : Role) → (protocol k i).State
  | .refresher => (none : Option Hash)
  | .other => (none : Option String)

/-- What a thread may have written when it ends: a close of session `k` has written `end`. -/
def Ends (k : String) :
    (i : Role) → (protocol k i).State → Except ServiceError (Option Response) → Prop
  | .refresher, _, _ => True
  | .other, q, outcome => ∀ response, outcome = .ok (some (.closed response)) →
      response.archivedConversationId = archivedId k → q = some (value SessionState.end_)

theorem conforms_start (cfg : Config) (k : String) (request : Request) (w : World) :
    (Pool.start (programs cfg k request) w).Conforms (protocol k) (fresh k) (Ends k) := by
  apply Pool.conforms_start
  intro i
  cases i with
  | refresher =>
    refine Program.Follows.bind ((follows_refreshTtl cfg k).mono fun q outcome _ => ?_)
    cases outcome <;> trivial
  | other => exact follows_program cfg request none

/-- The session is live, the threads follow their protocols, and what the other request last wrote
is stored. -/
structure Kept (k : String) (p : Threads) : Prop where
  confined : p.Confined (Command.Within fun _ => True)
  conforms : p.Conforms (protocol k) (fresh k) (Ends k)
  live : (p.state.hash k).isSome
  kept : ∀ f, f ≠ .expiresAt → ∀ v, lastWritten k (p.threads .other).log f = some v →
    p.state.field k f = some v

theorem kept_start (cfg : Config) {k : String} (request : Request) {w : World}
    (hlive : (w.hash k).isSome) : Kept k (Pool.start (programs cfg k request) w) where
  confined i := by
    cases i with
    | refresher =>
      exact (SessionRepository.refreshTtl_within cfg k).anywhere.bind fun _ => Program.only_pure
    | other => exact (request.program_within cfg).bind fun _ => Program.only_pure
  conforms := conforms_start cfg k request w
  live := hlive
  kept _ _ _ h := by cases h

/-- `EXISTS` finds a session that is live. -/
theorem finds_of_live {k : String} {w : World} (hlive : (w.hash k).isSome) (c : Command) :
    Finds k c (machine c w).1 := by
  cases c
  case exists_ key =>
    cases key
    case session k' =>
      rintro rfl
      rwa [World.exists_eq_entry, ← Option.isSome_map (f := TtlStore.Entry.value),
        ← World.hash_eq_entry]
    all_goals trivial
  all_goals trivial

/-- The replies of a store in which the session is live are the ones reckoned with. -/
theorem answers_of_live {k : String} {w : World} (hlive : (w.hash k).isSome) (i : Role)
    (q : (protocol k i).State) (c : Command) : (protocol k i).Answer q c (machine c w).1 := by
  cases i with
  | refresher => trivial
  | other => exact finds_of_live hlive c

/-- When what `refresh_ttl` read is still stored, its write changes `expires_at` only. -/
theorem written_eq {k : String} {p : Threads} {c : Command}
    (hallow : Rewrites k (lastRead k (p.threads .refresher).log) c)
    (hguard : StoredAsRead k p (.call .refresher c)) {f : Field} (hf : f ≠ .expiresAt)
    {v : f.Value} (hv : p.state.field k f = some v) :
    written k f (p.state.field k f) c = some v := by
  cases c
  case hset k' mapping =>
    obtain ⟨rfl, snapshot, t, hread, rfl⟩ := hallow
    have hset : (snapshot.set .expiresAt t) f = snapshot f := Hash.set_of_ne snapshot hf t
    cases hsnapshot : snapshot f with
    | none => simp [written, hset, hsnapshot, hv]
    | some v' =>
      -- the field was read, so it is still stored as it was read
      have hstored := hguard _ rfl snapshot hread f hf v' hsnapshot
      rw [hv] at hstored
      simp [written, hset, hsnapshot, hstored]
  all_goals exact hv

/-- Every step that meets the condition keeps what the other request wrote. -/
theorem Kept.step {k : String} {p q : Threads} {l : Label redis Role} (h : Kept k p)
    (hguard : StoredAsRead k p l)
    (hstep : Pool.Step machine (World.Keeps (.session k)) p l q) : Kept k q := by
  have hconfined := h.confined.step hstep
  have hconforms := h.conforms.step (fun i c _ => answers_of_live h.live i _ c) hstep
  cases hstep with
  | @call i c next hprog _ =>
    have hc := h.confined.command hprog
    refine ⟨hconfined, hconforms, hash_isSome hc h.live, fun f hf v hv => ?_⟩
    rw [Pool.answered_state, field_machine hc]
    cases i with
    | refresher =>
      rw [Pool.answered_other p (by decide)] at hv
      exact written_eq (h.conforms.allow hprog) hguard hf (h.kept f hf v hv)
    | other =>
      -- the other request's own `HSET` writes to the log and to the store alike
      rw [Pool.answered_same, lastWritten_append] at hv
      cases c
      case hset k' mapping =>
        by_cases hk : k' = k
        · subst hk
          cases hmapping : mapping f with
          | none =>
            simp only [written, hmapping, Option.none_or, if_true] at hv ⊢
            exact h.kept f hf v hv
          | some v' =>
            simpa [written, hmapping] using hv
        · simp only [written, if_neg hk] at hv ⊢
          exact h.kept f hf v hv
      all_goals exact h.kept f hf v hv
  | env hkeeps =>
    refine ⟨hconfined, hconforms, ?_, fun f hf v hv => ?_⟩
    · rw [hkeeps.hash]
      exact h.live
    · rw [hkeeps.field]
      exact h.kept f hf v hv
  | stop =>
    refine ⟨hconfined, hconforms, h.live, fun f hf v hv => ?_⟩
    rw [Pool.halted_log] at hv
    exact h.kept f hf v hv

/-- Extending a lifetime undoes nothing in every run in which what `refresh_ttl` read is still
stored when it executes its `HSET`, and the session does not expire: what another request last
wrote to a field other than `expires_at` is still there, and a session it closed stays in state
`end`. -/
theorem refreshTtl_keeps_writes (cfg : Config) {k : String} (request : Request) {w : World}
    {p : Threads} (hlive : (w.hash k).isSome)
    (hrun : Pool.Run machine (World.Keeps (.session k)) (StoredAsRead k)
      (Pool.start (programs cfg k request) w) p) :
    (∀ f, f ≠ .expiresAt → ∀ v, lastWritten k (p.threads .other).log f = some v →
      p.state.field k f = some v) ∧
    ∀ response, (p.threads .other).Returned (some (.closed response)) →
      response.archivedConversationId = archivedId k →
        p.state.field k .sessionState = some (value SessionState.end_) := by
  have hkept : Kept k p :=
    hrun.invariant (Kept k) (fun p l q h hguard hstep => h.step hguard hstep)
      (kept_start cfg request hlive)
  refine ⟨hkept.kept, fun response hret harchived => ?_⟩
  have hwritten : lastWritten k (p.threads .other).log .sessionState
      = some (value SessionState.end_) := hkept.conforms.returned hret response rfl harchived
  exact hkept.kept .sessionState (by decide) _ hwritten

/-! ### Next to a close -/

/-- A session in state `talk` as the only content of a store. -/
def talking : World :=
  ((Request.patchSessionState
      { globalSessionKey := "gsess_1", sessionState := some .talk }).program .default).run machine
    TokenRotation.opened |>.2

/-- The request that closes it. -/
def closeRequest : Request := .closeSession { globalSessionKey := "gsess_1" }

/-- `refresh_ttl` and the close, before their first commands. -/
def start : Threads := Pool.start (programs .default "gsess_1" closeRequest) talking

/-- The threads after the close has run and then `refresh_ttl`. -/
def closedThenExtended : Threads :=
  (start.schedule machine (List.replicate 7 .other)).schedule machine
    (List.replicate 6 .refresher)

/-- A step passes the condition when the stored hash is the one that was read. -/
theorem storedAsRead_of_hash {k : String} {p : Threads} {l : Label redis Role}
    (hread : lastRead k (p.threads .refresher).log = p.state.hash k) : StoredAsRead k p l := by
  intro mapping _ snapshot hsnapshot f _ v hv
  rw [hread] at hsnapshot
  simp [World.field, hsnapshot, hv]

/-- `refresh_ttl` after the close finds what it read still stored. -/
theorem run_closedThenExtended :
    Pool.Run machine (World.Keeps (.session "gsess_1")) (StoredAsRead "gsess_1") start
      closedThenExtended := by
  have hclose : Pool.Run machine (World.Keeps (.session "gsess_1")) (StoredAsRead "gsess_1")
      start (start.schedule machine (List.replicate 7 .other)) :=
    Pool.run_schedule_alone (fun q _ c mapping hlabel => by cases hlabel) 7
  refine hclose.trans ?_
  exact .cons rfl nofun <| .cons rfl nofun <| .cons rfl (storedAsRead_of_hash rfl) <|
    .cons rfl nofun <| .cons rfl nofun <| .cons rfl nofun .refl

/-- A close and then the extension: the session is extended and stays closed. -/
theorem refreshTtl_keeps_close :
    let p := closedThenExtended
    p.state.field "gsess_1" .expiresAt = some 300000 ∧
      (∀ f, f ≠ .expiresAt → ∀ v, lastWritten "gsess_1" (p.threads .other).log f = some v →
        p.state.field "gsess_1" f = some v) ∧
      ∀ response, (p.threads .other).Returned (some (.closed response)) →
        response.archivedConversationId = archivedId "gsess_1" →
          p.state.field "gsess_1" .sessionState = some "end" :=
  ⟨rfl, refreshTtl_keeps_writes .default closeRequest rfl run_closedThenExtended⟩

/-- The close writes while `refresh_ttl` holds its snapshot: the closed session is back in state
`talk` when both have finished. -/
theorem refreshTtl_reopens :
    let p := start.schedule machine
      ([.refresher] ++ List.replicate 7 .other ++ List.replicate 6 .refresher)
    Pool.Run machine (World.Keeps (.session "gsess_1")) (fun _ _ => True) start p ∧
      (∀ i, (p.threads i).Finished) ∧
      (∃ response, (p.threads .other).Returned (some (.closed response)) ∧
        response.archivedConversationId = archivedId "gsess_1") ∧
      lastWritten "gsess_1" (p.threads .other).log .sessionState = some "end" ∧
      p.state.field "gsess_1" .sessionState = some "talk" := by
  refine ⟨Pool.run_schedule _ _, fun i => ?_, ⟨_, rfl, rfl⟩, rfl, rfl⟩
  cases i <;> exact trivial

end TtlRefresh

end SessionManager
