import SessionManager.SoundStore
import SessionManager.TtlRefresh

/-!
# Patches of one session at the same time

`turn_ids` and `agent_mappings` grow by reading the session hash, adding an entry and writing the
whole collection back. A patch writes each of them from a hash it read earlier in the request.

* `Progress`, `patching` — what a patch has read and written, as a protocol that
  `patchSessionState` follows.
* `WritesBackRead` — the condition under which no entry is lost: a collection that is written back
  is stored as it was when the request read it.
* `Accumulated` — the invariant of a pool of patches.
-/

namespace SessionManager

open Python Interaction SessionService
open SessionRepository (mappingJson)

namespace ConcurrentPatches

/-- What a patch has read and written. -/
structure Progress where
  /-- The hash the request began with. -/
  first : Option Hash := none
  /-- The hash that was read last. -/
  last : Option Hash := none
  /-- The agent mapping has been written. -/
  registered : Bool := false
  /-- The update with the `turn_id` has been written. -/
  updated : Bool := false

/-- The progress after an answered command. `refresh_ttl` is the only one to write `expires_at`,
and the final update is the only other one to write `updated_at`. -/
def Progress.next (q : Progress) : (c : Command) → c.Reply → Progress
  | .hgetall _, reply => { q with first := q.first.or reply, last := reply }
  | .hset _ mapping, _ =>
    if (mapping .expiresAt).isSome then q
    else if (mapping .updatedAt).isSome then { q with updated := true }
    else { q with registered := true }
  | _, _ => q

/-- The write of `refresh_ttl`: the hash that was read last, with another `expires_at`. -/
def Rewrites (q : Progress) (mapping : Hash) : Prop :=
  ∃ h t, q.last = some h ∧ mapping = h.set .expiresAt t

/-- The write of `set_local_mapping`: the mappings that were read last, with the request's. -/
def Registers (request : SessionPatchRequest) (q : Progress) (mapping : Hash) : Prop :=
  ∃ h agent key type mappings, newMapping request = some (agent, key, type) ∧ q.last = some h ∧
    SessionRepository.withMapping (h .agentMappings) agent key type = .ok mappings ∧
    mapping = SessionRepository.mappingUpdate mappings

/-- The final update: what the request writes, its `turn_ids` from the hash it began with. -/
def Updates (request : SessionPatchRequest) (q : Progress) (mapping : Hash) : Prop :=
  ∃ h t t', q.first = some h ∧ mapping = (patchUpdates h request t).set .updatedAt t'

/-- The commands of a patch. -/
def Allows (request : SessionPatchRequest) (q : Progress) : Command → Prop
  | .hset k mapping => k = request.globalSessionKey ∧
      (Rewrites q mapping ∨ Registers request q mapping ∨ Updates request q mapping)
  | c => c.Within fun _ => True

/-- The replies of a store in which session `k` stays live. -/
def Finds (k : String) : (c : Command) → c.Reply → Prop
  | .exists_ (.session k'), found => k' = k → found = true
  | .hgetall k', reply => k' = k → reply.isSome
  | _, _ => True

/-- The protocol of one patch of a session that stays live. -/
def patching (request : SessionPatchRequest) : Protocol redis where
  State := Progress
  Allow := Allows request
  Answer _ c reply := Finds request.globalSessionKey c reply ∧ ReplyOk (fun _ => True) c reply
  step := Progress.next

/-- A patch that returns has written its mapping, if any, and its final update. -/
def Ends {α : Type} (request : SessionPatchRequest) (q : Progress)
    (outcome : Except ServiceError α) : Prop :=
  ∀ a, outcome = .ok a → q.updated = true ∧ ((newMapping request).isSome → q.registered = true)

/-! ### The program follows the protocol -/

section Follows

open Program SessionRepository RedisHelper

variable {request : SessionPatchRequest} {k : String}

/-- Before the final update: the hash the request began with, and whether the mapping has been
written. -/
structure Before (h : Hash) (registered : Bool) (q : Progress) : Prop where
  first : q.first = some h
  registered : q.registered = registered

/-- A raise ends a patch without any claim on what it has written. -/
theorem ends_error {α : Type} (q : Progress) (e : ServiceError) :
    Ends request q (.error e : Except ServiceError α) := by
  rintro a ⟨⟩

/-- An extension of a key reads and writes no session hash. -/
theorem follows_extend (cfg : Config) (key : Key) (q : Progress) :
    (extend cfg key).Follows (patching request) (fun q' _ => q' = q) q := by
  refine .perform_bind trivial fun found _ => ?_
  cases found with
  | false => rfl
  | true => exact ⟨trivial, fun _ _ => rfl⟩

theorem follows_extendProfiles (cfg : Config) (session : Hash) (q : Progress) :
    (extendProfiles cfg k session).Follows (patching request) (fun q' _ => q' = q) q := by
  unfold extendProfiles
  split
  · split
    · exact follows_extend cfg _ q
    · refine Follows.seq (fun q' _ => q' = q) ((follows_extend cfg _ q).mono ?_) ?_
      · rintro q' (e | a) rfl <;> rfl
      · rintro q' a rfl
        exact follows_extend cfg _ q'
  · exact follows_extend cfg _ q

/-- `refresh_ttl` keeps what the request began with. -/
theorem follows_refreshTtl (cfg : Config) {h : Hash} {registered : Bool} {q : Progress}
    (hq : Before h registered q) :
    (refreshTtl cfg request.globalSessionKey).Follows (patching request)
      (fun q' _ => Before h registered q') q := by
  refine .perform_bind trivial fun session hsession => ?_
  obtain ⟨session, rfl⟩ := Option.isSome_iff_exists.mp (hsession.1 rfl)
  have hread : Before h registered (q.next (.hgetall request.globalSessionKey) (some session)) :=
    ⟨by simp [Progress.next, hq.first], hq.registered⟩
  refine .perform_bind trivial fun now _ => ?_
  refine .perform_bind ⟨rfl, .inl ⟨session, _, rfl, rfl⟩⟩ fun _ _ => ?_
  refine .perform_bind trivial fun _ _ => ?_
  -- the rewrite does not count as a write of the request
  have hsame : (q.next (.hgetall request.globalSessionKey) (some session)).next
      (.hset request.globalSessionKey (session.set .expiresAt (expiry cfg now))) () =
        q.next (.hgetall request.globalSessionKey) (some session) := by
    simp [Progress.next]
  show Follows (patching request) _
    ((q.next (.hgetall request.globalSessionKey) (some session)).next
      (.hset request.globalSessionKey (session.set .expiresAt (expiry cfg now))) ()) _
  rw [hsame]
  refine Follows.bind ((follows_extend cfg _ _).mono ?_)
  rintro q' (e | a) rfl
  · exact hread
  · refine Follows.bind ((follows_extendProfiles cfg _ _).mono ?_)
    rintro q'' (e | b) rfl <;> exact hread

theorem follows_refreshOnTalk (cfg : Config) {h : Hash} {registered : Bool} {q : Progress}
    (hq : Before h registered q) :
    (refreshOnTalk cfg request).Follows (patching request)
      (fun q' _ => Before h registered q') q := by
  unfold refreshOnTalk
  split
  · refine Follows.bind ((follows_refreshTtl cfg hq).mono ?_)
    rintro q' (e | a) hq' <;> exact hq'
  · exact hq

/-- `set_local_mapping` writes the mapping of the request, or raises. -/
theorem follows_registerAgent {h : Hash} {q : Progress} (hq : Before h false q) :
    (registerAgent request).Follows (patching request)
      (fun q' outcome => ∀ a, outcome = .ok a → Before h (newMapping request).isSome q') q := by
  unfold registerAgent
  cases hnew : newMapping request with
  | none => rintro a -; exact hq
  | some new =>
    obtain ⟨agent, key, type⟩ := new
    refine .perform_bind trivial fun session hsession => ?_
    obtain ⟨session, rfl⟩ := Option.isSome_iff_exists.mp (hsession.1 rfl)
    dsimp only
    cases hmappings : withMapping (session .agentMappings) agent key type with
    | error e => rintro a ⟨⟩
    | ok mappings =>
      dsimp only
      rw [updateSession_eq _ (mappingUpdate_isEmpty mappings)]
      refine .perform_bind trivial fun found hfound => ?_
      obtain rfl : found = true := hfound.1 rfl
      refine ⟨⟨rfl, .inr (.inl ⟨session, agent, key, type, mappings, hnew, rfl, hmappings, rfl⟩)⟩,
        fun _ _ a _ => ?_⟩
      -- the progress of the patch after both commands
      have hnext : (q.next (.hgetall request.globalSessionKey) (some session)).next
          (.hset request.globalSessionKey (mappingUpdate mappings)) () =
            { q with first := q.first.or (some session), last := some session,
                     registered := true } := rfl
      show Before h true ((q.next (.hgetall request.globalSessionKey) (some session)).next
        (.hset request.globalSessionKey (mappingUpdate mappings)) ())
      rw [hnext]
      exact ⟨by simp [hq.first], rfl⟩

/-- The final update. -/
theorem follows_update {h : Hash} {registered : Bool} {q : Progress} (hq : Before h registered q)
    (now : ℕ) :
    (update request.globalSessionKey (patchUpdates h request now)).Follows (patching request)
      (fun q' _ => q'.updated = true ∧ q'.registered = registered) q := by
  rw [update_eq]
  refine .perform_bind trivial fun now' _ => .perform_bind trivial fun found hfound => ?_
  obtain rfl : found = true := hfound.1 rfl
  refine .perform_bind ⟨rfl, .inr (.inr ⟨h, now, now', hq.first, rfl⟩)⟩ fun _ _ =>
    .perform_bind trivial fun updated _ => ?_
  have hnext : q.next (.hset request.globalSessionKey
      ((patchUpdates h request now).set .updatedAt now')) () = { q with updated := true } := by
    have hexpiry : ((patchUpdates h request now).set .updatedAt now') .expiresAt = none := by
      rw [Hash.set_of_ne _ (by decide)]
      rfl
    simp [Progress.next, hexpiry]
  have hends : (q.next (.hset request.globalSessionKey
      ((patchUpdates h request now).set .updatedAt now')) ()).updated = true ∧
      (q.next (.hset request.globalSessionKey
        ((patchUpdates h request now).set .updatedAt now')) ()).registered = registered := by
    rw [hnext]
    exact ⟨rfl, hq.registered⟩
  exact hends

theorem follows_patchSessionState (cfg : Config) (request : SessionPatchRequest) :
    (patchSessionState cfg request).Follows (patching request) (Ends request)
      ({} : Progress) := by
  refine .perform_bind trivial fun session hsession => ?_
  obtain ⟨session, rfl⟩ := Option.isSome_iff_exists.mp (hsession.1 rfl)
  refine .perform_bind trivial fun now _ => ?_
  have hbegun : Before session false (({} : Progress).next
      (.hgetall request.globalSessionKey) (some session)) := ⟨rfl, rfl⟩
  refine Follows.bind ((follows_refreshOnTalk cfg hbegun).mono fun q₁ outcome hq₁ => ?_)
  rcases outcome with e | _
  · exact ends_error _ e
  refine .ofExcept_bind (fun e _ => ends_error _ e) fun _ _ => ?_
  refine Follows.bind ((follows_registerAgent hq₁).mono fun q₂ outcome hq₂ => ?_)
  rcases outcome with e | _
  · exact ends_error _ e
  refine Follows.bind ((follows_update (hq₂ _ rfl) now).mono fun q₃ outcome hq₃ => ?_)
  rcases outcome with e | _
  · exact ends_error _ e
  refine ⟨trivial, fun _ _ a _ => ⟨hq₃.1, fun hnew => ?_⟩⟩
  rw [← hnew]
  exact hq₃.2

end Follows

/-! ### What one write does to the collections -/

/-- The `turn_id`s in a stored value. -/
def turnIdList : Option Json → List String
  | some (.arr items) => items.map Json.pyStr
  | _ => []

/-- The mapping of an agent in a stored value. -/
def mappingIn (stored : Option Json) (agent : String) : Option Json :=
  match stored with
  | some (.obj mappings) => mappings.lookup agent
  | _ => none

theorem turnIdList_eq (h : Hash) : (turnIds? h).getD [] = turnIdList (h .turnIds) := by
  unfold turnIds? turnIdList
  split <;> simp_all

@[simp] theorem turnIdList_str (turnIds : List String) :
    turnIdList (some (.arr (turnIds.map .str))) = turnIds := by
  simp [turnIdList, Function.comp_def]

/-- What the collections `turns` and `mappings` may become by one write of a request. -/
structure Grows (request : SessionPatchRequest) (q q' : Progress) (turns turns' mappings
    mappings' : Option Json) : Prop where
  /-- No `turn_id` is lost. -/
  turnIds : ∀ t ∈ turnIdList turns, t ∈ turnIdList turns'
  /-- The final update adds the request's. -/
  sent : q'.updated = true → q.updated = true ∨
    ∀ t, request.turnId = some t → t ∈ turnIdList turns'
  /-- A mapping stays, or is replaced by the request's. -/
  agents : ∀ agent, mappingIn mappings' agent = mappingIn mappings agent ∨
    ∃ key type, newMapping request = some (agent, key, type) ∧
      mappingIn mappings' agent = some (mappingJson key type)
  /-- The registration adds the request's. -/
  registered : q'.registered = true → q.registered = true ∨
    ∀ agent key type, newMapping request = some (agent, key, type) →
      mappingIn mappings' agent = some (mappingJson key type)

/-- Nothing changes. -/
theorem Grows.refl (request : SessionPatchRequest) {q q' : Progress} (turns mappings : Option Json)
    (hupdated : q'.updated = q.updated) (hregistered : q'.registered = q.registered) :
    Grows request q q' turns turns mappings mappings where
  turnIds _ ht := ht
  sent h := .inl (hupdated ▸ h)
  agents _ := .inl rfl
  registered h := .inl (hregistered ▸ h)

variable {request : SessionPatchRequest} {q : Progress} {k : String} {mapping : Hash}
  {turns mappings : Option Json}

/-- Writing back what is stored. -/
theorem or_eq_self {α : Type} {new old : Option α} (h : new.isSome → old = new) :
    new.or old = old := by
  cases new with
  | none => rfl
  | some a => exact (h rfl).symm

theorem grows_rewrites (hm : Rewrites q mapping)
    (hturns : (mapping .turnIds).isSome → turns = q.last.bind (· .turnIds))
    (hmappings : (mapping .agentMappings).isSome → mappings = q.last.bind (· .agentMappings)) :
    Grows request q (q.next (.hset k mapping) ()) turns ((mapping .turnIds).or turns) mappings
      ((mapping .agentMappings).or mappings) := by
  obtain ⟨h, t, hlast, rfl⟩ := hm
  have hsame : q.next (.hset k (h.set .expiresAt t)) () = q := by simp [Progress.next]
  have hback {f : Field} (hf : f ≠ .expiresAt) : q.last.bind (· f) = (h.set .expiresAt t) f := by
    rw [hlast, Hash.set_of_ne _ hf]
    rfl
  rw [or_eq_self fun hsome => (hturns hsome).trans (hback (by decide)),
    or_eq_self fun hsome => (hmappings hsome).trans (hback (by decide)), hsame]
  exact .refl request turns mappings rfl rfl

theorem mappingIn_withMapping {stored : Option Json} {agent key type : String} {new : Dict}
    (h : SessionRepository.withMapping stored agent key type = .ok new) (agent' : String) :
    mappingIn (some (.obj new)) agent' =
      if agent' = agent then some (mappingJson key type) else mappingIn stored agent' := by
  unfold SessionRepository.withMapping at h
  split at h
  · obtain rfl := Except.ok.inj h
    split_ifs with hagent
    · simp [mappingIn, hagent, mappingJson]
    · have hne : (agent' == agent) = false := by simpa using hagent
      simp [mappingIn, List.lookup_cons, hne]
  · obtain rfl := Except.ok.inj h
    split_ifs with hagent
    · rw [hagent]
      exact Dict.lookup_set_self ..
    · exact Dict.lookup_set_of_ne _ hagent _
  · cases h

theorem grows_registers (hm : Registers request q mapping)
    (hmappings : (mapping .agentMappings).isSome → mappings = q.last.bind (· .agentMappings)) :
    Grows request q (q.next (.hset k mapping) ()) turns ((mapping .turnIds).or turns) mappings
      ((mapping .agentMappings).or mappings) := by
  obtain ⟨h, agent, key, type, new, hnew, hlast, hwith, rfl⟩ := hm
  have hstored : mappings = h .agentMappings := by rw [hmappings rfl, hlast]; rfl
  have hin (agent' : String) := mappingIn_withMapping hwith agent'
  rw [← hstored] at hin
  refine ⟨fun t ht => ht, .inl, fun agent' => ?_, fun _ => .inr fun agent' key' type' hnew' => ?_⟩
  · show mappingIn (some (.obj new)) agent' = _ ∨
      ∃ key type, _ ∧ mappingIn (some (.obj new)) agent' = _
    by_cases hagent : agent' = agent
    · subst hagent
      exact .inr ⟨key, type, hnew, by rw [hin, if_pos rfl]⟩
    · exact .inl (by rw [hin, if_neg hagent])
  · obtain ⟨rfl, rfl, rfl⟩ : agent = agent' ∧ key = key' ∧ type = type' := by
      simpa [hnew] using hnew'
    show mappingIn (some (.obj new)) agent = _
    rw [hin, if_pos rfl]

theorem grows_updates (hm : Updates request q mapping)
    (hturns : (mapping .turnIds).isSome → turns = q.first.bind (· .turnIds)) :
    Grows request q (q.next (.hset k mapping) ()) turns ((mapping .turnIds).or turns) mappings
      ((mapping .agentMappings).or mappings) := by
  obtain ⟨h, t, t', hfirst, rfl⟩ := hm
  -- `updated_at` aside, the write is that of `patchUpdates`
  have hupdates (f : Field) (hf : f ≠ .updatedAt) :
      ((patchUpdates h request t).set .updatedAt t') f = patchUpdates h request t f :=
    Hash.set_of_ne _ hf _
  have hregistered : (q.next (.hset k ((patchUpdates h request t).set .updatedAt t')) ()).registered
      = q.registered := by
    simp [Progress.next, hupdates, patchUpdates]
  rw [hupdates .turnIds (by decide)] at hturns ⊢
  rw [hupdates .agentMappings (by decide)]
  cases hid : request.turnId with
  | none =>
    have hnone : patchUpdates h request t .turnIds = none := by simp [patchUpdates, newTurnIds, hid]
    rw [hnone]
    exact ⟨fun _ ht => ht, fun _ => .inr fun t ht => by simp [hid] at ht, fun _ => .inl rfl,
      fun hq => .inl (hregistered ▸ hq)⟩
  | some turnId =>
    have hsome : patchUpdates h request t .turnIds =
        some (.arr ((appendTurnId (turnIdList turns) turnId).map .str)) := by
      rw [hturns (by simp [patchUpdates, newTurnIds, hid]), hfirst]
      simp [patchUpdates, newTurnIds, hid, turnIdList_eq]
    rw [hsome]
    refine ⟨fun t ht => ?_, fun _ => .inr fun t ht => ?_, fun _ => .inl rfl,
      fun hq => .inl (hregistered ▸ hq)⟩
    · rw [Option.some_or, turnIdList_str, mem_appendTurnId]
      exact .inl ht
    · rw [Option.some_or, turnIdList_str, mem_appendTurnId]
      exact .inr (Option.some.inj (hid ▸ ht)).symm

/-! ### A pool of patches -/

section Pool

variable {ι : Type} [DecidableEq ι]

/-- The patches and the world they run in. -/
abbrev Patches (ι : Type) := Pool redis ServiceError SessionPatchResponse World ι

/-- What patch `i` has read and written. -/
def progress (p : Patches ι) (i : ι) : Progress :=
  (p.threads i).log.foldl (fun q e => q.next e.1 e.2) {}

/-- The stored `turn_id`s of a session. -/
def storedTurnIds (w : World) (k : String) : List String := turnIdList (w.field k .turnIds)

/-- The stored mapping of an agent. -/
def storedMapping (w : World) (k agent : String) : Option Json :=
  mappingIn (w.field k .agentMappings) agent

/-- The hash a written `turn_ids` comes from: the one read last for the write of `refresh_ttl`, the
one the request began with for its own update. -/
def turnSource (q : Progress) (mapping : Hash) : Option Hash :=
  if (mapping .expiresAt).isSome then q.last else q.first

/-- A collection that a patch writes back is stored as it was in the hash the patch computed it
from. -/
def WritesBackRead (k : String) (p : Patches ι) (l : Label redis ι) : Prop :=
  ∀ i mapping, l = .call i (.hset k mapping) →
    ((mapping .turnIds).isSome →
      p.state.field k .turnIds = (turnSource (progress p i) mapping).bind (· .turnIds)) ∧
    ((mapping .agentMappings).isSome →
      p.state.field k .agentMappings = (progress p i).last.bind (· .agentMappings))

/-- The invariant of a pool of patches of session `k` that began in world `w`. -/
structure Accumulated (k : String) (requests : ι → SessionPatchRequest) (w : World)
    (p : Patches ι) : Prop where
  /-- Each patch follows its protocol. -/
  conforms : p.Conforms (fun i => patching (requests i)) (fun _ => {}) (fun i => Ends (requests i))
  /-- The patches store well-formed values, and the store is sound. -/
  sound : p.Conforms (fun _ => sound fun _ => True) (fun _ => ()) (fun _ _ _ => True) ∧
    p.state.Sound fun _ => True
  /-- The session is live. -/
  live : (p.state.hash k).isSome
  /-- The `turn_id`s from before are stored. -/
  kept : ∀ t ∈ storedTurnIds w k, t ∈ storedTurnIds p.state k
  /-- The `turn_id` of a patch is stored once its final update is written. -/
  sent : ∀ i, (progress p i).updated = true → ∀ t, (requests i).turnId = some t →
    t ∈ storedTurnIds p.state k
  /-- The agents from before have a mapping. -/
  agents : ∀ agent, (storedMapping w k agent).isSome → (storedMapping p.state k agent).isSome
  /-- The mapping of a registered agent is one that a patch sent. -/
  registered : ∀ i, (progress p i).registered = true → ∀ agent key type,
    newMapping (requests i) = some (agent, key, type) →
      ∃ j key' type', newMapping (requests j) = some (agent, key', type') ∧
        storedMapping p.state k agent = some (mappingJson key' type')

variable {k : String} {requests : ι → SessionPatchRequest} {w : World} {p : Patches ι}

omit [DecidableEq ι] in
theorem accumulated_start (cfg : Config) (hsound : w.Sound fun _ => True)
    (hlive : (w.hash k).isSome) :
    Accumulated k requests w (Pool.start (fun i => patchSessionState cfg (requests i)) w) where
  conforms := Pool.conforms_start fun i => follows_patchSessionState cfg (requests i)
  sound :=
    ⟨Pool.conforms_start fun i => (patchSessionState_serves (requests i)).sound
      (Request.refers_true (.patchSessionState (requests i))), hsound⟩
  live := hlive
  kept _ ht := ht
  sent _ h := nomatch h
  agents _ h := h
  registered _ h := nomatch h

/-- Commands that write no session hash keep the progress but for what is read. -/
theorem next_flags {c : Command} (hc : ∀ k mapping, c ≠ .hset k mapping) (q : Progress)
    (r : c.Reply) : (q.next c r).updated = q.updated ∧ (q.next c r).registered = q.registered := by
  cases c <;> first | exact ⟨rfl, rfl⟩ | exact absurd rfl (hc _ _)

theorem turnSource_of_rewrites {q : Progress} {mapping : Hash} (hm : Rewrites q mapping) :
    turnSource q mapping = q.last := by
  obtain ⟨h, t, -, rfl⟩ := hm
  simp [turnSource]

theorem turnSource_of_updates {request : SessionPatchRequest} {q : Progress} {mapping : Hash}
    (hm : Updates request q mapping) : turnSource q mapping = q.first := by
  obtain ⟨h, t, t', -, rfl⟩ := hm
  have hnone : ((patchUpdates h request t).set .updatedAt t') .expiresAt = none :=
    Hash.set_of_ne _ (by decide) _
  simp [turnSource, hnone]

/-- `EXISTS` and `HGETALL` find a session that is live. -/
theorem finds_of_live {w : World} {k : String} (hlive : (w.hash k).isSome) (c : Command) :
    Finds k c (machine c w).1 := by
  cases c
  case exists_ key =>
    cases key
    case session k' => exact TtlRefresh.finds_of_live hlive (.exists_ (.session k'))
    all_goals trivial
  case hgetall k' =>
    rintro rfl
    exact hlive
  all_goals trivial

omit [DecidableEq ι] in
/-- What the command of patch `i` does to the collections. -/
theorem Accumulated.grows (h : Accumulated k requests w p)
    (hk : ∀ i, (requests i).globalSessionKey = k) {i : ι} {c : Command}
    {next : c.Reply → Svc SessionPatchResponse} (hprog : (p.threads i).prog = .call c next)
    (hguard : WritesBackRead k p (.call i c)) :
    Grows (requests i) (progress p i) ((progress p i).next c (machine c p.state).1)
      (p.state.field k .turnIds) ((machine c p.state).2.field k .turnIds)
      (p.state.field k .agentMappings) ((machine c p.state).2.field k .agentMappings) := by
  have hallow : Allows (requests i) (progress p i) c := h.conforms.allow hprog
  have hwithin : c.Within fun _ => True := by
    cases c <;> first | exact trivial | exact hallow
  rw [field_machine hwithin, field_machine hwithin]
  -- commands other than `HSET` leave both collections
  by_cases hc : ∀ k mapping, c ≠ .hset k mapping
  · have hflags := next_flags hc (progress p i) (machine c p.state).1
    have hsame (f : Field) : written k f (p.state.field k f) c = p.state.field k f := by
      cases c <;> first | rfl | exact absurd rfl (hc _ _)
    rw [hsame, hsame]
    exact .refl _ _ _ hflags.1 hflags.2
  · push Not at hc
    obtain ⟨k', mapping, rfl⟩ := hc
    obtain ⟨hk', hkind⟩ := hallow
    obtain rfl : k' = k := hk'.trans (hk i)
    obtain ⟨hturns, hmappings⟩ := hguard i mapping rfl
    simp only [written, if_true]
    -- the three kinds of writes of a patch
    rcases hkind with hm | hm | hm
    · rw [turnSource_of_rewrites hm] at hturns
      exact grows_rewrites hm hturns hmappings
    · exact grows_registers hm hmappings
    · rw [turnSource_of_updates hm] at hturns
      exact grows_updates hm hturns

/-- One answered command keeps the invariant. -/
theorem Accumulated.answered (h : Accumulated k requests w p)
    (hk : ∀ i, (requests i).globalSessionKey = k) {i : ι} {c : Command}
    {next : c.Reply → Svc SessionPatchResponse} (hprog : (p.threads i).prog = .call c next)
    (hstopped : (p.threads i).stopped = false) (hguard : WritesBackRead k p (.call i c)) :
    Accumulated k requests w (p.answered machine i c next) := by
  have hgrows := h.grows hk hprog hguard
  have hsame : progress (p.answered machine i c next) i =
      (progress p i).next c (machine c p.state).1 := by simp [progress]
  have hother {j : ι} (hj : j ≠ i) : progress (p.answered machine i c next) j = progress p j := by
    simp [progress, hj]
  have hwithin : c.Within fun _ => True := by
    have hallow : Allows (requests i) (progress p i) c := h.conforms.allow hprog
    cases c <;> first | exact trivial | exact hallow
  refine ⟨h.conforms.answered hprog ⟨?_, h.sound.2.reply c⟩,
    sound_step (fun _ _ => id) h.sound (.call hprog hstopped), hash_isSome hwithin h.live,
    fun t ht => hgrows.turnIds t (h.kept t ht), fun j hj t ht => ?_, fun agent hagent => ?_,
    fun j hj agent key type hnew => ?_⟩
  · rw [hk i]
    exact finds_of_live h.live c
  · by_cases hji : j = i
    · subst hji
      rw [hsame] at hj
      rcases hgrows.sent hj with hbefore | hnow
      · exact hgrows.turnIds t (h.sent j hbefore t ht)
      · exact hnow t ht
    · rw [hother hji] at hj
      exact hgrows.turnIds t (h.sent j hj t ht)
  · -- a mapping that was there is replaced at most
    rcases hgrows.agents agent with hstays | ⟨key, type, -, hreplaced⟩
    · show (mappingIn _ agent).isSome
      rw [Pool.answered_state, hstays]
      exact h.agents agent hagent
    · show (mappingIn _ agent).isSome
      rw [Pool.answered_state, hreplaced]
      rfl
  · -- what was registered before may have been replaced by this patch
    have hsent (hbefore : (progress p j).registered = true) :
        ∃ j key' type', newMapping (requests j) = some (agent, key', type') ∧
          storedMapping (p.answered machine i c next).state k agent =
            some (mappingJson key' type') := by
      obtain ⟨j', key', type', hnew', hstored⟩ := h.registered j hbefore agent key type hnew
      rcases hgrows.agents agent with hstays | ⟨key'', type'', hnew'', hreplaced⟩
      · exact ⟨j', key', type', hnew', hstays.trans hstored⟩
      · exact ⟨i, key'', type'', hnew'', hreplaced⟩
    by_cases hji : j = i
    · subst hji
      rw [hsame] at hj
      rcases hgrows.registered hj with hbefore | hnow
      · exact hsent hbefore
      · exact ⟨j, key, type, hnew, hnow agent key type hnew⟩
    · rw [hother hji] at hj
      exact hsent hj

/-- Every step that meets the condition keeps the invariant. -/
theorem Accumulated.step (h : Accumulated k requests w p)
    (hk : ∀ i, (requests i).globalSessionKey = k) {q : Patches ι} {l : Label redis ι}
    (hguard : WritesBackRead k p l)
    (hstep : Pool.Step machine (World.Keeps (.session k)) p l q) :
    Accumulated k requests w q := by
  have hsound := sound_step (fun _ _ h => h.1) h.sound hstep
  cases hstep with
  | call hprog hstopped => exact h.answered hk hprog hstopped hguard
  | env hkeeps =>
    refine ⟨h.conforms, hsound, ?_, fun t ht => ?_, fun i hi t ht => ?_, fun agent hagent => ?_,
      fun i hi agent key type hnew => ?_⟩
    · -- time alone changes no field
      rw [hkeeps.hash]
      exact h.live
    · rw [storedTurnIds, hkeeps.field]
      exact h.kept t ht
    · rw [storedTurnIds, hkeeps.field]
      exact h.sent i hi t ht
    · rw [storedMapping, hkeeps.field]
      exact h.agents agent hagent
    · rw [storedMapping, hkeeps.field]
      exact h.registered i hi agent key type hnew
  | @stop i =>
    have hprogress (j : ι) : progress (p.halted i) j = progress p j := by simp [progress]
    refine ⟨fun j => by simpa using h.conforms j, hsound, h.live, h.kept, fun j hj => ?_, h.agents,
      fun j hj => ?_⟩
    · exact h.sent j (hprogress j ▸ hj)
    · exact h.registered j (hprogress j ▸ hj)

/-- The stored `turn_id`s of a sound store are distinct. -/
theorem storedTurnIds_nodup (h : w.Sound fun _ => True) : (storedTurnIds w k).Nodup := by
  unfold storedTurnIds World.field
  cases hhash : w.hash k with
  | none => exact List.nodup_nil
  | some session =>
    show (turnIdList (session .turnIds)).Nodup
    rw [← turnIdList_eq]
    exact turnIds?_nodup (h.hash hhash)

/-- No accumulated entry is lost in any run of concurrent patches in which every collection that is
written back is stored as it was read, and the session does not expire. -/
theorem patchSessionState_accumulates (cfg : Config) (hk : ∀ i, (requests i).globalSessionKey = k)
    (hreach : Reachable cfg (fun _ => True) w) (hlive : (w.hash k).isSome)
    (hrun : Pool.Run machine (World.Keeps (.session k)) (WritesBackRead k)
      (Pool.start (fun i => patchSessionState cfg (requests i)) w) p)
    (hall : ∀ i, ∃ r, (p.threads i).Returned r) :
    (∀ t ∈ storedTurnIds w k, (storedTurnIds p.state k).count t = 1) ∧
    (∀ i t, (requests i).turnId = some t → (storedTurnIds p.state k).count t = 1) ∧
    (∀ i agent key type, newMapping (requests i) = some (agent, key, type) →
      ∃ j key' type', newMapping (requests j) = some (agent, key', type') ∧
        storedMapping p.state k agent = some (mappingJson key' type')) ∧
    ∀ agent, (storedMapping w k agent).isSome → (storedMapping p.state k agent).isSome := by
  have hsound : w.Sound fun _ => True :=
    (hreach.mono fun request _ => request.refers_true).sound
  have hinv : Accumulated k requests w p :=
    hrun.invariant (Accumulated k requests w) (fun _ _ _ h hg hs => h.step hk hg hs)
      (accumulated_start cfg hsound hlive)
  have hnodup : (storedTurnIds p.state k).Nodup := storedTurnIds_nodup hinv.sound.2
  -- a patch that has returned has made both of its writes
  have hended (i : ι) : (progress p i).updated = true ∧
      ((newMapping (requests i)).isSome → (progress p i).registered = true) := by
    obtain ⟨r, hret⟩ := hall i
    exact hinv.conforms.returned hret r rfl
  refine ⟨fun t ht => ?_, fun i t ht => ?_, fun i agent key type hnew => ?_, hinv.agents⟩
  · exact List.count_eq_one_of_mem hnodup (hinv.kept t ht)
  · exact List.count_eq_one_of_mem hnodup (hinv.sent i (hended i).1 t ht)
  · exact hinv.registered i ((hended i).2 (by simp [hnew])) agent key type hnew

end Pool

/-! ### Two patches -/

/-- A patch with a `turn_id` and a mapping for agent `agent`. -/
def turnPatch (turnId agent : String) : SessionPatchRequest where
  globalSessionKey := "gsess_1"
  turnId := some turnId
  statePatch := some { lastAgentId := some agent, agentSessionKey := some "key" }

/-- Two patches of the only session of a store, with different entries. -/
def twoPatches : Patches Bool :=
  Pool.start (fun i => patchSessionState .default
    (if i then turnPatch "turn_1" "agent_1" else turnPatch "turn_2" "agent_2"))
    TokenRotation.opened

theorem reachable_opened : Reachable .default (fun _ => True) TokenRotation.opened :=
  ⟨Unit, inferInstance, fun _ => .createSession "gsess_1" "jti_0" {}, 0, _,
    fun _ => trivial, Pool.run_schedule _ (List.replicate 11 ()), rfl⟩

/-- An `HSET` whose collections are stored as they were read passes the condition. -/
theorem writesBackRead_hset {k : String} {p : Patches Bool} {i : Bool} {mapping : Hash}
    (hturns : (mapping .turnIds).isSome →
      p.state.field k .turnIds = (turnSource (progress p i) mapping).bind (· .turnIds))
    (hmappings : (mapping .agentMappings).isSome →
      p.state.field k .agentMappings = (progress p i).last.bind (· .agentMappings)) :
    WritesBackRead k p (.call i (.hset k mapping)) := by
  rintro j mapping' ⟨⟩
  exact ⟨hturns, hmappings⟩

/-- One patch after the other passes the condition: each writes its mapping and then its
`turn_id`, and the second one begins with what the first one has stored. -/
theorem run_sequential :
    Pool.Run machine (World.Keeps (.session "gsess_1")) (WritesBackRead "gsess_1") twoPatches
      (twoPatches.schedule machine (List.replicate 10 true ++ List.replicate 10 false)) := by
  refine .cons rfl nofun <| .cons rfl nofun <| .cons rfl nofun <| .cons rfl nofun <|
    .cons rfl (writesBackRead_hset nofun fun _ => rfl) <| .cons rfl nofun <| .cons rfl nofun <|
    .cons rfl (writesBackRead_hset (fun _ => rfl) nofun) <| .cons rfl nofun <| .cons rfl nofun ?_
  exact .cons rfl nofun <| .cons rfl nofun <| .cons rfl nofun <| .cons rfl nofun <|
    .cons rfl (writesBackRead_hset nofun fun _ => rfl) <| .cons rfl nofun <| .cons rfl nofun <|
    .cons rfl (writesBackRead_hset (fun _ => rfl) nofun) <| .cons rfl nofun <| .cons rfl nofun .refl

/-- One patch after the other: both entries are stored. -/
theorem patchSessionState_accumulates_sequential :
    let p := twoPatches.schedule machine (List.replicate 10 true ++ List.replicate 10 false)
    (∀ t ∈ storedTurnIds TokenRotation.opened "gsess_1",
      (storedTurnIds p.state "gsess_1").count t = 1) ∧
    (∀ (i : Bool) t, (if i then turnPatch "turn_1" "agent_1"
        else turnPatch "turn_2" "agent_2").turnId = some t →
      (storedTurnIds p.state "gsess_1").count t = 1) ∧
    (∀ (i : Bool) agent key type, newMapping (if i then turnPatch "turn_1" "agent_1"
        else turnPatch "turn_2" "agent_2") = some (agent, key, type) →
      ∃ (j : Bool) (key' type' : String), newMapping (if j then turnPatch "turn_1" "agent_1"
          else turnPatch "turn_2" "agent_2") = some (agent, key', type') ∧
        storedMapping p.state "gsess_1" agent = some (mappingJson key' type')) ∧
    ∀ agent, (storedMapping TokenRotation.opened "gsess_1" agent).isSome →
      (storedMapping p.state "gsess_1" agent).isSome := by
  refine patchSessionState_accumulates .default (fun i => ?_) reachable_opened rfl run_sequential
    fun i => ?_
  · cases i <;> rfl
  · cases i <;> exact ⟨_, rfl⟩

/-- Both patches read the collections before either writes them: the entries of the patch that
writes first are lost. -/
theorem patchSessionState_loses :
    let p := twoPatches.schedule machine
      (List.replicate 3 true ++ List.replicate 3 false ++ List.replicate 7 true ++
        List.replicate 7 false)
    Reachable .default (fun _ => True) TokenRotation.opened ∧
      Pool.Run machine (World.Keeps (.session "gsess_1")) (fun _ _ => True) twoPatches p ∧
      (∀ i, ∃ r, (p.threads i).Returned r) ∧
      storedTurnIds p.state "gsess_1" = ["turn_2"] ∧
      storedMapping p.state "gsess_1" "agent_1" = none := by
  refine ⟨reachable_opened, Pool.run_schedule _ _, fun i => ?_, rfl, rfl⟩
  cases i <;> exact ⟨_, rfl⟩

end ConcurrentPatches

end SessionManager
