import SessionManager.PatchedSessions
import SessionManager.TokenRotation
import SessionManager.Writes

/-!
# Patches one after the other

What two accepted patches of one session leave, up to time stamps: a patch that is sent again
changes nothing, and patches that write different fields can be exchanged.

* `untimed`, `SameHash` — an event without its time stamp, hashes that agree up to time stamps.
* `Agree` — stores whose hashes of one session are related and that are the same elsewhere.
* `patchSessionState_again` — a patch that is sent again.
* `Independent`, `Exchanged` — patches that write different fields, and what exchanging them leaves.
* `patchSessionState_commute` — the two orders of independent patches.
-/

namespace SessionManager

open Python Interaction
open SessionService SessionRepository RedisHelper

namespace PatchAlgebra

open Program hiding pure

/-- A stored event without its time stamp. -/
def untimed : Json → Json
  | .obj event => .obj (event.filter fun entry => entry.1 ≠ "updated_at")
  | v => v

/-- The fields that hold an instant that patches set. -/
def stamps : List Field := [.updatedAt, .expiresAt]

/-- The hashes agree up to time stamps. -/
structure SameHash (h h' : Hash) : Prop where
  lastEvent : (h .lastEvent).map untimed = (h' .lastEvent).map untimed
  stamped : ∀ f ∈ stamps, (h f).isSome = (h' f).isSome
  others : ∀ f, f ∉ stamps → f ≠ .lastEvent → h f = h' f

/-- Session `k` is live in both worlds with related hashes, and the values under every other key
are the same. -/
structure Agree (R : Hash → Hash → Prop) (k : String) (w w' : World) : Prop where
  session : ∃ e e', w.entry (.session k) = some e ∧ w'.entry (.session k) = some e' ∧
    R e.value e'.value
  elsewhere : ∀ key, key ≠ .session k →
    (w.store key).map TtlStore.Entry.value = (w'.store key).map TtlStore.Entry.value

/-! ### What a patch leaves alone -/

/-- The command writes to session `k`, if to anything; every other one at most sets an expiry. -/
inductive OnSession (k : String) : Command → Prop
  | look {c : Command} : c.changes = none → OnSession k c
  | hset (mapping : Hash) : OnSession k (.hset k mapping)
  | expire (key : Key) (seconds : ℕ) : OnSession k (.expire key seconds)

/-- A patch writes to its session only. -/
theorem patchSessionState_onSession (cfg : Config) (request : SessionPatchRequest) :
    (patchSessionState cfg request).Only (OnSession request.globalSessionKey) := by
  have hserves : Serves cfg (fun _ => True) (.patchSessionState request)
      (patchSessionState cfg request) := patchSessionState_serves request
  have hwrites : (patchSessionState cfg request).Only
      ((Request.patchSessionState request).Writes cfg fun _ => True) := by
    refine Follows.only (P := writing cfg (fun _ => True) (.patchSessionState request))
      (fun q c reply => ?_) (fun q c h => h.1) hserves
    cases c <;> first | trivial | exact fun _ _ => trivial
  refine (hwrites.and (patchSessionState_within cfg request)).mono ?_
  rintro c ⟨hc, hwithin⟩
  cases hc with
  | look h => exact .look h
  | rewrite k now _ =>
    obtain rfl : k = request.globalSessionKey := hwithin
    exact .hset _
  | update now hupdates =>
    cases hupdates
    exact .hset _
  | register => exact .hset _
  | expire _ => exact .expire _ _
  | issueJti => exact hwithin.1.elim
  | revokeJti => exact hwithin.1.elim

/-- The values under every other key stay as they are. -/
theorem patchSessionState_elsewhere (cfg : Config) (request : SessionPatchRequest)
    {env : World → World → Prop} (henv : ∀ w w', env w w' → w.Elapses w') (w : World) :
    (patchSessionState cfg request).Wp machine env (fun _ w' =>
      ∀ key, key ≠ .session request.globalSessionKey →
        (w'.store key).map TtlStore.Entry.value = (w.store key).map TtlStore.Entry.value) w := by
  refine Wp.of_only (I := fun w' : World => ∀ key, key ≠ .session request.globalSessionKey →
    (w'.store key).map TtlStore.Entry.value = (w.store key).map TtlStore.Entry.value)
    (patchSessionState_onSession cfg request) ?_ ?_ fun _ _ => rfl
  · intro w₁ w₂ hstep hsame key hkey
    rw [(henv _ _ hstep).store_eq]
    exact hsame key hkey
  · rintro c w₁ hc hsame key hkey
    refine Eq.trans ?_ (hsame key hkey)
    cases hc with
    | look h => rw [machine_store_of_ne (by simp [h])]
    | hset mapping => rw [machine_store_of_ne (by simpa [Command.changes] using hkey.symm)]
    | expire key' seconds => exact TtlStore.value_expire _

/-! ### What a patch writes -/

/-- The event that a patch records, without its time stamp. -/
def eventOf (request : SessionPatchRequest) : Option Json :=
  (newLastEvent request 0).map fun event => untimed (.obj event)

/-- The instant is all that two events of a request differ in. -/
theorem untimed_newLastEvent (request : SessionPatchRequest) (now : ℕ) :
    ((newLastEvent request now).map Json.obj).map untimed = eventOf request := by
  have hevent (patch : StatePatch) (now' : ℕ) :
      untimed (.obj (lastEventDict patch now')) = untimed (.obj (lastEventDict patch 0)) := by
    simp [untimed, lastEventDict]
  unfold eventOf newLastEvent
  cases request.statePatch with
  | none => rfl
  | some patch =>
    simp only [Option.bind_some]
    split_ifs
    · simp only [Option.map_some, hevent patch now]
    · rfl

/-- The other updates depend on the request only. -/
theorem patchUpdates_congr (request : SessionPatchRequest) (h h' : Hash) (now now' : ℕ)
    {f : Field} (hturns : f ≠ .turnIds) (hevent : f ≠ .lastEvent) :
    patchUpdates h request now f = patchUpdates h' request now' f := by
  cases f <;> first | contradiction | rfl

/-- The mapping is set in the stored ones, or in none. -/
theorem withMapping_ok {stored : Option Json} {agentId agentSessionKey agentType : String}
    {mappings : Dict} (h : withMapping stored agentId agentSessionKey agentType = .ok mappings) :
    ∃ before : Dict, (stored = none ∧ before = [] ∨ stored = some (.obj before)) ∧
      mappings = Dict.set before agentId (mappingJson agentSessionKey agentType) := by
  unfold withMapping at h
  split at h
  · cases h
    exact ⟨[], .inl ⟨rfl, rfl⟩, rfl⟩
  · cases h
    exact ⟨_, .inr rfl, rfl⟩
  · cases h

/-- The turns that are stored after a patch. -/
def turnsAfter (request : SessionPatchRequest) (h : Hash) : Option Json :=
  ((newTurnIds h request).map fun turnIds => Json.arr (turnIds.map .str)).or (h .turnIds)

theorem turnsAfter_of_none {request : SessionPatchRequest} (hturn : request.turnId = none)
    (h : Hash) : turnsAfter request h = h .turnIds := by
  unfold turnsAfter newTurnIds
  rw [hturn]
  rfl

theorem turnsAfter_of_some {request : SessionPatchRequest} {turnId : String}
    (hturn : request.turnId = some turnId) (h : Hash) :
    turnsAfter request h =
      some (.arr ((appendTurnId ((turnIds? h).getD []) turnId).map .str)) := by
  unfold turnsAfter newTurnIds
  rw [hturn]
  rfl

/-- The turns after a patch come from the stored turns. -/
theorem turnsAfter_congr (request : SessionPatchRequest) {h h' : Hash}
    (hturns : h .turnIds = h' .turnIds) : turnsAfter request h = turnsAfter request h' := by
  unfold turnsAfter newTurnIds turnIds?
  rw [hturns]

/-! ### The same patch again -/

section Again

variable (cfg : Config) (request : SessionPatchRequest) (h : Hash)

/-- A patch that has registered its mapping leaves the same mappings when it does so again. -/
theorem registered_again (hregisters : Registers h request) {h' : Hash}
    (hmappings : h' .agentMappings = (registered h request).or (h .agentMappings)) :
    Registers h' request ∧ (registered h' request).or (h' .agentMappings) = h' .agentMappings := by
  cases hnew : newMapping request with
  | none =>
    refine ⟨fun _ _ _ hsome => ?_, ?_⟩
    · rw [hnew] at hsome
      cases hsome
    · rw [registered_of_none h' hnew, Option.none_or]
  | some mapping =>
    obtain ⟨agentId, agentSessionKey, agentType⟩ := mapping
    obtain ⟨mappings, hm⟩ := hregisters agentId agentSessionKey agentType hnew
    obtain ⟨before, -, rfl⟩ := withMapping_ok hm
    rw [registered_of_ok hnew hm, Option.some_or] at hmappings
    have hagain : withMapping (h' .agentMappings) agentId agentSessionKey agentType =
        .ok (before.set agentId (mappingJson agentSessionKey agentType)) := by
      rw [hmappings]
      exact congrArg Except.ok (Dict.set_set _ _ _ _)
    refine ⟨fun _ _ _ hsome => ?_, ?_⟩
    · rw [hnew] at hsome
      cases hsome
      exact ⟨_, hagain⟩
    · rw [registered_of_ok hnew hagain, hmappings, Option.some_or]

/-- The turn of a patch that is sent again is there already. -/
theorem turnsAfter_again {h' : Hash} (hturns : h' .turnIds = turnsAfter request h) :
    turnsAfter request h' = h' .turnIds := by
  cases hturn : request.turnId with
  | none => exact turnsAfter_of_none hturn h'
  | some turnId =>
    rw [turnsAfter_of_some hturn] at hturns
    rw [turnsAfter_of_some hturn, turnIds?_of_str hturns, Option.getD_some, appendTurnId_again,
      hturns]

/-- A patch that is sent again leaves the hash as the first one did, up to time stamps. -/
theorem sameHash_again (hregisters : Registers h request)
    (t₀ now₀ t₀' t₁ now₁ t₁' t₂ now₂ t₂' : ℕ) :
    SameHash (patched cfg request t₀ now₀ t₀' h)
      (patched cfg request t₂ now₂ t₂' (patched cfg request t₁ now₁ t₁' h)) := by
  set h₁ := patched cfg request t₁ now₁ t₁' h with hh₁
  refine ⟨?_, ?_, fun f hstamp hevent => ?_⟩
  · show (((newLastEvent request now₀).map Json.obj).or (h .lastEvent)).map untimed =
      (((newLastEvent request now₂).map Json.obj).or
        (((newLastEvent request now₁).map Json.obj).or (h .lastEvent))).map untimed
    simp only [Option.map_or, untimed_newLastEvent, Option.or_assoc.symm, Option.or_self]
  · intro f hf
    simp only [stamps, List.mem_cons, List.not_mem_nil, or_false] at hf
    rcases hf with rfl | rfl
    · rfl
    · -- `expires_at` is set by both or by none
      show (if _ then _ else _ : Option ℕ).isSome =
        (if _ then _ else if _ then _ else _ : Option ℕ).isSome
      split_ifs <;> rfl
  · have hupdated : f ≠ .updatedAt := by
      rintro rfl
      exact hstamp (by simp [stamps])
    have hexpires : f ≠ .expiresAt := by
      rintro rfl
      exact hstamp (by simp [stamps])
    -- the two collections accumulate, every other field is overwritten
    by_cases hmap : f = .agentMappings
    · subst hmap
      exact ((registered_again request h hregisters rfl).2).symm
    by_cases hturns : f = .turnIds
    · subst hturns
      have hstored : h₁ .turnIds = turnsAfter request h := rfl
      exact (turnsAfter_again request h hstored).symm
    · have hne : f ≠ .updatedAt ∧ f ≠ .expiresAt ∧ f ≠ .agentMappings := ⟨hupdated, hexpires, hmap⟩
      rw [patched_of_ne cfg request t₀ now₀ t₀' h hne, patched_of_ne cfg request t₂ now₂ t₂' h₁ hne,
        hh₁, patched_of_ne cfg request t₁ now₁ t₁' h hne,
        patchUpdates_congr request h₁ h now₂ now₀ hturns hevent,
        patchUpdates_congr request h h now₁ now₀ hturns hevent]
      cases patchUpdates h request now₀ f <;> rfl

end Again

/-! ### Independent patches -/

/-- The patches write different fields, apart from `turn_ids` and `last_event`, and do not map the
same agent. -/
structure Independent (p q : SessionPatchRequest) : Prop where
  fields : ∀ f, f ≠ .turnIds → f ≠ .lastEvent → ∀ h now,
    patchUpdates h p now f = none ∨ patchUpdates h q now f = none
  agents : ∀ agentId key type agentId' key' type', newMapping p = some (agentId, key, type) →
    newMapping q = some (agentId', key', type') → agentId ≠ agentId'

/-- The lists have the same items. -/
def SameItems (v v' : Option Json) : Prop :=
  v = v' ∨ ∃ items items', v = some (.arr items) ∧ v' = some (.arr items') ∧
    ∀ item, item ∈ items ↔ item ∈ items'

/-- The objects map the same keys to the same values. -/
def SameEntries (v v' : Option Json) : Prop :=
  v = v' ∨ ∃ entries entries', v = some (.obj entries) ∧ v' = some (.obj entries') ∧
    ∀ key, entries.lookup key = entries'.lookup key

/-- Hash `h'` comes from `h` by exchanging two patches. -/
structure Exchanged (h h' : Hash) : Prop where
  turnIds : SameItems (h .turnIds) (h' .turnIds)
  agentMappings : SameEntries (h .agentMappings) (h' .agentMappings)
  stamped : ∀ f ∈ stamps, (h f).isSome = (h' f).isSome
  others : ∀ f, f ∉ stamps → f ≠ .lastEvent → f ≠ .turnIds → f ≠ .agentMappings → h f = h' f

/-- The last event of `h'` is the one of `second`, else the one of `first`, else the one of `h`. -/
def LastOf (first second : SessionPatchRequest) (h h' : Hash) : Prop :=
  (h' .lastEvent).map untimed =
    (eventOf second).or ((eventOf first).or ((h .lastEvent).map untimed))

section Commute

variable (cfg : Config) {p q : SessionPatchRequest} (h : Hash)

theorem lastOf_patched (t₁ now₁ t₁' t₂ now₂ t₂' : ℕ) :
    LastOf p q h (patched cfg q t₂ now₂ t₂' (patched cfg p t₁ now₁ t₁' h)) := by
  show (((newLastEvent q now₂).map Json.obj).or
    (((newLastEvent p now₁).map Json.obj).or (h .lastEvent))).map untimed = _
  simp only [Option.map_or, untimed_newLastEvent]

/-- Two turns are there in either order. -/
theorem turnsAfter_exchanged {h₁ h₂ : Hash} (h₁_turns : h₁ .turnIds = turnsAfter p h)
    (h₂_turns : h₂ .turnIds = turnsAfter q h) :
    SameItems (turnsAfter q h₁) (turnsAfter p h₂) := by
  cases hp : p.turnId with
  | none =>
    refine .inl ?_
    rw [turnsAfter_of_none hp] at h₁_turns
    rw [turnsAfter_of_none hp, h₂_turns, turnsAfter_congr q h₁_turns]
  | some turnId =>
    cases hq : q.turnId with
    | none =>
      refine .inl ?_
      rw [turnsAfter_of_none hq] at h₂_turns
      rw [turnsAfter_of_none hq, h₁_turns, turnsAfter_congr p h₂_turns]
    | some turnId' =>
      rw [turnsAfter_of_some hp] at h₁_turns
      rw [turnsAfter_of_some hq] at h₂_turns
      refine .inr ⟨_, _, turnsAfter_of_some hq h₁, turnsAfter_of_some hp h₂, fun item => ?_⟩
      rw [turnIds?_of_str h₁_turns, turnIds?_of_str h₂_turns]
      simp only [Option.getD_some, List.mem_map, mem_appendTurnId]
      exact exists_congr fun turn => and_congr_left fun _ => or_right_comm

/-- Mappings of different agents are there in either order. -/
theorem registered_exchanged (hagents : ∀ agentId key type agentId' key' type',
      newMapping p = some (agentId, key, type) → newMapping q = some (agentId', key', type') →
      agentId ≠ agentId')
    (hp : Registers h p) (hq : Registers h q) {h₁ h₂ : Hash}
    (h₁_mappings : h₁ .agentMappings = (registered h p).or (h .agentMappings))
    (h₂_mappings : h₂ .agentMappings = (registered h q).or (h .agentMappings)) :
    SameEntries ((registered h₁ q).or (h₁ .agentMappings))
      ((registered h₂ p).or (h₂ .agentMappings)) := by
  -- the mapping of one patch on top of those that another one left
  have hcongr {h h' : Hash} (r : SessionPatchRequest)
      (hsame : h .agentMappings = h' .agentMappings) : registered h r = registered h' r := by
    unfold registered
    rw [hsame]
  cases hnew : newMapping p with
  | none =>
    refine .inl ?_
    rw [registered_of_none h hnew, Option.none_or] at h₁_mappings
    rw [registered_of_none h₂ hnew, Option.none_or, h₂_mappings, hcongr q h₁_mappings, h₁_mappings]
  | some mapping =>
    obtain ⟨agentId, key, type⟩ := mapping
    cases hnew' : newMapping q with
    | none =>
      refine .inl ?_
      rw [registered_of_none h hnew', Option.none_or] at h₂_mappings
      rw [registered_of_none h₁ hnew', Option.none_or, h₁_mappings, hcongr p h₂_mappings,
        h₂_mappings]
    | some mapping' =>
      obtain ⟨agentId', key', type'⟩ := mapping'
      have hne : agentId ≠ agentId' := hagents _ _ _ _ _ _ hnew hnew'
      obtain ⟨m, hm⟩ := hp _ _ _ hnew
      obtain ⟨m', hm'⟩ := hq _ _ _ hnew'
      obtain ⟨before, hbefore, rfl⟩ := withMapping_ok hm
      obtain ⟨before', hbefore', rfl⟩ := withMapping_ok hm'
      obtain rfl : before = before' := by
        rcases hbefore with ⟨hnone, rfl⟩ | hsome <;> rcases hbefore' with ⟨hnone', rfl⟩ | hsome'
        · rfl
        · rw [hnone] at hsome'
          cases hsome'
        · rw [hnone'] at hsome
          cases hsome
        · rw [hsome] at hsome'
          exact Json.obj.inj (Option.some.inj hsome')
      rw [registered_of_ok hnew hm, Option.some_or] at h₁_mappings
      rw [registered_of_ok hnew' hm', Option.some_or] at h₂_mappings
      have hm₁ : withMapping (h₁ .agentMappings) agentId' key' type' =
          .ok ((before.set agentId (mappingJson key type)).set agentId'
            (mappingJson key' type')) := by
        rw [h₁_mappings]
        rfl
      have hm₂ : withMapping (h₂ .agentMappings) agentId key type =
          .ok ((before.set agentId' (mappingJson key' type')).set agentId
            (mappingJson key type)) := by
        rw [h₂_mappings]
        rfl
      refine .inr ⟨_, _, ?_, ?_, Dict.lookup_set_comm before hne (mappingJson key type)
        (mappingJson key' type')⟩
      · rw [registered_of_ok hnew' hm₁, Option.some_or]
      · rw [registered_of_ok hnew hm₂, Option.some_or]

/-- Exchanging independent patches leaves the same hash, up to time stamps and the order in which
turns and mappings were added. -/
theorem exchanged_patched (hindep : Independent p q) (hp : Registers h p) (hq : Registers h q)
    (t₁ now₁ t₁' t₂ now₂ t₂' s₁ nows₁ s₁' s₂ nows₂ s₂' : ℕ) :
    Exchanged (patched cfg q t₂ now₂ t₂' (patched cfg p t₁ now₁ t₁' h))
      (patched cfg p s₂ nows₂ s₂' (patched cfg q s₁ nows₁ s₁' h)) := by
  set h₁ := patched cfg p t₁ now₁ t₁' h with hh₁
  set h₂ := patched cfg q s₁ nows₁ s₁' h with hh₂
  refine ⟨?_, ?_, ?_, fun f hstamp hevent hturns hmap => ?_⟩
  · have hturns₁ : h₁ .turnIds = turnsAfter p h := rfl
    have hturns₂ : h₂ .turnIds = turnsAfter q h := rfl
    exact turnsAfter_exchanged h hturns₁ hturns₂
  · have hmappings₁ : h₁ .agentMappings = (registered h p).or (h .agentMappings) := rfl
    have hmappings₂ : h₂ .agentMappings = (registered h q).or (h .agentMappings) := rfl
    exact registered_exchanged h hindep.agents hp hq hmappings₁ hmappings₂
  · intro f hf
    simp only [stamps, List.mem_cons, List.not_mem_nil, or_false] at hf
    rcases hf with rfl | rfl
    · rfl
    · show (if _ then _ else if _ then _ else _ : Option ℕ).isSome =
        (if _ then _ else if _ then _ else _ : Option ℕ).isSome
      split_ifs <;> rfl
  · have hupdated : f ≠ .updatedAt := by
      rintro rfl
      exact hstamp (by simp [stamps])
    have hexpires : f ≠ .expiresAt := by
      rintro rfl
      exact hstamp (by simp [stamps])
    have hne : f ≠ .updatedAt ∧ f ≠ .expiresAt ∧ f ≠ .agentMappings := ⟨hupdated, hexpires, hmap⟩
    rw [patched_of_ne cfg q t₂ now₂ t₂' h₁ hne, patched_of_ne cfg p s₂ nows₂ s₂' h₂ hne, hh₁, hh₂,
      patched_of_ne cfg p t₁ now₁ t₁' h hne, patched_of_ne cfg q s₁ nows₁ s₁' h hne,
      patchUpdates_congr q h₁ h now₂ 0 hturns hevent,
      patchUpdates_congr p h h now₁ 0 hturns hevent,
      patchUpdates_congr p h₂ h nows₂ 0 hturns hevent,
      patchUpdates_congr q h h nows₁ 0 hturns hevent]
    -- at most one of the two patches writes the field
    rcases hindep.fields f hturns hevent h 0 with hnone | hnone <;> rw [hnone] <;>
      simp only [Option.none_or]

end Commute

/-! ### Runs -/

section Runs

variable {cfg : Config} {request : SessionPatchRequest} {k : String} {e : TtlStore.Entry Hash}
  {w w' : World} {x : Except ServiceError SessionPatchResponse}

/-- An accepted patch leaves the hash `patched`, and the other keys as they were. -/
theorem accepted_run (hk : request.globalSessionKey = k) (he : w.entry (.session k) = some e)
    {response : SessionPatchResponse}
    (hexec : (patchSessionState cfg request).Exec machine (World.Keeps (.session k)) w
      (.ok response) w') :
    validatePatch request = .ok () ∧ Registers e.value request ∧
      (∃ t now t' e', w'.entry (.session k) = some e' ∧
        e'.value = patched cfg request t now t' e.value) ∧
      ∀ key, key ≠ .session k →
        (w'.store key).map TtlStore.Entry.value = (w.store key).map TtlStore.Entry.value := by
  obtain ⟨t, e', he', hvalid, hregisters, now, t', hpatched⟩ :=
    (patchSessionState_spec (fun _ _ h => h) request hk he).exec hexec
  have helsewhere := (patchSessionState_elsewhere cfg request (fun _ _ h => h.1) w).exec hexec
  rw [hk] at helsewhere
  exact ⟨hvalid, hregisters, ⟨t, now, t', e', he', hpatched⟩, helsewhere⟩

/-- A valid patch whose mapping can be registered is accepted. -/
theorem accepted_of_valid (hk : request.globalSessionKey = k)
    (he : w.entry (.session k) = some e) (hvalid : validatePatch request = .ok ())
    (hregisters : Registers e.value request)
    (hexec : (patchSessionState cfg request).Exec machine (World.Keeps (.session k)) w x w') :
    ∃ response, x = .ok response := by
  have hspec := (patchSessionState_spec (fun _ _ h => h) request hk he).exec hexec
  cases x with
  | ok response => exact ⟨response, rfl⟩
  | error err =>
    obtain ⟨-, -, -, hrefused, -⟩ := hspec
    exact absurd hregisters (hrefused hvalid)

/-- Time that passes changes no stored value. -/
theorem elsewhere_of_keeps (h : World.Keeps (.session k) w w') (key : Key) :
    (w'.store key).map TtlStore.Entry.value = (w.store key).map TtlStore.Entry.value := by
  rw [h.1.store_eq]

end Runs

end PatchAlgebra

open PatchAlgebra in
/-- A patch of a live session that has been accepted is accepted again, and applied twice it leaves
what it leaves when it is applied once, up to time stamps and expiries. Time may pass before every
command and between the two, as long as the session does not expire. -/
theorem patchSessionState_again (cfg : Config) (request : SessionPatchRequest) {k : String}
    (hk : request.globalSessionKey = k) {w w₁ v₁ v v₂ : World} (hlive : (w.hash k).isSome)
    {response response₁ : SessionPatchResponse} {x : Except ServiceError SessionPatchResponse}
    (honce : (patchSessionState cfg request).Exec machine (World.Keeps (.session k)) w
      (.ok response) w₁)
    (hfirst : (patchSessionState cfg request).Exec machine (World.Keeps (.session k)) w
      (.ok response₁) v₁)
    (hbetween : World.Keeps (.session k) v₁ v)
    (hsecond : (patchSessionState cfg request).Exec machine (World.Keeps (.session k)) v x v₂) :
    (∃ response₂, x = .ok response₂) ∧ Agree SameHash k w₁ v₂ := by
  obtain ⟨h, hhash⟩ := Option.isSome_iff_exists.mp hlive
  obtain ⟨e, he, rfl⟩ := TtlStore.get_eq_some_iff.mp hhash
  obtain ⟨hvalid, hregisters, ⟨t, now, t', e₁, he₁, hpatched⟩, helsewhere⟩ :=
    accepted_run hk he honce
  obtain ⟨-, -, ⟨t₁, now₁, t₁', d₁, hd₁, hpatched₁⟩, helsewhere₁⟩ := accepted_run hk he hfirst
  have hd : v.entry (.session k) = some d₁ := hbetween.entry.trans hd₁
  -- the mapping of the first application takes the second one
  have hregisters₁ : Registers d₁.value request := by
    rw [hpatched₁]
    exact (registered_again request e.value hregisters rfl).1
  obtain ⟨response₂, rfl⟩ := accepted_of_valid hk hd hvalid hregisters₁ hsecond
  obtain ⟨-, -, ⟨t₂, now₂, t₂', d₂, hd₂, hpatched₂⟩, helsewhere₂⟩ := accepted_run hk hd hsecond
  refine ⟨⟨response₂, rfl⟩, ⟨e₁, d₂, he₁, hd₂, ?_⟩, fun key hkey => ?_⟩
  · rw [hpatched, hpatched₂, hpatched₁]
    exact sameHash_again cfg request e.value hregisters t now t' t₁ now₁ t₁' t₂ now₂ t₂'
  · rw [helsewhere key hkey, helsewhere₂ key hkey, elsewhere_of_keeps hbetween key,
      helsewhere₁ key hkey]

namespace PatchAlgebra

/-- The answer of an agent in turn `turn_1`. -/
def answer : SessionPatchRequest where
  globalSessionKey := "gsess_1"
  turnId := some "turn_1"
  sessionState := some .talk
  statePatch := some
    { lastAgentId := some "agent_1", agentSessionKey := some "asess_1", turnCount := some 1 }

/-- A patch without interference. -/
def apply (request : SessionPatchRequest) (w : World) : World :=
  ((patchSessionState .default request).run machine w).2

theorem apply_exec (request : SessionPatchRequest) (w : World) :
    (patchSessionState .default request).Exec machine (World.Keeps (.session "gsess_1")) w
      ((patchSessionState .default request).run machine w).1 (apply request w) :=
  Program.Exec.of_run (fun _ => World.Keeps.of_eq rfl) _ w

/-- The answer, sent twice. -/
theorem answer_again :
    Agree SameHash "gsess_1" (apply answer TokenRotation.opened)
      (apply answer (apply answer TokenRotation.opened)) :=
  (patchSessionState_again .default answer rfl rfl (apply_exec answer TokenRotation.opened)
    (apply_exec answer TokenRotation.opened) (World.Keeps.of_eq rfl) (apply_exec answer _)).2

end PatchAlgebra

open PatchAlgebra in
/-- Independent patches of a live session, accepted in both orders, leave the same in both orders
up to time stamps, expiries and the last event: every turn and every mapping, whatever the order
they were added in. The last event is the one of the patch that came last. -/
theorem patchSessionState_commute (cfg : Config) {p q : SessionPatchRequest} {k : String}
    (hp : p.globalSessionKey = k) (hq : q.globalSessionKey = k) (hindep : Independent p q)
    {w w₁ w₁' w₂ v₁ v₁' v₂ : World} {h : Hash} (hlive : w.hash k = some h)
    {r₁ r₂ r₃ r₄ : SessionPatchResponse}
    (hfirst : (patchSessionState cfg p).Exec machine (World.Keeps (.session k)) w (.ok r₁) w₁)
    (hbetween : World.Keeps (.session k) w₁ w₁')
    (hsecond : (patchSessionState cfg q).Exec machine (World.Keeps (.session k)) w₁' (.ok r₂) w₂)
    (hfirst' : (patchSessionState cfg q).Exec machine (World.Keeps (.session k)) w (.ok r₃) v₁)
    (hbetween' : World.Keeps (.session k) v₁ v₁')
    (hsecond' : (patchSessionState cfg p).Exec machine (World.Keeps (.session k)) v₁' (.ok r₄) v₂) :
    Agree Exchanged k w₂ v₂ ∧
      (∃ h₂, w₂.hash k = some h₂ ∧ LastOf p q h h₂) ∧
      ∃ h₂, v₂.hash k = some h₂ ∧ LastOf q p h h₂ := by
  obtain ⟨e, he, rfl⟩ := TtlStore.get_eq_some_iff.mp hlive
  -- first `p`, then `q`
  obtain ⟨-, hregisters, ⟨t₁, now₁, t₁', e₁, he₁, hpatched₁⟩, helsewhere₁⟩ :=
    accepted_run hp he hfirst
  obtain ⟨-, -, ⟨t₂, now₂, t₂', e₂, he₂, hpatched₂⟩, helsewhere₂⟩ :=
    accepted_run hq (hbetween.entry.trans he₁) hsecond
  -- first `q`, then `p`
  obtain ⟨-, hregisters', ⟨s₁, nows₁, s₁', d₁, hd₁, hpatched₁'⟩, helsewhere₁'⟩ :=
    accepted_run hq he hfirst'
  obtain ⟨-, -, ⟨s₂, nows₂, s₂', d₂, hd₂, hpatched₂'⟩, helsewhere₂'⟩ :=
    accepted_run hp (hbetween'.entry.trans hd₁) hsecond'
  refine ⟨⟨⟨e₂, d₂, he₂, hd₂, ?_⟩, fun key hkey => ?_⟩, ⟨e₂.value, World.hash_of_entry he₂, ?_⟩,
    d₂.value, World.hash_of_entry hd₂, ?_⟩
  · rw [hpatched₂, hpatched₁, hpatched₂', hpatched₁']
    exact exchanged_patched cfg e.value hindep hregisters hregisters' t₁ now₁ t₁' t₂ now₂ t₂' s₁
      nows₁ s₁' s₂ nows₂ s₂'
  · rw [helsewhere₂ key hkey, elsewhere_of_keeps hbetween key, helsewhere₁ key hkey,
      helsewhere₂' key hkey, elsewhere_of_keeps hbetween' key, helsewhere₁' key hkey]
  · rw [hpatched₂, hpatched₁]
    exact lastOf_patched cfg e.value t₁ now₁ t₁' t₂ now₂ t₂'
  · rw [hpatched₂', hpatched₁']
    exact lastOf_patched cfg e.value s₁ nows₁ s₁' s₂ nows₂ s₂'

namespace PatchAlgebra

/-- The question of another agent in turn `turn_2`. -/
def question : SessionPatchRequest where
  globalSessionKey := "gsess_1"
  turnId := some "turn_2"
  statePatch := some
    { lastAgentId := some "agent_2", agentSessionKey := some "asess_2",
      lastResponseType := some .continue_, cushionMessage := some "One moment, please." }

theorem answer_question_independent : Independent answer question where
  fields f hturns hevent h now := by
    cases f <;> first | contradiction | exact .inl rfl | exact .inr rfl
  agents agentId key type agentId' key' type' hanswer hquestion := by
    cases hanswer
    cases hquestion
    decide

/-- The answer and the question in either order. -/
theorem answer_question_commute :
    Agree Exchanged "gsess_1" (apply question (apply answer TokenRotation.opened))
      (apply answer (apply question TokenRotation.opened)) :=
  (patchSessionState_commute .default (p := answer) (q := question) (k := "gsess_1") rfl rfl
    answer_question_independent rfl (apply_exec answer TokenRotation.opened)
    (World.Keeps.of_eq rfl) (apply_exec question _) (apply_exec question TokenRotation.opened)
    (World.Keeps.of_eq rfl) (apply_exec answer _)).1

end PatchAlgebra

end SessionManager
