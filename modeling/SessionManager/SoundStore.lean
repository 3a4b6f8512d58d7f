import Mathlib.Data.List.Nodup
import SessionManager.Writes

/-!
# What is stored is well formed

Whatever requests run, in whatever order their commands interleave and whenever keys expire or
requests stop, every stored value is one that its readers expect: the enumerations hold values of
their members, `turn_ids` is a list of distinct strings, and so on.

* `Field.Ok`, `Hash.Ok`, `Key.Ok`, `World.Sound` — well-formed fields, hashes, entries and stores.
  `Ref` is a property of reference information that is known to hold of what patches carry.
* `sound` — the protocol of a program that stores well-formed values when it reads such;
  `Request.Writes.ok` is what makes every request follow it.
* `Reachable`, `Reachable.sound` — the stores that requests can lead to.
-/

namespace SessionManager

open Python Interaction
open SessionRepository (mappingJson)

/-- The value is one that a reader of the field expects. -/
def Field.Ok (Ref : Dict → Prop) : (f : Field) → f.Value → Prop
  | .sessionState, v => ∃ state : SessionState, v = value state
  | .taskQueueStatus, v => ∃ status : TaskQueueStatus, v = value status
  | .subagentStatus, v => ∃ status : SubAgentStatus, v = value status
  | .turnIds, v => ∃ turnIds : List String, turnIds.Nodup ∧ v = .arr (turnIds.map .str)
  | .agentMappings, v => ∃ mappings : Dict, v = .obj mappings ∧
      ∀ agent m, mappings.lookup agent = some m → ∃ key type, m = mappingJson key type
  | .referenceInformation, v => ∃ refInfo : Dict, v = .obj refInfo ∧
      SessionService.validateReferenceInformation refInfo = .ok () ∧ Ref refInfo
  | _, _ => True

/-- All fields are well formed. -/
def Hash.Ok (Ref : Dict → Prop) (h : Hash) : Prop := ∀ f v, h f = some v → Field.Ok Ref f v

/-- The value is one that a reader of the key expects. -/
def Key.Ok (Ref : Dict → Prop) : (key : Key) → key.Value → Prop
  | .session _, h => Hash.Ok Ref h
  | .realtimeProfile _, v => ∃ profile, v = .obj profile
  | .batchProfile _, v => ∃ profile, v = .obj profile
  | _, _ => True

/-- Everything that is stored is well formed. -/
def World.Sound (Ref : Dict → Prop) (w : World) : Prop :=
  ∀ key e, w.store key = some e → Key.Ok Ref key e.value

/-- The command stores well-formed values. -/
def Command.Ok (Ref : Dict → Prop) : Command → Prop
  | .hset _ mapping => Hash.Ok Ref mapping
  | .set key v => Key.Ok Ref key v
  | .setex key _ v => Key.Ok Ref key v
  | _ => True

/-- The reply is well formed. -/
def ReplyOk (Ref : Dict → Prop) : (c : Command) → c.Reply → Prop
  | .hgetall _, reply => ∀ h, reply = some h → Hash.Ok Ref h
  | .get key, reply => ∀ v, reply = some v → Key.Ok Ref key v
  | _, _ => True

/-- The protocol of a program that stores well-formed values when it reads such. -/
def sound (Ref : Dict → Prop) : Protocol redis where
  State := Unit
  Allow _ := Command.Ok Ref
  Answer _ := ReplyOk Ref
  step _ _ _ := ()

variable {Ref : Dict → Prop}

/-! ### Hashes -/

namespace Hash

theorem ok_empty : Ok Ref empty := nofun

theorem Ok.set {h : Hash} (hh : h.Ok Ref) {f : Field} {v : f.Value} (hv : Field.Ok Ref f v) :
    (h.set f v).Ok Ref := by
  intro g u hg
  by_cases hfg : g = f
  · subst hfg
    rw [set_self, Option.some.injEq] at hg
    exact hg ▸ hv
  · rw [set_of_ne _ hfg] at hg
    exact hh g u hg

theorem Ok.merge {h mapping : Hash} (hh : h.Ok Ref) (hm : mapping.Ok Ref) :
    (h.merge mapping).Ok Ref := by
  intro f v hf
  cases hmf : mapping f with
  | none =>
    rw [merge_of_none hmf] at hf
    exact hh f v hf
  | some u =>
    rw [merge_of_some hmf, Option.some.injEq] at hf
    exact hf ▸ hm f u hmf

end Hash

/-! ### Commands -/

/-- A sound store shows well-formed values only. -/
theorem World.Sound.get {w : World} (h : w.Sound Ref) {key : Key} {v : key.Value}
    (hget : w.store.get w.now key = some v) : Key.Ok Ref key v := by
  obtain ⟨e, hlook, rfl⟩ := TtlStore.get_eq_some_iff.mp hget
  exact h key e (TtlStore.lookup_eq_some_iff.mp hlook).1

/-- A sound store shows well-formed hashes only. -/
theorem World.Sound.hash {w : World} (h : w.Sound Ref) {k : String} {session : Hash}
    (hhash : w.hash k = some session) : session.Ok Ref :=
  @World.Sound.get Ref w h (.session k) _ hhash

/-- A sound store gives well-formed replies. -/
theorem World.Sound.reply {w : World} (h : w.Sound Ref) (c : Command) :
    ReplyOk Ref c (machine c w).1 := by
  cases c
  case hgetall k => exact fun session hget => h.hash hget
  case get key => exact fun v hget => h.get hget
  all_goals trivial

/-- Storing well-formed values keeps the store sound. -/
theorem World.Sound.machine {w : World} (h : w.Sound Ref) {c : Command} (hc : c.Ok Ref) :
    (machine c w).2.Sound Ref := by
  intro key e he
  -- only the key that the command changes needs a look
  by_cases hkey : c.changes = some key
  · cases c <;> simp only [Command.changes, Option.some.injEq, reduceCtorEq] at hkey <;> subst hkey
    case hset k mapping =>
      have hnew := TtlStore.upsert_apply_self w.store w.now (.session k)
        fun old => (old.getD Hash.empty).merge mapping
      obtain rfl := Option.some.inj (hnew.symm.trans he)
      refine Hash.Ok.merge ?_ hc
      show Hash.Ok Ref ((w.hash k).getD Hash.empty)
      cases hhash : w.hash k with
      | none => exact Hash.ok_empty
      | some session => exact h.hash hhash
    case rpush k turn => trivial
    case set key v =>
      obtain rfl := Option.some.inj ((TtlStore.set_apply_self w.store _ v).symm.trans he)
      exact hc
    case setex key seconds v =>
      obtain rfl := Option.some.inj ((TtlStore.setex_apply_self w.store _ _ v).symm.trans he)
      exact hc
    case expire key seconds =>
      cases hlook : w.store.lookup w.now key with
      | none =>
        have hsame := TtlStore.expire_of_lookup_none w.store w.now key hlook (w.after seconds)
        exact h key e ((congrFun hsame key).symm.trans he)
      | some e' =>
        have hnew := TtlStore.expire_apply_self w.store w.now key hlook (w.after seconds)
        obtain rfl := Option.some.inj (hnew.symm.trans he)
        exact h key e' (TtlStore.lookup_eq_some_iff.mp hlook).1
    case del key =>
      cases he.symm.trans (TtlStore.del_apply_self w.store key)
  · rw [machine_store_of_ne hkey] at he
    exact h key e he

/-- A sound store is sound later. -/
theorem World.Sound.elapses {w w' : World} (h : w.Sound Ref) (helapses : w.Elapses w') :
    w'.Sound Ref := by
  intro key e hkey
  rw [helapses.store_eq] at hkey
  exact h key e hkey

/-! ### Writes -/

/-- The reference information that a patch stores when its check passes is as `Ref` says. -/
def Request.Refers (Ref : Dict → Prop) : Request → Prop
  | .patchSessionState request => SessionService.validatePatch request = .ok () →
    ∀ refInfo, SessionService.newReference request = some refInfo → Ref refInfo
  | _ => True

theorem Request.refers_true (request : Request) : request.Refers fun _ => True := by
  cases request <;> first | trivial | exact fun _ _ _ => trivial

theorem created_ok (cfg : Config) (request : SessionCreateRequest) (k : String) (now : ℕ) :
    (SessionRepository.created cfg (SessionService.createArgs request k) now).Ok Ref := by
  intro f v hv
  cases f <;> simp only [SessionRepository.created, SessionService.createArgs, Option.some.injEq,
    reduceCtorEq] at hv <;> first | trivial | exact ⟨_, hv.symm⟩

/-- Replacing one mapping keeps the others. -/
theorem withMapping_ok {stored : Option Json} (hstored : ∀ v, stored = some v →
      Field.Ok Ref .agentMappings v) {agentId key type : String} {mappings : Dict}
    (h : SessionRepository.withMapping stored agentId key type = .ok mappings) :
    Field.Ok Ref .agentMappings (.obj mappings) := by
  refine ⟨mappings, rfl, fun agent m hm => ?_⟩
  unfold SessionRepository.withMapping at h
  cases stored with
  | none =>
    obtain rfl := Except.ok.inj h
    -- the agent that is registered, and those that were there
    by_cases hagent : agent = agentId
    · subst hagent
      simp only [List.lookup_cons_self, Option.some.injEq] at hm
      exact ⟨key, type, hm.symm⟩
    · have hne : (agent == agentId) = false := by simpa using hagent
      simp [List.lookup_cons, hne] at hm
  | some v =>
    obtain ⟨stored, rfl, hall⟩ := hstored v rfl
    obtain rfl := Except.ok.inj h
    by_cases hagent : agent = agentId
    · subst hagent
      rw [Dict.lookup_set_self, Option.some.injEq] at hm
      exact ⟨key, type, hm.symm⟩
    · rw [Dict.lookup_set_of_ne _ hagent] at hm
      exact hall agent m hm

namespace SessionService

theorem turnIds?_nodup {session : Hash} (h : session.Ok Ref) :
    ((turnIds? session).getD []).Nodup := by
  cases hids : session .turnIds with
  | none => simp [turnIds?, hids]
  | some v =>
    obtain ⟨turnIds, hnodup, rfl⟩ := h .turnIds v hids
    rw [turnIds?_of_str hids]
    exact hnodup

theorem appendTurnId_nodup {turnIds : List String} (h : turnIds.Nodup) (turnId : String) :
    (appendTurnId turnIds turnId).Nodup := by
  unfold appendTurnId
  split_ifs with hmem
  · exact h
  · rw [List.nodup_append]
    refine ⟨h, List.nodup_singleton turnId, fun a ha b hb => ?_⟩
    rw [List.mem_singleton.mp hb]
    exact fun hab => hmem (hab ▸ ha)

/-- A patch that passed the check writes well-formed values. -/
theorem patchUpdates_ok {session : Hash} (hsession : session.Ok Ref)
    {request : SessionPatchRequest} (href : (Request.patchSessionState request).Refers Ref)
    (hvalid : validatePatch request = .ok ()) (now : ℕ) :
    (patchUpdates session request now).Ok Ref := by
  intro f v hv
  cases f <;> try trivial
  case sessionState =>
    obtain ⟨state, -, rfl⟩ := Option.map_eq_some_iff.mp hv
    exact ⟨state, rfl⟩
  case subagentStatus =>
    obtain ⟨status, -, rfl⟩ := Option.map_eq_some_iff.mp hv
    exact ⟨status, rfl⟩
  case referenceInformation =>
    obtain ⟨refInfo, hnew, rfl⟩ := Option.map_eq_some_iff.mp hv
    have hok : validateReferenceInformation refInfo = .ok () := by
      rwa [validatePatch, hnew] at hvalid
    exact ⟨refInfo, rfl, hok, href hvalid refInfo hnew⟩
  case turnIds =>
    obtain ⟨turnIds, hnew, rfl⟩ := Option.map_eq_some_iff.mp hv
    obtain ⟨turnId, -, rfl⟩ := Option.map_eq_some_iff.mp hnew
    exact ⟨_, appendTurnId_nodup (turnIds?_nodup hsession) turnId, rfl⟩

theorem closeUpdates_ok (closeReason : Option String) (now : ℕ) :
    (closeUpdates closeReason now).Ok Ref := by
  intro f v hv
  cases f <;> first | trivial | exact ⟨.end_, (Option.some.inj hv).symm⟩

theorem closeSessionUpdates_ok (request : SessionCloseRequest) (now : ℕ) :
    (closeSessionUpdates request now).Ok Ref := by
  intro f v hv
  by_cases hf : f = .finalSummary
  · subst hf
    trivial
  · refine closeUpdates_ok request.closeReason now f v ?_
    cases f <;> first | exact hv | exact absurd rfl hf

end SessionService

open Program hiding pure

variable {cfg : Config} {request : Request}

/-- The `updates` of a request are well formed. -/
theorem Request.Updates.ok (href : request.Refers Ref) {k : String} {updates : Hash}
    (h : request.Updates (Hash.Ok Ref) k updates) : updates.Ok Ref := by
  cases h with
  | patch now hsession hvalid => exact SessionService.patchUpdates_ok hsession href hvalid now
  | close request now => exact SessionService.closeSessionUpdates_ok request now
  | closeByToken token reason k now => exact SessionService.closeUpdates_ok reason now
  | @profile _ _ _ cusno _ =>
    have hcusno : Field.Ok Ref .cusno cusno := trivial
    exact Hash.ok_empty.set hcusno

/-- A request that reads well-formed values stores such. -/
theorem Request.Writes.ok (href : request.Refers Ref) {c : Command}
    (h : request.Writes cfg (Hash.Ok Ref) c) : c.Ok Ref := by
  cases h with
  | look hc => cases c <;> trivial
  | create now => exact created_ok cfg _ _ now
  | rewrite k now hsession =>
    -- what is written back is what was read, with another `expires_at`
    have hexpiry : Field.Ok Ref .expiresAt (SessionRepository.expiry cfg now) := trivial
    exact hsession.set hexpiry
  | update now hupdates =>
    have hnow : Field.Ok Ref .updatedAt now := trivial
    exact (hupdates.ok href).set hnow
  | register hsession _ hmappings =>
    exact Hash.ok_empty.set (withMapping_ok (hsession .agentMappings) hmappings)
  | realtimeProfile userId => exact ⟨_, rfl⟩
  | batchProfile userId batch => exact ⟨batch, rfl⟩
  | turn | expire | issueJti | revokeJti => trivial

/-- A part of a request stores well-formed values when it reads such. -/
theorem Serves.sound (href : request.Refers Ref) {α : Type} {p : Svc α}
    (h : Serves cfg (Hash.Ok Ref) request p) :
    p.Follows (SessionManager.sound Ref) (fun _ _ => True) () := by
  have hallow (q : Option Key × Option String) (c : Command)
      (hc : (writing cfg (Hash.Ok Ref) request).Allow q c) : c.Ok Ref := hc.1.ok href
  have hanswer (q : Option Key × Option String) (c : Command) (reply : c.Reply)
      (hreply : ReplyOk Ref c reply) :
      (writing cfg (Hash.Ok Ref) request).Answer q c reply := by
    cases c <;> first | exact hreply | trivial
  exact Follows.simulate (SessionManager.sound Ref) (fun _ => ()) hallow hanswer
    (fun _ _ _ => rfl) (fun _ _ _ => trivial) h

/-- A request served on a sound store leaves it sound. -/
theorem Request.keeps_sound {env : World → World → Prop} (henv : ∀ w w', env w w' → w.Elapses w')
    (href : request.Refers Ref) {w : World} (hsound : w.Sound Ref) :
    (request.program cfg).Wp machine env (fun _ w' => w'.Sound Ref) w := by
  have hfollows := (request.serves cfg (Hash.Ok Ref)).sound href
  have hwp := Wp.of_follows (I := fun (_ : Unit) (w' : World) => w'.Sound Ref)
    (fun _ _ _ hstep h => h.elapses (henv _ _ hstep))
    (fun _ c _ hc h => ⟨h.reply c, h.machine hc⟩) hfollows hsound
  exact hwp.mono fun _ _ h => h.choose_spec.2

/-! ### Reachable stores -/

/-- The stores that requests of kind `R` lead to from an empty one: any number of them, their
commands interleaved in any order, with time passing anywhere and requests stopping anywhere. -/
def Reachable (cfg : Config) (R : Request → Prop) (w : World) : Prop :=
  ∃ (ι : Type) (_ : DecidableEq ι) (requests : ι → Request) (now : ℕ)
    (p : Pool redis ServiceError Response World ι), (∀ i, R (requests i)) ∧
    Pool.Run machine World.Elapses (fun _ _ => True)
      (Pool.start (fun i => (requests i).program cfg) (.init now)) p ∧ p.state = w

/-- More kinds of requests lead to more stores. -/
theorem Reachable.mono {R R' : Request → Prop} (hR : ∀ request, R request → R' request) {w : World}
    (h : Reachable cfg R w) : Reachable cfg R' w := by
  obtain ⟨ι, hι, requests, now, p, hrequests, hrun, hw⟩ := h
  exact ⟨ι, hι, requests, now, p, fun i => hR _ (hrequests i), hrun, hw⟩

/-- Every step of a pool of programs that store well-formed values keeps the store sound. -/
theorem sound_step {α ι : Type} [DecidableEq ι] {env : World → World → Prop}
    (henv : ∀ w w', env w w' → w.Elapses w') {post : ι → Unit → Except ServiceError α → Prop}
    {p q : Pool redis ServiceError α World ι} {l : Label redis ι}
    (h : p.Conforms (fun _ => sound Ref) (fun _ => ()) post ∧ p.state.Sound Ref)
    (hstep : Pool.Step machine env p l q) :
    q.Conforms (fun _ => sound Ref) (fun _ => ()) post ∧ q.state.Sound Ref := by
  refine ⟨h.1.step (fun i c _ => h.2.reply c) hstep, ?_⟩
  cases hstep with
  | call hprog _ => exact h.2.machine (h.1.allow hprog)
  | env he => exact h.2.elapses (henv _ _ he)
  | stop => exact h.2

/-- Every reachable store is sound. -/
theorem Reachable.sound {w : World} (h : Reachable cfg (Request.Refers Ref) w) : w.Sound Ref := by
  obtain ⟨ι, _, requests, now, p, hrefers, hrun, rfl⟩ := h
  have hinv := hrun.invariant
    (fun p => p.Conforms (fun _ => SessionManager.sound Ref) (fun _ => ()) (fun _ _ _ => True) ∧
      p.state.Sound Ref)
    (fun _ _ _ h _ hstep => sound_step (fun _ _ => id) h hstep)
    ⟨Pool.conforms_start fun i => ((requests i).serves cfg _).sound (hrefers i), nofun⟩
  exact hinv.2

end SessionManager
