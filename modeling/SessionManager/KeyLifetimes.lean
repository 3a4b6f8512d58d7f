import SessionManager.TokenRotation
import SessionManager.Writes

/-!
# Keys without a lifetime, hashes without fields

`HSET`, `SET` and `RPUSH` give a new key no lifetime; the `EXPIRE` that does is a command of its
own. `update_session` looks whether the session exists with one command and writes with another.

* `World.LacksTtl`, `Hash.Complete` — a key that never expires, and a hash with the fields that
  `create` wrote.
* `Harmless` — the condition under which neither gap does harm: nobody stops while a key waits for
  nobody else's `EXPIRE`, and no session expires between the `EXISTS` of an update and its `HSET`.
* `complete_of_whole` — what is written without an `EXISTS` is complete.
* `Timed` — the invariant: a key without a lifetime has a thread that is about to give it one.
-/

namespace SessionManager

open Python Interaction

/-- The key is there and never expires. -/
def World.LacksTtl (w : World) (key : Key) : Prop :=
  ∃ e, w.entry key = some e ∧ e.expiresAt = none

/-- The fields that `create` always writes. -/
def createdFields : List Field :=
  [.globalSessionKey, .userId, .sessionState, .taskQueueStatus, .subagentStatus, .expiresAt,
    .createdAt]

/-- The hash has all of them. -/
def Hash.Complete (h : Hash) : Prop := ∀ f ∈ createdFields, (h f).isSome

namespace KeyLifetimes

variable {ι : Type} [DecidableEq ι]

/-- The threads and the world they run in. -/
abbrev Threads (ι : Type) := Pool redis ServiceError Response World ι

/-- Thread `i` is about to let `key` expire. -/
def Expiring (p : Threads ι) (i : ι) (key : Key) : Prop :=
  (p.threads i).stopped = false ∧ ∃ seconds, p.next? i = some (.expire key seconds)

/-- The last command of thread `i` has found the session `k`. -/
def Found (p : Threads ι) (i : ι) (k : String) : Prop :=
  (p.threads i).log.getLast? = some ⟨.exists_ (.session k), true⟩

/-- A thread stops only when no key without a lifetime waits for its `EXPIRE` alone, and a session
that a thread has found with `EXISTS` is still there at its `HSET`. -/
def Harmless (p : Threads ι) : Label redis ι → Prop
  | .stop i => ∀ key, p.state.LacksTtl key → Expiring p i key → ∃ j, j ≠ i ∧ Expiring p j key
  | .call i (.hset k _) => Found p i k → (p.state.hash k).isSome
  | _ => True

/-! ### One command -/

/-- How a key can be without a lifetime after a command: the command owes it one, or it had none
before and the command gives it none, or an `HSET` made a new hash. -/
theorem lacksTtl_machine {c : Command} {w : World} {key : Key}
    (h : World.LacksTtl (machine c w).2 key) :
    c.owes = some key ∨ (w.LacksTtl key ∧ ∀ seconds, c ≠ .expire key seconds) ∨
      ∃ k mapping, c = .hset k mapping ∧ key = .session k ∧ w.hash k = none := by
  obtain ⟨e, hentry, hnone⟩ := h
  by_cases hkey : c.changes = some key
  · cases c <;> simp only [Command.changes, Option.some.injEq, reduceCtorEq] at hkey <;> subst hkey
    case rpush => exact .inl rfl
    case set => exact .inl rfl
    case hset k mapping =>
      -- the new entry has the expiry of the old one
      obtain rfl := Option.some.inj ((World.entry_hset w k mapping).symm.trans hentry)
      cases hold : w.entry (.session k) with
      | none =>
        have hhash : w.hash k = none := by rw [World.hash_eq_entry, hold]; rfl
        exact .inr (.inr ⟨k, mapping, rfl, rfl, hhash⟩)
      | some old =>
        rw [hold] at hnone
        exact .inr (.inl ⟨⟨old, hold, hnone⟩, by simp⟩)
    case setex key seconds v =>
      obtain rfl := Option.some.inj ((World.entry_setex w key seconds v).symm.trans hentry)
      cases hnone
    case expire key seconds =>
      obtain ⟨old, -, rfl⟩ :=
        Option.map_eq_some_iff.mp ((World.entry_expire w key seconds).symm.trans hentry)
      cases hnone
    case del key => cases (World.entry_del w key).symm.trans hentry
  · rw [World.machine_entry_of_ne hkey] at hentry
    refine .inr (.inl ⟨⟨e, hentry, hnone⟩, fun seconds hc => ?_⟩)
    subst hc
    exact hkey rfl

/-- Writing to complete hashes, or writing complete ones, leaves all hashes complete. -/
theorem complete_machine {c : Command} (hc : c.Within fun _ => True) {w : World}
    (hwrite : ∀ k mapping, c = .hset k mapping → (w.hash k).isSome ∨ mapping.Complete)
    (h : ∀ k session, w.hash k = some session → session.Complete) {k : String} {session : Hash}
    (hhash : World.hash (machine c w).2 k = some session) : session.Complete := by
  by_cases hkey : c.changes = some (.session k)
  · cases c <;>
      simp only [Command.changes, Option.some.injEq, reduceCtorEq, Key.session.injEq] at hkey
    case hset k' mapping =>
      subst hkey
      have hnew := World.hash_hset w k' mapping
      obtain rfl := Option.some.inj (hnew.symm.trans hhash)
      intro f hf
      -- the write adds to a session that is complete, or is complete itself
      rcases hwrite k' mapping rfl with hlive | hcomplete
      · obtain ⟨old, hold⟩ := Option.isSome_iff_exists.mp hlive
        rw [hold]
        have hfield := h k' old hold f hf
        cases hm : mapping f with
        | none => rwa [Option.getD_some, Hash.merge_of_none hm]
        | some v => simp [Hash.merge_of_some hm]
      · obtain ⟨v, hv⟩ := Option.isSome_iff_exists.mp (hcomplete f hf)
        simp [Hash.merge_of_some hv]
    case expire key seconds =>
      subst hkey
      have hsame := World.hash_expire w k seconds
      exact h k session (hsame.symm.trans hhash)
    case set key v => exact absurd hkey (hc.2 k)
    case setex key seconds v => exact absurd hkey (hc.2 k)
    case del key => exact absurd hkey (hc.2 k)
  · rw [World.hash_of_ne hkey] at hhash
    exact h k session hhash

/-! ### What is written -/

theorem created_complete (cfg : Config) (args : SessionRepository.CreateArgs) (now : ℕ) :
    (SessionRepository.created cfg args now).Complete := by
  simp [Hash.Complete, createdFields, SessionRepository.created]

/-- A complete hash stays so when a field is set. -/
theorem complete_set {h : Hash} (hcomplete : h.Complete) (f : Field) (v : f.Value) :
    (h.set f v).Complete := by
  intro g hg
  by_cases hgf : g = f
  · subst hgf
    rw [Hash.set_self]
    rfl
  · rw [Hash.set_of_ne _ hgf]
    exact hcomplete g hg

/-- `set_session` writes complete hashes, when those that are read are complete. -/
theorem complete_of_whole {cfg : Config} {h : Hash} (hwhole : h.Whole cfg Hash.Complete) :
    h.Complete := by
  cases hwhole with
  | created args now => exact created_complete cfg args now
  | rewritten now hsession => exact complete_set hsession .expiresAt _

/-! ### The threads -/

omit [DecidableEq ι] in
/-- Where an `EXPIRE` has to come next, it is the next command. -/
theorem expiring_of_owed {cfg : Config} {request : Request} {p : Threads ι} {i : ι} {key : Key}
    (hstopped : (p.threads i).stopped = false)
    {q : Option Key × Option String} (howed : q.1 = some key)
    (h : (p.threads i).prog.Follows (writing cfg Hash.Complete request) (fun q _ => q.1 = none) q) :
    Expiring p i key := by
  refine ⟨hstopped, ?_⟩
  unfold Pool.next?
  cases hprog : (p.threads i).prog with
  | pure a =>
    rw [hprog] at h
    cases howed.symm.trans h
  | throw e =>
    rw [hprog] at h
    cases howed.symm.trans h
  | call c next =>
    rw [hprog] at h
    obtain ⟨seconds, rfl⟩ := h.1.2.1 key howed
    exact ⟨seconds, rfl⟩

/-- No request begins with an `EXPIRE`. -/
theorem program_ne_expire (cfg : Config) (request : Request) (key : Key) (seconds : ℕ)
    (next : Unit → Svc Response) : request.program cfg ≠ .call (.expire key seconds) next := by
  cases request
  case verifyTokenAndGetSession token => cases token <;> exact nofun
  case refreshToken newJti token => cases token <;> exact nofun
  case pingSessionByToken token => cases token <;> exact nofun
  case closeSessionByToken token reason => cases token <;> exact nofun
  all_goals exact nofun

/-- Every key without a lifetime has a thread about to give it one, and all hashes are complete. -/
structure Timed (cfg : Config) (requests : ι → Request) (p : Threads ι) : Prop where
  conforms : p.Conforms (fun i => writing cfg Hash.Complete (requests i)) (fun _ => (none, none))
    (fun _ q _ => q.1 = none)
  /-- A thread that has not begun is at the start of its program. -/
  fresh : ∀ i, (p.threads i).log = [] → (p.threads i).prog = (requests i).program cfg
  waiting : ∀ key, p.state.LacksTtl key → ∃ i, Expiring p i key
  complete : ∀ k session, p.state.hash k = some session → session.Complete

variable {cfg : Config} {requests : ι → Request} {p q : Threads ι}

omit [DecidableEq ι] in
theorem timed_start (cfg : Config) (requests : ι → Request) (now : ℕ) :
    Timed cfg requests (Pool.start (fun i => (requests i).program cfg) (.init now)) where
  conforms := Pool.conforms_start fun i => (requests i).serves cfg Hash.Complete
  fresh _ _ := rfl
  waiting := by
    rintro key ⟨e, hlook, -⟩
    cases hlook
  complete := by
    intro k session hhash
    cases hhash

/-- An answered command of thread `i` leaves the other threads' next commands alone. -/
theorem Expiring.answered {i j : ι} {key : Key} (h : Expiring p j key) (hj : j ≠ i) (c : Command)
    (next : c.Reply → Svc Response) : Expiring (p.answered machine i c next) j key := by
  unfold Expiring Pool.next? at h ⊢
  rwa [Pool.answered_other p hj]

/-- So does a thread that stops. -/
theorem Expiring.halted {i j : ι} {key : Key} (h : Expiring p j key) (hj : j ≠ i) :
    Expiring (p.halted i) j key := by
  unfold Expiring Pool.next? at h ⊢
  rwa [Pool.halted_other p hj]

omit [DecidableEq ι] in
/-- An `HSET` adds to a session that is there, or writes a complete hash. -/
theorem Timed.written (h : Timed cfg requests p) {i : ι} {k : String} {mapping : Hash}
    {next : Unit → Svc Response} (hprog : (p.threads i).prog = .call (.hset k mapping) next)
    (hguard : Harmless p (.call i (.hset k mapping))) :
    (p.state.hash k).isSome ∨ mapping.Complete := by
  obtain ⟨-, -, hwhole⟩ := h.conforms.allow hprog
  rcases hwhole k mapping rfl with hwhole | hfound
  · exact .inr (complete_of_whole hwhole)
  · -- the session of the `EXISTS` has not expired
    exact .inl (hguard (writing_after_found hfound))

/-- A key without a lifetime after an answered command has a thread about to give it one. -/
theorem Timed.answered_waiting (h : Timed cfg requests p) {i : ι} {c : Command}
    {next : c.Reply → Svc Response} (hprog : (p.threads i).prog = .call c next)
    (hstopped : (p.threads i).stopped = false) (hguard : Harmless p (.call i c))
    (hconforms : (p.answered machine i c next).Conforms
      (fun i => writing cfg Hash.Complete (requests i)) (fun _ => (none, none))
      (fun _ q _ => q.1 = none))
    {key : Key} (hkey : World.LacksTtl (machine c p.state).2 key) :
    ∃ j, Expiring (p.answered machine i c next) j key := by
  -- a command that owes `key` an expiry is followed by its `EXPIRE`
  have howed (howes : c.owes = some key) : ∃ j, Expiring (p.answered machine i c next) j key := by
    have hnext := hconforms.follows_next
    exact ⟨i, expiring_of_owed (by simpa using hstopped) howes hnext⟩
  rcases lacksTtl_machine hkey with howes | ⟨hbefore, hne⟩ | ⟨k, mapping, rfl, rfl, hdead⟩
  · exact howed howes
  · -- the thread that was about to give it one is another than `i`
    obtain ⟨j, hj⟩ := h.waiting key hbefore
    have hji : j ≠ i := by
      rintro rfl
      obtain ⟨-, seconds, hnext⟩ := hj
      have hc : p.next? j = some c := by simp [Pool.next?, hprog]
      exact hne seconds (Option.some.inj (hc.symm.trans hnext))
    exact ⟨j, hj.answered hji c next⟩
  · -- only a complete hash is written where there is none, and it owes its session an expiry
    have hcomplete : mapping.Complete :=
      (h.written hprog hguard).resolve_left (by simp [hdead])
    have hsome : (mapping .globalSessionKey).isSome := hcomplete _ (by decide)
    exact howed (by simp [Command.owes, hsome])

/-- Every harmless step keeps the invariant. -/
theorem Timed.step (h : Timed cfg requests p) {l : Label redis ι} (hguard : Harmless p l)
    (hstep : Pool.Step machine World.Elapses p l q) : Timed cfg requests q := by
  have hconforms : q.Conforms (fun i => writing cfg Hash.Complete (requests i))
      (fun _ => (none, none)) (fun _ q _ => q.1 = none) := by
    refine h.conforms.step (fun i c _ => ?_) hstep
    cases c <;> first | trivial | exact fun session hhash => h.complete _ session hhash
  cases hstep with
  | @call i c next hprog hstopped =>
    refine ⟨hconforms, fun j hlog => ?_, fun key hkey => ?_, fun k session hhash => ?_⟩
    · by_cases hj : j = i
      · subst hj
        simp at hlog
      · rw [Pool.answered_other p hj] at hlog ⊢
        exact h.fresh j hlog
    · exact h.answered_waiting hprog hstopped hguard hconforms hkey
    · have hwithin : c.Within fun _ => True := (h.conforms.allow hprog).1.within
      refine complete_machine hwithin (fun k mapping hc => ?_) h.complete hhash
      subst hc
      exact h.written hprog hguard
  | @env s helapses =>
    refine ⟨hconforms, h.fresh, fun key hkey => ?_, fun k session hhash => ?_⟩
    · obtain ⟨e, hentry, hnone⟩ := hkey
      exact h.waiting key ⟨e, helapses.entry hentry, hnone⟩
    · exact h.complete k session (helapses.get hhash)
  | @stop i =>
    refine ⟨hconforms, fun j hlog => ?_, fun key hkey => ?_, h.complete⟩
    · rw [Pool.halted_prog]
      rw [Pool.halted_log] at hlog
      exact h.fresh j hlog
    · obtain ⟨j, hj⟩ := h.waiting key hkey
      by_cases hji : j = i
      · subst hji
        -- another thread still owes the expiry
        obtain ⟨j', hne, hj'⟩ := hguard key hkey hj
        exact ⟨j', hj'.halted hne⟩
      · exact ⟨j, hj.halted hji⟩

/-- In every run of requests all of whose steps are harmless, whenever no request is in progress
every key has a lifetime and every session hash has all the fields that `create` wrote. -/
theorem keys_expire {now : ℕ}
    (hrun : Pool.Run machine World.Elapses Harmless
      (Pool.start (fun i => (requests i).program cfg) (.init now)) p)
    (hidle : ∀ i, ¬ (p.threads i).InProgress) :
    (∀ key, ¬ p.state.LacksTtl key) ∧
      ∀ k session, p.state.hash k = some session → session.Complete := by
  have hinv : Timed cfg requests p :=
    hrun.invariant (Timed cfg requests) (fun _ _ _ h hguard hstep => h.step hguard hstep)
      (timed_start cfg requests now)
  refine ⟨fun key hkey => ?_, hinv.complete⟩
  obtain ⟨i, hstopped, seconds, hnext⟩ := hinv.waiting key hkey
  -- a thread about to issue `EXPIRE` is in progress
  obtain ⟨next, hprog⟩ : ∃ next, (p.threads i).prog = .call (.expire key seconds) next := by
    unfold Pool.next? at hnext
    split at hnext
    · rename_i c next hprog
      obtain rfl := Option.some.inj hnext
      exact ⟨next, hprog⟩
    · cases hnext
    · cases hnext
  refine hidle i ⟨fun hlog => ?_, ?_, hstopped⟩
  · rw [hinv.fresh i hlog] at hprog
    exact program_ne_expire cfg (requests i) key seconds next hprog
  · simp [Thread.Finished, hprog]

/-! ### Runs of one session -/

/-- The creation of a session and a patch of it; `true` creates. -/
def requests₂ (i : Bool) : Request :=
  if i then .createSession "gsess_1" "jti_0" {}
  else .patchSessionState { globalSessionKey := "gsess_1", sessionState := some .talk }

/-- Both requests before their first command. -/
def start₂ : Threads Bool := Pool.start (fun i => (requests₂ i).program .default) (.init 0)

/-- The session is created and then patched. -/
def patched : Threads Bool :=
  start₂.schedule machine (List.replicate 11 true ++ List.replicate 13 false)

/-- The patch finds the session, and it is there when the patch writes to it. -/
theorem run_patched : Pool.Run machine World.Elapses Harmless start₂ patched := by
  refine .cons rfl trivial <| .cons rfl trivial <| .cons rfl trivial <|
    .cons rfl trivial <| .cons rfl trivial <| .cons rfl trivial <|
    .cons rfl trivial <| .cons rfl nofun <|
    .cons rfl trivial <| .cons rfl trivial <| .cons rfl trivial ?_
  refine .cons rfl trivial <| .cons rfl trivial <| .cons rfl trivial <|
    .cons rfl trivial <| .cons rfl (fun _ => rfl) <| .cons rfl trivial <|
    .cons rfl trivial <| .cons rfl trivial <| .cons rfl trivial <|
    .cons rfl trivial <| .cons rfl (fun _ => rfl) <| .cons rfl trivial <|
    .cons rfl trivial .refl

/-- A created and patched session has a lifetime and all its fields. -/
theorem keys_expire_patched :
    (patched.state.hash "gsess_1").isSome ∧ (∀ key, ¬ patched.state.LacksTtl key) ∧
      ∀ k session, patched.state.hash k = some session → session.Complete := by
  have hidle (i : Bool) : ¬ (patched.threads i).InProgress := by
    rintro ⟨-, hunfinished, -⟩
    cases i <;> exact hunfinished trivial
  exact ⟨rfl, keys_expire run_patched hidle⟩

/-- The patch has found the session with `EXISTS`, and the session expires before its `HSET`. -/
def expired : Threads Bool :=
  let p := start₂.schedule machine (List.replicate 11 true ++ List.replicate 10 false)
  Pool.schedule machine { p with state := p.state.advance 300001 } (List.replicate 3 false)

/-- An update of a session that expires under it brings back a part of the session, for ever. -/
theorem update_revives :
    Pool.Run machine World.Elapses (fun _ _ => True) start₂ expired ∧
      (∀ i, ¬ (expired.threads i).InProgress) ∧ expired.state.LacksTtl (.session "gsess_1") ∧
      ∃ session, expired.state.hash "gsess_1" = some session ∧ ¬ session.Complete := by
  refine ⟨?_, fun i => ?_, ⟨_, rfl, rfl⟩, _, rfl, fun h => ?_⟩
  · have hfound : Pool.Run machine World.Elapses (fun _ _ => True) start₂
        (start₂.schedule machine (List.replicate 11 true ++ List.replicate 10 false)) :=
      Pool.run_schedule _ _
    exact (hfound.step trivial (.env ⟨300001, rfl⟩)).trans (Pool.run_schedule _ _)
  · rintro ⟨-, hunfinished, -⟩
    cases i <;> exact hunfinished trivial
  · exact absurd (h .userId (by decide)) (by decide)

/-- The creation stops between its `HSET` and its `EXPIRE`. -/
def abandoned : Threads Bool := (start₂.schedule machine (List.replicate 8 true)).halted true

/-- A creation that stops after its `HSET` leaves a session that never expires. -/
theorem createSession_abandoned :
    Pool.Run machine World.Elapses (fun _ _ => True) start₂ abandoned ∧
      (∀ i, ¬ (abandoned.threads i).InProgress) ∧
      abandoned.state.LacksTtl (.session "gsess_1") := by
  refine ⟨(Pool.run_schedule _ _).step trivial .stop, fun i => ?_, _, rfl, rfl⟩
  cases i with
  | true =>
    rintro ⟨-, -, hstopped⟩
    cases hstopped
  | false =>
    rintro ⟨hlog, -, -⟩
    exact hlog rfl

end KeyLifetimes

end SessionManager
