import SessionManager.FieldsKept
import SessionManager.LifeCycle
import SessionManager.SessionRefinement
import SessionManager.CoherentRuns

/-!
# Reading one's own profile

`update_realtime_personal_context` saves a realtime profile under the customer number that the
profile itself contains, or under the key of the session. `resolve_session` looks for it under the
customer number that the session remembers, or under the key of the session. The two agree as long
as no profile without a number follows one with a number.

* `savesTo?`, `shownId` — the id under which a profile is saved, and the one it is looked for.
* `updateRealtimePersonalContext_spec`, `profile_kept` — what a call does to the profiles.
* `resolveSession_profile` — the profile in a response.
* `LastSaved` — the invariant of a run: what has become of the profile saved last.
* `realtimeProfile_iff` — when a response shows it.
-/

namespace SessionManager

open Python Interaction
open SessionRepository RedisHelper SessionService

/-- The realtime profile that is stored under an id. -/
def World.profile (w : World) (u : String) : Option Json := w.store.get w.now (.realtimeProfile u)

/-- The session that a call is for, and the id under which it saves the realtime profile. -/
def Request.savesTo? : Request → Option (String × String)
  | .updateRealtimePersonalContext _ k data =>
    (ProfileService.cusnoOf data).toOption.map fun cusno => (k, cusno.getD k)
  | _ => none

/-- The id under which `resolve_session` looks for the realtime profile. -/
def shownId (k : String) (cusno : Option String) : String := (cusno.filter (· ≠ "")).getD k

/-- The realtime profile that a call saves for session `k`, and the world before it. -/
def Served.profile? (k : String) (s : Served) : Option (Dict × World) :=
  match s.request with
  | .updateRealtimePersonalContext _ k' data => if k' = k then some (data, s.before) else none
  | _ => none

/-- The last call for session `k`. -/
def lastProfile (k : String) (served : List Served) : Option (Dict × World) :=
  (served.filterMap (Served.profile? k)).getLast?

theorem lastProfile_snoc (k : String) (served : List Served) (s : Served) :
    lastProfile k (served ++ [s]) = (s.profile? k).or (lastProfile k served) :=
  AbstractSession.getLast?_filterMap_snoc (Served.profile? k) served s

namespace OwnProfiles

open Program hiding pure

variable {cfg : Config} {env : World → World → Prop} {k u : String} {w : World}

/-! ### Calls -/

theorem profile_of_entry {v : Json} {t : Option ℕ}
    (h : w.entry (.realtimeProfile u) = some ⟨v, t⟩) : w.profile u = some v := by
  rw [World.profile, World.get_eq_entry, h]
  rfl

/-- A new lifetime does not change a profile. -/
theorem profile_expire (w : World) (u : String) (seconds : ℕ) :
    (w.expire (.realtimeProfile u) seconds).profile u = w.profile u := by
  rw [World.profile, World.profile, World.get_eq_entry, World.get_eq_entry, World.entry_expire,
    Option.map_map]
  rfl

/-- A command that changes a realtime profile, if at all, in its lifetime. -/
def KeepsProfile (u : String) (c : Command) : Prop :=
  c.changes = some (.realtimeProfile u) → ∃ seconds, c = .expire (.realtimeProfile u) seconds

theorem keepsProfile_of_within {K : Key → Prop} (hu : ¬ K (.realtimeProfile u)) {c : Command}
    (hc : c.Within K) : KeepsProfile u c := fun hchanges => absurd (hc.changes hchanges) hu

/-- A call writes the session, the realtime profile under one id and the batch profile of one
customer. -/
theorem updateRealtimePersonalContext_keys {K : Key → Prop} {lookup : ProfileService.BatchLookup}
    {data : Dict} (hsession : K (.session k))
    (hrealtime : ∀ cusno, ProfileService.cusnoOf data = .ok cusno →
      K (.realtimeProfile (cusno.getD k)))
    (hbatch : ∀ c, ProfileService.cusnoOf data = .ok (some c) → K (.batchProfile c)) :
    (ProfileService.updateRealtimePersonalContext cfg lookup k data).Only (Command.Within K) := by
  refine .perform_bind trivial fun session => ?_
  cases session with
  | none => trivial
  | some session =>
    dsimp only
    cases hcusno : ProfileService.cusnoOf data with
    | error e => trivial
    | ok cusno =>
      rw [ofExcept_ok, pure_bind']
      refine Only.bind ?_ fun _ =>
        .perform_bind trivial fun _ => .perform_bind trivial fun _ => trivial
      unfold ProfileService.storeProfiles
      -- the profile, and with a number the session and the batch profile
      have hkey := hrealtime cusno hcusno
      cases cusno with
      | none => exact (setProfile_within cfg hkey (by simp) _ _).bind fun _ => trivial
      | some c =>
        refine (update_within hsession _).bind fun _ => ?_
        refine (setProfile_within cfg hkey (by simp) _ _).bind fun _ => ?_
        refine only_ofExcept.bind fun batch => Only.bind ?_ fun _ => trivial
        unfold ProfileService.storeBatchProfile
        split
        · exact setProfile_within cfg (hbatch c hcusno) (by simp) _ _
        · trivial

/-- A request that does not save under an id keeps the profile that is stored there. -/
theorem profile_kept (cfg : Config) (request : Request)
    (henv : ∀ w w', env w w' → World.Keeps (.realtimeProfile u) w w')
    (hu : ∀ k', request.savesTo? ≠ some (k', u)) (w : World) :
    (request.program cfg).Wp machine env (fun _ w' => w'.profile u = w.profile u) w := by
  -- a request that saves no profile under the id at most extends it
  have honly : (request.program cfg).Only (KeepsProfile u) := by
    cases request with
    | updateRealtimePersonalContext lookup k data =>
      refine Only.bind (Only.mono (updateRealtimePersonalContext_keys
        (K := fun key => key ≠ .realtimeProfile u) (by simp) (fun cusno hcusno heq => ?_) (by simp))
          fun _ => keepsProfile_of_within (by simp)) fun _ => trivial
      refine hu k ?_
      rw [← Key.realtimeProfile.inj heq]
      simp [Request.savesTo?, hcusno, Except.toOption]
    | _ =>
      refine (Request.program_writes cfg _).mono fun c hc hchanges => ?_
      cases hc with
      | look hnone => exact absurd (hnone.symm.trans hchanges) (by simp)
      | expire hkey =>
        obtain rfl := Option.some.inj hchanges
        exact ⟨cfg.sessionCacheTtl, rfl⟩
      | _ => simp [Command.changes] at hchanges
  refine Wp.of_only (I := fun w' : World => w'.profile u = w.profile u) honly ?_ ?_ rfl
  · intro w₁ w₂ hstep h
    rw [← h]
    exact (henv _ _ hstep).get
  · intro c w₁ hc h
    by_cases hchanges : c.changes = some (.realtimeProfile u)
    · obtain ⟨seconds, rfl⟩ := hc hchanges
      exact (profile_expire w₁ u seconds).trans h
    · rw [← h, World.profile, World.get_eq_entry, World.machine_entry_of_ne hchanges]
      rfl

section Session

variable (hsession : ∀ w w', env w w' → World.Keeps (.session k) w w')
  (hprofile : ∀ w w', env w w' → World.Keeps (.realtimeProfile u) w w')
include hsession hprofile

/-- What stays as it is while other keys are written. -/
theorem unchanged {K : Key → Prop} (hk : ¬ K (.session k)) (hu : ¬ K (.realtimeProfile u))
    {α : Type} {p : Svc α} (hp : p.Only (Command.Within K)) (w : World) :
    p.Wp machine env (fun _ w' => w'.entry (.session k) = w.entry (.session k) ∧
      w'.profile u = w.profile u) w := by
  refine ((entry_of_within hsession hk hp w).and (entry_of_within hprofile hu hp w)).mono ?_
  rintro x w' ⟨hsame, hsame'⟩
  refine ⟨hsame, ?_⟩
  rw [World.profile, World.profile, World.get_eq_entry, World.get_eq_entry, hsame']

/-- A profile that is saved. -/
theorem setRealtimeProfile_spec (data : Dict) (w : World) :
    (setRealtimeProfile cfg u data).Wp machine env (fun x w' => x = .ok () ∧
      w'.entry (.session k) = w.entry (.session k) ∧ w'.profile u = some (.obj data)) w := by
  refine wp_perform_bind.mpr fun w₁ h₁ => wp_perform.mpr fun w₂ h₂ => ⟨rfl, ?_, ?_⟩
  · rw [World.machine_entry_of_ne (by simp [Command.changes]), (hsession _ _ h₂).entry,
      World.machine_entry_of_ne (by simp [Command.changes]), (hsession _ _ h₁).entry]
  · refine (profile_expire w₂ u _).trans ((hprofile _ _ h₂).get.trans ?_)
    exact profile_of_entry (World.entry_set w₁ (.realtimeProfile u) (.obj data))

/-- A batch profile is stored for itself. -/
theorem storeBatchProfile_spec (cusno : String) (batch : Option Dict) (w : World) :
    (ProfileService.storeBatchProfile cfg cusno batch).Wp machine env (fun _ w' =>
      w'.entry (.session k) = w.entry (.session k) ∧ w'.profile u = w.profile u) w := by
  refine unchanged hsession hprofile (K := fun key => key = .batchProfile cusno) (by simp) (by simp)
    ?_ w
  unfold ProfileService.storeBatchProfile
  split
  · exact @setProfile_within (fun key : Key => key = .batchProfile cusno) cfg (.batchProfile cusno)
      rfl (by simp) _ _
  · trivial

end Session

/-- The customer number is set and the profile is saved, even when there is no batch profile to be
had. -/
theorem storeProfiles_spec {lookup : ProfileService.BatchLookup} {data : Dict}
    {cusno : Option String} (hsession : ∀ w w', env w w' → World.Keeps (.session k) w w')
    (hprofile : ∀ w w', env w w' → World.Keeps (.realtimeProfile (cusno.getD k)) w w')
    {e : TtlStore.Entry Hash} (he : w.entry (.session k) = some e) :
    (ProfileService.storeProfiles cfg lookup k data cusno).Wp machine env
      (fun _ w' => ∃ e' : TtlStore.Entry Hash,
        w'.entry (.session k) = some e' ∧ e'.value .cusno = cusno.or (e.value .cusno) ∧
        w'.profile (cusno.getD k) = some (.obj data)) w := by
  cases cusno with
  | none =>
    refine Wp.seq_ok (fun _ w₁ => w₁.entry (.session k) = some e ∧ w₁.profile k = some (.obj data))
      ((setRealtimeProfile_spec hsession hprofile data w).mono ?_) ?_
    · rintro x w₁ ⟨rfl, hsame, hsaved⟩
      exact ⟨(), rfl, hsame.trans he, hsaved⟩
    · rintro - w₁ ⟨he₁, hsaved⟩
      exact ⟨e, he₁, rfl, hsaved⟩
  | some cusno =>
    refine Wp.seq_ok (fun _ w₁ => ∃ e₁ : TtlStore.Entry Hash,
      w₁.entry (.session k) = some e₁ ∧ e₁.value .cusno = some cusno)
      ((update_spec hsession he (ProfileService.cusnoUpdates cusno)).mono ?_) ?_
    · rintro x w₁ ⟨updated, rfl, now, hentry⟩
      exact ⟨updated, rfl, _, hentry, rfl⟩
    · rintro - w₁ ⟨e₁, he₁, hnumber⟩
      refine Wp.seq_ok (fun _ w₂ => w₂.entry (.session k) = some e₁ ∧
        w₂.profile cusno = some (.obj data))
        ((setRealtimeProfile_spec hsession hprofile data w₁).mono ?_) ?_
      · rintro x w₂ ⟨rfl, hsame, hsaved⟩
        exact ⟨(), rfl, hsame.trans he₁, hsaved⟩
      · rintro - w₂ ⟨he₂, hsaved⟩
        -- both are stored by now, whatever becomes of the batch profile
        refine wp_ofExcept_bind.mpr ?_
        cases lookup cusno with
        | error err => exact ⟨e₁, he₂, hnumber, hsaved⟩
        | ok batch =>
          refine wp_bind.mpr ((storeBatchProfile_spec hsession hprofile cusno batch w₂).mono ?_)
          rintro x w₃ ⟨hsame, hsame'⟩
          cases x with
          | error err => exact ⟨e₁, hsame.trans he₂, hnumber, hsame'.trans hsaved⟩
          | ok u => exact ⟨e₁, hsame.trans he₂, hnumber, hsame'.trans hsaved⟩

/-- A call sets the customer number that it has found, and saves the profile. -/
theorem updateRealtimePersonalContext_spec {lookup : ProfileService.BatchLookup} {data : Dict}
    {cusno : Option String} (hcusno : ProfileService.cusnoOf data = .ok cusno)
    (hsession : ∀ w w', env w w' → World.Keeps (.session k) w w')
    (hprofile : ∀ w w', env w w' → World.Keeps (.realtimeProfile (cusno.getD k)) w w')
    (hlive : (w.hash k).isSome) :
    (ProfileService.updateRealtimePersonalContext cfg lookup k data).Wp machine env
      (fun _ w' => (w'.hash k).isSome ∧ w'.field k .cusno = cusno.or (w.field k .cusno) ∧
        w'.profile (cusno.getD k) = some (.obj data)) w := by
  obtain ⟨e, he⟩ := LifeCycle.entry_of_live hlive
  have hend {w₂ : World} (h₂ : ∃ e₂ : TtlStore.Entry Hash, w₂.entry (.session k) = some e₂ ∧
      e₂.value .cusno = cusno.or (e.value .cusno) ∧ w₂.profile (cusno.getD k) = some (.obj data)) :
      (w₂.hash k).isSome ∧ w₂.field k .cusno = cusno.or (w.field k .cusno) ∧
        w₂.profile (cusno.getD k) = some (.obj data) := by
    obtain ⟨e₂, he₂, hnumber, hsaved⟩ := h₂
    refine ⟨?_, ?_, hsaved⟩
    · rw [World.hash_of_entry he₂]
      rfl
    · rw [World.field, World.field, World.hash_of_entry he₂, World.hash_of_entry he]
      exact hnumber
  refine hgetall_bind hsession he fun w₁ he₁ => ?_
  dsimp only
  rw [hcusno, ofExcept_ok, pure_bind']
  refine Wp.seq (fun _ w₂ => ∃ e₂ : TtlStore.Entry Hash, w₂.entry (.session k) = some e₂ ∧
    e₂.value .cusno = cusno.or (e.value .cusno) ∧ w₂.profile (cusno.getD k) = some (.obj data))
    ((storeProfiles_spec hsession hprofile he₁).mono fun x w₂ h₂ => ?_) ?_
  · cases x with
    | ok batch => exact h₂
    | error err => exact hend h₂
  · rintro batch w₂ ⟨e₂, he₂, hnumber, hsaved⟩
    -- what is left only logs
    have hrest : (do issue (.eslog (ProfileService.updateRecord k cusno batch))
                     let now ← issue .now
                     return ({ status := "success", updatedAt := now } :
                       ProfileService.RealtimePersonalContextResponse) :
        Svc ProfileService.RealtimePersonalContextResponse).Only (Command.Within fun _ => False) :=
      .perform_bind trivial fun _ => .perform_bind trivial fun _ => trivial
    refine (unchanged hsession hprofile id id hrest w₂).mono ?_
    rintro x w₃ ⟨hsame, hsame'⟩
    exact hend ⟨e₂, hsame.trans he₂, hnumber, hsame'.trans hsaved⟩

/-! ### Responses -/

/-- The profiles that `resolve_session` reads. -/
theorem sessionProfiles_spec (cusno : Option String)
    (hprofile : ∀ w w', env w w' → World.Keeps (.realtimeProfile (shownId k cusno)) w w')
    (w : World) :
    (sessionProfiles k cusno).Wp machine env
      (fun x _ => ∃ batch, x = .ok (batch, w.profile (shownId k cusno))) w := by
  have hsame {w₁ w₂ : World} (hstep : env w₁ w₂) :
      w₂.profile (shownId k cusno) = w₁.profile (shownId k cusno) := (hprofile _ _ hstep).get
  unfold sessionProfiles
  unfold shownId at hsame ⊢
  cases hnumber : cusno.filter (· ≠ "") with
  | none =>
    rw [hnumber] at hsame
    exact wp_perform_bind.mpr fun w₁ h₁ => ⟨none, congrArg _ (congrArg _ (hsame h₁))⟩
  | some cusno =>
    rw [hnumber] at hsame
    refine wp_perform_bind.mpr fun w₁ h₁ => wp_perform_bind.mpr fun w₂ h₂ => ?_
    refine ⟨(machine (.get (.batchProfile cusno)) w₁).1, ?_⟩
    exact congrArg _ (congrArg _ ((hsame h₂).trans (hsame h₁)))

/-- The realtime profile of a response is the one that was read. -/
theorem resolveResponse_profile {request : SessionResolveRequest} {session : Hash}
    {status : TaskQueueStatus} {mapped : Json} {profiles : Option Json × Option Json}
    {response : SessionResolveResponse}
    (h : resolveResponse request session status mapped profiles = .ok response) (data : Dict) :
    response.realtimeProfile = some data ↔ profiles.2 = some (.obj data) := by
  unfold resolveResponse at h
  simp only [bind_eq_ok] at h
  obtain ⟨_, -, _, -, _, -, _, -, profile, hprofile, _, -, _, -, _, -, _, -, _, -, _, -, _, -,
    hresponse⟩ := h
  obtain rfl := Except.ok.inj hresponse
  show profile = some data ↔ _
  cases hread : profiles.2 with
  | none =>
    rw [hread] at hprofile
    obtain rfl := Except.ok.inj hprofile
    simp
  | some v =>
    rw [hread, Option.getD_some] at hprofile
    cases v <;> simp only [optDict, reduceCtorEq, Except.ok.injEq] at hprofile <;>
      subst hprofile <;> simp

/-- The realtime profile of a response is the one under the id that the session remembers. -/
theorem resolveSession_profile (hsession : ∀ w w', env w w' → World.Keeps (.session k) w w')
    (hprofile : ∀ w₁ w₂, env w₁ w₂ →
      World.Keeps (.realtimeProfile (shownId k (w.field k .cusno))) w₁ w₂)
    (hlive : (w.hash k).isSome) {request : SessionResolveRequest}
    (hk : request.globalSessionKey = k) (data : Dict) :
    (resolveSession request).Wp machine env (fun x _ => ∀ response, x = .ok response →
      (response.realtimeProfile = some data ↔
        w.profile (shownId k (w.field k .cusno)) = some (.obj data))) w := by
  obtain ⟨e, he⟩ := LifeCycle.entry_of_live hlive
  have hnumber : w.field k .cusno = e.value .cusno := by
    rw [World.field, World.hash_of_entry he]
    rfl
  have hshown : shownId k (w.field k .cusno) = shownId k (e.value .cusno) :=
    congrArg (shownId k) hnumber
  rw [hshown] at hprofile ⊢
  -- the profile is read last; what is before changes nothing
  have hread : SessionRepository.get request.globalSessionKey = issue (.hgetall k) := by
    rw [hk]
    rfl
  unfold resolveSession
  rw [hread]
  refine wp_perform_bind.mpr fun w₁ h₁ => ?_
  have he₁ : w₁.entry (.session k) = some e := (hsession _ _ h₁).entry.trans he
  have hsame₁ : w₁.profile (shownId k (e.value .cusno)) = w.profile (shownId k (e.value .cusno)) :=
    (hprofile _ _ h₁).get
  have hreply : (machine (.hgetall k) w₁).1 = some e.value := World.hash_of_entry he₁
  rw [hreply, hk]
  refine Wp.seq (fun _ w₂ => w₂.profile (shownId k (e.value .cusno)) =
    w.profile (shownId k (e.value .cusno)))
    ((unchanged hsession hprofile (K := fun _ => False) id id (agentSessionKey_within request)
      w₁).mono ?_) ?_
  · rintro x w₂ ⟨-, hsame₂⟩
    cases x with
    | ok mapped => exact hsame₂.trans hsame₁
    | error err =>
      intro response hx
      cases hx
  · intro mapped w₂ hsame₂
    refine wp_ofExcept_bind.mpr ?_
    split
    · rename_i status _
      refine Wp.seq_ok (fun profiles _ => profiles.2 = w.profile (shownId k (e.value .cusno)))
        ((sessionProfiles_spec (e.value .cusno) hprofile w₂).mono ?_) ?_
      · rintro x w₃ ⟨batch, rfl⟩
        exact ⟨_, rfl, hsame₂⟩
      · rintro profiles w₃ hread₃
        refine wp_perform_bind.mpr fun w₄ _ => ?_
        cases hx : resolveResponse request e.value status mapped profiles with
        | error err =>
          intro response hx
          cases hx
        | ok response =>
          rintro response' hresponse
          obtain rfl := Except.ok.inj hresponse
          rw [← hread₃]
          exact resolveResponse_profile hx data
    · intro response hx
      cases hx

/-! ### Runs -/

/-- The ids in `U` are those of session `k` alone: it has started with one of them at most, and the
calls that save under one of them are its own. -/
structure Own (k : String) (U : Set String) (w₀ : World) (served : List Served) : Prop where
  remembered : ∀ u, w₀.field k .cusno = some u → u ∈ U
  calls : ∀ s ∈ served, ∀ k' u, s.request.savesTo? = some (k', u) → (u ∈ U ↔ k' = k)

/-- All calls for session `k` succeed. -/
def Succeed (k : String) (served : List Served) : Prop :=
  ∀ s ∈ served, (s.profile? k).isSome → ∃ response, s.outcome = .ok response

/-- What has become of the profile that was saved last: it is there, and when it has no customer
number, the session remembers the same one as before. -/
structure LastSaved (k : String) (U : Set String) (data : Dict) (before w : World)
    (cusno : Option String) : Prop where
  found : ProfileService.cusnoOf data = .ok cusno
  own : cusno.getD k ∈ U
  saved : w.profile (cusno.getD k) = some (.obj data)
  remembered : w.field k .cusno = cusno.or (before.field k .cusno)
  others : cusno = none → ∀ u ∈ U, u ≠ k → w.profile u = before.profile u

/-- The invariant. -/
structure Tracks (k : String) (U : Set String) (served : List Served) (w : World) : Prop where
  live : (w.hash k).isSome
  remembered : ∀ u, w.field k .cusno = some u → u ∈ U
  last : ∀ data before, lastProfile k served = some (data, before) →
    ∃ cusno, LastSaved k U data before w cusno

/-- A response shows the last profile when that has a customer number, or when the session
remembers none before the call, or no other id than its own key, or one whose profile is the same
already. -/
def Shown (k : String) (data : Dict) (before : World) : Prop :=
  (∃ cusno, ProfileService.cusnoOf data = .ok (some cusno)) ∨
    ∀ u, before.field k .cusno = some u → u ≠ "" → u = k ∨ before.profile u = some (.obj data)

/-- Time passes, and neither session `k` nor the profiles under its ids expire. -/
def Lasts (k : String) (U : Set String) (w w' : World) : Prop :=
  World.Keeps (.session k) w w' ∧ ∀ u ∈ U, World.Keeps (.realtimeProfile u) w w'

section Runs

variable {U : Set String} {served : List Served} {within between : World → World → Prop}

/-- What is remembered where nothing has happened. -/
theorem Tracks.congr (h : Tracks k U served w) {w' : World} (hlive : (w'.hash k).isSome)
    (hfield : w'.field k .cusno = w.field k .cusno)
    (hprofile : ∀ u ∈ U, w'.profile u = w.profile u) : Tracks k U served w' := by
  refine ⟨hlive, fun u hu => h.remembered u (hfield ▸ hu), fun data before hlast => ?_⟩
  obtain ⟨cusno, hsaved⟩ := h.last data before hlast
  refine ⟨cusno, hsaved.found, hsaved.own, ?_, hfield.trans hsaved.remembered,
    fun hnone u hu hne => ?_⟩
  · rw [hprofile _ hsaved.own]
    exact hsaved.saved
  · rw [hprofile u hu]
    exact hsaved.others hnone u hu hne

theorem Tracks.lasts (h : Tracks k U served w) {w' : World} (hlasts : Lasts k U w w') :
    Tracks k U served w' := by
  refine h.congr ?_ (hlasts.1.field _) fun u hu => (hlasts.2 u hu).get
  rw [hlasts.1.hash]
  exact h.live

/-- A request that is no call for session `k`. -/
theorem Tracks.other (h : Tracks k U served w)
    (hwithin : ∀ w w', within w w' → Lasts k U w w') {request : Request}
    (hown : ∀ k' u, request.savesTo? = some (k', u) → (u ∈ U ↔ k' = k))
    (hother : ∀ lookup data, request ≠ .updateRealtimePersonalContext lookup k data) :
    (request.program cfg).Wp machine within (fun _ w' => Tracks k U served w') w := by
  -- it writes neither the number of the session nor one of its profiles
  have hspares : request.Spares k .cusno := by
    intro updates hupdates
    cases hupdates with
    | patch | close | closeByToken => rfl
    | profile => exact absurd rfl (hother _ _)
  have hsaves (u : String) (hu : u ∈ U) (k' : String) : request.savesTo? ≠ some (k', u) := by
    intro hsaves
    obtain rfl := (hown k' u hsaves).mp hu
    unfold Request.savesTo? at hsaves
    split at hsaves
    · rename_i lookup k₁ data
      obtain ⟨cusno, -, heq⟩ := Option.map_eq_some_iff.mp hsaves
      obtain ⟨rfl, -⟩ := Prod.mk.inj heq
      exact hother lookup data rfl
    · cases hsaves
  rw [wp_iff_exec]
  intro x w' hexec
  obtain ⟨hlive, hfield⟩ := (keeps_field (fun _ _ hstep => (hwithin _ _ hstep).1)
    (request.keeping cfg (by decide) hspares) h.live rfl).exec hexec
  refine h.congr hlive hfield fun u hu => ?_
  exact (profile_kept cfg request (fun _ _ hstep => (hwithin _ _ hstep).2 u hu) (hsaves u hu)
    w).exec hexec

/-- A call for session `k`. -/
theorem Tracks.call (h : Tracks k U served w)
    (hwithin : ∀ w w', within w w' → Lasts k U w w') {lookup : ProfileService.BatchLookup}
    {data : Dict} (hown : ∀ k' u,
      (Request.updateRealtimePersonalContext lookup k data).savesTo? = some (k', u) →
        (u ∈ U ↔ k' = k)) :
    (ProfileService.updateRealtimePersonalContext cfg lookup k data).Wp machine within
      (fun x w' => ∀ response, x = .ok response → (w'.hash k).isSome ∧
        ∃ cusno, LastSaved k U data w w' cusno) w := by
  rw [wp_iff_exec]
  intro x w' hexec response hx
  cases hcusno : ProfileService.cusnoOf data with
  | error err =>
    -- a profile whose number cannot be read is not accepted
    have hrejected : (ProfileService.updateRealtimePersonalContext cfg lookup k data).Wp machine
        within (fun x _ => ∀ response, x ≠ .ok response) w := by
      refine wp_perform_bind.mpr fun w₁ _ => ?_
      cases (machine (.hgetall k) w₁).1 with
      | none => exact nofun
      | some session =>
        dsimp only
        rw [hcusno]
        exact nofun
    exact absurd hx (hrejected.exec hexec response)
  | ok cusno =>
    have hsaves : (Request.updateRealtimePersonalContext lookup k data).savesTo? =
        some (k, cusno.getD k) := by
      simp [Request.savesTo?, hcusno, Except.toOption]
    have hmem : cusno.getD k ∈ U := (hown _ _ hsaves).mpr rfl
    obtain ⟨hlive, hfield, hsaved⟩ := (updateRealtimePersonalContext_spec hcusno
      (fun _ _ hstep => (hwithin _ _ hstep).1) (fun _ _ hstep => (hwithin _ _ hstep).2 _ hmem)
      h.live).exec hexec
    refine ⟨hlive, cusno, hcusno, hmem, hsaved, hfield, ?_⟩
    rintro rfl u hu hne
    -- the profile was saved under the key of the session, and nowhere else
    have hkept := wp_map.mp (profile_kept cfg (.updateRealtimePersonalContext lookup k data)
      (fun _ _ hstep => (hwithin _ _ hstep).2 u hu) (fun k' heq => ?_) w)
    · exact hkept.exec hexec
    · rw [hsaves] at heq
      exact hne (Prod.mk.inj (Option.some.inj heq)).2.symm

theorem Own.prefix {w₀ : World} {s : Served} (h : Own k U w₀ (served ++ [s])) :
    Own k U w₀ served :=
  ⟨h.remembered, fun s' hs' => h.calls s' (List.mem_append_left _ hs')⟩

theorem Succeed.prefix {s : Served} (h : Succeed k (served ++ [s])) : Succeed k served :=
  fun s' hs' => h s' (List.mem_append_left _ hs')

/-- One more request. -/
theorem Tracks.snoc (h : Tracks k U served w) (hwithin : ∀ w w', within w w' → Lasts k U w w')
    (request : Request) :
    (request.program cfg).Wp machine within (fun outcome w' =>
      (∀ k' u, request.savesTo? = some (k', u) → (u ∈ U ↔ k' = k)) →
      Succeed k (served ++ [⟨request, outcome, w, w'⟩]) →
      Tracks k U (served ++ [⟨request, outcome, w, w'⟩]) w') w := by
  rw [wp_iff_exec]
  intro outcome w' hexec hown hsucceed
  -- only an update of the profile counts as the last one
  by_cases hcall : ∃ lookup data, request = .updateRealtimePersonalContext lookup k data
  · obtain ⟨lookup, data, rfl⟩ := hcall
    have hprofile : Served.profile? k
        ⟨.updateRealtimePersonalContext lookup k data, outcome, w, w'⟩ = some (data, w) :=
      if_pos rfl
    obtain ⟨response, rfl⟩ : ∃ response, outcome = .ok response :=
      hsucceed _ (List.mem_append_right _ (List.mem_singleton_self _)) (by rw [hprofile]; rfl)
    have hcalled : ((Request.updateRealtimePersonalContext lookup k data).program cfg).Wp machine
        within (fun outcome w' => (∃ response, outcome = .ok response) → (w'.hash k).isSome ∧
          ∃ cusno, LastSaved k U data w w' cusno) w := by
      refine wp_map.mpr ((h.call hwithin hown).mono fun x w' hx => ?_)
      rintro ⟨response, hresponse⟩
      cases x with
      | ok a => exact hx a rfl
      | error err => cases hresponse
    obtain ⟨hlive, cusno, hsaved⟩ := hcalled.exec hexec ⟨response, rfl⟩
    refine ⟨hlive, fun u hu => ?_, fun data' before hlast => ?_⟩
    · rw [hsaved.remembered] at hu
      cases hcusno : cusno with
      | none =>
        rw [hcusno] at hu
        exact h.remembered u hu
      | some c =>
        rw [hcusno] at hu
        obtain rfl : c = u := Option.some.inj hu
        have hmem := hsaved.own
        rwa [hcusno] at hmem
    · rw [lastProfile_snoc, hprofile, Option.some_or] at hlast
      obtain ⟨rfl, rfl⟩ := Prod.mk.inj (Option.some.inj hlast)
      exact ⟨cusno, hsaved⟩
  · have hnone : Served.profile? k ⟨request, outcome, w, w'⟩ = none := by
      unfold Served.profile?
      split
      · rename_i lookup k' data hrequest
        refine if_neg fun hk => hcall ⟨lookup, data, ?_⟩
        obtain rfl := hk
        exact hrequest
      · rfl
    have hkept : Tracks k U served w' := (h.other hwithin hown fun lookup data heq =>
      hcall ⟨lookup, data, heq⟩).exec hexec
    refine ⟨hkept.live, hkept.remembered, fun data before hlast => hkept.last data before ?_⟩
    rwa [lastProfile_snoc, hnone, Option.none_or] at hlast

/-- Every run of requests. -/
theorem tracks_history (hwithin : ∀ w w', within w w' → Lasts k U w w')
    (hbetween : ∀ w w', between w w' → Lasts k U w w') {w₀ : World} (hlive : (w₀.hash k).isSome)
    (h : History cfg within between w₀ served w) (hown : Own k U w₀ served)
    (hsucceed : Succeed k served) : Tracks k U served w := by
  refine h.invariant (I := fun served w => Own k U w₀ served → Succeed k served →
    Tracks k U served w) ?_ ?_ ?_ hown hsucceed
  · exact fun served w w' hstep hI hown hsucceed => (hI hown hsucceed).lasts (hbetween _ _ hstep)
  · intro served request w hI
    rw [wp_iff_exec]
    intro outcome w' hexec hown hsucceed
    refine ((hI hown.prefix hsucceed.prefix).snoc hwithin request).exec hexec ?_ hsucceed
    exact hown.calls _ (List.mem_append_right _ (List.mem_singleton_self _))
  · exact fun hown _ => ⟨hlive, hown.remembered, fun _ _ hlast => by cases hlast⟩

end Runs

/-! ### What is shown -/

theorem shownId_of_some {u : String} (hu : u ≠ "") : shownId k (some u) = u := by
  simp [shownId, Option.filter, hu]

/-- The number that is remembered, or else the key of the session. -/
theorem shownId_cases (k : String) (cusno : Option String) :
    (∃ u, cusno = some u ∧ u ≠ "" ∧ shownId k cusno = u) ∨
      (∀ u, cusno = some u → u = "") ∧ shownId k cusno = k := by
  cases cusno with
  | none => exact .inr ⟨nofun, rfl⟩
  | some u =>
    by_cases hu : u = ""
    · subst hu
      exact .inr ⟨fun u hu => (Option.some.inj hu).symm, rfl⟩
    · exact .inl ⟨u, rfl, hu, shownId_of_some hu⟩

/-- The profile that was saved last is the one that is looked for, or one like it. -/
theorem LastSaved.shown_iff {U : Set String} {data : Dict} {before : World} {cusno : Option String}
    (h : LastSaved k U data before w cusno) (hremembered : ∀ u, w.field k .cusno = some u → u ∈ U) :
    shownId k (w.field k .cusno) ∈ U ∧
      (w.profile (shownId k (w.field k .cusno)) = some (.obj data) ↔ Shown k data before) := by
  have hne := TimedCoherence.cusnoOf_ne_empty h.found
  cases cusno with
  | some c =>
    -- the number that was found is the one that is remembered
    have hfield : w.field k .cusno = some c := h.remembered
    have hshown : shownId k (w.field k .cusno) = c := by
      rw [hfield]
      exact shownId_of_some fun heq => hne (heq ▸ rfl)
    rw [hshown]
    exact ⟨h.own, fun _ => .inl ⟨c, h.found⟩, fun _ => h.saved⟩
  | none =>
    have hfield : w.field k .cusno = before.field k .cusno := h.remembered
    -- the session remembers the number that it had before, if any
    have hfound : ¬ ∃ c, ProfileService.cusnoOf data = .ok (some c) := by
      rintro ⟨c, hc⟩
      cases h.found.symm.trans hc
    rcases shownId_cases k (w.field k .cusno) with ⟨u, hu, hempty, hshown⟩ | ⟨hempty, hshown⟩
    · rw [hshown]
      refine ⟨hremembered u hu, ?_⟩
      by_cases huk : u = k
      · subst huk
        refine ⟨fun _ => .inr fun u' hu' _ => .inl ?_, fun _ => h.saved⟩
        exact Option.some.inj (hu'.symm.trans (hfield.symm.trans hu))
      · -- nothing has been saved under the remembered id since
        rw [h.others rfl u (hremembered u hu) huk]
        refine ⟨fun hsame => .inr fun u' hu' _ => .inr ?_, fun hcases => ?_⟩
        · obtain rfl : u' = u := Option.some.inj (hu'.symm.trans (hfield.symm.trans hu))
          exact hsame
        · rcases hcases with hfound' | hcases
          · exact absurd hfound' hfound
          · exact (hcases u (hfield.symm.trans hu) hempty).resolve_left huk
    · rw [hshown]
      refine ⟨h.own, fun _ => .inr fun u hu hu' => ?_, fun _ => h.saved⟩
      exact absurd (hempty u (hfield.trans hu)) hu'

end OwnProfiles

open OwnProfiles in
/-- Any requests are served while session `k` and the profiles under its ids are there, and no other
session saves under these ids: `resolve_session` shows the profile of the last call for `k` exactly
when that profile has a customer number, or when the session remembers none that leads elsewhere. -/
theorem realtimeProfile_iff (cfg : Config) {within between : World → World → Prop} {k : String}
    {U : Set String} (hwithin : ∀ w w', within w w' → Lasts k U w w')
    (hbetween : ∀ w w', between w w' → Lasts k U w w') {w₀ w : World} (hlive : (w₀.hash k).isSome)
    {served : List Served} (h : History cfg within between w₀ served w)
    (hown : Own k U w₀ served) (hsucceed : Succeed k served) {data : Dict} {before : World}
    (hlast : lastProfile k served = some (data, before)) {request : SessionResolveRequest}
    (hk : request.globalSessionKey = k) {response : SessionResolveResponse} {w' : World}
    (hexec : (resolveSession request).Exec machine within w (.ok response) w') :
    response.realtimeProfile = some data ↔ Shown k data before := by
  have htracks := tracks_history hwithin hbetween hlive h hown hsucceed
  obtain ⟨cusno, hsaved⟩ := htracks.last data before hlast
  obtain ⟨hmem, hshown⟩ := hsaved.shown_iff htracks.remembered
  have hread := (resolveSession_profile (fun _ _ hstep => (hwithin _ _ hstep).1)
    (fun _ _ hstep => (hwithin _ _ hstep).2 _ hmem) htracks.live hk data).exec hexec response rfl
  exact hread.trans hshown

namespace OwnProfiles

/-- A profile with a customer number. -/
def numbered : Dict := [("cusnoN10", .str "1000000001"), ("grade", .str "vip")]

/-- A profile without one. -/
def unnumbered : Dict := [("grade", .str "basic")]

/-- A call that saves a profile, without a batch profile. -/
def saving (data : Dict) : Request :=
  .updateRealtimePersonalContext (fun _ => .ok none) "gsess_1" data

/-- A profile is saved, then another one. -/
def savedBoth (first second : Dict) : List Served :=
  [(saving first).serve .default LifeCycle.opened,
    (saving second).serve .default ((saving first).serve .default LifeCycle.opened).after]

/-- The world after both calls. -/
def afterBoth (first second : Dict) : World :=
  ((saving second).serve .default ((saving first).serve .default LifeCycle.opened).after).after

theorem history_savedBoth (first second : Dict) :
    History .default Eq Eq LifeCycle.opened (savedBoth first second) (afterBoth first second) :=
  (History.nil.serve (saving first)).serve (saving second)

/-- The question for the session. -/
def question : SessionResolveRequest := { globalSessionKey := "gsess_1" }

/-- The ids of the session. -/
def ids : Set String := {"gsess_1", "1000000001"}

/-- Both calls save under the ids of the session. -/
theorem own_savedBoth {first second : Dict}
    (hfirst : ∀ k u, (saving first).savesTo? = some (k, u) → k = "gsess_1" ∧ u ∈ ids)
    (hsecond : ∀ k u, (saving second).savesTo? = some (k, u) → k = "gsess_1" ∧ u ∈ ids) :
    Own "gsess_1" ids LifeCycle.opened (savedBoth first second) := by
  have hnone : LifeCycle.opened.field "gsess_1" .cusno = none := rfl
  refine ⟨fun u hu => ?_, fun s hs k u hsaves => ?_⟩
  · rw [hnone] at hu
    cases hu
  · have hmem : k = "gsess_1" ∧ u ∈ ids := by
      rcases List.mem_pair.mp hs with rfl | rfl
      · exact hfirst k u hsaves
      · exact hsecond k u hsaves
    exact ⟨fun _ => hmem.1, fun _ => hmem.2⟩

theorem saves_numbered (k u : String) (h : (saving numbered).savesTo? = some (k, u)) :
    k = "gsess_1" ∧ u ∈ ids := by
  have hsaves : (saving numbered).savesTo? = some ("gsess_1", "1000000001") := by decide
  obtain ⟨rfl, rfl⟩ := Prod.mk.inj (Option.some.inj (hsaves.symm.trans h))
  exact ⟨rfl, .inr rfl⟩

theorem saves_unnumbered (k u : String) (h : (saving unnumbered).savesTo? = some (k, u)) :
    k = "gsess_1" ∧ u ∈ ids := by
  have hsaves : (saving unnumbered).savesTo? = some ("gsess_1", "gsess_1") := by decide
  obtain ⟨rfl, rfl⟩ := Prod.mk.inj (Option.some.inj (hsaves.symm.trans h))
  exact ⟨rfl, .inl rfl⟩

/-- Both calls succeed. -/
theorem succeed_savedBoth {first second : Dict}
    (hfirst : ∃ response, ((saving first).serve .default LifeCycle.opened).outcome = .ok response)
    (hsecond : ∃ response, ((saving second).serve .default
      ((saving first).serve .default LifeCycle.opened).after).outcome = .ok response) :
    Succeed "gsess_1" (savedBoth first second) := by
  intro s hs _
  rcases List.mem_pair.mp hs with rfl | rfl
  · exact hfirst
  · exact hsecond

/-- A profile with a number after one without is shown. -/
theorem realtimeProfile_numbered :
    ∃ response, ((resolveSession question).run machine (afterBoth unnumbered numbered)).1 =
      .ok response ∧ response.realtimeProfile = some numbered := by
  have hlasts (w w' : World) (h : w = w') : Lasts "gsess_1" ids w w' :=
    ⟨.of_eq h, fun _ _ => .of_eq h⟩
  refine ⟨_, rfl, (realtimeProfile_iff .default hlasts hlasts rfl
    (history_savedBoth unnumbered numbered) (own_savedBoth saves_unnumbered saves_numbered)
    (succeed_savedBoth ⟨_, rfl⟩ ⟨_, rfl⟩) rfl rfl
    (Program.Exec.of_run (fun _ => rfl) (resolveSession question) _)).mpr (.inl ⟨"1000000001", ?_⟩)⟩
  decide

/-- A profile without a number after one with a number is not: the older one is. -/
theorem realtimeProfile_unnumbered :
    Reachable .default (fun _ => True) LifeCycle.opened ∧
      (LifeCycle.opened.hash "gsess_1").isSome ∧
      History .default Eq Eq LifeCycle.opened (savedBoth numbered unnumbered)
        (afterBoth numbered unnumbered) ∧
      Own "gsess_1" ids LifeCycle.opened (savedBoth numbered unnumbered) ∧
      Succeed "gsess_1" (savedBoth numbered unnumbered) ∧
      (lastProfile "gsess_1" (savedBoth numbered unnumbered)).map Prod.fst = some unnumbered ∧
      ∃ response, ((resolveSession question).run machine (afterBoth numbered unnumbered)).1 =
        .ok response ∧ response.realtimeProfile = some numbered ∧
        response.realtimeProfile ≠ some unnumbered := by
  have hne : some numbered ≠ some unnumbered := fun h =>
    absurd (congrArg (Option.map List.length) h) (by decide)
  exact ⟨LifeCycle.reachable_opened, rfl, history_savedBoth numbered unnumbered,
    own_savedBoth saves_numbered saves_unnumbered, succeed_savedBoth ⟨_, rfl⟩ ⟨_, rfl⟩, rfl, _, rfl,
    rfl, hne⟩

end OwnProfiles

end SessionManager
