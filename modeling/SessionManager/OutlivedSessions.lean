import SessionManager.KeyRenewals
import SessionManager.LogAgreement
import SessionManager.OwnProfiles

/-!
# Data that outlives its session

Turns and profiles have lifetimes of their own. Saving them begins these anew, but not the one of
the session, so they are there longer than the session whenever it is not extended in between.

* `numberOf` — the customer number that a session remembers, from the requests alone.
* `NothingOutlives` — no turns or profiles without a session that they belong to.
* `ExtendedInTime` — the condition on the requests and their instants.
* `nothingOutlives_iff` — at every instant of every run the one holds exactly if the other does.
-/

namespace SessionManager

open Python Interaction
open SessionService SessionRepository RedisHelper TimedCoherence

open Program hiding pure

/-! ### Notions -/

/-- The customer number that session `k` remembers after one more request: none when it has just
been created, and the one of an update that has one. -/
def Served.numberAfter (k : String) (number : Option String) (s : Served) : Option String :=
  match s.request with
  | .createSession k' _ _ => if k' = k ∧ s.before.hash k = none then none else number
  | .updateRealtimePersonalContext _ k' data =>
    if k' = k ∧ s.before.hash k ≠ none then (ProfileService.cusnoOf data).toOption.join.or number
    else number
  | _ => number

/-- The customer number that session `k` remembers after these requests. -/
def numberOf (k : String) (served : List Served) : Option String :=
  served.foldl (Served.numberAfter k) none

/-- Turns and profiles are there only with their session: the turns and the realtime profile under
a session's key with that session, the other profiles with some session of their customer. -/
structure NothingOutlives (served : List Served) (w : World) : Prop where
  turns : ∀ k, (w.entry (.turns k)).isSome → (w.entry (.session k)).isSome
  own : ∀ k ∈ createdKeys served, (w.entry (.realtimeProfile k)).isSome →
    (w.entry (.session k)).isSome
  realtime : ∀ c, c ∉ createdKeys served → (w.entry (.realtimeProfile c)).isSome →
    ∃ k, w.field k .cusno = some c
  batch : ∀ c, (w.entry (.batchProfile c)).isSome → ∃ k, w.field k .cusno = some c

/-- A turn was saved for session `k` at most a lifetime ago. -/
def SavedLately (cfg : Config) (served : List Served) (now : ℕ) (k : String) : Prop :=
  ∃ s ∈ served, (∃ request, s.request = .saveApiResult k request) ∧ (s.before.hash k).isSome ∧
    now ≤ expiry cfg s.before.now

/-- Whatever was saved in the last lifetime, or extended with a session, has a session that was
created or extended in that time too. -/
structure ExtendedInTime (cfg : Config) (served : List Served) (now : ℕ) : Prop where
  turns : ∀ k, SavedLately cfg served now k → RenewedLately cfg served now (.session k)
  own : ∀ k ∈ createdKeys served, RenewedLately cfg served now (.realtimeProfile k) →
    RenewedLately cfg served now (.session k)
  realtime : ∀ c, c ∉ createdKeys served → RenewedLately cfg served now (.realtimeProfile c) →
    ∃ k, numberOf k served = some c ∧ RenewedLately cfg served now (.session k)
  batch : ∀ c, RenewedLately cfg served now (.batchProfile c) →
    ∃ k, numberOf k served = some c ∧ RenewedLately cfg served now (.session k)

namespace OutlivedSessions

variable {cfg : Config} {served : List Served} {w w' : World} {k : String}

/-! ### The customer number -/

theorem numberOf_snoc (k : String) (served : List Served) (s : Served) :
    numberOf k (served ++ [s]) = s.numberAfter k (numberOf k served) := by
  rw [numberOf, List.foldl_append]
  rfl

/-- The invariant: what a session that is there remembers is what the requests say. -/
def Numbered (served : List Served) (w : World) : Prop :=
  ∀ k, (w.hash k).isSome → w.field k .cusno = numberOf k served

/-- A request that is no update of a session that is there keeps its customer number. -/
theorem request_keeps_cusno (request : Request) (hlive : (w.hash k).isSome)
    (hother : ∀ lookup data, request ≠ .updateRealtimePersonalContext lookup k data) :
    (request.program cfg).Wp machine Eq (fun _ w' => w'.field k .cusno = w.field k .cusno) w := by
  have hspares : request.Spares k .cusno := by
    intro updates hupdates
    cases hupdates with
    | patch | close | closeByToken => rfl
    | profile => exact absurd rfl (hother _ _)
  exact (keeps_field (fun _ _ => World.Keeps.of_eq) (request.keeping cfg (by decide) hspares) hlive
    rfl).mono fun _ _ h => h.2

/-- An update that finds no customer number, or none that can be read, keeps the old one. -/
theorem update_cusno (lookup : ProfileService.BatchLookup) (data : Dict)
    (hlive : (w.hash k).isSome) :
    (ProfileService.updateRealtimePersonalContext cfg lookup k data).Wp machine Eq (fun _ w' =>
      w'.field k .cusno =
        (ProfileService.cusnoOf data).toOption.join.or (w.field k .cusno)) w := by
  cases hcusno : ProfileService.cusnoOf data with
  | ok cusno =>
    exact (OwnProfiles.updateRealtimePersonalContext_spec hcusno (fun _ _ => World.Keeps.of_eq)
      (fun _ _ => World.Keeps.of_eq) hlive).mono fun _ _ h => h.2.1
  | error err =>
    obtain ⟨session, hsession⟩ := Option.isSome_iff_exists.mp hlive
    refine look_bind_instant.mpr ?_
    rw [hsession]
    dsimp only
    rw [hcusno]
    exact rfl

/-- A session that has just been created remembers none. -/
theorem createSession_cusno (jti : String) (request : SessionCreateRequest)
    (hnone : w.hash k = none) : (createSession cfg k jti request).Wp machine Eq
      (fun _ w' => w'.field k .cusno = none) w := by
  have hfree : (w.setex (.jti jti) cfg.sessionCacheTtl k).entry (.session k) = none := by
    rw [World.hash_eq_entry, Option.map_eq_none_iff] at hnone
    exact (World.machine_entry_of_ne (c := .setex (.jti jti) cfg.sessionCacheTtl k)
      (by simp [Command.changes]) w).trans hnone
  refine wp_bind.mpr (createTokens_instant.mpr (wp_bind.mpr ((create_instant hfree).mpr ?_)))
  refine wp_perform_bind_eq.mpr (wp_perform_bind_eq.mpr ?_)
  have hentry := World.entry_withSession cfg (createArgs request k) hfree
  show (World.hash ((w.setex (.jti jti) cfg.sessionCacheTtl k).withSession cfg
    (createArgs request k)) (createArgs request k).globalSessionKey).bind _ = none
  rw [World.hash_of_entry hentry]
  rfl

/-- A request that creates no session and updates none leaves the customer number as it is. -/
theorem numberAfter_eq {s : Served} (number : Option String)
    (hcreate : ∀ jti r, s.request = .createSession k jti r → s.before.hash k ≠ none)
    (hupdate : ∀ lookup data, s.request = .updateRealtimePersonalContext lookup k data →
      s.before.hash k = none) : s.numberAfter k number = number := by
  unfold Served.numberAfter
  split
  · rename_i k' jti r hrequest
    refine if_neg ?_
    rintro ⟨rfl, hnone⟩
    exact hcreate jti r hrequest hnone
  · rename_i lookup k' data hrequest
    refine if_neg ?_
    rintro ⟨rfl, hsome⟩
    exact hsome (hupdate lookup data hrequest)
  · rfl

/-- One more request. -/
theorem Numbered.serve (h : Numbered served w) (request : Request) :
    (request.program cfg).Wp machine Eq
      (fun outcome w' => Numbered (served ++ [⟨request, outcome, w, w'⟩]) w') w := by
  rw [wp_iff_exec]
  intro outcome w' hexec k hlive'
  rw [numberOf_snoc]
  cases hhash : w.hash k with
  | none =>
    by_cases hcreate : ∃ jti r, request = .createSession k jti r
    · obtain ⟨jti, r, rfl⟩ := hcreate
      have hnew : ((Request.createSession k jti r).program cfg).Wp machine Eq
          (fun _ w' => w'.field k .cusno = none) w := wp_map.mpr (createSession_cusno jti r hhash)
      rw [hnew.exec hexec]
      exact (if_pos ⟨rfl, hhash⟩).symm
    · -- the session is not there afterwards either
      have hmissing : (request.program cfg).Wp machine Eq (fun _ w' => w'.hash k = none) w :=
        (LogAgreement.request_missing (fun _ _ => World.Keeps.of_eq) request
          (fun jti r heq => hcreate ⟨jti, r, heq⟩) hhash).mono fun _ _ h => h.1
      rw [hmissing.exec hexec] at hlive'
      cases hlive'
  | some session =>
    -- a session that is there gets a number from an update of its profile only
    have hlive : (w.hash k).isSome := by
      rw [hhash]
      rfl
    rw [← h k hlive]
    by_cases hupdate : ∃ lookup data, request = .updateRealtimePersonalContext lookup k data
    · obtain ⟨lookup, data, rfl⟩ := hupdate
      have hnew : ((Request.updateRealtimePersonalContext lookup k data).program cfg).Wp machine Eq
          (fun _ w' => w'.field k .cusno =
            (ProfileService.cusnoOf data).toOption.join.or (w.field k .cusno)) w :=
        wp_map.mpr (update_cusno lookup data hlive)
      have hsome : w.hash k ≠ none := by
        rw [hhash]
        exact Option.some_ne_none session
      rw [hnew.exec hexec]
      exact (if_pos ⟨rfl, hsome⟩).symm
    · have hkept : (request.program cfg).Wp machine Eq
          (fun _ w' => w'.field k .cusno = w.field k .cusno) w :=
        request_keeps_cusno request hlive fun lookup data heq => hupdate ⟨lookup, data, heq⟩
      rw [hkept.exec hexec, numberAfter_eq]
      · intro jti r _ hnone
        rw [hhash] at hnone
        cases hnone
      · rintro lookup data rfl
        exact (hupdate ⟨lookup, data, rfl⟩).elim

/-- What a session remembers stays the same while time passes. -/
theorem Numbered.elapses (h : Numbered served w) (helapses : w.Elapses w') :
    Numbered served w' := by
  intro k hlive'
  obtain ⟨session, hsession⟩ := Option.isSome_iff_exists.mp hlive'
  have hbefore : w.hash k = some session := helapses.get hsession
  have hsame : w'.field k .cusno = w.field k .cusno := by
    rw [World.field, World.field, hsession, hbefore]
  rw [hsame]
  exact h k (by rw [hbefore]; rfl)

theorem numbered_history {now : ℕ} (h : History cfg Eq World.Elapses (.init now) served w) :
    Numbered served w := by
  refine h.invariant (I := Numbered) (fun _ _ _ helapses hI => hI.elapses helapses)
    (fun served request w hI => hI.serve request) fun k hk => ?_
  have hnone : (World.init now).hash k = none := rfl
  rw [hnone] at hk
  cases hk

/-- The sessions that are there with a customer number. -/
theorem field_cusno_iff {now : ℕ} (h : History cfg Eq World.Elapses (.init now) served w)
    (helapses : w.Elapses w') (k c : String) : w'.field k .cusno = some c ↔
      numberOf k served = some c ∧ RenewedLately cfg served w'.now (.session k) := by
  have hnumbered := (numbered_history h).elapses helapses
  rw [← live_iff_renewedLately h helapses (.session k) id, ← Option.isSome_map,
    ← World.hash_eq_entry]
  constructor
  · intro hfield
    have hlive : (w'.hash k).isSome := by
      cases hhash : w'.hash k with
      | some session => rfl
      | none =>
        rw [World.field, hhash] at hfield
        cases hfield
    exact ⟨(hnumbered k hlive).symm.trans hfield, hlive⟩
  · rintro ⟨hnumber, hlive⟩
    rw [hnumbered k hlive, hnumber]

/-! ### Turns -/

/-- Turns are extended along with their session. -/
theorem session_mem_extended {k' : String} (h : .turns k ∈ w.extended k') :
    .session k ∈ w.extended k' := by
  cases hhash : w.hash k' with
  | none =>
    rw [extended_of_missing hhash] at h
    cases h
  | some session =>
    rw [World.extended, hhash, Option.elim_some, List.mem_filter] at h ⊢
    have hk : k = k' := by
      rcases mem_sessionKeys h.1 with heq | heq | hprofile
      · cases heq
      · exact Key.turns.inj heq
      · exact hprofile.elim
    subst hk
    exact ⟨List.mem_cons_self, isSome_of_hash hhash⟩

/-- An update saves nothing but profiles. -/
theorem isProfile_of_mem_profilesSaved {lookup : ProfileService.BatchLookup} {k' : String}
    {data : Dict} {key : Key} (h : key ∈ profilesSaved lookup k' data) : key.IsProfile := by
  unfold profilesSaved at h
  cases hcusno : (ProfileService.cusnoOf data).toOption with
  | none =>
    rw [hcusno] at h
    cases h
  | some cusno =>
    rw [hcusno, Option.elim_some, List.mem_cons] at h
    rcases h with rfl | h
    · trivial
    · cases cusno with
      | none => cases h
      | some c =>
        rw [Option.elim_some, batchSaved] at h
        split_ifs at h
        · rw [List.mem_singleton.mp h]
          trivial
        · cases h

/-- Turns are saved, or extended with their session. -/
theorem turns_mem_renewed {s : Served} (h : .turns k ∈ s.renewed) :
    (∃ request, s.request = .saveApiResult k request) ∧ (s.before.hash k).isSome ∨
      .session k ∈ s.renewed := by
  obtain ⟨request, outcome, before, after⟩ := s
  dsimp only [Served.renewed] at h ⊢
  unfold Request.renewed at h ⊢
  split at h
  · split_ifs at h
    · cases h
    · cases List.mem_singleton.mp h
  · exact .inr (session_mem_extended h)
  · split_ifs at h ⊢
    · exact .inr (session_mem_extended h)
    · cases h
  · split_ifs at h with hlive
    · obtain rfl := Key.turns.inj (List.mem_singleton.mp h)
      exact .inl ⟨⟨_, rfl⟩, hlive⟩
    · cases h
  · split_ifs at h
    · exact (isProfile_of_mem_profilesSaved h).elim
    · cases h
  · cases h

/-- A saved turn is renewed. -/
theorem turns_mem_renewed_of_save {s : Served} {request : SolApiResultRequest}
    (hrequest : s.request = .saveApiResult k request) (hlive : (s.before.hash k).isSome) :
    .turns k ∈ s.renewed := by
  rw [Served.renewed, hrequest]
  show Key.turns k ∈ if (s.before.hash k).isSome then [Key.turns k] else []
  rw [if_pos hlive]
  exact List.mem_singleton_self _

/-- Without its session a session's turns have been saved lately if they have been renewed. -/
theorem renewedLately_turns_iff {now : ℕ}
    (hsession : ¬ RenewedLately cfg served now (.session k)) :
    RenewedLately cfg served now (.turns k) ↔ SavedLately cfg served now k := by
  constructor
  · rintro ⟨s, hs, hrenewed, hle⟩
    rcases turns_mem_renewed hrenewed with ⟨hsave, hlive⟩ | hextended
    · exact ⟨s, hs, hsave, hlive, hle⟩
    · exact absurd ⟨s, hs, hextended, hle⟩ hsession
  · rintro ⟨s, hs, ⟨request, hrequest⟩, hlive, hle⟩
    exact ⟨s, hs, turns_mem_renewed_of_save hrequest hlive, hle⟩

end OutlivedSessions

/-- At every instant of every run in which requests are served one after the other, no turns or
profiles outlive their sessions exactly if all of them were extended in time. -/
theorem nothingOutlives_iff (cfg : Config) {now : ℕ} {served : List Served} {w w' : World}
    (h : History cfg Eq World.Elapses (.init now) served w) (helapses : w.Elapses w') :
    NothingOutlives served w' ↔ ExtendedInTime cfg served w'.now := by
  have hlive (key : Key) (hkey : ¬ key.IsJti) := live_iff_renewedLately h helapses key hkey
  have hcusno (c : String) : (∃ k, w'.field k .cusno = some c) ↔
      ∃ k, numberOf k served = some c ∧ RenewedLately cfg served w'.now (.session k) :=
    exists_congr fun k => OutlivedSessions.field_cusno_iff h helapses k c
  -- turns are renewed by a save, and with their session
  have hturns (k : String) : ((w'.entry (.turns k)).isSome → (w'.entry (.session k)).isSome) ↔
      (SavedLately cfg served w'.now k → RenewedLately cfg served w'.now (.session k)) := by
    rw [hlive (.turns k) id, hlive (.session k) id]
    by_cases hsession : RenewedLately cfg served w'.now (.session k)
    · exact ⟨fun _ _ => hsession, fun _ _ => hsession⟩
    · rw [OutlivedSessions.renewedLately_turns_iff hsession]
  constructor
  · intro hnothing
    refine ⟨fun k => (hturns k).mp (hnothing.turns k), fun k hk hprofile => ?_,
      fun c hc hprofile => ?_, fun c hprofile => ?_⟩
    · exact (hlive (.session k) id).mp
        (hnothing.own k hk ((hlive (.realtimeProfile k) id).mpr hprofile))
    · exact (hcusno c).mp (hnothing.realtime c hc ((hlive (.realtimeProfile c) id).mpr hprofile))
    · exact (hcusno c).mp (hnothing.batch c ((hlive (.batchProfile c) id).mpr hprofile))
  · intro hextended
    refine ⟨fun k => (hturns k).mpr (hextended.turns k), fun k hk hprofile => ?_,
      fun c hc hprofile => ?_, fun c hprofile => ?_⟩
    · exact (hlive (.session k) id).mpr
        (hextended.own k hk ((hlive (.realtimeProfile k) id).mp hprofile))
    · exact (hcusno c).mpr
        (hextended.realtime c hc ((hlive (.realtimeProfile c) id).mp hprofile))
    · exact (hcusno c).mpr (hextended.batch c ((hlive (.batchProfile c) id).mp hprofile))

namespace OutlivedSessions

/-- A session is opened at instant 0. -/
def opened : Served := (Request.createSession "gsess_1" "jti_0" {}).serve .default (.init 0)

/-- A result is saved for it 200 seconds later. -/
def savedLater : Served :=
  (Request.saveApiResult "gsess_1" { globalSessionKey := "gsess_1", turnId := "turn_1" }).serve
    .default (opened.after.advance 200000)

theorem savedLater_history :
    History .default Eq World.Elapses (.init 0) [opened, savedLater] savedLater.after := by
  have hopened : History .default Eq World.Elapses (.init 0) [opened] opened.after :=
    .snoc .nil (.refl _) (Program.Exec.of_run (fun _ => rfl) _ _)
  exact .snoc hopened ⟨200000, rfl⟩ (Program.Exec.of_run (fun _ => rfl) _ _)

/-- At the end of the session's lifetime its turn is still there with it. -/
theorem nothingOutlives_saved :
    (∃ w, History .default Eq World.Elapses (.init 0) [opened, savedLater] w) ∧
      NothingOutlives [opened, savedLater] (savedLater.after.advance 100000) := by
  refine ⟨⟨_, savedLater_history⟩,
    (nothingOutlives_iff .default savedLater_history ⟨100000, rfl⟩).mpr ?_⟩
  have hopened : opened.renewed = [.session "gsess_1"] := by decide
  have hsaved : savedLater.renewed = [.turns "gsess_1"] := by decide
  -- the two keys that are renewed at all
  have hkey {key : Key} (h : RenewedLately .default [opened, savedLater]
      (savedLater.after.advance 100000).now key) :
      key = .session "gsess_1" ∨ key = .turns "gsess_1" := by
    obtain ⟨s, hs, hrenewed, -⟩ := h
    simp only [List.mem_cons, List.not_mem_nil, or_false] at hs
    rcases hs with rfl | rfl
    · rw [hopened] at hrenewed
      exact .inl (List.mem_singleton.mp hrenewed)
    · rw [hsaved] at hrenewed
      exact .inr (List.mem_singleton.mp hrenewed)
  refine ⟨?_, fun k _ h => ?_, fun c _ h => ?_, fun c h => ?_⟩
  · rintro k ⟨s, hs, ⟨request, hrequest⟩, hlive, hle⟩
    have hk := hkey ⟨s, hs, turns_mem_renewed_of_save hrequest hlive, hle⟩
    simp only [reduceCtorEq, Key.turns.injEq, false_or] at hk
    subst hk
    exact ⟨opened, List.mem_cons_self, by rw [hopened]; exact List.mem_singleton_self _, by decide⟩
  all_goals exact absurd (hkey h) (by simp)

/-- After another 200 seconds the session has expired, but not its turn. -/
theorem not_nothingOutlives_saved :
    ∃ w, History .default Eq World.Elapses (.init 0) [opened, savedLater] w ∧
      ∃ w', w.Elapses w' ∧ ¬ NothingOutlives [opened, savedLater] w' := by
  refine ⟨_, savedLater_history, savedLater.after.advance 200000, ⟨200000, rfl⟩, fun h => ?_⟩
  have hsession := h.turns "gsess_1" rfl
  exact absurd hsession (by decide)

/-- An update of the session's profiles. -/
def updateTo (cusno : String) : Request :=
  .updateRealtimePersonalContext (fun _ => .ok none) "gsess_1" [("cusnoN10", .str cusno)]

/-- A session whose customer number changes leaves the profile of the old one behind. -/
theorem not_nothingOutlives_renumbered : ∃ served w,
    History .default Eq World.Elapses (.init 0) served w ∧ ¬ NothingOutlives served w := by
  have hopened : History .default Eq World.Elapses (.init 0) [opened] opened.after :=
    .snoc .nil (.refl _) (Program.Exec.of_run (fun _ => rfl) _ _)
  have hfirst := hopened.serve_of_refl (fun _ => rfl) World.Elapses.refl (updateTo "1000000001")
  have hsecond := hfirst.serve_of_refl (fun _ => rfl) World.Elapses.refl (updateTo "1000000002")
  refine ⟨_, _, hsecond, fun h => ?_⟩
  obtain ⟨k, hk⟩ := h.realtime "1000000001" (by decide) (by decide)
  have hnumber := ((field_cusno_iff hsecond (.refl _) k _).mp hk).1
  -- all three requests are for the one session
  by_cases hkey : "gsess_1" = k
  · subst hkey
    exact absurd hnumber (by decide)
  · have hother : numberOf k [opened, (updateTo "1000000001").serve .default opened.after,
        (updateTo "1000000002").serve .default
          ((updateTo "1000000001").serve .default opened.after).after] = none := by
      simp [numberOf, Served.numberAfter, opened, updateTo, Request.serve, hkey]
    exact absurd (hother.symm.trans hnumber) (by simp)

end OutlivedSessions

end SessionManager
