import SessionManager.BatchProfile.Repository
import SessionManager.OwnProfiles
import SessionManager.StoredValues

/-!
# Batch profiles end to end

From the bucket to the response: whatever the bucket holds and whichever calls to it fail, whatever
requests run and however their commands interleave, a batch profile that is stored for a customer,
or shown in a session, is made of documents of that customer.

* `Fetched` — what is answered for a customer was found in a bucket; `Request.Fetches` says so of
  the repository that a request uses.
* `Fits` — the batch profiles in the store are as a predicate says.
* `request_follows` — every request stores such profiles and shows such profiles.
* `batchProfiles_own` — the profiles that are stored and the profiles that are shown.
-/

namespace SessionManager

open Python Interaction
open RedisHelper SessionService

open Program hiding pure

/-- A batch profile of the customer, from a content that the bucket may have had. -/
def Fetched (rt : BatchProfile.Runtime)
    (range : Bytes → Json → Json → Except PyError Bytes) (Had : BatchProfile.Bucket → Prop)
    (cusno : String) (profile : Dict) : Prop :=
  ∃ bucket, Had bucket ∧ BatchProfile.OwnProfile rt range bucket cusno profile

/-- The request's repository is the one over MinIO: what it returns is what `get_batch_profile`
can return on some content of the bucket, with the calls of the two lookups in some order and any of
the calls failing. -/
def Request.Fetches (settings : BatchProfile.MinioSettings) (rt : BatchProfile.Runtime)
    (range : Bytes → Json → Json → Except PyError Bytes) (Had : BatchProfile.Bucket → Prop) :
    Request → Prop
  | .updateRealtimePersonalContext lookup _ _ => ∀ cusno batch, lookup cusno = .ok batch →
    ∃ bucket order, Had bucket ∧
      (BatchProfile.getBatchProfile settings rt order cusno).Ends (bucket.MayAnswer range)
        (.ok batch)
  | _ => True

namespace OwnBatchProfiles

variable {Own : String → Dict → Prop} {cfg : Config}

/-- The value is a profile that may be stored for the customer. -/
def IsOwn (Own : String → Dict → Prop) (cusno : String) (v : Json) : Prop :=
  ∃ profile, v = .obj profile ∧ Own cusno profile

/-- What may be stored: a batch profile is an own one. -/
def Fits (Own : String → Dict → Prop) : (key : Key) → key.Value → Prop
  | .batchProfile cusno, v => IsOwn Own cusno v
  | _, _ => True

/-- The batch profile of a response is one of the customer of the session. -/
def ShowsOwn (Own : String → Dict → Prop) : Response → Prop
  | .resolved response => ∀ profile, response.batchProfile = some profile →
    ∃ cusno, response.cusno = some cusno ∧ Own cusno profile
  | _ => True

/-- A command that changes no batch profile. -/
theorem stores_fits {c : Command} (h : ∀ cusno, c.changes ≠ some (.batchProfile cusno)) :
    c.Stores (Fits Own) := by
  cases c
  case hset k mapping => exact fun _ _ => trivial
  case rpush k turn => exact fun _ _ => trivial
  case set key v => cases key <;> first | trivial | exact absurd rfl (h _)
  case setex key seconds v => cases key <;> first | trivial | exact absurd rfl (h _)
  all_goals trivial

/-! ### Requests -/

/-- A program that stores own batch profiles only, and whose responses show none. -/
theorem follows_of_only {α : Type} {p : Svc α} {f : α → Response}
    (hp : (do let a ← p; return f a : Svc Response).Only (Command.Stores (Fits Own)))
    (hf : ∀ a, ShowsOwn Own (f a)) :
    (do let a ← p; return f a : Svc Response).Follows (storing (Fits Own))
      (fun _ x => ∀ response, x = .ok response → ShowsOwn Own response) () := by
  induction p with
  | pure a =>
    intro response hx
    obtain rfl := Except.ok.inj hx
    exact hf a
  | throw e =>
    intro response hx
    cases hx
  | call c next ih => exact ⟨hp.1, fun reply _ => ih reply (hp.2 reply)⟩

/-- A command of a request that is no update of profiles stores no batch profile. -/
theorem storesOwn_of_writes {request : Request} {c : Command}
    (h : request.Writes cfg (fun _ => True) c)
    (hupdate : ∀ lookup k data, request ≠ .updateRealtimePersonalContext lookup k data) :
    c.Stores (Fits Own) := by
  cases h with
  | look hc => exact stores_fits fun cusno heq => by cases hc.symm.trans heq
  | batchProfile => exact absurd rfl (hupdate _ _ _)
  | expire => trivial
  | realtimeProfile | create | rewrite | update | register | turn | issueJti | revokeJti =>
    exact stores_fits nofun

/-- The number of a profile has no white space around it. -/
theorem strip_of_cusnoOf {data : Dict} {cusno : String}
    (h : ProfileService.cusnoOf data = .ok (some cusno)) : strip cusno = cusno := by
  obtain ⟨raw, -, hraw⟩ : ∃ raw, ProfileService.cusnoRaw data = .ok raw ∧
      ProfileService.cusnoOfRaw raw = some cusno := by
    unfold ProfileService.cusnoOf at h
    cases hraw : ProfileService.cusnoRaw data with
    | ok raw =>
      rw [hraw] at h
      exact ⟨raw, rfl, Except.ok.inj h⟩
    | error e =>
      rw [hraw] at h
      cases h
  unfold ProfileService.cusnoOfRaw at hraw
  split_ifs at hraw
  obtain ⟨hcusno, -⟩ := Option.filter_eq_some_iff.mp hraw
  rw [← Option.some.inj hcusno, strip_strip]

/-- An update of profiles stores an own batch profile, or none. -/
theorem updateRealtimePersonalContext_only {lookup : ProfileService.BatchLookup} {k : String}
    {data : Dict} (hlookup : ∀ cusno profile, strip cusno = cusno →
      lookup cusno = .ok (some profile) → Own cusno profile) :
    (ProfileService.updateRealtimePersonalContext cfg lookup k data).Only
      (Command.Stores (Fits Own)) := by
  have hquiet {K : Key → Prop} (hK : ∀ cusno, ¬ K (.batchProfile cusno)) {α : Type} {p : Svc α}
      (hp : p.Only (Command.Within K)) : p.Only (Command.Stores (Fits Own)) :=
    hp.mono fun c hc => stores_fits fun cusno heq => hK cusno (hc.changes heq)
  refine .perform_bind trivial fun session => ?_
  cases session with
  | none => trivial
  | some session =>
    dsimp only
    cases hcusno : ProfileService.cusnoOf data with
    | error e => trivial
    | ok cusno =>
      rw [ofExcept_ok, pure_bind']
      refine Only.bind ?_ fun _ =>
        .perform_bind trivial fun _ => .perform_bind trivial fun _ => trivial
      have hrealtime (u : String) :
          (setRealtimeProfile cfg u data).Only (Command.Stores (Fits Own)) :=
        hquiet (K := fun key => key = .realtimeProfile u) (by simp)
          (setProfile_within cfg rfl (by simp) _ _)
      unfold ProfileService.storeProfiles
      cases cusno with
      | none => exact (hrealtime k).bind fun _ => trivial
      | some cusno =>
        have hsession : (SessionRepository.update k (ProfileService.cusnoUpdates cusno)).Only
            (Command.Stores (Fits Own)) :=
          hquiet (K := fun key => key = .session k) (by simp)
            (@SessionRepository.update_within (fun key : Key => key = .session k) k rfl _)
        refine hsession.bind fun _ => (hrealtime cusno).bind fun _ => ?_
        cases hbatch : lookup cusno with
        | error e => trivial
        | ok batch =>
          rw [ofExcept_ok, pure_bind']
          refine Only.bind ?_ fun _ => trivial
          unfold ProfileService.storeBatchProfile
          split
          · next profile hprofile =>
            -- the one place where a batch profile is stored
            obtain ⟨rfl, -⟩ := Option.filter_eq_some_iff.mp hprofile
            have hown := hlookup cusno profile (strip_of_cusnoOf hcusno) hbatch
            exact .perform_bind ⟨profile, rfl, hown⟩ fun _ => only_perform.mpr trivial
          · trivial

/-- The profiles of a session are read under its own number. -/
theorem sessionProfiles_follows (k : String) (cusno : Option String) :
    (sessionProfiles k cusno).Follows (storing (Fits Own)) (fun _ x => ∀ profiles,
      x = .ok profiles → ∀ v, profiles.1 = some v → ∃ c, cusno = some c ∧ IsOwn Own c v) () := by
  unfold sessionProfiles
  cases hnumber : cusno.filter (· ≠ "") with
  | none =>
    refine .perform_bind trivial fun profile _ => ?_
    rintro profiles hprofiles v hv
    obtain rfl := Except.ok.inj hprofiles
    cases hv
  | some c =>
    refine .perform_bind trivial fun batch hbatch => .perform_bind trivial fun profile _ => ?_
    rintro profiles hprofiles v hv
    obtain rfl := Except.ok.inj hprofiles
    exact ⟨c, (Option.filter_eq_some_iff.mp hnumber).1, hbatch v hv⟩

/-- The batch profile of a response is the one that was read. -/
theorem resolveResponse_batch {request : SessionResolveRequest} {session : Hash}
    {status : TaskQueueStatus} {mapped : Json} {profiles : Option Json × Option Json}
    {response : SessionResolveResponse}
    (h : resolveResponse request session status mapped profiles = .ok response) :
    response.cusno = session .cusno ∧
      ∀ profile, response.batchProfile = some profile → profiles.1 = some (.obj profile) := by
  unfold resolveResponse at h
  simp only [bind_eq_ok] at h
  obtain ⟨_, -, _, -, _, -, batch, hbatch, _, -, _, -, _, -, _, -, _, -, _, -, _, -, _, -,
    hresponse⟩ := h
  obtain rfl := Except.ok.inj hresponse
  refine ⟨rfl, ?_⟩
  rintro profile rfl
  cases hread : profiles.1 with
  | none =>
    rw [hread] at hbatch
    cases hbatch
  | some v =>
    rw [hread] at hbatch
    -- only an object passes as a `dict`
    cases v with
    | obj entries => rw [Option.some.inj (Except.ok.inj hbatch)]
    | _ => cases hbatch

/-- A resolution shows an own batch profile, or none. -/
theorem resolveSession_follows (request : SessionResolveRequest) :
    (resolveSession request).Follows (storing (Fits Own)) (fun _ x => ∀ response, x = .ok response →
      ShowsOwn Own (.resolved response)) () := by
  have hlooks {α : Type} {p : Svc α} (hp : p.Only (Command.Within fun _ => False)) :
      p.Follows (storing (Fits Own)) (fun _ _ => True) () := by
    refine (Only.follows (P := storing (Fits Own)) hp fun c hc => ⟨?_, fun _ => rfl⟩).mono
      fun _ _ _ => trivial
    exact stores_fits fun cusno heq => hc.changes heq
  refine .perform_bind trivial fun session _ => ?_
  cases session with
  | none =>
    intro response hx
    cases hx
  | some session =>
    refine Follows.seq (fun _ _ => True) ((hlooks (agentSessionKey_within request)).mono
      fun _ x _ => ?_) fun _ mapped _ => ?_
    · cases x with
      | ok a => trivial
      | error e =>
        intro response hx
        cases hx
    refine .ofExcept_bind (fun e _ response hx => by cases hx) fun status _ => ?_
    refine Follows.seq (fun _ profiles => ∀ v, profiles.1 = some v →
      ∃ c, session .cusno = some c ∧ IsOwn Own c v)
      ((sessionProfiles_follows request.globalSessionKey (session .cusno)).mono fun _ x hx => ?_)
      fun _ profiles hprofiles => ?_
    · cases x with
      | ok profiles => exact hx profiles rfl
      | error e =>
        intro response hx
        cases hx
    refine .perform_bind trivial fun _ _ => ?_
    cases hresponse : resolveResponse request session status mapped profiles with
    | error e =>
      intro response hx
      cases hx
    | ok response =>
      rintro _ hx profile hprofile
      obtain rfl := Except.ok.inj hx
      obtain ⟨hcusno, hbatch⟩ := resolveResponse_batch hresponse
      obtain ⟨c, hc, v, hv, hown⟩ := hprofiles _ (hbatch profile hprofile)
      exact ⟨c, hcusno.trans hc, Json.obj.inj hv ▸ hown⟩

/-- Every request stores and shows own batch profiles when its repository returns such. -/
theorem request_follows {request : Request} (hlookup : ∀ lookup k data,
      request = .updateRealtimePersonalContext lookup k data → ∀ cusno profile,
        strip cusno = cusno → lookup cusno = .ok (some profile) → Own cusno profile) :
    (request.program cfg).Follows (storing (Fits Own))
      (fun _ x => ∀ response, x = .ok response → ShowsOwn Own response) () := by
  have hquiet (hupdate : ∀ lookup k data, request ≠ .updateRealtimePersonalContext lookup k data) :
      (request.program cfg).Only (Command.Stores (Fits Own)) :=
    (request.program_writes cfg).mono fun c hc => storesOwn_of_writes hc hupdate
  cases request with
  | resolveSession request =>
    refine Follows.wrap ((resolveSession_follows request).mono fun _ x hx response heq => ?_)
    cases x with
    | ok resolved =>
      obtain rfl := Except.ok.inj heq
      exact hx resolved rfl
    | error e => cases heq
  | updateRealtimePersonalContext lookup k data =>
    have honly : (ProfileService.updateRealtimePersonalContext cfg lookup k data).Only
        (Command.Stores (Fits Own)) :=
      updateRealtimePersonalContext_only (hlookup lookup k data rfl)
    exact follows_of_only (honly.bind fun _ => trivial) fun _ => trivial
  | _ => exact follows_of_only (hquiet (by simp)) fun _ => trivial

end OwnBatchProfiles

open OwnBatchProfiles in
/-- Any number of requests, their commands interleaved in any order, with time passing anywhere and
requests stopping anywhere: every batch profile in the store is one of the customer whose key it is
under, and every batch profile that a resolution shows is one of the customer of the session. -/
theorem batchProfiles_own (cfg : Config) (settings : BatchProfile.MinioSettings)
    (rt : BatchProfile.Runtime) (range : Bytes → Json → Json → Except PyError Bytes)
    (Had : BatchProfile.Bucket → Prop) {ι : Type} [DecidableEq ι] (requests : ι → Request)
    (hfetches : ∀ i, (requests i).Fetches settings rt range Had) (now : ℕ)
    {p : Pool redis ServiceError Response World ι}
    (hrun : Pool.Run machine World.Elapses (fun _ _ => True)
      (Pool.start (fun i => (requests i).program cfg) (.init now)) p) :
    (∀ cusno e, p.state.store (.batchProfile cusno) = some e →
      ∃ profile, e.value = .obj profile ∧ Fetched rt range Had cusno profile) ∧
    ∀ i response, (p.threads i).Returned (.resolved response) →
      ∀ profile, response.batchProfile = some profile →
        ∃ cusno, response.cusno = some cusno ∧ Fetched rt range Had cusno profile := by
  have hfollows (i : ι) : ((requests i).program cfg).Follows (storing (Fits (Fetched rt range Had)))
      (fun _ x => ∀ response, x = .ok response → ShowsOwn (Fetched rt range Had) response) () := by
    refine request_follows fun lookup k data heq cusno profile hstrip hlookup => ?_
    have hfetch := hfetches i
    rw [heq] at hfetch
    obtain ⟨bucket, order, hhad, hends⟩ := hfetch cusno (some profile) hlookup
    have hown := BatchProfile.ends_getBatchProfile hends
    rw [hstrip] at hown
    exact ⟨bucket, hhad, hown⟩
  have hinv := hrun.invariant
    (fun p => p.Conforms (fun _ => storing (Fits (Fetched rt range Had))) (fun _ => ())
      (fun _ _ x => ∀ response, x = .ok response → ShowsOwn (Fetched rt range Had) response) ∧
      p.state.Holds (Fits (Fetched rt range Had)))
    (fun p l q h _ hstep => ?_) ⟨Pool.conforms_start hfollows, nofun⟩
  · refine ⟨fun cusno e he => hinv.2 (.batchProfile cusno) e he, fun i response hret => ?_⟩
    exact hinv.1.returned hret _ rfl
  · refine ⟨h.1.step (fun i c _ => h.2.shows c) hstep, ?_⟩
    cases hstep with
    | call hprog _ => exact h.2.machine (h.1.allow hprog)
    | env he => exact h.2.elapses he
    | stop => exact h.2

namespace OwnBatchProfiles

open BatchProfile.ExactLookups (runtime bucket)

/-- Settings that are complete. -/
def settings : BatchProfile.MinioSettings :=
  { endpoint := "minio:9000", accessKey := some "reader", secretKey := some "secret" }

/-- The daily document of the sample, without a monthly one. -/
def found : Dict := [("daily", .obj [("CUSNO", .str "1007")])]

/-- What is answered for the customers of the sample. -/
def lookup : ProfileService.BatchLookup :=
  fun cusno => .ok (if cusno = "1007" then some found else none)

/-- A creation, an update for the first customer of the sample, and resolutions. -/
def requests : ℕ → Request
  | 0 => .createSession "gsess_1" "jti_0" {}
  | 1 => .updateRealtimePersonalContext lookup "gsess_1" [("cusnoN10", .str "1007")]
  | _ => .resolveSession { globalSessionKey := "gsess_1" }

/-- The daily document is found. -/
theorem ends_daily : (BatchProfile.retrieveSingleProfile settings runtime "daily" "1007").Ends
    (bucket.MayAnswer Json.slice) (.ok (.obj [("CUSNO", .str "1007")])) := by
  have hmem : BatchProfile.ExactLookups.record ∈ [BatchProfile.ExactLookups.record,
      BatchProfile.ExactLookups.recordOfList] := by simp
  have heval : (BatchProfile.retrieveCusno runtime "daily" "1007").eval
      (bucket.answer Json.slice) = .ok (.obj [("CUSNO", .str "1007")]) := by
    have hcusno : BatchProfile.ExactLookups.record.cusno = strip "1007" := rfl
    rw [BatchProfile.eval_retrieveCusno_found BatchProfile.ExactLookups.runtime_documented
      BatchProfile.ExactLookups.wellFormed hmem hcusno]
    rfl
  have hends := ends_eval (A := bucket.MayAnswer Json.slice) (fun _ => .inl rfl)
    (BatchProfile.retrieveCusno runtime "daily" "1007")
  rw [heval] at hends
  exact BatchProfile.ends_tryExcept_body hends

section Fetches

variable {settings : BatchProfile.MinioSettings} {rt : BatchProfile.Runtime}
  {range : Bytes → Json → Json → Except PyError Bytes} {b : BatchProfile.Bucket}
  (hdaily : (BatchProfile.retrieveSingleProfile settings rt "daily" "1007").Ends (b.MayAnswer range)
    (.ok (.obj [("CUSNO", .str "1007")])))
include hdaily

/-- The daily document is found and the other lookup fails. -/
theorem ends_found : (BatchProfile.getBatchProfile settings rt [] "1007").Ends (b.MayAnswer range)
    (.ok (some found)) := by
  have hfound : BatchProfile.batchResult (.obj [("CUSNO", .str "1007")]) .null = some found := rfl
  have hstrip : strip "1007" = "1007" := rfl
  rw [← hstrip] at hdaily
  rw [← hfound]
  exact BatchProfile.ends_of_lookups (by decide) hdaily
    (BatchProfile.ends_unconnected (.inr (.inr rfl)) _ _)

theorem fetches (i : ℕ) : (requests i).Fetches settings rt range (· = b) := by
  match i with
  | 0 => trivial
  | 1 =>
    intro cusno batch hbatch
    obtain rfl := Except.ok.inj hbatch
    refine ⟨b, [], rfl, ?_⟩
    split_ifs with hcusno
    · exact hcusno ▸ ends_found hdaily
    · exact BatchProfile.ends_missing (.inr (.inr rfl)) [] cusno
  | _ + 2 => trivial

end Fetches

/-- One request after the other. -/
def served : Pool redis ServiceError Response World ℕ :=
  Pool.schedule machine (Pool.start (fun i => (requests i).program .default) (.init 0))
    (List.replicate 11 0 ++ List.replicate 11 1 ++ List.replicate 9 2)

theorem returned_served : ∃ response, (served.threads 2).Returned (.resolved response) ∧
    response.batchProfile = some found := ⟨_, rfl, rfl⟩

/-- The batch profile that is shown at the end. -/
theorem batchProfiles_own_served : ∃ response, (served.threads 2).Returned (.resolved response) ∧
    response.batchProfile = some found ∧
    ∃ cusno, response.cusno = some cusno ∧ Fetched runtime Json.slice (· = bucket) cusno found := by
  obtain ⟨response, hreturned, hfound⟩ := returned_served
  have hrun : Pool.Run machine World.Elapses (fun _ _ => True)
      (Pool.start (fun i => (requests i).program .default) (.init 0)) served :=
    Pool.run_schedule _ _
  have hown := batchProfiles_own .default settings runtime Json.slice (· = bucket) requests
    (fetches ends_daily) 0 hrun
  exact ⟨response, hreturned, hfound, hown.2 2 response hreturned found hfound⟩

end OwnBatchProfiles

end SessionManager
