import SessionManager.OwnProfiles
import SessionManager.StoredText.Sent
import SessionManager.TokenRule

/-!
# The customer number of a profile

`update_realtime_personal_context` takes the customer number out of the profile twice: the route to
print it, the service to store the profile under it. Both are to find the same number in every
profile, or none.

* `Extracts`, `Readable`, `extracts_iff` — the number of a profile, and when it can be taken out.
* `Stored`, `service_stores`, `updateFound_stores` — what a request leaves of the profile.
* `Sendable`, `sent_service`, `sent_route` — what the client makes of the two programs when the text
  of the profile can be encoded, and `service_stores_nothing` when it cannot.
* `consistent_iff` — when both find the same number and the profile is stored under it.
-/

namespace SessionManager

open Python Interaction

namespace CustomerNumbers

open Program hiding pure

open TokenRule

variable {cfg : Config} {lookup : ProfileService.BatchLookup} {k : String} {data : Dict}
  {cusno : Option String}

/-! ### The number -/

/-- The service and the route find the customer number; what is blank is none. -/
def Extracts (data : Dict) (cusno : Option String) : Prop :=
  ProfileService.cusnoOf data = .ok cusno ∧
    ∃ shown, Routes.profileCusno data = .ok shown ∧ shown.filter (· ≠ "") = cusno

/-- There is a customer number at the top level, or nothing but an object under `responseData`. -/
def Readable (data : Dict) : Prop :=
  (Dict.get data "cusnoN10").truthy ∨ ∀ value, data.lookup "responseData" = some value →
    ∃ responseData, value = .obj responseData

/-- The number is taken from the same raw value. -/
theorem extracts_of_raw {raw : Json} (hservice : ProfileService.cusnoRaw data = .ok raw)
    (hroute : (if (Dict.get data "cusnoN10").truthy then .ok (Dict.get data "cusnoN10")
      else Routes.responseDataCusno data) = Except.ok raw) :
    Extracts data (ProfileService.cusnoOfRaw raw) := by
  refine ⟨by rw [ProfileService.cusnoOf, hservice]; rfl,
    if raw.truthy then some (strip raw.pyStr) else none, ?_, ?_⟩
  · unfold Routes.profileCusno
    dsimp only
    split at hroute
    · next htop =>
      rw [if_pos htop, hroute]
      rfl
    · next htop =>
      rw [if_neg htop, hroute]
      rfl
  · rw [ProfileService.cusnoOfRaw]
    split
    · rfl
    · rfl

/-- The service raises unless there is an object under `responseData`. -/
theorem responseDataCusno_eq_ok {raw : Json} (h : ProfileService.responseDataCusno data = .ok raw) :
    (∀ value, data.lookup "responseData" = some value → ∃ responseData, value = .obj responseData) ∧
      Routes.responseDataCusno data = .ok raw := by
  unfold ProfileService.responseDataCusno at h
  unfold Routes.responseDataCusno
  split at h
  · next hnone =>
    have hget : Dict.get data "responseData" = .null := by rw [Dict.get, hnone]; rfl
    rw [hget]
    refine ⟨fun value hvalue => ?_, ?_⟩
    · cases hnone.symm.trans hvalue
    · exact h
  · next responseData hsome =>
    have hget : Dict.get data "responseData" = .obj responseData := by rw [Dict.get, hsome]; rfl
    rw [hget]
    refine ⟨fun value hvalue => ⟨responseData, ?_⟩, ?_⟩
    · exact (Option.some.inj (hsome.symm.trans hvalue)).symm
    · -- an empty object has no number either
      cases responseData with
      | nil => exact h
      | cons entry rest => exact h
  · cases h

/-- The number can be taken out if and only if the service can read the profile. -/
theorem extracts_iff : (∃ cusno, Extracts data cusno) ↔ Readable data := by
  constructor
  · rintro ⟨cusno, hservice, -⟩
    rw [ProfileService.cusnoOf, ProfileService.cusnoRaw] at hservice
    by_cases htruthy : (Dict.get data "cusnoN10").truthy
    · exact .inl htruthy
    · simp only [if_neg htruthy] at hservice
      cases hraw : ProfileService.responseDataCusno data with
      | ok raw => exact .inr (responseDataCusno_eq_ok hraw).1
      | error e =>
        rw [hraw] at hservice
        cases hservice
  · intro hreadable
    by_cases htruthy : (Dict.get data "cusnoN10").truthy
    · exact ⟨_, extracts_of_raw (if_pos htruthy) (if_pos htruthy)⟩
    · have hobject := hreadable.resolve_left htruthy
      have hraw : ∃ raw, ProfileService.responseDataCusno data = .ok raw := by
        unfold ProfileService.responseDataCusno
        split
        · exact ⟨_, rfl⟩
        · exact ⟨_, rfl⟩
        · next value hflat hvalue =>
          obtain ⟨responseData, rfl⟩ := hobject value hvalue
          exact absurd rfl (hflat responseData)
      obtain ⟨raw, hraw⟩ := hraw
      exact ⟨_, extracts_of_raw ((if_neg htruthy).trans hraw)
        ((if_neg htruthy).trans (responseDataCusno_eq_ok hraw).2)⟩

/-! ### The profile -/

/-- The profile is stored under the customer number, which becomes that of session `k`, or under the
key of the session, whose number stays; and nothing is raised but what the repository of batch
profiles raises. -/
def Stored {α : Type} (lookup : ProfileService.BatchLookup) (k : String) (data : Dict)
    (cusno : Option String) (w : World) (x : Except ServiceError α) (w' : World) : Prop :=
  w'.profile (cusno.getD k) = some (.obj data) ∧
    w'.field k .cusno = cusno.or (w.field k .cusno) ∧
    ((∀ c, ∃ batch, lookup c = .ok batch) → ∃ response, x = .ok response)

section Storing

variable {env : World → World → Prop} {w : World}

/-- The service raises nothing of its own for a session that is there. -/
theorem updateRealtimePersonalContext_returns (hcusno : ProfileService.cusnoOf data = .ok cusno)
    (hsession : ∀ w w', env w w' → World.Keeps (.session k) w w') (hlive : (w.hash k).isSome)
    (hlookup : ∀ c, ∃ batch, lookup c = .ok batch) :
    (ProfileService.updateRealtimePersonalContext cfg lookup k data).Wp machine env
      (fun x _ => ∃ response, x = .ok response) w := by
  obtain ⟨e, he⟩ := LifeCycle.entry_of_live hlive
  refine hgetall_bind hsession he fun w₁ _ => ?_
  dsimp only
  rw [hcusno, ofExcept_ok, pure_bind', wp_iff_exec]
  intro x w₂ hexec
  cases x with
  | ok response => exact ⟨response, rfl⟩
  | error err =>
    have hraises : (ProfileService.storeProfiles cfg lookup k data cusno).Raises
        fun _ => False := by
      refine storeProfiles_raises lookup data cusno fun c err herr => ?_
      obtain ⟨batch, hbatch⟩ := hlookup c
      cases hbatch.symm.trans herr
    refine (Raises.exec (R := fun _ => False) ?_ hexec).elim
    exact hraises.bind fun batch => .perform_bind fun _ => .perform_bind fun _ => trivial

/-- The service stores a profile whose number it can read. -/
theorem service_stores (hcusno : ProfileService.cusnoOf data = .ok cusno)
    (hsession : ∀ w w', env w w' → World.Keeps (.session k) w w')
    (hprofile : ∀ w w', env w w' → World.Keeps (.realtimeProfile (cusno.getD k)) w w')
    (hlive : (w.hash k).isSome) :
    (ProfileService.updateRealtimePersonalContext cfg lookup k data).Wp machine env
      (Stored lookup k data cusno w) w := by
  by_cases hlookup : ∀ c, ∃ batch, lookup c = .ok batch
  · refine ((OwnProfiles.updateRealtimePersonalContext_spec hcusno hsession hprofile hlive).and
      (updateRealtimePersonalContext_returns hcusno hsession hlive hlookup)).mono fun x w' h => ?_
    obtain ⟨⟨-, hfield, hsaved⟩, hx⟩ := h
    exact ⟨hsaved, hfield, fun _ => hx⟩
  · refine (OwnProfiles.updateRealtimePersonalContext_spec hcusno hsession hprofile hlive).mono
      fun x w' h => ?_
    exact ⟨h.2.2, h.2.1, fun hall => absurd hall hlookup⟩

/-- So does the route, which passes on what the service raises. -/
theorem updateFound_stores (h : Extracts data cusno)
    (hsession : ∀ w w', env w w' → World.Keeps (.session k) w w')
    (hprofile : ∀ w w', env w w' → World.Keeps (.realtimeProfile (cusno.getD k)) w w')
    (hlive : (w.hash k).isSome) :
    (updateFound cfg lookup data k).Wp machine env (Stored lookup k data cusno w) w := by
  obtain ⟨hcusno, shown, hshown, -⟩ := h
  unfold updateFound
  rw [hshown, ofExcept_ok, pure_bind']
  refine wp_catchWith.mpr
    ((service_stores hcusno hsession hprofile hlive).mono fun x w' hstored => ?_)
  cases x with
  | ok response => exact hstored
  | error err =>
    obtain ⟨hsaved, hfield, hreturns⟩ := hstored
    refine ⟨hsaved, hfield, fun hlookup => ?_⟩
    obtain ⟨response, heq⟩ := hreturns hlookup
    cases heq

end Storing

/-! ### The client -/

section Sending

variable {lone : LoneSurrogates} {w : World}

/-- `json.dumps(profile, ensure_ascii=False)` has an encoding. -/
def Sendable (lone : LoneSurrogates) (profile : Dict) : Prop :=
  lone.Encodes ((Json.obj profile).text false)

instance (profile : Dict) : Decidable (Sendable lone profile) :=
  inferInstanceAs (Decidable (lone.Encodes _))

/-- The keys of the store have been sent by a client. -/
def SentKeys (lone : LoneSurrogates) (w : World) : Prop :=
  ∀ key, (w.store key).isSome → lone.Encodes key.text.toList

/-- The repository, as a client sees it that cannot send some of its answers. -/
def storable (lone : LoneSurrogates) (lookup : ProfileService.BatchLookup) :
    ProfileService.BatchLookup := fun cusno =>
  match lookup cusno with
  | .ok (some batch) =>
    if Sendable lone batch then .ok (some batch) else .error .unicodeEncode
  | answer => answer

theorem sendable_iff {profile : Dict} :
    Sendable lone profile ↔ lone.Encodes (Json.textEntries false profile) :=
  LoneSurrogates.encodes_between (by decide) (by decide)

/-- What `strip` leaves. -/
theorem encodes_strip {s : String} (h : lone.Encodes s.toList) : lone.Encodes (strip s).toList := by
  refine h.of_subset fun c hc => ?_
  rw [strip_toList] at hc
  exact (List.dropWhile_sublist _).subset ((List.rdropWhile_prefix _ _).subset hc)

/-- The value of a truthy key is there. -/
theorem lookup_of_truthy {d : Dict} {key : String} (h : (Dict.get d key).truthy) :
    d.lookup key = some (Dict.get d key) := by
  unfold Dict.get at h ⊢
  cases hlookup : d.lookup key with
  | none =>
    rw [hlookup] at h
    cases h
  | some value => rfl

/-- The customer number is made of characters of the profile, and of ASCII. -/
theorem encodes_cusno {number : String} (hdata : Sendable lone data)
    (hcusno : ProfileService.cusnoOf data = .ok (some number)) : lone.Encodes number.toList := by
  rw [ProfileService.cusnoOf] at hcusno
  cases hraw : ProfileService.cusnoRaw data with
  | error e =>
    rw [hraw] at hcusno
    cases hcusno
  | ok raw =>
    rw [hraw] at hcusno
    have hnumber : ProfileService.cusnoOfRaw raw = some number := Except.ok.inj hcusno
    have hentries := sendable_iff.mp hdata
    -- the number stands in the profile, at the top level or in `responseData`
    have htext : raw.truthy → lone.Encodes (raw.text false) := by
      intro htruthy
      unfold ProfileService.cusnoRaw at hraw
      dsimp only at hraw
      split at hraw
      · next htop =>
        obtain rfl := Except.ok.inj hraw
        exact LoneSurrogates.encodes_lookup hentries (lookup_of_truthy htop)
      · unfold ProfileService.responseDataCusno at hraw
        split at hraw
        · obtain rfl := Except.ok.inj hraw
          cases htruthy
        · next responseData hlookup =>
          obtain rfl := Except.ok.inj hraw
          have hinner := LoneSurrogates.encodes_lookup hentries hlookup
          exact LoneSurrogates.encodes_lookup (sendable_iff.mp hinner) (lookup_of_truthy htruthy)
        · cases hraw
    unfold ProfileService.cusnoOfRaw at hnumber
    split at hnumber
    · next htruthy =>
      obtain ⟨hstripped, -⟩ := Option.filter_eq_some_iff.mp hnumber
      obtain rfl := Option.some.inj hstripped
      exact encodes_strip (LoneSurrogates.encodes_pyStr (htext htruthy))
    · cases hnumber

/-- Storing a profile that can be sent under a number that can. -/
theorem setProfile_sends {key : Key} {v : key.Value} (hkey : lone.Encodes key.text.toList)
    (hv : lone.Encodes (plainString key v).toList) (ttl : Option ℕ) :
    (RedisHelper.setProfile cfg key v ttl).Only fun c => lone.sends c :=
  ⟨by simp [LoneSurrogates.sends, hkey, hv], fun _ =>
    ⟨by simp [LoneSurrogates.sends, hkey], fun _ => trivial⟩⟩

/-- Setting a session's number. -/
theorem update_sends {number : String} (hk : lone.Encodes k.toList)
    (hnumber : lone.Encodes number.toList) :
    (SessionRepository.update k (ProfileService.cusnoUpdates number)).Only
      fun c => lone.sends c := by
  rw [SessionRepository.update_eq]
  have hsession : lone.Encodes (Key.session k).text.toList := LoneSurrogates.encodes_key.mpr hk
  refine .perform_bind rfl fun now =>
    .perform_bind (by simp [LoneSurrogates.sends, hsession]) fun found => ?_
  -- the mapping has the number and the instant of the update
  have hhset : lone.sends (.hset k ((ProfileService.cusnoUpdates number).set .updatedAt now)) := by
    simp only [LoneSurrogates.sends, hsession, decide_true, Bool.true_and, List.all_eq_true]
    intro f _
    cases f <;> simp [ProfileService.cusnoUpdates, Hash.set, Hash.empty, Field.plain, hnumber,
      LoneSurrogates.encodes_isoformat]
  have hget : lone.sends (.hgetall k) := by simp [LoneSurrogates.sends, hsession]
  refine Only.bind ?_ fun _ => .perform_bind hget fun updated => trivial
  cases found with
  | false => trivial
  | true => exact only_perform.mpr hhset

/-- A batch profile is stored, or the client raises when it encodes it. -/
theorem sent_storeBatchProfile {number : String} (hnumber : lone.Encodes number.toList) :
    lone.sent (do
        let batch ← Program.ofExcept (lookup number)
        ProfileService.storeBatchProfile cfg number batch
        pure batch) = (do
        let batch ← Program.ofExcept (storable lone lookup number)
        ProfileService.storeBatchProfile cfg number batch
        pure batch) := by
  have hkey : lone.Encodes (Key.batchProfile number).text.toList :=
    LoneSurrogates.encodes_key.mpr hnumber
  cases hlookup : lookup number with
  | error e => simp only [storable, hlookup]; rfl
  | ok batch =>
    cases batch with
    | none => simp only [storable, hlookup]; rfl
    | some batch =>
      by_cases hbatch : Sendable lone batch
      · have hstored : (ProfileService.storeBatchProfile cfg number (some batch)).Only
            fun c => lone.sends c := by
          unfold ProfileService.storeBatchProfile
          split
          · next batch' hfilter =>
            obtain ⟨heq, -⟩ := Option.filter_eq_some_iff.mp hfilter
            obtain rfl := Option.some.inj heq
            refine setProfile_sends hkey ?_ _
            rwa [plainString, String.toList_ofList]
          · exact only_pure
        have hsent : lone.sent (do
              ProfileService.storeBatchProfile cfg number (some batch)
              pure (some batch)) = (do
              ProfileService.storeBatchProfile cfg number (some batch)
              pure (some batch)) :=
          LoneSurrogates.sent_of_only (hstored.bind fun _ => only_pure)
        have hanswer : storable lone lookup number = .ok (some batch) := by
          simp only [storable, hlookup, if_pos hbatch]
        rw [hanswer, ofExcept_ok, pure_bind']
        exact hsent
      · -- an empty profile is not stored, but that one could be sent
        have hstores : ProfileService.batchToStore (some batch) = some batch := by
          cases batch with
          | nil => exact absurd (LoneSurrogates.encodes_of_ascii (by decide)) hbatch
          | cons entry rest => rfl
        have hrefused : lone.refusal (.set (.batchProfile number) (Json.obj batch)) =
            some .unicodeEncode := by
          have hsends : ¬ lone.sends (.set (.batchProfile number) (Json.obj batch)) := by
            simpa [LoneSurrogates.sends, plainString, hkey, Sendable] using hbatch
          exact if_neg hsends
        have hsent := checked_call_of_some hrefused fun _ =>
          (issue (.expire (.batchProfile number) (ttlOr cfg none)) >>= fun _ =>
            pure (some batch) : Svc (Option Dict))
        have hanswer : storable lone lookup number = .error .unicodeEncode := by
          simp only [storable, hlookup, if_neg hbatch]
        rw [hanswer, ofExcept_ok, pure_bind']
        simp only [ProfileService.storeBatchProfile, hstores]
        exact hsent

/-- The client sends all of the service's commands, or finds out when it stores the batch profile
that it cannot. -/
theorem sent_storeProfiles (hk : lone.Encodes k.toList) (hdata : Sendable lone data)
    (hcusno : ∀ number, cusno = some number → lone.Encodes number.toList) :
    lone.sent (ProfileService.storeProfiles cfg lookup k data cusno) =
      ProfileService.storeProfiles cfg (storable lone lookup) k data cusno := by
  have hprofile (number : String) (hnumber : lone.Encodes number.toList) :
      (RedisHelper.setRealtimeProfile cfg number data).Only fun c => lone.sends c := by
    refine setProfile_sends (LoneSurrogates.encodes_key.mpr hnumber) ?_ _
    rwa [plainString, String.toList_ofList]
  cases cusno with
  | none =>
    exact LoneSurrogates.sent_of_only ((hprofile k hk).bind fun _ => trivial)
  | some number =>
    have hnumber := hcusno number rfl
    unfold ProfileService.storeProfiles
    rw [LoneSurrogates.sent_bind, LoneSurrogates.sent_of_only (update_sends hk hnumber)]
    refine congrArg _ (funext fun _ => ?_)
    rw [LoneSurrogates.sent_bind, LoneSurrogates.sent_of_only (hprofile number hnumber)]
    exact congrArg _ (funext fun _ => sent_storeBatchProfile hnumber)

/-- The service with a client is the service with a repository that answers what can be sent. -/
theorem sent_service (hk : lone.Encodes k.toList) (hdata : Sendable lone data) :
    lone.sent (ProfileService.updateRealtimePersonalContext cfg lookup k data) =
      ProfileService.updateRealtimePersonalContext cfg (storable lone lookup) k data := by
  have hget : (SessionRepository.get k).Only fun c => lone.sends c :=
    only_perform.mpr (by simp [LoneSurrogates.sends, LoneSurrogates.encodes_key, Key.id, hk])
  unfold ProfileService.updateRealtimePersonalContext
  rw [LoneSurrogates.sent_bind, LoneSurrogates.sent_of_only hget]
  refine congrArg _ (funext fun session => ?_)
  cases session with
  | none => rfl
  | some session =>
    cases hcusno : ProfileService.cusnoOf data with
    | error e => rfl
    | ok cusno =>
      rw [ofExcept_ok, pure_bind', pure_bind', LoneSurrogates.sent_bind,
        sent_storeProfiles hk hdata fun number hnumber => encodes_cusno hdata (hnumber ▸ hcusno)]
      exact congrArg _ (funext fun batch => LoneSurrogates.sent_of_only
        (.perform_bind rfl fun _ => .perform_bind rfl fun _ => trivial))

/-- So is what the route does with the session it has found: its handler passes on what the client
raises. -/
theorem sent_updateFound (hk : lone.Encodes k.toList) (hdata : Sendable lone data) :
    lone.sent (updateFound cfg lookup data k) = updateFound cfg (storable lone lookup) data k := by
  unfold updateFound
  rw [LoneSurrogates.sent_bind]
  cases hshown : Routes.profileCusno data with
  | error e => rfl
  | ok shown =>
    rw [ofExcept_ok, pure_bind', ← sent_service hk hdata]
    refine (checked_catchWith _ fun c e he => ?_).trans rfl
    rw [LoneSurrogates.eq_of_refusal he]
    rfl

/-- What is live under a key is stored under it. -/
theorem stored_of_get {key : Key} {v : key.Value} (h : w.store.get w.now key = some v) :
    (w.store key).isSome := by
  obtain ⟨e, he, -⟩ := TtlStore.get_eq_some_iff.mp h
  rw [(TtlStore.lookup_eq_some_iff.mp he).1]
  rfl

/-- The key of a session that is there can be encoded. -/
theorem encodes_of_live (hkeys : SentKeys lone w) (hlive : (w.hash k).isSome) :
    lone.Encodes k.toList := by
  obtain ⟨h, hhash⟩ := Option.isSome_iff_exists.mp hlive
  exact LoneSurrogates.encodes_key.mp (hkeys (.session k) (stored_of_get hhash))

/-- A token that is presented is looked up under a key that can be encoded. -/
theorem sent_getGlobalSessionKeyFromToken (hkeys : SentKeys lone w) {token : Token}
    {payload : Payload} (hpresents : Presents token payload k w) :
    lone.sent (getGlobalSessionKeyFromToken token) = getGlobalSessionKeyFromToken token := by
  obtain ⟨rfl, -, -, ⟨jti, hclaim, hjti⟩, -⟩ := hpresents
  have hkey := hkeys (.jti jti) (stored_of_get hjti)
  refine LoneSurrogates.sent_of_only ?_
  rw [getGlobalSessionKeyFromToken_signed]
  refine .perform_bind rfl fun now => ?_
  cases haccepted : acceptedJti none payload now with
  | error e => trivial
  | ok jti' =>
    obtain rfl : jti = jti' :=
      Option.some.inj (hclaim.symm.trans (acceptedJti_eq_ok.mp haccepted).2.2.2)
    have hget : lone.sends (.get (.jti jti)) := by simp [LoneSurrogates.sends, hkey]
    rw [ofExcept_ok, pure_bind', sessionOfJti]
    refine Only.bind (.perform_bind hget fun reply => only_pure) fun found => ?_
    cases found <;> trivial

/-- A request with a token that names the session. -/
theorem route_stores (h : Extracts data cusno) (hdata : Sendable lone data)
    (hkeys : SentKeys lone w) {request : Routes.TokenHeaders} {token : Token} {payload : Payload}
    (htoken : Routes.requestToken request = some token)
    (hpresents : Presents token payload k w) (hlive : (w.hash k).isSome) :
    (lone.sent (Routes.updateRealtimePersonalContext cfg lookup request data)).Wp machine Eq
      (Stored (storable lone lookup) k data cusno w) w := by
  rw [route_eq cfg lookup htoken, LoneSurrogates.sent_bind,
    sent_getGlobalSessionKeyFromToken hkeys hpresents]
  obtain ⟨payload', k', hpresents', hrun⟩ | ⟨hnone, -⟩ := getGlobalSessionKeyFromToken_run token w
  · obtain ⟨-, rfl⟩ := hpresents.unique hpresents'
    rw [wp_bind_of_run hrun, sent_updateFound (encodes_of_live hkeys hlive) hdata]
    exact updateFound_stores h (fun _ _ => World.Keeps.of_eq) (fun _ _ => World.Keeps.of_eq) hlive
  · exact absurd ⟨payload, k, hpresents⟩ hnone

/-- The command saves no realtime profile but the one given. -/
def Saves (data : Dict) : Command → Prop
  | .set (.realtimeProfile _) v => v = .obj data
  | .setex (.realtimeProfile _) _ _ => False
  | _ => True

theorem service_saves (cfg : Config) (lookup : ProfileService.BatchLookup) (k : String)
    (data : Dict) :
    (ProfileService.updateRealtimePersonalContext cfg lookup k data).Only (Saves data) := by
  have hupdate (number : String) : (SessionRepository.update k
      (ProfileService.cusnoUpdates number)).Only (Saves data) := by
    rw [SessionRepository.update_eq]
    refine .perform_bind trivial fun now => .perform_bind trivial fun found => ?_
    refine Only.bind ?_ fun _ => .perform_bind trivial fun updated => only_pure
    cases found with
    | false => exact only_pure
    | true => exact only_perform.mpr trivial
  have hprofile (u : String) : (RedisHelper.setRealtimeProfile cfg u data).Only (Saves data) :=
    .perform_bind rfl fun _ => only_perform.mpr trivial
  have hbatch (number : String) (batch : Option Dict) :
      (ProfileService.storeBatchProfile cfg number batch).Only (Saves data) := by
    unfold ProfileService.storeBatchProfile
    split
    · exact .perform_bind trivial fun _ => only_perform.mpr trivial
    · exact only_pure
  refine .perform_bind trivial fun session => ?_
  cases session with
  | none => exact only_throw
  | some session =>
    -- the profiles are stored before the log record
    refine only_ofExcept.bind fun cusno => Only.bind ?_ fun batch =>
      .perform_bind trivial fun _ => .perform_bind trivial fun _ => only_pure
    cases cusno with
    | none => exact (hprofile k).bind fun _ => only_pure
    | some number =>
      exact (hupdate number).bind fun _ => (hprofile number).bind fun _ =>
        only_ofExcept.bind fun batch => (hbatch number batch).bind fun _ => only_pure

/-- A client that cannot encode the profile stores no realtime profile. -/
theorem service_stores_nothing (hdata : ¬ Sendable lone data)
    (hnone : ∀ u, w.store (.realtimeProfile u) = none) :
    (lone.sent (ProfileService.updateRealtimePersonalContext cfg lookup k data)).Wp machine Eq
      (fun _ w' => ∀ u, w'.profile u = none) w := by
  refine (Wp.of_only (I := fun w' => ∀ u, w'.store (.realtimeProfile u) = none)
    (Only.checked (service_saves cfg lookup k data)) (fun w w' h hI => h ▸ hI) ?_ hnone).mono
    fun _ w' hw' u => ?_
  · rintro c w' ⟨hsaves, hrefusal⟩ hI u
    have hsends := LoneSurrogates.refusal_eq_none.mp hrefusal
    by_cases hchanges : c.changes = some (.realtimeProfile u)
    · cases c <;> simp only [Command.changes, Option.some.injEq, reduceCtorEq] at hchanges
      case set key v =>
        subst hchanges
        obtain rfl : v = .obj data := hsaves
        -- the command that would save the profile is refused
        simp [LoneSurrogates.sends, plainString, Sendable] at hsends hdata
        exact absurd hsends.2 hdata
      case setex key seconds v =>
        subst hchanges
        exact hsaves.elim
      case expire key seconds =>
        subst hchanges
        -- there is nothing to expire
        have hsame : w'.store.expire w'.now (.realtimeProfile u) (w'.after seconds) = w'.store := by
          rw [TtlStore.expire, TtlStore.lookup, hI u]
        exact (congrFun hsame _).trans (hI u)
      case del key =>
        subst hchanges
        exact Function.update_self _ _ _
    · rw [machine_store_of_ne hchanges]
      exact hI u
  · exact TtlStore.get_eq_none_iff.mpr (by rw [TtlStore.lookup, hw' u])

end Sending

/-! ### Consistency -/

/-- The number of a profile is extracted, and for every session the service, whatever time passes
without an expiry, and the route store the profile accordingly, with a client that encodes what it
sends. -/
def Consistent (lone : LoneSurrogates) (cfg : Config) (lookup : ProfileService.BatchLookup)
    (data : Dict) : Prop :=
  ∃ cusno, Extracts data cusno ∧ ∀ k w, SentKeys lone w → (w.hash k).isSome →
    (∀ env : World → World → Prop, (∀ w w', env w w' → World.Keeps (.session k) w w' ∧
        World.Keeps (.realtimeProfile (cusno.getD k)) w w') →
      (lone.sent (ProfileService.updateRealtimePersonalContext cfg lookup k data)).Wp machine env
        (Stored (storable lone lookup) k data cusno w) w) ∧
    ∀ request token payload, Routes.requestToken request = some token →
      Presents token payload k w →
      (lone.sent (Routes.updateRealtimePersonalContext cfg lookup request data)).Wp machine Eq
        (Stored (storable lone lookup) k data cusno w) w

/-- The extraction is total and consistent if and only if the profile is readable and its text can
be encoded. -/
theorem consistent_iff (lone : LoneSurrogates) (cfg : Config) (lookup : ProfileService.BatchLookup)
    (data : Dict) :
    Consistent lone cfg lookup data ↔ Readable data ∧ Sendable lone data := by
  constructor
  · rintro ⟨cusno, hextracts, hstores⟩
    refine ⟨extracts_iff.mp ⟨cusno, hextracts⟩, ?_⟩
    by_contra hdata
    -- a session that is all there is in the store
    have hothers : ∀ key, key ≠ .session "" →
        ((World.init 0).hset "" Hash.empty).store key = none := fun key hkey =>
      Function.update_of_ne hkey _ _
    have hkeys : SentKeys lone ((World.init 0).hset "" Hash.empty) := by
      intro key hkey
      by_cases hsession : key = .session ""
      · rw [hsession]
        exact LoneSurrogates.encodes_key.mpr nofun
      · rw [hothers key hsession] at hkey
        cases hkey
    have hservice := (hstores "" _ hkeys rfl).1 Eq fun w w' h =>
      ⟨World.Keeps.of_eq h, World.Keeps.of_eq h⟩
    have hnothing := @service_stores_nothing cfg lookup "" data lone _ hdata fun u =>
      hothers (.realtimeProfile u) nofun
    obtain ⟨⟨hsaved, -⟩, hnone⟩ := (hservice.and hnothing).exec (.of_run (fun _ => rfl) _ _)
    rw [hnone] at hsaved
    cases hsaved
  · rintro ⟨hreadable, hdata⟩
    obtain ⟨cusno, hextracts⟩ := extracts_iff.mpr hreadable
    refine ⟨cusno, hextracts, fun k w hkeys hlive => ⟨fun env henv => ?_, ?_⟩⟩
    · rw [sent_service (encodes_of_live hkeys hlive) hdata]
      exact service_stores hextracts.1 (fun w w' h => (henv w w' h).1)
        (fun w w' h => (henv w w' h).2) hlive
    · intro request token payload htoken hpresents
      exact route_stores hextracts hdata hkeys htoken hpresents hlive

/-! ### A profile with `null` under `responseData` -/

/-- The profile. -/
def nullResponse : Dict := [("responseData", .null)]

/-- The route finds no number in it, and the service raises `AttributeError`. -/
theorem not_consistent : Routes.profileCusno nullResponse = .ok none ∧
    ProfileService.cusnoOf nullResponse = .error .attribute ∧
    ¬ Consistent .none .default (fun _ => .ok none) nullResponse := by
  have hservice : ProfileService.cusnoOf nullResponse = .error .attribute := by decide
  refine ⟨by decide, hservice, ?_⟩
  rintro ⟨cusno, ⟨hcusno, -⟩, -⟩
  cases hservice.symm.trans hcusno

end CustomerNumbers

end SessionManager
