import SessionManager.StoredText.Programs

/-!
# The services on texts

The methods of `AuthService`, `ProfileService` and `SessionService`, as programs that do not see the
order of keys. What a request brings with it must be what `json.loads` can return.

* `BatchLookup.Valid`, `SolTransaction.Valid`, `StatePatch.Valid` — such inputs.
* `patchUpdates_valid`, `turnData_valid` — what is written from them can be read back.
* One lemma for each method; `resolveSession` is in the next module.
-/

namespace SessionManager

open Python Interaction RedisHelper

variable {cfg : Config} {floatRepr : String → String}

/-! ### core/jwt.py and core/jwt_auth.py -/

theorem createAccessToken_stable (jti userId : String) :
    Stable cfg floatRepr (fun _ => True) (createAccessToken cfg jti userId) :=
  Stable.now.bind fun _ _ => Stable.now.bind fun _ _ => .pure trivial

theorem createRefreshToken_stable (jti userId : String) :
    Stable cfg floatRepr (fun _ => True) (createRefreshToken cfg jti userId) :=
  Stable.now.bind fun _ _ => Stable.now.bind fun _ _ => .pure trivial

theorem verifyToken_stable (token : Token) :
    Stable cfg floatRepr (fun _ => True) (verifyToken token) := by
  cases token with
  | invalid text => exact .pure trivial
  | signed p => exact Stable.now.bind fun _ _ => .pure trivial

theorem sessionKeyOfPayload_stable (payload : Payload) :
    Stable cfg floatRepr (fun _ => True) (sessionKeyOfPayload payload) := by
  unfold sessionKeyOfPayload
  split
  · exact .throw _
  · refine (getGlobalSessionKeyByJti_stable _).bind fun k _ => ?_
    cases k with
    | none => exact .throw _
    | some k => exact .pure trivial

theorem getGlobalSessionKeyFromToken_stable (token : Token) :
    Stable cfg floatRepr (fun _ => True) (getGlobalSessionKeyFromToken token) := by
  refine (verifyToken_stable token).bind fun verified _ => ?_
  cases verified with
  | error detail => exact .throw _
  | ok payload => exact (sessionKeyOfPayload_stable payload).bind fun _ _ => .pure trivial

theorem authenticate_stable (token : Token) (type : String) :
    Stable cfg floatRepr (fun _ => True) (authenticate token type) := by
  refine (verifyToken_stable token).bind fun verified _ => ?_
  cases verified with
  | error detail => exact .throw _
  | ok payload =>
    dsimp only
    split_ifs
    · exact (sessionKeyOfPayload_stable payload).bind fun _ _ => .pure trivial
    · exact .throw _

/-! ### AuthService -/

theorem eslog_stable (record : LoggerExtraData) :
    Stable cfg floatRepr (fun _ => True) (issue (.eslog record)) :=
  .unit (c := .eslog record) trivial fun _ => rfl

/-- What is written at the end of a session can be read back. -/
theorem closeUpdates_valid (closeReason : Option String) {now : ℕ} (hnow : now < endOfTime) :
    (closeUpdates closeReason now).Valid floatRepr := by
  intro f v hf
  cases f
  case endedAt =>
    obtain rfl := Option.some.inj hf
    exact hnow
  case sessionState | closeReason => trivial
  all_goals cases hf

theorem lt_endOfTime {now : ℕ} (h : SessionRepository.expiry cfg now < endOfTime) :
    now < endOfTime := (Nat.le_add_right now _).trans_lt h

namespace AuthService

theorem createTokens_stable (userId k jti : String) :
    Stable cfg floatRepr (fun _ => True) (createTokens cfg userId k jti) :=
  (setJtiMapping_stable jti k _).bind fun _ _ =>
    (createAccessToken_stable jti userId).bind fun _ _ =>
      (createRefreshToken_stable jti userId).bind fun _ _ => .pure trivial

theorem verifyTokenAndGetSession_stable (token : Token) :
    Stable cfg floatRepr (fun _ => True) (verifyTokenAndGetSession token) := by
  refine (authenticate_stable token "access").bind fun checked _ => ?_
  obtain ⟨_, jti, k⟩ := checked
  refine getSession_bind k ?_ fun session _ => ?_
  · exact (eslog_stable _).bind fun _ _ => .pure trivial
  · have hsame : verifyResponse k (some session.norm) = verifyResponse k (some session) := by
      have hstate : session.norm .sessionState = session .sessionState :=
        Hash.norm_apply (fun _ => rfl) session
      have hexpires : session.norm .expiresAt = session .expiresAt :=
        Hash.norm_apply (fun _ => rfl) session
      rw [verifyResponse, verifyResponse, hstate, hexpires]
    rw [hsame]
    exact (eslog_stable _).bind fun _ _ => .pure trivial

theorem refreshToken_stable (newJti : String) (token : Token) :
    Stable cfg floatRepr (fun _ => True) (refreshToken cfg newJti token) := by
  refine (authenticate_stable token "refresh").bind fun checked _ => ?_
  obtain ⟨payload, jti, k⟩ := checked
  refine Program.Related.bind (SessionRepository.refreshTtl_related k) fun _ _ _ => ?_
  refine (createAccessToken_stable newJti _).bind fun _ _ => ?_
  refine (createRefreshToken_stable newJti _).bind fun _ _ => ?_
  refine (Stable.unit (c := .del (.jti jti)) trivial fun _ => rfl).bind fun _ _ => ?_
  refine (setJtiMapping_stable newJti k _).bind fun _ _ => ?_
  exact (eslog_stable _).bind fun _ _ => .pure trivial

theorem pingSessionByToken_stable (token : Token) :
    Stable cfg floatRepr (fun _ => True) (pingSessionByToken token) := by
  refine (getGlobalSessionKeyFromToken_stable token).bind fun k _ => ?_
  refine getSession_bind k ⟨rfl, trivial⟩ fun session _ => ?_
  have hexpires : session.norm .expiresAt = session .expiresAt :=
    Hash.norm_apply (fun _ => rfl) session
  dsimp only
  rw [hexpires]
  exact ⟨rfl, trivial⟩

theorem jtiToDelete_stable (token : Token) :
    Stable cfg floatRepr (fun _ => True) (jtiToDelete token) := by
  refine (verifyToken_stable token).bind fun verified _ => ?_
  cases verified with
  | error _ => exact .pure trivial
  | ok payload => exact .pure trivial

theorem deleteJti_stable (jti : Option String) :
    Stable cfg floatRepr (fun _ => True) (deleteJti jti) := by
  cases jti with
  | none => exact .pure trivial
  | some jti => exact .unit (c := .del (.jti jti)) trivial fun _ => rfl

theorem closeSessionByToken_stable (token : Token) (closeReason : Option String) :
    Stable cfg floatRepr (fun _ => True) (closeSessionByToken token closeReason) := by
  refine (getGlobalSessionKeyFromToken_stable token).bind fun k _ => ?_
  refine getSession_bind k rfl fun session _ => ?_
  refine Stable.now.bind fun now hnow => ?_
  have hv : (closeUpdates closeReason now).Valid floatRepr :=
    closeUpdates_valid closeReason (lt_endOfTime hnow)
  refine Program.Related.bind (SessionRepository.update_related k hv) fun _ _ _ => ?_
  refine (jtiToDelete_stable token).bind fun jti _ => ?_
  refine (deleteJti_stable jti).bind fun _ _ => ?_
  exact (eslog_stable _).bind fun _ _ => .pure trivial

end AuthService

/-! ### ProfileService -/

namespace ProfileService

/-- The batch profiles that the repository returns come from JSON. -/
def BatchLookup.Valid (floatRepr : String → String) (lookup : BatchLookup) : Prop :=
  ∀ cusno batch, lookup cusno = .ok (some batch) → (Json.obj batch).Valid floatRepr

theorem getBatchAndRealtimeProfiles_stable (cusno : String) :
    Stable cfg floatRepr
      (fun profiles => (∀ v, profiles.1 = some v → Field.ValidDict floatRepr v) ∧
        ∀ v, profiles.2 = some v → Field.ValidDict floatRepr v)
      (getBatchAndRealtimeProfiles cusno) :=
  (getProfile_stable (.batchProfile cusno) trivial).bind fun _ hbatch =>
    (getProfile_stable (.realtimeProfile cusno) trivial).bind fun _ hrealtime =>
      .pure ⟨hbatch, hrealtime⟩

theorem storeBatchProfile_stable (cusno : String) {batch : Option Dict}
    (hv : ∀ d, batch = some d → (Json.obj d).Valid floatRepr) :
    Stable cfg floatRepr (fun _ => True) (storeBatchProfile cfg cusno batch) := by
  unfold storeBatchProfile
  cases hstore : batchToStore batch with
  | none => exact .pure trivial
  | some d =>
    have hd := (Option.filter_eq_some_iff.mp hstore).1
    exact setProfile_stable (.batchProfile cusno) trivial ⟨hv d hd, d, rfl⟩ none

theorem storeProfiles_stable {lookup : BatchLookup} (hlookup : lookup.Valid floatRepr) (k : String)
    {profileData : Dict} (hv : (Json.obj profileData).Valid floatRepr) (cusno : Option String) :
    Stable cfg floatRepr (fun _ => True) (storeProfiles cfg lookup k profileData cusno) := by
  cases cusno with
  | none =>
    exact (setProfile_stable (.realtimeProfile k) trivial ⟨hv, _, rfl⟩ none).bind
      fun _ _ => .pure trivial
  | some cusno =>
    have hupdates : (cusnoUpdates cusno).Valid floatRepr :=
      Hash.Valid.empty.set (f := .cusno) trivial
    refine Program.Related.bind (SessionRepository.update_related k hupdates) fun _ _ _ => ?_
    refine (setProfile_stable (.realtimeProfile cusno) trivial ⟨hv, _, rfl⟩ none).bind
      fun _ _ => ?_
    -- the batch profile is written as the repository has returned it
    have hfound : ∀ batch, lookup cusno = .ok batch →
        ∀ d, batch = some d → (Json.obj d).Valid floatRepr := by
      rintro batch hbatch d rfl
      exact hlookup cusno d hbatch
    refine (Stable.ofExcept hfound).bind fun batch hbatch => ?_
    exact (storeBatchProfile_stable cusno hbatch).bind fun _ _ => .pure trivial

theorem updateRealtimePersonalContext_stable {lookup : BatchLookup}
    (hlookup : lookup.Valid floatRepr) (k : String) {profileData : Dict}
    (hv : (Json.obj profileData).Valid floatRepr) :
    Stable cfg floatRepr (fun _ => True)
      (updateRealtimePersonalContext cfg lookup k profileData) := by
  refine getSession_bind k rfl fun session _ => ?_
  refine (Stable.ofExcept fun _ _ => trivial).bind fun cusno (_ : True) => ?_
  refine (storeProfiles_stable hlookup k hv cusno).bind fun batch _ => ?_
  refine (eslog_stable _).bind fun _ _ => ?_
  exact Stable.now.bind fun _ _ => .pure trivial

end ProfileService

/-! ### SessionService -/

/-- The body of a transaction comes from JSON. -/
def SolTransaction.Valid (floatRepr : String → String) (t : SolTransaction) : Prop :=
  ∀ d, t.body = .inr d → (Json.obj d).Valid floatRepr

/-- The bodies in the request come from JSON. -/
def SolApiResultRequest.Valid (floatRepr : String → String) (request : SolApiResultRequest) :
    Prop :=
  (∀ ts, request.transactionPayload = some ts → ∀ t ∈ ts, t.Valid floatRepr) ∧
    ∀ ts, request.transactionResult = some ts → ∀ t ∈ ts, t.Valid floatRepr

/-- What the patch brings with it comes from JSON. -/
structure StatePatch.Valid (floatRepr : String → String) (patch : StatePatch) : Prop where
  referenceInformation : ∀ d, patch.referenceInformation = some d → (Json.obj d).Valid floatRepr
  sessionAttributes : ∀ d, patch.sessionAttributes = some d → (Json.obj d).Valid floatRepr
  turnCount : ∀ n, patch.turnCount = some n → (Json.int n).Valid floatRepr

/-- What the request brings with it comes from JSON. -/
def SessionPatchRequest.Valid (floatRepr : String → String) (request : SessionPatchRequest) :
    Prop :=
  ∀ patch, request.statePatch = some patch → patch.Valid floatRepr

namespace SessionService

/-! What is written -/

theorem optJson_valid (s : Option String) : (optJson s).Valid floatRepr := by
  cases s <;> trivial

theorem validValues_append {entries entries' : List (String × Json)}
    (h : Json.ValidValues floatRepr entries) (h' : Json.ValidValues floatRepr entries') :
    Json.ValidValues floatRepr (entries ++ entries') := by
  rw [Json.validValues_iff] at h h' ⊢
  intro entry hmem
  rcases List.mem_append.mp hmem with hmem | hmem
  · exact h entry hmem
  · exact h' entry hmem

theorem validValues_optEntry (key : String) {v : Option Json}
    (h : ∀ x, v = some x → x.Valid floatRepr) :
    Json.ValidValues floatRepr (optEntry key v) := by
  cases v with
  | none => trivial
  | some x => exact ⟨h x rfl, trivial⟩

/-- An optional entry has its key or none. -/
theorem optEntry_keys (key : String) (v : Option Json) :
    ((optEntry key v).map Prod.fst).Sublist [key] := by
  cases v with
  | none => exact List.nil_sublist _
  | some x => exact List.Sublist.refl _

theorem map_str_valid (s : Option String) :
    ∀ x, s.map Json.str = some x → x.Valid floatRepr := by
  rintro x hx
  obtain ⟨s, -, rfl⟩ := Option.map_eq_some_iff.mp hx
  trivial

theorem transactionDict_valid {bodyKey : String} (hkey : bodyKey ≠ "trxCd") {t : SolTransaction}
    (ht : t.Valid floatRepr) : (transactionDict bodyKey t).Valid floatRepr := by
  have hkeys : ["trxCd", bodyKey].Nodup := by simpa using hkey.symm
  refine ⟨hkeys, trivial, ?_, trivial⟩
  cases hbody : t.body with
  | inl s => trivial
  | inr d => exact ht d hbody

theorem transactionList_valid {bodyKey : String} (hkey : bodyKey ≠ "trxCd")
    {ts : Option (List SolTransaction)} (hts : ∀ l, ts = some l → ∀ t ∈ l, t.Valid floatRepr) :
    ∀ x, transactionList bodyKey ts = some x → x.Valid floatRepr := by
  rintro x hx
  obtain ⟨l, hl, rfl⟩ := Option.map_eq_some_iff.mp hx
  have hvalid := hts l (Option.filter_eq_some_iff.mp hl).1
  refine Json.validItems_iff.mpr fun item hitem => ?_
  obtain ⟨t, ht, rfl⟩ := List.mem_map.mp hitem
  exact transactionDict_valid hkey (hvalid t ht)

theorem block_valid {entries : Dict} (h : (Json.obj entries).Valid floatRepr) :
    ∀ x, block entries = some x → x.Valid floatRepr := by
  unfold block
  split_ifs
  · nofun
  · rintro x ⟨⟩
    exact h

theorem requestBlock_valid {request : SolApiResultRequest} (hv : request.Valid floatRepr) :
    (Json.obj (requestBlock request)).Valid floatRepr :=
  ⟨(optEntry_keys _ _).nodup (List.nodup_singleton _),
    validValues_optEntry _ (transactionList_valid (by decide) hv.1)⟩

theorem responseBlock_valid {request : SolApiResultRequest} (hv : request.Valid floatRepr) :
    (Json.obj (responseBlock request)).Valid floatRepr := by
  have hkeys : ["globId", "requestId", "result", "resultCode", "resultMsg",
      "transactionResult"].Nodup := by decide
  constructor
  · refine List.Sublist.nodup ?_ hkeys
    unfold responseBlock
    simp only [List.map_append]
    exact (((((optEntry_keys _ _).append (optEntry_keys _ _)).append (optEntry_keys _ _)).append
      (optEntry_keys _ _)).append (optEntry_keys _ _)).append (optEntry_keys _ _)
  · have hlist : ∀ x, transactionList "responseData" request.transactionResult = some x →
        x.Valid floatRepr := transactionList_valid (by decide) hv.2
    unfold responseBlock
    repeat' apply validValues_append
    all_goals apply validValues_optEntry
    all_goals first | exact map_str_valid _ | exact hlist

theorem solMetadata_valid {request : SolApiResultRequest} (hv : request.Valid floatRepr) :
    (Json.obj (solMetadata request)).Valid floatRepr := by
  have hkeys : ["global_session_key", "turn_id", "agent", "request", "response"].Nodup := by decide
  constructor
  · refine List.Sublist.nodup ?_ hkeys
    unfold solMetadata
    simp only [List.map_append]
    exact (((List.Sublist.refl ["global_session_key", "turn_id"]).append
      (optEntry_keys _ _)).append (optEntry_keys _ _)).append (optEntry_keys _ _)
  · unfold solMetadata
    refine validValues_append (validValues_append (validValues_append ?_ ?_) ?_) ?_
    · exact ⟨trivial, trivial, trivial⟩
    · exact validValues_optEntry _ (map_str_valid _)
    · exact validValues_optEntry _ (block_valid (requestBlock_valid hv))
    · exact validValues_optEntry _ (block_valid (responseBlock_valid hv))

/-- A saved turn can be read back. -/
theorem turnData_valid {request : SolApiResultRequest} (hv : request.Valid floatRepr) (now : ℕ) :
    (turnData request now).Valid floatRepr := by
  have hkeys : ["turn_id", "global_session_key", "timestamp", "metadata"].Nodup := by decide
  have hmetadata := solMetadata_valid hv
  exact ⟨hkeys, trivial, trivial, trivial,
    ⟨List.nodup_singleton _, hmetadata, trivial⟩, trivial⟩

theorem mergedReference_valid {patch : StatePatch} (hv : patch.Valid floatRepr) :
    (Json.obj (mergedReference patch)).Valid floatRepr := by
  have hreference : (Json.obj (patch.referenceInformation.getD [])).Valid floatRepr := by
    cases hpatch : patch.referenceInformation with
    | none => exact ⟨List.nodup_nil, trivial⟩
    | some d => exact hv.referenceInformation d hpatch
  unfold mergedReference
  cases patch.currentIntent with
  | none =>
    cases hcount : patch.turnCount with
    | none => exact hreference
    | some n => exact hreference.set _ (hv.turnCount n hcount)
  | some intent =>
    have hintent : (Json.obj (Dict.set (patch.referenceInformation.getD []) "current_intent"
        (.str intent))).Valid floatRepr := hreference.set "current_intent" trivial
    cases hcount : patch.turnCount with
    | none => exact hintent
    | some n => exact hintent.set _ (hv.turnCount n hcount)

theorem lastEventDict_valid (patch : StatePatch) (now : ℕ) :
    (Json.obj (lastEventDict patch now)).Valid floatRepr := by
  have hkeys : ["event_type", "agent_id", "agent_type", "response_type", "updated_at"].Nodup := by
    decide
  exact ⟨hkeys, trivial, optJson_valid _, optJson_valid _, optJson_valid _, trivial, trivial⟩

/-- What a patch writes can be read back. -/
theorem patchUpdates_valid {request : SessionPatchRequest} (hv : request.Valid floatRepr)
    (session : Hash) (now : ℕ) : (patchUpdates session request now).Valid floatRepr := by
  intro f v hf
  cases f
  case referenceInformation =>
    obtain ⟨d, hd, rfl⟩ := Option.map_eq_some_iff.mp hf
    obtain ⟨patch, hpatch, rfl⟩ := Option.map_eq_some_iff.mp (Option.filter_eq_some_iff.mp hd).1
    exact ⟨mergedReference_valid (hv patch hpatch), _, rfl⟩
  case sessionAttributes =>
    obtain ⟨d, hd, rfl⟩ := Option.map_eq_some_iff.mp hf
    obtain ⟨patch, hpatch, hattributes⟩ :=
      Option.bind_eq_some_iff.mp (Option.filter_eq_some_iff.mp hd).1
    exact ⟨(hv patch hpatch).sessionAttributes d hattributes, d, rfl⟩
  case lastEvent =>
    obtain ⟨d, hd, rfl⟩ := Option.map_eq_some_iff.mp hf
    obtain ⟨patch, -, hevent⟩ := Option.bind_eq_some_iff.mp hd
    split_ifs at hevent
    cases hevent
    exact ⟨lastEventDict_valid patch now, _, rfl⟩
  case turnIds =>
    obtain ⟨turnIds, -, rfl⟩ := Option.map_eq_some_iff.mp hf
    exact ⟨turnIds, rfl⟩
  -- texts, and the fields that a patch does not write
  case sessionState | subagentStatus | actionOwner | cushionMessage => trivial
  all_goals cases hf

end SessionService

end SessionManager
