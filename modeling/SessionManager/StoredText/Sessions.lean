import SessionManager.StoredText.Services

/-!
# Sessions on texts

The methods of `SessionService`. A resolution shows what is stored: from what is read back it makes
the same response, but for the order of keys in the values that it shows.

* `sortDict`, `SessionResolveResponse.norm` — a `dict` and a response with their keys in order.
* `lookup_sortDict`, `referenceField_sortKeys`, `optDict_sortKeys` — what a response takes from a
  value with its keys in order.
* `resolveResponse_norm` — the response to what is read back.
* One lemma for each method.
-/

namespace SessionManager

open Python Interaction RedisHelper

variable {cfg : Config} {floatRepr : String → String}

/-! ### Keys in order -/

/-- A `dict` with its keys in order, at every depth. -/
def sortDict (d : Dict) : Dict := (Json.sortValues d).mergeSort Json.keyLE

/-- A response with the keys in order of what it shows of the reference information. -/
def SessionResolveResponse.norm (r : SessionResolveResponse) : SessionResolveResponse :=
  { r with
    activeTask := r.activeTask.map sortDict
    conversationHistory := r.conversationHistory.map (List.map sortDict)
    taskQueueStatusDetail := r.taskQueueStatusDetail.map (List.map sortDict)
    referenceInformation := r.referenceInformation.map sortDict }

theorem sortKeys_obj (d : Dict) : (Json.obj d).sortKeys = .obj (sortDict d) := rfl

/-- A key has the same value, its own keys in order. -/
theorem lookup_sortDict {d : Dict} (hv : (Json.obj d).Valid floatRepr) (key : String) :
    (sortDict d).lookup key = (d.lookup key).map Json.sortKeys := by
  have hsorted : ((sortDict d).map Prod.fst).Nodup := hv.sortKeys.1
  have hmem (value : Json) : (key, value) ∈ sortDict d ↔
      ∃ value', (key, value') ∈ d ∧ value'.sortKeys = value := by
    rw [sortDict, (List.mergeSort_perm _ _).mem_iff, Json.sortValues_eq_map, List.mem_map]
    simp
  -- both sides have at most one value for the key, as neither has a key twice
  apply Option.ext
  intro value
  rw [Json.lookup_eq_some_iff_mem hsorted, hmem, Option.map_eq_some_iff]
  simp only [Json.lookup_eq_some_iff_mem hv.1]

theorem get_sortDict {d : Dict} (hv : (Json.obj d).Valid floatRepr) (key : String) :
    Dict.get (sortDict d) key = (Dict.get d key).sortKeys := by
  rw [Dict.get, Dict.get, lookup_sortDict hv]
  cases d.lookup key <;> rfl

theorem referenceField_sortKeys {v : Json} (hv : v.Valid floatRepr) (key : String) :
    SessionService.referenceField v.sortKeys key =
      (SessionService.referenceField v key).sortKeys := by
  cases v with
  | obj d => exact get_sortDict hv key
  | null | bool _ | int _ | float _ | str _ | arr _ => rfl

theorem isEmpty_sortDict (d : Dict) : (sortDict d).isEmpty = d.isEmpty := by
  rw [Bool.eq_iff_iff, List.isEmpty_iff_length_eq_zero, List.isEmpty_iff_length_eq_zero, sortDict,
    List.length_mergeSort, Json.sortValues_eq_map, List.length_map]

/-! What a response takes from a value with its keys in order. -/

theorem optStr_sortKeys (field : String) (v : Json) : optStr field v.sortKeys = optStr field v := by
  cases v <;> rfl

theorem optInt_sortKeys (field : String) (v : Json) : optInt field v.sortKeys = optInt field v := by
  cases v <;> rfl

theorem optDict_sortKeys (field : String) (v : Json) :
    optDict field v.sortKeys = (optDict field v).map (Option.map sortDict) := by
  cases v <;> rfl

theorem dictItems_sortItems (field : String) (items : List Json) :
    dictItems field (Json.sortItems items) = (dictItems field items).map (List.map sortDict) := by
  induction items with
  | nil => rfl
  | cons item items ih =>
    cases item with
    | obj d =>
      rw [Json.sortItems, sortKeys_obj, dictItems, dictItems, ih]
      cases dictItems field items <;> rfl
    | null | bool _ | int _ | float _ | str _ | arr _ => rfl

theorem optDictList_sortKeys (field : String) (v : Json) :
    optDictList field v.sortKeys = (optDictList field v).map (Option.map (List.map sortDict)) := by
  cases v with
  | arr items =>
    show (dictItems field (Json.sortItems items)).map some = _
    rw [dictItems_sortItems, optDictList]
    cases dictItems field items <;> rfl
  | null | bool _ | int _ | float _ | str _ | obj _ => rfl

namespace SessionService

theorem listOrNone_sortKeys (v : Json) : listOrNone v.sortKeys = (listOrNone v).sortKeys := by
  cases v <;> rfl

theorem intOrNone_sortKeys (v : Json) : intOrNone v.sortKeys = (intOrNone v).sortKeys := by
  cases v <;> rfl

theorem optStr?_sortKeys (v : Json) : optStr? v.sortKeys = optStr? v := by
  cases v <;> rfl

theorem optEnum?_sortKeys (α : Type) [ValueEnum α] (v : Json) :
    optEnum? α v.sortKeys = optEnum? α v := by
  cases v <;> rfl

/-! What is read back of a session. -/

theorem map_bind {E α β γ : Type} (g : β → γ) (x : Except E α) (f : α → Except E β) :
    (x >>= f).map g = x >>= fun a => (f a).map g := by
  cases x <;> rfl

theorem bind_map {E α β γ : Type} (x : Except E α) (f : α → β) (g : β → Except E γ) :
    x.map f >>= g = x >>= fun a => g (f a) := by
  cases x <;> rfl

theorem lastEventOf?_sortDict {event : Dict} (hv : (Json.obj event).Valid floatRepr) :
    lastEventOf? (sortDict event) = lastEventOf? event := by
  unfold lastEventOf?
  simp only [get_sortDict hv, optStr?_sortKeys, optEnum?_sortKeys]

theorem lastEvent_norm {session : Hash} (hv : session.Valid floatRepr) :
    lastEvent session.norm = lastEvent session := by
  unfold lastEvent
  rw [Hash.norm]
  cases hevent : session .lastEvent with
  | none => rfl
  | some v =>
    obtain ⟨hvalid, event, rfl⟩ := hv .lastEvent v hevent
    rw [Option.map_some]
    show (if (sortDict event).isEmpty then none else lastEventOf? (sortDict event)) = _
    rw [isEmpty_sortDict, lastEventOf?_sortDict hvalid]

theorem turnIds?_norm {session : Hash} (hv : session.Valid floatRepr) :
    turnIds? session.norm = turnIds? session := by
  have hsame : session.norm .turnIds = session .turnIds := by
    rw [Hash.norm]
    cases hturns : session .turnIds with
    | none => rfl
    | some v =>
      -- a list of strings has no keys to sort
      obtain ⟨turnIds, rfl⟩ := hv .turnIds v hturns
      exact congrArg some (Field.sortKeys_strings turnIds)
  rw [turnIds?, turnIds?, hsame]

/-- The response to what is read back is the one to what is stored, its keys in order. -/
theorem resolveResponse_norm (request : SessionResolveRequest) {session : Hash}
    (hv : session.Valid floatRepr) (taskQueueStatus : TaskQueueStatus) (mapped : Json)
    (profiles : Option Json × Option Json) :
    resolveResponse request session.norm taskQueueStatus mapped profiles =
      (resolveResponse request session taskQueueStatus mapped profiles).map
        SessionResolveResponse.norm := by
  -- all but the fields that the code sorts are read back as they are
  have htext {f : Field} (hf : ∀ v, f.norm v = v) : session.norm f = session f :=
    Hash.norm_apply hf session
  have hreference : (session.norm .referenceInformation).getD .null =
      ((session .referenceInformation).getD .null).sortKeys := by
    rw [Hash.norm]
    cases session .referenceInformation <;> rfl
  have hvalid : ((session .referenceInformation).getD .null).Valid floatRepr := by
    cases hstored : session .referenceInformation with
    | none => trivial
    | some v => exact (hv .referenceInformation v hstored).1
  have hchannel : channelInfo session.norm = channelInfo session := by
    rw [channelInfo, channelInfo, htext (f := .startType) fun _ => rfl,
      htext (f := .channel) fun _ => rfl]
  have hfirst : isFirstCall session.norm = isFirstCall session := by
    rw [isFirstCall, isFirstCall, htext (f := .sessionState) fun _ => rfl]
  unfold resolveResponse
  rw [hreference, htext (f := .sessionState) fun _ => rfl,
    htext (f := .subagentStatus) fun _ => rfl, htext (f := .triggerId) fun _ => rfl,
    htext (f := .cusno) fun _ => rfl, hchannel, hfirst, lastEvent_norm hv, turnIds?_norm hv]
  -- the order of keys goes through every field of the response to its end
  simp only [referenceField_sortKeys hvalid, listOrNone_sortKeys, intOrNone_sortKeys,
    optStr_sortKeys, optInt_sortKeys, optDict_sortKeys, optDictList_sortKeys, map_bind, bind_map]
  rfl

/-! The methods. -/

theorem createSession_stable (k jti : String) (request : SessionCreateRequest) :
    Stable cfg floatRepr (fun _ => True) (createSession cfg k jti request) := by
  refine (AuthService.createTokens_stable _ k jti).bind fun tokens _ => ?_
  have hcreate := @SessionRepository.create_related cfg floatRepr (createArgs request k)
    ⟨List.nodup_nil, trivial⟩ nofun
  refine Program.Related.bind hcreate fun _ _ _ => ?_
  refine Stable.now.bind fun now _ => ?_
  exact (eslog_stable _).bind fun _ _ => .pure trivial

theorem agentSessionKey_stable (request : SessionResolveRequest) :
    Stable cfg floatRepr (fun _ => True) (agentSessionKey request) := by
  unfold agentSessionKey
  split
  · split_ifs
    · exact .pure trivial
    · exact SessionRepository.getLocalMapping_stable _ _
  · exact .pure trivial

theorem sessionProfiles_stable (k : String) (cusno : Option String) :
    Stable cfg floatRepr (fun _ => True) (sessionProfiles k cusno) := by
  unfold sessionProfiles
  split
  · exact (ProfileService.getBatchAndRealtimeProfiles_stable _).mono fun _ _ => trivial
  · exact (getProfile_stable (.realtimeProfile k) trivial).bind fun _ _ => .pure trivial

/-- A resolution makes of what is read back the response to what is stored, its keys in order. -/
theorem resolveSession_related (request : SessionResolveRequest) :
    (resolveSession request).Related (redisLink cfg floatRepr) (fun r r' => r = r'.norm)
      (resolveSession request) := by
  refine getSession_bind _ rfl fun session hv => ?_
  have htext {f : Field} (hf : ∀ v, f.norm v = v) : session.norm f = session f :=
    Hash.norm_apply hf session
  have hrecord : resolveRecord request session.norm = resolveRecord request session := by
    rw [resolveRecord, resolveRecord, isFirstCall, isFirstCall,
      htext (f := .sessionState) fun _ => rfl, htext (f := .cusno) fun _ => rfl]
  dsimp only
  rw [htext (f := .taskQueueStatus) fun _ => rfl, htext (f := .cusno) fun _ => rfl, hrecord]
  refine Program.Related.bind (agentSessionKey_stable request) fun mapped _ hmapped => ?_
  obtain ⟨rfl, -⟩ := hmapped
  have hstatus := @Stable.ofExcept cfg floatRepr _ (fun _ => True)
    (enumField TaskQueueStatus "TaskQueueStatus"
      ((session .taskQueueStatus).getD (value TaskQueueStatus.null))) fun _ _ => trivial
  refine Program.Related.bind hstatus fun status _ hstatus => ?_
  obtain ⟨rfl, -⟩ := hstatus
  refine Program.Related.bind (sessionProfiles_stable _ _) fun profiles _ hprofiles => ?_
  obtain ⟨rfl, -⟩ := hprofiles
  refine Program.Related.bind (eslog_stable _) fun _ _ _ => ?_
  rw [resolveResponse_norm request hv]
  cases resolveResponse request session status mapped profiles with
  | error e => exact rfl
  | ok response => exact rfl

theorem refreshOnTalk_related (request : SessionPatchRequest) :
    (refreshOnTalk cfg request).Related (redisLink cfg floatRepr) (fun _ _ => True)
      (refreshOnTalk cfg request) := by
  unfold refreshOnTalk
  split
  · exact Program.Related.bind (SessionRepository.refreshTtl_related _) fun _ _ _ => trivial
  · trivial

theorem registerAgent_stable (request : SessionPatchRequest) :
    Stable cfg floatRepr (fun _ => True) (registerAgent request) := by
  unfold registerAgent
  split
  · exact SessionRepository.setLocalMapping_stable _ _ _ _
  · exact .pure trivial

theorem patchSessionState_stable {request : SessionPatchRequest} (hv : request.Valid floatRepr) :
    Stable cfg floatRepr (fun _ => True) (patchSessionState cfg request) := by
  refine getSession_bind _ rfl fun session hsession => ?_
  have hupdates (now : ℕ) : patchUpdates session.norm request now =
      patchUpdates session request now := by
    -- the turns are all that a patch takes over from what is stored
    have hturns : newTurnIds session.norm request = newTurnIds session request := by
      rw [newTurnIds, newTurnIds, turnIds?_norm hsession]
    funext f
    cases f
    case turnIds => exact congrArg (Option.map fun turnIds => Json.arr (turnIds.map .str)) hturns
    all_goals rfl
  have hrecord : patchRecord session.norm request = patchRecord session request := by
    rw [patchRecord, patchRecord, Hash.norm_apply (f := .sessionState) (fun _ => rfl) session]
  refine Program.Related.bind Stable.now fun now now' hnow => ?_
  obtain ⟨rfl, -⟩ := hnow
  dsimp only
  rw [hupdates now, hrecord]
  refine Program.Related.bind (refreshOnTalk_related request) fun _ _ _ => ?_
  refine (Stable.ofExcept fun _ _ => trivial).bind fun _ (_ : True) => ?_
  refine (registerAgent_stable request).bind fun _ _ => ?_
  have hwritten := patchUpdates_valid hv session now
  refine Program.Related.bind (SessionRepository.update_related _ hwritten) fun _ _ _ => ?_
  exact (eslog_stable _).bind fun _ _ => .pure trivial

theorem closeSession_stable (request : SessionCloseRequest) :
    Stable cfg floatRepr (fun _ => True) (closeSession request) := by
  refine getSession_bind _ rfl fun session _ => ?_
  refine Program.Related.bind Stable.now fun now now' hnow => ?_
  obtain ⟨rfl, hnow⟩ := hnow
  have hclosed : (closeSessionUpdates request now).Valid floatRepr := by
    intro f v hf
    cases f
    case finalSummary => trivial
    all_goals exact closeUpdates_valid request.closeReason (lt_endOfTime hnow) _ v hf
  have hrecord : closeRecord request.globalSessionKey session.norm now =
      closeRecord request.globalSessionKey session now := by
    rw [closeRecord, closeRecord, Hash.norm_apply (f := .cusno) (fun _ => rfl) session,
      Hash.norm_apply (f := .sessionState) (fun _ => rfl) session]
  refine Program.Related.bind (SessionRepository.update_related _ hclosed) fun _ _ _ => ?_
  dsimp only
  rw [hrecord]
  exact (eslog_stable _).bind fun _ _ => .pure trivial

theorem saveApiResult_stable (k : String) {request : SolApiResultRequest}
    (hv : request.Valid floatRepr) :
    Stable cfg floatRepr (fun _ => True) (saveApiResult cfg k request) := by
  refine getSession_bind k rfl fun session _ => ?_
  refine Stable.now.bind fun now _ => ?_
  exact (addContextTurn_stable k (turnData_valid hv now)).bind fun _ _ => .pure trivial

end SessionService

end SessionManager
