import SessionManager.SoundStore

/-!
# Sessions that can be read

`resolve_session` puts what is stored into a response with declared field types. The check of a
patch looks at two of the six keys that it takes out of the reference information, and at the
items of no list.

* `Displayable` — reference information whose six keys fit the response.
* `resolveSession_returns` — a session in a well-formed store is readable exactly when its
  reference information is displayable.
* `resolveSession_readable` — in every store that displayable patches lead to, all are.
-/

namespace SessionManager

open Python Interaction SessionService
open SessionRepository (mappingJson)

namespace ReadableSessions

/-- A list has objects as items only; a value that is no list is replaced before it is shown. -/
def ItemsAreDicts (v : Json) : Prop := ∀ items, v = .arr items → ∀ item ∈ items, item.isDict

/-- The reference information fits the response. -/
structure Displayable (refInfo : Dict) : Prop where
  activeTask : (Dict.get refInfo "active_task").isNone ∨ (Dict.get refInfo "active_task").isDict
  conversationHistory : ItemsAreDicts (Dict.get refInfo "conversation_history")
  currentIntent : (Dict.get refInfo "current_intent").isNone ∨
    (Dict.get refInfo "current_intent").isStr
  currentTaskId : (Dict.get refInfo "current_task_id").isNone ∨
    (Dict.get refInfo "current_task_id").isStr
  taskQueueStatus : ItemsAreDicts (Dict.get refInfo "task_queue_status")

/-! ### One field -/

theorem optStr_ok_iff {field : String} {v : Json} :
    (∃ s, optStr field v = .ok s) ↔ v.isNone ∨ v.isStr := by
  cases v <;> simp [optStr, Json.isNone, Json.isStr]

theorem optDict_ok_iff {field : String} {v : Json} :
    (∃ d, optDict field v = .ok d) ↔ v.isNone ∨ v.isDict := by
  cases v <;> simp [optDict, Json.isNone, Json.isDict]

theorem dictItems_ok_iff {field : String} {items : List Json} :
    (∃ ds, dictItems field items = .ok ds) ↔ ∀ item ∈ items, item.isDict := by
  induction items with
  | nil => simp [dictItems]
  | cons item items ih =>
    rw [List.forall_mem_cons, ← ih]
    cases item with
    | obj d =>
      cases hitems : dictItems field items <;> simp [dictItems, Json.isDict, hitems, Except.map]
    | _ => simp [dictItems, Json.isDict]

/-- A list field of the response is valid exactly when the items are objects. -/
theorem optDictList_ok_iff {field : String} {v : Json} :
    (∃ ds, optDictList field (listOrNone v) = .ok ds) ↔ ItemsAreDicts v := by
  cases v with
  | arr items =>
    have hitems := @dictItems_ok_iff field items
    cases hds : dictItems field items <;>
      simp_all [optDictList, listOrNone, Json.isList, ItemsAreDicts, Except.map]
  | _ => simp [optDictList, listOrNone, Json.isList, ItemsAreDicts]

/-- A value that is no integer is replaced before it is shown. -/
theorem optInt_intOrNone (field : String) (v : Json) :
    ∃ n, optInt field (intOrNone v) = .ok n := by
  cases v <;> simp [optInt, intOrNone, Json.isInt]

/-- A sequence succeeds exactly when both parts do. -/
theorem bind_ok_iff {α β : Type} {x : Except ServiceError α} {f : α → Except ServiceError β} :
    (∃ b, (x >>= f) = .ok b) ↔ ∃ a, x = .ok a ∧ ∃ b, f a = .ok b := by
  simp only [bind_eq_ok]
  rw [exists_comm]
  simp only [exists_and_left]

/-! ### The response -/

/-- The stored reference information of a session is displayable, if there is any. -/
def Shown (session : Hash) : Prop :=
  ∀ refInfo, session .referenceInformation = some (.obj refInfo) → Displayable refInfo

/-- The keys that `resolve_session` takes out of the reference information are valid exactly when
it is displayable. -/
theorem displayable_iff {session : Hash} (hsession : session.Ok fun _ => True) :
    Shown session ↔
      let refInfo := (session .referenceInformation).getD .null
      (∃ d, optDict "active_task" (referenceField refInfo "active_task") = .ok d) ∧
      (∃ ds, optDictList "conversation_history"
        (listOrNone (referenceField refInfo "conversation_history")) = .ok ds) ∧
      (∃ s, optStr "current_intent" (referenceField refInfo "current_intent") = .ok s) ∧
      (∃ s, optStr "current_task_id" (referenceField refInfo "current_task_id") = .ok s) ∧
      (∃ ds, optDictList "task_queue_status_detail"
        (listOrNone (referenceField refInfo "task_queue_status")) = .ok ds) := by
  cases href : session .referenceInformation with
  | none =>
    simp [Shown, href, referenceField, optDict, optStr, optDictList, listOrNone, Json.isList]
  | some v =>
    obtain ⟨refInfo, rfl, -⟩ := hsession .referenceInformation v href
    -- each conversion fails on a value of the wrong type only
    simp only [Option.getD_some, referenceField, optDict_ok_iff, optStr_ok_iff, optDictList_ok_iff]
    constructor
    · intro h
      obtain ⟨h₁, h₂, h₃, h₄, h₅⟩ := h refInfo href
      exact ⟨h₁, h₂, h₃, h₄, h₅⟩
    · rintro ⟨h₁, h₂, h₃, h₄, h₅⟩ refInfo' href'
      obtain rfl : refInfo = refInfo' := by simpa [href] using href'
      exact ⟨h₁, h₂, h₃, h₄, h₅⟩

/-- What `resolve_session` reads apart from the session's hash is valid. -/
structure Fetched (mapped : Json) (profiles : Option Json × Option Json) : Prop where
  mapped : mapped.isNone ∨ mapped.isStr
  batchProfile : ∀ v, profiles.1 = some v → v.isDict
  realtimeProfile : ∀ v, profiles.2 = some v → v.isDict

/-- An enumeration field of a well-formed hash, or its default, is one of the members. -/
theorem enumField_ok {α : Type} [ValueEnum α] (enum : String) (stored : Option String) (a : α)
    (h : ∀ v, stored = some v → ∃ b : α, v = value b) :
    ∃ b, enumField α enum (stored.getD (value a)) = .ok b := by
  cases stored with
  | none => exact ⟨a, by simp⟩
  | some v =>
    obtain ⟨b, rfl⟩ := h v rfl
    exact ⟨b, by simp⟩

/-- The response can be built exactly when the stored reference information is displayable. -/
theorem resolveResponse_ok_iff {request : SessionResolveRequest} {session : Hash}
    (hsession : session.Ok fun _ => True) (status : TaskQueueStatus) {mapped : Json}
    {profiles : Option Json × Option Json} (hfetched : Fetched mapped profiles) :
    (∃ response, resolveResponse request session status mapped profiles = .ok response) ↔
      Shown session := by
  -- all fields but those of the reference information are fine in a sound store
  have hstate := enumField_ok "SessionState" (session .sessionState) SessionState.start
    (hsession .sessionState)
  have hsubagent := enumField_ok "SubAgentStatus" (session .subagentStatus)
    SubAgentStatus.undefined (hsession .subagentStatus)
  have hmapped : ∃ s, optStr "agent_session_key" mapped = .ok s := optStr_ok_iff.mpr hfetched.mapped
  have hprofile (field : String) (profile : Option Json)
      (h : ∀ v, profile = some v → v.isDict) : ∃ d, optDict field (profile.getD .null) = .ok d := by
    rw [optDict_ok_iff]
    cases profile with
    | none => exact .inl rfl
    | some v => exact .inr (h v rfl)
  have hbatch := hprofile "batch_profile" _ hfetched.batchProfile
  have hrealtime := hprofile "realtime_profile" _ hfetched.realtimeProfile
  have hreference : ∃ d, optDict "reference_information"
      ((session .referenceInformation).getD .null) = .ok d := by
    refine hprofile "reference_information" _ fun v hv => ?_
    obtain ⟨refInfo, rfl, -⟩ := hsession .referenceInformation v hv
    rfl
  have hturnCount := optInt_intOrNone "turn_count"
    (referenceField ((session .referenceInformation).getD .null) "turn_count")
  rw [displayable_iff hsession]
  simp only [resolveResponse, bind_ok_iff, pure, Except.pure, Except.ok.injEq, exists_eq',
    and_true, exists_and_right]
  simp only [hstate, hsubagent, hmapped, hbatch, hrealtime, hreference, hturnCount, true_and,
    and_true]

/-! ### resolve_session -/

section Resolve

open Program hiding pure

variable {key : Key}

/-- The key of a stored mapping is a text, if there is one. -/
theorem mappedKey_ok {stored : Option Json}
    (hstored : ∀ v, stored = some v → Field.Ok (fun _ => True) .agentMappings v)
    (agentId : String) : ∃ mapped, SessionRepository.mappedKey stored agentId = .ok mapped ∧
      (mapped.isNone ∨ mapped.isStr) := by
  cases stored with
  | none => exact ⟨.null, rfl, .inl rfl⟩
  | some v =>
    obtain ⟨mappings, rfl, hall⟩ := hstored v rfl
    cases hm : mappings.lookup agentId with
    | none =>
      exact ⟨.null, by simp [SessionRepository.mappedKey, Dict.get, hm, Json.truthy], .inl rfl⟩
    | some m =>
      obtain ⟨key, type, rfl⟩ := hall agentId m hm
      exact ⟨.str key, by simp [SessionRepository.mappedKey, Dict.get, hm, mappingJson], .inr rfl⟩

/-- The look-up of the agent's key returns a text or nothing. -/
theorem agentSessionKey_returns (request : SessionResolveRequest) {w : World}
    (hsound : w.Sound fun _ => True) :
    (agentSessionKey request).Wp machine (World.Keeps key) (fun outcome w' => ∃ mapped,
      outcome = .ok mapped ∧ (mapped.isNone ∨ mapped.isStr) ∧ w'.Sound fun _ => True) w := by
  unfold agentSessionKey
  split
  · split
    · exact ⟨.null, rfl, .inl rfl, hsound⟩
    · rename_i agentId _ _ _
      refine wp_perform_bind.mpr fun w₁ hw₁ => ?_
      have hsound₁ := hsound.elapses hw₁.1
      cases hhash : w₁.hash request.globalSessionKey with
      | none =>
        simp only [machine, hhash]
        exact ⟨.null, rfl, .inl rfl, hsound₁⟩
      | some session =>
        obtain ⟨mapped, hmapped, htext⟩ :=
          mappedKey_ok (hsound₁.hash hhash .agentMappings) agentId
        simp only [machine, hhash, hmapped]
        exact ⟨mapped, rfl, htext, hsound₁⟩
  · exact ⟨.null, rfl, .inl rfl, hsound⟩

/-- The profiles of a sound store are objects. -/
theorem sessionProfiles_returns (k : String) (cusno : Option String) {w : World}
    (hsound : w.Sound fun _ => True) :
    (sessionProfiles k cusno).Wp machine (World.Keeps key) (fun outcome _ => ∃ profiles,
      outcome = .ok profiles ∧ ∀ mapped : Json, mapped.isNone ∨ mapped.isStr →
        Fetched mapped profiles) w := by
  have hrealtime (w : World) (hsound : w.Sound fun _ => True) (u : String) (v : Json)
      (hv : w.store.get w.now (.realtimeProfile u) = some v) : v.isDict := by
    obtain ⟨profile, rfl⟩ := hsound.get hv
    rfl
  have hbatch (w : World) (hsound : w.Sound fun _ => True) (u : String) (v : Json)
      (hv : w.store.get w.now (.batchProfile u) = some v) : v.isDict := by
    obtain ⟨profile, rfl⟩ := hsound.get hv
    rfl
  unfold sessionProfiles
  split
  · rename_i u _
    refine wp_perform_bind.mpr fun w₁ hw₁ => wp_perform_bind.mpr fun w₂ hw₂ => ?_
    have hsound₁ := hsound.elapses hw₁.1
    exact ⟨_, rfl, fun mapped hmapped =>
      ⟨hmapped, hbatch w₁ hsound₁ u, hrealtime w₂ (hsound₁.elapses hw₂.1) u⟩⟩
  · refine wp_perform_bind.mpr fun w₁ hw₁ => ?_
    exact ⟨_, rfl, fun mapped hmapped => ⟨hmapped, nofun, hrealtime w₁ (hsound.elapses hw₁.1) k⟩⟩

/-- A live session of a sound store can be read exactly when its stored reference information is
displayable. -/
theorem resolveSession_returns (request : SessionResolveRequest) {w : World}
    (hsound : w.Sound fun _ => True) {session : Hash}
    (hhash : w.hash request.globalSessionKey = some session) :
    (resolveSession request).Wp machine (World.Keeps (.session request.globalSessionKey))
      (fun outcome _ => (∃ response, outcome = .ok response) ↔ Shown session) w := by
  refine wp_perform_bind.mpr fun w₁ hw₁ => ?_
  have hsession : session.Ok fun _ => True := hsound.hash hhash
  have hreply : (machine (.hgetall request.globalSessionKey) w₁).1 = some session :=
    hw₁.hash.trans hhash
  rw [hreply]
  -- everything that is read from here on is sound as well
  refine Wp.seq_ok _ (agentSessionKey_returns request (hsound.elapses hw₁.1)) ?_
  rintro mapped w₂ ⟨hmapped, hsound₂⟩
  obtain ⟨status, hstatus⟩ := enumField_ok "TaskQueueStatus" (session .taskQueueStatus)
    TaskQueueStatus.null (hsession .taskQueueStatus)
  refine wp_ofExcept_bind.mpr ?_
  rw [hstatus]
  refine Wp.seq_ok _ (sessionProfiles_returns request.globalSessionKey _ hsound₂) ?_
  intro profiles w₃ hprofiles
  refine wp_perform_bind.mpr fun w₄ _ => ?_
  have hresponse := @resolveResponse_ok_iff request session hsession status mapped profiles
    (hprofiles mapped hmapped)
  cases hx : resolveResponse request session status mapped profiles with
  | ok response => rwa [hx] at hresponse
  | error e => rwa [hx] at hresponse

/-- In every store that requests lead to, in any order and interleaving, with displayable reference
information in all patches that are accepted, every live session can be read. -/
theorem resolveSession_readable (cfg : Config) {w : World}
    (hreach : Reachable cfg (Request.Refers Displayable) w) (request : SessionResolveRequest)
    (hlive : (w.hash request.globalSessionKey).isSome) :
    (resolveSession request).Wp machine (World.Keeps (.session request.globalSessionKey))
      (fun outcome _ => ∃ response, outcome = .ok response) w := by
  obtain ⟨session, hhash⟩ := Option.isSome_iff_exists.mp hlive
  have hsound : w.Sound fun _ => True := (hreach.mono fun request _ => request.refers_true).sound
  have hshown : Shown session := by
    intro refInfo href
    obtain ⟨refInfo', heq, -, hdisplayable⟩ :=
      (hreach.sound.hash hhash) .referenceInformation (.obj refInfo) href
    rwa [Json.obj.inj heq]
  exact (resolveSession_returns request hsound hhash).mono fun outcome _ hiff => hiff.mpr hshown

/-! ### A patch that is accepted -/

/-- The creation of a session, and a patch of it with an active task; `true` creates. -/
def requests (activeTask : Json) (i : Bool) : Request :=
  if i then .createSession "gsess_1" "jti_0" {}
  else .patchSessionState
    { globalSessionKey := "gsess_1"
      statePatch := some { referenceInformation := some [("active_task", activeTask)] } }

/-- The threads after the session has been created and patched. -/
def patched (activeTask : Json) : Pool redis ServiceError Response World Bool :=
  (Pool.start (fun i => (requests activeTask i).program .default) (.init 0)).schedule machine
    (List.replicate 11 true ++ List.replicate 7 false)

/-- An object as the active task: the session can be read. -/
theorem resolveSession_readable_object :
    (resolveSession { globalSessionKey := "gsess_1" }).Wp machine
      (World.Keeps (.session "gsess_1")) (fun outcome _ => ∃ response, outcome = .ok response)
      (patched (.obj [])).state := by
  have hreach : Reachable .default (Request.Refers Displayable) (patched (.obj [])).state := by
    refine ⟨Bool, inferInstance, requests (.obj []), 0, _, fun i => ?_, Pool.run_schedule _ _, rfl⟩
    cases i with
    | true => trivial
    | false =>
      rintro - refInfo ⟨⟩
      exact ⟨.inr rfl, nofun, .inl rfl, .inl rfl, nofun⟩
  exact resolveSession_readable .default hreach { globalSessionKey := "gsess_1" } rfl

/-- A text as the active task: the patch is accepted, and the session cannot be read. -/
theorem resolveSession_unreadable :
    let p := patched (.str "transfer")
    Reachable .default (fun _ => True) p.state ∧
      (∃ response, (p.threads false).Returned (.patched response)) ∧
      (p.state.hash "gsess_1").isSome ∧
      ((resolveSession { globalSessionKey := "gsess_1" }).run machine p.state).1 =
        .error (.validation "active_task") := by
  refine ⟨⟨Bool, inferInstance, requests (.str "transfer"), 0, _, fun _ => trivial,
    Pool.run_schedule _ _, rfl⟩, ⟨_, rfl⟩, rfl, rfl⟩

end Resolve

end ReadableSessions

end SessionManager
