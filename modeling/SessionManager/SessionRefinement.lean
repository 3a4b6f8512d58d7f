import SessionManager.SavedTurns

/-!
# The hash is the session

From the creation of a session on, as long as it stays there, its hash and its list of turns are
what an `AbstractSession` remembers of the requests served.

* `Represents` — the remembered fields of a hash stand for an abstract session.
* `Represents.step` — a hash after an effect stands for the abstract session after it.
* `Refines` — the store holds session `k` as it is after the requests served.
* `Agrees` — a response of `resolve_session` tells what the abstract session remembers.
* `resolveSession_agrees` — after any run of requests it does.
-/

namespace SessionManager

open Python Interaction
open SessionService SessionRepository RedisHelper

open Program hiding pure

namespace SessionRefinement

/-- The remembered fields of hash `h` stand for `a`. -/
structure Represents (a : AbstractSession) (h : Hash) : Prop where
  state : h .sessionState = some (value a.state)
  subagent : h .subagentStatus = some (value a.subagent)
  turnIds : h .turnIds = if a.turnIds = [] then none else some (.arr (a.turnIds.map .str))
  mappings : MappingsOk h
  agentKey : ∀ agentId, mappedKey (h .agentMappings) agentId = .ok (optJson (a.agentKey agentId))
  reference : h .referenceInformation = a.reference.map .obj

/-- A new hash stands for a session without effects. -/
theorem represents_created (cfg : Config) (request : SessionCreateRequest) (k : String) (now : ℕ) :
    Represents (.of []) (created cfg (createArgs request k) now) :=
  ⟨rfl, rfl, rfl, nofun, fun _ => rfl, rfl⟩

/-! ### What a patch writes -/

/-- The list of `turn_id`s that is stored. -/
theorem Represents.turnIds? {a : AbstractSession} {h : Hash} (hrep : Represents a h) :
    (SessionService.turnIds? h).getD [] = a.turnIds := by
  unfold SessionService.turnIds?
  rw [hrep.turnIds]
  by_cases hnil : a.turnIds = []
  · rw [if_pos hnil, hnil]
    rfl
  · rw [if_neg hnil]
    simp [Function.comp_def]

/-- The merged reference information is the one sent with the top-level values on top. -/
theorem mergedReference_eq (patch : StatePatch) :
    mergedReference patch =
      overridden (patch.referenceInformation.getD []) patch.currentIntent patch.turnCount := by
  unfold mergedReference overridden
  cases patch.currentIntent <;> cases patch.turnCount <;> rfl

/-- The reference information that is stored is the one that is sent. -/
theorem newReference_eq (request : SessionPatchRequest) :
    newReference request = (Effect.patch request).reference? := by
  cases hpatch : request.statePatch with
  | none => simp [newReference, Effect.reference?, hpatch]
  | some patch =>
    simp only [newReference, Effect.reference?, hpatch, Option.map_some, Option.bind_some,
      mergedReference_eq]
    generalize overridden _ _ _ = refInfo
    cases refInfo <;> rfl

/-- The mapping that is registered is the one that is sent. -/
theorem agentKey?_eq (request : SessionPatchRequest) (agentId : String) :
    (Effect.patch request).agentKey? agentId =
      (newMapping request).bind fun (id, key, _) => if agentId = id then some key else none := by
  cases hpatch : request.statePatch with
  | none => simp [newMapping, Effect.agentKey?, hpatch]
  | some patch =>
    cases hkey : nonEmpty patch.agentSessionKey with
    | none => simp [newMapping, Effect.agentKey?, hpatch, hkey]
    | some key =>
      cases hid : patch.lastAgentId with
      | none => simp [newMapping, Effect.agentKey?, hpatch, hid, nonEmpty]
      | some id =>
        by_cases hempty : id = ""
        · -- an empty text counts as no agent
          have hnone : nonEmpty (some id) = none := by simp [nonEmpty, hempty]
          have hne (hsame : id = agentId) : agentId = "" := hsame ▸ hempty
          simpa [newMapping, Effect.agentKey?, hpatch, hkey, hid, hnone] using hne
        · have hsome : nonEmpty (some id) = some id := by simp [nonEmpty, hempty]
          by_cases hsame : agentId = id
          · simp [newMapping, Effect.agentKey?, hpatch, hkey, hid, hsome, hsame, hempty]
          · have hne : id ≠ agentId := Ne.symm hsame
            simp [newMapping, Effect.agentKey?, hpatch, hkey, hid, hsome, hsame, hne]

/-- The mapped keys after a registration. -/
theorem mappedKey_withMapping {stored : Option Json} {id key type : String} {mappings : Dict}
    (h : withMapping stored id key type = .ok mappings) (agentId : String) :
    mappedKey (some (.obj mappings)) agentId =
      if agentId = id then .ok (.str key) else mappedKey stored agentId := by
  have hset (m : Dict) (hm : mappings = Dict.set m id (mappingJson key type)) :
      mappedKey (some (.obj mappings)) agentId =
        if agentId = id then .ok (.str key) else mappedKey (some (.obj m)) agentId := by
    subst hm
    by_cases hsame : agentId = id
    · rw [if_pos hsame, hsame, mappedKey, Dict.get_set_self]
      rfl
    · rw [if_neg hsame, mappedKey, Dict.get_set_of_ne m hsame]
      rfl
  unfold withMapping at h
  split at h
  · exact hset [] (Except.ok.inj h).symm
  · exact hset _ (Except.ok.inj h).symm
  · cases h

/-- The stored mappings after a patch. -/
theorem Represents.mappings_patch {a : AbstractSession} {h h' : Hash} (hrep : Represents a h)
    {request : SessionPatchRequest}
    (hwritten : h' .agentMappings = (registered h request).or (h .agentMappings)) :
    MappingsOk h' ∧ ∀ agentId, mappedKey (h' .agentMappings) agentId =
      .ok (optJson ((a.step (.patch request)).agentKey agentId)) := by
  -- the key that the abstract session remembers for an agent
  have hkey (agentId : String) : (a.step (.patch request)).agentKey agentId =
      ((newMapping request).bind fun (id, key, _) => if agentId = id then some key else none).or
        (a.agentKey agentId) := by
    rw [← agentKey?_eq]
    rfl
  unfold registered at hwritten
  cases hnew : newMapping request with
  | none =>
    rw [hnew, Option.bind_none, Option.none_or] at hwritten
    refine ⟨fun stored hstored => hrep.mappings stored (hwritten.symm.trans hstored), ?_⟩
    intro agentId
    rw [hwritten, hkey, hnew]
    exact hrep.agentKey agentId
  | some mapping =>
    obtain ⟨id, key, type⟩ := mapping
    obtain ⟨mappings, hmappings⟩ := withMapping_returns hrep.mappings id key type
    have hstored : h' .agentMappings = some (.obj mappings) := by
      rw [hwritten, hnew, Option.bind_some]
      dsimp only
      rw [hmappings]
      rfl
    refine ⟨fun stored hs => ⟨mappings, Option.some.inj (hs.symm.trans hstored)⟩, ?_⟩
    intro agentId
    rw [hstored, mappedKey_withMapping hmappings, hkey, hnew, Option.bind_some]
    dsimp only
    by_cases hsame : agentId = id
    · rw [if_pos hsame, if_pos hsame]
      rfl
    · rw [if_neg hsame, if_neg hsame, Option.none_or]
      exact hrep.agentKey agentId

/-- A patch. -/
theorem Represents.patch {a : AbstractSession} {h h' : Hash} (hrep : Represents a h)
    {request : SessionPatchRequest} (hafter : h.After (some (.patch request)) h') :
    Represents (a.step (.patch request)) h' := by
  have hwritten (f : Field) (hf : f ∈ rememberedFields) :
      h' f = ((Effect.patch request).writes h f).or (h f) := hafter f hf
  obtain ⟨hmappings, hagentKey⟩ := hrep.mappings_patch (hwritten .agentMappings (by decide))
  refine ⟨?_, ?_, ?_, hmappings, hagentKey, ?_⟩
  · have hstate : h' .sessionState = (request.sessionState.map value).or (h .sessionState) :=
      hwritten .sessionState (by decide)
    rw [hstate, hrep.state]
    show _ = some (value (request.sessionState.getD a.state))
    cases request.sessionState <;> rfl
  · have hsubagent : h' .subagentStatus =
        ((request.statePatch.bind StatePatch.subagentStatus).map value).or (h .subagentStatus) :=
      hwritten .subagentStatus (by decide)
    rw [hsubagent, hrep.subagent]
    show _ = some (value ((request.statePatch.bind StatePatch.subagentStatus).getD a.subagent))
    cases request.statePatch.bind StatePatch.subagentStatus <;> rfl
  · have hturnIds : h' .turnIds = ((newTurnIds h request).map fun turnIds =>
        .arr (turnIds.map .str)).or (h .turnIds) := hwritten .turnIds (by decide)
    have hstep : (a.step (.patch request)).turnIds =
        request.turnId.elim a.turnIds (appendTurnId a.turnIds) := rfl
    rw [hturnIds, hstep, newTurnIds, hrep.turnIds?]
    cases request.turnId with
    | none => exact hrep.turnIds
    | some turnId =>
      -- the list is written only when it is not empty, and then it never is
      have hne : appendTurnId a.turnIds turnId ≠ [] := by
        unfold appendTurnId
        split_ifs with hmem
        · exact List.ne_nil_of_mem hmem
        · simp
      rw [Option.elim_some, if_neg hne]
      rfl
  · have hreference : h' .referenceInformation =
        ((newReference request).map Json.obj).or (h .referenceInformation) :=
      hwritten .referenceInformation (by decide)
    rw [hreference, hrep.reference, newReference_eq]
    show _ = ((Effect.patch request).reference?.or a.reference).map Json.obj
    cases (Effect.patch request).reference? <;> rfl

/-- Whatever has the same remembered fields stands for the same session. -/
theorem Represents.congr {a : AbstractSession} {h h' : Hash} (hrep : Represents a h)
    (hsame : ∀ f ∈ rememberedFields, h' f = h f) : Represents a h' where
  state := (hsame _ (by decide)).trans hrep.state
  subagent := (hsame _ (by decide)).trans hrep.subagent
  turnIds := (hsame _ (by decide)).trans hrep.turnIds
  mappings stored hstored := hrep.mappings stored ((hsame _ (by decide)).symm.trans hstored)
  agentKey agentId := by
    rw [hsame .agentMappings (by decide)]
    exact hrep.agentKey agentId
  reference := (hsame _ (by decide)).trans hrep.reference

/-- A close. -/
theorem Represents.close {a : AbstractSession} {h h' : Hash} (hrep : Represents a h)
    (hafter : h.After (some .close) h') : Represents (a.step .close) h' := by
  have hended : Represents (a.step .close) (h.set .sessionState (value SessionState.end_)) := by
    have hothers (f : Field) (hf : f ≠ .sessionState) :
        h.set .sessionState (value SessionState.end_) f = h f := Hash.set_of_ne h hf _
    refine ⟨Hash.set_self h _ _, ?_, ?_, ?_, ?_, ?_⟩
    · exact (hothers _ (by decide)).trans hrep.subagent
    · exact (hothers _ (by decide)).trans hrep.turnIds
    · exact fun stored hs => hrep.mappings stored ((hothers _ (by decide)).symm.trans hs)
    · intro agentId
      rw [hothers .agentMappings (by decide)]
      exact hrep.agentKey agentId
    · exact (hothers _ (by decide)).trans hrep.reference
  refine hended.congr fun f hf => (hafter f hf).trans ?_
  by_cases hstate : f = .sessionState
  · subst hstate
    rfl
  · show (Hash.empty.set .sessionState _ f).or (h f) = _
    rw [Hash.set_of_ne _ hstate, Hash.set_of_ne _ hstate]
    rfl

/-- The hash after an effect, or none, stands for the session after it. -/
theorem Represents.step {a : AbstractSession} {h h' : Hash} (hrep : Represents a h)
    {effect : Option Effect} (hafter : h.After effect h') :
    Represents (effect.elim a a.step) h' := by
  rcases effect with _ | request | _ | turn
  · exact hrep.congr hafter
  · exact hrep.patch hafter
  · exact hrep.close hafter
  · -- what a session remembers in its hash does not depend on its turns
    have hsaved : Represents (a.step (.save turn)) h :=
      ⟨hrep.state, hrep.subagent, hrep.turnIds, hrep.mappings, hrep.agentKey, hrep.reference⟩
    exact hsaved.congr hafter

/-! ### Runs -/

/-- The store holds session `k` as it is after the requests served. -/
structure Refines (cfg : Config) (k : String) (served : List Served) (w : World) : Prop where
  hash : ∃ e, w.entry (.session k) = some e ∧ Represents (.ofServed k served) e.value
  turns : SavedTurns cfg k (AbstractSession.ofServed k served).turns w

section Runs

variable {cfg : Config} {k : String} {env : World → World → Prop}

/-- A session that does not expire stays as it is. -/
theorem Refines.keeps {served : List Served} {w w' : World} (h : Refines cfg k served w)
    (hkeeps : World.Keeps (.session k) w w') : Refines cfg k served w' := by
  obtain ⟨⟨e, he, hrep⟩, ⟨e', t, hturns⟩⟩ := h
  exact ⟨⟨e, hkeeps.entry.trans he, hrep⟩, ⟨e', t, hturns.keeps hkeeps⟩⟩

variable (hsession : ∀ w w', env w w' → World.Keeps (.session k) w w')
  (hturns : ∀ w w', env w w' → World.Keeps (.turns k) w w')
include hsession hturns

/-- One more request. -/
theorem Refines.step (served : List Served) (request : Request) {w : World}
    (h : Refines cfg k served w) :
    (request.program cfg).Wp machine env
      (fun outcome w' => Refines cfg k (served ++ [⟨request, outcome, w, w'⟩]) w') w := by
  obtain ⟨⟨e, he, hrep⟩, hsaved⟩ := h
  refine ((request.leaves hsession he).and
    (request.keeps_turns hsession hturns hsaved)).mono ?_
  rintro outcome w' ⟨⟨e', he', hafter⟩, hsaved'⟩
  have hstep := AbstractSession.ofServed_snoc k served ⟨request, outcome, w, w'⟩
  rw [Served.effect?] at hstep
  refine ⟨⟨e', he', ?_⟩, ?_⟩
  · rw [hstep]
    exact hrep.step hafter
  · rw [hstep]
    cases heffect : request.effect? k outcome with
    | none => simpa [heffect] using hsaved'
    | some effect => simpa [heffect, AbstractSession.step] using hsaved'

omit hturns in
/-- What a new session has in its hash, in a store that does not have it. -/
theorem create_represents (request : SessionCreateRequest) {w : World}
    (hnone : w.entry (.session k) = none) :
    (create cfg (createArgs request k)).Wp machine env (fun x w' => ∃ created, x = .ok created ∧
      ∃ session, w'.entry (.session k) = some ⟨session, some (expiry cfg w'.now)⟩ ∧
        Represents (.of []) session) w := by
  refine wp_perform_bind.mpr fun w₁ h₁ => ?_
  have hnone₁ : w₁.entry (.session k) = none := (hsession _ _ h₁).entry.trans hnone
  have hreply : (machine (.hgetall (createArgs request k).globalSessionKey) w₁).1 = none := by
    show w₁.hash k = none
    rw [World.hash_eq_entry, hnone₁]
    rfl
  rw [hreply]
  refine wp_perform_bind.mpr fun w₂ h₂ => ?_
  have hnone₂ : w₂.entry (.session k) = none := (hsession _ _ h₂).entry.trans hnone₁
  refine Wp.seq_ok (fun _ w₃ => ∃ session, w₃.entry (.session k) =
    some ⟨session, some (expiry cfg w₃.now)⟩ ∧ Represents (.of []) session)
    ((setSession_spec hsession hnone₂ _).mono ?_) fun _ w₃ h₃ => ⟨_, rfl, h₃⟩
  rintro x w₃ ⟨rfl, hentry⟩
  refine ⟨(), rfl, _, hentry, (represents_created cfg request k w₂.now).congr fun f _ => ?_⟩
  rw [Hash.merge, Hash.empty, Option.or_none]
  rfl

/-- Any number of requests. -/
theorem Refines.history {between : World → World → Prop}
    (hbetween : ∀ w w', between w w' → World.Keeps (.session k) w w') {w₀ w : World}
    {served : List Served} (h₀ : Refines cfg k [] w₀) (h : History cfg env between w₀ served w) :
    Refines cfg k served w :=
  h.invariant (fun _ _ _ hstep h => h.keeps (hbetween _ _ hstep))
    (fun served request _ h => h.step hsession hturns served request) h₀

end Runs

/-! ### Readers -/

/-- What the response to a query of `resolve_session` tells of a session. -/
structure Agrees (a : AbstractSession) (query : SessionResolveRequest)
    (response : SessionResolveResponse) : Prop where
  state : response.sessionState = a.state
  subagent : response.subagentStatus = a.subagent
  /-- The distinct `turn_id`s, or null when there are none. -/
  turnIds : response.turnIds = if a.turnIds = [] then none else some a.turnIds
  /-- The mapped key, for a query of a task agent. -/
  agentKey : ∀ agentId, query.agentType = some .task → query.agentId = some agentId →
    response.agentSessionKey = a.agentKey agentId
  reference : response.referenceInformation = a.reference

/-- A text, or null, read as an optional text. -/
theorem optStr_optJson (field : String) (s : Option String) : optStr field (optJson s) = .ok s := by
  cases s <;> rfl

/-- The response for a hash that stands for a session, and its mapped key. -/
theorem resolveResponse_agrees {a : AbstractSession} {query : SessionResolveRequest}
    {session : Hash} (hrep : Represents a session) {status : TaskQueueStatus} {mapped : Json}
    (hmapped : ∀ agentId, query.agentType = some .task → query.agentId = some agentId →
      mapped = optJson (a.agentKey agentId)) {profiles : Option Json × Option Json}
    {response : SessionResolveResponse}
    (h : resolveResponse query session status mapped profiles = .ok response) :
    Agrees a query response := by
  have hreference : optDict "reference_information"
      ((session .referenceInformation).getD .null) = .ok a.reference := by
    rw [hrep.reference]
    cases a.reference <;> rfl
  have hstate : enumField SessionState "SessionState"
      ((session .sessionState).getD (value SessionState.start)) = .ok a.state := by
    rw [hrep.state, Option.getD_some, enumField_value]
  have hsubagent : enumField SubAgentStatus "SubAgentStatus"
      ((session .subagentStatus).getD (value SubAgentStatus.undefined)) = .ok a.subagent := by
    rw [hrep.subagent, Option.getD_some, enumField_value]
  -- the fields of the response, in the order in which they are validated
  unfold resolveResponse at h
  simp only [bind_eq_ok] at h
  obtain ⟨state, hstate', subagent, hsubagent', agentSessionKey, hagentKey, _, -, _, -, _, -, _, -,
    _, -, _, -, _, -, _, -, refInfo, hreference', hresponse⟩ := h
  obtain rfl := Except.ok.inj (hstate.symm.trans hstate')
  obtain rfl := Except.ok.inj (hsubagent.symm.trans hsubagent')
  obtain rfl := Except.ok.inj (hreference.symm.trans hreference')
  obtain rfl := Except.ok.inj hresponse
  refine ⟨rfl, rfl, ?_, fun agentId htype hid => ?_, rfl⟩
  · show SessionService.turnIds? session = _
    unfold SessionService.turnIds?
    rw [hrep.turnIds]
    by_cases hnil : a.turnIds = []
    · rw [if_pos hnil, if_pos hnil]
    · rw [if_neg hnil, if_neg hnil]
      simp [Function.comp_def]
  · rw [hmapped agentId htype hid, optStr_optJson] at hagentKey
    exact (Except.ok.inj hagentKey).symm

/-- No key is registered for an agent without a name. -/
theorem agentKey_empty (effects : List Effect) :
    (AbstractSession.of effects).agentKey "" = none := by
  have hnone (effect : Effect) : effect.agentKey? "" = none := by
    cases effect with
    | patch request => cases hpatch : request.statePatch <;> simp [Effect.agentKey?, hpatch]
    | close => rfl
    | save turn => rfl
  have hempty : effects.filterMap (Effect.agentKey? "") = [] := by simp [hnone]
  show (effects.filterMap (Effect.agentKey? "")).getLast? = none
  rw [hempty]
  rfl

section Readers

variable {cfg : Config} {k : String} {env : World → World → Prop}
  (hsession : ∀ w w', env w w' → World.Keeps (.session k) w w')
include hsession

/-- The key that is looked up for a task agent is the mapped one. -/
theorem agentSessionKey_agrees {effects : List Effect} {e : TtlStore.Entry Hash} {w : World}
    (he : w.entry (.session k) = some e) (hrep : Represents (.of effects) e.value)
    (query : SessionResolveRequest) (hk : query.globalSessionKey = k) :
    (agentSessionKey query).Wp machine env (fun x _ => ∃ mapped, x = .ok mapped ∧
      ∀ agentId, query.agentType = some .task → query.agentId = some agentId →
        mapped = optJson ((AbstractSession.of effects).agentKey agentId)) w := by
  unfold agentSessionKey
  split
  · rename_i agentId htype hid
    have hsame (agentId' : String) (hid' : query.agentId = some agentId') : agentId' = agentId :=
      Option.some.inj (hid'.symm.trans hid)
    split_ifs with hempty
    · refine ⟨_, rfl, fun agentId' _ hid' => ?_⟩
      rw [hsame agentId' hid', hempty, agentKey_empty]
      rfl
    · rw [hk]
      refine hgetall_bind hsession he fun w₁ _ => ?_
      dsimp only
      rw [hrep.agentKey agentId]
      refine ⟨_, rfl, fun agentId' _ hid' => ?_⟩
      rw [hsame agentId' hid']
  · rename_i hother
    exact ⟨_, rfl, fun agentId htype hid => absurd hid (hother agentId htype)⟩

/-- `resolve_session` tells what the session remembers, whenever it returns. -/
theorem Refines.resolveSession {served : List Served} {w : World} (h : Refines cfg k served w)
    (query : SessionResolveRequest) (hk : query.globalSessionKey = k) :
    (resolveSession query).Wp machine env (fun x _ => ∀ response, x = .ok response →
      Agrees (.ofServed k served) query response) w := by
  obtain ⟨⟨e, he, hrep⟩, -⟩ := h
  unfold SessionService.resolveSession
  have hread : (SessionRepository.get query.globalSessionKey) = issue (.hgetall k) := by
    rw [hk]
    rfl
  rw [hread]
  refine hgetall_bind hsession he fun w₁ he₁ => ?_
  refine Wp.seq_ok _ (agentSessionKey_agrees hsession he₁ hrep query hk) ?_
  intro mapped w₂ hmapped
  refine wp_ofExcept_bind.mpr ?_
  split
  · rename_i status _
    -- the profiles do not matter
    refine Wp.bind_of_forall (fun err w₃ => ?_) fun profiles w₃ => ?_
    · intro response hx
      cases hx
    · refine wp_perform_bind.mpr fun w₄ _ => ?_
      cases hx : resolveResponse query e.value status mapped profiles with
      | error err =>
        intro response hx
        cases hx
      | ok response =>
        intro response' hresponse
        obtain rfl := Except.ok.inj hresponse
        exact resolveResponse_agrees hrep hmapped hx
  · intro response hx
    cases hx

end Readers

/-- A patch to `talk` in which an agent is registered and reference information is sent. -/
def talkRequest : Request :=
  .patchSessionState
    { globalSessionKey := "gsess_1"
      turnId := some "turn_1"
      sessionState := some .talk
      statePatch := some
        { lastAgentId := some "transfer"
          agentSessionKey := some "asess_1"
          referenceInformation := some [("current_intent", .str "balance")]
          currentIntent := some "transfer" } }

/-- The creation of a session, at an instant. -/
def opened : Served := (Request.createSession "gsess_1" "jti_0" {}).serve .default (.init 0)

/-- The patch after it. -/
def talked : Served := talkRequest.serve .default opened.after

/-- The query of the task agent. -/
def query : SessionResolveRequest :=
  { globalSessionKey := "gsess_1", agentType := some .task, agentId := some "transfer" }

end SessionRefinement

end SessionManager
