import SessionManager.Requests

/-!
# The session behind the hash

What a session is for: it remembers what requests have told it. This is stated without the store,
as a function of the accepted requests.

* `Effect` — what an accepted request tells a session.
* `AbstractSession`, `AbstractSession.of` — what the session then remembers: the last state, the
  distinct `turn_id`s in the order of their first occurrence, and so on.
* `AbstractSession.step`, `AbstractSession.of_snoc` — the same one effect at a time.
* `Served.effect?` — the effect that a served request has on session `k`.
-/

namespace SessionManager

open Python

/-- What an accepted request tells a session. -/
inductive Effect where
  /-- A patch. -/
  | patch (request : SessionPatchRequest)
  /-- A close, by the session's key or by a token. -/
  | close
  /-- A saved turn. -/
  | save (turn : Json)

/-- `refInfo` with the top-level values that a patch gives on top of it. -/
def overridden (refInfo : Dict) (currentIntent : Option String) (turnCount : Option ℤ) : Dict :=
  let refInfo := currentIntent.elim refInfo fun intent =>
    Dict.set refInfo "current_intent" (.str intent)
  turnCount.elim refInfo fun n => Dict.set refInfo "turn_count" (.int n)

namespace Effect

/-- The state that is sent. -/
def state? : Effect → Option SessionState
  | .patch request => request.sessionState
  | .close => some .end_
  | .save _ => none

/-- The status of the sub-agent that is sent. -/
def subagent? : Effect → Option SubAgentStatus
  | .patch request => request.statePatch.bind StatePatch.subagentStatus
  | _ => none

/-- The `turn_id` that is sent. -/
def turnId? : Effect → Option String
  | .patch request => request.turnId
  | _ => none

/-- The key that is registered for an agent: both the key and the agent are given. -/
def agentKey? (agentId : String) : Effect → Option String
  | .patch request => request.statePatch.bind fun patch =>
    if patch.lastAgentId = some agentId ∧ agentId ≠ "" then nonEmpty patch.agentSessionKey else none
  | _ => none

/-- The reference information that is sent, top-level values included, unless it is empty. -/
def reference? : Effect → Option Dict
  | .patch request => request.statePatch.bind fun patch =>
    let refInfo :=
      overridden (patch.referenceInformation.getD []) patch.currentIntent patch.turnCount
    if refInfo = [] then none else some refInfo
  | _ => none

/-- The turn that is saved. -/
def turn? : Effect → Option Json
  | .save turn => some turn
  | _ => none

end Effect

/-- What a session remembers. -/
structure AbstractSession where
  state : SessionState
  subagent : SubAgentStatus
  turnIds : List String
  agentKey : String → Option String
  reference : Option Dict
  turns : List Json

namespace AbstractSession

/-- What a session remembers of its effects, oldest first. -/
def of (effects : List Effect) : AbstractSession where
  state := (effects.filterMap Effect.state?).getLast?.getD .start
  subagent := (effects.filterMap Effect.subagent?).getLast?.getD .undefined
  turnIds := (effects.filterMap Effect.turnId?).eraseDups
  agentKey agentId := (effects.filterMap (Effect.agentKey? agentId)).getLast?
  reference := (effects.filterMap Effect.reference?).getLast?
  turns := effects.filterMap Effect.turn?

/-- One more effect. -/
def step (a : AbstractSession) (effect : Effect) : AbstractSession where
  state := effect.state?.getD a.state
  subagent := effect.subagent?.getD a.subagent
  turnIds := effect.turnId?.elim a.turnIds fun turnId =>
    if turnId ∈ a.turnIds then a.turnIds else a.turnIds ++ [turnId]
  agentKey agentId := (effect.agentKey? agentId).or (a.agentKey agentId)
  reference := effect.reference?.or a.reference
  turns := a.turns ++ effect.turn?.toList

/-- The last of a list with one more candidate. -/
theorem getLast?_filterMap_snoc {α β : Type} (f : α → Option β) (l : List α) (a : α) :
    ((l ++ [a]).filterMap f).getLast? = (f a).or (l.filterMap f).getLast? := by
  cases h : f a <;> simp [h]

/-- The distinct elements of a list with one more candidate. -/
theorem eraseDups_filterMap_snoc {α β : Type} [DecidableEq β] (f : α → Option β) (l : List α)
    (a : α) : ((l ++ [a]).filterMap f).eraseDups =
      (f a).elim (l.filterMap f).eraseDups fun b =>
        if b ∈ (l.filterMap f).eraseDups then (l.filterMap f).eraseDups
        else (l.filterMap f).eraseDups ++ [b] := by
  cases h : f a with
  | none => simp [h]
  | some b =>
    have hsnoc : (l ++ [a]).filterMap f = l.filterMap f ++ [b] := by simp [h]
    rw [hsnoc, List.eraseDups_append, Option.elim_some]
    simp only [List.mem_eraseDups]
    by_cases hb : b ∈ l.filterMap f
    · have hnone : [b].removeAll (l.filterMap f) = [] := by simpa [List.removeAll] using hb
      rw [hnone, if_pos hb, List.eraseDups_nil, List.append_nil]
    · have hone : [b].removeAll (l.filterMap f) = [b] := by
        simpa [List.removeAll] using hb
      rw [hone, if_neg hb]
      rfl

/-- The session remembers its effects one at a time. -/
theorem of_snoc (effects : List Effect) (effect : Effect) :
    of (effects ++ [effect]) = (of effects).step effect := by
  have hgetD {α : Type} (x y : Option α) (d : α) : (x.or y).getD d = x.getD (y.getD d) := by
    cases x <;> rfl
  rw [of, step, mk.injEq]
  refine ⟨?_, ?_, ?_, funext fun agentId => ?_, ?_, ?_⟩
  · rw [getLast?_filterMap_snoc, hgetD]
    rfl
  · rw [getLast?_filterMap_snoc, hgetD]
    rfl
  · rw [eraseDups_filterMap_snoc]
    rfl
  · rw [getLast?_filterMap_snoc]
    rfl
  · rw [getLast?_filterMap_snoc]
    rfl
  · rw [List.filterMap_append]
    cases h : effect.turn? <;> simp [of, h]

end AbstractSession

/-! ### Effects of served requests -/

/-- The effect that a request with this outcome has on session `k`, when it is for `k` and
accepted. A close by a token names its session in the response. -/
def Request.effect? (k : String) :
    Request → Except ServiceError Response → Option Effect
  | .patchSessionState request, .ok _ =>
    if request.globalSessionKey = k then some (.patch request) else none
  | .closeSession request, .ok _ => if request.globalSessionKey = k then some .close else none
  | .closeSessionByToken _ _, .ok (.closed response) =>
    if response.archivedConversationId = archivedId k then some .close else none
  | .saveApiResult k' _, .ok (.saved turn) => if k' = k then some (.save turn) else none
  | _, _ => none

/-- The effect of a served request on session `k`. -/
def Served.effect? (k : String) (s : Served) : Option Effect := s.request.effect? k s.outcome

/-- What session `k` remembers of the requests served. -/
def AbstractSession.ofServed (k : String) (served : List Served) : AbstractSession :=
  .of (served.filterMap (Served.effect? k))

/-- `AbstractSession.of_snoc` for served requests. -/
theorem AbstractSession.ofServed_snoc (k : String) (served : List Served) (s : Served) :
    ofServed k (served ++ [s]) =
      (s.effect? k).elim (ofServed k served) (ofServed k served).step := by
  unfold ofServed
  rw [List.filterMap_append]
  cases h : s.effect? k with
  | none => simp [h]
  | some effect => simp [h, of_snoc]

end SessionManager
