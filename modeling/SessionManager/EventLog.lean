import SessionManager.SessionEffects

/-!
# The ES log

What the records of the log say about the status of a session, as `docs/session_es.md` has them
indexed, and which of these records each request writes.

* `Status`, `LoggerExtraData.status?` — the status in the index, and what a record says about it.
* `ingest`, `World.status` — one record taken into the index, and the status after a replay.
* `Command.Mute` — no record that says anything about a status; what most programs are made of.
* `Request.logs` — the records of each request, as far as they tell a status.
-/

namespace SessionManager

open Python Interaction

/-! ### The index -/

/-- The `status` of a session in the index. -/
inductive Status where
  | active
  | ended
  deriving DecidableEq, Repr

/-- What a record says about the status of session `k`: a creation makes it active, a close ends
it, and every other record is a sign of life. -/
def LoggerExtraData.status? (k : String) (record : LoggerExtraData) : Option Status :=
  if record.sessionId = k then
    if record.logType = "SESSION_CREATE" then some .active
    else if record.logType = "SESSION_CLOSE" then some .ended
    else none
  else none

/-- The document of a session after a record: a creation makes one, a close updates the one that
there is. -/
def ingest (document : Option Status) : Status → Option Status
  | .active => some .active
  | .ended => document.map fun _ => .ended

/-- What the log says about the status of session `k`, oldest record first. -/
def World.told (w : World) (k : String) : List Status := w.esLog.filterMap (·.status? k)

/-- The status of session `k` when the log is replayed. -/
def World.status (w : World) (k : String) : Option Status := (w.told k).foldl ingest none

/-- A served request writes a `SESSION_CLOSE` record for session `k`. -/
def Served.LogsClose (k : String) (s : Served) : Prop :=
  ∃ record ∈ s.after.esLog.drop s.before.esLog.length,
    record.logType = "SESSION_CLOSE" ∧ record.sessionId = k

/-- What a served request tells about the status of session `k`. -/
def Served.tells (k : String) (s : Served) : List Status :=
  match s.request, s.outcome with
  | .createSession k' _ _, .ok _ => if k' = k then [.active] else []
  | _, _ =>
    match s.effect? k with
    | some .close => [.ended]
    | _ => []

namespace EventLog

open SessionRepository RedisHelper SessionService
open Program hiding pure

/-! ### Programs that tell nothing -/

/-- The command writes no record that says anything about a status. -/
def Mute : Command → Prop
  | .eslog record => record.logType ≠ "SESSION_CREATE" ∧ record.logType ≠ "SESSION_CLOSE"
  | _ => True

theorem setSession_mute (cfg : Config) (k : String) (data : Hash) (ttl : Option ℕ) :
    (setSession cfg k data ttl).Only Mute := ⟨trivial, fun _ => only_perform.mpr trivial⟩

theorem hsetWhen_mute (found : Bool) (k : String) (mapping : Hash) :
    (hsetWhen found k mapping).Only Mute := by
  cases found with
  | false => trivial
  | true => exact only_perform.mpr trivial

theorem update_mute (k : String) (updates : Hash) : (update k updates).Only Mute := by
  rw [update_eq]
  refine .perform_bind trivial fun now => .perform_bind trivial fun found => ?_
  exact (hsetWhen_mute found k _).bind fun _ => .perform_bind trivial fun _ => trivial

theorem extend_mute (cfg : Config) (key : Key) : (extend cfg key).Only Mute := by
  refine .perform_bind trivial fun found => ?_
  cases found with
  | false => trivial
  | true => exact only_perform.mpr trivial

theorem extendProfiles_mute (cfg : Config) (k : String) (session : Hash) :
    (extendProfiles cfg k session).Only Mute := by
  unfold extendProfiles
  split
  · split
    · exact extend_mute cfg _
    · exact (extend_mute cfg _).bind fun _ => extend_mute cfg _
  · exact extend_mute cfg _

theorem refreshTtl_mute (cfg : Config) (k : String) : (refreshTtl cfg k).Only Mute := by
  refine .perform_bind trivial fun session => ?_
  cases session with
  | none => trivial
  | some session =>
    refine .perform_bind trivial fun now => (setSession_mute cfg k _ _).bind fun _ => ?_
    refine (extend_mute cfg _).bind fun _ => ?_
    exact (extendProfiles_mute cfg k _).bind fun _ => trivial

theorem setLocalMapping_mute (k agentId agentSessionKey agentType : String) :
    (setLocalMapping k agentId agentSessionKey agentType).Only Mute := by
  refine .perform_bind trivial fun session => ?_
  cases session with
  | none => trivial
  | some session =>
    dsimp only
    split
    · trivial
    · rw [updateSession_eq k (mappingUpdate_isEmpty _)]
      exact .perform_bind trivial fun found => hsetWhen_mute found k _

theorem create_mute (cfg : Config) (args : CreateArgs) : (create cfg args).Only Mute := by
  refine .perform_bind trivial fun existing => ?_
  cases existing with
  | some session => trivial
  | none =>
    refine .perform_bind trivial fun now => ?_
    exact (setSession_mute cfg _ _ _).bind fun _ => trivial

theorem createTokens_mute (cfg : Config) (userId k jti : String) :
    (AuthService.createTokens cfg userId k jti).Only Mute :=
  ⟨trivial, fun _ => ⟨trivial, fun _ => ⟨trivial, fun _ => ⟨trivial, fun _ =>
    ⟨trivial, fun _ => trivial⟩⟩⟩⟩⟩

theorem sessionOfJti_mute (jti : String) : (sessionOfJti jti).Only Mute := by
  have hget : (getGlobalSessionKeyByJti jti).Only Mute := ⟨trivial, fun _ => trivial⟩
  refine hget.bind fun found => ?_
  cases found <;> trivial

theorem getGlobalSessionKeyFromToken_mute (token : Token) :
    (getGlobalSessionKeyFromToken token).Only Mute := by
  cases token with
  | invalid text => trivial
  | signed payload =>
    rw [getGlobalSessionKeyFromToken_signed]
    exact .perform_bind trivial fun now => only_ofExcept.bind fun jti => sessionOfJti_mute jti

theorem authenticate_mute (token : Token) (type : String) :
    (authenticate token type).Only Mute := by
  cases token with
  | invalid text => trivial
  | signed payload =>
    rw [authenticate_signed]
    refine .perform_bind trivial fun now => only_ofExcept.bind fun jti => ?_
    exact (sessionOfJti_mute jti).bind fun k => trivial

theorem jtiToDelete_mute (token : Token) : (AuthService.jtiToDelete token).Only Mute := by
  have hverify : (verifyToken token).Only Mute := by
    cases token with
    | invalid text => trivial
    | signed payload => exact ⟨trivial, fun _ => trivial⟩
  exact hverify.bind fun verified => by cases verified <;> trivial

theorem deleteJti_mute (jti : Option String) : (AuthService.deleteJti jti).Only Mute := by
  cases jti with
  | none => trivial
  | some jti => exact only_perform.mpr trivial

theorem refreshToken_mute (cfg : Config) (newJti : String) (token : Token) :
    (AuthService.refreshToken cfg newJti token).Only Mute := by
  refine (authenticate_mute token "refresh").bind fun x => ?_
  refine (refreshTtl_mute cfg _).bind fun _ => ?_
  exact ⟨trivial, fun _ => ⟨trivial, fun _ => ⟨trivial, fun _ => ⟨trivial, fun _ => ⟨trivial,
    fun _ => ⟨trivial, fun _ => ⟨by simp [Mute, AuthService.refreshRecord], fun _ => trivial⟩⟩⟩⟩⟩⟩⟩

theorem verifyTokenAndGetSession_mute (token : Token) :
    (AuthService.verifyTokenAndGetSession token).Only Mute :=
  (authenticate_mute token "access").bind fun _ =>
    .perform_bind trivial fun _ => .perform_bind (by simp [Mute, AuthService.verifyRecord])
      fun _ => trivial

theorem pingSessionByToken_mute (token : Token) :
    (AuthService.pingSessionByToken token).Only Mute := by
  refine (getGlobalSessionKeyFromToken_mute token).bind fun k => ?_
  refine .perform_bind trivial fun session => ?_
  cases session <;> trivial

theorem resolveSession_mute (request : SessionResolveRequest) :
    (resolveSession request).Only Mute := by
  -- the records of a resolution are of another kind
  have hmapped : (agentSessionKey request).Only Mute := by
    unfold agentSessionKey
    split
    · split
      · trivial
      · refine .perform_bind trivial fun session => ?_
        cases session with
        | none => trivial
        | some session =>
          dsimp only
          split <;> trivial
    · trivial
  have hprofiles (k : String) (cusno : Option String) : (sessionProfiles k cusno).Only Mute := by
    unfold sessionProfiles
    split
    · exact ⟨trivial, fun _ => ⟨trivial, fun _ => trivial⟩⟩
    · exact ⟨trivial, fun _ => trivial⟩
  refine .perform_bind trivial fun session => ?_
  cases session with
  | none => trivial
  | some session =>
    refine hmapped.bind fun _ => only_ofExcept.bind fun _ => (hprofiles _ _).bind fun _ => ?_
    exact ⟨by simp [Mute, resolveRecord], fun _ => only_ofExcept⟩

theorem patchSessionState_mute (cfg : Config) (request : SessionPatchRequest) :
    (patchSessionState cfg request).Only Mute := by
  have hrefresh : (refreshOnTalk cfg request).Only Mute := by
    unfold refreshOnTalk
    split
    · exact (refreshTtl_mute cfg _).bind fun _ => trivial
    · trivial
  have hregister : (registerAgent request).Only Mute := by
    unfold registerAgent
    split
    · exact setLocalMapping_mute _ _ _ _
    · trivial
  refine .perform_bind trivial fun session => ?_
  cases session with
  | none => trivial
  | some session =>
    refine .perform_bind trivial fun now => hrefresh.bind fun _ => only_ofExcept.bind fun _ => ?_
    refine hregister.bind fun _ => (update_mute _ _).bind fun _ => ?_
    exact ⟨by simp [Mute, patchRecord], fun _ => trivial⟩

theorem saveApiResult_mute (cfg : Config) (k : String) (request : SolApiResultRequest) :
    (saveApiResult cfg k request).Only Mute := by
  refine .perform_bind trivial fun session => ?_
  cases session with
  | none => trivial
  | some session => exact ⟨trivial, fun _ => ⟨trivial, fun _ => ⟨trivial, fun _ => trivial⟩⟩⟩

theorem updateRealtimePersonalContext_mute (cfg : Config) (lookup : ProfileService.BatchLookup)
    (k : String) (profileData : Dict) :
    (ProfileService.updateRealtimePersonalContext cfg lookup k profileData).Only Mute := by
  have hprofile (key : Key) (profile : key.Value) (ttl : Option ℕ) :
      (setProfile cfg key profile ttl).Only Mute := ⟨trivial, fun _ => only_perform.mpr trivial⟩
  have hstore (cusno : Option String) :
      (ProfileService.storeProfiles cfg lookup k profileData cusno).Only Mute := by
    cases cusno with
    | none => exact (hprofile _ _ _).bind fun _ => trivial
    | some cusno =>
      refine (update_mute k _).bind fun _ => (hprofile _ _ _).bind fun _ => ?_
      refine only_ofExcept.bind fun batch => ?_
      unfold ProfileService.storeBatchProfile
      split
      · exact (hprofile _ _ _).bind fun _ => trivial
      · trivial
  refine .perform_bind trivial fun session => ?_
  cases session with
  | none => trivial
  | some session =>
    refine only_ofExcept.bind fun _ => (hstore _).bind fun _ => ?_
    exact ⟨by simp [Mute, ProfileService.updateRecord], fun _ => ⟨trivial, fun _ => trivial⟩⟩

/-! ### What programs write to the log -/

variable {cfg : Config} {env : World → World → Prop} {k : String}

/-- A command writes its record at the end of the log, or nothing. -/
theorem esLog_machine (c : Command) (w : World) : w.esLog <+: (machine c w).2.esLog := by
  cases c with
  | eslog record => exact List.prefix_append _ _
  | _ => exact List.prefix_rfl

theorem told_machine {c : Command} (hc : Mute c) (w : World) (k : String) :
    (machine c w).2.told k = w.told k := by
  cases c with
  | eslog record =>
    have hnone : record.status? k = none := by
      simp [LoggerExtraData.status?, hc.1, hc.2]
    show (w.esLog ++ [record]).filterMap (·.status? k) = _
    simp [World.told, hnone]
  | _ => rfl

/-- One more record. -/
theorem told_eslog (w : World) (record : LoggerExtraData) (k : String) :
    (w.eslog record).told k = w.told k ++ (record.status? k).toList := by
  show (w.esLog ++ [record]).filterMap (·.status? k) = _
  cases h : record.status? k <;> simp [World.told, h]

theorem told_elapses {w w' : World} (h : w.Elapses w') : w'.told k = w.told k := by
  obtain ⟨d, rfl⟩ := h
  rfl

variable (henv : ∀ w w', env w w' → w.Elapses w')
include henv

/-- A program writes at the end of the log. -/
theorem esLog_grows {α : Type} (p : Svc α) (w : World) :
    p.Wp machine env (fun _ w' => w.esLog <+: w'.esLog) w := by
  refine Wp.of_invariant (I := fun w' : World => w.esLog <+: w'.esLog) ?_ ?_ p List.prefix_rfl
  · intro w₁ w₂ hstep h
    obtain ⟨d, rfl⟩ := henv _ _ hstep
    exact h
  · exact fun c w₁ h => h.trans (esLog_machine c w₁)

/-- A mute program tells nothing. -/
theorem told_of_mute {α : Type} {p : Svc α} (hp : p.Only Mute) {w : World} {told : List Status}
    (h : w.told k = told) : p.Wp machine env (fun _ w' => w'.told k = told) w := by
  refine Wp.of_only (I := fun w' : World => w'.told k = told) hp ?_ ?_ h
  · intro w₁ w₂ hstep h
    rw [told_elapses (henv _ _ hstep), h]
  · intro c w₁ hc h
    rw [told_machine hc, h]

/-- What follows a mute program. -/
theorem mute_bind {α β : Type} {p : Svc α} (hp : p.Only Mute) {f : α → Svc β}
    {Q : Except ServiceError β → World → Prop} {w : World} {told : List Status}
    (h : w.told k = told) (herror : ∀ err w', w'.told k = told → Q (.error err) w')
    (hf : ∀ a w', w'.told k = told → (f a).Wp machine env Q w') :
    (p >>= f).Wp machine env Q w :=
  (told_of_mute henv hp h).bind_kept herror hf

omit henv in
/-- A close of session `k'` has failed and tells nothing, or has succeeded and tells that `k'` has
ended. -/
def TellsClose (k k' : String) (told : List Status) (x : Except ServiceError SessionCloseResponse)
    (w' : World) : Prop :=
  (∃ err, x = .error err) ∧ w'.told k = told ∨
    ∃ now, x = .ok (closeResponse k' now) ∧ w'.told k = told ++ if k' = k then [.ended] else []

/-- The end of a close: the record and the response. -/
theorem close_tail_tells {k' : String} {now : ℕ} {record : LoggerExtraData}
    (htype : record.logType = "SESSION_CLOSE") (hid : record.sessionId = k') {w : World}
    {told : List Status} (h : w.told k = told) :
    (do issue (.eslog record); return closeResponse k' now : Svc SessionCloseResponse).Wp machine
      env (TellsClose k k' told) w := by
  refine wp_perform_bind.mpr fun w₁ h₁ => .inr ⟨now, rfl, ?_⟩
  show (w₁.eslog record).told k = _
  rw [told_eslog, told_elapses (henv _ _ h₁), h, LoggerExtraData.status?, hid]
  by_cases hk : k' = k
  · simp [hk, htype]
  · simp [hk]

theorem closeSession_tells (request : SessionCloseRequest) (w : World) :
    (closeSession request).Wp machine env
      (TellsClose k request.globalSessionKey (w.told k)) w := by
  refine wp_perform_bind.mpr fun w₁ h₁ => ?_
  have htold₁ : (machine (.hgetall request.globalSessionKey) w₁).2.told k = w.told k :=
    told_elapses (henv _ _ h₁)
  cases (machine (.hgetall request.globalSessionKey) w₁).1 with
  | none => exact .inl ⟨⟨_, rfl⟩, htold₁⟩
  | some session =>
    refine wp_perform_bind.mpr fun w₂ h₂ => ?_
    have htold₂ : (machine .now w₂).2.told k = w.told k :=
      (told_elapses (henv _ _ h₂)).trans htold₁
    refine mute_bind henv (update_mute _ _) htold₂ (fun err w₃ h₃ => .inl ⟨⟨err, rfl⟩, h₃⟩)
      fun _ w₃ htold₃ => ?_
    exact close_tail_tells henv rfl rfl htold₃

theorem closeSessionByToken_tells (token : Token) (closeReason : Option String) (w : World) :
    (AuthService.closeSessionByToken token closeReason).Wp machine env
      (fun x w' => ∃ k', TellsClose k k' (w.told k) x w') w := by
  have hfailed (err : ServiceError) (w' : World) (h : w'.told k = w.told k) :
      ∃ k', TellsClose k k' (w.told k) (.error err) w' := ⟨k, .inl ⟨⟨err, rfl⟩, h⟩⟩
  refine mute_bind henv (getGlobalSessionKeyFromToken_mute token) rfl hfailed fun k' w₁ htold₁ => ?_
  refine wp_perform_bind.mpr fun w₂ h₂ => ?_
  have htold₂ : (machine (.hgetall k') w₂).2.told k = w.told k :=
    (told_elapses (henv _ _ h₂)).trans htold₁
  cases (machine (.hgetall k') w₂).1 with
  | none => exact hfailed _ _ htold₂
  | some session =>
    refine wp_perform_bind.mpr fun w₃ h₃ => ?_
    have htold₃ : (machine .now w₃).2.told k = w.told k :=
      (told_elapses (henv _ _ h₃)).trans htold₂
    refine mute_bind henv (update_mute _ _) htold₃ hfailed fun _ w₄ htold₄ => ?_
    refine mute_bind henv (jtiToDelete_mute token) htold₄ hfailed fun jti w₅ htold₅ => ?_
    refine mute_bind henv (deleteJti_mute jti) htold₅ hfailed fun _ w₆ htold₆ => ?_
    exact (close_tail_tells henv rfl rfl htold₆).mono fun x w' h => ⟨k', h⟩

/-- A creation tells that its session is active, unless it fails. -/
theorem createSession_tells (cfg : Config) (k' jti : String) (request : SessionCreateRequest)
    (w : World) :
    (createSession cfg k' jti request).Wp machine env (fun x w' =>
      (∃ err, x = .error err) ∧ w'.told k = w.told k ∨
        (∃ response, x = .ok response) ∧ w'.told k = w.told k ++ if k' = k then [.active] else [])
      w := by
  refine mute_bind henv (createTokens_mute cfg _ k' jti) rfl
    (fun err w₁ h₁ => .inl ⟨⟨err, rfl⟩, h₁⟩) fun tokens w₁ htold₁ => ?_
  refine mute_bind henv (create_mute cfg _) htold₁ (fun err w₂ h₂ => .inl ⟨⟨err, rfl⟩, h₂⟩)
    fun _ w₂ htold₂ => ?_
  refine wp_perform_bind.mpr fun w₃ h₃ => wp_perform_bind.mpr fun w₄ h₄ => .inr ⟨⟨_, rfl⟩, ?_⟩
  show (w₄.eslog _).told k = _
  rw [told_eslog, told_elapses (henv _ _ h₄)]
  show w₃.told k ++ _ = _
  rw [told_elapses (henv _ _ h₃), htold₂]
  by_cases hk : k' = k
  · simp [LoggerExtraData.status?, createRecord, hk]
  · simp [LoggerExtraData.status?, createRecord, hk]

end EventLog

open EventLog in
/-- Every request tells the status of a session by its creations and its closes only. -/
theorem Request.tells {cfg : Config} {env : World → World → Prop} {k : String}
    (henv : ∀ w w', env w w' → w.Elapses w') (request : Request) (w : World) :
    (request.program cfg).Wp machine env (fun outcome w' =>
      w'.told k = w.told k ++ Served.tells k ⟨request, outcome, w, w'⟩) w := by
  -- what writes no record about states
  have hmute {α : Type} {p : Svc α} {f : α → Response} (hp : p.Only Mute)
      (hnone : ∀ outcome w', Served.tells k ⟨request, outcome, w, w'⟩ = []) :
      (do let a ← p; return f a : Svc Response).Wp machine env (fun outcome w' =>
        w'.told k = w.told k ++ Served.tells k ⟨request, outcome, w, w'⟩) w := by
    refine Program.wp_map.mpr ((told_of_mute (k := k) henv hp rfl).mono fun x w' h => ?_)
    rw [hnone, List.append_nil, h]
  cases request with
  | createSession k' jti r =>
    refine Program.wp_map.mpr
      ((createSession_tells (k := k) henv cfg k' jti r w).mono fun x w' h => ?_)
    rcases h with ⟨⟨err, rfl⟩, h⟩ | ⟨⟨response, rfl⟩, h⟩
    · simpa [Served.tells, Served.effect?, Request.effect?, Except.map] using h
    · exact h
  | verifyTokenAndGetSession token =>
    exact hmute (verifyTokenAndGetSession_mute token) fun _ _ => rfl
  | refreshToken newJti token => exact hmute (refreshToken_mute cfg newJti token) fun _ _ => rfl
  | pingSessionByToken token => exact hmute (pingSessionByToken_mute token) fun _ _ => rfl
  | closeSessionByToken token closeReason =>
    refine Program.wp_map.mpr
      ((closeSessionByToken_tells (k := k) henv token closeReason w).mono fun x w' h => ?_)
    obtain ⟨k', ⟨⟨err, rfl⟩, h⟩ | ⟨now, rfl, h⟩⟩ := h
    · simpa [Served.tells, Served.effect?, Request.effect?, Except.map] using h
    · rw [h]
      -- a close tells only of its own session
      by_cases hk : k' = k
      · simp [Served.tells, Served.effect?, Request.effect?, Except.map, closeResponse, hk]
      · simp [Served.tells, Served.effect?, Request.effect?, Except.map, closeResponse,
          archivedId, hk]
  | resolveSession r => exact hmute (resolveSession_mute r) fun _ _ => rfl
  | patchSessionState r =>
    refine hmute (patchSessionState_mute cfg r) fun outcome w' => ?_
    cases outcome with
    | error err => rfl
    | ok response =>
      by_cases hk : r.globalSessionKey = k
      · simp [Served.tells, Served.effect?, Request.effect?, hk]
      · simp [Served.tells, Served.effect?, Request.effect?, hk]
  | closeSession r =>
    refine Program.wp_map.mpr ((closeSession_tells (k := k) henv r w).mono fun x w' h => ?_)
    rcases h with ⟨⟨err, rfl⟩, h⟩ | ⟨now, rfl, h⟩
    · simpa [Served.tells, Served.effect?, Request.effect?, Except.map] using h
    · rw [h]
      by_cases hk : r.globalSessionKey = k
      · simp [Served.tells, Served.effect?, Request.effect?, Except.map, hk]
      · simp [Served.tells, Served.effect?, Request.effect?, Except.map, hk]
  | saveApiResult k' r =>
    refine Program.wp_map.mpr
      ((told_of_mute (k := k) henv (saveApiResult_mute cfg k' r) rfl).mono fun x w' h => ?_)
    cases x with
    | error err => simpa [Served.tells, Served.effect?, Request.effect?, Except.map] using h
    | ok turn =>
      by_cases hk : k' = k
      · simpa [Served.tells, Served.effect?, Request.effect?, hk, Except.map] using h
      · simpa [Served.tells, Served.effect?, Request.effect?, hk, Except.map] using h
  | updateRealtimePersonalContext lookup k' profileData =>
    exact hmute (updateRealtimePersonalContext_mute cfg lookup k' profileData) fun _ _ => rfl

/-- The records of a request say who is closed: what a served request told, and its effect. -/
theorem Served.logsClose_iff {s : Served} {k : String} (happends : s.before.esLog <+: s.after.esLog)
    (htold : s.after.told k = s.before.told k ++ s.tells k) :
    s.LogsClose k ↔ s.effect? k = some .close := by
  obtain ⟨records, hrecords⟩ := happends
  have hdrop : s.after.esLog.drop s.before.esLog.length = records := by
    rw [← hrecords, List.drop_left]
  have htells : records.filterMap (·.status? k) = s.tells k := by
    have h := htold
    rw [World.told, ← hrecords, List.filterMap_append] at h
    exact List.append_cancel_left h
  -- only a close is told by `ended`
  have hclosed : .ended ∈ s.tells k ↔ s.effect? k = some .close := by
    obtain ⟨request, outcome, before, after⟩ := s
    unfold Served.tells
    cases request with
    | createSession k' jti r =>
      -- a creation has no effect on a session that is there
      have hnone : Served.effect? k ⟨.createSession k' jti r, outcome, before, after⟩ = none := by
        cases outcome <;> rfl
      rw [hnone]
      cases outcome with
      | error err => simp
      | ok response => by_cases hk : k' = k <;> simp [hk]
    | _ =>
      dsimp only
      rcases Served.effect? k _ with _ | _ | _ | _ <;> simp
  rw [← hclosed, ← htells, List.mem_filterMap, Served.LogsClose, hdrop]
  refine exists_congr fun record => and_congr_right fun _ => ?_
  unfold LoggerExtraData.status?
  split_ifs with hid hcreate hclose
  · simp [hcreate]
  · simp [hclose, hid]
  · simp [hclose]
  · simp [hid]

end SessionManager
