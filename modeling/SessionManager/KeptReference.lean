import SessionManager.Footprint
import SessionManager.PatchedSessions
import SessionManager.TokenRotation

/-!
# Reference information that a patch does not carry

A patch may send `current_intent` and `turn_count` at its top level and no `reference_information`.
What it stores is then a reference information of these values alone.

* `sent` — what a patch sends at its top level.
* `KeepsReference` — the stored reference information is the one before with these values put in.
* `patchSessionState_keepsReference_iff` — when an accepted patch leaves it so.
-/

namespace SessionManager

open Python Interaction
open SessionService SessionRepository RedisHelper

namespace KeptReference

open Program hiding pure

/-- The request carries no `reference_information`. -/
def CarriesNone (request : SessionPatchRequest) : Prop :=
  request.statePatch.bind StatePatch.referenceInformation = none

/-- What the request sends at its top level for a key of the reference information. -/
def sent (request : SessionPatchRequest) (key : String) : Option Json :=
  request.statePatch.bind fun patch =>
    if key = "current_intent" then patch.currentIntent.map .str
    else if key = "turn_count" then patch.turnCount.map .int
    else none

/-- The session has the reference information `before`, with what the request sends put in. -/
def KeepsReference (before : Dict) (request : SessionPatchRequest) (w : World) : Prop :=
  ∃ after, w.field request.globalSessionKey .referenceInformation = some (.obj after) ∧
    ∀ key, after.lookup key = (sent request key).or (before.lookup key)

/-- A reference information that is made of the top level alone has its values alone. -/
theorem lookup_mergedReference {patch : StatePatch} (hnone : patch.referenceInformation = none)
    (key : String) :
    (mergedReference patch).lookup key =
      if key = "current_intent" then patch.currentIntent.map .str
      else if key = "turn_count" then patch.turnCount.map .int
      else none := by
  have hne : ("turn_count" : String) ≠ "current_intent" := by decide
  unfold mergedReference
  rw [hnone]
  by_cases hintent : key = "current_intent"
  · subst hintent
    rw [if_pos rfl]
    -- `turn_count` is set last and leaves the intent alone
    cases patch.turnCount <;> cases patch.currentIntent <;>
      simp [Dict.lookup_set_of_ne, hne.symm]
  · rw [if_neg hintent]
    by_cases hcount : key = "turn_count"
    · subst hcount
      rw [if_pos rfl]
      cases patch.turnCount <;> cases patch.currentIntent <;>
        simp [Dict.lookup_set_of_ne, hne]
    · rw [if_neg hcount]
      cases patch.turnCount <;> cases patch.currentIntent <;>
        simp [Dict.lookup_set_of_ne, hintent, hcount]

variable {request : SessionPatchRequest}

/-- What a request without reference information stores has the values sent, and no others. -/
theorem lookup_newReference (hnone : CarriesNone request) {refInfo : Dict}
    (hnew : newReference request = some refInfo) (key : String) :
    refInfo.lookup key = sent request key := by
  unfold newReference at hnew
  obtain ⟨hmerged, -⟩ := Option.filter_eq_some_iff.mp hnew
  obtain ⟨patch, hpatch, rfl⟩ := Option.map_eq_some_iff.mp hmerged
  unfold CarriesNone at hnone
  unfold sent
  rw [hpatch] at hnone ⊢
  exact lookup_mergedReference hnone key

/-- A request that stores nothing has sent nothing. -/
theorem sent_eq_none (hnone : CarriesNone request) (hnew : newReference request = none)
    (key : String) : sent request key = none := by
  unfold CarriesNone at hnone
  unfold newReference at hnew
  unfold sent
  cases hpatch : request.statePatch with
  | none => rfl
  | some patch =>
    rw [hpatch] at hnone hnew
    have hempty : mergedReference patch = [] := by simpa using hnew
    refine (lookup_mergedReference hnone key).symm.trans ?_
    rw [hempty]
    rfl

/-- A request that stores something has sent something. -/
theorem exists_sent (hnone : CarriesNone request) {refInfo : Dict}
    (hnew : newReference request = some refInfo) : ∃ key, (sent request key).isSome := by
  have hlookup := lookup_newReference hnone hnew
  have hfilled : refInfo ≠ [] := by
    rintro rfl
    exact absurd (Option.filter_eq_some_iff.mp hnew).2 (by simp)
  obtain ⟨⟨key, v⟩, rest, rfl⟩ := List.exists_cons_of_ne_nil hfilled
  refine ⟨key, ?_⟩
  rw [← hlookup, List.lookup_cons_self]
  rfl

/-- What an accepted patch leaves as the reference information of a live session. -/
theorem patchSessionState_reference (cfg : Config) {env : World → World → Prop}
    (henv : ∀ w w', env w w' → World.Keeps (.session request.globalSessionKey) w w')
    {before : Json} {w w' : World} {response : SessionPatchResponse}
    (hbefore : w.field request.globalSessionKey .referenceInformation = some before)
    (hexec : (patchSessionState cfg request).Exec machine env w (.ok response) w') :
    w'.field request.globalSessionKey .referenceInformation =
      ((newReference request).map .obj).or (some before) := by
  unfold World.field at hbefore
  rw [World.hash_eq_entry] at hbefore
  cases he : w.entry (.session request.globalSessionKey) with
  | none =>
    rw [he] at hbefore
    cases hbefore
  | some e =>
    rw [he] at hbefore
    obtain ⟨t, e', he', -, -, now, t', hpatched⟩ :=
      (patchSessionState_spec henv request rfl he).exec hexec
    unfold World.field
    rw [World.hash_of_entry he', Option.bind_some, hpatched, patched_of_ne cfg request t now t'
      e.value (by decide)]
    rw [show e.value .referenceInformation = some before from hbefore]
    rfl

end KeptReference

open KeptReference in
/-- An accepted patch without `reference_information` keeps the reference information that is
stored, with the values that it sends put in, exactly if it sends none or if every stored key is
one that it sends. -/
theorem patchSessionState_keepsReference_iff (cfg : Config) {request : SessionPatchRequest}
    (hnone : CarriesNone request) {before : Dict} {w w' : World} {response : SessionPatchResponse}
    (hbefore : w.field request.globalSessionKey .referenceInformation = some (.obj before))
    (hexec : (patchSessionState cfg request).Exec machine
      (World.Keeps (.session request.globalSessionKey)) w (.ok response) w') :
    KeepsReference before request w' ↔
      (∀ key, sent request key = none) ∨
        ∀ key, (before.lookup key).isSome → (sent request key).isSome := by
  have hstored := patchSessionState_reference cfg (fun _ _ h => h) hbefore hexec
  unfold KeepsReference
  cases hnew : newReference request with
  | none =>
    -- nothing is written
    have hsent := sent_eq_none hnone hnew
    rw [hnew] at hstored
    refine iff_of_true ⟨before, hstored, fun key => ?_⟩ (.inl hsent)
    rw [hsent, Option.none_or]
  | some refInfo =>
    have hlookup := lookup_newReference hnone hnew
    rw [hnew] at hstored
    have hstored' : w'.field request.globalSessionKey .referenceInformation =
        some (.obj refInfo) := hstored
    rw [hstored']
    constructor
    · rintro ⟨after, heq, hafter⟩
      obtain rfl : refInfo = after := by
        simpa using heq
      refine .inr fun key hkey => ?_
      have hkept := hafter key
      rw [hlookup] at hkept
      cases hsent : sent request key with
      | some v => rfl
      | none =>
        rw [hsent, Option.none_or] at hkept
        rw [← hkept] at hkey
        exact hkey
    · rintro hcovers
      refine ⟨refInfo, rfl, fun key => ?_⟩
      rw [hlookup]
      cases hsent : sent request key with
      | some v => rfl
      | none =>
        rw [Option.none_or]
        rcases hcovers with hnothing | hcovers
        · obtain ⟨key', hkey'⟩ := exists_sent hnone hnew
          rw [hnothing] at hkey'
          cases hkey'
        · cases hlookup' : before.lookup key with
          | none => rfl
          | some v =>
            have hkey := hcovers key (by rw [hlookup']; rfl)
            rw [hsent] at hkey
            cases hkey

namespace KeptReference

/-- A conversation of one turn. -/
def history : Dict := [("conversation_history", .arr [.str "hello"]), ("turn_count", .int 1)]

/-- A session with the conversation. -/
def talking : World :=
  ((patchSessionState .default
    { globalSessionKey := "gsess_1"
      statePatch := some { referenceInformation := some history } }).run machine
      TokenRotation.opened).2

/-- The next message of the user. -/
def nextMessage : SessionPatchRequest where
  globalSessionKey := "gsess_1"
  sessionState := some .talk

/-- The number of turns, counted on. -/
def nextCount : SessionPatchRequest where
  globalSessionKey := "gsess_1"
  statePatch := some { turnCount := some 2 }

/-- A patch that sends neither value keeps the conversation. -/
theorem nextMessage_keeps :
    KeepsReference history nextMessage
      ((patchSessionState .default nextMessage).run machine talking).2 := by
  have hnone : CarriesNone nextMessage := rfl
  have hexec : (patchSessionState .default nextMessage).Exec machine
      (World.Keeps (.session "gsess_1")) talking _ _ :=
    .of_run (fun _ => World.Keeps.of_eq rfl) (patchSessionState .default nextMessage) talking
  exact (patchSessionState_keepsReference_iff .default hnone rfl hexec).mpr (.inl fun _ => rfl)

/-- A patch that sends the number of turns leaves nothing of the conversation. -/
theorem nextCount_erases :
    ∃ response w', CarriesNone nextCount ∧
      talking.field "gsess_1" .referenceInformation = some (.obj history) ∧
      (patchSessionState .default nextCount).Exec machine (World.Keeps (.session "gsess_1")) talking
        (.ok response) w' ∧
      w'.field "gsess_1" .referenceInformation = some (.obj [("turn_count", .int 2)]) ∧
      ¬ KeepsReference history nextCount w' := by
  have hexec : (patchSessionState .default nextCount).Exec machine
      (World.Keeps (.session "gsess_1")) talking _ _ :=
    .of_run (fun _ => World.Keeps.of_eq rfl) (patchSessionState .default nextCount) talking
  have hafter : ((patchSessionState .default nextCount).run machine talking).2.field "gsess_1"
      .referenceInformation = some (.obj [("turn_count", .int 2)]) := rfl
  refine ⟨_, _, rfl, rfl, hexec, hafter, ?_⟩
  rintro ⟨after, hstored, hkeeps⟩
  obtain rfl : _ = after := Json.obj.inj (Option.some.inj (hafter.symm.trans hstored))
  cases hkeeps "conversation_history"

end KeptReference

end SessionManager
