import SessionManager.SessionRepository
import SessionManager.Utils

/-!
# The text of a session hash

What Redis holds for a session are texts. Here each field has its name in the hash, the text that
the code writes for its value, and the value that the code reads from a text.

* `Field.text` — the name of a field.
* `Field.encode`, `Field.decode` — a value to its text and back, with the function that the code
  uses for the field.
* `Field.Valid`, `Field.plain`, `Field.norm` — the values for which nothing fails, their text, and
  what is read back: the same, the keys in order where the code sorts them.
* `Hash.encode`, `Hash.decode`, `Hash.plain`, `Hash.norm` — the same for a hash as a whole.
-/

namespace SessionManager

open Python

/-! ### Fields -/

namespace Field

/-- The name of a field in the hash. -/
def text : Field → String
  | .globalSessionKey => "global_session_key"
  | .userId => "user_id"
  | .channel => "channel"
  | .conversationId => "conversation_id"
  | .sessionState => "session_state"
  | .taskQueueStatus => "task_queue_status"
  | .subagentStatus => "subagent_status"
  | .profile => "profile"
  | .expiresAt => "expires_at"
  | .createdAt => "created_at"
  | .updatedAt => "updated_at"
  | .triggerId => "trigger_id"
  | .startType => "start_type"
  | .customerProfile => "customer_profile"
  | .actionOwner => "action_owner"
  | .referenceInformation => "reference_information"
  | .cushionMessage => "cushion_message"
  | .sessionAttributes => "session_attributes"
  | .lastEvent => "last_event"
  | .agentMappings => "agent_mappings"
  | .turnIds => "turn_ids"
  | .closeReason => "close_reason"
  | .endedAt => "ended_at"
  | .finalSummary => "final_summary"
  | .cusno => "cusno"

/-- The field of a name. -/
def ofText? (name : String) : Option Field := Hash.fields.find? fun f => f.text = name

theorem ofText?_text (f : Field) : ofText? f.text = some f := by
  cases f <;> decide

/-- `isoformat`; there is no `datetime` after the year 9999. -/
def instantText (t : ℕ) : Except PyError (Option String) :=
  if t < endOfTime then .ok (datetimeToIso (.datetime t)) else .error .overflowError

/-- The text that the code writes for the value of a field; `none` when it leaves the field out. -/
def encode : (f : Field) → f.Value → Except PyError (Option String)
  | .expiresAt, t | .createdAt, t | .updatedAt, t | .endedAt, t => instantText t
  | .profile, v | .customerProfile, v | .agentMappings, v => (Json.dumps false true v).map some
  | .referenceInformation, v => .ok (some (serializeReferenceInformation v))
  | .sessionAttributes, v | .lastEvent, v | .turnIds, v => .ok (nonEmpty (safeJsonDumps v))
  | .globalSessionKey, s | .userId, s | .channel, s | .conversationId, s | .sessionState, s
  | .taskQueueStatus, s | .subagentStatus, s | .triggerId, s | .startType, s | .actionOwner, s
  | .cushionMessage, s | .closeReason, s | .finalSummary, s | .cusno, s => .ok (some s)

/-- `json.loads`; a text that is not JSON counts as missing. -/
def loadText (floatRepr : String → String) (s : String) : Except PyError (Option Json) :=
  match Json.loads floatRepr s with
  | .ok v => .ok (some v)
  | .error .decode => .ok none
  | .error .tooLong => .error .valueError

/-- The value that the code reads from the text of a field; `none` when it goes on as if the field
were missing. -/
def decode (floatRepr : String → String) : (f : Field) → String → Except PyError (Option f.Value)
  | .expiresAt, s | .createdAt, s | .updatedAt, s | .endedAt, s => .ok (fromisoformat s)
  | .profile, s | .customerProfile, s | .agentMappings, s => loadText floatRepr s
  | .referenceInformation, s | .sessionAttributes, s | .lastEvent, s | .turnIds, s =>
    (safeJsonParse floatRepr (.str s)).map some
  | .globalSessionKey, s | .userId, s | .channel, s | .conversationId, s | .sessionState, s
  | .taskQueueStatus, s | .subagentStatus, s | .triggerId, s | .startType, s | .actionOwner, s
  | .cushionMessage, s | .closeReason, s | .finalSummary, s | .cusno, s => .ok (some s)

/-- A `dict` that `json.dumps` can write. -/
def ValidDict (floatRepr : String → String) (v : Json) : Prop :=
  v.Valid floatRepr ∧ ∃ d, v = .obj d

/-- The values that the code writes, as far as it depends on them whether reading gives them
back. -/
def Valid (floatRepr : String → String) : (f : Field) → f.Value → Prop
  | .expiresAt, t | .createdAt, t | .updatedAt, t | .endedAt, t => t < endOfTime
  | .profile, v | .customerProfile, v | .agentMappings, v | .referenceInformation, v
  | .sessionAttributes, v | .lastEvent, v => ValidDict floatRepr v
  | .turnIds, v => ∃ turnIds : List String, v = .arr (turnIds.map .str)
  | .globalSessionKey, _ | .userId, _ | .channel, _ | .conversationId, _ | .sessionState, _
  | .taskQueueStatus, _ | .subagentStatus, _ | .triggerId, _ | .startType, _ | .actionOwner, _
  | .cushionMessage, _ | .closeReason, _ | .finalSummary, _ | .cusno, _ => True

/-- The text of a value, when nothing fails. -/
def plain : (f : Field) → f.Value → String
  | .expiresAt, t | .createdAt, t | .updatedAt, t | .endedAt, t => isoformat t
  | .profile, v | .customerProfile, v | .agentMappings, v => String.ofList (v.text true)
  | .referenceInformation, v | .sessionAttributes, v | .lastEvent, v | .turnIds, v =>
    String.ofList (v.sortKeys.text false)
  | .globalSessionKey, s | .userId, s | .channel, s | .conversationId, s | .sessionState, s
  | .taskQueueStatus, s | .subagentStatus, s | .triggerId, s | .startType, s | .actionOwner, s
  | .cushionMessage, s | .closeReason, s | .finalSummary, s | .cusno, s => s

/-- What is read back from the text of a value. -/
def norm : (f : Field) → f.Value → f.Value
  | .referenceInformation, v | .sessionAttributes, v | .lastEvent, v | .turnIds, v => v.sortKeys
  | .expiresAt, t | .createdAt, t | .updatedAt, t | .endedAt, t => t
  | .profile, v | .customerProfile, v | .agentMappings, v => v
  | .globalSessionKey, s | .userId, s | .channel, s | .conversationId, s | .sessionState, s
  | .taskQueueStatus, s | .subagentStatus, s | .triggerId, s | .startType, s | .actionOwner, s
  | .cushionMessage, s | .closeReason, s | .finalSummary, s | .cusno, s => s

variable {floatRepr : String → String}

/-! ### JSON values in a field -/

theorem dumps_of_valid {v : Json} (hv : v.Valid floatRepr) (sortKeys ensureAscii : Bool) :
    Json.dumps sortKeys ensureAscii v =
      .ok (String.ofList ((if sortKeys then v.sortKeys else v).text ensureAscii)) :=
  if_pos (Json.shortInts_of_valid v hv)

theorem safeJsonParse_text {v : Json} (hv : v.Valid floatRepr) (ensureAscii : Bool) :
    (safeJsonParse floatRepr (.str (String.ofList (v.text ensureAscii)))).map some =
      .ok (some v) := by
  rw [safeJsonParse_of_loads (Json.loads_text hv ensureAscii)]
  rfl

theorem loadText_text {v : Json} (hv : v.Valid floatRepr) (ensureAscii : Bool) :
    loadText floatRepr (String.ofList (v.text ensureAscii)) = .ok (some v) := by
  rw [loadText, Json.loads_text hv ensureAscii]

theorem ValidDict.ne_null {v : Json} (h : ValidDict floatRepr v) : v ≠ .null := by
  obtain ⟨-, d, rfl⟩ := h
  exact nofun

theorem ValidDict.sortKeys {v : Json} (h : ValidDict floatRepr v) :
    ValidDict floatRepr v.sortKeys := by
  obtain ⟨hv, d, rfl⟩ := h
  exact ⟨hv.sortKeys, _, rfl⟩

/-- A list of strings can be written. -/
theorem valid_strings (ss : List String) : (Json.arr (ss.map .str)).Valid floatRepr :=
  Json.validItems_iff.mpr fun item hitem => by
    obtain ⟨s, -, rfl⟩ := List.mem_map.mp hitem
    trivial

/-- A list of strings has no keys to sort. -/
theorem sortKeys_strings (ss : List String) :
    (Json.arr (ss.map .str)).sortKeys = .arr (ss.map .str) := by
  have hitems : Json.sortItems (ss.map .str) = ss.map .str := by
    induction ss with
    | nil => rfl
    | cons s ss ih => exact congrArg (Json.str s :: ·) ih
  rw [Json.sortKeys, hitems]

/-! ### Round trips -/

theorem encode_of_valid {f : Field} {v : f.Value} (h : f.Valid floatRepr v) :
    f.encode v = .ok (some (f.plain v)) := by
  cases f
  case expiresAt | createdAt | updatedAt | endedAt => exact if_pos h
  case profile | customerProfile | agentMappings =>
    show (Json.dumps false true v).map some = _
    rw [dumps_of_valid h.1]
    rfl
  case referenceInformation =>
    -- the text is the one that `json.dumps` writes, which does not fail
    have hdumps := serializeReferenceInformation_of_valid h.1 h.ne_null
    rw [dumps_of_valid h.1] at hdumps
    show Except.ok (some (serializeReferenceInformation v)) = _
    rw [← Except.ok.inj hdumps]
    rfl
  case sessionAttributes | lastEvent =>
    show Except.ok (nonEmpty (safeJsonDumps v)) = _
    rw [nonEmpty_dumps h.1 h.ne_null (dumps_of_valid h.1 true false)]
    rfl
  case turnIds =>
    obtain ⟨turnIds, rfl⟩ := h
    have hv := @valid_strings floatRepr turnIds
    show Except.ok (nonEmpty (safeJsonDumps _)) = _
    rw [nonEmpty_dumps hv nofun (dumps_of_valid hv true false)]
    rfl
  all_goals rfl

theorem decode_plain {f : Field} {v : f.Value} (h : f.Valid floatRepr v) :
    f.decode floatRepr (f.plain v) = .ok (some (f.norm v)) := by
  cases f
  case expiresAt | createdAt | updatedAt | endedAt =>
    exact congrArg Except.ok (fromisoformat_isoformat h)
  case profile | customerProfile | agentMappings => exact loadText_text h.1 true
  case referenceInformation | sessionAttributes | lastEvent =>
    exact safeJsonParse_text h.sortKeys.1 false
  case turnIds =>
    obtain ⟨turnIds, rfl⟩ := h
    exact safeJsonParse_text (valid_strings turnIds).sortKeys false
  all_goals rfl

/-- What is read back is written as the same text. -/
theorem plain_norm {f : Field} {v : f.Value} (h : f.Valid floatRepr v) :
    f.plain (f.norm v) = f.plain v := by
  cases f
  case referenceInformation | sessionAttributes | lastEvent =>
    exact congrArg (fun v : Json => String.ofList (v.text false)) (Json.sortKeys_sortKeys v h.1)
  case turnIds =>
    obtain ⟨turnIds, rfl⟩ := h
    exact congrArg (fun v : Json => String.ofList (v.text false))
      (Json.sortKeys_sortKeys _ (@valid_strings floatRepr turnIds))
  all_goals rfl

theorem Valid.norm {f : Field} {v : f.Value} (h : f.Valid floatRepr v) :
    f.Valid floatRepr (f.norm v) := by
  cases f
  case referenceInformation | sessionAttributes | lastEvent => exact ValidDict.sortKeys h
  case turnIds =>
    obtain ⟨turnIds, rfl⟩ := h
    exact ⟨turnIds, sortKeys_strings turnIds⟩
  all_goals exact h

end Field

/-! ### Hashes -/

/-- A hash as Redis has it: names and texts. -/
abbrev TextHash := String → Option String

/-- `HSET`: the mapping's fields replace the hash's, the other fields stay. -/
def TextHash.merge (h mapping : TextHash) : TextHash := fun name => (mapping name).or (h name)

/-- A mapping alone. -/
theorem TextHash.merge_empty (mapping : TextHash) :
    TextHash.merge (fun _ => none) mapping = mapping :=
  funext fun _ => Option.or_none

namespace Hash

/-- The text that the code writes for a field of a hash. -/
def encodeField (h : Hash) (f : Field) : Except PyError (Option String) :=
  match h f with
  | none => .ok none
  | some v => f.encode v

/-- The names and texts that the code writes for a hash or a mapping. -/
def encode (h : Hash) : Except PyError TextHash := do
  fields.forM fun f => (h.encodeField f).map fun _ => ()
  pure fun name => (Field.ofText? name).bind fun f => (h.encodeField f).toOption.join

/-- The value that the code reads from a field of a hash. -/
def decodeField (floatRepr : String → String) (texts : TextHash) (f : Field) :
    Except PyError (Option f.Value) :=
  match texts f.text with
  | none => .ok none
  | some s => f.decode floatRepr s

/-- The fields that the code reads from a hash. -/
def decode (floatRepr : String → String) (texts : TextHash) : Except PyError Hash := do
  fields.forM fun f => (decodeField floatRepr texts f).map fun _ => ()
  pure fun f => (decodeField floatRepr texts f).toOption.join

/-- Every field has a value that the code writes. -/
def Valid (floatRepr : String → String) (h : Hash) : Prop :=
  ∀ f v, h f = some v → f.Valid floatRepr v

/-- The names and texts of a hash, when nothing fails. -/
def plain (h : Hash) : TextHash := fun name =>
  (Field.ofText? name).bind fun f => (h f).map f.plain

/-- What is read back from the texts of a hash. -/
def norm (h : Hash) : Hash := fun f => (h f).map f.norm

variable {floatRepr : String → String}

theorem plain_text (h : Hash) (f : Field) : h.plain f.text = (h f).map f.plain := by
  rw [plain, Field.ofText?_text, Option.bind_some]

/-- A loop in which no step fails. -/
theorem forM_ok {α E : Type} {step : α → Except E Unit} (h : ∀ a, step a = .ok ()) (l : List α) :
    l.forM step = .ok () := by
  induction l with
  | nil => rfl
  | cons a l ih =>
    show (step a >>= fun _ => l.forM step) = _
    rw [h a]
    exact ih

theorem encodeField_of_valid {h : Hash} (hv : h.Valid floatRepr) (f : Field) :
    h.encodeField f = .ok ((h f).map f.plain) := by
  unfold encodeField
  cases hf : h f with
  | none => rfl
  | some v => exact Field.encode_of_valid (hv f v hf)

/-- A hash of such values is written without failure. -/
theorem encode_of_valid {h : Hash} (hv : h.Valid floatRepr) : h.encode = .ok h.plain := by
  have hfield := encodeField_of_valid hv
  -- no field fails, so the loop comes to its end
  rw [encode, forM_ok fun f => by rw [hfield f]; rfl]
  simp only [hfield]
  rfl

theorem decodeField_plain {h : Hash} (hv : h.Valid floatRepr) (f : Field) :
    decodeField floatRepr h.plain f = .ok (h.norm f) := by
  rw [decodeField, plain_text, norm]
  cases hf : h f with
  | none => rfl
  | some v => exact Field.decode_plain (hv f v hf)

/-- And it is read back, its keys in order where the code sorts them. -/
theorem decode_plain {h : Hash} (hv : h.Valid floatRepr) :
    decode floatRepr h.plain = .ok h.norm := by
  have hfield := decodeField_plain hv
  rw [decode, forM_ok fun f => by rw [hfield f]; rfl]
  simp only [hfield]
  rfl

/-- A field that is not sorted is read back as it is. -/
theorem norm_apply {f : Field} (hf : ∀ v, f.norm v = v) (h : Hash) : h.norm f = h f := by
  rw [norm, show f.norm = id from funext hf, Option.map_id_fun, id]

theorem Valid.norm {h : Hash} (hv : h.Valid floatRepr) : h.norm.Valid floatRepr := by
  intro f v hf
  obtain ⟨v', hf', rfl⟩ := Option.map_eq_some_iff.mp hf
  exact (hv f v' hf').norm

/-- What is read back is written as the same texts. -/
theorem plain_norm {h : Hash} (hv : h.Valid floatRepr) : h.norm.plain = h.plain := by
  funext name
  unfold plain
  refine congrArg _ (funext fun f => ?_)
  rw [Hash.norm]
  cases hf : h f with
  | none => rfl
  | some v => exact congrArg some (Field.plain_norm (hv f v hf))

theorem Valid.empty : Hash.empty.Valid floatRepr := nofun

theorem Valid.set {h : Hash} (hv : h.Valid floatRepr) {f : Field} {v : f.Value}
    (hvalue : f.Valid floatRepr v) : (h.set f v).Valid floatRepr := by
  intro g w hg
  by_cases hgf : g = f
  · subst hgf
    obtain rfl := Option.some.inj ((h.set_self g v).symm.trans hg)
    exact hvalue
  · exact hv g w ((h.set_of_ne hgf v).symm.trans hg)

theorem Valid.merge {h mapping : Hash} (hv : h.Valid floatRepr) (hm : mapping.Valid floatRepr) :
    (h.merge mapping).Valid floatRepr := by
  intro f v hf
  cases hmf : mapping f with
  | none => exact hv f v ((merge_of_none hmf).symm.trans hf)
  | some w =>
    obtain rfl := Option.some.inj ((merge_of_some hmf).symm.trans hf)
    exact hm f w hmf

/-- Texts are merged as values are. -/
theorem plain_merge (h mapping : Hash) :
    (h.merge mapping).plain = h.plain.merge mapping.plain := by
  funext name
  rw [TextHash.merge, plain, plain, plain]
  cases Field.ofText? name with
  | none => rfl
  | some f =>
    rw [Option.bind_some, Option.bind_some, Option.bind_some, Hash.merge]
    cases mapping f <;> rfl

theorem plain_empty : Hash.empty.plain = fun _ => none := by
  funext name
  unfold plain
  cases Field.ofText? name <;> rfl

/-- The texts after a field has been set depend on the texts before alone. -/
theorem plain_set {h h' : Hash} (heq : h.plain = h'.plain) (f : Field) (v : f.Value) :
    (h.set f v).plain = (h'.set f v).plain := by
  funext name
  unfold plain
  refine Option.bind_congr fun g hg => ?_
  by_cases hgf : g = f
  · subst hgf
    rw [set_self, set_self]
  · rw [set_of_ne _ hgf, set_of_ne _ hgf, ← plain_text, ← plain_text, heq]

end Hash

end SessionManager
