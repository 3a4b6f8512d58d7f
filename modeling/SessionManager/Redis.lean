import SessionManager.Interaction.Pool
import SessionManager.TtlStore
import SessionManager.Schemas

/-!
# Redis as the services use it

The keys and values of the store, the commands the services issue, and what Redis answers. A
stored text is kept as what it encodes: a hash field or a string key that the code writes with
`json.dumps` and reads with `json.loads` holds the JSON value, one that holds a `datetime` in ISO
format holds the instant, and every other one holds the text itself. Instants are milliseconds
of one clock, lifetimes are seconds.

* `Key`, `Key.text` — the keys, and the strings they are in Redis.
* `Field`, `Hash` — the fields of `session:{k}` and a hash, or the mapping of an `HSET`.
* `Command`, `Command.Reply`, `redis` — the commands with their replies, as a signature. Reading
  the clock and writing an ES log record are commands too.
* `World`, `machine` — the clock, the store and the log, and the answer to each command.
* `Svc` — the programs of the services.
-/

namespace SessionManager

open Python Interaction

/-! ### Keys and values -/

/-- The keys of the store. -/
inductive Key where
  | session (globalSessionKey : String)
  | turns (globalSessionKey : String)
  | realtimeProfile (userId : String)
  | batchProfile (userId : String)
  | jti (jti : String)
  deriving DecidableEq, Repr

/-- A key made of a fixed name and the part that identifies the entry. -/
def keyText (name id : String) : String := name ++ id

/-- The key as a string. -/
def Key.text : Key → String
  | .session k => keyText "session:" k
  | .turns k => keyText "turns:" k
  | .realtimeProfile u => keyText "profile:realtime:" u
  | .batchProfile u => keyText "profile:batch:" u
  | .jti j => keyText "jti:" j

/-- Different keys are different strings, whatever the parts that requests choose. -/
theorem Key.text_injective : Function.Injective Key.text := by
  intro a b h
  have h' := congrArg String.toList h
  cases a <;> cases b <;> simp [Key.text, keyText] at h' <;> simp [← String.toList_inj, h']

/-- The fields of a session hash. -/
inductive Field where
  | globalSessionKey
  | userId
  | channel
  | conversationId
  | sessionState
  | taskQueueStatus
  | subagentStatus
  | profile
  | expiresAt
  | createdAt
  | updatedAt
  | triggerId
  | startType
  | customerProfile
  | actionOwner
  | referenceInformation
  | cushionMessage
  | sessionAttributes
  | lastEvent
  | agentMappings
  | turnIds
  | closeReason
  | endedAt
  | finalSummary
  | cusno
  deriving DecidableEq, Repr

/-- What a field holds: an instant, a JSON value or a text. -/
abbrev Field.Value : Field → Type
  | .expiresAt | .createdAt | .updatedAt | .endedAt => ℕ
  | .profile | .customerProfile | .referenceInformation | .sessionAttributes | .lastEvent
  | .agentMappings | .turnIds => Json
  | _ => String

/-- A session hash, or the mapping of an `HSET`: the fields that are there and their values. -/
abbrev Hash := (f : Field) → Option f.Value

namespace Hash

/-- The hash without fields. -/
def empty : Hash := fun _ => none

/-- `hash[field] = value`. -/
def set (h : Hash) (f : Field) (v : f.Value) : Hash := Function.update h f (some v)

/-- `HSET`: the mapping's fields replace the hash's, the other fields stay. -/
def merge (h mapping : Hash) : Hash := fun f => (mapping f).or (h f)

@[simp] theorem set_self (h : Hash) (f : Field) (v : f.Value) : h.set f v f = some v :=
  Function.update_self ..

theorem set_of_ne (h : Hash) {f g : Field} (hne : g ≠ f) (v : f.Value) : h.set f v g = h g :=
  Function.update_of_ne hne ..

theorem merge_of_none {h mapping : Hash} {f : Field} (hf : mapping f = none) :
    h.merge mapping f = h f := by
  simp [merge, hf]

theorem merge_of_some {h mapping : Hash} {f : Field} {v : f.Value} (hf : mapping f = some v) :
    h.merge mapping f = some v := by
  simp [merge, hf]

end Hash

/-- What is stored under a key: a session hash, the saved turns in call order, a profile, or the
key of the session a token speaks for. -/
abbrev Key.Value : Key → Type
  | .session _ => Hash
  | .turns _ => List Json
  | .realtimeProfile _ => Json
  | .batchProfile _ => Json
  | .jti _ => String

/-- The store. -/
abbrev Store := TtlStore Key Key.Value

/-! ### Commands -/

/-- `LoggerExtraData`, one record of the ES log. -/
structure LoggerExtraData where
  logType : String
  custNo : String := "-"
  sessionId : String := "-"
  turnId : String := "-"
  agentId : String := "-"
  transactionId : String := "-"
  payload : Json

/-- What a service can do apart from computing. `GET`, `SET` and `SETEX` are for string keys, the
commands on hashes and lists name their session. -/
inductive Command where
  /-- `HGETALL session:{k}`. -/
  | hgetall (k : String)
  /-- `HSET session:{k} mapping`. -/
  | hset (k : String) (mapping : Hash)
  /-- `LRANGE turns:{k} 0 -1`. -/
  | lrange (k : String)
  /-- `RPUSH turns:{k} turn`. -/
  | rpush (k : String) (turn : Json)
  /-- `GET key`. -/
  | get (key : Key)
  /-- `SET key value`. -/
  | set (key : Key) (value : key.Value)
  /-- `SETEX key seconds value`. -/
  | setex (key : Key) (seconds : ℕ) (value : key.Value)
  /-- `EXISTS key`. -/
  | exists_ (key : Key)
  /-- `EXPIRE key seconds`. -/
  | expire (key : Key) (seconds : ℕ)
  /-- `DEL key`. -/
  | del (key : Key)
  /-- `datetime.now(UTC)`. -/
  | now
  /-- `logger.eslog(record)`. -/
  | eslog (record : LoggerExtraData)

/-- The type of the reply to a command. `HGETALL` of a missing key is an empty reply, here
`none`. Results that no caller looks at are left out. -/
abbrev Command.Reply : Command → Type
  | .hgetall _ => Option Hash
  | .hset _ _ => Unit
  | .lrange _ => List Json
  | .rpush _ _ => Unit
  | .get key => Option key.Value
  | .set _ _ => Unit
  | .setex _ _ _ => Unit
  | .exists_ _ => Bool
  | .expire _ _ => Unit
  | .del _ => Unit
  | .now => ℕ
  | .eslog _ => Unit

/-- The signature of the services' programs. -/
abbrev redis : Signature := ⟨Command, Command.Reply⟩

/-- A program of the services. -/
abbrev Svc (α : Type) := Program redis ServiceError α

/-! ### The machine -/

/-- The clock in milliseconds, the store and the ES log, oldest record first. -/
structure World where
  now : ℕ
  store : Store
  esLog : List LoggerExtraData

namespace World

/-- An empty store at instant `now`. -/
def init (now : ℕ) : World := { now, store := TtlStore.empty, esLog := [] }

/-- The same world `d` milliseconds later. -/
def advance (w : World) (d : ℕ) : World := { w with now := w.now + d }

/-- Time passes and nothing else happens. -/
def Elapses (w w' : World) : Prop := ∃ d, w' = w.advance d

/-- The session hash of `k`, when the session is live. -/
def hash (w : World) (k : String) : Option Hash := w.store.get w.now (.session k)

/-- The session the live mapping of `jti` names. -/
def jti (w : World) (jti : String) : Option String := w.store.get w.now (.jti jti)

/-- The instant `seconds` from now. -/
def after (w : World) (seconds : ℕ) : ℕ := w.now + seconds * 1000

/-- `HSET session:{k} mapping`. -/
def hset (w : World) (k : String) (mapping : Hash) : World :=
  { w with
    store := w.store.upsert w.now (.session k) fun h => (h.getD Hash.empty).merge mapping }

/-- `RPUSH turns:{k} turn`. -/
def rpush (w : World) (k : String) (turn : Json) : World :=
  { w with store := w.store.upsert w.now (.turns k) fun turns => turns.getD [] ++ [turn] }

/-- `SET key value`. -/
def set (w : World) (key : Key) (v : key.Value) : World := { w with store := w.store.set key v }

/-- `SETEX key seconds value`. -/
def setex (w : World) (key : Key) (seconds : ℕ) (v : key.Value) : World :=
  { w with store := w.store.setex key (w.after seconds) v }

/-- `EXPIRE key seconds`. -/
def expire (w : World) (key : Key) (seconds : ℕ) : World :=
  { w with store := w.store.expire w.now key (w.after seconds) }

/-- `DEL key`. -/
def del (w : World) (key : Key) : World := { w with store := w.store.del key }

/-- `logger.eslog(record)`. -/
def eslog (w : World) (record : LoggerExtraData) : World :=
  { w with esLog := w.esLog ++ [record] }

end World

/-- The reply to a command and the world after it. -/
def machine : Machine redis World
  | .hgetall k, w => (w.hash k, w)
  | .hset k mapping, w => ((), w.hset k mapping)
  | .lrange k, w => ((w.store.get w.now (.turns k)).getD [], w)
  | .rpush k turn, w => ((), w.rpush k turn)
  | .get key, w => (w.store.get w.now key, w)
  | .set key v, w => ((), w.set key v)
  | .setex key seconds v, w => ((), w.setex key seconds v)
  | .exists_ key, w => (w.store.contains w.now key, w)
  | .expire key seconds, w => ((), w.expire key seconds)
  | .del key, w => ((), w.del key)
  | .now, w => (w.now, w)
  | .eslog record, w => ((), w.eslog record)

/-- Issue a command. -/
abbrev issue (c : Command) : Svc c.Reply := Program.perform (σ := redis) c

end SessionManager
