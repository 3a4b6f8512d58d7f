import SessionManager.EncodedStore
import SessionManager.Interaction.Codec
import SessionManager.StoredText.Fields

/-!
# The Redis server

Redis itself: keys are strings, and what is stored under one is a string, a list of strings or a
hash of strings. A command on a key that holds a value of another kind is refused.

* `RedisValue`, `TextCommand`, `textRedis` — the values, and the commands with their replies.
* `TextWorld`, `textMachine` — the server with its clock, and the answer to each command.
* `StoreError`, `codec` — the commands of the services as commands of the server: keys and values
  become texts as the code writes them, and replies are read as the code reads them.
-/

namespace SessionManager

open Python Interaction

/-! ### Values and commands -/

/-- What Redis holds under a key. -/
inductive RedisValue where
  | string (s : String)
  | list (items : List String)
  | hash (fields : TextHash)

/-- `WRONGTYPE Operation against a key holding the wrong kind of value`. -/
inductive ResponseError where
  | wrongType
  deriving DecidableEq, Repr

/-- The commands as the client sends them, with the clock and the ES log. -/
inductive TextCommand where
  | hgetall (key : String)
  | hset (key : String) (mapping : TextHash)
  | lrange (key : String)
  | rpush (key : String) (item : String)
  | get (key : String)
  | set (key value : String)
  | setex (key : String) (seconds : ℕ) (value : String)
  | exists_ (key : String)
  | expire (key : String) (seconds : ℕ)
  | del (key : String)
  | now
  | eslog (record : LoggerExtraData)

/-- The type of the reply to a command. -/
abbrev TextCommand.Reply : TextCommand → Type
  | .hgetall _ => Except ResponseError (Option TextHash)
  | .hset _ _ => Except ResponseError Unit
  | .lrange _ => Except ResponseError (List String)
  | .rpush _ _ => Except ResponseError Unit
  | .get _ => Except ResponseError (Option String)
  | .set _ _ => Unit
  | .setex _ _ _ => Unit
  | .exists_ _ => Bool
  | .expire _ _ => Unit
  | .del _ => Unit
  | .now => ℕ
  | .eslog _ => Unit

/-- The signature of the server. -/
abbrev textRedis : Signature := ⟨TextCommand, TextCommand.Reply⟩

/-! ### The machine -/

/-- The clock in milliseconds, the store and the ES log. -/
structure TextWorld where
  now : ℕ
  store : TtlStore String fun _ => RedisValue
  esLog : List LoggerExtraData

namespace TextWorld

/-- An empty store at instant `now`. -/
def init (now : ℕ) : TextWorld := { now, store := TtlStore.empty, esLog := [] }

/-- Time passes and nothing else happens. -/
def Elapses (w w' : TextWorld) : Prop := ∃ d, w' = { w with now := w.now + d }

/-- What is stored under a key now. -/
def get (w : TextWorld) (key : String) : Option RedisValue := w.store.get w.now key

/-- The value under a key becomes another one and keeps its expiry. -/
def upsert (w : TextWorld) (key : String) (v : RedisValue) : TextWorld :=
  { w with store := w.store.upsert w.now key fun _ => v }

/-- `HGETALL`. -/
def hgetall (w : TextWorld) (key : String) : Except ResponseError (Option TextHash) :=
  match w.get key with
  | none => .ok none
  | some (.hash fields) => .ok (some fields)
  | some _ => .error .wrongType

/-- `HSET`. -/
def hset (w : TextWorld) (key : String) (mapping : TextHash) :
    Except ResponseError Unit × TextWorld :=
  match w.get key with
  | none => (.ok (), w.upsert key (.hash mapping))
  | some (.hash fields) => (.ok (), w.upsert key (.hash (fields.merge mapping)))
  | some _ => (.error .wrongType, w)

/-- `LRANGE key 0 -1`. -/
def lrange (w : TextWorld) (key : String) : Except ResponseError (List String) :=
  match w.get key with
  | none => .ok []
  | some (.list items) => .ok items
  | some _ => .error .wrongType

/-- `RPUSH`. -/
def rpush (w : TextWorld) (key item : String) : Except ResponseError Unit × TextWorld :=
  match w.get key with
  | none => (.ok (), w.upsert key (.list [item]))
  | some (.list items) => (.ok (), w.upsert key (.list (items ++ [item])))
  | some _ => (.error .wrongType, w)

/-- `GET`. -/
def getString (w : TextWorld) (key : String) : Except ResponseError (Option String) :=
  match w.get key with
  | none => .ok none
  | some (.string s) => .ok (some s)
  | some _ => .error .wrongType

end TextWorld

/-- The reply to a command and the world after it. -/
def textMachine : Machine textRedis TextWorld
  | .hgetall key, w => (w.hgetall key, w)
  | .hset key mapping, w => w.hset key mapping
  | .lrange key, w => (w.lrange key, w)
  | .rpush key item, w => w.rpush key item
  | .get key, w => (w.getString key, w)
  | .set key value, w => ((), { w with store := w.store.set key (.string value) })
  | .setex key seconds value, w =>
    ((), { w with store := w.store.setex key (w.now + seconds * 1000) (.string value) })
  | .exists_ key, w => (w.store.contains w.now key, w)
  | .expire key seconds, w =>
    ((), { w with store := w.store.expire w.now key (w.now + seconds * 1000) })
  | .del key, w => ((), { w with store := w.store.del key })
  | .now, w => (w.now, w)
  | .eslog record, w => ((), { w with esLog := w.esLog ++ [record] })

/-! ### The client -/

/-- What can go wrong between the services and the server. -/
inductive StoreError where
  /-- The server refuses a command. -/
  | response (e : ResponseError)
  /-- A value has no text, or a text cannot be read. -/
  | python (e : PyError)
  deriving DecidableEq, Repr

/-- An exception of the interpreter, on the way between the services and the server. -/
def ofPython {α : Type} : Except PyError α → Except StoreError α := Except.mapError .python

/-- A reply, or the exception that the client raises for an error. -/
def ofReply {α : Type} : Except ResponseError α → Except StoreError α := Except.mapError .response

/-- The text that the code stores under a string key. -/
def encodeString : (key : Key) → key.Value → Except PyError String
  | .realtimeProfile _, v | .batchProfile _, v => Json.dumps false false v
  | .jti _, s => .ok s
  | .session _, _ | .turns _, _ => .error .typeError

/-- The value that the code reads from the text under a string key. A profile that is no JSON counts
as missing. -/
def decodeString (floatRepr : String → String) : (key : Key) → String →
    Except PyError (Option key.Value)
  | .realtimeProfile _, s | .batchProfile _, s => Field.loadText floatRepr s
  | .jti _, s => .ok (some s)
  | .session _, _ | .turns _, _ => .error .typeError

/-- `[json.loads(t) for t in turns_json]`. -/
def decodeTurns (floatRepr : String → String) (turns : List String) : Except PyError (List Json) :=
  turns.mapM fun s =>
    match Json.loads floatRepr s with
    | .ok v => .ok v
    | .error _ => .error .valueError

/-- What the services ask for, as the client sends it, and how the reply is read. A hash is read as
a whole when it arrives, where the code reads a field when it uses it and writes back the others as
they came: reading does not fail (`codec_faithful`), and what was read is written as the same texts
(`Hash.plain_norm`). -/
def codec (floatRepr : String → String) : Codec redis textRedis StoreError
  | .hgetall k => .ok
    { command := .hgetall (Key.session k).text
      decode := fun reply => do
        match ← ofReply reply with
        | none => pure none
        | some texts => return some (← ofPython (Hash.decode floatRepr texts)) }
  | .hset k mapping => do
    let texts ← ofPython mapping.encode
    .ok { command := .hset (Key.session k).text texts, decode := ofReply }
  | .lrange k => .ok
    { command := .lrange (Key.turns k).text
      decode := fun reply => do ofPython (decodeTurns floatRepr (← ofReply reply)) }
  | .rpush k turn => do
    let item ← ofPython (Json.dumps false true turn)
    .ok { command := .rpush (Key.turns k).text item, decode := ofReply }
  | .get key => .ok
    { command := .get key.text
      decode := fun reply => do
        match ← ofReply reply with
        | none => pure none
        | some s => ofPython (decodeString floatRepr key s) }
  | .set key v => do
    let s ← ofPython (encodeString key v)
    .ok { command := .set key.text s, decode := .ok }
  | .setex key seconds v => do
    let s ← ofPython (encodeString key v)
    .ok { command := .setex key.text seconds s, decode := .ok }
  | .exists_ key => .ok { command := .exists_ key.text, decode := .ok }
  | .expire key seconds => .ok { command := .expire key.text seconds, decode := .ok }
  | .del key => .ok { command := .del key.text, decode := .ok }
  | .now => .ok { command := .now, decode := .ok }
  | .eslog record => .ok { command := .eslog record, decode := .ok }

end SessionManager
