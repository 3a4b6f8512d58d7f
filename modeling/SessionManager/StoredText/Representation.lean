import SessionManager.StoredText.Server
import SessionManager.StoredValues

/-!
# How the server represents the store

The server holds, under the string of every key, the text of the value that the store holds there.
Commands that write what can be read back keep it so, and are answered with the texts of what the
store answers.

* `Writable` — the values that can be read back. `Command.Writes` — the commands that write such,
  `Command.Reads` — the replies that show such.
* `Command.plain`, `Command.plainReply` — a command and its reply as the server sees them.
* `Represents`, `Represents.answer` — the representation, and what keeps it.
* `textLink`, `redisLink`, `codec_faithful` — what the server answers is what the model answers, up
  to the order of keys.
-/

namespace SessionManager

open Python Interaction

/-! ### Values -/

/-- The value can be read back from its text. -/
def Writable (floatRepr : String → String) : (key : Key) → key.Value → Prop
  | .session _, h => h.Valid floatRepr
  | .turns _, turns => ∀ turn ∈ turns, turn.Valid floatRepr
  | .realtimeProfile _, v | .batchProfile _, v => Field.ValidDict floatRepr v
  | .jti _, _ => True

/-- The keys that hold a string. -/
def Key.IsString : Key → Prop
  | .realtimeProfile _ | .batchProfile _ | .jti _ => True
  | .session _ | .turns _ => False

/-- The text of the value under a string key. -/
def plainString : (key : Key) → key.Value → String
  | .realtimeProfile _, v | .batchProfile _, v => String.ofList (v.text false)
  | .jti _, s => s
  | .session _, _ | .turns _, _ => ""

/-- The text of a turn. -/
def plainTurn (turn : Json) : String := String.ofList (turn.text true)

/-- What the server holds for a value. -/
def code : (key : Key) → key.Value → RedisValue
  | .session _, h => .hash h.plain
  | .turns _, turns => .list (turns.map plainTurn)
  | .realtimeProfile u, v => .string (plainString (.realtimeProfile u) v)
  | .batchProfile u, v => .string (plainString (.batchProfile u) v)
  | .jti j, s => .string (plainString (.jti j) s)

variable {floatRepr : String → String}

theorem code_of_isString {key : Key} (hkey : key.IsString) (v : key.Value) :
    code key v = .string (plainString key v) := by
  cases key
  case session | turns => exact hkey.elim
  all_goals rfl

theorem encodeString_of_writable {key : Key} (hkey : key.IsString) {v : key.Value}
    (hv : Writable floatRepr key v) : encodeString key v = .ok (plainString key v) := by
  cases key
  case session | turns => exact hkey.elim
  case realtimeProfile | batchProfile => exact Field.dumps_of_valid hv.1 false false
  case jti => rfl

theorem decodeString_plain {key : Key} (hkey : key.IsString) {v : key.Value}
    (hv : Writable floatRepr key v) :
    decodeString floatRepr key (plainString key v) = .ok (some v) := by
  cases key
  case session | turns => exact hkey.elim
  case realtimeProfile | batchProfile => exact Field.loadText_text hv.1 false
  case jti => rfl

theorem decodeTurns_plain {turns : List Json} (hv : ∀ turn ∈ turns, turn.Valid floatRepr) :
    decodeTurns floatRepr (turns.map plainTurn) = .ok turns := by
  induction turns with
  | nil => rfl
  | cons turn turns ih =>
    have hturn := Json.loads_text (hv turn List.mem_cons_self) true
    have hrest := ih fun turn' hmem => hv turn' (List.mem_cons_of_mem _ hmem)
    rw [decodeTurns] at hrest ⊢
    rw [List.map_cons, List.mapM_cons, hrest, plainTurn]
    simp only [hturn]
    rfl

/-! ### Commands -/

/-- The command writes what can be read back, under the key of its kind. -/
def Command.Writes (floatRepr : String → String) : Command → Prop
  | .hset _ mapping => mapping.Valid floatRepr
  | .rpush _ turn => turn.Valid floatRepr
  | .get key => key.IsString
  | .set key v => key.IsString ∧ Writable floatRepr key v
  | .setex key _ v => key.IsString ∧ Writable floatRepr key v
  | _ => True

/-- The reply shows what could be read back, and a clock that leaves time for one more session. -/
def Command.Reads (cfg : Config) (floatRepr : String → String) : (c : Command) → c.Reply → Prop
  | .now, instant => SessionRepository.expiry cfg instant < endOfTime
  | c, reply => c.Shows (Writable floatRepr) reply

theorem Command.Writes.stores {c : Command} (hc : c.Writes floatRepr) :
    c.Stores (Writable floatRepr) := by
  cases c
  case hset k mapping =>
    rintro h (rfl | hv)
    · exact Hash.Valid.empty.merge hc
    · exact Hash.Valid.merge hv hc
  case rpush k turn =>
    intro turns hturns
    have hold : ∀ turn ∈ turns, turn.Valid floatRepr := by
      rcases hturns with rfl | hv
      · exact nofun
      · exact hv
    intro turn' hmem
    rcases List.mem_append.mp hmem with hmem | hmem
    · exact hold turn' hmem
    · rw [List.mem_singleton.mp hmem]
      exact hc
  case set key v => exact hc.2
  case setex key seconds v => exact hc.2
  all_goals trivial

/-- A command as the server sees it. -/
def Command.plain : Command → TextCommand
  | .hgetall k => .hgetall (Key.session k).text
  | .hset k mapping => .hset (Key.session k).text mapping.plain
  | .lrange k => .lrange (Key.turns k).text
  | .rpush k turn => .rpush (Key.turns k).text (plainTurn turn)
  | .get key => .get key.text
  | .set key v => .set key.text (plainString key v)
  | .setex key seconds v => .setex key.text seconds (plainString key v)
  | .exists_ key => .exists_ key.text
  | .expire key seconds => .expire key.text seconds
  | .del key => .del key.text
  | .now => .now
  | .eslog record => .eslog record

/-- A reply as the server gives it. -/
def Command.plainReply : (c : Command) → c.Reply → c.plain.Reply
  | .hgetall _, session => .ok (session.map Hash.plain)
  | .hset _ _, _ => .ok ()
  | .lrange _, turns => .ok (turns.map plainTurn)
  | .rpush _ _, _ => .ok ()
  | .get key, v => .ok (v.map (plainString key))
  | .set _ _, _ => ()
  | .setex _ _ _, _ => ()
  | .exists_ _, found => found
  | .expire _ _, _ => ()
  | .del _, _ => ()
  | .now, instant => instant
  | .eslog _, _ => ()

/-! ### The representation -/

/-- The server holds the texts of what the store holds, all of which can be read back. -/
structure Represents (floatRepr : String → String) (t : TextWorld) (w : World) : Prop where
  now : t.now = w.now
  esLog : t.esLog = w.esLog
  store : TtlStore.Encodes Key.text code t.store w.store
  writable : w.Holds (Writable floatRepr)

namespace Represents

theorem init (now : ℕ) : Represents floatRepr (TextWorld.init now) (World.init now) where
  now := rfl
  esLog := rfl
  store := TtlStore.Encodes.empty
  writable _ _ := nofun

variable {t : TextWorld} {w : World}

theorem get (h : Represents floatRepr t w) (key : Key) :
    t.get key.text = (w.store.get w.now key).map (code key) := by
  rw [TextWorld.get, h.now]
  exact h.store.get w.now key

/-- Both stores change alike. -/
theorem change (h : Represents floatRepr t w) {store : TtlStore String fun _ => RedisValue}
    {c : Command} (hc : c.Writes floatRepr) (hsame : (machine c w).2.now = w.now)
    (hlog : (machine c w).2.esLog = w.esLog)
    (hstore : TtlStore.Encodes Key.text code store (machine c w).2.store) :
    Represents floatRepr { t with store } (machine c w).2 where
  now := h.now.trans hsame.symm
  esLog := h.esLog.trans hlog.symm
  store := hstore
  writable := h.writable.machine hc.stores

/-- The value under a key changes alike on both sides. -/
theorem upsert (h : Represents floatRepr t w) {key : Key} {v' : RedisValue}
    {f : Option key.Value → key.Value} {c : Command} (hc : c.Writes floatRepr)
    (hmachine : (machine c w).2 = { w with store := w.store.upsert w.now key f })
    (hv : v' = code key (f (w.store.get w.now key))) :
    Represents floatRepr (t.upsert key.text v') (machine c w).2 := by
  have hstore : TtlStore.Encodes Key.text code (t.store.upsert t.now key.text fun _ => v')
      (w.store.upsert w.now key f) := by
    rw [h.now]
    exact h.store.upsert Key.text_injective w.now key hv
  apply h.change hc
  · rw [hmachine]
  · rw [hmachine]
  · rw [hmachine]
    exact hstore

/-- `HSET`. -/
theorem answer_hset (h : Represents floatRepr t w) {k : String} {mapping : Hash}
    (hc : (Command.hset k mapping).Writes floatRepr) :
    Represents floatRepr (t.hset (Key.session k).text mapping.plain).2
        (machine (.hset k mapping) w).2 ∧
      (t.hset (Key.session k).text mapping.plain).1 = .ok () := by
  have hget := h.get (.session k)
  cases hstored : w.store.get w.now (.session k) with
  | none =>
    rw [hstored] at hget
    have hanswer : t.hset (Key.session k).text mapping.plain =
        (.ok (), t.upsert (Key.session k).text (.hash mapping.plain)) := by
      rw [TextWorld.hset, hget]
      rfl
    rw [hanswer]
    refine ⟨h.upsert hc rfl ?_, rfl⟩
    rw [hstored]
    -- a hash that is not there is merged as an empty one
    show RedisValue.hash mapping.plain = .hash (Hash.empty.merge mapping).plain
    rw [Hash.plain_merge, Hash.plain_empty, TextHash.merge_empty]
  | some session =>
    rw [hstored] at hget
    have hanswer : t.hset (Key.session k).text mapping.plain =
        (.ok (), t.upsert (Key.session k).text (.hash (session.plain.merge mapping.plain))) := by
      rw [TextWorld.hset, hget]
      rfl
    rw [hanswer]
    refine ⟨h.upsert hc rfl ?_, rfl⟩
    rw [hstored]
    show RedisValue.hash _ = .hash (session.merge mapping).plain
    rw [Hash.plain_merge]

/-- `RPUSH`. -/
theorem answer_rpush (h : Represents floatRepr t w) {k : String} {turn : Json}
    (hc : (Command.rpush k turn).Writes floatRepr) :
    Represents floatRepr (t.rpush (Key.turns k).text (plainTurn turn)).2
        (machine (.rpush k turn) w).2 ∧
      (t.rpush (Key.turns k).text (plainTurn turn)).1 = .ok () := by
  have hget := h.get (.turns k)
  cases hstored : w.store.get w.now (.turns k) with
  | none =>
    rw [hstored] at hget
    have hanswer : t.rpush (Key.turns k).text (plainTurn turn) =
        (.ok (), t.upsert (Key.turns k).text (.list [plainTurn turn])) := by
      rw [TextWorld.rpush, hget]
      rfl
    rw [hanswer]
    refine ⟨h.upsert hc rfl ?_, rfl⟩
    rw [hstored]
    rfl
  | some turns =>
    rw [hstored] at hget
    have hanswer : t.rpush (Key.turns k).text (plainTurn turn) =
        (.ok (),
          t.upsert (Key.turns k).text (.list (turns.map plainTurn ++ [plainTurn turn]))) := by
      rw [TextWorld.rpush, hget]
      rfl
    rw [hanswer]
    refine ⟨h.upsert hc rfl ?_, rfl⟩
    rw [hstored]
    show RedisValue.list _ = .list ((turns ++ [turn]).map plainTurn)
    rw [List.map_append]
    rfl

/-- A command is answered with the texts of what the store answers, and the server still represents
the store. -/
theorem answer (h : Represents floatRepr t w) {c : Command} (hc : c.Writes floatRepr) :
    Represents floatRepr (textMachine c.plain t).2 (machine c w).2 ∧
      (textMachine c.plain t).1 = c.plainReply (machine c w).1 := by
  have hkey := Key.text_injective
  cases c
  case hgetall k =>
    refine ⟨h, ?_⟩
    show t.hgetall (Key.session k).text = .ok ((w.store.get w.now (.session k)).map Hash.plain)
    rw [TextWorld.hgetall, h.get]
    cases w.store.get w.now (.session k) <;> rfl
  case hset k mapping => exact h.answer_hset hc
  case lrange k =>
    refine ⟨h, ?_⟩
    show t.lrange (Key.turns k).text =
      .ok (((w.store.get w.now (.turns k)).getD []).map plainTurn)
    rw [TextWorld.lrange, h.get]
    cases w.store.get w.now (.turns k) <;> rfl
  case rpush k turn => exact h.answer_rpush hc
  case get key =>
    refine ⟨h, ?_⟩
    show t.getString key.text = .ok ((w.store.get w.now key).map (plainString key))
    rw [TextWorld.getString, h.get]
    cases w.store.get w.now key with
    | none => rfl
    | some v => rw [Option.map_some, code_of_isString hc, Option.map_some]
  case set key v =>
    have hcode := code_of_isString hc.1 v
    refine ⟨h.change hc rfl rfl ?_, rfl⟩
    rw [← hcode]
    exact h.store.set hkey key v
  case setex key seconds v =>
    have hcode := code_of_isString hc.1 v
    refine ⟨h.change hc rfl rfl ?_, rfl⟩
    rw [← hcode, h.now]
    exact h.store.setex hkey key (w.after seconds) v
  case exists_ key =>
    refine ⟨h, ?_⟩
    show t.store.contains t.now key.text = _
    rw [h.now]
    exact h.store.contains w.now key
  case expire key seconds =>
    refine ⟨h.change hc rfl rfl ?_, rfl⟩
    rw [h.now]
    exact h.store.expire hkey w.now key (w.after seconds)
  case del key => exact ⟨h.change hc rfl rfl (h.store.del hkey key), rfl⟩
  case now => exact ⟨h, h.now⟩
  case eslog record =>
    exact ⟨⟨h.now, congrArg (· ++ [record]) h.esLog, h.store, h.writable⟩, rfl⟩

/-- Time passes on both sides. -/
theorem elapses (h : Represents floatRepr t w) {t' : TextWorld} (helapses : t.Elapses t') :
    ∃ w', w.Elapses w' ∧ Represents floatRepr t' w' := by
  obtain ⟨d, rfl⟩ := helapses
  refine ⟨w.advance d, ⟨d, rfl⟩, congrArg (· + d) h.now, h.esLog, h.store, ?_⟩
  exact h.writable.elapses ⟨d, rfl⟩

end Represents

/-! ### What goes together -/

/-- A reply as it is read back: a session hash has its keys in order where the code sorts them. -/
def Command.normReply : (c : Command) → c.Reply → c.Reply
  | .hgetall _, session => session.map Hash.norm
  | _, reply => reply

/-- The server's commands and replies are the texts of the model's. -/
def textLink (cfg : Config) (floatRepr : String → String) :
    Link textRedis redis (ServiceError ⊕ StoreError) ServiceError where
  Command d c := d = c.plain ∧ c.Writes floatRepr
  Reply _ c reply r := HEq reply (c.plainReply r) ∧ c.Reads cfg floatRepr r
  Exception e e' := e = .inl e'

/-- Two programs of the services that differ in the order of keys: they write the same texts, and
the replies of the one are those of the other as they are read back. -/
def redisLink (cfg : Config) (floatRepr : String → String) :
    Link redis redis ServiceError ServiceError where
  Command
    | .hset k mapping, c' => ∃ mapping', c' = .hset k mapping' ∧ mapping.plain = mapping'.plain ∧
        mapping.Valid floatRepr ∧ mapping'.Valid floatRepr
    | c, c' => c = c' ∧ c.Writes floatRepr
  Reply c _ r r' := ∃ read : c.Reply,
    HEq read r' ∧ c.Reads cfg floatRepr read ∧ r = c.normReply read
  Exception e e' := e = e'

/-- A command that is encoded as it is on the server, with a reply that is decoded. -/
theorem faithful_self {cfg : Config} {c : Command} (hc : c.Writes floatRepr)
    (hcodec : ∃ encoding, codec floatRepr c = .ok encoding ∧ ∃ h : encoding.command = c.plain,
      ∀ r, c.Reads cfg floatRepr r →
        encoding.decode (h ▸ c.plainReply r) = .ok (c.normReply r)) :
    ∃ encoding, codec floatRepr c = .ok encoding ∧
      (textLink cfg floatRepr).Command encoding.command c ∧ ∀ reply r',
        (textLink cfg floatRepr).Reply encoding.command c reply r' →
          ∃ r, encoding.decode reply = .ok r ∧ (redisLink cfg floatRepr).Reply c c r r' := by
  obtain ⟨encoding, hencoding, hcommand, hdecode⟩ := hcodec
  refine ⟨encoding, hencoding, ⟨hcommand, hc⟩, fun reply r' hreply => ?_⟩
  have hread := hdecode r' hreply.2
  have heq : reply = hcommand ▸ c.plainReply r' := by
    apply eq_of_heq
    exact hreply.1.trans (eqRec_heq _ _).symm
  exact ⟨_, heq ▸ hread, r', HEq.rfl, hreply.2, rfl⟩

/-- Between a program of the services and the server nothing fails. -/
theorem codec_faithful (cfg : Config) (floatRepr : String → String) :
    (codec floatRepr).Faithful (redisLink cfg floatRepr) (textLink cfg floatRepr) where
  answer c c' hc := by
    cases c
    case hset k mapping =>
      obtain ⟨mapping', rfl, hplain, hv, hv'⟩ := hc
      refine ⟨{ command := .hset (Key.session k).text mapping.plain, decode := ofReply }, ?_,
        ⟨congrArg (TextCommand.hset _) hplain, hv'⟩, fun reply r' hreply => ?_⟩
      · simp only [codec, Hash.encode_of_valid hv]
        rfl
      · have hok : reply = .ok () := eq_of_heq hreply.1
        exact ⟨(), congrArg ofReply hok, (), HEq.rfl, trivial, rfl⟩
    -- every other command is the same on both sides
    all_goals
      obtain ⟨rfl, hc⟩ := hc
      apply faithful_self hc
    case hgetall k =>
      refine ⟨_, rfl, rfl, fun session hread => ?_⟩
      cases session with
      | none => rfl
      | some session =>
        show (ofPython (Hash.decode floatRepr session.plain) >>= fun h => .ok (some h)) = _
        rw [Hash.decode_plain (hread session rfl)]
        rfl
    case lrange k =>
      refine ⟨_, rfl, rfl, fun turns hread => ?_⟩
      show ofPython (decodeTurns floatRepr (turns.map plainTurn)) = _
      have hturns : ∀ turn ∈ turns, turn.Valid floatRepr := by
        rcases hread with rfl | hread
        · exact nofun
        · exact hread
      rw [decodeTurns_plain hturns]
      rfl
    case rpush k turn =>
      refine ⟨{ command := .rpush (Key.turns k).text (plainTurn turn), decode := ofReply }, ?_, rfl,
        fun _ _ => rfl⟩
      -- `json.dumps` of the turn does not fail
      simp only [codec, Field.dumps_of_valid hc]
      rfl
    case get key =>
      refine ⟨_, rfl, rfl, fun v hread => ?_⟩
      cases v with
      | none => rfl
      | some v =>
        show ofPython (decodeString floatRepr key (plainString key v)) = _
        rw [decodeString_plain hc (hread v rfl)]
        rfl
    case set key v =>
      refine ⟨{ command := .set key.text (plainString key v), decode := .ok }, ?_, rfl,
        fun _ _ => rfl⟩
      simp only [codec, encodeString_of_writable hc.1 hc.2]
      rfl
    case setex key seconds v =>
      refine ⟨{ command := .setex key.text seconds (plainString key v), decode := .ok }, ?_, rfl,
        fun _ _ => rfl⟩
      simp only [codec, encodeString_of_writable hc.1 hc.2]
      rfl
    all_goals exact ⟨_, rfl, rfl, fun _ _ => rfl⟩
  raise e e' h := congrArg Sum.inl h

/-- The server answers as the model does, as long as its clock leaves time for one more session. -/
theorem textMachine_simulates (cfg : Config) (floatRepr : String → String) :
    Simulates (textLink cfg floatRepr) textMachine TextWorld.Elapses machine World.Elapses
      (fun t => SessionRepository.expiry cfg t.now < endOfTime) (Represents floatRepr) where
  answer t w d c hsafe h hc := by
    obtain ⟨rfl, hwrites⟩ := hc
    obtain ⟨hrepresents, hreply⟩ := h.answer hwrites
    refine ⟨hrepresents, heq_of_eq hreply, ?_⟩
    have hshows := h.writable.shows c
    cases c
    -- the clock is the only reply whose bound does not come from what is stored
    case now =>
      show SessionRepository.expiry cfg w.now < endOfTime
      rw [← h.now]
      exact hsafe
    all_goals exact hshows
  move t t' w h helapses := h.elapses helapses

end SessionManager
