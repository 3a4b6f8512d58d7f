import SessionManager.Interaction.Checked
import SessionManager.StoredText.Representation

/-!
# What the client can send

`json.loads` takes the escape of half a surrogate pair for a character, which has no encoding: the
client raises `UnicodeEncodeError` instead of sending a command with such a character in it.

* `LoneSurrogates`, `Encodes` — the characters that stand for such halves, and the texts without
  them.
* `sent` — a program with a client that encodes every text of a command.
* `encodes_pyRepr`, `encodes_pyStr` — a value whose JSON can be encoded has a `str` that can.
-/

namespace SessionManager

open Python Interaction

/-- `c.isascii()`. -/
def isAscii (c : Char) : Bool := Nat.ble c.toNat 0x7f

/-- The part of a key that a request chooses. -/
def Key.id : Key → String
  | .session k | .turns k => k
  | .realtimeProfile u | .batchProfile u => u
  | .jti j => j

/-- A `Char` is no surrogate. These characters stand for the ones that a `str` may have; none of
them is an ASCII character. -/
structure LoneSurrogates where
  stands : Char → Bool
  not_ascii : ∀ c, stands c → isAscii c = false

namespace LoneSurrogates

/-- Texts without surrogates only. -/
def none : LoneSurrogates := ⟨fun _ => false, nofun⟩

variable (lone : LoneSurrogates)

/-- `text.encode("utf-8")` returns. -/
def Encodes (text : List Char) : Prop := ∀ c ∈ text, lone.stands c = false

instance (text : List Char) : Decidable (lone.Encodes text) :=
  List.decidableBAll (fun c => lone.stands c = false) text

/-- The texts of a command can be encoded: its key, and the texts of what it writes. -/
def sends : Command → Bool
  | .hgetall k => lone.Encodes (Key.session k).text.toList
  | .hset k mapping => lone.Encodes (Key.session k).text.toList &&
      Hash.fields.all fun f => (mapping f).all fun v => lone.Encodes (f.plain v).toList
  | .lrange k => lone.Encodes (Key.turns k).text.toList
  | .rpush k turn => lone.Encodes (Key.turns k).text.toList &&
      lone.Encodes (plainTurn turn).toList
  | .set key v | .setex key _ v => lone.Encodes key.text.toList &&
      lone.Encodes (plainString key v).toList
  | .get key | .exists_ key | .expire key _ | .del key => lone.Encodes key.text.toList
  | .now | .eslog _ => true

/-- What the client raises for a command. -/
def refusal (c : Command) : Option ServiceError :=
  if lone.sends c then Option.none else some .unicodeEncode

/-- The program with a client that encodes what it sends. -/
def sent {α : Type} (p : Svc α) : Svc α := p.checked lone.refusal

variable {lone}

@[simp] theorem refusal_eq_none {c : Command} : lone.refusal c = Option.none ↔ lone.sends c := by
  simp [refusal]

theorem eq_of_refusal {c : Command} {e : ServiceError} (h : lone.refusal c = some e) :
    e = .unicodeEncode := by
  unfold refusal at h
  split at h
  · cases h
  · exact (Option.some.inj h).symm

/-- A program that issues nothing else than commands that can be sent. -/
theorem sent_of_only {α : Type} {p : Svc α} (hp : p.Only fun c => lone.sends c) :
    lone.sent p = p :=
  Program.checked_of_only (hp.mono fun _ hc => refusal_eq_none.mpr hc)

theorem sent_bind {α β : Type} (p : Svc α) (f : α → Svc β) :
    lone.sent (p >>= f) = lone.sent p >>= fun a => lone.sent (f a) :=
  Program.checked_bind p f

/-! ### Texts -/

theorem Encodes.of_subset {text text' : List Char} (h : lone.Encodes text) (hsub : text' ⊆ text) :
    lone.Encodes text' := fun c hc => h c (hsub hc)

theorem encodes_of_ascii {text : List Char} (h : text.all isAscii) : lone.Encodes text := by
  intro c hc
  by_contra hstands
  have hbeyond := lone.not_ascii c (by simpa using hstands)
  rw [List.all_eq_true.mp h c hc] at hbeyond
  cases hbeyond

@[simp] theorem encodes_append {text text' : List Char} :
    lone.Encodes (text ++ text') ↔ lone.Encodes text ∧ lone.Encodes text' :=
  List.forall_mem_append

/-- A character of ASCII in front. -/
theorem encodes_cons {c : Char} {text : List Char} (hc : isAscii c) :
    lone.Encodes (c :: text) ↔ lone.Encodes text := by
  rw [← List.singleton_append, encodes_append]
  exact and_iff_right (encodes_of_ascii (by simpa using hc))

theorem encodes_flatMap {α : Type} {f : α → List Char} {l : List α} :
    lone.Encodes (l.flatMap f) ↔ ∀ a ∈ l, lone.Encodes (f a) := by
  simp only [Encodes, List.mem_flatMap]
  exact ⟨fun h a ha c hc => h c ⟨a, ha, hc⟩, fun h c ⟨a, ha, hc⟩ => h a ha c hc⟩

theorem encodes_intercalate {sep : String} {texts : List String}
    (hsep : lone.Encodes sep.toList) (h : ∀ text ∈ texts, lone.Encodes text.toList) :
    lone.Encodes (sep.intercalate texts).toList := by
  induction texts with
  | nil => exact nofun
  | cons text texts ih =>
    have htext := h text List.mem_cons_self
    have hrest := ih fun text' hmem => h text' (List.mem_cons_of_mem _ hmem)
    cases texts with
    | nil => simpa using htext
    | cons text' texts =>
      rw [String.intercalate_cons_cons, String.toList_append, String.toList_append]
      simpa [hsep, htext] using hrest

/-- A key has a prefix in ASCII. -/
theorem encodes_key {key : Key} : lone.Encodes key.text.toList ↔ lone.Encodes key.id.toList := by
  have hprefix (name : String) (hname : name.toList.all isAscii) (id : String) :
      lone.Encodes (keyText name id).toList ↔ lone.Encodes id.toList := by
    rw [keyText, String.toList_append, encodes_append]
    exact and_iff_right (encodes_of_ascii hname)
  cases key with
  | session k => exact hprefix "session:" (by decide) k
  | turns k => exact hprefix "turns:" (by decide) k
  | realtimeProfile u => exact hprefix "profile:realtime:" (by decide) u
  | batchProfile u => exact hprefix "profile:batch:" (by decide) u
  | jti j => exact hprefix "jti:" (by decide) j

theorem encodes_of_digits {text : List Char} (h : ∀ c ∈ text, c.isDigit) :
    lone.Encodes text := by
  refine encodes_of_ascii (List.all_eq_true.mpr fun c hc => ?_)
  have hdigit := h c hc
  simp only [Char.isDigit, Bool.and_eq_true, decide_eq_true_eq] at hdigit
  have hle : c.toNat ≤ '9'.toNat := hdigit.2
  exact Nat.ble_eq.mpr (hle.trans (by decide))

theorem encodes_toDigits (n : ℕ) : lone.Encodes (Nat.toDigits 10 n) :=
  encodes_of_digits fun _ hc => Nat.isDigit_of_mem_toDigits (by decide) (by decide) hc

theorem encodes_zeroPad (width n : ℕ) : lone.Encodes (zeroPad width n).toList :=
  encodes_of_digits (zeroPad_digits width n)

theorem encodes_isoformat (t : ℕ) : lone.Encodes (isoformat t).toList := by
  have hdash (text : List Char) : lone.Encodes ('-' :: text) ↔ lone.Encodes text :=
    encodes_cons (by decide)
  have hcolon (text : List Char) : lone.Encodes (':' :: text) ↔ lone.Encodes text :=
    encodes_cons (by decide)
  have hletter (text : List Char) : lone.Encodes ('T' :: text) ↔ lone.Encodes text :=
    encodes_cons (by decide)
  have hoffset : lone.Encodes "+00:00".toList := encodes_of_ascii (by decide)
  have hfraction : lone.Encodes
      (if t % 1000 = 0 then "" else "." ++ zeroPad 3 (t % 1000) ++ "000").toList := by
    have hpoint : lone.Encodes ".".toList := encodes_of_ascii (by decide)
    have hzeros : lone.Encodes "000".toList := encodes_of_ascii (by decide)
    split
    · exact nofun
    · simp only [String.toList_append, encodes_append, encodes_zeroPad, hpoint, hzeros, and_self]
  rcases hcivil : civil (t / 86400000) with ⟨year, month, day⟩
  rw [isoformat_eq, hcivil, isoformatOn_eq, String.toList_ofList, isoText]
  simp only [encodes_append, encodes_zeroPad, hdash, hcolon, hletter, hoffset, hfraction, and_self]

/-! ### JSON -/

theorem escapeChar_of_ascii {c : Char} (hc : isAscii c) :
    lone.Encodes (Json.escapeChar false c) := by
  have hall : (List.range 0x80).all fun n =>
      (Json.escapeChar false (Char.ofNat n)).all isAscii := by decide
  have hchar := List.all_eq_true.mp hall c.toNat
    (List.mem_range.mpr (Nat.lt_succ_of_le (Nat.ble_eq.mp hc)))
  rw [Char.ofNat_toNat] at hchar
  exact encodes_of_ascii hchar

theorem escapeChar_of_not_ascii {c : Char} (hc : isAscii c = false) :
    Json.escapeChar false c = [c] := by
  have hshort : Json.shortEscapes.all fun p => isAscii p.1 := by decide
  have hnone : Json.shortEscapes.lookup c = Option.none := by
    rw [List.lookup_eq_none_iff]
    intro p hp
    refine bne_iff_ne.mpr ?_
    rintro rfl
    rw [List.all_eq_true.mp hshort p hp] at hc
    cases hc
  have hlarge : ¬ c.toNat ≤ 0x7f := by
    rw [← Nat.ble_eq, show Nat.ble c.toNat 0x7f = false from hc]
    exact Bool.false_ne_true
  rw [Json.escapeChar, hnone]
  exact if_neg (by simp; omega)

/-- A string, as `json.dumps` writes it without escaping what is beyond ASCII. -/
theorem encodes_textStr {s : String} :
    lone.Encodes (Json.textStr false s) ↔ lone.Encodes s.toList := by
  have hchar (c : Char) : lone.Encodes (Json.escapeChar false c) ↔ lone.stands c = false := by
    by_cases hc : isAscii c
    · have hself : lone.Encodes [c] := encodes_of_ascii (by simpa using hc)
      exact iff_of_true (escapeChar_of_ascii hc) (hself c List.mem_cons_self)
    · rw [escapeChar_of_not_ascii (by simpa using hc)]
      simp [Encodes]
  rw [Json.textStr, List.cons_append, encodes_cons (by decide), encodes_append, Json.escape,
    encodes_flatMap]
  simp only [hchar]
  exact and_iff_left (encodes_of_ascii (by decide))

theorem encodes_hexDigits (width n : ℕ) : lone.Encodes (Json.hexDigits width n) := by
  induction width generalizing n with
  | zero => exact nofun
  | succ width ih =>
    have hdigit : (List.range 16).all fun n => [Nat.digitChar n].all isAscii := by decide
    rw [Json.hexDigits, encodes_append]
    refine ⟨ih _, encodes_of_ascii (List.all_eq_true.mp hdigit _ (List.mem_range.mpr ?_))⟩
    exact Nat.mod_lt _ (by decide)

/-- `repr` escapes characters, or leaves them as they are. -/
theorem encodes_reprChar {quote c : Char} (hc : lone.stands c = false) :
    lone.Encodes (Json.reprChar quote c) := by
  have hself : lone.Encodes [c] := fun c' hc' => by rwa [List.mem_singleton.mp hc']
  have hescape : lone.Encodes (Json.reprEscape c.toNat) := by
    unfold Json.reprEscape
    split_ifs <;>
      simp only [encodes_cons (show isAscii '\\' by decide),
        encodes_cons (show isAscii 'x' by decide),
        encodes_cons (show isAscii 'u' by decide),
        encodes_cons (show isAscii 'U' by decide), encodes_hexDigits]
  unfold Json.reprChar
  split_ifs
  · exact (encodes_cons (by decide)).mpr hself
  · exact encodes_of_ascii (by decide)
  · exact encodes_of_ascii (by decide)
  · exact encodes_of_ascii (by decide)
  · exact hself
  · exact hescape

theorem encodes_reprStr {s : String} (h : lone.Encodes s.toList) :
    lone.Encodes (Json.reprStr s).toList := by
  have hquoted (quote : Char) (hquote : isAscii quote) : lone.Encodes
      (String.ofList (quote :: s.toList.flatMap (Json.reprChar quote) ++ [quote])).toList := by
    rw [String.toList_ofList, List.cons_append, encodes_cons hquote, encodes_append,
      encodes_flatMap]
    exact ⟨fun c hc => encodes_reprChar (h c hc), encodes_of_ascii (by simpa using hquote)⟩
  unfold Json.reprStr
  dsimp only
  split
  · exact hquoted _ (by decide)
  · exact hquoted _ (by decide)

theorem encodes_textItems_cons {item : Json} {items : List Json} :
    lone.Encodes (Json.textItems false (item :: items)) ↔
      lone.Encodes (item.text false) ∧ lone.Encodes (Json.textItems false items) := by
  cases items with
  | nil => exact (and_iff_left nofun).symm
  | cons item' items =>
    rw [Json.textItems, encodes_append, encodes_cons (by decide), encodes_cons (by decide)]

theorem encodes_textEntries_cons {key : String} {value : Json} {entries : Dict} :
    lone.Encodes (Json.textEntries false ((key, value) :: entries)) ↔
      lone.Encodes key.toList ∧ lone.Encodes (value.text false) ∧
        lone.Encodes (Json.textEntries false entries) := by
  cases entries with
  | nil =>
    show lone.Encodes (Json.textStr false key ++ ':' :: ' ' :: value.text false) ↔ _
    rw [encodes_append, encodes_cons (by decide), encodes_cons (by decide), encodes_textStr]
    exact and_congr_right' (and_iff_left nofun).symm
  | cons entry entries =>
    rw [Json.textEntries, encodes_append, encodes_append, encodes_cons (by decide),
      encodes_cons (by decide), encodes_cons (by decide), encodes_cons (by decide),
      encodes_textStr, and_assoc]

/-- The parts of a `list` or a `dict` between its brackets. -/
theorem encodes_between {first last : Char} {text : List Char} (hfirst : isAscii first)
    (hlast : isAscii last) :
    lone.Encodes (first :: text ++ [last]) ↔ lone.Encodes text := by
  rw [List.cons_append, encodes_cons hfirst, encodes_append]
  exact and_iff_left (encodes_of_ascii (by simpa using hlast))

mutual

/-- What `json.dumps` writes for a value has all characters of its `repr` that are not in ASCII. -/
theorem encodes_pyRepr (v : Json) (h : lone.Encodes (v.text false)) :
    lone.Encodes v.pyRepr.toList := by
  match v with
  | .null => exact encodes_of_ascii (by decide)
  | .bool true => exact encodes_of_ascii (by decide)
  | .bool false => exact encodes_of_ascii (by decide)
  | .int (.ofNat n) =>
    show lone.Encodes (Nat.repr n).toList
    rw [Nat.toList_repr]
    exact encodes_toDigits n
  | .int (.negSucc n) =>
    show lone.Encodes ("-" ++ Nat.repr (n + 1)).toList
    rw [String.toList_append, Nat.toList_repr, encodes_append]
    exact ⟨encodes_of_ascii (by decide), encodes_toDigits _⟩
  | .float r =>
    -- JSON has other words for what is no number
    rw [Json.text, Json.textFloat] at h
    rw [Json.pyRepr]
    split_ifs at h with hnan hinf hneg
    · subst hnan
      exact encodes_of_ascii (by decide)
    · subst hinf
      exact encodes_of_ascii (by decide)
    · subst hneg
      exact encodes_of_ascii (by decide)
    · exact h
  | .str s => exact encodes_reprStr (encodes_textStr.mp h)
  | .arr items =>
    have hitems := encodes_reprItems items ((encodes_between (by decide) (by decide)).mp h)
    rw [Json.pyRepr, String.toList_append, String.toList_append]
    show lone.Encodes ('[' :: _ ++ [']'])
    exact (encodes_between (by decide) (by decide)).mpr
      (encodes_intercalate (encodes_of_ascii (by decide)) hitems)
  | .obj entries =>
    have hentries := encodes_reprEntries entries ((encodes_between (by decide) (by decide)).mp h)
    rw [Json.pyRepr, String.toList_append, String.toList_append]
    show lone.Encodes ('\x7b' :: _ ++ ['\x7d'])
    exact (encodes_between (by decide) (by decide)).mpr
      (encodes_intercalate (encodes_of_ascii (by decide)) hentries)

/-- `encodes_pyRepr` for the items of a `list`. -/
theorem encodes_reprItems (items : List Json) (h : lone.Encodes (Json.textItems false items)) :
    ∀ text ∈ Json.reprItems items, lone.Encodes text.toList := by
  match items with
  | [] => exact nofun
  | item :: items =>
    obtain ⟨hitem, hitems⟩ := encodes_textItems_cons.mp h
    rw [Json.reprItems, List.forall_mem_cons]
    exact ⟨encodes_pyRepr item hitem, encodes_reprItems items hitems⟩

/-- `encodes_pyRepr` for the entries of a `dict`. -/
theorem encodes_reprEntries (entries : Dict)
    (h : lone.Encodes (Json.textEntries false entries)) :
    ∀ text ∈ Json.reprEntries entries, lone.Encodes text.toList := by
  match entries with
  | [] => exact nofun
  | (key, value) :: entries =>
    obtain ⟨hkey, hvalue, hentries⟩ := encodes_textEntries_cons.mp h
    rw [Json.reprEntries, List.forall_mem_cons, String.toList_append, String.toList_append,
      encodes_append, encodes_append]
    exact ⟨⟨⟨encodes_reprStr hkey, encodes_of_ascii (by decide)⟩, encodes_pyRepr value hvalue⟩,
      encodes_reprEntries entries hentries⟩

end

/-- `str` of a value that can be encoded as JSON. -/
theorem encodes_pyStr {v : Json} (h : lone.Encodes (v.text false)) :
    lone.Encodes v.pyStr.toList := by
  cases v
  case str s => exact encodes_textStr.mp h
  all_goals exact encodes_pyRepr _ h

/-- The value of a key of a `dict` that can be encoded. -/
theorem encodes_lookup {d : Dict} (h : lone.Encodes (Json.textEntries false d)) {key : String}
    {value : Json} (hlookup : d.lookup key = some value) : lone.Encodes (value.text false) := by
  induction d with
  | nil => cases hlookup
  | cons entry d ih =>
    obtain ⟨key', value'⟩ := entry
    obtain ⟨-, hvalue, hrest⟩ := encodes_textEntries_cons.mp h
    rw [List.lookup_cons] at hlookup
    split at hlookup
    · obtain rfl := Option.some.inj hlookup
      exact hvalue
    · exact ih hrest hlookup

end LoneSurrogates

end SessionManager
