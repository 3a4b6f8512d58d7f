import Mathlib.Data.Int.Notation
import Mathlib.Data.List.DropRight
import Mathlib.Data.Nat.Notation
import Mathlib.Tactic.Common
import SessionManager.Python.Printable

/-!
# Python's built-in values

What `json.loads` returns and `json.dumps` takes, with the operations the interpreter has on it,
and the parts of `str` and `datetime` that go with it.

* `Json` — `None`, `bool`, `int`, `float`, `str`, `list` and `dict`. A `float` is kept as its
  `repr`, which determines it.
* `Dict` — a `dict` with string keys, in insertion order: `get`, `set`, `contains`.
* `Json.truthy` — the truth value of `if value:`.
* `Json.isDict`, `Json.isList`, `Json.isInt`, `Json.isStr` — `isinstance`; a `bool` is an `int`.
* `Json.pyRepr`, `Json.pyStr` — `repr(value)` and `str(value)`.
* `orDash`, `nonEmpty`, `optJson`, `optEntry` — what the code does with values that may be `None`.
* `strip` — `str.strip()`.
* `isoformat` — the ISO 8601 text of an instant.
-/

namespace Python

/-- A JSON value as a Python object. -/
inductive Json where
  /-- `None`. -/
  | null
  /-- `True` or `False`. -/
  | bool (b : Bool)
  /-- An `int`. -/
  | int (n : ℤ)
  /-- The `float` with the given `repr`. -/
  | float (repr : String)
  /-- A `str`. -/
  | str (s : String)
  /-- A `list`. -/
  | arr (items : List Json)
  /-- A `dict` with string keys, in insertion order. -/
  | obj (entries : List (String × Json))

/-- The entries of a `dict`, in insertion order. -/
abbrev Dict := List (String × Json)

namespace Dict

/-- `d.get(key)`; a missing key gives `None`. -/
def get (d : Dict) (key : String) : Json := (d.lookup key).getD .null

/-- `key in d`. -/
def contains (d : Dict) (key : String) : Bool := (d.lookup key).isSome

/-- `d[key] = value`: in place when the key is there, at the end otherwise. -/
def set : Dict → String → Json → Dict
  | [], key, value => [(key, value)]
  | (key', value') :: d, key, value =>
    if key' = key then (key, value) :: d else (key', value') :: Dict.set d key value

@[simp] theorem lookup_set_self (d : Dict) (key : String) (value : Json) :
    (d.set key value).lookup key = some value := by
  induction d with
  | nil => simp [set]
  | cons entry d ih =>
    obtain ⟨key', value'⟩ := entry
    by_cases h : key' = key
    · simp [set, h]
    · have h' : (key == key') = false := by simpa using fun e => h e.symm
      simp [set, h, List.lookup_cons, h', ih]

theorem lookup_set_of_ne (d : Dict) {key other : String} (h : other ≠ key) (value : Json) :
    (d.set key value).lookup other = d.lookup other := by
  induction d with
  | nil =>
    have h' : (other == key) = false := by simpa using h
    simp [set, List.lookup_cons, h']
  | cons entry d ih =>
    obtain ⟨key', value'⟩ := entry
    by_cases hkey : key' = key
    · subst hkey
      have h' : (other == key') = false := by simpa using h
      simp [set, List.lookup_cons, h']
    · simp only [set, if_neg hkey, List.lookup_cons]
      split <;> [rfl; exact ih]

@[simp] theorem get_set_self (d : Dict) (key : String) (value : Json) :
    (d.set key value).get key = value := by
  simp [get]

theorem get_set_of_ne (d : Dict) {key other : String} (h : other ≠ key) (value : Json) :
    (d.set key value).get other = d.get other := by
  simp [get, lookup_set_of_ne d h]

/-- Setting a key again replaces its value. -/
theorem set_set (d : Dict) (key : String) (value value' : Json) :
    (d.set key value).set key value' = d.set key value' := by
  induction d with
  | nil => simp [set]
  | cons entry d ih =>
    obtain ⟨key', value''⟩ := entry
    by_cases h : key' = key
    · simp [set, h]
    · simp [set, h, ih]

/-- Different keys may be set in either order. -/
theorem lookup_set_comm (d : Dict) {key key' : String} (h : key ≠ key') (value value' : Json)
    (other : String) : ((d.set key value).set key' value').lookup other =
      ((d.set key' value').set key value).lookup other := by
  by_cases hkey : other = key
  · subst hkey
    rw [lookup_set_of_ne _ h, lookup_set_self, lookup_set_self]
  · rw [lookup_set_of_ne (d.set key' value') hkey]
    by_cases hkey' : other = key'
    · subst hkey'
      rw [lookup_set_self, lookup_set_self]
    · rw [lookup_set_of_ne _ hkey', lookup_set_of_ne _ hkey, lookup_set_of_ne _ hkey']

end Dict

namespace Json

/-- The truth value of a JSON value. -/
def truthy : Json → Bool
  | .null => false
  | .bool b => b
  | .int n => n ≠ 0
  | .float r => r ≠ "0.0" && r ≠ "-0.0"
  | .str s => s ≠ ""
  | .arr items => !items.isEmpty
  | .obj entries => !entries.isEmpty

/-- `value is None`. -/
def isNone : Json → Bool
  | .null => true
  | _ => false

/-- `isinstance(value, dict)`. -/
def isDict : Json → Bool
  | .obj _ => true
  | _ => false

/-- `isinstance(value, list)`. -/
def isList : Json → Bool
  | .arr _ => true
  | _ => false

/-- `isinstance(value, int)`; `bool` is a subclass of `int`. -/
def isInt : Json → Bool
  | .int _ => true
  | .bool _ => true
  | _ => false

/-- `isinstance(value, str)`. -/
def isStr : Json → Bool
  | .str _ => true
  | _ => false

/-- `width` hexadecimal digits of a number. -/
def hexDigits : ℕ → ℕ → List Char
  | 0, _ => []
  | width + 1, n => hexDigits width (n / 16) ++ [Nat.digitChar (n % 16)]

/-- The escape of a character by its code point: two, four or eight digits. -/
def reprEscape (n : ℕ) : List Char :=
  if n ≤ 0xff then '\\' :: 'x' :: hexDigits 2 n
  else if n ≤ 0xffff then '\\' :: 'u' :: hexDigits 4 n
  else '\\' :: 'U' :: hexDigits 8 n

/-- One character of `repr` of a string quoted with `quote`; what is not printable is escaped. -/
def reprChar (quote : Char) (c : Char) : List Char :=
  if c = quote ∨ c = '\\' then ['\\', c]
  else if c = '\n' then ['\\', 'n']
  else if c = '\r' then ['\\', 'r']
  else if c = '\t' then ['\\', 't']
  else if isPrintable c then [c]
  else reprEscape c.toNat

/-- `repr` of a string: single quotes, unless it has a single quote and no double quote. -/
def reprStr (s : String) : String :=
  let quote := if '\'' ∈ s.toList ∧ '"' ∉ s.toList then '"' else '\''
  String.ofList (quote :: s.toList.flatMap (reprChar quote) ++ [quote])

mutual

/-- `repr(value)`. -/
def pyRepr : Json → String
  | .null => "None"
  | .bool true => "True"
  | .bool false => "False"
  | .int n => toString n
  | .float r => r
  | .str s => reprStr s
  | .arr items => "[" ++ ", ".intercalate (reprItems items) ++ "]"
  | .obj entries => "\x7b" ++ ", ".intercalate (reprEntries entries) ++ "\x7d"

/-- The items of a `list` as `repr` prints them. -/
def reprItems : List Json → List String
  | [] => []
  | item :: items => pyRepr item :: reprItems items

/-- The entries of a `dict` as `repr` prints them. -/
def reprEntries : List (String × Json) → List String
  | [] => []
  | (key, value) :: entries => (reprStr key ++ ": " ++ pyRepr value) :: reprEntries entries

end

/-- `str(value)`: a string is itself, everything else prints as `repr`. -/
def pyStr : Json → String
  | .str s => s
  | value => pyRepr value

@[simp] theorem pyStr_str (s : String) : pyStr (.str s) = s := rfl

end Json

/-! ### Optional values -/

/-- `value or "-"`. -/
def orDash : Option String → String
  | none => "-"
  | some s => if s = "" then "-" else s

/-- A string that is not `None` and not empty. -/
def nonEmpty (s : Option String) : Option String := s.filter (· ≠ "")

/-- An optional string as JSON. -/
def optJson : Option String → Json
  | none => .null
  | some s => .str s

/-- An optional value as the entry `key` of a `dict`, left out when it is `None`. -/
def optEntry (key : String) (v : Option Json) : Dict := (v.map fun v => (key, v)).toList

/-! ### Strings -/

/-- The characters `str.isspace()` accepts. -/
def isSpace (c : Char) : Bool :=
  let n := c.toNat
  (0x09 ≤ n && n ≤ 0x0d) || (0x1c ≤ n && n ≤ 0x20) || n == 0x85 || n == 0xa0 || n == 0x1680 ||
    (0x2000 ≤ n && n ≤ 0x200a) || n == 0x2028 || n == 0x2029 || n == 0x202f || n == 0x205f ||
    n == 0x3000

/-- `s.strip()`. -/
def strip (s : String) : String :=
  String.ofList ((s.toList.dropWhile isSpace).reverse.dropWhile isSpace).reverse

theorem strip_toList (s : String) :
    (strip s).toList = (s.toList.dropWhile isSpace).rdropWhile isSpace := by
  rw [strip, String.toList_ofList]
  rfl

/-- Stripping a second time changes nothing. -/
@[simp] theorem strip_strip (s : String) : strip (strip s) = strip s := by
  have hkept := List.rdropWhile_prefix isSpace (l := s.toList.dropWhile isSpace)
  rw [← strip_toList] at hkept
  have hfront : (strip s).toList.dropWhile isSpace = (strip s).toList := by
    rw [List.dropWhile_eq_self_iff]
    intro hlen
    -- the first character that is left is the first one that is no space
    rw [hkept.getElem hlen]
    exact List.dropWhile_get_zero_not isSpace s.toList (hlen.trans_le hkept.length_le)
  apply String.toList_inj.mp
  rw [strip_toList, hfront, strip_toList]
  exact List.rdropWhile_idempotent isSpace _

/-! ### Instants -/

/-- The civil date of a day counted from 1970-01-01: year, month, day. -/
def civil (day : ℕ) : ℕ × ℕ × ℕ :=
  -- years start in March here, so that the leap day is the last day of one
  let shifted := day + 719468
  let era := shifted / 146097
  let dayOfEra := shifted % 146097
  let yearOfEra := (dayOfEra - dayOfEra / 1460 + dayOfEra / 36524 - dayOfEra / 146096) / 365
  let dayOfYear := dayOfEra - (365 * yearOfEra + yearOfEra / 4 - yearOfEra / 100)
  let month := (5 * dayOfYear + 2) / 153
  let dayOfMonth := dayOfYear - (153 * month + 2) / 5 + 1
  let year := yearOfEra + era * 400
  if month < 10 then (year, month + 3, dayOfMonth) else (year + 1, month - 9, dayOfMonth)

/-- A number in decimal with at least `width` digits. -/
def zeroPad (width n : ℕ) : String :=
  let digits := toString n
  String.ofList (List.replicate (width - digits.length) '0') ++ digits

/-- `datetime.isoformat()` of a UTC instant in milliseconds; whole seconds print no fraction. -/
def isoformat (t : ℕ) : String :=
  let (year, month, day) := civil (t / 86400000)
  let second := t / 1000
  zeroPad 4 year ++ "-" ++ zeroPad 2 month ++ "-" ++ zeroPad 2 day ++ "T" ++
    zeroPad 2 (second / 3600 % 24) ++ ":" ++ zeroPad 2 (second / 60 % 60) ++ ":" ++
    zeroPad 2 (second % 60) ++
    (if t % 1000 = 0 then "" else "." ++ zeroPad 3 (t % 1000) ++ "000") ++ "+00:00"

end Python
