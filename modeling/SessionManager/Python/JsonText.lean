import Mathlib.Data.List.Sort
import SessionManager.Python.Text

/-!
# `json.dumps`

The text that `json.dumps` writes for a value, character by character as the encoder of CPython
writes it, with the separators `", "` and `": "`.

* `escapeChar`, `textStr` — a string, with every character beyond ASCII escaped or not
  (`ensure_ascii`).
* `text` — the text of a value.
* `sortKeys` — what `sort_keys` makes of a value first.
* `dumps` — `json.dumps`, which fails on an `int` of more than 4300 digits.
-/

namespace Python.Json

/-! ### Strings -/

/-- The four hexadecimal digits of a code unit. -/
def hex4 (n : ℕ) : List Char :=
  [Nat.digitChar (n / 4096), Nat.digitChar (n / 256 % 16), Nat.digitChar (n / 16 % 16),
    Nat.digitChar (n % 16)]

/-- `\uXXXX` for a code point, or the surrogate pair of one beyond U+FFFF. -/
def unicodeEscape (n : ℕ) : List Char :=
  if n < 0x10000 then '\\' :: 'u' :: hex4 n
  else
    '\\' :: 'u' :: hex4 (0xd800 + (n - 0x10000) / 1024) ++
      '\\' :: 'u' :: hex4 (0xdc00 + (n - 0x10000) % 1024)

/-- `ESCAPE_DCT`: the characters with an escape of two characters, and its second character. -/
def shortEscapes : List (Char × Char) :=
  [('\\', '\\'), ('"', '"'), ('\x08', 'b'), ('\x0c', 'f'), ('\n', 'n'), ('\r', 'r'), ('\t', 't')]

/-- One character of a string. Control characters are always escaped. -/
def escapeChar (ensureAscii : Bool) (c : Char) : List Char :=
  match shortEscapes.lookup c with
  | some e => ['\\', e]
  | none =>
    if c.toNat < 0x20 ∨ (ensureAscii ∧ 0x7f ≤ c.toNat) then unicodeEscape c.toNat else [c]

/-- The characters of a string between its quotes. -/
def escape (ensureAscii : Bool) (cs : List Char) : List Char := cs.flatMap (escapeChar ensureAscii)

/-- A string in quotes. -/
def textStr (ensureAscii : Bool) (s : String) : List Char :=
  '"' :: escape ensureAscii s.toList ++ ['"']

/-! ### Values -/

/-- `floatstr`: the `repr`, but for the three values that are no numbers. -/
def textFloat (repr : String) : List Char :=
  if repr = "nan" then "NaN".toList
  else if repr = "inf" then "Infinity".toList
  else if repr = "-inf" then "-Infinity".toList
  else repr.toList

/-- The text of an `int`. -/
def textInt (n : ℤ) : List Char :=
  if n < 0 then '-' :: Nat.toDigits 10 n.natAbs else Nat.toDigits 10 n.natAbs

mutual

/-- The text of a value. -/
def text (ensureAscii : Bool) : Json → List Char
  | .null => "null".toList
  | .bool true => "true".toList
  | .bool false => "false".toList
  | .int n => textInt n
  | .float repr => textFloat repr
  | .str s => textStr ensureAscii s
  | .arr items => '[' :: textItems ensureAscii items ++ [']']
  | .obj entries => '\x7b' :: textEntries ensureAscii entries ++ ['\x7d']

/-- The items of a `list`, with a separator between two of them. -/
def textItems (ensureAscii : Bool) : List Json → List Char
  | [] => []
  | [item] => text ensureAscii item
  | item :: item' :: items =>
    text ensureAscii item ++ ',' :: ' ' :: textItems ensureAscii (item' :: items)

/-- The entries of a `dict`, with a separator between two of them. -/
def textEntries (ensureAscii : Bool) : List (String × Json) → List Char
  | [] => []
  | [(key, value)] => textStr ensureAscii key ++ ':' :: ' ' :: text ensureAscii value
  | (key, value) :: entry :: entries =>
    textStr ensureAscii key ++ ':' :: ' ' :: text ensureAscii value ++
      ',' :: ' ' :: textEntries ensureAscii (entry :: entries)

end

/-! ### Keys in order -/

/-- The order in which `sorted` puts the items of a `dict`: by key. -/
def keyLE (entry entry' : String × Json) : Bool := entry.1 ≤ entry'.1

mutual

/-- A value with the keys of every `dict` in it in order. -/
def sortKeys : Json → Json
  | .arr items => .arr (sortItems items)
  | .obj entries => .obj ((sortValues entries).mergeSort keyLE)
  | value => value

/-- The items of a `list`, sorted inside. -/
def sortItems : List Json → List Json
  | [] => []
  | item :: items => sortKeys item :: sortItems items

/-- The entries of a `dict` in the order they have, sorted inside. -/
def sortValues : List (String × Json) → List (String × Json)
  | [] => []
  | (key, value) :: entries => (key, sortKeys value) :: sortValues entries

end

/-! ### The whole text -/

/-- `sys.int_info.default_max_str_digits`. -/
def maxStrDigits : ℕ := 4300

mutual

/-- Every `int` in a value has a text. -/
def shortInts : Json → Bool
  | .int n => (Nat.toDigits 10 n.natAbs).length ≤ maxStrDigits
  | .arr items => shortItems items
  | .obj entries => shortValues entries
  | _ => true

/-- `shortInts` for the items of a `list`. -/
def shortItems : List Json → Bool
  | [] => true
  | item :: items => shortInts item && shortItems items

/-- `shortInts` for the values of a `dict`. -/
def shortValues : List (String × Json) → Bool
  | [] => true
  | (_, value) :: entries => shortInts value && shortValues entries

end

/-- `json.dumps(value, sort_keys=…, ensure_ascii=…)`. -/
def dumps (sortKeys ensureAscii : Bool) (value : Json) : Except PyError String :=
  if value.shortInts then
    .ok (String.ofList (text ensureAscii (if sortKeys then value.sortKeys else value)))
  else .error .valueError

end Python.Json
