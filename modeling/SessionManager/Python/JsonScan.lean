import SessionManager.Interaction.Program
import SessionManager.Python.JsonText

/-!
# `json.loads`

The scanner of CPython: what `json.loads` makes of a text, and which texts it refuses. A text
with a surrogate that has no partner gives no `String`; it is refused here.

* `LoadError` — `JSONDecodeError`, and the `ValueError` of a long `int`.
* `scanString`, `scanNumber`, `scanConstant` — what is not nested. A scanner returns what it has
  read and the text after it.
* `scanOnce` — a value; `scanItems` and `scanEntries` are the loops over a `list` and a `dict`.
* `loads` — `json.loads`.
* `scanString_of_lt`, `scanOnce_of_le` — the fuel of the loops never runs out.
-/

namespace Python.Json

open Interaction (bind_eq_ok)

/-- What `json.loads` raises. -/
inductive LoadError where
  /-- `JSONDecodeError`. -/
  | decode
  /-- The `ValueError` for an `int` of more than 4300 digits. -/
  | tooLong
  deriving DecidableEq, Repr

/-! ### White space -/

/-- The white space between tokens. -/
def isJsonSpace (c : Char) : Bool := c = ' ' || c = '\t' || c = '\n' || c = '\r'

/-- The text after white space. -/
def skipSpace (cs : List Char) : List Char := cs.dropWhile isJsonSpace

/-! ### Strings -/

/-- The code unit that four hexadecimal digits stand for. -/
def scanHex4 : List Char → Except LoadError (ℕ × List Char)
  | a :: b :: c :: d :: cs =>
    match hexDigit? a, hexDigit? b, hexDigit? c, hexDigit? d with
    | some a, some b, some c, some d => .ok (4096 * a + 256 * b + 16 * c + d, cs)
    | _, _, _, _ => .error .decode
  | _ => .error .decode

/-- The second half of a surrogate pair that began with `high`. -/
def scanLow (high : ℕ) : List Char → Except LoadError (Char × List Char)
  | '\\' :: 'u' :: cs => do
    let (low, cs) ← scanHex4 cs
    if 0xdc00 ≤ low ∧ low < 0xe000 then
      .ok (Char.ofNat (0x10000 + (high - 0xd800) * 1024 + (low - 0xdc00)), cs)
    else .error .decode
  | _ => .error .decode

/-- The characters that stand for another one after a backslash. -/
def shortUnescapes : List (Char × Char) :=
  ('/', '/') :: shortEscapes.map Prod.swap

/-- What comes after a backslash. -/
def scanEscape : List Char → Except LoadError (Char × List Char)
  | 'u' :: cs => do
    let (n, cs) ← scanHex4 cs
    if 0xd800 ≤ n ∧ n < 0xdc00 then scanLow n cs
    else if 0xdc00 ≤ n ∧ n < 0xe000 then .error .decode
    else .ok (Char.ofNat n, cs)
  | c :: cs =>
    match shortUnescapes.lookup c with
    | some c' => .ok (c', cs)
    | none => .error .decode
  | [] => .error .decode

/-- The characters up to the closing quote; at most `fuel` of them. -/
def scanString : (fuel : ℕ) → List Char → Except LoadError (List Char × List Char)
  | 0, _ => .error .decode
  | _ + 1, [] => .error .decode
  | fuel + 1, c :: cs =>
    if c = '"' then .ok ([], cs)
    else if c = '\\' then do
      let (c', cs) ← scanEscape cs
      let (s, cs) ← scanString fuel cs
      .ok (c' :: s, cs)
    else if c.toNat < 0x20 then .error .decode
    else do
      let (s, cs) ← scanString fuel cs
      .ok (c :: s, cs)

/-! ### Numbers -/

/-- The sign at the front. -/
def splitSign : List Char → List Char × List Char
  | '-' :: cs => (['-'], cs)
  | cs => ([], cs)

/-- The digits at the front. -/
def splitDigits (cs : List Char) : List Char × List Char :=
  (cs.takeWhile Char.isDigit, cs.dropWhile Char.isDigit)

/-- The integer part: a zero alone, or digits that begin with another one. -/
def splitInteger : List Char → List Char × List Char
  | '0' :: cs => (['0'], cs)
  | cs => splitDigits cs

/-- The fraction, when there is a digit after the point. -/
def splitFraction : List Char → List Char × List Char
  | '.' :: cs =>
    match splitDigits cs with
    | ([], _) => ([], '.' :: cs)
    | (digits, cs') => ('.' :: digits, cs')
  | cs => ([], cs)

/-- The sign of an exponent. -/
def splitExponentSign : List Char → List Char × List Char
  | '+' :: cs => (['+'], cs)
  | cs => splitSign cs

/-- The exponent, when there is a digit in it. -/
def splitExponent : List Char → List Char × List Char
  | [] => ([], [])
  | c :: cs =>
    if c = 'e' ∨ c = 'E' then
      match splitDigits (splitExponentSign cs).2 with
      | ([], _) => ([], c :: cs)
      | (digits, cs') => (c :: (splitExponentSign cs).1 ++ digits, cs')
    else ([], c :: cs)

/-- A number text in its parts. -/
structure Number where
  sign : List Char
  integer : List Char
  fraction : List Char
  exponent : List Char

/-- `_match_number`: the parts of the number at the front and the text after it. -/
def matchNumber (cs : List Char) : Number × List Char :=
  let (sign, cs) := splitSign cs
  let (integer, cs) := splitInteger cs
  let (fraction, cs) := splitFraction cs
  let (exponent, cs) := splitExponent cs
  (⟨sign, integer, fraction, exponent⟩, cs)

namespace Number

/-- The text of a number. -/
def text (n : Number) : List Char := n.sign ++ n.integer ++ n.fraction ++ n.exponent

/-- The value of a number without fraction and exponent. -/
def toInt (n : Number) : ℤ :=
  if n.sign.isEmpty then Nat.ofDigitChars 10 n.integer 0 else -Nat.ofDigitChars 10 n.integer 0

/-- What a number becomes: an `int`, or a `float` by the `repr` that goes with its text. -/
def value (floatRepr : String → String) (n : Number) : Except LoadError Json :=
  if n.integer.isEmpty then .error .decode
  else if n.fraction.isEmpty && n.exponent.isEmpty then
    if n.integer.length ≤ maxStrDigits then .ok (.int n.toInt) else .error .tooLong
  else .ok (.float (floatRepr (String.ofList n.text)))

end Number

/-- A number. -/
def scanNumber (floatRepr : String → String) (cs : List Char) :
    Except LoadError (Json × List Char) :=
  let (n, cs) := matchNumber cs
  (n.value floatRepr).map (·, cs)

/-! ### Values -/

/-- The words that stand for a value. -/
def constants : List (List Char × Json) :=
  [("null".toList, .null), ("true".toList, .bool true), ("false".toList, .bool false),
    ("NaN".toList, .float "nan"), ("Infinity".toList, .float "inf"),
    ("-Infinity".toList, .float "-inf")]

/-- The word at the front. -/
def scanConstant (cs : List Char) : Option (Json × List Char) :=
  (constants.find? fun entry => entry.1.isPrefixOf cs).map fun entry =>
    (entry.2, cs.drop entry.1.length)

/-- A word or a number. -/
def scanPlain (floatRepr : String → String) (cs : List Char) :
    Except LoadError (Json × List Char) :=
  match scanConstant cs with
  | some found => .ok found
  | none => scanNumber floatRepr cs

/-- The `dict` that a list of pairs gives. -/
def dictOf (entries : List (String × Json)) : Dict :=
  entries.foldl (fun d entry => d.set entry.1 entry.2) []

variable (floatRepr : String → String)

mutual

/-- `scan_once`: a value, nested at most `fuel` deep. -/
def scanOnce : (fuel : ℕ) → List Char → Except LoadError (Json × List Char)
  | 0, _ => .error .decode
  | _ + 1, [] => .error .decode
  | fuel + 1, c :: cs =>
    if c = '"' then do
      let (s, cs) ← scanString (cs.length + 1) cs
      .ok (.str (String.ofList s), cs)
    else if c = '[' then
      match skipSpace cs with
      | ']' :: cs => .ok (.arr [], cs)
      | cs => do
        let (items, cs) ← scanItems fuel cs
        .ok (.arr items, cs)
    else if c = '\x7b' then
      match skipSpace cs with
      | '\x7d' :: cs => .ok (.obj [], cs)
      | cs => do
        let (entries, cs) ← scanEntries fuel cs
        .ok (.obj (dictOf entries), cs)
    else scanPlain floatRepr (c :: cs)

/-- The items of a `list` that is not empty, and its closing bracket. -/
def scanItems : (fuel : ℕ) → List Char → Except LoadError (List Json × List Char)
  | 0, _ => .error .decode
  | fuel + 1, cs => do
    let (item, cs) ← scanOnce fuel cs
    match skipSpace cs with
    | ']' :: cs => .ok ([item], cs)
    | ',' :: cs => do
      let (items, cs) ← scanItems fuel (skipSpace cs)
      .ok (item :: items, cs)
    | _ => .error .decode

/-- The entries of a `dict` that is not empty, and its closing brace. -/
def scanEntries : (fuel : ℕ) → List Char → Except LoadError (List (String × Json) × List Char)
  | 0, _ => .error .decode
  | fuel + 1, '"' :: cs => do
    let (key, cs) ← scanString (cs.length + 1) cs
    match skipSpace cs with
    | ':' :: cs => do
      let (value, cs) ← scanOnce fuel (skipSpace cs)
      match skipSpace cs with
      | '\x7d' :: cs => .ok ([(String.ofList key, value)], cs)
      | ',' :: cs => do
        let (entries, cs) ← scanEntries fuel (skipSpace cs)
        .ok ((String.ofList key, value) :: entries, cs)
      | _ => .error .decode
    | _ => .error .decode
  | _ + 1, _ => .error .decode

end

/-- `json.loads(s)`: one value, white space around it, and nothing else. -/
def loads (s : String) : Except LoadError Json := do
  let (value, cs) ← scanOnce floatRepr (2 * s.toList.length + 1) (skipSpace s.toList)
  if (skipSpace cs).isEmpty then .ok value else .error .decode

/-! ### Fuel

Every scanner leaves an end of its text. So a loop is at a shorter text each time it comes round,
and a value inside another one begins after at least one character of it. -/

section Fuel

variable {floatRepr}

theorem skipSpace_suffix (cs : List Char) : skipSpace cs <:+ cs := List.dropWhile_suffix _

theorem scanHex4_suffix {cs rest : List Char} {n : ℕ} (h : scanHex4 cs = .ok (n, rest)) :
    rest <:+ cs := by
  unfold scanHex4 at h
  split at h
  · split at h
    · cases h
      exact ⟨[_, _, _, _], rfl⟩
    · cases h
  · cases h

theorem scanLow_suffix {high : ℕ} {cs rest : List Char} {c : Char}
    (h : scanLow high cs = .ok (c, rest)) : rest <:+ cs := by
  unfold scanLow at h
  split at h
  · rename_i cs
    obtain ⟨⟨low, cs'⟩, hhex, h⟩ := bind_eq_ok.mp h
    dsimp only at h
    split_ifs at h
    simp only [Except.ok.injEq, Prod.mk.injEq] at h
    obtain ⟨-, rfl⟩ := h
    exact (scanHex4_suffix hhex).trans ⟨['\\', 'u'], rfl⟩
  · cases h

theorem scanEscape_suffix {cs rest : List Char} {c : Char} (h : scanEscape cs = .ok (c, rest)) :
    rest <:+ cs := by
  unfold scanEscape at h
  split at h
  · obtain ⟨⟨n, cs'⟩, hhex, h⟩ := bind_eq_ok.mp h
    have hsuffix := (scanHex4_suffix hhex).trans (List.suffix_cons 'u' _)
    dsimp only at h
    split_ifs at h
    · exact (scanLow_suffix h).trans hsuffix
    · cases h
      exact hsuffix
  · split at h
    · cases h
      exact List.suffix_cons _ _
    · cases h
  · cases h

theorem scanString_suffix {fuel : ℕ} {cs rest s : List Char}
    (h : scanString fuel cs = .ok (s, rest)) : rest <:+ cs := by
  induction fuel generalizing cs s with
  | zero => cases h
  | succ fuel ih =>
    cases cs with
    | nil => cases h
    | cons c cs =>
      rw [scanString] at h
      split_ifs at h
      · cases h
        exact List.suffix_cons _ _
      · obtain ⟨⟨c', cs'⟩, hescape, h⟩ := bind_eq_ok.mp h
        obtain ⟨⟨s', cs''⟩, hstring, h⟩ := bind_eq_ok.mp h
        cases h
        exact ((ih hstring).trans (scanEscape_suffix hescape)).trans (List.suffix_cons _ _)
      · obtain ⟨⟨s', cs'⟩, hstring, h⟩ := bind_eq_ok.mp h
        cases h
        exact (ih hstring).trans (List.suffix_cons _ _)

/-- More fuel than characters makes no difference to a string. -/
theorem scanString_succ {fuel : ℕ} {cs : List Char} (h : cs.length < fuel) :
    scanString (fuel + 1) cs = scanString fuel cs := by
  induction fuel generalizing cs with
  | zero => omega
  | succ fuel ih =>
    cases cs with
    | nil => rfl
    | cons c cs =>
      rw [List.length_cons] at h
      -- at an escape the rest is shorter still, so the hypothesis is used once more below
      rw [scanString, scanString, ih (show cs.length < fuel by omega)]
      split_ifs
      · rfl
      · cases hescape : scanEscape cs with
        | error e => rfl
        | ok found =>
          have hle := (scanEscape_suffix hescape).length_le
          simp only [bind, Except.bind]
          rw [ih (by omega)]
      · rfl
      · rfl

/-- A string does not run out of fuel when it has more than characters. -/
theorem scanString_of_lt {cs : List Char} {fuel : ℕ} (h : cs.length + 1 ≤ fuel) :
    scanString fuel cs = scanString (cs.length + 1) cs := by
  induction fuel, h using Nat.le_induction with
  | base => rfl
  | succ fuel hle ih => rw [scanString_succ hle, ih]

/-- The digits that are found and what is left are the text. -/
theorem splitDigits_eq (cs : List Char) : (splitDigits cs).1 ++ (splitDigits cs).2 = cs :=
  List.takeWhile_append_dropWhile

theorem splitSign_eq (cs : List Char) : (splitSign cs).1 ++ (splitSign cs).2 = cs := by
  unfold splitSign
  split <;> rfl

theorem splitInteger_eq (cs : List Char) : (splitInteger cs).1 ++ (splitInteger cs).2 = cs := by
  unfold splitInteger
  split
  · rfl
  · exact splitDigits_eq _

theorem splitFraction_eq (cs : List Char) : (splitFraction cs).1 ++ (splitFraction cs).2 = cs := by
  unfold splitFraction
  split
  · rename_i cs
    have heq := splitDigits_eq cs
    rcases hsplit : splitDigits cs with ⟨_ | ⟨d, digits⟩, after⟩
    · rfl
    · rw [hsplit] at heq
      exact congrArg ('.' :: ·) heq
  · rfl

theorem splitExponentSign_eq (cs : List Char) :
    (splitExponentSign cs).1 ++ (splitExponentSign cs).2 = cs := by
  unfold splitExponentSign
  split
  · rfl
  · exact splitSign_eq _

theorem splitExponent_eq (cs : List Char) : (splitExponent cs).1 ++ (splitExponent cs).2 = cs := by
  cases cs with
  | nil => rfl
  | cons c cs =>
    have hsign := splitExponentSign_eq cs
    have heq := splitDigits_eq (splitExponentSign cs).2
    rw [splitExponent]
    split_ifs
    · rcases hsplit : splitDigits (splitExponentSign cs).2 with ⟨_ | ⟨d, digits⟩, after⟩
      · rfl
      · rw [hsplit] at heq
        rw [← heq] at hsign
        simpa using hsign
    · rfl

/-- The parts that are found and what is left are the text. -/
theorem text_matchNumber (cs : List Char) :
    (matchNumber cs).1.text ++ (matchNumber cs).2 = cs := by
  simp only [matchNumber, Number.text, List.append_assoc, splitExponent_eq, splitFraction_eq,
    splitInteger_eq, splitSign_eq]

theorem scanPlain_suffix {cs rest : List Char} {v : Json}
    (h : scanPlain floatRepr cs = .ok (v, rest)) : rest <:+ cs := by
  unfold scanPlain at h
  split at h
  · rename_i hconstant
    obtain ⟨entry, -, heq⟩ := Option.map_eq_some_iff.mp hconstant
    cases heq.trans (Except.ok.inj h)
    exact List.drop_suffix _ _
  · unfold scanNumber at h
    have htext := text_matchNumber cs
    cases hvalue : (matchNumber cs).1.value floatRepr with
    | error e =>
      simp only [hvalue] at h
      cases h
    | ok v' =>
      simp only [hvalue] at h
      cases h
      exact ⟨_, htext⟩

/-- What is read is read off the front. -/
theorem scan_suffix (fuel : ℕ) :
    (∀ cs v rest, scanOnce floatRepr fuel cs = .ok (v, rest) → rest <:+ cs) ∧
    (∀ cs items rest, scanItems floatRepr fuel cs = .ok (items, rest) → rest <:+ cs) ∧
    (∀ cs entries rest, scanEntries floatRepr fuel cs = .ok (entries, rest) → rest <:+ cs) := by
  induction fuel with
  | zero => exact ⟨nofun, nofun, nofun⟩
  | succ fuel ih =>
    obtain ⟨ihOnce, ihItems, ihEntries⟩ := ih
    -- the three scanners call one another with less fuel, so they go together
    refine ⟨fun cs v rest h => ?_, fun cs items rest h => ?_, fun cs entries rest h => ?_⟩
    · cases cs with
      | nil => cases h
      | cons c cs =>
        have hspace := (skipSpace_suffix cs).trans (List.suffix_cons c cs)
        rw [scanOnce] at h
        split_ifs at h
        · -- a string, a `list`, a `dict`, or what is none of these
          obtain ⟨⟨s, cs'⟩, hstring, h⟩ := bind_eq_ok.mp h
          cases h
          exact (scanString_suffix hstring).trans (List.suffix_cons _ _)
        · split at h
          case h_1 heq =>
            cases h
            exact (heq ▸ List.suffix_cons _ _).trans hspace
          case h_2 =>
            obtain ⟨⟨items, cs'⟩, hitems, h⟩ := bind_eq_ok.mp h
            cases h
            exact (ihItems _ _ _ hitems).trans hspace
        · split at h
          case h_1 heq =>
            cases h
            exact (heq ▸ List.suffix_cons _ _).trans hspace
          case h_2 =>
            obtain ⟨⟨entries, cs'⟩, hentries, h⟩ := bind_eq_ok.mp h
            cases h
            exact (ihEntries _ _ _ hentries).trans hspace
        · exact scanPlain_suffix h
    · rw [scanItems] at h
      obtain ⟨⟨item, cs'⟩, hitem, h⟩ := bind_eq_ok.mp h
      have hspace := (skipSpace_suffix cs').trans (ihOnce _ _ _ hitem)
      dsimp only at h
      split at h
      case h_1 heq =>
        cases h
        exact (heq ▸ List.suffix_cons _ _).trans hspace
      case h_2 heq =>
        obtain ⟨⟨items', cs''⟩, hitems, h⟩ := bind_eq_ok.mp h
        cases h
        exact ((ihItems _ _ _ hitems).trans (skipSpace_suffix _)).trans
          ((heq ▸ List.suffix_cons _ _).trans hspace)
      case h_3 => cases h
    · unfold scanEntries at h
      split at h
      case h_1 => contradiction
      case h_3 => cases h
      case h_2 n cs heq =>
        cases heq
        obtain ⟨⟨key, cs₁⟩, hkey, h⟩ := bind_eq_ok.mp h
        -- key, colon and value: the texts after each of them are numbered in this order
        have hsuffix₁ := (skipSpace_suffix cs₁).trans
          ((scanString_suffix hkey).trans (List.suffix_cons '"' _))
        dsimp only at h
        split at h
        case h_2 => cases h
        case h_1 cs₂ heq =>
          rw [heq] at hsuffix₁
          obtain ⟨⟨value, cs₃⟩, hvalue, h⟩ := bind_eq_ok.mp h
          have hsuffix₃ := ((skipSpace_suffix cs₃).trans ((ihOnce _ _ _ hvalue).trans
            (skipSpace_suffix cs₂))).trans ((List.suffix_cons _ _).trans hsuffix₁)
          dsimp only at h
          split at h
          case h_1 heq =>
            cases h
            exact (heq ▸ List.suffix_cons _ _).trans hsuffix₃
          case h_2 heq =>
            obtain ⟨⟨entries', cs₄⟩, hentries, h⟩ := bind_eq_ok.mp h
            cases h
            exact ((ihEntries _ _ _ hentries).trans (skipSpace_suffix _)).trans
              ((heq ▸ List.suffix_cons _ _).trans hsuffix₃)
          case h_3 => cases h

/-- One more unit of fuel makes no difference to a loop that has twice as much as characters. -/
theorem scan_succ (fuel : ℕ) :
    (∀ cs, 2 * cs.length + 1 ≤ fuel →
      scanOnce floatRepr (fuel + 1) cs = scanOnce floatRepr fuel cs) ∧
    (∀ cs, 2 * cs.length + 2 ≤ fuel →
      scanItems floatRepr (fuel + 1) cs = scanItems floatRepr fuel cs) ∧
    (∀ cs, 2 * cs.length + 2 ≤ fuel →
      scanEntries floatRepr (fuel + 1) cs = scanEntries floatRepr fuel cs) := by
  induction fuel with
  | zero => exact ⟨fun cs h => by omega, fun cs h => by omega, fun cs h => by omega⟩
  | succ fuel ih =>
    obtain ⟨ihOnce, ihItems, ihEntries⟩ := ih
    refine ⟨fun cs h => ?_, fun cs h => ?_, fun cs h => ?_⟩
    · cases cs with
      | nil => rfl
      | cons c cs =>
        -- a bracket costs one unit of fuel and one character, which pays for two
        have hspace := (skipSpace_suffix cs).length_le
        rw [List.length_cons] at h
        rw [scanOnce, scanOnce]
        split_ifs
        · rfl
        · split
          · rfl
          · rw [ihItems (skipSpace cs) (by omega)]
        · split
          · rfl
          · rw [ihEntries (skipSpace cs) (by omega)]
        · rfl
    · rw [scanItems, scanItems, ihOnce cs (by omega)]
      cases hitem : scanOnce floatRepr fuel cs with
      | error e => rfl
      | ok found =>
        obtain ⟨item, cs₁⟩ := found
        -- what is left after the item is no longer than the text, and the comma makes it shorter
        have hle := ((skipSpace_suffix cs₁).trans ((scan_suffix fuel).1 _ _ _ hitem)).length_le
        simp only [bind, Except.bind]
        split
        · rfl
        · rename_i cs₂ heq
          have hspace := (skipSpace_suffix cs₂).length_le
          rw [heq, List.length_cons] at hle
          rw [ihItems _ (by omega)]
        · rfl
    · cases cs with
      | nil => rfl
      | cons c cs =>
        by_cases hquote : c = '"'
        case neg => simp [scanEntries, hquote]
        case pos =>
          subst hquote
          rw [List.length_cons] at h
          rw [scanEntries, scanEntries]
          cases hkey : scanString (cs.length + 1) cs with
          | error e => rfl
          | ok found =>
            obtain ⟨key, cs₁⟩ := found
            have hle₁ := ((skipSpace_suffix cs₁).trans (scanString_suffix hkey)).length_le
            simp only [bind, Except.bind]
            split
            case h_2 => rfl
            case h_1 cs₂ heq₁ =>
              have hspace₂ := (skipSpace_suffix cs₂).length_le
              rw [heq₁, List.length_cons] at hle₁
              rw [ihOnce (skipSpace cs₂) (by omega)]
              cases hvalue : scanOnce floatRepr fuel (skipSpace cs₂) with
              | error e => rfl
              | ok found =>
                obtain ⟨value, cs₃⟩ := found
                have hle₃ := ((skipSpace_suffix cs₃).trans
                  ((scan_suffix fuel).1 _ _ _ hvalue)).length_le
                dsimp only
                split
                · rfl
                · rename_i cs₄ heq₃
                  have hspace₄ := (skipSpace_suffix cs₄).length_le
                  rw [heq₃, List.length_cons] at hle₃
                  rw [ihEntries (skipSpace cs₄) (by omega)]
                · rfl

/-- `scan_once` does not run out of fuel when it has twice as much as characters. -/
theorem scanOnce_of_le {cs : List Char} {fuel : ℕ} (h : 2 * cs.length + 1 ≤ fuel) :
    scanOnce floatRepr fuel cs = scanOnce floatRepr (2 * cs.length + 1) cs := by
  induction fuel, h using Nat.le_induction with
  | base => rfl
  | succ fuel hle ih => rw [(scan_succ fuel).1 cs hle, ih]

end Fuel

end Python.Json
