import SessionManager.Python.JsonScan

/-!
# What `json.loads` makes of the text of `json.dumps`

* `Valid` — the values that the interpreter can hold and `json.dumps` can write.
* `scanString_escape`, `matchNumber_append` — strings and numbers are read back.
* `scanOnce_text` — and so is every value, whatever comes after its text.
* `loads_dumps` — `json.loads(json.dumps(value))`.
-/

namespace Python.Json

/-! ### Strings -/

theorem hexDigit?_digitChar : ∀ n < 16, hexDigit? (Nat.digitChar n) = some n := by
  decide

theorem scanHex4_hex4 {n : ℕ} (h : n < 0x10000) (cs : List Char) :
    scanHex4 (hex4 n ++ cs) = .ok (n, cs) := by
  have hfirst := hexDigit?_digitChar (n / 4096) (by omega)
  have hsecond := hexDigit?_digitChar (n / 256 % 16) (by omega)
  have hthird := hexDigit?_digitChar (n / 16 % 16) (by omega)
  have hfourth := hexDigit?_digitChar (n % 16) (by omega)
  have hsum : 4096 * (n / 4096) + 256 * (n / 256 % 16) + 16 * (n / 16 % 16) + n % 16 = n := by omega
  simp only [hex4, List.cons_append, List.nil_append, scanHex4, hfirst, hsecond, hthird, hfourth,
    hsum]

/-- A character is no surrogate. -/
theorem toNat_not_surrogate (c : Char) : c.toNat < 0xd800 ∨ 0xdfff < c.toNat ∧ c.toNat < 0x110000 :=
  c.valid

/-- A code unit that is no surrogate is a character. -/
theorem scanEscape_unit {n : ℕ} (h : n < 0xd800 ∨ 0xdfff < n ∧ n < 0x10000) (cs : List Char) :
    scanEscape ('u' :: (hex4 n ++ cs)) = .ok (Char.ofNat n, cs) := by
  have hhigh : ¬ (0xd800 ≤ n ∧ n < 0xdc00) := by omega
  have hlow : ¬ (0xdc00 ≤ n ∧ n < 0xe000) := by omega
  simp only [scanEscape, scanHex4_hex4 (show n < 0x10000 by omega), bind, Except.bind, if_neg hhigh,
    if_neg hlow]

/-- A surrogate of each kind are one character. -/
theorem scanEscape_pair {high low : ℕ} (hhigh : 0xd800 ≤ high ∧ high < 0xdc00)
    (hlow : 0xdc00 ≤ low ∧ low < 0xe000) (cs : List Char) :
    scanEscape ('u' :: (hex4 high ++ '\\' :: 'u' :: (hex4 low ++ cs))) =
      .ok (Char.ofNat (0x10000 + (high - 0xd800) * 1024 + (low - 0xdc00)), cs) := by
  simp only [scanEscape, scanHex4_hex4 (show high < 0x10000 by omega), bind, Except.bind,
    if_pos hhigh, scanLow, scanHex4_hex4 (show low < 0x10000 by omega), if_pos hlow]

/-- An escape in hexadecimal digits is read back. -/
theorem scanEscape_unicodeEscape (c : Char) (cs : List Char) :
    ∃ rest, unicodeEscape c.toNat = '\\' :: rest ∧ scanEscape (rest ++ cs) = .ok (c, cs) := by
  have hvalid := toNat_not_surrogate c
  unfold unicodeEscape
  split_ifs with hsmall
  · refine ⟨_, rfl, ?_⟩
    rw [List.cons_append, scanEscape_unit (by omega), Char.ofNat_toNat]
  · refine ⟨'u' :: hex4 (0xd800 + (c.toNat - 0x10000) / 1024) ++
      '\\' :: 'u' :: hex4 (0xdc00 + (c.toNat - 0x10000) % 1024), rfl, ?_⟩
    have hjoin : 0x10000 + (0xd800 + (c.toNat - 0x10000) / 1024 - 0xd800) * 1024 +
        (0xdc00 + (c.toNat - 0x10000) % 1024 - 0xdc00) = c.toNat := by omega
    simp only [List.append_assoc, List.cons_append]
    rw [scanEscape_pair (by omega) (by omega), hjoin, Char.ofNat_toNat]

/-- An escape of two characters is read back. -/
theorem scanEscape_short : ∀ entry ∈ shortEscapes, ∀ cs,
    scanEscape (entry.2 :: cs) = .ok (entry.1, cs) := by
  have hlookup : ∀ entry ∈ shortEscapes, entry.2 ≠ 'u' ∧
      shortUnescapes.lookup entry.2 = some entry.1 := by decide
  intro entry hmem cs
  obtain ⟨hne, hback⟩ := hlookup entry hmem
  unfold scanEscape
  split
  · -- no escape of two characters is that of `\u`
    exact absurd (List.cons.inj ‹_›).1 hne
  · rename_i heq
    obtain ⟨rfl, rfl⟩ := List.cons.inj heq
    rw [hback]
  · exact absurd ‹_› (List.cons_ne_nil _ _)

/-- An escape goes on to the rest of the string. -/
theorem scanString_escaped {c : Char} {rest cs : List Char} {fuel : ℕ}
    (h : scanEscape rest = .ok (c, cs)) :
    scanString (fuel + 1) ('\\' :: rest) =
      (scanString fuel cs).map fun (s, cs) => (c :: s, cs) := by
  rw [scanString, if_neg (by decide), if_pos rfl, h]
  rfl

/-- What is written for a character is read as that character. -/
theorem scanString_escapeChar (ensureAscii : Bool) (c : Char) (cs : List Char) (fuel : ℕ) :
    scanString (fuel + 1) (escapeChar ensureAscii c ++ cs) =
      (scanString fuel cs).map fun (s, cs) => (c :: s, cs) := by
  unfold escapeChar
  split
  case h_1 e he =>
    -- the character has an escape of two characters
    obtain ⟨before, after, hsplit, -⟩ := List.lookup_eq_some_iff.mp he
    exact scanString_escaped (scanEscape_short (c, e) (by simp [hsplit]) cs)
  case h_2 hnone =>
    split_ifs with hescaped
    · -- one escape with four digits, or two for a character outside the basic plane
      obtain ⟨rest, heq, hread⟩ := scanEscape_unicodeEscape c cs
      rw [heq, List.cons_append]
      exact scanString_escaped hread
    · -- neither a quote nor a backslash, as these have an escape of their own
      have hquote : c ≠ '"' := by
        rintro rfl
        exact absurd hnone (by decide)
      have hbackslash : c ≠ '\\' := by
        rintro rfl
        exact absurd hnone (by decide)
      have hcontrol : ¬ c.toNat < 0x20 := fun h => hescaped (.inl h)
      rw [List.cons_append, List.nil_append, scanString, if_neg hquote, if_neg hbackslash,
        if_neg hcontrol]
      rfl

/-- A string in quotes is read back. -/
theorem scanString_escape (ensureAscii : Bool) (s cs : List Char) (fuel : ℕ)
    (h : s.length < fuel) :
    scanString fuel (escape ensureAscii s ++ '"' :: cs) = .ok (s, cs) := by
  induction s generalizing fuel with
  | nil =>
    obtain ⟨fuel, rfl⟩ := Nat.exists_eq_add_one.mpr h
    rfl
  | cons c s ih =>
    obtain ⟨fuel, rfl⟩ := Nat.exists_eq_add_one.mpr (Nat.zero_lt_of_lt h)
    -- one unit of fuel for each character, however long its escape is
    rw [escape, List.flatMap_cons, List.append_assoc, scanString_escapeChar]
    rw [List.length_cons] at h
    rw [← escape, ih fuel (by omega)]
    rfl

theorem escapeChar_ne_nil (ensureAscii : Bool) (c : Char) : escapeChar ensureAscii c ≠ [] := by
  unfold escapeChar unicodeEscape
  split
  · exact List.cons_ne_nil _ _
  · split_ifs <;> exact List.cons_ne_nil _ _

/-- No character is written as nothing. -/
theorem length_le_escape (ensureAscii : Bool) (s : List Char) :
    s.length ≤ (escape ensureAscii s).length := by
  induction s with
  | nil => exact le_rfl
  | cons c s ih =>
    have hpos := List.length_pos_of_ne_nil (escapeChar_ne_nil ensureAscii c)
    rw [escape, List.flatMap_cons, List.length_append, List.length_cons, ← escape]
    omega

/-- A string in quotes is read back, with the fuel that the scanner gives itself. -/
theorem scanString_textStr (ensureAscii : Bool) (s : String) (cs : List Char) :
    scanString ((escape ensureAscii s.toList ++ '"' :: cs).length + 1)
      (escape ensureAscii s.toList ++ '"' :: cs) = .ok (s.toList, cs) := by
  apply scanString_escape
  have hle := length_le_escape ensureAscii s.toList
  rw [List.length_append]
  omega

/-! ### Numbers -/

/-- The characters of a number. -/
def isNumberChar (c : Char) : Bool :=
  c.isDigit || c = '.' || c = 'e' || c = 'E' || c = '+' || c = '-'

/-- What follows is not part of a number. -/
def Stops (cs : List Char) : Prop := ∀ c ∈ cs.head?, isNumberChar c = false

theorem stops_nil : Stops [] := nofun

theorem stops_cons {c : Char} {cs : List Char} (h : isNumberChar c = false) : Stops (c :: cs) := by
  rintro c' ⟨⟩
  exact h

section Append

variable {rest : List Char} (hrest : Stops rest)

include hrest

theorem Stops.ne_cons {c : Char} (hc : isNumberChar c = true) (cs : List Char) :
    rest ≠ c :: cs := by
  rintro rfl
  exact absurd hc (by simp [hrest c rfl])

theorem splitDigits_append (cs : List Char) :
    splitDigits (cs ++ rest) = ((splitDigits cs).1, (splitDigits cs).2 ++ rest) := by
  induction cs with
  | nil =>
    cases rest with
    | nil => rfl
    | cons c cs =>
      -- `rest` would have to begin with a digit for the digits to go on
      have hdigit : c.isDigit = false := by
        have h := hrest c rfl
        simp only [isNumberChar, Bool.or_eq_false_iff] at h
        exact h.1.1.1.1.1
      simp [splitDigits, hdigit]
  | cons c cs ih =>
    simp only [splitDigits, Prod.mk.injEq] at ih ⊢
    by_cases hdigit : c.isDigit
    · simp [hdigit, ih]
    · simp [hdigit]

theorem splitSign_append (cs : List Char) :
    splitSign (cs ++ rest) = ((splitSign cs).1, (splitSign cs).2 ++ rest) := by
  cases cs with
  | nil =>
    -- a sign at the front of `rest` is the only way to find one
    have hne := hrest.ne_cons (c := '-') rfl
    rw [List.nil_append]
    unfold splitSign
    split
    · exact absurd rfl (hne _)
    · rfl
  | cons c cs =>
    unfold splitSign
    split <;> simp_all

theorem splitInteger_append (cs : List Char) :
    splitInteger (cs ++ rest) = ((splitInteger cs).1, (splitInteger cs).2 ++ rest) := by
  have hdigits := splitDigits_append hrest cs
  cases cs with
  | nil =>
    have hne := hrest.ne_cons (c := '0') rfl
    rw [List.nil_append] at hdigits ⊢
    unfold splitInteger
    split
    · exact absurd rfl (hne _)
    · exact hdigits
  | cons c cs =>
    unfold splitInteger
    split <;> simp_all

theorem splitFraction_append (cs : List Char) :
    splitFraction (cs ++ rest) = ((splitFraction cs).1, (splitFraction cs).2 ++ rest) := by
  cases cs with
  | nil =>
    have hne := hrest.ne_cons (c := '.') rfl
    rw [List.nil_append]
    unfold splitFraction
    split
    · exact absurd rfl (hne _)
    · rfl
  | cons c cs =>
    by_cases hpoint : c = '.'
    · subst hpoint
      rw [List.cons_append, splitFraction, splitFraction, splitDigits_append hrest cs]
      -- a point without a digit after it is not part of the number
      rcases hsplit : splitDigits cs with ⟨_ | ⟨d, digits⟩, after⟩ <;> rfl
    · unfold splitFraction
      split <;> simp_all

theorem splitExponentSign_append (cs : List Char) :
    splitExponentSign (cs ++ rest) =
      ((splitExponentSign cs).1, (splitExponentSign cs).2 ++ rest) := by
  have hsign := splitSign_append hrest cs
  cases cs with
  | nil =>
    have hne := hrest.ne_cons (c := '+') rfl
    rw [List.nil_append] at hsign ⊢
    unfold splitExponentSign
    split
    · exact absurd rfl (hne _)
    · exact hsign
  | cons c cs =>
    unfold splitExponentSign
    split <;> simp_all

theorem splitExponent_append (cs : List Char) :
    splitExponent (cs ++ rest) = ((splitExponent cs).1, (splitExponent cs).2 ++ rest) := by
  cases cs with
  | nil =>
    rw [List.nil_append]
    cases rest with
    | nil => rfl
    | cons c cs =>
      have hletter : ¬ (c = 'e' ∨ c = 'E') := by
        rintro (rfl | rfl)
        · exact hrest.ne_cons rfl cs rfl
        · exact hrest.ne_cons rfl cs rfl
      exact if_neg hletter
  | cons c cs =>
    rw [List.cons_append, splitExponent, splitExponent, splitExponentSign_append hrest cs]
    dsimp only
    rw [splitDigits_append hrest]
    -- an `e` without a digit after it is not part of the number
    split_ifs
    · rcases hsplit : splitDigits (splitExponentSign cs).2 with ⟨_ | ⟨d, digits⟩, after⟩ <;> rfl
    · rfl

/-- The number at the front stays the same whatever comes after it. -/
theorem matchNumber_append (cs : List Char) :
    matchNumber (cs ++ rest) = ((matchNumber cs).1, (matchNumber cs).2 ++ rest) := by
  simp only [matchNumber, splitSign_append hrest, splitInteger_append hrest,
    splitFraction_append hrest, splitExponent_append hrest]

end Append

/-- The first of several digits is not a zero. -/
theorem toDigits_head {n : ℕ} (h : 0 < n) : (Nat.toDigits 10 n).head? ≠ some '0' := by
  induction n using Nat.strong_induction_on with
  | _ n ih =>
    rcases lt_or_ge n 10 with hsmall | hlarge
    · have hdigit : ∀ n < 10, 0 < n → some (Nat.digitChar n) ≠ some '0' := by decide
      rw [Nat.toDigits_of_lt_base hsmall]
      exact hdigit n hsmall h
    · -- the first digit is the one of the quotient
      rw [Nat.toDigits_of_base_le (by decide) hlarge,
        List.head?_append_of_ne_nil _ Nat.toDigits_ne_nil]
      exact ih (n / 10) (by omega) (by omega)

/-- The digits of a number are its integer part. -/
theorem splitInteger_toDigits (n : ℕ) :
    splitInteger (Nat.toDigits 10 n) = (Nat.toDigits 10 n, []) := by
  have hdigits : ∀ c ∈ Nat.toDigits 10 n, c.isDigit := fun c hc =>
    Nat.isDigit_of_mem_toDigits (by decide) (by decide) hc
  have hsplit : splitDigits (Nat.toDigits 10 n) = (Nat.toDigits 10 n, []) := by
    rw [splitDigits, List.takeWhile_eq_self_iff.mpr hdigits, List.dropWhile_eq_nil_iff.mpr hdigits]
  rcases Nat.eq_zero_or_pos n with rfl | hpos
  · rfl
  · have hhead := toDigits_head hpos
    unfold splitInteger
    split
    case h_1 heq => exact absurd (by rw [heq]; rfl) hhead
    case h_2 => exact hsplit

/-- A text of digits does not begin with a sign. -/
theorem splitSign_toDigits (n : ℕ) : splitSign (Nat.toDigits 10 n) = ([], Nat.toDigits 10 n) := by
  unfold splitSign
  split
  case h_1 cs heq =>
    have hdigit := Nat.isDigit_of_mem_toDigits (b := 10) (n := n) (c := '-') (by decide) (by decide)
      (by rw [heq]; exact List.mem_cons_self)
    exact absurd hdigit (by decide)
  case h_2 => rfl

/-- The parts of the text of an `int`. -/
theorem matchNumber_textInt (n : ℤ) :
    matchNumber (textInt n) =
      (⟨if n < 0 then ['-'] else [], Nat.toDigits 10 n.natAbs, [], []⟩, []) := by
  unfold textInt matchNumber
  split_ifs
  · rw [splitSign]
    dsimp only
    rw [splitInteger_toDigits]
    rfl
  · rw [splitSign_toDigits]
    dsimp only
    rw [splitInteger_toDigits]
    rfl

variable {floatRepr : String → String}

/-- An `int` is read back. -/
theorem scanNumber_textInt {n : ℤ} (hshort : (Nat.toDigits 10 n.natAbs).length ≤ maxStrDigits)
    {rest : List Char} (hrest : Stops rest) :
    scanNumber floatRepr (textInt n ++ rest) = .ok (.int n, rest) := by
  have hdigits : Nat.toDigits 10 n.natAbs ≠ [] := Nat.toDigits_ne_nil
  rw [scanNumber, matchNumber_append hrest, matchNumber_textInt]
  have hvalue : Nat.ofDigitChars 10 (Nat.toDigits 10 n.natAbs) 0 = n.natAbs :=
    Nat.ofDigitChars_ten_toDigits
  simp only [Number.value, Number.toInt, hvalue, List.isEmpty_eq_false_iff.mpr hdigits,
    List.isEmpty_nil, Bool.and_self, if_true, if_pos hshort, Bool.false_eq_true, if_false]
  -- the sign goes back in front of the absolute value
  have hint :
      (if (if n < 0 then ['-'] else []).isEmpty then (n.natAbs : ℤ) else -n.natAbs) = n := by
    by_cases hneg : n < 0
    · rw [if_pos hneg, List.isEmpty_cons, if_neg Bool.false_ne_true]
      omega
    · rw [if_neg hneg, List.isEmpty_nil, if_pos rfl]
      omega
  rw [hint]
  rfl

/-- A word is no number. -/
theorem scanConstant_eq_none {cs : List Char} (h : (matchNumber cs).1.integer ≠ []) :
    scanConstant cs = none := by
  -- none of the words begins with a digit, nor with a sign before one
  have hwords : ∀ entry ∈ constants, ∀ rest, (matchNumber (entry.1 ++ rest)).1.integer = [] := by
    simp only [constants, List.forall_mem_cons, List.not_mem_nil, false_imp_iff, implies_true,
      and_true]
    exact ⟨fun _ => rfl, fun _ => rfl, fun _ => rfl, fun _ => rfl, fun _ => rfl, fun _ => rfl⟩
  rw [scanConstant, Option.map_eq_none_iff, List.find?_eq_none]
  intro entry hmem hprefix
  obtain ⟨rest, rfl⟩ := List.isPrefixOf_iff_prefix.mp hprefix
  exact h (hwords entry hmem rest)

/-! ### Values that can be written -/

/-- The `repr` of a `float`: one of three words, or the text of a number that is not an `int` and
prints as it is. -/
def IsFloatRepr (floatRepr : String → String) (r : String) : Prop :=
  r = "nan" ∨ r = "inf" ∨ r = "-inf" ∨
    (matchNumber r.toList).2 = [] ∧ (matchNumber r.toList).1.integer ≠ [] ∧
      ¬ ((matchNumber r.toList).1.fraction = [] ∧ (matchNumber r.toList).1.exponent = []) ∧
      floatRepr r = r

/-- A number begins with a sign or a digit. -/
theorem number_head {cs : List Char} (h : (matchNumber cs).1.integer ≠ []) :
    ∃ c cs', cs = c :: cs' ∧ (c = '-' ∨ c.isDigit) := by
  change (splitInteger (splitSign cs).2).1 ≠ [] at h
  cases cs with
  | nil => exact absurd rfl h
  | cons c cs =>
    refine ⟨c, cs, rfl, or_iff_not_imp_left.mpr fun hsign => ?_⟩
    have hsplit : splitSign (c :: cs) = ([], c :: cs) := by
      unfold splitSign
      split <;> simp_all
    rw [hsplit] at h
    by_contra hdigit
    apply h
    unfold splitInteger
    split
    case h_1 heq => exact absurd (by rw [(List.cons.inj heq).1]; rfl) hdigit
    case h_2 => simp [splitDigits, hdigit]

/-- A number is read as such. -/
theorem scanPlain_number {cs : List Char} (h : (matchNumber cs).1.integer ≠ []) :
    scanPlain floatRepr cs = scanNumber floatRepr cs := by
  rw [scanPlain, scanConstant_eq_none h]

/-- An `int` is read back. -/
theorem scanPlain_textInt {n : ℤ} (hshort : (Nat.toDigits 10 n.natAbs).length ≤ maxStrDigits)
    {rest : List Char} (hrest : Stops rest) :
    scanPlain floatRepr (textInt n ++ rest) = .ok (.int n, rest) := by
  have hinteger : (matchNumber (textInt n ++ rest)).1.integer ≠ [] := by
    rw [matchNumber_append hrest, matchNumber_textInt]
    exact Nat.toDigits_ne_nil
  rw [scanPlain_number hinteger, scanNumber_textInt hshort hrest]

/-- A `float` is read back. -/
theorem scanPlain_textFloat {r : String} (h : IsFloatRepr floatRepr r) {rest : List Char}
    (hrest : Stops rest) : scanPlain floatRepr (textFloat r ++ rest) = .ok (.float r, rest) := by
  unfold textFloat
  split_ifs with hnan hinf hneg
  · rw [hnan]
    rfl
  · rw [hinf]
    rfl
  · rw [hneg]
    rfl
  · -- the number is the whole text, and its `repr` is that text
    obtain ⟨hall, hinteger, hfloat, hrepr⟩ := ((h.resolve_left hnan).resolve_left hinf).resolve_left
      hneg
    have htext := text_matchNumber r.toList
    rw [hall, List.append_nil] at htext
    have happend := matchNumber_append hrest r.toList
    rw [hall, List.nil_append] at happend
    have hvalue : (matchNumber r.toList).1.value floatRepr = .ok (.float r) := by
      rw [Number.value, if_neg (by simpa using hinteger), if_neg (by simpa using hfloat), htext,
        String.ofList_toList, hrepr]
    rw [scanPlain_number (by rw [happend]; exact hinteger), scanNumber, happend]
    dsimp only
    rw [hvalue]
    rfl

/-! ### Values -/

variable (floatRepr) in
mutual

/-- The interpreter can hold the value and `json.dumps` can write it: no `dict` has a key twice, a
`float` is the one of its `repr`, and no `int` has too many digits. -/
def Valid : Json → Prop
  | .int n => (Nat.toDigits 10 n.natAbs).length ≤ maxStrDigits
  | .float r => IsFloatRepr floatRepr r
  | .arr items => ValidItems items
  | .obj entries => (entries.map Prod.fst).Nodup ∧ ValidValues entries
  | _ => True

/-- `Valid` for the items of a `list`. -/
def ValidItems : List Json → Prop
  | [] => True
  | item :: items => Valid item ∧ ValidItems items

/-- `Valid` for the values of a `dict`. -/
def ValidValues : List (String × Json) → Prop
  | [] => True
  | (_, value) :: entries => Valid value ∧ ValidValues entries

end

/-- The text of a value begins with something that is neither white space nor a closing bracket. -/
theorem text_head (ensureAscii : Bool) {v : Json} (hv : v.Valid floatRepr) :
    ∃ c cs, v.text ensureAscii = c :: cs ∧ isJsonSpace c = false ∧ c ≠ ']' := by
  have hnumber {cs : List Char} (h : (matchNumber cs).1.integer ≠ []) :
      ∃ c cs', cs = c :: cs' ∧ isJsonSpace c = false ∧ c ≠ ']' := by
    obtain ⟨c, cs', rfl, rfl | hdigit⟩ := number_head h
    · exact ⟨_, cs', rfl, rfl, by decide⟩
    · refine ⟨c, cs', rfl, ?_, ?_⟩
      · by_contra hspace
        simp only [isJsonSpace, Bool.not_eq_false, Bool.or_eq_true, decide_eq_true_eq] at hspace
        rcases hspace with ((rfl | rfl) | rfl) | rfl <;> exact absurd hdigit (by decide)
      · rintro rfl
        exact absurd hdigit (by decide)
  cases v with
  | null => exact ⟨'n', _, rfl, rfl, by decide⟩
  | bool b => cases b <;> exact ⟨_, _, rfl, rfl, by decide⟩
  | int n =>
    rw [text]
    apply hnumber
    rw [matchNumber_textInt]
    exact Nat.toDigits_ne_nil
  | float r =>
    rw [text]
    unfold textFloat
    split_ifs with hnan hinf hneg
    · exact ⟨_, _, rfl, rfl, by decide⟩
    · exact ⟨_, _, rfl, rfl, by decide⟩
    · exact ⟨_, _, rfl, rfl, by decide⟩
    · exact hnumber (((hv.resolve_left hnan).resolve_left hinf).resolve_left hneg).2.1
  | str s => exact ⟨'"', _, rfl, rfl, by decide⟩
  | arr items => exact ⟨'[', _, rfl, rfl, by decide⟩
  | obj entries => exact ⟨'\x7b', _, rfl, rfl, by decide⟩

/-- There is no white space to skip. -/
theorem skipSpace_cons {c : Char} (h : isJsonSpace c = false) (cs : List Char) :
    skipSpace (c :: cs) = c :: cs := by
  simp [skipSpace, h]

/-- What is no string, `list` or `dict` is a word or a number. -/
theorem scanOnce_plain {cs rest : List Char} {v : Json} (h : scanPlain floatRepr cs = .ok (v, rest))
    (fuel : ℕ) : scanOnce floatRepr (fuel + 1) cs = .ok (v, rest) := by
  cases cs with
  | nil => cases h
  | cons c cs =>
    rw [scanOnce]
    split_ifs with hstr harr hobj
    · subst hstr
      cases h
    · subst harr
      cases h
    · subst hobj
      cases h
    · exact h

/-- A new key goes to the end. -/
theorem set_of_not_mem {d : Dict} {key : String} (h : key ∉ d.map Prod.fst) (value : Json) :
    d.set key value = d ++ [(key, value)] := by
  induction d with
  | nil => rfl
  | cons entry d ih =>
    rw [List.map_cons, List.mem_cons, not_or] at h
    rw [Dict.set, if_neg (Ne.symm h.1), ih h.2]
    rfl

/-- The `dict` of pairs without a key twice has them in their order. -/
theorem dictOf_eq {entries : List (String × Json)} (h : (entries.map Prod.fst).Nodup) :
    dictOf entries = entries := by
  suffices ∀ d : Dict, ((d ++ entries).map Prod.fst).Nodup →
      entries.foldl (fun d entry => d.set entry.1 entry.2) d = d ++ entries from this [] h
  clear h
  induction entries with
  | nil => exact fun d _ => (List.append_nil d).symm
  | cons entry entries ih =>
    intro d hd
    have hnew : entry.1 ∉ d.map Prod.fst := by
      rw [List.map_append, List.nodup_append] at hd
      exact fun hmem => hd.2.2 _ hmem _ List.mem_cons_self rfl
    have hsplit : d ++ entry :: entries = d ++ [(entry.1, entry.2)] ++ entries := by simp
    rw [List.foldl_cons, set_of_not_mem hnew, hsplit]
    exact ih _ (hsplit ▸ hd)

/-- The brackets of a `list` that is not empty. -/
theorem scanOnce_list {cs rest : List Char} {items : List Json} {fuel : ℕ}
    (hhead : ∃ c cs', cs = c :: cs' ∧ isJsonSpace c = false ∧ c ≠ ']')
    (h : scanItems floatRepr fuel cs = .ok (items, rest)) :
    scanOnce floatRepr (fuel + 1) ('[' :: cs) = .ok (.arr items, rest) := by
  obtain ⟨c, cs, rfl, hspace, hbracket⟩ := hhead
  rw [scanOnce, if_neg (by decide), if_pos rfl, skipSpace_cons hspace]
  split
  case h_1 heq => exact absurd (List.cons.inj heq).1 hbracket
  case h_2 =>
    rw [h]
    rfl

/-- The braces of a `dict` that is not empty. -/
theorem scanOnce_dict {cs rest : List Char} {entries : List (String × Json)} {fuel : ℕ}
    (h : scanEntries floatRepr fuel ('"' :: cs) = .ok (entries, rest)) :
    scanOnce floatRepr (fuel + 1) ('\x7b' :: '"' :: cs) = .ok (.obj (dictOf entries), rest) := by
  rw [scanOnce, if_neg (by decide), if_neg (by decide), if_pos rfl, skipSpace_cons rfl]
  split
  case h_1 heq => exact absurd (List.cons.inj heq).1 (by decide)
  case h_2 =>
    rw [h]
    rfl

/-- The text of some items begins with the text of the first. -/
theorem textItems_head (ensureAscii : Bool) {item : Json} (items : List Json)
    (hv : item.Valid floatRepr) :
    ∃ c cs, textItems ensureAscii (item :: items) = c :: cs ∧ isJsonSpace c = false ∧ c ≠ ']' := by
  obtain ⟨c, cs, heq, hhead⟩ := text_head ensureAscii hv
  cases items with
  | nil => exact ⟨c, cs, heq, hhead⟩
  | cons item' items => exact ⟨c, _, by rw [textItems, heq, List.cons_append], hhead⟩

/-- The text of some entries begins with the quote of the first key. -/
theorem textEntries_head (ensureAscii : Bool) (entry : String × Json)
    (entries : List (String × Json)) :
    ∃ cs, textEntries ensureAscii (entry :: entries) = '"' :: cs := by
  cases entries <;> exact ⟨_, rfl⟩

/-- One space is skipped before what begins with no white space. -/
theorem skipSpace_space {cs : List Char}
    (hhead : ∃ c cs', cs = c :: cs' ∧ isJsonSpace c = false ∧ c ≠ ']') :
    skipSpace (' ' :: cs) = cs := by
  obtain ⟨c, cs, rfl, hspace, -⟩ := hhead
  exact skipSpace_cons hspace cs

/-- The end of the text of a key and the value after it. -/
theorem scanEntries_key (ensureAscii : Bool) (key : String) (cs : List Char) (fuel : ℕ) :
    scanEntries floatRepr (fuel + 1) (textStr ensureAscii key ++ ':' :: cs) = (do
      let (value, cs) ← scanOnce floatRepr fuel (skipSpace cs)
      match skipSpace cs with
      | '\x7d' :: cs => .ok ([(key, value)], cs)
      | ',' :: cs => do
        let (entries, cs) ← scanEntries floatRepr fuel (skipSpace cs)
        .ok ((key, value) :: entries, cs)
      | _ => .error .decode) := by
  have hquotes : textStr ensureAscii key ++ ':' :: cs =
      '"' :: (escape ensureAscii key.toList ++ '"' :: ':' :: cs) := by
    simp [textStr]
  rw [hquotes, scanEntries, scanString_textStr]
  have hcolon : skipSpace (':' :: cs) = ':' :: cs := skipSpace_cons rfl cs
  simp only [bind, Except.bind, String.ofList_toList]
  rw [hcolon]
  rfl

mutual

/-- A value is read back, whatever comes after its text. -/
theorem scanOnce_text (ensureAscii : Bool) (v : Json) (hv : v.Valid floatRepr) (fuel : ℕ)
    (rest : List Char) (hfuel : (v.text ensureAscii).length < fuel) (hrest : Stops rest) :
    scanOnce floatRepr fuel (v.text ensureAscii ++ rest) = .ok (v, rest) := by
  obtain ⟨fuel, rfl⟩ := Nat.exists_eq_add_one.mpr (Nat.zero_lt_of_lt hfuel)
  match v with
  | .null => exact scanOnce_plain rfl fuel
  | .bool true => exact scanOnce_plain rfl fuel
  | .bool false => exact scanOnce_plain rfl fuel
  | .int n =>
    rw [text]
    exact scanOnce_plain (scanPlain_textInt hv hrest) fuel
  | .float r =>
    rw [text]
    exact scanOnce_plain (scanPlain_textFloat hv hrest) fuel
  | .str s =>
    have hquotes : textStr ensureAscii s ++ rest =
        '"' :: (escape ensureAscii s.toList ++ '"' :: rest) := by
      simp [textStr]
    rw [text, hquotes, scanOnce, if_pos rfl, scanString_textStr]
    exact congrArg Except.ok (Prod.ext (congrArg Json.str (String.ofList_toList ..)) rfl)
  | .arr [] => rfl
  | .arr (item :: items) =>
    -- the brackets leave one unit of fuel more than the items need
    have hlength : (textItems ensureAscii (item :: items)).length + 1 < fuel := by
      simpa [text] using hfuel
    have hread := scanItems_textItems ensureAscii (item :: items) (List.cons_ne_nil _ _) hv fuel
      rest (by omega)
    obtain ⟨c, cs, heq, hhead⟩ := textItems_head ensureAscii items hv.1
    have htext : text ensureAscii (.arr (item :: items)) ++ rest =
        '[' :: (textItems ensureAscii (item :: items) ++ ']' :: rest) := by
      simp [text]
    rw [htext]
    exact scanOnce_list ⟨c, _, by rw [heq, List.cons_append], hhead⟩ hread
  | .obj [] => rfl
  | .obj (entry :: entries) =>
    have hlength : (textEntries ensureAscii (entry :: entries)).length + 1 < fuel := by
      simpa [text] using hfuel
    have hread := scanEntries_textEntries ensureAscii (entry :: entries) (List.cons_ne_nil _ _) hv.2
      fuel rest (by omega)
    obtain ⟨cs, heq⟩ := textEntries_head ensureAscii entry entries
    have htext : text ensureAscii (.obj (entry :: entries)) ++ rest =
        '\x7b' :: (textEntries ensureAscii (entry :: entries) ++ '\x7d' :: rest) := by
      simp [text]
    -- no key comes twice, so the entries are the `dict` that is made of them
    rw [heq, List.cons_append] at hread
    rw [htext, heq, List.cons_append, scanOnce_dict hread, dictOf_eq hv.1]

/-- The items of a `list` are read back up to its closing bracket. -/
theorem scanItems_textItems (ensureAscii : Bool) (items : List Json) (hne : items ≠ [])
    (hv : ValidItems floatRepr items) (fuel : ℕ) (rest : List Char)
    (hfuel : (textItems ensureAscii items).length + 1 < fuel) :
    scanItems floatRepr fuel (textItems ensureAscii items ++ ']' :: rest) = .ok (items, rest) := by
  obtain ⟨fuel, rfl⟩ := Nat.exists_eq_add_one.mpr (Nat.zero_lt_of_lt hfuel)
  match items with
  | [] => exact absurd rfl hne
  | [item] =>
    -- the bracket after the last item is no part of a number
    rw [textItems] at hfuel ⊢
    rw [scanItems, scanOnce_text ensureAscii item hv.1 fuel (']' :: rest) (by omega)
      (stops_cons rfl)]
    rfl
  | item :: item' :: items =>
    have hlength : (text ensureAscii item).length +
        (textItems ensureAscii (item' :: items)).length + 2 + 1 < fuel + 1 := by
      simpa [textItems, Nat.add_assoc] using hfuel
    have htext : textItems ensureAscii (item :: item' :: items) ++ ']' :: rest =
        text ensureAscii item ++ ',' :: ' ' ::
          (textItems ensureAscii (item' :: items) ++ ']' :: rest) := by
      simp [textItems]
    have hread := scanItems_textItems ensureAscii (item' :: items) (List.cons_ne_nil _ _) hv.2 fuel
      rest (by omega)
    obtain ⟨c, cs, heq, hhead⟩ := textItems_head ensureAscii items hv.2.1
    -- after the comma one space is skipped, and no more
    rw [htext, scanItems, scanOnce_text ensureAscii item hv.1 fuel _ (by omega) (stops_cons rfl)]
    simp only [bind, Except.bind, skipSpace_cons (show isJsonSpace ',' = false from rfl)]
    rw [skipSpace_space ⟨c, _, by rw [heq, List.cons_append], hhead⟩, hread]

/-- The entries of a `dict` are read back up to its closing brace. -/
theorem scanEntries_textEntries (ensureAscii : Bool) (entries : List (String × Json))
    (hne : entries ≠ []) (hv : ValidValues floatRepr entries) (fuel : ℕ) (rest : List Char)
    (hfuel : (textEntries ensureAscii entries).length + 1 < fuel) :
    scanEntries floatRepr fuel (textEntries ensureAscii entries ++ '\x7d' :: rest) =
      .ok (entries, rest) := by
  obtain ⟨fuel, rfl⟩ := Nat.exists_eq_add_one.mpr (Nat.zero_lt_of_lt hfuel)
  match entries with
  | [] => exact absurd rfl hne
  | [(key, value)] =>
    have hlength : (text ensureAscii value).length < fuel := by
      simp [textEntries] at hfuel
      omega
    have htext : textEntries ensureAscii [(key, value)] ++ '\x7d' :: rest =
        textStr ensureAscii key ++ ':' :: ' ' :: (text ensureAscii value ++ '\x7d' :: rest) := by
      simp [textEntries]
    obtain ⟨c, cs, heq, hhead⟩ := text_head ensureAscii hv.1
    rw [htext, scanEntries_key, skipSpace_space ⟨c, _, by rw [heq, List.cons_append], hhead⟩,
      scanOnce_text ensureAscii value hv.1 fuel _ hlength (stops_cons rfl)]
    rfl
  | (key, value) :: entry :: entries =>
    have hlength : (text ensureAscii value).length < fuel ∧
        (textEntries ensureAscii (entry :: entries)).length + 1 < fuel := by
      simp [textEntries] at hfuel
      omega
    have htext : textEntries ensureAscii ((key, value) :: entry :: entries) ++ '\x7d' :: rest =
        textStr ensureAscii key ++ ':' :: ' ' :: (text ensureAscii value ++ ',' :: ' ' ::
          (textEntries ensureAscii (entry :: entries) ++ '\x7d' :: rest)) := by
      simp [textEntries]
    have hread := scanEntries_textEntries ensureAscii (entry :: entries) (List.cons_ne_nil _ _) hv.2
      fuel rest hlength.2
    obtain ⟨c, cs, heq, hhead⟩ := text_head ensureAscii hv.1
    obtain ⟨cs', heq'⟩ := textEntries_head ensureAscii entry entries
    rw [htext, scanEntries_key, skipSpace_space ⟨c, _, by rw [heq, List.cons_append], hhead⟩,
      scanOnce_text ensureAscii value hv.1 fuel _ hlength.1 (stops_cons rfl)]
    simp only [bind, Except.bind, skipSpace_cons (show isJsonSpace ',' = false from rfl)]
    rw [skipSpace_space ⟨'"', _, by rw [heq', List.cons_append], rfl, by decide⟩, hread]

end

/-! ### The whole text -/

theorem validItems_iff {items : List Json} :
    ValidItems floatRepr items ↔ ∀ item ∈ items, item.Valid floatRepr := by
  induction items with
  | nil => simp [ValidItems]
  | cons item items ih => simp [ValidItems, ih]

theorem validValues_iff {entries : List (String × Json)} :
    ValidValues floatRepr entries ↔ ∀ entry ∈ entries, entry.2.Valid floatRepr := by
  induction entries with
  | nil => simp [ValidValues]
  | cons entry entries ih => simp [ValidValues, ih]

mutual

/-- No `int` is in the way. -/
theorem shortInts_of_valid (v : Json) (hv : v.Valid floatRepr) : v.shortInts = true := by
  match v with
  | .null | .bool _ | .float _ | .str _ => rfl
  | .int n => exact decide_eq_true hv
  | .arr items => exact shortItems_of_valid items hv
  | .obj entries => exact shortValues_of_valid entries hv.2

theorem shortItems_of_valid (items : List Json) (hv : ValidItems floatRepr items) :
    shortItems items = true := by
  match items with
  | [] => rfl
  | item :: items =>
    rw [shortItems, shortInts_of_valid item hv.1, shortItems_of_valid items hv.2, Bool.and_self]

theorem shortValues_of_valid (entries : List (String × Json))
    (hv : ValidValues floatRepr entries) : shortValues entries = true := by
  match entries with
  | [] => rfl
  | (key, value) :: entries =>
    rw [shortValues, shortInts_of_valid value hv.1, shortValues_of_valid entries hv.2,
      Bool.and_self]

end

/-- Sorting goes into the values and leaves the keys. -/
theorem sortValues_keys (entries : List (String × Json)) :
    (sortValues entries).map Prod.fst = entries.map Prod.fst := by
  induction entries with
  | nil => rfl
  | cons entry entries ih => rw [sortValues, List.map_cons, List.map_cons, ih]

mutual

/-- A value stays one that can be written when its keys are sorted. -/
theorem Valid.sortKeys (v : Json) (hv : v.Valid floatRepr) : v.sortKeys.Valid floatRepr := by
  match v with
  | .null | .bool _ | .int _ | .float _ | .str _ => exact hv
  | .arr items => exact ValidItems.sortItems items hv
  | .obj entries =>
    -- sorting permutes the entries: still no key twice, and the same values
    have hperm := List.mergeSort_perm (Json.sortValues entries) keyLE
    refine ⟨?_, ?_⟩
    · rw [(hperm.map Prod.fst).nodup_iff, sortValues_keys]
      exact hv.1
    · have hvalues := ValidValues.sortValues entries hv.2
      rw [validValues_iff] at hvalues ⊢
      exact fun entry hentry => hvalues entry (hperm.subset hentry)

theorem ValidItems.sortItems (items : List Json) (hv : ValidItems floatRepr items) :
    ValidItems floatRepr (Json.sortItems items) := by
  match items with
  | [] => trivial
  | item :: items => exact ⟨Valid.sortKeys item hv.1, ValidItems.sortItems items hv.2⟩

theorem ValidValues.sortValues (entries : List (String × Json))
    (hv : ValidValues floatRepr entries) : ValidValues floatRepr (Json.sortValues entries) := by
  match entries with
  | [] => trivial
  | (key, value) :: entries =>
    exact ⟨Valid.sortKeys value hv.1, ValidValues.sortValues entries hv.2⟩

end

/-- The text of a value is read back whole. -/
theorem loads_text {v : Json} (hv : v.Valid floatRepr) (ensureAscii : Bool) :
    loads floatRepr (String.ofList (v.text ensureAscii)) = .ok v := by
  obtain ⟨c, cs, heq, hspace, -⟩ := text_head ensureAscii hv
  have hread := scanOnce_text ensureAscii v hv (2 * (v.text ensureAscii).length + 1) [] (by omega)
    stops_nil
  rw [List.append_nil] at hread
  rw [loads, String.toList_ofList, heq, skipSpace_cons hspace, ← heq, hread]
  rfl

/-- `json.loads` of what `json.dumps` has written: the same value, with its keys in order when they
have been sorted. -/
theorem loads_dumps {v : Json} (hv : v.Valid floatRepr) (sorted ensureAscii : Bool) :
    ∃ s, dumps sorted ensureAscii v = .ok s ∧
      loads floatRepr s = .ok (if sorted then v.sortKeys else v) := by
  refine ⟨_, if_pos (shortInts_of_valid v hv), ?_⟩
  cases sorted with
  | false => exact loads_text hv ensureAscii
  | true => exact loads_text hv.sortKeys ensureAscii

end Python.Json
