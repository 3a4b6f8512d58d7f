import Mathlib.Tactic.IntervalCases
import SessionManager.Python.Builtins

/-!
# `datetime.fromisoformat`

The instants that `isoformat` writes are read back, up to the end of the year 9999, which is the
last one of `datetime`.

* `isLeap`, `daysInMonth`, `toOrdinal` — the calendar, as `datetime` counts it.
* `civil_valid` — a day counted from 1970 is a valid date, and the date gives the day back.
* `fromisoformat` — a text in the format of `isoformat` in UTC, to the millisecond.
* `fromisoformat_isoformat` — the round trip.
-/

namespace Python

/-! ### The calendar -/

/-- `calendar.isleap`. -/
def isLeap (year : ℕ) : Bool := year % 4 = 0 && (year % 100 ≠ 0 || year % 400 = 0)

/-- `_days_in_month`. -/
def daysInMonth (year month : ℕ) : ℕ :=
  if month = 2 then if isLeap year then 29 else 28
  else if month = 4 ∨ month = 6 ∨ month = 9 ∨ month = 11 then 30
  else 31

/-- `_days_before_month`. -/
def daysBeforeMonth (year month : ℕ) : ℕ :=
  [0, 0, 31, 59, 90, 120, 151, 181, 212, 243, 273, 304, 334].getD month 0 +
    if 2 < month ∧ isLeap year then 1 else 0

/-- `_ymd2ord`: the days up to a date, 0001-01-01 being the first. -/
def toOrdinal (year month day : ℕ) : ℕ :=
  (year - 1) * 365 + (year - 1) / 4 - (year - 1) / 100 + (year - 1) / 400 +
    daysBeforeMonth year month + day

/-- The ordinal of 1970-01-01. -/
def epochOrdinal : ℕ := 719163

/-- The date exists. -/
def isDate (year month day : ℕ) : Bool :=
  1 ≤ year && 1 ≤ month && month ≤ 12 && 1 ≤ day && day ≤ daysInMonth year month

/-- A day of an era of 400 years as centuries, cycles of four years, years and days; the years begin
in March. Only the last year of a cycle has a day 365, and of those that end a century only the
last. -/
theorem exists_parts {day : ℕ} (h : day < 146097) :
    ∃ c b a k : ℕ, day = 36524 * c + 1461 * b + 365 * a + k ∧ c ≤ 3 ∧ b ≤ 24 ∧ a ≤ 3 ∧ k ≤ 365 ∧
      (k = 365 → a = 3 ∧ (b = 24 → c = 3)) := by
  obtain ⟨c, hc, hcentury⟩ : ∃ c ≤ 3, 36524 * c ≤ day ∧
      day < 36524 * (c + 1) + (if c = 3 then 1 else 0) := by
    refine ⟨min (day / 36524) 3, by omega, by omega, ?_⟩
    split_ifs <;> omega
  obtain ⟨b, hb, hcycle⟩ : ∃ b ≤ 24, 1461 * b ≤ day - 36524 * c ∧
      day - 36524 * c < 1461 * (b + 1) := by
    refine ⟨(day - 36524 * c) / 1461, ?_, by omega, by omega⟩
    split_ifs at hcentury <;> omega
  obtain ⟨a, ha, hyear⟩ : ∃ a ≤ 3, 365 * a ≤ day - 36524 * c - 1461 * b ∧
      (day - 36524 * c - 1461 * b < 365 * (a + 1) ∨ a = 3) := by
    refine ⟨min ((day - 36524 * c - 1461 * b) / 365) 3, by omega, by omega, by omega⟩
  refine ⟨c, b, a, day - 36524 * c - 1461 * b - 365 * a, by omega, hc, hb, ha, by omega, ?_⟩
  intro hk
  refine ⟨by omega, fun hb => ?_⟩
  split_ifs at hcentury <;> omega

/-- The year that `civil` computes is the one of the parts. -/
theorem year_of_parts {c b a k day : ℕ} (h : day = 36524 * c + 1461 * b + 365 * a + k) (hc : c ≤ 3)
    (hb : b ≤ 24) (ha : a ≤ 3) (hk : k ≤ 365) (hleap : k = 365 → a = 3 ∧ (b = 24 → c = 3)) :
    (day - day / 1460 + day / 36524 - day / 146096) / 365 = 100 * c + 4 * b + a := by
  -- only the last day of the era is rounded up to a fifth century
  have hlast : day / 36524 - day / 146096 = c ∧ day / 146096 ≤ day / 36524 := by omega
  have hcycles : day / 1460 = 25 * c + b + (24 * c + b + 365 * a + k) / 1460 := by omega
  have hcarry : (24 * c + b + 365 * a + k) / 1460 ≤ k ∧
      k < (24 * c + b + 365 * a + k) / 1460 + 365 := by omega
  omega

/-- What `civil` computes, from the parts of the day. -/
theorem civil_eq {day era c b a k : ℕ}
    (h : day + 719468 = 146097 * era + (36524 * c + 1461 * b + 365 * a + k)) (hc : c ≤ 3)
    (hb : b ≤ 24) (ha : a ≤ 3) (hk : k ≤ 365) (hleap : k = 365 → a = 3 ∧ (b = 24 → c = 3)) :
    civil day =
      if (5 * k + 2) / 153 < 10 then
        (100 * c + 4 * b + a + era * 400, (5 * k + 2) / 153 + 3,
          k - (153 * ((5 * k + 2) / 153) + 2) / 5 + 1)
      else
        (100 * c + 4 * b + a + era * 400 + 1, (5 * k + 2) / 153 - 9,
          k - (153 * ((5 * k + 2) / 153) + 2) / 5 + 1) := by
  have hday : (day + 719468) % 146097 = 36524 * c + 1461 * b + 365 * a + k := by omega
  have hera : (day + 719468) / 146097 = era := by omega
  have hyear := year_of_parts rfl hc hb ha hk hleap
  have hquarter : (100 * c + 4 * b + a) / 4 = 25 * c + b := by omega
  have hcentury : (100 * c + 4 * b + a) / 100 = c := by omega
  have hdays : 36524 * c + 1461 * b + 365 * a + k -
      (365 * (100 * c + 4 * b + a) + (25 * c + b) - c) = k := by
    -- `omega` would split on every quotient in the context
    clear hyear hday hera h
    omega
  simp only [civil, hday, hera, hyear, hquarter, hcentury, hdays]

/-- The months of a year that begins in March. -/
theorem month_cases {k : ℕ} (hk : k ≤ 365) :
    ∃ month ≤ 11, (5 * k + 2) / 153 = month ∧ (153 * month + 2) / 5 ≤ k ∧
      k < (153 * (month + 1) + 2) / 5 := by
  refine ⟨(5 * k + 2) / 153, by omega, rfl, by omega, by omega⟩

/-- A quotient goes up at the multiples. -/
theorem pred_div (n : ℕ) {year : ℕ} (h : 1 ≤ year) :
    year / n = (year - 1) / n + if year % n = 0 then 1 else 0 := by
  obtain ⟨year, rfl⟩ := Nat.exists_eq_add_of_le' h
  rw [Nat.succ_div, Nat.add_sub_cancel]
  simp only [Nat.dvd_iff_mod_eq_zero]

/-- A leap year is a multiple of 4, and of 400 if it is one of 100. -/
theorem isLeap_count (year : ℕ) :
    (if isLeap year then 1 else 0) + (if year % 100 = 0 then 1 else 0) =
      (if year % 4 = 0 then 1 else 0) + (if year % 400 = 0 then 1 else 0) := by
  have h100 : year % 100 = 0 → year % 4 = 0 := by omega
  have h400 : year % 400 = 0 → year % 100 = 0 := by omega
  by_cases hfour : year % 4 = 0
  · by_cases hhundred : year % 100 = 0
    · by_cases hera : year % 400 = 0 <;> simp [isLeap, hfour, hhundred, hera]
    · have hera : year % 400 ≠ 0 := fun h => hhundred (h400 h)
      simp [isLeap, hfour, hhundred, hera]
  · have hhundred : year % 100 ≠ 0 := fun h => hfour (h100 h)
    have hera : year % 400 ≠ 0 := fun h => hhundred (h400 h)
    simp [isLeap, hfour, hhundred, hera]

/-- The days of a year are those between it and the next one. -/
theorem leap_days {year : ℕ} (h : 1 ≤ year) :
    (year - 1) * 365 + (year - 1) / 4 - (year - 1) / 100 + (year - 1) / 400 + 365 +
        (if isLeap year then 1 else 0) =
      year * 365 + year / 4 - year / 100 + year / 400 := by
  have hcentury : (year - 1) / 100 ≤ (year - 1) / 4 := Nat.div_le_div_left (by decide) (by decide)
  have hcentury' : year / 100 ≤ year / 4 := Nat.div_le_div_left (by decide) (by decide)
  have hcount := isLeap_count year
  have hfour := pred_div 4 h
  have hhundred := pred_div 100 h
  have hera := pred_div 400 h
  -- nothing more is needed about quotients and remainders
  generalize (if isLeap year then 1 else 0) = leap at *
  generalize (if year % 4 = 0 then 1 else 0) = four at *
  generalize (if year % 100 = 0 then 1 else 0) = hundred at *
  generalize (if year % 400 = 0 then 1 else 0) = era at *
  generalize year / 4 = quarters', year / 100 = centuries', year / 400 = eras' at *
  generalize (year - 1) / 4 = quarters, (year - 1) / 100 = centuries, (year - 1) / 400 = eras at *
  omega

/-- The days before a year, from its parts. -/
theorem days_of_parts (era : ℕ) {c b a : ℕ} (hc : c ≤ 3) (hb : b ≤ 24) (ha : a ≤ 3) :
    (100 * c + 4 * b + a + era * 400) * 365 + (100 * c + 4 * b + a + era * 400) / 4 -
        (100 * c + 4 * b + a + era * 400) / 100 + (100 * c + 4 * b + a + era * 400) / 400 =
      146097 * era + (36524 * c + 1461 * b + 365 * a) := by
  have hquarter : (100 * c + 4 * b + a + era * 400) / 4 = 100 * era + 25 * c + b := by omega
  have hcentury : (100 * c + 4 * b + a + era * 400) / 100 = 4 * era + c := by omega
  have hera : (100 * c + 4 * b + a + era * 400) / 400 = era := by omega
  omega

/-- The ordinal of a date from March on, by its day in the year that begins in March. -/
theorem toOrdinal_of_march {year month day : ℕ} (hyear : 1 ≤ year) (hmonth : month < 10) :
    toOrdinal year (month + 3) (day + 1) + 306 =
      year * 365 + year / 4 - year / 100 + year / 400 + (153 * month + 2) / 5 + day + 1 := by
  have hdays := leap_days hyear
  -- from March on the table of `datetime` is linear, up to rounding
  have htable : ∀ month < 10,
      [0, 0, 31, 59, 90, 120, 151, 181, 212, 243, 273, 304, 334].getD (month + 3) 0 =
        (153 * month + 2) / 5 + 59 := by decide
  have hafter : 2 < month + 3 := by omega
  rw [toOrdinal, daysBeforeMonth, htable month hmonth]
  simp only [hafter, true_and]
  omega

/-- The months from March to December are as long as their first days are apart. -/
theorem daysInMonth_of_march (year : ℕ) {month : ℕ} (h : month < 10) :
    (153 * month + 2) / 5 + daysInMonth year (month + 3) = (153 * (month + 1) + 2) / 5 := by
  interval_cases month <;> rfl

/-- The date of a day in one of the months from March to December. -/
theorem date_of_march {year month k : ℕ} (hyear : 1 ≤ year) (hmonth : month < 10)
    (hfrom : (153 * month + 2) / 5 ≤ k) (hto : k < (153 * (month + 1) + 2) / 5) :
    isDate year (month + 3) (k - (153 * month + 2) / 5 + 1) = true ∧
      toOrdinal year (month + 3) (k - (153 * month + 2) / 5 + 1) + 305 =
        year * 365 + year / 4 - year / 100 + year / 400 + k := by
  have hlength := daysInMonth_of_march year hmonth
  have hordinal := @toOrdinal_of_march year month (k - (153 * month + 2) / 5) hyear hmonth
  constructor
  · simp only [isDate, Bool.and_eq_true, decide_eq_true_eq]
    omega
  · omega

/-- The date of a day in January or February, which belong to the next year. -/
theorem date_of_january {year month k : ℕ} (hmonth : ¬ month < 10) (hle : month ≤ 11)
    (hfrom : (153 * month + 2) / 5 ≤ k) (hto : k < (153 * (month + 1) + 2) / 5) (hk : k ≤ 365)
    (hleap : k = 365 → isLeap (year + 1) = true) :
    isDate (year + 1) (month - 9) (k - (153 * month + 2) / 5 + 1) = true ∧
      toOrdinal (year + 1) (month - 9) (k - (153 * month + 2) / 5 + 1) + 305 =
        year * 365 + year / 4 - year / 100 + year / 400 + k := by
  -- January has its days whatever the year; the last day of February is there in a leap year only
  obtain rfl | rfl : month = 10 ∨ month = 11 := by omega
  · have hlength : daysInMonth (year + 1) 1 = 31 := rfl
    have hbefore : daysBeforeMonth (year + 1) 1 = 0 := rfl
    constructor
    · simp only [isDate, Nat.reduceSub, hlength, Bool.and_eq_true, decide_eq_true_eq]
      omega
    · simp only [toOrdinal, Nat.reduceSub, hbefore, Nat.add_sub_cancel]
      omega
  · have hlength : k - 337 + 1 ≤ daysInMonth (year + 1) 2 := by
      rw [daysInMonth, if_pos rfl]
      split_ifs with hnot
      · omega
      · have hne : k ≠ 365 := fun h => hnot (hleap h)
        omega
    have hbefore : daysBeforeMonth (year + 1) 2 = 31 := rfl
    constructor
    · simp only [isDate, Nat.reduceSub, Bool.and_eq_true, decide_eq_true_eq]
      omega
    · simp only [toOrdinal, Nat.reduceSub, hbefore, Nat.add_sub_cancel]
      omega

/-- A day counted from 1970 is a date, and the ordinal of the date is the day. -/
theorem civil_valid (day : ℕ) :
    isDate (civil day).1 (civil day).2.1 (civil day).2.2 = true ∧
      toOrdinal (civil day).1 (civil day).2.1 (civil day).2.2 = day + epochOrdinal ∧
      (day < 2932897 → (civil day).1 < 10000) := by
  have hlt : (day + 719468) % 146097 < 146097 := Nat.mod_lt _ (by decide)
  obtain ⟨c, b, a, k, hparts, hc, hb, ha, hk, hleap⟩ := exists_parts hlt
  obtain ⟨era, hera⟩ : ∃ era, era = (day + 719468) / 146097 := ⟨_, rfl⟩
  have hsum : day + 719468 = 146097 * era + (36524 * c + 1461 * b + 365 * a + k) := by omega
  rw [civil_eq hsum hc hb ha hk hleap]
  obtain ⟨month, hmonth, heq, hfrom, hto⟩ := month_cases hk
  have hdays := days_of_parts era hc hb ha
  rw [heq]
  have hera : 4 ≤ era := by omega
  -- what is left for `omega` is linear in the parts
  clear hparts hlt heq
  split_ifs with hmarch
  · obtain ⟨hdate, hordinal⟩ := @date_of_march (100 * c + 4 * b + a + era * 400) _ k (by omega)
      hmarch hfrom hto
    refine ⟨hdate, ?_, ?_⟩
    · dsimp only [epochOrdinal]
      omega
    · dsimp only
      omega
  · -- the year that begins in March has the leap day of the next one at its end
    have hleapYear : k = 365 → isLeap (100 * c + 4 * b + a + era * 400 + 1) = true := by
      intro hlast
      obtain ⟨ha, hcentury⟩ := hleap hlast
      simp only [isLeap, Bool.and_eq_true, Bool.or_eq_true, decide_eq_true_eq]
      omega
    obtain ⟨hdate, hordinal⟩ := date_of_january hmarch hmonth hfrom hto hk hleapYear
    refine ⟨hdate, ?_, ?_⟩
    · dsimp only [epochOrdinal]
      omega
    · dsimp only
      omega

/-! ### The text -/

/-- A number of exactly `width` digits at the front. -/
def fixedDigits (width : ℕ) (cs : List Char) : Option (ℕ × List Char) :=
  if width ≤ cs.length ∧ (cs.take width).all Char.isDigit then
    some (Nat.ofDigitChars 10 (cs.take width) 0, cs.drop width)
  else none

/-- The text after the character `c`. -/
def skipChar (c : Char) : List Char → Option (List Char)
  | [] => none
  | c' :: cs => if c' = c then some cs else none

/-- The microseconds, when there is a fraction. -/
def microseconds : List Char → Option (ℕ × List Char)
  | '.' :: cs => fixedDigits 6 cs
  | cs => some (0, cs)

/-- The instant of a date and a time of day, in milliseconds since 1970. -/
def instant (year month day hour minute second micro : ℕ) : ℕ :=
  (toOrdinal year month day - epochOrdinal) * 86400000 + hour * 3600000 + minute * 60000 +
    second * 1000 + micro / 1000

/-- `datetime.fromisoformat` for the format that `isoformat` has in UTC, from 1970 on. -/
def fromisoformat (s : String) : Option ℕ := do
  let (year, cs) ← fixedDigits 4 s.toList
  let (month, cs) ← (skipChar '-' cs).bind (fixedDigits 2)
  let (day, cs) ← (skipChar '-' cs).bind (fixedDigits 2)
  let (hour, cs) ← (skipChar 'T' cs).bind (fixedDigits 2)
  let (minute, cs) ← (skipChar ':' cs).bind (fixedDigits 2)
  let (second, cs) ← (skipChar ':' cs).bind (fixedDigits 2)
  let (micro, cs) ← microseconds cs
  if isDate year month day ∧ epochOrdinal ≤ toOrdinal year month day ∧ hour < 24 ∧ minute < 60 ∧
      second < 60 ∧ cs = "+00:00".toList then
    some (instant year month day hour minute second micro)
  else none

/-- Digits are read whole. -/
theorem fixedDigits_append {width : ℕ} {digits : List Char} (hlength : digits.length = width)
    (hdigits : ∀ c ∈ digits, c.isDigit) (cs : List Char) :
    fixedDigits width (digits ++ cs) = some (Nat.ofDigitChars 10 digits 0, cs) := by
  subst hlength
  rw [fixedDigits, List.take_left, List.drop_left, if_pos]
  rw [List.length_append]
  exact ⟨Nat.le_add_right _ _, List.all_eq_true.mpr hdigits⟩

/-- The digits of a padded number. -/
theorem zeroPad_toList (width n : ℕ) :
    (zeroPad width n).toList =
      List.replicate (width - (Nat.toDigits 10 n).length) '0' ++ Nat.toDigits 10 n := by
  rw [zeroPad, String.toList_append, String.toList_ofList, Nat.toString_eq_repr, Nat.toList_repr,
    ← String.length_toList, Nat.toList_repr]

theorem zeroPad_digits (width n : ℕ) : ∀ c ∈ (zeroPad width n).toList, c.isDigit := by
  intro c hc
  rw [zeroPad_toList, List.mem_append] at hc
  rcases hc with hc | hc
  · rw [(List.mem_replicate.mp hc).2]
    rfl
  · exact Nat.isDigit_of_mem_toDigits (by decide) (by decide) hc

theorem zeroPad_length {width n : ℕ} (hwidth : 0 < width) (h : n < 10 ^ width) :
    (zeroPad width n).toList.length = width := by
  have hle := (Nat.length_toDigits_le_iff (b := 10) (by decide) hwidth).mpr h
  rw [zeroPad_toList, List.length_append, List.length_replicate]
  omega

theorem ofDigitChars_zeroPad (width n : ℕ) :
    Nat.ofDigitChars 10 (zeroPad width n).toList 0 = n := by
  rw [zeroPad_toList, Nat.ofDigitChars_append, Nat.ofDigitChars_replicate_zero, Nat.mul_zero,
    Nat.ofDigitChars_ten_toDigits]

/-- A padded number is read back. -/
theorem fixedDigits_zeroPad {width n : ℕ} (hwidth : 0 < width) (h : n < 10 ^ width)
    (cs : List Char) : fixedDigits width ((zeroPad width n).toList ++ cs) = some (n, cs) := by
  rw [fixedDigits_append (zeroPad_length hwidth h) (zeroPad_digits width n), ofDigitChars_zeroPad]

/-- Milliseconds are read as microseconds. -/
theorem microseconds_fraction {n : ℕ} (h : n < 1000) :
    microseconds ((if n = 0 then "" else "." ++ zeroPad 3 n ++ "000").toList ++ "+00:00".toList) =
      some (n * 1000, "+00:00".toList) := by
  split_ifs with hzero
  · rw [hzero]
    rfl
  · -- three digits and three zeros are six digits
    have hpoint : ".".toList = ['.'] := rfl
    have hzeros : "000".toList = List.replicate 3 '0' := rfl
    have hlength : ((zeroPad 3 n).toList ++ List.replicate 3 '0').length = 6 := by
      rw [List.length_append, zeroPad_length (by decide) h, List.length_replicate]
    have hdigits : ∀ c ∈ (zeroPad 3 n).toList ++ List.replicate 3 '0', c.isDigit := by
      intro c hc
      rcases List.mem_append.mp hc with hc | hc
      · exact zeroPad_digits 3 n c hc
      · rw [(List.mem_replicate.mp hc).2]
        rfl
    rw [String.toList_append, String.toList_append, hpoint, hzeros, List.append_assoc,
      List.append_assoc, List.singleton_append, microseconds, ← List.append_assoc,
      fixedDigits_append hlength hdigits, Nat.ofDigitChars_append, ofDigitChars_zeroPad,
      Nat.ofDigitChars_replicate_zero, Nat.mul_comm]

theorem daysInMonth_le (year month : ℕ) : daysInMonth year month ≤ 31 := by
  unfold daysInMonth
  split_ifs <;> decide

/-- The first instant of the year 10000. -/
def endOfTime : ℕ := 253402300800000

/-- The parts of a text in the format of `isoformat`, in UTC. -/
def isoText (year month day hour minute second milli : ℕ) : List Char :=
  (zeroPad 4 year).toList ++ '-' :: ((zeroPad 2 month).toList ++ '-' :: ((zeroPad 2 day).toList ++
    'T' :: ((zeroPad 2 hour).toList ++ ':' :: ((zeroPad 2 minute).toList ++ ':' ::
    ((zeroPad 2 second).toList ++
      ((if milli = 0 then "" else "." ++ zeroPad 3 milli ++ "000").toList ++
        "+00:00".toList))))))

/-- The parts are read back from the text. -/
theorem fromisoformat_isoText {year month day hour minute second milli : ℕ}
    (hdate : isDate year month day = true) (hepoch : epochOrdinal ≤ toOrdinal year month day)
    (hyear : year < 10000) (hhour : hour < 24) (hminute : minute < 60) (hsecond : second < 60)
    (hmilli : milli < 1000) :
    fromisoformat (String.ofList (isoText year month day hour minute second milli)) =
      some (instant year month day hour minute second (milli * 1000)) := by
  have hmonth : month < 100 ∧ day < 100 := by
    have hle := daysInMonth_le year month
    simp only [isDate, Bool.and_eq_true, decide_eq_true_eq] at hdate
    omega
  -- every part after the year is a separator and two digits
  have hread (n : ℕ) (hn : n < 100) (c : Char) (cs : List Char) :
      (skipChar c (c :: ((zeroPad 2 n).toList ++ cs))).bind (fixedDigits 2) = some (n, cs) := by
    rw [skipChar, if_pos rfl, Option.bind_some, @fixedDigits_zeroPad 2 n (by decide) hn]
  rw [fromisoformat, String.toList_ofList, isoText, @fixedDigits_zeroPad 4 year (by decide) hyear]
  simp only [Option.bind_eq_bind, Option.bind_some]
  rw [hread month hmonth.1, Option.bind_some, hread day hmonth.2, Option.bind_some,
    hread hour (by omega), Option.bind_some, hread minute (by omega), Option.bind_some,
    hread second (by omega), Option.bind_some, microseconds_fraction hmilli, Option.bind_some]
  exact if_pos ⟨hdate, hepoch, hhour, hminute, hsecond, rfl⟩

/-- The text of an instant with a given date. -/
def isoformatOn (date : ℕ × ℕ × ℕ) (t : ℕ) : String :=
  let (year, month, day) := date
  let second := t / 1000
  zeroPad 4 year ++ "-" ++ zeroPad 2 month ++ "-" ++ zeroPad 2 day ++ "T" ++
    zeroPad 2 (second / 3600 % 24) ++ ":" ++ zeroPad 2 (second / 60 % 60) ++ ":" ++
    zeroPad 2 (second % 60) ++
    (if t % 1000 = 0 then "" else "." ++ zeroPad 3 (t % 1000) ++ "000") ++ "+00:00"

-- `civil` is not to be unfolded in what follows: the kernel would count up to its large numbers
theorem isoformat_eq (t : ℕ) : isoformat t = isoformatOn (civil (t / 86400000)) t := rfl

theorem isoformatOn_eq (year month day t : ℕ) :
    isoformatOn (year, month, day) t = String.ofList (isoText year month day (t / 1000 / 3600 % 24)
      (t / 1000 / 60 % 60) (t / 1000 % 60) (t % 1000)) := by
  have hdash : "-".toList = ['-'] := rfl
  have hcolon : ":".toList = [':'] := rfl
  have hletter : "T".toList = ['T'] := rfl
  rw [← String.toList_inj, String.toList_ofList]
  simp only [isoformatOn, isoText, String.toList_append, hdash, hcolon, hletter, List.append_assoc,
    List.cons_append, List.nil_append]

/-- An instant is read back from its text. -/
theorem fromisoformat_isoformat {t : ℕ} (h : t < endOfTime) :
    fromisoformat (isoformat t) = some t := by
  obtain ⟨hdate, hordinal, hyear⟩ := civil_valid (t / 86400000)
  have hlt : t / 86400000 < 2932897 := by
    rw [endOfTime] at h
    omega
  rcases hcivil : civil (t / 86400000) with ⟨year, month, day⟩
  rw [hcivil] at hdate hordinal hyear
  rw [isoformat_eq, hcivil, isoformatOn_eq,
    fromisoformat_isoText hdate (hordinal ▸ Nat.le_add_left _ _) (hyear hlt)
    (Nat.mod_lt _ (by decide)) (Nat.mod_lt _ (by decide)) (Nat.mod_lt _ (by decide))
    (Nat.mod_lt _ (by decide)), instant, hordinal, Nat.add_sub_cancel, Option.some_inj]
  omega

end Python
