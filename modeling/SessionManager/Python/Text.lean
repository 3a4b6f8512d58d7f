import SessionManager.Python.Builtins

/-!
# Texts and bytes

The methods of `str` and `bytes` that the batch profile modules use, `binascii` among them.

* `PyError`, `RaisesOnly` — the classes of exceptions that are told apart, and the code that raises
  only some of them.
* `Bytes`, `encodeUtf8`, `decodeUtf8` — `bytes`, and their texts.
* `isdigit`, `zfill`, `splitlines`, `isIntZero` — methods of `str`, and `int(value) == 0`.
* `sliceBytes`, `fromHex`, `b64decode` — methods of `bytes` and `base64`.
* `Json.contains`, `Json.item`, `Json.unpack2`, `Json.iter` — operators on a value of any type.
-/

namespace Python

/-- The classes of exceptions that the code tells apart. A subclass that is always caught together
with its base is the base: `JSONDecodeError`, `UnicodeDecodeError` and `binascii.Error` are
`ValueError`s, `NotImplementedError` is a `RuntimeError`. -/
inductive PyError where
  | s3Error
  | osError
  | valueError
  | keyError
  | typeError
  | attributeError
  | overflowError
  | runtimeError
  | importError
  | invalidTag
  deriving DecidableEq, Repr

/-- `x` raises nothing but exceptions of the given classes. -/
def RaisesOnly {α : Type} (errors : List PyError) (x : Except PyError α) : Prop :=
  ∀ e, x = .error e → e ∈ errors

namespace RaisesOnly

variable {α β : Type} {errors : List PyError}

theorem ok (a : α) : RaisesOnly errors (.ok a) := nofun

theorem error {e : PyError} (h : e ∈ errors) : RaisesOnly errors (.error e : Except PyError α) := by
  rintro e' ⟨⟩
  exact h

theorem bind {x : Except PyError α} (hx : RaisesOnly errors x) {f : α → Except PyError β}
    (hf : ∀ a, RaisesOnly errors (f a)) : RaisesOnly errors (x >>= f) := by
  cases x with
  | ok a => exact hf a
  | error e => exact error (hx e rfl)

theorem mono {errors' : List PyError} (hsub : errors ⊆ errors') {x : Except PyError α}
    (hx : RaisesOnly errors x) : RaisesOnly errors' x := fun e he => hsub (hx e he)

theorem map {x : Except PyError α} (hx : RaisesOnly errors x) (f : α → β) :
    RaisesOnly errors (x.map f) := by
  cases x with
  | ok a => exact ok (f a)
  | error e => exact error (hx e rfl)

/-- What raises nothing returns. -/
theorem returns {x : Except PyError α} (hx : RaisesOnly [] x) : ∃ a, x = .ok a := by
  cases x with
  | ok a => exact ⟨a, rfl⟩
  | error e => exact absurd (hx e rfl) List.not_mem_nil

end RaisesOnly

/-! ### Bytes -/

/-- `bytes`. -/
abbrev Bytes := List UInt8

/-- `s.encode("utf-8")`. -/
def encodeUtf8 (s : String) : Bytes := s.toByteArray.data.toList

/-- `data.decode("utf-8")`. -/
def decodeUtf8 (data : Bytes) : Except PyError String :=
  match String.fromUTF8? ⟨data.toArray⟩ with
  | some s => .ok s
  | none => .error .valueError

/-- What has been encoded can be decoded. -/
@[simp] theorem decodeUtf8_encodeUtf8 (s : String) : decodeUtf8 (encodeUtf8 s) = .ok s := by
  have hbytes : (⟨(encodeUtf8 s).toArray⟩ : ByteArray) = s.toByteArray := by
    rw [encodeUtf8, Array.toArray_toList]
  have hsome : String.fromUTF8? s.toByteArray = some s := by
    rw [String.fromUTF8?, dif_pos s.isValidUTF8]
    rfl
  rw [decodeUtf8, hbytes, hsome]

theorem decodeUtf8_raises (data : Bytes) : RaisesOnly [.valueError] (decodeUtf8 data) := by
  rw [decodeUtf8]
  split
  · exact .ok _
  · exact .error (by simp)

@[simp] theorem encodeUtf8_append (s t : String) :
    encodeUtf8 (s ++ t) = encodeUtf8 s ++ encodeUtf8 t := by
  simp [encodeUtf8]

/-- An index of a slice: negative ones count from the end, and none goes beyond it. -/
def sliceIndex (length : ℕ) (i : ℤ) : ℕ :=
  if i < 0 then (i + length).toNat else min i.toNat length

/-- `data[start:stop]`. -/
def sliceBytes (data : Bytes) (start stop : ℤ) : Bytes :=
  (data.take (sliceIndex data.length stop)).drop (sliceIndex data.length start)

/-- The value of a hexadecimal digit. -/
def hexDigit? (c : Char) : Option ℕ :=
  if '0' ≤ c ∧ c ≤ '9' then some (c.toNat - '0'.toNat)
  else if 'a' ≤ c ∧ c ≤ 'f' then some (c.toNat - 'a'.toNat + 10)
  else if 'A' ≤ c ∧ c ≤ 'F' then some (c.toNat - 'A'.toNat + 10)
  else none

/-- The white space of ASCII. -/
def isAsciiSpace (c : Char) : Bool := c = ' ' || ('\t' ≤ c && c ≤ '\r')

/-- The bytes that pairs of digits stand for, white space between the pairs left out. -/
def hexPairs : List Char → Except PyError Bytes
  | [] => .ok []
  | [c] => if isAsciiSpace c then .ok [] else .error .valueError
  | c :: c' :: cs =>
    if isAsciiSpace c then hexPairs (c' :: cs)
    else
      match hexDigit? c, hexDigit? c' with
      | some n, some n' => (hexPairs cs).map (UInt8.ofNat (16 * n + n') :: ·)
      | _, _ => .error .valueError

/-- `bytes.fromhex(s)`. -/
def fromHex (s : String) : Except PyError Bytes := hexPairs s.toList

theorem hexPairs_raises (cs : List Char) : RaisesOnly [.valueError] (hexPairs cs) := by
  fun_induction hexPairs cs with
  | case1 => exact .ok _
  | case2 => exact .ok _
  | case3 => exact .error (by simp)
  | case4 _ _ _ _ ih => exact ih
  | case5 _ _ _ _ _ _ _ _ ih => exact ih.map _
  | case6 => exact .error (by simp)

theorem fromHex_raises (s : String) : RaisesOnly [.valueError] (fromHex s) := hexPairs_raises _

/-! ### Base64 -/

/-- The value of a character of the Base64 alphabet. -/
def base64Digit? (b : UInt8) : Option ℕ :=
  let n := b.toNat
  if 65 ≤ n ∧ n ≤ 90 then some (n - 65)
  else if 97 ≤ n ∧ n ≤ 122 then some (n - 71)
  else if 48 ≤ n ∧ n ≤ 57 then some (n + 4)
  else if n = 43 then some 62
  else if n = 47 then some 63
  else none

/-- `binascii.a2b_base64` from the middle of an input: `position` characters of the current group
of four have been read, the last of which leaves `rest` bits over, and `pads` padding characters
since then. Characters outside the alphabet are skipped, and what follows a complete padding is not
read. -/
def a2bBase64 (position rest pads : ℕ) : Bytes → Except PyError Bytes
  | [] => if position = 0 then .ok [] else .error .valueError
  | b :: bs =>
    if b = 61 then
      if 2 ≤ position ∧ 4 ≤ position + (pads + 1) then .ok []
      else a2bBase64 position rest (if 2 ≤ position then pads + 1 else pads) bs
    else
      match base64Digit? b, position with
      | none, _ => a2bBase64 position rest pads bs
      | some n, 0 => a2bBase64 1 n 0 bs
      | some n, 1 => (a2bBase64 2 (n % 16) 0 bs).map (UInt8.ofNat (rest * 4 + n / 16) :: ·)
      | some n, 2 => (a2bBase64 3 (n % 4) 0 bs).map (UInt8.ofNat (rest * 16 + n / 4) :: ·)
      | some n, _ => (a2bBase64 0 0 0 bs).map (UInt8.ofNat (rest * 64 + n) :: ·)

/-- `base64.b64decode(data)`. -/
def b64decode (data : Bytes) : Except PyError Bytes := a2bBase64 0 0 0 data

theorem a2bBase64_raises (data : Bytes) (position rest pads : ℕ) :
    RaisesOnly [.valueError] (a2bBase64 position rest pads data) := by
  fun_induction a2bBase64 position rest pads data with
  | case1 => exact .ok _
  | case2 => exact .error (by simp)
  | case3 => exact .ok _
  | case4 _ _ _ _ _ ih => exact ih
  | case5 _ _ _ _ _ _ _ ih => exact ih
  | case6 _ _ _ _ _ _ _ ih => exact ih
  | case7 _ _ _ _ _ _ _ ih => exact ih.map _
  | case8 _ _ _ _ _ _ _ ih => exact ih.map _
  | case9 _ _ _ _ _ _ _ _ _ _ _ ih => exact ih.map _

theorem b64decode_raises (data : Bytes) : RaisesOnly [.valueError] (b64decode data) :=
  a2bBase64_raises data 0 0 0

/-! ### Texts -/

/-- The zeros of the decimal digits of Unicode, each followed by the other nine digits. -/
def decimalZeros : List ℕ :=
  [0x0030, 0x0660, 0x06f0, 0x07c0, 0x0966, 0x09e6, 0x0a66, 0x0ae6, 0x0b66, 0x0be6, 0x0c66, 0x0ce6,
    0x0d66, 0x0de6, 0x0e50, 0x0ed0, 0x0f20, 0x1040, 0x1090, 0x17e0, 0x1810, 0x1946, 0x19d0, 0x1a80,
    0x1a90, 0x1b50, 0x1bb0, 0x1c40, 0x1c50, 0xa620, 0xa8d0, 0xa900, 0xa9d0, 0xa9f0, 0xaa50, 0xabf0,
    0xff10, 0x104a0, 0x10d30, 0x11066, 0x110f0, 0x11136, 0x111d0, 0x112f0, 0x11450, 0x114d0,
    0x11650, 0x116c0, 0x11730, 0x118e0, 0x11950, 0x11c50, 0x11d50, 0x11da0, 0x16a60, 0x16ac0,
    0x16b50, 0x1d7ce, 0x1d7d8, 0x1d7e2, 0x1d7ec, 0x1d7f6, 0x1e140, 0x1e2f0, 0x1e950, 0x1fbf0]

/-- The other characters that are digits: superscripts, digits in circles, and so on. -/
def otherDigits : List (ℕ × ℕ) :=
  [(0x00b2, 0x00b3), (0x00b9, 0x00b9), (0x1369, 0x1371), (0x19da, 0x19da), (0x2070, 0x2070),
    (0x2074, 0x2079), (0x2080, 0x2089), (0x2460, 0x2468), (0x2474, 0x247c), (0x2488, 0x2490),
    (0x24ea, 0x24ea), (0x24f5, 0x24fd), (0x24ff, 0x24ff), (0x2776, 0x277e), (0x2780, 0x2788),
    (0x278a, 0x2792), (0x10a40, 0x10a43), (0x10e60, 0x10e68), (0x11052, 0x1105a),
    (0x1f100, 0x1f10a)]

/-- The value of a decimal digit. -/
def decimal? (c : Char) : Option ℕ :=
  (decimalZeros.find? fun n => n ≤ c.toNat && c.toNat < n + 10).map (c.toNat - ·)

/-- `s.isdigit()`. -/
def isdigit (s : String) : Bool :=
  !s.isEmpty && s.toList.all fun c =>
    (decimal? c).isSome || otherDigits.any fun (first, last) => first ≤ c.toNat && c.toNat ≤ last

/-- `s.zfill(width)`: zeros on the left, but after a sign. -/
def zfill (s : String) (width : ℕ) : String :=
  let zeros := List.replicate (width - s.toList.length) '0'
  match s.toList with
  | [] => String.ofList zeros
  | c :: cs =>
    if c = '+' ∨ c = '-' then String.ofList (c :: zeros ++ cs) else String.ofList (zeros ++ c :: cs)

/-- `s[-n:]`. -/
def lastChars (s : String) (n : ℕ) : String :=
  String.ofList (s.toList.drop (s.toList.length - n))

/-- `s.rstrip(c)`. -/
def rstrip (s : String) (c : Char) : String :=
  String.ofList (s.toList.reverse.dropWhile (· = c)).reverse

/-- The characters that end a line. -/
def isLineEnd (c : Char) : Bool :=
  let n := c.toNat
  (0x0a ≤ n && n ≤ 0x0d) || (0x1c ≤ n && n ≤ 0x1e) || n == 0x85 || n == 0x2028 || n == 0x2029

/-- The lines of what is left of a text, after `line` of the first one has been read; `\r\n` ends
one line. -/
def splitlinesFrom (line : List Char) : List Char → List (List Char)
  | [] => if line.isEmpty then [] else [line]
  | '\r' :: '\n' :: cs => line :: splitlinesFrom [] cs
  | c :: cs => if isLineEnd c then line :: splitlinesFrom [] cs else splitlinesFrom (line ++ [c]) cs

/-- `s.splitlines()`. -/
def splitlines (s : String) : List String := (splitlinesFrom [] s.toList).map String.ofList

/-! ### Numbers -/

/-- The digits of the text of an integer, single underscores between them left out. -/
def intDigits? : List Char → Option (List ℕ)
  | [] => none
  | [c] => (decimal? c).map fun n => [n]
  | c :: '_' :: cs => do some ((← decimal? c) :: (← intDigits? cs))
  | c :: cs => do some ((← decimal? c) :: (← intDigits? cs))

/-- `int(s) == 0`; a text of more than 4300 digits is not converted. -/
def isIntTextZero (s : String) : Except PyError Bool :=
  let digits := match (strip s).toList with
    | c :: cs => if c = '+' ∨ c = '-' then intDigits? cs else intDigits? (c :: cs)
    | [] => none
  match digits with
  | some ns => if ns.length ≤ 4300 then .ok (ns.all (· = 0)) else .error .valueError
  | none => .error .valueError

/-- `int(x) == 0` of the `float` with the given `repr`: no digit before the point, or a negative
exponent. -/
def isIntFloatZero (repr : String) : Except PyError Bool :=
  let digits := repr.toList.dropWhile (· = '-')
  if 'n' ∈ digits then if 'i' ∈ digits then .error .overflowError else .error .valueError
  else if 'e' ∈ digits then .ok ('-' ∈ digits)
  else .ok ((digits.takeWhile (· ≠ '.')).all (· = '0'))

/-- `int(value) == 0`. -/
def isIntZero : Json → Except PyError Bool
  | .bool b => .ok !b
  | .int n => .ok (n = 0)
  | .float repr => isIntFloatZero repr
  | .str s => isIntTextZero s
  | .null | .arr _ | .obj _ => .error .typeError

theorem isIntZero_raises (value : Json) :
    RaisesOnly [.valueError, .typeError, .overflowError] (isIntZero value) := by
  cases value with
  | bool b => exact .ok _
  | int n => exact .ok _
  | float repr =>
    rw [isIntZero, isIntFloatZero]
    split_ifs
    · exact .error (by simp)
    · exact .error (by simp)
    · exact .ok _
    · exact .ok _
  | str s =>
    rw [isIntZero, isIntTextZero]
    split
    · split_ifs
      · exact .ok _
      · exact .error (by simp)
    · exact .error (by simp)
  | _ => exact .error (by simp)

/-! ### Operators on any value -/

namespace Json

/-- `isinstance(value, str) and value == s`. -/
def isText (s : String) : Json → Bool
  | .str s' => s' = s
  | _ => false

/-- `s in value`. -/
def contains (s : String) : Json → Except PyError Bool
  | .arr items => .ok (items.any (isText s))
  | .obj entries => .ok (Dict.contains entries s)
  | .str text => .ok (text.toList.tails.any s.toList.isPrefixOf)
  | .null | .bool _ | .int _ | .float _ => .error .typeError

/-- `value[s]`. -/
def item (s : String) : Json → Except PyError Json
  | .obj entries => match entries.lookup s with
    | some value => .ok value
    | none => .error .keyError
  | _ => .error .typeError

/-- The items that `for item in value` goes through. -/
def iter : Json → Except PyError (List Json)
  | .arr items => .ok items
  | .obj entries => .ok (entries.map fun entry => .str entry.1)
  | .str text => .ok (text.toList.map fun c => .str (String.singleton c))
  | .null | .bool _ | .int _ | .float _ => .error .typeError

/-- `a, b = value`. -/
def unpack2 (value : Json) : Except PyError (Json × Json) :=
  match iter value with
  | .ok [a, b] => .ok (a, b)
  | .ok _ => .error .valueError
  | .error e => .error e

/-- `len(value)`. -/
def len : Json → Except PyError ℕ
  | .arr items => .ok items.length
  | .obj entries => .ok entries.length
  | .str text => .ok text.toList.length
  | .null | .bool _ | .int _ | .float _ => .error .typeError

/-- The number that a value is as an index: a `bool` is an `int`. -/
def index? : Json → Option ℤ
  | .int n => some n
  | .bool b => some (if b then 1 else 0)
  | _ => none

/-- `data[start : start + length]`. -/
def slice (data : Bytes) (start length : Json) : Except PyError Bytes :=
  match start.index?, length.index? with
  | some i, some n => .ok (sliceBytes data i (i + n))
  | _, _ => .error .typeError

/-- `value.get(key)`. -/
def get (value : Json) (key : String) : Except PyError Json :=
  match value with
  | .obj entries => .ok (Dict.get entries key)
  | _ => .error .attributeError

/-! What the operators raise. -/

theorem get_raises (value : Json) (key : String) :
    RaisesOnly [.attributeError] (value.get key) := by
  cases value with
  | obj entries => exact .ok _
  | _ => exact .error (by simp)

theorem contains_raises (value : Json) (s : String) :
    RaisesOnly [.typeError] (value.contains s) := by
  cases value with
  | arr items => exact .ok _
  | obj entries => exact .ok _
  | str text => exact .ok _
  | _ => exact .error (by simp)

theorem iter_raises (value : Json) : RaisesOnly [.typeError] value.iter := by
  cases value with
  | arr items => exact .ok _
  | obj entries => exact .ok _
  | str text => exact .ok _
  | _ => exact .error (by simp)

/-- Unpacking a value that has items raises at most `ValueError`. -/
theorem unpack2_raises {value : Json} {items : List Json} (h : value.iter = .ok items) :
    RaisesOnly [.valueError] value.unpack2 := by
  rw [unpack2, h]
  split
  · exact .ok _
  · exact .error (by simp)
  · next h => cases h

end Json

end Python
