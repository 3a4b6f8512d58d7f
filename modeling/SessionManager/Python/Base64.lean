import SessionManager.Python.Text

/-!
# Base64 encoding

`base64.b64encode`, which `base64.b64decode` inverts.

* `base64Byte`, `b64encode` — the alphabet, and the encoding.
* `b64decode_b64encode` — the round trip.
-/

namespace Python

/-- The character of the Base64 alphabet with value `n`. -/
def base64Byte (n : ℕ) : UInt8 :=
  if n < 26 then UInt8.ofNat (n + 65)
  else if n < 52 then UInt8.ofNat (n + 71)
  else if n < 62 then UInt8.ofNat (n - 4)
  else if n = 62 then 43
  else 47

/-- `base64.b64encode(data)`: four characters for three bytes, padded with `=` at the end. -/
def b64encode : Bytes → Bytes
  | [] => []
  | [b] => [base64Byte (b.toNat / 4), base64Byte (b.toNat % 4 * 16), 61, 61]
  | [b, b'] =>
    [base64Byte (b.toNat / 4), base64Byte (b.toNat % 4 * 16 + b'.toNat / 16),
      base64Byte (b'.toNat % 16 * 4), 61]
  | b :: b' :: b'' :: data =>
    base64Byte (b.toNat / 4) :: base64Byte (b.toNat % 4 * 16 + b'.toNat / 16) ::
      base64Byte (b'.toNat % 16 * 4 + b''.toNat / 64) :: base64Byte (b''.toNat % 64) ::
        b64encode data

/-- A character of the alphabet is no padding, and has its value. -/
theorem base64Digit?_base64Byte : ∀ n < 64,
    base64Byte n ≠ 61 ∧ base64Digit? (base64Byte n) = some n := by
  decide

/-! ### One character -/

section Characters

variable {n : ℕ} (hn : n < 64) (rest pads : ℕ) (data : Bytes)

include hn

theorem a2bBase64_first :
    a2bBase64 0 rest pads (base64Byte n :: data) = a2bBase64 1 n 0 data := by
  obtain ⟨hpad, hdigit⟩ := base64Digit?_base64Byte n hn
  rw [a2bBase64.eq_def]
  simp only [if_neg hpad, hdigit]

theorem a2bBase64_second :
    a2bBase64 1 rest pads (base64Byte n :: data) =
      (a2bBase64 2 (n % 16) 0 data).map (UInt8.ofNat (rest * 4 + n / 16) :: ·) := by
  obtain ⟨hpad, hdigit⟩ := base64Digit?_base64Byte n hn
  rw [a2bBase64.eq_def]
  simp only [if_neg hpad, hdigit]

theorem a2bBase64_third :
    a2bBase64 2 rest pads (base64Byte n :: data) =
      (a2bBase64 3 (n % 4) 0 data).map (UInt8.ofNat (rest * 16 + n / 4) :: ·) := by
  obtain ⟨hpad, hdigit⟩ := base64Digit?_base64Byte n hn
  rw [a2bBase64.eq_def]
  simp only [if_neg hpad, hdigit]

theorem a2bBase64_fourth :
    a2bBase64 3 rest pads (base64Byte n :: data) =
      (a2bBase64 0 0 0 data).map (UInt8.ofNat (rest * 64 + n) :: ·) := by
  obtain ⟨hpad, hdigit⟩ := base64Digit?_base64Byte n hn
  rw [a2bBase64.eq_def]
  simp only [if_neg hpad, hdigit]

end Characters

/-! ### The round trip -/

/-- A byte, put together from its upper and its lower bits. -/
theorem ofNat_parts {b : UInt8} {n : ℕ} (h : n = b.toNat) : UInt8.ofNat n = b := by
  rw [h, UInt8.ofNat_toNat]

/-- What has been encoded can be decoded. -/
theorem b64decode_b64encode (data : Bytes) : b64decode (b64encode data) = .ok data := by
  rw [b64decode]
  -- three bytes at a time; the two cases with padding are the ends of the text
  induction data using b64encode.induct with
  | case1 => rfl
  | case2 b =>
    have hb := b.toNat_lt
    rw [b64encode, a2bBase64_first (by omega), a2bBase64_second (by omega)]
    have hbyte : UInt8.ofNat (b.toNat / 4 * 4 + b.toNat % 4 * 16 / 16) = b :=
      ofNat_parts (by omega)
    rw [hbyte]
    rfl
  | case3 b b' =>
    have hb := b.toNat_lt
    have hb' := b'.toNat_lt
    rw [b64encode, a2bBase64_first (by omega), a2bBase64_second (by omega),
      a2bBase64_third (by omega)]
    have hbyte : UInt8.ofNat (b.toNat / 4 * 4 + (b.toNat % 4 * 16 + b'.toNat / 16) / 16) = b :=
      ofNat_parts (by omega)
    have hbyte' : UInt8.ofNat ((b.toNat % 4 * 16 + b'.toNat / 16) % 16 * 16 +
        b'.toNat % 16 * 4 / 4) = b' := ofNat_parts (by omega)
    rw [hbyte, hbyte']
    rfl
  | case4 b b' b'' data ih =>
    have hb := b.toNat_lt
    have hb' := b'.toNat_lt
    have hb'' := b''.toNat_lt
    rw [b64encode, a2bBase64_first (by omega), a2bBase64_second (by omega),
      a2bBase64_third (by omega), a2bBase64_fourth (by omega), ih]
    have hbyte : UInt8.ofNat (b.toNat / 4 * 4 + (b.toNat % 4 * 16 + b'.toNat / 16) / 16) = b :=
      ofNat_parts (by omega)
    have hbyte' : UInt8.ofNat ((b.toNat % 4 * 16 + b'.toNat / 16) % 16 * 16 +
        (b'.toNat % 16 * 4 + b''.toNat / 64) / 4) = b' := ofNat_parts (by omega)
    have hbyte'' : UInt8.ofNat ((b'.toNat % 16 * 4 + b''.toNat / 64) % 4 * 64 +
        b''.toNat % 64) = b'' := ofNat_parts (by omega)
    rw [hbyte, hbyte', hbyte'']
    rfl

end Python
