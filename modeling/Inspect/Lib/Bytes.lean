import Inspect.Lib.Text

/-!
# `Lib.Bytes` — bytes and text

Reading bytes as UTF-8, strictly and with replacement characters, and writing and reading them in base 64.
-/

namespace Inspect

/-- A byte string. -/
abbrev Bytes := List UInt8

namespace Bytes

/-- `str::from_utf8`. -/
def fromUtf8 (bytes : Bytes) : Option Str := (ByteArray.mk bytes.toArray).utf8Decode?.map Array.toList

/-- A text that was read has the bytes that it was read from. -/
theorem bytes_of_fromUtf8 {bytes : Bytes} {text : Str} (h : fromUtf8 bytes = some text) : Text.bytes text = bytes := by
  obtain ⟨chars, hchars, rfl⟩ := Option.map_eq_some_iff.mp h
  have hencode := @ByteArray.utf8Encode_get_utf8Decode? (ByteArray.mk bytes.toArray) (by rw [hchars]; rfl)
  rw [Option.get_of_eq_some _ hchars] at hencode
  have hdata := congrArg (fun array : ByteArray => array.data.toList) hencode
  simpa [List.utf8Encode, Text.bytes] using hdata

def isContinuation (byte : UInt8) : Bool := 0x80 ≤ byte && byte ≤ 0xBF

/-- Whether a byte can follow the first byte of a character that takes three or four. -/
def canFollow (first second : UInt8) : Bool :=
  if first = 0xE0 then 0xA0 ≤ second && second ≤ 0xBF
  else if first = 0xED then 0x80 ≤ second && second ≤ 0x9F
  else if first = 0xF0 then 0x90 ≤ second && second ≤ 0xBF
  else if first = 0xF4 then 0x80 ≤ second && second ≤ 0x8F
  else isContinuation second

/-- How many bytes at the start of a text that is not UTF-8 there one replacement character stands for. -/
def illFormedLen : Bytes → Nat
  | first :: second :: third :: _ =>
      if 0xE0 ≤ first && first ≤ 0xF4 && canFollow first second then
        if 0xF0 ≤ first && isContinuation third then 3 else 2
      else 1
  | [first, second] => if 0xE0 ≤ first && first ≤ 0xF4 && canFollow first second then 2 else 1
  | _ => 1

/-- The loop of `String::from_utf8_lossy`; `fuel` is the number of bytes. -/
def lossyLoop : Nat → Bytes → Str
  | 0, _ | _, [] => []
  | fuel + 1, bytes =>
      match (ByteArray.mk bytes.toArray).utf8DecodeChar? 0 with
      | some c => c :: lossyLoop fuel (bytes.drop c.utf8Size)
      | none => Char.ofNat 0xFFFD :: lossyLoop fuel (bytes.drop (illFormedLen bytes))

/-- `String::from_utf8_lossy`. -/
def fromUtf8Lossy (bytes : Bytes) : Str := lossyLoop bytes.length bytes

example : fromUtf8Lossy [0x61, 0xE2, 0x82, 0x62] = "a\uFFFDb".toList := by decide +kernel

/-! ## Base 64 -/

/-- The standard alphabet. -/
def base64Alphabet : Str := "ABCDEFGHIJKLMNOPQRSTUVWXYZabcdefghijklmnopqrstuvwxyz0123456789+/".toList

def base64Digit (value : Nat) : Char := base64Alphabet.getD (value % 64) 'A'

/-- `STANDARD.encode`: three bytes are four digits, and the last digits are padded. -/
def base64 : Bytes → Str
  | [] => []
  | [a] => [base64Digit (a.toNat / 4), base64Digit (a.toNat * 16), '=', '=']
  | [a, b] =>
      [base64Digit (a.toNat / 4), base64Digit (a.toNat * 16 + b.toNat / 16), base64Digit (b.toNat * 4), '=']
  | a :: b :: c :: rest =>
      base64Digit (a.toNat / 4) :: base64Digit (a.toNat * 16 + b.toNat / 16)
        :: base64Digit (b.toNat * 4 + c.toNat / 64) :: base64Digit c.toNat :: base64 rest

example : base64 [0x83, 0x38, 0xa9] = "gzip".toList ∧ base64 [0x61] = "YQ==".toList := by decide

/-- A character of an encoding is a digit or the padding. -/
theorem mem_base64 {c : Char} {bytes : Bytes} (h : c ∈ base64 bytes) : c = '=' ∨ c ∈ base64Alphabet := by
  have hdigit : ∀ value, base64Digit value ∈ base64Alphabet := by
    intro value
    have hlt : value % 64 < base64Alphabet.length := Nat.mod_lt value (by decide)
    unfold base64Digit
    rw [List.getD_eq_getElem?_getD, List.getElem?_eq_getElem hlt]
    exact List.getElem_mem hlt
  fun_induction base64 bytes with
  | case1 => cases h
  | case2 a =>
      simp only [List.mem_cons, List.not_mem_nil, or_false] at h
      rcases h with rfl | rfl | rfl | rfl
      · exact Or.inr (hdigit _)
      · exact Or.inr (hdigit _)
      · exact Or.inl rfl
      · exact Or.inl rfl
  | case3 a b =>
      simp only [List.mem_cons, List.not_mem_nil, or_false] at h
      rcases h with rfl | rfl | rfl | rfl
      · exact Or.inr (hdigit _)
      · exact Or.inr (hdigit _)
      · exact Or.inr (hdigit _)
      · exact Or.inl rfl
  | case4 a b d rest ih =>
      simp only [List.mem_cons] at h
      rcases h with rfl | rfl | rfl | rfl | h
      · exact Or.inr (hdigit _)
      · exact Or.inr (hdigit _)
      · exact Or.inr (hdigit _)
      · exact Or.inr (hdigit _)
      · exact ih h

theorem base64_ne_nil {bytes : Bytes} (h : bytes ≠ []) : base64 bytes ≠ [] := by
  match bytes with
  | [] => exact absurd rfl h
  | [a] => exact List.cons_ne_nil _ _
  | [a, b] => exact List.cons_ne_nil _ _
  | a :: b :: c :: rest => exact List.cons_ne_nil _ _

/-- The value of a digit. -/
def base64Value (c : Char) : Option Nat := base64Alphabet.idxOf? c

/-- `STANDARD.decode`: the padding must be there, and the bits it stands for must be zero. -/
def fromBase64 : Str → Option Bytes
  | [] => some []
  | a :: b :: c :: d :: rest => do
      let a ← base64Value a
      let b ← base64Value b
      if rest = [] ∧ c = '=' ∧ d = '=' then
        if b % 16 = 0 then some [UInt8.ofNat (a * 4 + b / 16)] else none
      else do
        let c ← base64Value c
        if rest = [] ∧ d = '=' then
          if c % 4 = 0 then some [UInt8.ofNat (a * 4 + b / 16), UInt8.ofNat (b * 16 + c / 4)] else none
        else do
          let d ← base64Value d
          let bytes ← fromBase64 rest
          some (UInt8.ofNat (a * 4 + b / 16) :: UInt8.ofNat (b * 16 + c / 4) :: UInt8.ofNat (c * 64 + d) :: bytes)
  | _ => none

theorem base64Value_digit (value : Nat) : base64Value (base64Digit value) = some (value % 64) := by
  have hall : ∀ digit < 64, base64Value (base64Alphabet.getD digit 'A') = some digit := by decide
  exact hall (value % 64) (Nat.mod_lt value (by decide))

theorem base64Digit_ne_padding (value : Nat) : base64Digit value ≠ '=' := by
  intro h
  have hvalue := base64Value_digit value
  rw [h] at hvalue
  cases hvalue

/-- **What was written in base 64 is read back.** -/
theorem fromBase64_base64 (bytes : Bytes) : fromBase64 (base64 bytes) = some bytes := by
  have hbyte : ∀ (byte : UInt8) (n : Nat), n % 256 = byte.toNat → UInt8.ofNat n = byte := by
    intro byte n h
    rw [← UInt8.toNat_inj, UInt8.toNat_ofNat']
    exact h
  fun_induction base64 bytes with
  | case1 => rfl
  | case2 a =>
      have ha := a.toNat_lt
      have hfirst := hbyte a (a.toNat / 4 % 64 * 4 + a.toNat * 16 % 64 / 16) (by omega)
      have hbits : a.toNat * 16 % 64 % 16 = 0 := by omega
      simp [-UInt8.ofNat_add, -UInt8.ofNat_mul, fromBase64, base64Value_digit, hfirst, hbits]
  | case3 a b =>
      have ha := a.toNat_lt
      have hb := b.toNat_lt
      have hfirst := hbyte a (a.toNat / 4 % 64 * 4 + (a.toNat * 16 + b.toNat / 16) % 64 / 16) (by omega)
      have hsecond := hbyte b ((a.toNat * 16 + b.toNat / 16) % 64 * 16 + b.toNat * 4 % 64 / 4) (by omega)
      have hbits : b.toNat * 4 % 64 % 4 = 0 := by omega
      simp [-UInt8.ofNat_add, -UInt8.ofNat_mul, fromBase64, base64Value_digit, base64Digit_ne_padding, hfirst, hsecond, hbits]
  | case4 a b c rest ih =>
      have ha := a.toNat_lt
      have hb := b.toNat_lt
      have hc := c.toNat_lt
      have hfirst := hbyte a (a.toNat / 4 % 64 * 4 + (a.toNat * 16 + b.toNat / 16) % 64 / 16) (by omega)
      have hsecond := hbyte b ((a.toNat * 16 + b.toNat / 16) % 64 * 16
        + (b.toNat * 4 + c.toNat / 64) % 64 / 4) (by omega)
      have hthird := hbyte c ((b.toNat * 4 + c.toNat / 64) % 64 * 64 + c.toNat % 64) (by omega)
      simp [-UInt8.ofNat_add, -UInt8.ofNat_mul, fromBase64, base64Value_digit, base64Digit_ne_padding, ih, hfirst, hsecond, hthird]

end Bytes

end Inspect
