import Inspect.Lib.Text

/-!
# `Lib.Hex` — numbers in hexadecimal digits

Numbers as they are formatted with a width, and the value of digits that are read. A number that fits its width has as
many digits as the width says, and the digits have its value.
-/

namespace Inspect.Text

/-- `char::is_ascii_hexdigit`. -/
def isAsciiHexdigit (ch : Char) : Bool :=
  ch.isDigit || decide ('a' ≤ ch ∧ ch ≤ 'f') || decide ('A' ≤ ch ∧ ch ≤ 'F')

/-- The value of a hexadecimal digit. -/
def hexDigitValue (ch : Char) : Nat :=
  if ch.isDigit then ch.toNat - '0'.toNat else ch.toLower.toNat - 'a'.toNat + 10

/-- The value of hexadecimal digits. -/
def hexValue (digits : Str) : Nat := digits.foldl (fun value ch => 16 * value + hexDigitValue ch) 0

/-- `{:0width$x}`. -/
def lowerHex (width n : Nat) : Str := (Nat.toDigits 16 n).leftpad width '0'

/-! ## Digits -/

/-- What a digit is read as. -/
theorem digitChar_spec : ∀ d < 16, isAsciiHexdigit d.digitChar = true ∧ hexDigitValue d.digitChar = d
    ∧ d.digitChar.utf8Size = 1 ∧ isWhitespace d.digitChar = false := by decide

theorem mem_toDigits {n : Nat} {c : Char} (h : c ∈ Nat.toDigits 16 n) : ∃ d < 16, c = d.digitChar := by
  induction n using Nat.strongRecOn with
  | ind n ih =>
      rw [Nat.toDigits_eq_if (by omega)] at h
      split at h
      · rename_i hlt
        exact ⟨n, hlt, List.mem_singleton.mp h⟩
      · rcases List.mem_append.mp h with hmem | hmem
        · exact ih (n / 16) (by omega) hmem
        · exact ⟨n % 16, by omega, List.mem_singleton.mp hmem⟩

theorem hexValue_toDigits (n : Nat) : hexValue (Nat.toDigits 16 n) = n := by
  induction n using Nat.strongRecOn with
  | ind n ih =>
      rw [Nat.toDigits_eq_if (by omega)]
      split
      · rename_i hlt
        have hdigit := (digitChar_spec n hlt).2.1
        rw [hexValue, List.foldl_cons, List.foldl_nil, hdigit]
        omega
      · -- the digits of `n / 16`, and the last one
        have hhigh := ih (n / 16) (by omega)
        have hlow := (digitChar_spec (n % 16) (by omega)).2.1
        unfold hexValue at hhigh ⊢
        rw [List.foldl_append, hhigh, List.foldl_cons, List.foldl_nil, hlow]
        omega

/-! ## Numbers with a width -/

/-- A formatted number consists of digits. -/
theorem mem_lowerHex {width n : Nat} {c : Char} (h : c ∈ lowerHex width n) : ∃ d < 16, c = d.digitChar := by
  rcases List.mem_append.mp h with hmem | hmem
  · exact ⟨0, by decide, (List.mem_replicate.mp hmem).2⟩
  · exact mem_toDigits hmem

theorem length_lowerHex {width n : Nat} (hwidth : 0 < width) (h : n < 16 ^ width) :
    (lowerHex width n).length = width := by
  have hdigits := (Nat.length_toDigits_le_iff (by omega) hwidth).mpr h
  rw [lowerHex, List.length_leftpad]
  omega

/-- **A number is read back from its digits.** -/
theorem hexValue_lowerHex (width n : Nat) : hexValue (lowerHex width n) = n := by
  have hzeros : ∀ count, (List.replicate count '0').foldl (fun value ch => 16 * value + hexDigitValue ch) 0 = 0 := by
    intro count
    induction count with
    | zero => rfl
    | succ count ih => exact ih
  have hvalue := hexValue_toDigits n
  unfold hexValue at hvalue ⊢
  rw [lowerHex, List.leftpad, List.foldl_append, hzeros, hvalue]

/-- The digits of a number that fits its width are as many bytes as the width says. -/
theorem len_lowerHex {width n : Nat} (hwidth : 0 < width) (h : n < 16 ^ width) : len (lowerHex width n) = width := by
  have hones : (lowerHex width n).map Char.utf8Size = List.replicate (lowerHex width n).length 1 := by
    refine List.map_eq_replicate_iff.mpr fun c hmem => ?_
    obtain ⟨d, hd, rfl⟩ := mem_lowerHex hmem
    exact (digitChar_spec d hd).2.2.1
  rw [len, hones, List.sum_replicate, length_lowerHex hwidth h, smul_eq_mul, Nat.mul_one]

theorem all_isAsciiHexdigit_lowerHex (width n : Nat) : (lowerHex width n).all isAsciiHexdigit = true := by
  refine List.all_eq_true.mpr fun c hmem => ?_
  obtain ⟨d, hd, rfl⟩ := mem_lowerHex hmem
  exact (digitChar_spec d hd).1

theorem isWhitespace_of_mem_lowerHex {width n : Nat} {c : Char} (h : c ∈ lowerHex width n) :
    isWhitespace c = false := by
  obtain ⟨d, hd, rfl⟩ := mem_lowerHex h
  exact (digitChar_spec d hd).2.2.2

theorem lowerHex_ne_nil (width n : Nat) : lowerHex width n ≠ [] := by
  rw [lowerHex, List.leftpad]
  exact List.append_ne_nil_of_right_ne_nil _ Nat.toDigits_ne_nil

/-- A character that is no digit is not in a number. -/
theorem not_mem_lowerHex {width n : Nat} {c : Char} (h : isAsciiHexdigit c = false) : c ∉ lowerHex width n := by
  intro hmem
  rw [List.all_eq_true.mp (all_isAsciiHexdigit_lowerHex width n) c hmem] at h
  cases h

end Inspect.Text
