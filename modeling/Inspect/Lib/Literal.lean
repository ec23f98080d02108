import Inspect.Lib.Hex

/-!
# `Lib.Literal` — reading a literal in double quotes

A lexer for literals with the escapes `\\`, `\"`, `\n`, `\r`, `\t` and `\u{…}`. It reads one character after the other;
the state is the escape it is in the middle of.
-/

namespace Inspect.Literal

/-- What is being read: text, what follows a backslash, what follows `\u`, or the digits between braces. -/
inductive State
  | text
  | escape
  | brace
  | digits (read : Str)

/-- The letters of the escapes, and what they stand for. -/
def escapes : List (Char × Char) := [('\\', '\\'), ('"', '"'), ('n', '\n'), ('r', '\r'), ('t', '\t')]

/-- The character with a number of one to six hexadecimal digits. -/
def scalar (digits : Str) : Option Char :=
  if digits ≠ [] ∧ digits.length ≤ 6 ∧ digits.all Text.isAsciiHexdigit = true ∧ (Text.hexValue digits).isValidChar then
    some (Char.ofNat (Text.hexValue digits))
  else none

/-- One character in front of the value of a literal. -/
def push (c : Char) (read : Str × Str) : Str × Str := (c :: read.1, read.2)

/-- The value of a literal behind its opening quote, and what follows its closing quote. -/
def readBody : State → Str → Option (Str × Str)
  | _, [] => none
  | .text, c :: rest =>
      if c = '"' then some ([], rest)
      else if c = '\\' then readBody .escape rest
      else (readBody .text rest).map (push c)
  | .escape, c :: rest =>
      if c = 'u' then readBody .brace rest
      else (escapes.lookup c).bind fun value => (readBody .text rest).map (push value)
  | .brace, c :: rest => if c = '{' then readBody (.digits []) rest else none
  | .digits read, c :: rest =>
      if c = '}' then (scalar read).bind fun value => (readBody .text rest).map (push value)
      else readBody (.digits (read ++ [c])) rest

/-- The value of the literal at the start of a text, and what follows it. -/
def read : Str → Option (Str × Str)
  | '"' :: rest => readBody .text rest
  | _ => none

/-! ## What is read of one character -/

theorem readBody_plain {c : Char} (hback : c ≠ '\\') (hquote : c ≠ '"') (rest : Str) :
    readBody .text (c :: rest) = (readBody .text rest).map (push c) := by
  rw [readBody, if_neg hquote, if_neg hback]

theorem readBody_letter {letter value : Char} (h : (letter, value) ∈ escapes) (rest : Str) :
    readBody .text ('\\' :: letter :: rest) = (readBody .text rest).map (push value) := by
  have hescapes : ∀ escape ∈ escapes, escape.1 ≠ 'u' ∧ escapes.lookup escape.1 = some escape.2 := by decide
  obtain ⟨hletter, hlookup⟩ := hescapes _ h
  rw [readBody, if_neg (by decide), if_pos rfl, readBody, if_neg hletter, hlookup]
  rfl

/-- The digits are collected up to the closing brace. -/
theorem readBody_digits {digits : Str} (h : '}' ∉ digits) (read rest : Str) :
    readBody (.digits read) (digits ++ '}' :: rest)
      = (scalar (read ++ digits)).bind fun value => (readBody .text rest).map (push value) := by
  induction digits generalizing read with
  | nil => rw [List.nil_append, readBody, if_pos rfl, List.append_nil]
  | cons c digits ih =>
      rw [List.mem_cons, not_or] at h
      rw [List.cons_append, readBody, if_neg (Ne.symm h.1), ih h.2, List.append_assoc, List.singleton_append]

/-- The number of a character is read as the character. -/
theorem scalar_toDigits (c : Char) : scalar (Nat.toDigits 16 c.toNat) = some c := by
  have hlength : (Nat.toDigits 16 c.toNat).length ≤ 6 := by
    rw [Nat.length_toDigits_le_iff (by omega) (by omega)]
    have hvalid : c.toNat < 0xD800 ∨ (0xDFFF < c.toNat ∧ c.toNat < 0x110000) := c.valid
    omega
  have hall : (Nat.toDigits 16 c.toNat).all Text.isAsciiHexdigit = true := by
    refine List.all_eq_true.mpr fun digit hmem => ?_
    obtain ⟨d, hd, rfl⟩ := Text.mem_toDigits hmem
    exact (Text.digitChar_spec d hd).1
  unfold scalar
  rw [Text.hexValue_toDigits, if_pos ⟨Nat.toDigits_ne_nil, hlength, hall, c.valid⟩, Char.ofNat_toNat]

theorem readBody_braces (c : Char) (rest : Str) :
    readBody .text ('\\' :: 'u' :: '{' :: (Nat.toDigits 16 c.toNat ++ '}' :: rest))
      = (readBody .text rest).map (push c) := by
  have hdigits : '}' ∉ Nat.toDigits 16 c.toNat := by
    intro hmem
    obtain ⟨d, hd, heq⟩ := Text.mem_toDigits hmem
    have hnot : ∀ d < 16, '}' ≠ d.digitChar := by decide
    exact hnot d hd heq
  rw [readBody, if_neg (by decide), if_pos rfl, readBody, if_pos rfl, readBody, if_pos rfl, readBody_digits hdigits,
    List.nil_append, scalar_toDigits]
  rfl

end Inspect.Literal
