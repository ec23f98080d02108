import Inspect.Filters.Correctness.FrontMatter

/-!
# `Filters.Correctness.QuotedString` — a quoted text is one literal

Captured texts get into the source of a filter as literals only. A literal ends where it should and means the text it
was made of, whatever follows it; it stays on its line; and the quote scanner of the front matter passes over it.
-/

namespace Inspect.Filters

/-- One character of a quoted text, read by the lexer. -/
theorem readBody_quotedChar (c : Char) (rest : Str) :
    Literal.readBody .text (quotedChar c ++ rest) = (Literal.readBody .text rest).map (Literal.push c) := by
  rcases quotedChar_forms c with ⟨letter, hquoted, hescape⟩ | ⟨hquoted, -, -⟩ | ⟨hquoted, hback, hquote, -⟩
  · rw [hquoted]
    exact Literal.readBody_letter hescape rest
  · rw [hquoted, List.cons_append, List.cons_append, List.cons_append, List.append_assoc]
    exact Literal.readBody_braces c rest
  · rw [hquoted]
    exact Literal.readBody_plain hback hquote rest

theorem readBody_escaped (value rest : Str) :
    Literal.readBody .text (escaped value ++ '"' :: rest) = some (value, rest) := by
  induction value with
  | nil => rfl
  | cons c value ih =>
      have hcons : escaped (c :: value) = quotedChar c ++ escaped value := rfl
      rw [hcons, List.append_assoc, readBody_quotedChar, ih]
      rfl

/-- **A quoted text is read back**, and what follows it is left. -/
theorem read_quotedString (value rest : Str) : Literal.read (quotedString value ++ rest) = some (value, rest) := by
  have hquoted : quotedString value ++ rest = '"' :: (escaped value ++ '"' :: rest) := by
    simp [quotedString, escaped]
  rw [hquoted]
  exact readBody_escaped value rest

/-- No character is written with a control character. -/
theorem isControl_of_mem_quotedChar {c written : Char} (h : written ∈ quotedChar c) : Text.isControl written = false := by
  rcases quotedChar_forms c with ⟨letter, hquoted, hescape⟩ | ⟨hquoted, -, -⟩ | ⟨hquoted, -, -, hcontrol⟩
  · have hescapes : ∀ escape ∈ Literal.escapes, ∀ written ∈ ['\\', escape.1], Text.isControl written = false := by decide
    rw [hquoted] at h
    exact hescapes _ hescape written h
  · have hdigits : ∀ d < 16, Text.isControl d.digitChar = false := by decide
    have hopening : ∀ written ∈ ['\\', 'u', '{'], Text.isControl written = false := by decide
    rw [hquoted] at h
    have hpieces : written ∈ ['\\', 'u', '{'] ++ (Nat.toDigits 16 c.toNat ++ ['}']) := h
    rcases List.mem_append.mp hpieces with hmem | hmem
    · exact hopening written hmem
    rcases List.mem_append.mp hmem with hmem | hmem
    · obtain ⟨d, hd, rfl⟩ := Text.mem_toDigits hmem
      exact hdigits d hd
    · rw [List.mem_singleton.mp hmem]
      decide
  · rw [hquoted, List.mem_singleton] at h
    rw [h]
    exact hcontrol

theorem isControl_of_mem_quotedString {value : Str} {c : Char} (h : c ∈ quotedString value) :
    Text.isControl c = false := by
  have hquote : Text.isControl '"' = false := by decide
  rcases List.mem_cons.mp h with rfl | hmem
  · exact hquote
  rcases List.mem_append.mp hmem with hmem | hmem
  · obtain ⟨written, -, hwritten⟩ := List.mem_flatMap.mp hmem
    exact isControl_of_mem_quotedChar hwritten
  · rw [List.mem_singleton.mp hmem]
    exact hquote

/-! ## Lines with literals -/

/-- A piece of a line: text without quotes, or a literal. -/
inductive LinePiece
  | text (raw : Str) (unquoted : '"' ∉ raw)
  | literal (value : Str)

def LinePiece.render : LinePiece → Str
  | .text raw _ => raw
  | .literal value => quotedString value

/-- No string is left open by a piece. -/
theorem inStringAfter_piece (piece : LinePiece) (rest : Str) :
    inStringAfter false false (piece.render ++ rest) = inStringAfter false false rest := by
  cases piece with
  | text raw unquoted =>
      refine inStringAfter_plain ?_ rest
      rintro c hmem rfl
      exact unquoted hmem
  | literal value => exact inStringAfter_quote (rawString_escaped value).1 rest

theorem inStringAfter_pieces (pieces : List LinePiece) :
    inStringAfter false false (pieces.flatMap LinePiece.render) = false := by
  induction pieces with
  | nil => rfl
  | cons piece pieces ih => rw [List.flatMap_cons, inStringAfter_piece, ih]

/-- **A quoted text is one literal**: a lexer that starts at it reads exactly it, and gets the text; it contains no
    control character, and so no line end; and every line of text without quotes and of such literals is accepted in the
    front matter. -/
theorem quotedString_literal :
    (∀ value rest, Literal.read (quotedString value ++ rest) = some (value, rest))
    ∧ (∀ value, ∀ c ∈ quotedString value, Text.isControl c = false ∧ c ≠ '\r' ∧ c ≠ '\n')
    ∧ ∀ pieces : List LinePiece, validateFrontMatterLine (pieces.flatMap LinePiece.render) = true := by
  refine ⟨read_quotedString, ?_, ?_⟩
  · intro value c hmem
    have hcontrol := isControl_of_mem_quotedString hmem
    refine ⟨hcontrol, ?_, ?_⟩
    · rintro rfl
      exact absurd hcontrol (by decide)
    · rintro rfl
      exact absurd hcontrol (by decide)
  · intro pieces
    rw [validateFrontMatterLine, inStringAfter_pieces]
    rfl

end Inspect.Filters
