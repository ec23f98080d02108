import Inspect.Lib.Split
import Inspect.Tui.Search

/-!
# `Tui.Highlight` — the detail text with the matches of a query

`highlight_detail_text` of `src/tui/mod.rs`. Of the style of a span only two are told apart: `dim`, and the black on
yellow of a match.
-/

namespace Inspect.Tui

inductive Style where
  | dim
  | highlight
  deriving DecidableEq, Repr

/-- A span of a `StyledString`. -/
structure Span where
  content : Str
  style : Style
  deriving DecidableEq, Repr

/-- The loop over the ranges of a line from `cursor` on, with what is after it; a slice that panics is `none`. -/
def highlightRanges (line : Str) (cursor : Nat) : List ByteRange → Option (List Span)
  | [] =>
      if cursor < Text.len line then (Text.sliceFrom cursor line).map fun rest => [⟨rest, .dim⟩]
      else some []
  | range :: ranges =>
      let before :=
        if cursor < range.start then (Text.get cursor range.start line).map fun gap => [⟨gap, .dim⟩]
        else some []
      before.bind fun before => (Text.get range.start range.stop line).bind fun found =>
        (highlightRanges line range.stop ranges).map fun spans => before ++ ⟨found, .highlight⟩ :: spans

/-- `line.strip_suffix('\n').unwrap_or(line)`. -/
def withoutNewline (line : Str) : Str := if line.getLast? = some '\n' then line.dropLast else line

/-- The spans of a line, with the line feed if it has one. -/
def highlightLine (regexNew : Str → Option (Str → List ByteRange)) (matcher : FullTextMatcher) (line : Str) :
    Option (List Span) :=
  let lineWithoutNewline := withoutNewline line
  let newline : List Span := if line.getLast? = some '\n' then [⟨['\n'], .dim⟩] else []
  (matcher.findAllInLine regexNew lineWithoutNewline).bind fun ranges =>
    if ranges.isEmpty then some (⟨lineWithoutNewline, .dim⟩ :: newline)
    else (highlightRanges lineWithoutNewline 0 ranges).map (· ++ newline)

/-- `highlight_detail_text`: the spans of the styled text. -/
def highlightDetailText (regexNew : Str → Option (Str → List ByteRange)) (text query : Str) : Option (List Span) :=
  match FullTextMatcher.parse query with
  | none => some [⟨text, .dim⟩]
  | some matcher => ((Text.splitInclusive text).mapM (highlightLine regexNew matcher)).map List.flatten

end Inspect.Tui
