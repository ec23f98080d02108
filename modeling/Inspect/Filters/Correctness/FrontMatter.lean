import Inspect.Filters.Generator
import Inspect.Filters.Manager.Source
import Inspect.Lib.Fields
import Inspect.Lib.Json.Codec
import Inspect.Lib.Literal

/-!
# `Filters.Correctness.FrontMatter` — a generated filter is loaded back

`quoted_string` serves two languages. Its escapes for quotes, backslashes, tabs and line ends are the same in TOML
and in Roto; for every other control character it writes the braces of Rust and Roto, which are no TOML escape.
The front matter of a generated filter is a TOML document in any case (`document`), on lines that
`parse_filter_source` takes apart again; `loadsBack_iff_quotable` says when the document means what the filter says:
exactly if none of its texts has such a character.
-/

namespace Inspect.Filters

open Toml

/-! ## Quoted texts as TOML -/

/-- The character is no control character, or a tab or line end. -/
def QuotableChar (c : Char) : Prop := Text.isControl c = true → c = '\n' ∨ c = '\r' ∨ c = '\t'

instance (c : Char) : Decidable (QuotableChar c) :=
  inferInstanceAs (Decidable (Text.isControl c = true → c = '\n' ∨ c = '\r' ∨ c = '\t'))

/-- The text has no control character but tabs and line ends. -/
def Quotable (text : Str) : Prop := ∀ c ∈ text, QuotableChar c

instance (text : Str) : Decidable (Quotable text) := inferInstanceAs (Decidable (∀ c ∈ text, QuotableChar c))

/-- What `quoted_string` writes between the quotes. -/
def escaped (value : Str) : Str := value.flatMap quotedChar

/-- The character is written as it is. -/
def Plain (c : Char) : Prop := c ≠ '\\' ∧ c ≠ '"' ∧ Text.isControl c = false

/-- The ways a character is written: as a letter after a backslash, as its number in braces, or as it is. -/
theorem quotedChar_forms (c : Char) :
    (∃ letter, quotedChar c = ['\\', letter] ∧ (letter, c) ∈ Literal.escapes)
    ∨ (quotedChar c = '\\' :: 'u' :: '{' :: (Nat.toDigits 16 c.toNat ++ ['}']) ∧ Text.isControl c = true
      ∧ ¬ QuotableChar c)
    ∨ (quotedChar c = [c] ∧ Plain c) := by
  by_cases hback : c = '\\'
  · exact Or.inl ⟨'\\', by subst hback; decide⟩
  by_cases hquote : c = '"'
  · exact Or.inl ⟨'"', by subst hquote; decide⟩
  by_cases hnewline : c = '\n'
  · exact Or.inl ⟨'n', by subst hnewline; decide⟩
  by_cases hreturn : c = '\r'
  · exact Or.inl ⟨'r', by subst hreturn; decide⟩
  by_cases htab : c = '\t'
  · exact Or.inl ⟨'t', by subst htab; decide⟩
  have hquoted : quotedChar c = if Text.isControl c then "\\u\x7b".toList ++ Nat.toDigits 16 c.toNat
      ++ "\x7d".toList else [c] := by
    unfold quotedChar
    rw [if_neg hback, if_neg hquote, if_neg hnewline, if_neg hreturn, if_neg htab]
  cases hcontrol : Text.isControl c with
  | false =>
      rw [hcontrol] at hquoted
      exact Or.inr (Or.inr ⟨hquoted, hback, hquote, hcontrol⟩)
  | true =>
      rw [hcontrol] at hquoted
      refine Or.inr (Or.inl ⟨hquoted, rfl, ?_⟩)
      intro h
      rcases h hcontrol with h | h | h
      · exact hnewline h
      · exact hreturn h
      · exact htab h

/-- What TOML makes of them. -/
theorem quotedChar_cases (c : Char) :
    (∃ letter, quotedChar c = ['\\', letter] ∧ escapeLetter letter = some c ∧ letter ≠ '\n'
      ∧ QuotableChar c)
    ∨ (∃ digits, quotedChar c = '\\' :: 'u' :: '{' :: digits ∧ closed digits = true ∧ '\n' ∉ digits
      ∧ ¬ QuotableChar c)
    ∨ (quotedChar c = [c] ∧ Plain c) := by
  rcases quotedChar_forms c with ⟨letter, hquoted, hescape⟩ | ⟨hquoted, hcontrol, hnot⟩ | hplain
  · have hescapes : ∀ escape ∈ Literal.escapes,
        escapeLetter escape.1 = some escape.2 ∧ escape.1 ≠ '\n' ∧ QuotableChar escape.2 := by decide
    exact Or.inl ⟨letter, hquoted, hescapes _ hescape⟩
  · have hrange : c.toNat < 160 := by
      simp only [Text.isControl, Bool.or_eq_true, decide_eq_true_eq, Bool.and_eq_true] at hcontrol
      omega
    have hdigits : ∀ n < 160, closed (Nat.toDigits 16 n ++ ['}']) = true
        ∧ '\n' ∉ Nat.toDigits 16 n ++ ['}'] := by
      decide +kernel
    obtain ⟨hclosed, hline⟩ := hdigits c.toNat hrange
    exact Or.inr (Or.inl ⟨_, hquoted, hclosed, hline, hnot⟩)
  · exact Or.inr (Or.inr hplain)

/-- An escape in braces is no TOML escape. -/
theorem unescape_brace (rest : Str) : unescape ('\\' :: 'u' :: '{' :: rest) = none := by
  match rest with
  | a :: b :: c :: rest =>
      show (scalar ['{', a, b, c]).bind _ = none
      rfl
  | [] => rfl
  | [a] => rfl
  | [a, b] => rfl

theorem Plain.quotableChar {c : Char} (h : Plain c) : QuotableChar c := by
  intro hcontrol
  rw [h.2.2] at hcontrol
  cases hcontrol

theorem Plain.not_forbidden {c : Char} (h : Plain c) : forbidden c = false := by
  obtain ⟨-, hquote, hcontrol⟩ := h
  simp only [Text.isControl, Bool.or_eq_false_iff, decide_eq_false_iff_not, Bool.and_eq_false_iff] at hcontrol
  simp only [forbidden, Bool.or_eq_false_iff, beq_eq_false_iff_ne, Bool.and_eq_false_iff,
    decide_eq_false_iff_not]
  refine ⟨⟨hquote, Or.inl hcontrol.1⟩, ?_⟩
  rintro h127
  rw [h127] at hcontrol
  simp at hcontrol

/-- **What TOML reads in a quoted text**: the text, unless it has a control character that is written in braces. -/
theorem unescape_escaped (value : Str) :
    unescape (escaped value) = if Quotable value then some value else none := by
  induction value with
  | nil => rfl
  | cons c value ih =>
      have hcons : escaped (c :: value) = quotedChar c ++ escaped value := rfl
      have hquotable : Quotable (c :: value) ↔ QuotableChar c ∧ Quotable value := List.forall_mem_cons
      have hnext : (unescape (escaped value)).map (c :: ·)
          = if Quotable value then some (c :: value) else none := by
        rw [ih]
        split
        · rfl
        · rfl
      rw [hcons]
      rcases quotedChar_cases c with ⟨letter, hc, hletter, -, hok⟩ | ⟨digits, hc, -, -, hbad⟩ | ⟨hc, hplain⟩
      · rw [hc, List.cons_append, List.cons_append, List.nil_append, unescape_letter hletter, hnext]
        exact (if_congr (hquotable.trans (and_iff_right hok)) rfl rfl).symm
      · rw [hc, List.cons_append, List.cons_append, List.cons_append, unescape_brace, if_neg]
        exact fun h => hbad (hquotable.mp h).1
      · rw [hc, List.singleton_append, unescape_plain hplain.1 hplain.not_forbidden, hnext]
        exact (if_congr (hquotable.trans (and_iff_right hplain.quotableChar)) rfl rfl).symm

/-- A quoted text is one TOML string on one line, whatever is in it. -/
theorem rawString_escaped (value : Str) : RawString (escaped value) := by
  induction value with
  | nil => exact ⟨rfl, List.not_mem_nil⟩
  | cons c value ih =>
      have hcons : escaped (c :: value) = quotedChar c ++ escaped value := rfl
      have hchar : closed (quotedChar c) = true ∧ '\n' ∉ quotedChar c := by
        rcases quotedChar_cases c with ⟨letter, hc, -, hletter, -⟩ | ⟨digits, hc, hclosed, hdigits, -⟩ | ⟨hc, hplain⟩
        · rw [hc]
          exact ⟨rfl, by simpa using Ne.symm hletter⟩
        · rw [hc]
          refine ⟨?_, by simpa using hdigits⟩
          show closed ('{' :: digits) = true
          rw [closed_plain (by decide) (by decide), hclosed]
        · rw [hc, closed_plain hplain.1 hplain.2.1]
          refine ⟨rfl, ?_⟩
          rw [List.mem_singleton]
          rintro rfl
          exact absurd hplain.2.2 (by decide)
      rw [hcons]
      refine ⟨by rw [closed_append hchar.1, ih.1], ?_⟩
      rw [List.mem_append, not_or]
      exact ⟨hchar.2, ih.2⟩

/-! ## The lines of a document pass the quote scanner -/

theorem inStringAfter_plain {text : Str} (h : ∀ c ∈ text, c ≠ '"') (rest : Str) :
    inStringAfter false false (text ++ rest) = inStringAfter false false rest := by
  induction text with
  | nil => rfl
  | cons c text ih =>
      obtain ⟨hc, htext⟩ := List.forall_mem_cons.mp h
      rw [List.cons_append, inStringAfter, if_neg (by simp), if_neg hc, ih htext]

theorem inStringAfter_closed {raw : Str} (h : closed raw = true) (rest : Str) :
    inStringAfter true false (raw ++ '"' :: rest) = inStringAfter false false rest := by
  induction raw, h using closed_induction with
  | nil => rfl
  | escape c raw h ih => exact ih
  | plain c raw hback hquote h ih =>
      rw [List.cons_append, inStringAfter, if_neg (by simp [hback]), if_neg (by simpa using hquote), ih]

theorem inStringAfter_quote {raw : Str} (h : closed raw = true) (rest : Str) :
    inStringAfter false false (quote raw ++ rest) = inStringAfter false false rest := by
  have hquote : quote raw ++ rest = '"' :: (raw ++ '"' :: rest) := by simp [quote]
  rw [hquote, inStringAfter, if_neg (by simp), if_pos rfl]
  exact inStringAfter_closed h rest

theorem inStringAfter_quotes {raws : List Str} (h : ∀ raw ∈ raws, closed raw = true) (rest : Str) :
    inStringAfter false false (", ".toList.intercalate (raws.map quote) ++ rest)
      = inStringAfter false false rest := by
  induction raws with
  | nil => simp [List.intercalate]
  | cons raw raws ih =>
      obtain ⟨hraw, hraws⟩ := List.forall_mem_cons.mp h
      cases raws with
      | nil =>
          have hsingle : ", ".toList.intercalate ([raw].map quote) = quote raw := by simp [List.intercalate]
          rw [hsingle, inStringAfter_quote hraw]
      | cons next raws =>
          rw [intercalate_cons_cons, List.append_assoc, inStringAfter_quote hraw, List.append_assoc,
            inStringAfter_plain (by decide), ih hraws]

/-- Every line of a document is accepted. -/
theorem validateFrontMatterLine_render {line : Toml.Line} (h : line.WellFormed) :
    validateFrontMatterLine line.render = true := by
  have hbare : ∀ {key : Str}, BareKey key → ∀ c ∈ key, c ≠ '"' := by
    rintro key hkey c hmem rfl
    exact hkey.not_mem (by decide) hmem
  have hplain : ∀ {text : Str}, (∀ c ∈ text, c ≠ '"') → inStringAfter false false text = false := by
    intro text htext
    have happend := inStringAfter_plain htext []
    rw [List.append_nil] at happend
    exact happend
  show (!inStringAfter false false line.render) = true
  rw [Bool.not_eq_true']
  cases line with
  | blank => rfl
  | header name =>
      show inStringAfter false false (['['] ++ name ++ [']']) = false
      rw [List.append_assoc, inStringAfter_plain (by decide), inStringAfter_plain (hbare h)]
      rfl
  | entry key value =>
      obtain ⟨hkey, hvalue⟩ := h
      show inStringAfter false false (key ++ " = ".toList ++ value.render) = false
      rw [List.append_assoc, inStringAfter_plain (hbare hkey), inStringAfter_plain (by decide)]
      cases value with
      | string raw =>
          have hquote := inStringAfter_quote hvalue.1 []
          rw [List.append_nil] at hquote
          exact hquote
      | boolean value => cases value <;> exact hplain (by decide)
      | integer value =>
          apply hplain
          rintro c hmem rfl
          exact Text.not_mem_displayInt (by decide) (by decide) value hmem
      | array raws =>
          show inStringAfter false false (['['] ++ ", ".toList.intercalate (raws.map quote) ++ [']']) = false
          rw [List.append_assoc, inStringAfter_plain (by decide),
            inStringAfter_quotes fun raw hmem => (hvalue raw hmem).1]
          rfl

/-! ## The front matter is a document in comments -/

/-- A line of the document as the front matter has it. -/
def commentLine : Toml.Line → Str
  | .blank => "//!".toList
  | line => "//! ".toList ++ line.render

/-- The document in the front matter of a filter. -/
def document (filter : GeneratedFilter) : List Toml.Line :=
  (match filter.id with
    | some id => [.entry "id".toList (.string (escaped id))]
    | none => [])
  ++ [.entry "name".toList (.string (escaped filter.name)),
    .entry "enabled".toList (.boolean filter.enabled),
    .entry "priority".toList (.integer filter.priority.toInt),
    .blank,
    .header "trigger".toList,
    .entry "host".toList (.array (filter.trigger.host.map escaped)),
    .entry "path".toList (.array (filter.trigger.path.map escaped)),
    .entry "method".toList (.array (filter.trigger.method.map escaped)),
    .entry "phase".toList (.array [escaped (GeneratedFilter.asRotoPhase filter.phase)])]

theorem tomlStringArray_eq (values : List Str) :
    tomlStringArray values = (Written.array (values.map escaped)).render := by
  show _ = '[' :: ", ".toList.intercalate ((values.map escaped).map quote) ++ [']']
  rw [List.map_map]
  rfl

/-- The lines of the front matter are those of the document, between the two delimiters. -/
theorem frontMatterLines_eq (filter : GeneratedFilter) :
    filter.frontMatterLines
      = "//! +++".toList :: ((document filter).map commentLine ++ ["//! +++".toList]) := by
  unfold GeneratedFilter.frontMatterLines document
  simp only [tomlStringArray_eq]
  cases filter.id with
  | none => rfl
  | some id => rfl

theorem document_wellFormed (filter : GeneratedFilter) : ∀ line ∈ document filter, line.WellFormed := by
  have hkey : ∀ key ∈ ["id", "name", "enabled", "priority", "trigger", "host", "path", "method", "phase"],
      BareKey key.toList := by
    intro key hmem
    refine ⟨?_, ?_⟩
    · fin_cases hmem <;> decide
    · fin_cases hmem <;> decide
  have hraws : ∀ values : List Str, ∀ raw ∈ values.map escaped, RawString raw := by
    intro values raw hmem
    obtain ⟨value, -, rfl⟩ := List.mem_map.mp hmem
    exact rawString_escaped value
  have hpriority : -2 ^ 63 ≤ filter.priority.toInt ∧ filter.priority.toInt < 2 ^ 63 := by
    have hle := Int32.le_toInt filter.priority
    have hlt := Int32.toInt_lt filter.priority
    omega
  intro line hmem
  rcases List.mem_append.mp hmem with hid | hmem
  · cases hfilter : filter.id with
    | none => rw [hfilter] at hid; cases hid
    | some id =>
        rw [hfilter] at hid
        rw [List.mem_singleton.mp hid]
        exact ⟨hkey "id" (by simp), rawString_escaped id⟩
  · simp only [List.mem_cons, List.not_mem_nil, or_false] at hmem
    rcases hmem with rfl | rfl | rfl | rfl | rfl | rfl | rfl | rfl | rfl
    · exact ⟨hkey "name" (by simp), rawString_escaped _⟩
    · exact ⟨hkey "enabled" (by simp), trivial⟩
    · exact ⟨hkey "priority" (by simp), hpriority⟩
    · trivial
    · exact hkey "trigger" (by simp)
    · exact ⟨hkey "host" (by simp), hraws _⟩
    · exact ⟨hkey "path" (by simp), hraws _⟩
    · exact ⟨hkey "method" (by simp), hraws _⟩
    · exact ⟨hkey "phase" (by simp), hraws [_]⟩

/-! ## Reading the lines back -/

/-- A line of the document that is not blank starts with its key or its bracket. -/
theorem render_head {line : Toml.Line} (h : line.WellFormed) (hblank : line ≠ .blank) :
    ∃ c rest, line.render = c :: rest ∧ Text.isWhitespace c = false ∧ c ≠ '+' := by
  cases line with
  | blank => exact absurd rfl hblank
  | header name => exact ⟨'[', name ++ [']'], rfl, by decide, by decide⟩
  | entry key value =>
      obtain ⟨hkey, -⟩ := h
      obtain ⟨c, rest, rfl⟩ := List.exists_cons_of_ne_nil hkey.1
      refine ⟨c, rest ++ " = ".toList ++ value.render, rfl, ?_, ?_⟩
      · rcases hkey.2 c List.mem_cons_self with hc | rfl | rfl
        · exact Text.isWhitespace_of_isAlphanum hc
        · decide
        · decide
      · rintro rfl
        exact hkey.not_mem (by decide) List.mem_cons_self

theorem normalizedCommentLine_commentLine {line : Toml.Line} (h : line.WellFormed) :
    normalizedCommentLine (commentLine line) = some line.render := by
  by_cases hblank : line = .blank
  · subst hblank
    rfl
  · have hline : commentLine line = "//! ".toList ++ line.render := by
      cases line with
      | blank => exact absurd rfl hblank
      | header name => rfl
      | entry key value => rfl
    obtain ⟨c, rest, hrender, hspace, -⟩ := render_head h hblank
    rw [hline, hrender]
    show some (Text.trimStart (' ' :: c :: rest)) = _
    have htrim : Text.trimStart (' ' :: c :: rest) = Text.trimStart (c :: rest) := rfl
    rw [htrim, Text.trimStart, List.dropWhile_cons_of_neg (by simp [hspace])]

/-- No line of the document is taken for the closing delimiter. -/
theorem trim_render_ne {line : Toml.Line} (h : line.WellFormed) :
    Text.trim line.render ≠ frontMatterDelimiter := by
  by_cases hblank : line = .blank
  · subst hblank
    decide
  · obtain ⟨c, rest, hrender, hspace, hplus⟩ := render_head h hblank
    rw [hrender, Text.trim, Text.trimStart, List.dropWhile_cons_of_neg (by simp [hspace]), Text.trimEnd]
    intro heq
    obtain ⟨suffix, hsuffix⟩ := List.rdropWhile_prefix (p := Text.isWhitespace) (l := c :: rest)
    rw [heq] at hsuffix
    injection hsuffix with hc _
    exact hplus hc.symm

/-- **The loop reads the document back** and leaves the rest as the script. -/
theorem frontMatterLoop_document {lines : List Toml.Line} (h : ∀ line ∈ lines, line.WellFormed)
    (tomlText : Str) (rest : List Str) :
    frontMatterLoop tomlText (lines.map commentLine ++ "//! +++".toList :: rest)
      = .ok (tomlText ++ render lines, rest.flatMap fun line => line ++ ['\n']) := by
  induction lines generalizing tomlText with
  | nil =>
      show frontMatterLoop tomlText ("//! +++".toList :: rest) = .ok (tomlText ++ [], _)
      rw [List.append_nil]
      rfl
  | cons line lines ih =>
      obtain ⟨hline, hlines⟩ := List.forall_mem_cons.mp h
      rw [List.map_cons, List.cons_append, frontMatterLoop, normalizedCommentLine_commentLine hline]
      simp only [Option.getD_some, validateFrontMatterLine_render hline, Bool.not_true, Bool.false_eq_true,
        if_false]
      rw [if_neg (trim_render_ne hline), ih hlines]
      simp [render]

/-- A line of the front matter is one line of the source. -/
theorem commentLine_line {line : Toml.Line} (h : line.WellFormed) :
    '\n' ∉ commentLine line ∧ (commentLine line).getLast? ≠ some '\r' := by
  have hnewline : '\n' ∉ "//! ".toList ++ line.render := by
    rw [List.mem_append, not_or]
    exact ⟨by decide, newline_not_mem_render h⟩
  cases line with
  | blank => decide
  | header name =>
      refine ⟨hnewline, ?_⟩
      show ("//! ".toList ++ ('[' :: name ++ [']'])).getLast? ≠ _
      rw [← List.append_assoc, List.getLast?_concat]
      decide
  | entry key value =>
      refine ⟨hnewline, ?_⟩
      obtain ⟨last, hlast, hreturn⟩ : ∃ last, value.render.getLast? = some last ∧ last ≠ '\r' := by
        cases value with
        | string raw => exact ⟨'"', List.getLast?_concat, by decide⟩
        | boolean value => cases value <;> exact ⟨'e', by decide, by decide⟩
        | integer value =>
            have hne : Text.displayInt value ≠ [] := by
              unfold Text.displayInt
              split
              · exact List.cons_ne_nil _ _
              · exact Nat.toDigits_ne_nil
            refine ⟨_, List.getLast?_eq_some_getLast hne, ?_⟩
            intro hlast
            have hmem := List.getLast_mem hne
            rw [hlast] at hmem
            exact Text.not_mem_displayInt (by decide) (by decide) value hmem
        | array raws => exact ⟨']', List.getLast?_concat, by decide⟩
      show ("//! ".toList ++ (key ++ " = ".toList ++ value.render)).getLast? ≠ _
      rw [List.getLast?_append, List.getLast?_append, hlast]
      simpa using hreturn

section Load

variable {N : Type} (serde : SerdeJson N) (toml : Str → Option Toml.Table) (filter : GeneratedFilter)

/-- **Reading a generated source** comes down to reading its document. -/
theorem parseFilterSource_toRotoSource :
    parseFilterSource toml (filter.toRotoSource serde)
      = match (toml (render (document filter))).bind FilterMetadata.deserialize with
        | none => .error .invalidToml
        | some metadata => .ok (metadata,
            (Text.lines (filter.writeScript serde)).flatMap fun line => line ++ ['\n']) := by
  have hwf := document_wellFormed filter
  have hdelimiter : '\n' ∉ "//! +++".toList ∧ "//! +++".toList.getLast? ≠ some '\r' := by decide
  have hwritten : ∀ line ∈ filter.frontMatterLines, '\n' ∉ line ∧ line.getLast? ≠ some '\r' := by
    rw [frontMatterLines_eq, List.forall_mem_cons, List.forall_mem_append]
    refine ⟨hdelimiter, ?_, by simp⟩
    intro line hmem
    obtain ⟨line, hline, rfl⟩ := List.mem_map.mp hmem
    exact commentLine_line (hwf line hline)
  have hlines : Text.lines (filter.toRotoSource serde) = "//! +++".toList
      :: ((document filter).map commentLine
        ++ "//! +++".toList :: Text.lines (filter.writeScript serde)) := by
    rw [GeneratedFilter.toRotoSource, GeneratedFilter.writeFrontMatter, Text.lines_flatMap hwritten,
      frontMatterLines_eq]
    simp
  have hloop := frontMatterLoop_document hwf [] (Text.lines (filter.writeScript serde))
  rw [List.nil_append] at hloop
  have hfirst : (decide (Text.trim "//! +++".toList = [])) = false := by decide
  have hblank : (Text.lines (filter.toRotoSource serde)).takeWhile (fun line => Text.trim line = []) = [] := by
    rw [hlines, List.takeWhile_cons, hfirst]
    rfl
  have hrest : (Text.lines (filter.toRotoSource serde)).dropWhile (fun line => Text.trim line = [])
      = Text.lines (filter.toRotoSource serde) := by
    rw [hlines, List.dropWhile_cons, hfirst]
    rfl
  unfold parseFilterSource
  simp only [hblank, hrest]
  rw [hlines]
  dsimp only
  rw [if_neg (by decide)]
  have htail : frontMatterLoop [] (Text.lines (filter.toRotoSource serde)).tail
      = .ok (render (document filter), (Text.lines (filter.writeScript serde)).flatMap fun line => line ++ ['\n']) := by
    rw [hlines, List.tail_cons]
    exact hloop
  have hslice : Text.sliceFrom 0 (filter.toRotoSource serde) = some (filter.toRotoSource serde) := by
    unfold Text.sliceFrom
    rfl
  rw [List.map_nil, List.sum_nil, hslice]
  dsimp only
  rewrite [htail]
  rfl

/-! ## When the document means the filter -/

/-- The texts of a filter that its front matter quotes. -/
def frontMatterTexts : List Str :=
  filter.id.toList ++ filter.name :: (filter.trigger.host ++ filter.trigger.path ++ filter.trigger.method)

/-- The phase in the metadata of a filter. -/
def filterPhase : GeneratedFilterPhase → FilterPhase
  | .request => .request
  | .response => .response

/-- The metadata that the filter has. -/
def expectedMetadata : FilterMetadata where
  id := filter.id
  name := some filter.name
  enabled := filter.enabled
  priority := some filter.priority
  trigger := ⟨filter.trigger.host, filter.trigger.path, filter.trigger.method, [filterPhase filter.phase]⟩

theorem mapM_unescape_escaped (values : List Str) :
    (values.map escaped).mapM unescape = if ∀ value ∈ values, Quotable value then some values else none := by
  induction values with
  | nil => rfl
  | cons value values ih =>
      rw [List.map_cons, List.mapM_cons, unescape_escaped, ih]
      by_cases hvalue : Quotable value
      · by_cases hvalues : ∀ value ∈ values, Quotable value
        · rw [if_pos hvalue, if_pos hvalues, if_pos (List.forall_mem_cons.mpr ⟨hvalue, hvalues⟩)]
          rfl
        · rw [if_pos hvalue, if_neg hvalues, if_neg fun h => hvalues (List.forall_mem_cons.mp h).2]
          rfl
      · rw [if_neg hvalue, if_neg fun h => hvalue (List.forall_mem_cons.mp h).1]
        rfl

/-- The table that the document of a filter stands for. -/
def documentTable : Toml.Table where
  headers := ["trigger".toList]
  entries :=
    (match filter.id with
      | some id => [((none, "id".toList), Value.string id)]
      | none => [])
    ++ [((none, "name".toList), .string filter.name),
      ((none, "enabled".toList), .boolean filter.enabled),
      ((none, "priority".toList), .integer filter.priority.toInt),
      ((some "trigger".toList, "host".toList), .array filter.trigger.host),
      ((some "trigger".toList, "path".toList), .array filter.trigger.path),
      ((some "trigger".toList, "method".toList), .array filter.trigger.method),
      ((some "trigger".toList, "phase".toList), .array [GeneratedFilter.asRotoPhase filter.phase])]

/-- With quotable texts the document stands for its table. -/
theorem eval_document_of_quotable (h : ∀ text ∈ frontMatterTexts filter, Quotable text) :
    eval (document filter) = some (documentTable filter) := by
  have hstring : ∀ text ∈ frontMatterTexts filter,
      (Written.string (escaped text)).eval = some (.string text) := by
    intro text hmem
    rw [Written.eval, unescape_escaped, if_pos (h text hmem)]
    rfl
  have harray : ∀ values : List Str, (∀ value ∈ values, Quotable value) →
      (Written.array (values.map escaped)).eval = some (.array values) := by
    intro values hvalues
    rw [Written.eval, mapM_unescape_escaped, if_pos hvalues]
    rfl
  have hname := hstring filter.name (by simp [frontMatterTexts])
  have hhost := harray filter.trigger.host fun value hmem => h value (by simp [frontMatterTexts, hmem])
  have hpath := harray filter.trigger.path fun value hmem => h value (by simp [frontMatterTexts, hmem])
  have hmethod := harray filter.trigger.method fun value hmem => h value (by simp [frontMatterTexts, hmem])
  have hphase : (Written.array [escaped (GeneratedFilter.asRotoPhase filter.phase)]).eval
      = some (.array [GeneratedFilter.asRotoPhase filter.phase]) := by
    cases filter.phase <;> rfl
  unfold eval document documentTable
  cases hid : filter.id with
  | none =>
      simp only [List.nil_append, List.foldlM_cons, Line.eval, hname, hhost, hpath, hmethod, hphase,
        Option.bind_some]
      rfl
  | some id =>
      have hid := hstring id (by simp [frontMatterTexts, hid])
      simp only [List.cons_append, List.nil_append, List.foldlM_cons, Line.eval, hid, hname, hhost, hpath, hmethod, hphase,
        Option.bind_some]
      rfl

/-- The table is read as the metadata of the filter. -/
theorem deserialize_documentTable :
    FilterMetadata.deserialize (documentTable filter) = some (expectedMetadata filter) := by
  have hpriority : readI32 (.integer filter.priority.toInt) = some (some filter.priority) := by
    have hle := Int32.le_toInt filter.priority
    have hlt := Int32.toInt_lt filter.priority
    rw [readI32, if_pos ⟨hle, hlt⟩, Int32.ofInt_toInt]
  have hphase : readPhases (.array [GeneratedFilter.asRotoPhase filter.phase])
      = some [filterPhase filter.phase] := by
    cases filter.phase <;> rfl
  have htrigger : FilterTrigger.deserialize (documentTable filter) = some (expectedMetadata filter).trigger := by
    unfold FilterTrigger.deserialize documentTable
    cases filter.id with
    | none =>
        show (readPhases (.array [GeneratedFilter.asRotoPhase filter.phase])).map _ = _
        rw [hphase]
        rfl
    | some id =>
        show (readPhases (.array [GeneratedFilter.asRotoPhase filter.phase])).map _ = _
        rw [hphase]
        rfl
  unfold FilterMetadata.deserialize
  rw [htrigger]
  unfold documentTable expectedMetadata
  cases filter.id with
  | none =>
      show (readI32 (.integer filter.priority.toInt)).bind _ = _
      rw [hpriority]
      rfl
  | some id =>
      show (readI32 (.integer filter.priority.toInt)).bind _ = _
      rw [hpriority]
      rfl

/-- With a text that is not quotable the document is no TOML. -/
theorem eval_document_of_not_quotable (h : ¬ ∀ text ∈ frontMatterTexts filter, Quotable text) :
    eval (document filter) = none := by
  push Not at h
  obtain ⟨text, hmem, hnot⟩ := h
  have hstring : ∀ key, Toml.Line.entry key (.string (escaped text)) ∈ document filter →
      eval (document filter) = none := by
    intro key hline
    apply eval_eq_none hline
    rw [Written.eval, unescape_escaped, if_neg hnot]
    rfl
  have harray : ∀ key (values : List Str), text ∈ values → Toml.Line.entry key (.array (values.map escaped)) ∈ document filter →
      eval (document filter) = none := by
    intro key values htext hline
    apply eval_eq_none hline
    rw [Written.eval, mapM_unescape_escaped, if_neg fun h => hnot (h text htext)]
    rfl
  rw [frontMatterTexts, List.mem_append, List.mem_cons, List.mem_append, List.mem_append] at hmem
  rcases hmem with hid | rfl | (hhost | hpath) | hmethod
  · apply hstring "id".toList
    rw [document, Option.mem_toList.mp hid]
    simp
  · exact hstring "name".toList (by simp [document])
  · exact harray "host".toList _ hhost (by simp [document])
  · exact harray "path".toList _ hpath (by simp [document])
  · exact harray "method".toList _ hmethod (by simp [document])

/-- The source of the filter is read back, with the metadata of the filter. -/
def LoadsBack : Prop :=
  ∃ metadata script, parseFilterSource toml (filter.toRotoSource serde) = .ok (metadata, script)
    ∧ metadata.id = filter.id ∧ metadata.name = some filter.name ∧ metadata.enabled = filter.enabled
    ∧ metadata.priority = some filter.priority ∧ metadata.trigger.host = filter.trigger.host
    ∧ metadata.trigger.path = filter.trigger.path ∧ metadata.trigger.method = filter.trigger.method
    ∧ metadata.trigger.phase = [filterPhase filter.phase]

/-- **When a generated filter is loaded back**: exactly if none of the texts in its front matter has a control
    character other than tab, line feed and carriage return. -/
theorem loadsBack_iff_quotable (htoml : Toml.Conforms toml) :
    LoadsBack serde toml filter ↔ ∀ text ∈ frontMatterTexts filter, Quotable text := by
  unfold LoadsBack
  rw [parseFilterSource_toRotoSource, htoml _ (document_wellFormed filter)]
  constructor
  · rintro ⟨metadata, script, hparse, -⟩
    by_contra hnot
    rw [eval_document_of_not_quotable filter hnot] at hparse
    cases hparse
  · intro h
    rw [eval_document_of_quotable filter h, Option.bind_some, deserialize_documentTable]
    exact ⟨expectedMetadata filter, _, rfl, rfl, rfl, rfl, rfl, rfl, rfl, rfl, rfl⟩

end Load

/-- A filter with a given name and no conditions or actions. -/
def namedFilter (name : Str) : GeneratedFilter where
  id := some "inspect-generated:1".toList
  name := name
  priority := 9000
  enabled := true
  phase := .response
  trigger := GeneratedFilterTrigger.default
  conditions := []
  actions := [.mark "generated".toList]
  notes := []

/-- Quotes, backslashes, tabs and line ends in a name are no obstacle. -/
theorem loadsBack_quoted_name :
    Toml.Conforms Toml.parse
      ∧ LoadsBack JsonCodec.codec Toml.parse (namedFilter "a \"b\" \\ \t\r\n".toList) :=
  ⟨Toml.parse_conforms, (loadsBack_iff_quotable JsonCodec.codec Toml.parse _ Toml.parse_conforms).mpr
    (by decide +kernel)⟩

/-- An escape character in a name: the source written for the filter is rejected. -/
theorem escape_name_not_loaded_back :
    ¬ LoadsBack JsonCodec.codec Toml.parse (namedFilter "\x1b".toList) := by
  have hparse : parseFilterSource Toml.parse ((namedFilter "\x1b".toList).toRotoSource JsonCodec.codec)
      = .error .invalidToml := by
    decide +kernel
  rintro ⟨metadata, script, h, -⟩
  rw [hparse] at h
  cases h

end Inspect.Filters
