import Inspect.Lib.Text

/-!
# `Lib.Toml` — documents of strings, flags, numbers and string arrays

The part of TOML 1.0 that configuration headers are written in: comments aside, a document is a list of lines,
each blank, a table header or a key with a value on the same line. A string is kept as it is written, so that a
document can be rendered first and judged afterwards: `eval` gives the table a document stands for, or nothing
if an escape is not one of TOML or a key is given twice.

`Conforms` says of a TOML parser that it reads these documents as the language defines them; `parse` is one that
does.
-/

namespace Inspect.Toml

/-! ## Documents -/

/-- A value as it is written. The texts are what stands between the quotes of a basic string. -/
inductive Written
  | string (raw : Str)
  | boolean (value : Bool)
  | integer (value : Int)
  | array (raws : List Str)
deriving DecidableEq

inductive Line
  | blank
  | header (name : Str)
  | entry (key : Str) (value : Written)
deriving DecidableEq

def quote (raw : Str) : Str := '"' :: raw ++ ['"']

def Written.render : Written → Str
  | .string raw => quote raw
  | .boolean value => if value then "true".toList else "false".toList
  | .integer value => Text.displayInt value
  | .array raws => '[' :: ", ".toList.intercalate (raws.map quote) ++ [']']

def Line.render : Line → Str
  | .blank => []
  | .header name => '[' :: name ++ [']']
  | .entry key value => key ++ " = ".toList ++ value.render

def render (document : List Line) : Str := document.flatMap fun line => line.render ++ ['\n']

/-! ## What a document stands for -/

/-- The character of a one-letter escape. -/
def escapeLetter (c : Char) : Option Char :=
  [('b', '\x08'), ('t', '\t'), ('n', '\n'), ('f', '\x0c'), ('r', '\r'), ('"', '"'), ('\\', '\\')].lookup c

/-- The value of a hexadecimal digit. -/
def hexDigit (c : Char) : Option Nat :=
  if '0' ≤ c ∧ c ≤ '9' then some (c.toNat - '0'.toNat)
  else if 'a' ≤ c ∧ c ≤ 'f' then some (c.toNat - 'a'.toNat + 10)
  else if 'A' ≤ c ∧ c ≤ 'F' then some (c.toNat - 'A'.toNat + 10)
  else none

/-- The Unicode scalar value with these hexadecimal digits. -/
def scalar (digits : Str) : Option Char :=
  (digits.foldlM (fun n c => (hexDigit c).map (16 * n + ·)) 0).bind fun n =>
    if n.isValidChar then some (Char.ofNat n) else none

/-- A character that cannot stand in a basic string as it is: a quote, or a control character but the tab. -/
def forbidden (c : Char) : Bool := c == '"' || (c.toNat < 0x20 && c != '\t') || c.toNat == 0x7F

/-- The text of a basic string. -/
def unescape : Str → Option Str
  | [] => some []
  | '\\' :: 'u' :: a :: b :: c :: d :: rest =>
      (scalar [a, b, c, d]).bind fun c => (unescape rest).map (c :: ·)
  | '\\' :: 'U' :: a :: b :: c :: d :: e :: f :: g :: h :: rest =>
      (scalar [a, b, c, d, e, f, g, h]).bind fun c => (unescape rest).map (c :: ·)
  | '\\' :: letter :: rest => (escapeLetter letter).bind fun c => (unescape rest).map (c :: ·)
  | '\\' :: [] => none
  | c :: rest => if forbidden c then none else (unescape rest).map (c :: ·)

/-- An escape by a letter. -/
theorem unescape_letter {letter c : Char} (h : escapeLetter letter = some c) (rest : Str) :
    unescape ('\\' :: letter :: rest) = (unescape rest).map (c :: ·) := by
  rw [unescape.eq_4]
  · rw [h, Option.bind_some]
  · rintro a b c' d rest' rfl -
    cases h
  · rintro a b c' d e f g h' rest' rfl -
    cases h

/-- A character as it is. -/
theorem unescape_plain {c : Char} (hback : c ≠ '\\') (h : forbidden c = false) (rest : Str) :
    unescape (c :: rest) = (unescape rest).map (c :: ·) := by
  rw [unescape.eq_6]
  · rw [h]
    rfl
  · exact fun a b c' d rest' hc _ => hback hc
  · exact fun a b c' d e f g h' rest' hc _ => hback hc
  · exact fun letter rest' hc _ => hback hc
  · exact fun hc _ => hback hc

inductive Value
  | string (text : Str)
  | boolean (value : Bool)
  | integer (value : Int)
  | array (items : List Str)
deriving DecidableEq

/-- The tables of a document: their names, and the values by table and key. Keys before the first header are in
    no named table. -/
structure Table where
  headers : List Str
  entries : List ((Option Str × Str) × Value)
deriving DecidableEq

def Written.eval : Written → Option Value
  | .string raw => (unescape raw).map .string
  | .boolean value => some (.boolean value)
  | .integer value => some (.integer value)
  | .array raws => (raws.mapM unescape).map .array

/-- Read one line, in the table that is open. Neither a table nor a key can be given twice. -/
def Line.eval : Option Str × Table → Line → Option (Option Str × Table)
  | state, .blank => some state
  | (_, table), .header name =>
      if name ∈ table.headers ∨ (table.entries.lookup (none, name)).isSome then none
      else some (some name, { table with headers := table.headers ++ [name] })
  | (current, table), .entry key value =>
      value.eval.bind fun value =>
        if (table.entries.lookup (current, key)).isSome then none
        else some (current, { table with entries := table.entries ++ [((current, key), value)] })

def eval (document : List Line) : Option Table :=
  (document.foldlM Line.eval (none, ⟨[], []⟩)).map Prod.snd

/-- A value that is no TOML makes the document none. -/
theorem eval_eq_none {document : List Line} {key : Str} {value : Written}
    (hmem : Line.entry key value ∈ document) (h : value.eval = none) : eval document = none := by
  have hfold : ∀ state, document.foldlM Line.eval state = none := by
    induction document with
    | nil => cases hmem
    | cons line document ih =>
        intro state
        rw [List.foldlM_cons]
        rcases List.mem_cons.mp hmem with rfl | hmem
        · obtain ⟨current, table⟩ := state
          show (value.eval.bind _).bind _ = none
          rw [h]
          rfl
        · cases hline : Line.eval state line with
          | none => rfl
          | some next => exact ih hmem next
  rw [eval, hfold]
  rfl

/-! ## Well-formed documents -/

/-- A name that needs no quotes. -/
def BareKey (key : Str) : Prop := key ≠ [] ∧ ∀ c ∈ key, c.isAlphanum = true ∨ c = '_' ∨ c = '-'

theorem BareKey.not_mem {key : Str} (h : BareKey key) {c : Char}
    (hc : c.isAlphanum = false ∧ c ≠ '_' ∧ c ≠ '-') : c ∉ key := by
  obtain ⟨halnum, hunderscore, hdash⟩ := hc
  intro hmem
  rcases h.2 c hmem with hc | hc | hc
  · rw [halnum] at hc
    cases hc
  · exact hunderscore hc
  · exact hdash hc

/-- No quote in the text closes the string early, and its last backslash does not swallow the closing quote. -/
def closed : Str → Bool
  | [] => true
  | '"' :: _ => false
  | '\\' :: [] => false
  | '\\' :: _ :: rest => closed rest
  | _ :: rest => closed rest

theorem closed_plain {c : Char} (hback : c ≠ '\\') (hquote : c ≠ '"') (rest : Str) :
    closed (c :: rest) = closed rest := by
  rw [closed.eq_5]
  · exact hquote
  · exact fun hc _ => hback hc
  · exact fun c' rest' hc _ => hback hc

/-- A closed text is made of escapes and of characters that are neither a backslash nor a quote. -/
theorem closed_induction {motive : (raw : Str) → closed raw = true → Prop} (nil : motive [] rfl)
    (escape : ∀ c raw (h : closed raw = true), motive raw h → motive ('\\' :: c :: raw) h)
    (plain : ∀ c raw (hback : c ≠ '\\') (hquote : c ≠ '"') (h : closed raw = true), motive raw h →
      motive (c :: raw) ((closed_plain hback hquote raw).trans h))
    (raw : Str) (h : closed raw = true) : motive raw h := by
  induction raw using closed.induct with
  | case1 => exact nil
  | case2 raw => cases h
  | case3 => cases h
  | case4 c raw ih => exact escape c raw h (ih h)
  | case5 c raw hquote hlast hback ih =>
      have hraw : closed raw = true := by rwa [closed.eq_5 _ _ hquote hlast hback] at h
      have hc : c ≠ '\\' := by
        rintro rfl
        cases raw with
        | nil => exact hlast rfl rfl
        | cons c' raw => exact hback c' raw rfl rfl
      exact plain c raw hc hquote hraw (ih hraw)

theorem closed_append {raw : Str} (h : closed raw = true) (rest : Str) :
    closed (raw ++ rest) = closed rest := by
  induction raw, h using closed_induction with
  | nil => rfl
  | escape c raw h ih => exact ih
  | plain c raw hback hquote h ih => rw [List.cons_append, closed_plain hback hquote, ih]

/-- A text that can stand between quotes on a line of its own. -/
def RawString (raw : Str) : Prop := closed raw = true ∧ '\n' ∉ raw

def Written.WellFormed : Written → Prop
  | .string raw => RawString raw
  | .boolean _ => True
  | .integer value => -2 ^ 63 ≤ value ∧ value < 2 ^ 63
  | .array raws => ∀ raw ∈ raws, RawString raw

def Line.WellFormed : Line → Prop
  | .blank => True
  | .header name => BareKey name
  | .entry key value => BareKey key ∧ value.WellFormed

/-- **The parser reads TOML**: a well-formed document gives what it stands for. -/
def Conforms (parse : Str → Option Table) : Prop :=
  ∀ document : List Line, (∀ line ∈ document, line.WellFormed) → parse (render document) = eval document

/-! ## A parser -/

/-- The text up to the closing quote, and what follows it. -/
def readRaw : Str → Option (Str × Str)
  | [] => none
  | '"' :: rest => some ([], rest)
  | '\\' :: c :: rest => (readRaw rest).map fun (raw, rest) => ('\\' :: c :: raw, rest)
  | c :: rest => (readRaw rest).map fun (raw, rest) => (c :: raw, rest)

/-- The strings of an array after its opening bracket, up to the closing one. -/
def readRaws : Nat → Str → Option (List Str)
  | _, [']'] => some []
  | fuel + 1, '"' :: text =>
      (readRaw text).bind fun (raw, rest) =>
        match rest with
        | ',' :: ' ' :: rest => (readRaws fuel rest).map (raw :: ·)
        | [']'] => some [raw]
        | _ => none
  | _, _ => none

def readWritten (text : Str) : Option Written :=
  match text with
  | '"' :: rest => (readRaw rest).bind fun (raw, rest) => if rest = [] then some (.string raw) else none
  | '[' :: rest => (readRaws text.length rest).map .array
  | 't' :: _ => if text = "true".toList then some (.boolean true) else none
  | 'f' :: _ => if text = "false".toList then some (.boolean false) else none
  | '-' :: digits => some (.integer (-(Nat.ofDigitChars 10 digits 0)))
  | digits => some (.integer (Nat.ofDigitChars 10 digits 0))

def readLine (line : Str) : Option Line :=
  match line with
  | [] => some .blank
  | '[' :: name => some (.header name.dropLast)
  | line =>
      (Text.stripPrefix " = ".toList (line.dropWhile (· ≠ ' '))).bind fun value =>
        (readWritten value).map (.entry (line.takeWhile (· ≠ ' ')))

def parse (text : Str) : Option Table :=
  ((text.splitOn '\n').dropLast.mapM readLine).bind eval

/-! ### The parser conforms -/

theorem readRaw_closed {raw : Str} (h : closed raw = true) (rest : Str) :
    readRaw (raw ++ '"' :: rest) = some (raw, rest) := by
  induction raw, h using closed_induction with
  | nil => rfl
  | escape c raw h ih =>
      show (readRaw (raw ++ '"' :: rest)).map _ = _
      rw [ih]
      rfl
  | plain c raw hback hquote h ih =>
      rw [List.cons_append, readRaw.eq_4, ih]
      · rfl
      · exact hquote
      · intro c' rest' hback'
        exact absurd hback' hback

/-- The strings of an array, one after another. -/
theorem intercalate_cons_cons (raw next : Str) (raws : List Str) :
    ", ".toList.intercalate ((raw :: next :: raws).map quote)
      = quote raw ++ (", ".toList ++ ", ".toList.intercalate ((next :: raws).map quote)) := by
  simp [List.intercalate]

/-- The strings of an array are read back. -/
theorem readRaws_render {raws : List Str} (h : ∀ raw ∈ raws, closed raw = true) {fuel : Nat}
    (hfuel : raws.length ≤ fuel) :
    readRaws fuel (", ".toList.intercalate (raws.map quote) ++ [']']) = some raws := by
  induction raws generalizing fuel with
  | nil => cases fuel <;> rfl
  | cons raw raws ih =>
      obtain ⟨hraw, hraws⟩ := List.forall_mem_cons.mp h
      cases fuel with
      | zero => cases hfuel
      | succ fuel =>
          cases raws with
          | nil =>
              have htext : ", ".toList.intercalate ([raw].map quote) ++ [']'] = '"' :: (raw ++ '"' :: [']']) := by
                simp [quote, List.intercalate]
              rw [htext, readRaws, readRaw_closed hraw]
              rfl
          | cons next raws =>
              have hnext := ih hraws (Nat.le_of_succ_le_succ hfuel)
              have htext : ", ".toList.intercalate ((raw :: next :: raws).map quote) ++ [']']
                  = '"' :: (raw ++ '"' :: (',' :: ' ' ::
                      (", ".toList.intercalate ((next :: raws).map quote) ++ [']']))) := by
                rw [intercalate_cons_cons]
                simp [quote]
              rw [htext, readRaws, readRaw_closed hraw]
              show (readRaws fuel _).map _ = _
              rw [hnext]
              rfl

theorem length_le_intercalate (raws : List Str) :
    raws.length ≤ (", ".toList.intercalate (raws.map quote)).length := by
  induction raws with
  | nil => exact Nat.zero_le _
  | cons raw raws ih =>
      cases raws with
      | nil => simp [quote, List.intercalate]
      | cons next raws =>
          rw [intercalate_cons_cons, List.length_append, List.length_append, List.length_cons]
          have hquote : 1 ≤ (quote raw).length := by simp [quote]
          omega

theorem newline_not_mem_intercalate {raws : List Str} (h : ∀ raw ∈ raws, '\n' ∉ raw) :
    '\n' ∉ ", ".toList.intercalate (raws.map quote) := by
  have hquote : ∀ raw : Str, '\n' ∉ raw → '\n' ∉ quote raw := by
    intro raw hraw
    simpa [quote] using hraw
  induction raws with
  | nil => simp [List.intercalate]
  | cons raw raws ih =>
      obtain ⟨hraw, hraws⟩ := List.forall_mem_cons.mp h
      cases raws with
      | nil => simpa [List.intercalate] using hquote raw hraw
      | cons next raws =>
          rw [intercalate_cons_cons, List.mem_append, List.mem_append, not_or, not_or]
          exact ⟨hquote raw hraw, by decide, ih hraws⟩

/-- Every value is read back. -/
theorem readWritten_render {value : Written} (h : value.WellFormed) :
    readWritten value.render = some value := by
  cases value with
  | string raw =>
      show (readRaw (raw ++ '"' :: [])).bind _ = _
      rw [readRaw_closed h.1]
      rfl
  | boolean value => cases value <;> rfl
  | integer value =>
      show readWritten (Text.displayInt value) = _
      unfold Text.displayInt
      split
      · rename_i hneg
        show some (Written.integer (-(Nat.ofDigitChars 10 (Nat.toDigits 10 value.natAbs) 0 : Nat))) = _
        rw [Nat.ofDigitChars_ten_toDigits]
        congr 2
        omega
      · rename_i hpos
        have hdigits := @Text.isDigit_of_mem_decimal value.natAbs
        have hread : readWritten (Nat.toDigits 10 value.natAbs)
            = some (.integer (Nat.ofDigitChars 10 (Nat.toDigits 10 value.natAbs) 0 : Nat)) := by
          generalize Nat.toDigits 10 value.natAbs = digits at hdigits
          unfold readWritten
          split
          all_goals first
            | rfl
            | exact absurd (hdigits _ List.mem_cons_self) (by decide)
        rw [hread, Nat.ofDigitChars_ten_toDigits]
        congr 2
        omega
  | array raws =>
      show (readRaws _ (", ".toList.intercalate (raws.map quote) ++ [']'])).map _ = _
      have hfuel : raws.length ≤ (Written.array raws).render.length := by
        have hlength := length_le_intercalate raws
        simp only [Written.render, List.length_append, List.length_cons]
        omega
      rw [readRaws_render (fun raw hmem => (h raw hmem).1) hfuel]
      rfl

/-- A line is one line. -/
theorem newline_not_mem_render {line : Line} (h : line.WellFormed) : '\n' ∉ line.render := by
  cases line with
  | blank => exact List.not_mem_nil
  | header name => simpa [Line.render] using h.not_mem (c := '\n') (by decide)
  | entry key value =>
      show '\n' ∉ key ++ " = ".toList ++ value.render
      rw [List.mem_append, List.mem_append, not_or, not_or]
      refine ⟨⟨h.1.not_mem (by decide), by decide⟩, ?_⟩
      obtain ⟨-, hvalue⟩ := h
      cases value with
      | string raw => simpa [Written.render, quote] using hvalue.2
      | boolean value => cases value <;> decide
      | integer value => exact Text.not_mem_displayInt (by decide) (by decide) value
      | array raws =>
          have hraws := newline_not_mem_intercalate fun raw hmem => (hvalue raw hmem).2
          show '\n' ∉ '[' :: ", ".toList.intercalate (raws.map quote) ++ [']']
          simpa using hraws

/-- Every line is read back. -/
theorem readLine_render {line : Line} (h : line.WellFormed) : readLine line.render = some line := by
  cases line with
  | blank => rfl
  | header name =>
      show some (Line.header (name ++ [']']).dropLast) = _
      rw [List.dropLast_concat]
  | entry key value =>
      obtain ⟨hkey, hvalue⟩ := h
      have hspace : ∀ c ∈ key, (decide (c ≠ ' ')) = true := by
        intro c hmem
        rw [decide_eq_true_iff]
        rintro rfl
        exact hkey.not_mem (by decide) hmem
      have htake : (key ++ " = ".toList ++ value.render).takeWhile (· ≠ ' ') = key := by
        rw [List.append_assoc, List.takeWhile_append_of_pos hspace]
        simp
      have hdrop : (key ++ " = ".toList ++ value.render).dropWhile (· ≠ ' ')
          = " = ".toList ++ value.render := by
        rw [List.append_assoc, List.dropWhile_append_of_pos hspace]
        simp
      have hstrip : Text.stripPrefix " = ".toList (" = ".toList ++ value.render) = some value.render := by
        simp [Text.stripPrefix]
      obtain ⟨c, rest, rfl⟩ := List.exists_cons_of_ne_nil hkey.1
      have hbracket : c ≠ '[' := by
        rintro rfl
        exact hkey.not_mem (by decide) List.mem_cons_self
      show readLine (c :: rest ++ " = ".toList ++ value.render) = _
      rw [List.cons_append, List.cons_append, readLine.eq_3] 
      · rw [← List.cons_append, ← List.cons_append, htake, hdrop, hstrip, Option.bind_some, readWritten_render hvalue]
        rfl
      · intro h
        cases h
      · intro name h
        injection h with h _
        exact hbracket h

/-- **The parser reads TOML.** -/
theorem parse_conforms : Conforms parse := by
  intro document h
  have hsplit : (render document).splitOn '\n' = document.map Line.render ++ [[]] := by
    induction document with
    | nil => rfl
    | cons line document ih =>
        obtain ⟨hline, hdocument⟩ := List.forall_mem_cons.mp h
        have hrender : render (line :: document) = line.render ++ '\n' :: render document := by
          simp [render]
        rw [hrender, List.splitOn_append_cons_self_of_not_mem (newline_not_mem_render hline), ih hdocument]
        rfl
  have hread : (document.map Line.render).mapM readLine = some document := by
    clear hsplit
    induction document with
    | nil => rfl
    | cons line document ih =>
        obtain ⟨hline, hdocument⟩ := List.forall_mem_cons.mp h
        rw [List.map_cons, List.mapM_cons, readLine_render hline, ih hdocument]
        rfl
  rw [parse, hsplit, List.dropLast_concat, hread]
  rfl

end Inspect.Toml
