import Inspect.Lib.Text

/-!
# `Lib.Fields` — texts made of fields and sections

What is read out of a text that was written in lines: a field `key: value`, trimmed; a number; and the part
before and after a line of its own.
-/

namespace Inspect.Text

/-- `str::split_once`: what comes before and after the first occurrence of `sep`. -/
def splitOnce (sep text : Str) : Option (Str × Str) :=
  (find sep text).map fun index => (text.take index, text.drop (index + sep.length))

/-- `str::split` at every occurrence of `sep`, which is not empty: `skip` characters still belong to the last one. -/
def splitStr (sep : Str) (skip : Nat) : Str → List Str
  | [] => [[]]
  | c :: text =>
      match skip with
      | skip + 1 => splitStr sep skip text
      | 0 =>
          if sep.isPrefixOf (c :: text) then [] :: splitStr sep (sep.length - 1) text
          else
            match splitStr sep 0 text with
            | [] => [[c]]
            | piece :: pieces => (c :: piece) :: pieces

/-- A field of a format string that is filled up on the left. -/
def padStart (width : Nat) (fill : Char) (text : Str) : Str := List.replicate (width - text.length) fill ++ text

/-- A field of a format string that is filled up on the right. -/
def padEnd (width : Nat) (fill : Char) (text : Str) : Str := text ++ List.replicate (width - text.length) fill

/-- `str::parse` into an unsigned integer below `bound`: an optional plus sign, then digits only. -/
def parseUnsigned (bound : Nat) (text : Str) : Option Nat :=
  let digits := (stripPrefix ['+'] text).getD text
  if digits ≠ [] ∧ digits.all Char.isDigit = true ∧ Nat.ofDigitChars 10 digits 0 < bound then
    some (Nat.ofDigitChars 10 digits 0)
  else none

/-- A number with zeros in front of it is digits. -/
theorem isDigit_of_mem_padStart {width n : Nat} : ∀ c ∈ padStart width '0' (Nat.toDigits 10 n), c.isDigit = true := by
  intro c hc
  rcases List.mem_append.mp hc with hzero | hdigit
  · rw [List.eq_of_mem_replicate hzero]
    rfl
  · exact isDigit_of_mem_decimal c hdigit

/-- A number that is written in decimal digits is read back, with zeros in front of it as well. -/
theorem parseUnsigned_padStart {bound n : Nat} (h : n < bound) (width : Nat) :
    parseUnsigned bound (padStart width '0' (Nat.toDigits 10 n)) = some n := by
  have hvalue : Nat.ofDigitChars 10 (padStart width '0' (Nat.toDigits 10 n)) 0 = n := by
    unfold padStart
    rw [Nat.ofDigitChars_append, Nat.ofDigitChars_replicate_zero, Nat.mul_zero, Nat.ofDigitChars_ten_toDigits]
  have hplus : stripPrefix ['+'] (padStart width '0' (Nat.toDigits 10 n)) = none := by
    unfold stripPrefix
    rw [if_neg]
    intro hprefix
    obtain ⟨rest, hrest⟩ := List.isPrefixOf_iff_prefix.mp hprefix
    have hdigit := @isDigit_of_mem_padStart width n '+' (by rw [← hrest]; exact List.mem_cons_self)
    exact absurd hdigit (by decide)
  have hne : padStart width '0' (Nat.toDigits 10 n) ≠ [] :=
    fun hnil => Nat.toDigits_ne_nil (List.append_eq_nil_iff.mp hnil).2
  unfold parseUnsigned
  rw [hplus, Option.getD_none, if_pos, hvalue]
  refine ⟨hne, List.all_eq_true.mpr isDigit_of_mem_padStart, ?_⟩
  rw [hvalue]
  exact h

/-- A number that is written in decimal digits is read back. -/
theorem parseUnsigned_toDigits {bound n : Nat} (h : n < bound) :
    parseUnsigned bound (Nat.toDigits 10 n) = some n := by
  have hpadded := parseUnsigned_padStart h 0
  rw [padStart, Nat.zero_sub, List.replicate_zero, List.nil_append] at hpadded
  exact hpadded

/-! ## Trimming -/

/-- Where letters and digits are among the characters. -/
theorem toNat_of_isAlphanum {c : Char} (h : c.isAlphanum = true) :
    (65 ≤ c.toNat ∧ c.toNat ≤ 90 ∨ 97 ≤ c.toNat ∧ c.toNat ≤ 122) ∨ 48 ≤ c.toNat ∧ c.toNat ≤ 57 := by
  have hranges : c.isAlphanum = ((decide (c.val ≥ 'A'.val ∧ c.val ≤ 'Z'.val) || (c.val ≥ 'a'.val && c.val ≤ 'z'.val))
      || (c.val ≥ '0'.val && c.val ≤ '9'.val)) := rfl
  rw [hranges] at h
  simpa [UInt32.le_iff_toNat_le] using h

/-- Letters and digits are not white space. -/
theorem isWhitespace_of_isAlphanum {c : Char} (h : c.isAlphanum = true) : isWhitespace c = false := by
  have hrange := toNat_of_isAlphanum h
  simp only [isWhitespace, Bool.or_eq_false_iff, Bool.and_eq_false_iff, decide_eq_false_iff_not,
    beq_eq_false_iff_ne]
  omega

theorem trimStart_cons {c : Char} (h : isWhitespace c = false) (text : Str) :
    trimStart (c :: text) = c :: text := by
  rw [trimStart, List.dropWhile_cons_of_neg (by simp [h])]

/-- Trimming the end does not go past a character that is not white space. -/
theorem trimEnd_append_cons {c : Char} (h : isWhitespace c = false) (front rest : Str) :
    trimEnd (front ++ c :: rest) = front ++ c :: trimEnd rest := by
  have hdrop : ∀ back : Str, (back ++ c :: front.reverse).dropWhile isWhitespace
      = back.dropWhile isWhitespace ++ c :: front.reverse := by
    intro back
    induction back with
    | nil => rw [List.nil_append, List.dropWhile_cons_of_neg (by simp [h])]; rfl
    | cons d back ih =>
        cases hd : isWhitespace d with
        | true =>
            rw [List.cons_append, List.dropWhile_cons_of_pos hd, List.dropWhile_cons_of_pos hd, ih]
        | false =>
            rw [List.cons_append, List.dropWhile_cons_of_neg (by simp [hd]),
              List.dropWhile_cons_of_neg (by simp [hd])]
            rfl
  show ((front ++ c :: rest).reverse.dropWhile isWhitespace).reverse = _
  rw [List.reverse_append, List.reverse_cons, List.append_assoc, List.singleton_append, hdrop]
  simp [trimEnd, List.rdropWhile]

/-- A text of letters and digits has nothing to trim. -/
theorem trim_of_isAlphanum {text : Str} (h : ∀ c ∈ text, c.isAlphanum = true) : trim text = text := by
  have hstart : trimStart text = text := by
    cases text with
    | nil => rfl
    | cons c text => exact trimStart_cons (isWhitespace_of_isAlphanum (h c List.mem_cons_self)) text
  rw [trim, hstart]
  refine List.rdropWhile_eq_self_iff.mpr fun hne => ?_
  rw [isWhitespace_of_isAlphanum (h _ (List.getLast_mem hne))]
  exact Bool.false_ne_true

/-- A text without white space at its start is not trimmed there. -/
theorem isWhitespace_of_trim_cons {c : Char} {text : Str} (h : trim (c :: text) = c :: text) :
    isWhitespace c = false := by
  by_contra hc
  have hstart : trimStart (c :: text) = trimStart text :=
    List.dropWhile_cons_of_pos (Bool.eq_true_of_not_eq_false hc)
  -- trimming only takes characters away, and here it takes at least the first one
  have hend : (trimEnd (trimStart text)).length ≤ (trimStart text).length :=
    (List.rdropWhile_prefix isWhitespace _).length_le
  have hle : (trimStart text).length ≤ text.length := (List.dropWhile_sublist isWhitespace).length_le
  rw [trim, hstart] at h
  rw [h, List.length_cons] at hend
  omega

/-! ## Fields -/

/-- The value of a field comes back without the white space around it. -/
theorem trim_trimEnd_field {value : Str} (h : trim value = value) : trim (trimEnd (' ' :: value)) = value := by
  cases value with
  | nil => rfl
  | cons c rest =>
      have hc := isWhitespace_of_trim_cons h
      have hvalue : c :: trimEnd rest = c :: rest := by
        have hcut := trimEnd_append_cons hc [] rest
        rw [trim, trimStart_cons hc] at h
        exact hcut.symm.trans h
      have hend : trimEnd (' ' :: c :: rest) = ' ' :: c :: rest := by
        have hcut := trimEnd_append_cons hc [' '] rest
        rw [hvalue] at hcut
        exact hcut
      rw [hend]
      exact h

/-- The first occurrence of a character is behind the characters before it. -/
theorem splitOnce_of_not_mem {sep : Char} {front : Str} (h : sep ∉ front) (rest : Str) :
    splitOnce [sep] (front ++ sep :: rest) = some (front, rest) := by
  have hfind : find [sep] (front ++ sep :: rest) = some front.length := by
    induction front with
    | nil => rw [List.nil_append, find, if_pos (by simp)]; rfl
    | cons c front ih =>
        rw [List.mem_cons, not_or] at h
        rw [List.cons_append, find, if_neg (by simp [h.1]), ih h.2]
        rfl
  rw [splitOnce, hfind, Option.map_some]
  simp

/-- A trimmed line `key: value`. -/
theorem trim_field {key : Str} (hkey : trim key = key) (hne : key ≠ []) (value : Str) :
    trim (key ++ ": ".toList ++ value) = key ++ ':' :: trimEnd (' ' :: value) := by
  obtain ⟨c, key, rfl⟩ := List.exists_cons_of_ne_nil hne
  have hstart : trimStart (c :: key ++ ": ".toList ++ value) = c :: key ++ ':' :: ' ' :: value := by
    rw [List.append_assoc, List.cons_append, trimStart_cons (isWhitespace_of_trim_cons hkey)]
    rfl
  rw [trim, hstart, trimEnd_append_cons (by decide)]

/-! ## Sections -/

/-- A line that is not the marker does not start with the marker's line. -/
theorem not_isPrefixOf_line {marker line : Str} (hmarker : '\n' ∉ marker) (hline : '\n' ∉ line)
    (hne : line ≠ marker) (rest : Str) : (marker ++ ['\n']).isPrefixOf (line ++ '\n' :: rest) = false := by
  rw [Bool.eq_false_iff]
  intro hprefix
  obtain ⟨tail, htail⟩ := List.isPrefixOf_iff_prefix.mp hprefix
  rw [List.append_assoc, List.singleton_append] at htail
  have hsplit := congrArg (splitOnce ['\n']) htail
  rw [splitOnce_of_not_mem hmarker, splitOnce_of_not_mem hline, Option.some.injEq, Prod.mk.injEq] at hsplit
  exact hne hsplit.1.symm

/-- Behind the end of each of the lines comes another line, or the blank line before the marker. -/
theorem not_isPrefixOf_lines {marker : Str} (hmarker : '\n' ∉ marker) (hne : marker ≠ []) {written : List Str}
    (hwritten : ∀ line ∈ written, '\n' ∉ line ∧ line ≠ marker) (rest : Str) :
    (marker ++ ['\n']).isPrefixOf (written.flatMap (fun line => line ++ ['\n']) ++ '\n' :: rest) = false := by
  cases written with
  | nil => exact not_isPrefixOf_line hmarker List.not_mem_nil (Ne.symm hne) rest
  | cons line written =>
      obtain ⟨hline, hlineNe⟩ := hwritten line List.mem_cons_self
      rw [List.flatMap_cons, List.append_assoc, List.append_assoc]
      exact not_isPrefixOf_line hmarker hline hlineNe _

/-- The marker is not found inside a line, only behind it. -/
theorem find_line {needle line : Str} (hline : '\n' ∉ line) (rest : Str) :
    find ('\n' :: needle) (line ++ rest) = (find ('\n' :: needle) rest).map (line.length + ·) := by
  induction line with
  | nil => simp
  | cons c line ih =>
      rw [List.mem_cons, not_or] at hline
      rw [List.cons_append, find, if_neg (by simp [hline.1]), ih hline.2, Option.map_map]
      congr 1
      funext index
      simp only [Function.comp_apply, List.length_cons]
      omega

/-- **A marker line behind a blank line is found there**, if no line before it is the marker. -/
theorem splitOnce_lines {marker : Str} (hmarker : '\n' ∉ marker) (hne : marker ≠ []) {written : List Str}
    (hwritten : ∀ line ∈ written, '\n' ∉ line ∧ line ≠ marker) (rest : Str) :
    splitOnce ('\n' :: marker ++ ['\n'])
        (written.flatMap (fun line => line ++ ['\n']) ++ '\n' :: (marker ++ '\n' :: rest))
      = some (written.flatMap (fun line => line ++ ['\n']), rest) := by
  have hfind : find ('\n' :: marker ++ ['\n'])
      (written.flatMap (fun line => line ++ ['\n']) ++ '\n' :: (marker ++ '\n' :: rest))
      = some (written.flatMap (fun line => line ++ ['\n'])).length := by
    induction written with
    | nil =>
        rw [List.flatMap_nil, List.nil_append, find, if_pos]
        · rfl
        · rw [List.isPrefixOf_iff_prefix]
          exact ⟨rest, by simp⟩
    | cons line written ih =>
        obtain ⟨⟨hline, -⟩, hrest⟩ := List.forall_mem_cons.mp hwritten
        rw [List.flatMap_cons, List.append_assoc, List.append_assoc, List.cons_append, find_line hline]
        have hnot := not_isPrefixOf_lines hmarker hne hrest (marker ++ '\n' :: rest)
        rw [List.singleton_append, find, if_neg]
        rotate_left
        · rw [List.isPrefixOf_cons_cons, beq_self_eq_true, Bool.true_and, hnot]
          exact Bool.false_ne_true
        have ih := ih hrest
        rw [List.cons_append] at ih
        rw [ih]
        simp only [Option.map_some, List.length_append, List.length_singleton]
        rw [Nat.add_comm (List.length _) 1, Nat.add_assoc]
  rw [splitOnce, hfind, Option.map_some]
  congr 2
  · exact List.take_left
  · rw [← List.drop_drop, List.drop_left]
    simp

/-! ## Lower case -/

/-- Only the upper case letters of ASCII are changed. -/
theorem toLower_cases (c : Char) :
    (65 ≤ c.toNat ∧ c.toNat ≤ 90 ∧ c.toLower.toNat = c.toNat + 32) ∨ c.toLower = c := by
  by_cases hupper : c.val ≥ 'A'.val ∧ c.val ≤ 'Z'.val
  · left
    have hlow : 65 ≤ c.toNat := UInt32.le_iff_toNat_le.mp hupper.1
    have hhigh : c.toNat ≤ 90 := UInt32.le_iff_toNat_le.mp hupper.2
    have hlower : c.toLower.val = c.val + ('a'.val - 'A'.val) := by
      unfold Char.toLower
      rw [dif_pos hupper]
    refine ⟨hlow, hhigh, ?_⟩
    show c.toLower.val.toNat = c.val.toNat + 32
    rw [hlower, UInt32.toNat_add]
    exact Nat.mod_eq_of_lt (by show c.toNat + 32 < 2 ^ 32; omega)
  · exact Or.inr (dif_neg hupper)

/-- The lower case of an upper case letter is the letter it comes from. -/
theorem toLower_toUpper (c : Char) : c.toUpper.toLower = c.toLower := by
  by_cases hlower : 'a'.val ≤ c.val ∧ c.val ≤ 'z'.val
  · have hlow : 97 ≤ c.val.toNat := UInt32.le_iff_toNat_le.mp hlower.1
    have hhigh : c.val.toNat ≤ 122 := UInt32.le_iff_toNat_le.mp hlower.2
    have hupper : c.toUpper.val = c.val + ('A'.val - 'a'.val) := by
      unfold Char.toUpper
      rw [dif_pos hlower]
    have hnat : c.toUpper.val.toNat = c.val.toNat - 32 := by
      have hshift : ('A'.val - 'a'.val).toNat = 2 ^ 32 - 32 := rfl
      rw [hupper, UInt32.toNat_add, hshift]
      omega
    have hback : c.toUpper.toLower.val = c.toUpper.val + ('a'.val - 'A'.val) := by
      unfold Char.toLower
      refine congrArg Char.val (dif_pos ?_)
      rw [ge_iff_le, UInt32.le_iff_toNat_le, UInt32.le_iff_toNat_le, hnat]
      have hfirst : 'A'.val.toNat = 65 := rfl
      have hlast : 'Z'.val.toNat = 90 := rfl
      omega
    have hsame : c.toLower = c := by
      refine dif_neg fun hletter => ?_
      have hle : c.val.toNat ≤ 90 := UInt32.le_iff_toNat_le.mp hletter.2
      omega
    rw [hsame]
    refine Char.ext (UInt32.toNat_inj.mp ?_)
    have hshift : ('a'.val - 'A'.val).toNat = 32 := rfl
    rw [hback, UInt32.toNat_add, hnat, hshift]
    omega
  · have hsame : c.toUpper = c := dif_neg hlower
    rw [hsame]

theorem toLower_toLower (c : Char) : c.toLower.toLower = c.toLower := by
  rcases toLower_cases c with ⟨hlow, -, hlower⟩ | hsame
  · rcases toLower_cases c.toLower with ⟨-, hhigh, -⟩ | hsame
    · omega
    · exact hsame
  · rw [hsame, hsame]

theorem isWhitespace_toLower (c : Char) : isWhitespace c.toLower = isWhitespace c := by
  rcases toLower_cases c with ⟨hlow, hhigh, hlower⟩ | hsame
  · -- a letter, and the letter it becomes
    have hletter : ∀ n, 65 ≤ n → n ≤ 122 → ∀ c : Char, c.toNat = n → isWhitespace c = false := by
      rintro n hn hn' c rfl
      simp only [isWhitespace, Bool.or_eq_false_iff, Bool.and_eq_false_iff, decide_eq_false_iff_not,
        beq_eq_false_iff_ne]
      omega
    rw [hletter _ (by omega) (by omega) c rfl, hletter _ (by omega) (by omega) _ hlower]
  · rw [hsame]

theorem toAsciiLowercase_toAsciiLowercase (text : Str) :
    toAsciiLowercase (toAsciiLowercase text) = toAsciiLowercase text := by
  unfold toAsciiLowercase
  rw [List.map_map]
  exact List.map_congr_left fun c _ => toLower_toLower c

/-! ## Parts of a text -/

theorem contains_of_infix {needle text : Str} (h : needle <:+: text) : contains needle text = true := by
  obtain ⟨front, rest, rfl⟩ := h
  obtain ⟨index, hindex, -⟩ := find_append front needle rest
  rw [contains, hindex, Option.isSome_some]

theorem infix_of_contains {needle text : Str} (h : contains needle text = true) : needle <:+: text := by
  obtain ⟨index, hindex⟩ := Option.isSome_iff_exists.mp h
  exact ⟨_, _, (eq_of_find hindex).symm⟩

theorem trim_infix (text : Str) : trim text <:+: text :=
  (List.rdropWhile_prefix _ _).isInfix.trans (List.dropWhile_suffix _).isInfix

/-- The first piece starts the text, and every other piece is somewhere in it. -/
theorem pieces_infix (sep : Char) (text : Str) :
    ∀ first pieces, text.splitOn sep = first :: pieces → first <+: text ∧ ∀ piece ∈ pieces, piece <:+: text := by
  induction text with
  | nil =>
      intro first pieces hsplit
      cases hsplit
      exact ⟨List.nil_prefix, fun _ hmem => by cases hmem⟩
  | cons c text ih =>
      intro first pieces hsplit
      rw [List.splitOn_cons_eq_if_modifyHead] at hsplit
      cases hrest : text.splitOn sep with
      | nil => exact absurd hrest (List.splitOn_ne_nil _ _)
      | cons next others =>
          obtain ⟨hnext, hothers⟩ := ih next others hrest
          have hcons : ∀ piece, piece <:+: text → piece <:+: c :: text :=
            fun piece hpiece => hpiece.trans (List.suffix_cons c text).isInfix
          rw [hrest] at hsplit
          split at hsplit
          · cases hsplit
            refine ⟨List.nil_prefix, ?_⟩
            rw [List.forall_mem_cons]
            exact ⟨hcons next hnext.isInfix, fun piece hmem => hcons piece (hothers piece hmem)⟩
          · cases hsplit
            exact ⟨List.cons_prefix_cons.mpr ⟨rfl, hnext⟩, fun piece hmem => hcons piece (hothers piece hmem)⟩

theorem infix_of_mem_splitOn {sep : Char} {text piece : Str} (h : piece ∈ text.splitOn sep) : piece <:+: text := by
  cases hpieces : text.splitOn sep with
  | nil => exact absurd hpieces (List.splitOn_ne_nil _ _)
  | cons first pieces =>
      obtain ⟨hfirst, hothers⟩ := pieces_infix sep text first pieces hpieces
      rw [hpieces] at h
      rcases List.mem_cons.mp h with rfl | hmem
      · exact hfirst.isInfix
      · exact hothers piece hmem

theorem infix_of_mem_lines {text line : Str} (h : line ∈ lines text) : line <:+: text := by
  rcases List.mem_append.mp h with hmem | hmem
  · obtain ⟨piece, hpiece, rfl⟩ := List.mem_map.mp hmem
    have hinfix := infix_of_mem_splitOn (List.dropLast_subset _ hpiece)
    unfold stripCarriageReturn
    split
    · exact (List.dropLast_prefix piece).isInfix.trans hinfix
    · exact hinfix
  · split at hmem
    · rename_i c rest hlast
      rw [List.mem_singleton.mp hmem]
      exact infix_of_mem_splitOn (List.mem_of_getLast? hlast)
    · cases hmem

/-! ## Pieces and lines -/

theorem intercalate_concat (sep last : Str) {init : List Str} (h : init ≠ []) :
    sep.intercalate (init ++ [last]) = sep.intercalate init ++ (sep ++ last) := by
  induction init with
  | nil => exact absurd rfl h
  | cons first init ih =>
      cases init with
      | nil => rw [List.singleton_append, List.intercalate_cons_cons, List.intercalate_singleton,
          List.intercalate_singleton, List.append_assoc]
      | cons second init =>
          rw [List.cons_append, List.cons_append, List.intercalate_cons_cons, List.intercalate_cons_cons,
            ← List.cons_append, ih (List.cons_ne_nil _ _), List.append_assoc, List.append_assoc, List.append_assoc]

/-- Without carriage returns, and with something behind the last line feed, the lines are the pieces between the line
    feeds. -/
theorem lines_eq_splitOn {text : Str} (hreturn : '\r' ∉ text) (hlast : text.getLast? ≠ some '\n') (hne : text ≠ []) :
    lines text = text.splitOn '\n' := by
  obtain ⟨init, last, hpieces⟩ := (List.eq_nil_or_concat' (text.splitOn '\n')).resolve_left
    (List.splitOn_ne_nil _ _)
  have htext : ['\n'].intercalate (init ++ [last]) = text := by
    rw [← hpieces]
    exact List.intercalate_splitOn _
  have hlastNe : last ≠ [] := by
    rintro rfl
    rcases List.eq_nil_or_concat' init with rfl | ⟨front, piece, rfl⟩
    · exact hne htext.symm
    · refine hlast ?_
      rw [← htext, intercalate_concat _ _ (by simp), List.append_nil, List.getLast?_concat]
  have hstrip : ∀ piece ∈ init, stripCarriageReturn piece = piece := by
    intro piece hpiece
    have hnot : '\r' ∉ piece := by
      intro hmem
      have hpart : piece <:+: text := @infix_of_mem_splitOn '\n' text piece (by rw [hpieces]; simp [hpiece])
      exact hreturn (hpart.subset hmem)
    refine if_neg ?_
    intro hget
    exact hnot (List.mem_of_getLast? hget)
  obtain ⟨c, rest, rfl⟩ := List.exists_cons_of_ne_nil hlastNe
  unfold lines
  rw [hpieces]
  dsimp only
  rw [List.dropLast_concat, List.getLast?_concat, List.map_congr_left hstrip, List.map_id']

/-! ## Blank texts and lines -/

/-- A text is blank if it is made of whitespace. -/
theorem trim_eq_nil_iff {text : Str} : trim text = [] ↔ ∀ c ∈ text, isWhitespace c = true := by
  unfold trim trimEnd trimStart
  rw [List.rdropWhile_eq_nil_iff]
  constructor
  · intro h c hmem
    by_contra hc
    have hne : text.dropWhile isWhitespace ≠ [] := by
      intro hnil
      exact hc (List.dropWhile_eq_nil_iff.mp hnil c hmem)
    have hhead := List.head_dropWhile_not isWhitespace hne
    rw [h _ (List.head_mem hne)] at hhead
    cases hhead
  · intro h c hmem
    exact h c ((List.dropWhile_suffix _).subset hmem)

/-- The carriage return of a line end is whitespace. -/
theorem trim_stripCarriageReturn {line : Str} : trim (stripCarriageReturn line) = [] ↔ trim line = [] := by
  unfold stripCarriageReturn
  split_ifs with hreturn
  · obtain ⟨front, rfl⟩ := List.getLast?_eq_some_iff.mp hreturn
    rw [List.dropLast_concat, trim_eq_nil_iff, trim_eq_nil_iff, List.forall_mem_append]
    refine (and_iff_left ?_).symm
    intro c hmem
    rw [List.mem_singleton.mp hmem]
    decide
  · exact Iff.rfl

/-- The lines of two texts, of which the first ends with a line feed. -/
theorem lines_append (front rest : Str) : lines (front ++ '\n' :: rest) = lines (front ++ ['\n']) ++ lines rest := by
  induction hlen : front.length using Nat.strongRecOn generalizing front with
  | _ n ih =>
      by_cases hnewline : '\n' ∈ front
      · obtain ⟨line, front', rfl, hline⟩ := List.eq_append_cons_of_mem hnewline
        have hshort : front'.length < n := by
          rw [← hlen, List.length_append, List.length_cons]
          omega
        rw [List.append_assoc, List.append_assoc, List.cons_append, List.cons_append, lines_cons hline,
          lines_cons hline, ih _ hshort front' rfl, List.cons_append]
      · rw [lines_cons hnewline, lines_cons hnewline]
        rfl

/-- A text that ends with a line feed has a line. -/
theorem lines_ne_nil (front : Str) : lines (front ++ ['\n']) ≠ [] := by
  by_cases hnewline : '\n' ∈ front
  · obtain ⟨line, front', rfl, hline⟩ := List.eq_append_cons_of_mem hnewline
    rw [List.append_assoc, List.cons_append, lines_cons hline]
    exact List.cons_ne_nil _ _
  · rw [lines_cons hnewline]
    exact List.cons_ne_nil _ _

/-- The length of lines that are written with a line feed each. -/
theorem len_flatMap_newline (written : List Str) :
    len (written.flatMap fun line => line ++ ['\n']) = (written.map fun line => len line + 1).sum := by
  induction written with
  | nil => rfl
  | cons line written ih =>
      rw [List.flatMap_cons, len_append, len_append, ih, List.map_cons, List.sum_cons]
      rfl

end Inspect.Text
