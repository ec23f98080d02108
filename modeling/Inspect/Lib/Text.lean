import Mathlib.Data.List.DropRight
import Mathlib.Tactic

/-!
# `Lib.Text` — text as a list of characters

The string functions of the standard library that the program uses, on `Str`, the list of the characters of
a text. A UTF-8 text and its characters determine each other; where byte offsets matter they are counted
with `Char.utf8Size`.
-/

namespace Inspect

/-- A text, as the list of its characters. -/
abbrev Str := List Char

/-- Whether something holds of all characters of a text is decided on the text, not on all characters there are. -/
instance (text : Str) (P : Char → Prop) [DecidablePred P] : Decidable (∀ c ∈ text, P c) := List.decidableBAll P text

/-- Whether a text is among others is decided by comparing it with each. -/
instance (text : Str) (texts : List Str) : Decidable (text ∈ texts) := List.instDecidableMemOfLawfulBEq text texts

namespace Text

/-- `char::is_whitespace`: the `White_Space` property of Unicode. -/
def isWhitespace (c : Char) : Bool :=
  (9 ≤ c.toNat && c.toNat ≤ 13) || c.toNat == 0x20 || c.toNat == 0x85 || c.toNat == 0xA0
    || c.toNat == 0x1680 || (0x2000 ≤ c.toNat && c.toNat ≤ 0x200A) || c.toNat == 0x2028
    || c.toNat == 0x2029 || c.toNat == 0x202F || c.toNat == 0x205F || c.toNat == 0x3000

/-- `char::is_control`: the category `Cc` of Unicode. -/
def isControl (c : Char) : Bool :=
  decide (c.toNat < 0x20) || (0x7F ≤ c.toNat && c.toNat ≤ 0x9F)

/-- `str::trim_start`. -/
def trimStart (text : Str) : Str := text.dropWhile isWhitespace

/-- `str::trim_end`. -/
def trimEnd (text : Str) : Str := text.rdropWhile isWhitespace

/-- `str::trim`. -/
def trim (text : Str) : Str := trimEnd (trimStart text)

/-- `str::to_ascii_lowercase`. -/
def toAsciiLowercase (text : Str) : Str := text.map Char.toLower

/-- `str::eq_ignore_ascii_case`. -/
def eqIgnoreAsciiCase (text text' : Str) : Bool := toAsciiLowercase text == toAsciiLowercase text'

/-- `str::replace` with a character as the pattern. -/
def replaceChar (old : Char) (new : Str) (text : Str) : Str :=
  text.flatMap fun c => if c = old then new else [c]

/-- `str::strip_prefix`. -/
def stripPrefix (start text : Str) : Option Str :=
  if start.isPrefixOf text then some (text.drop start.length) else none

/-- `str::find`: where the first occurrence of `needle` starts. -/
def find (needle : Str) : Str → Option Nat
  | [] => if needle = [] then some 0 else none
  | c :: text => if needle.isPrefixOf (c :: text) then some 0 else (find needle text).map (· + 1)

/-- `str::contains`. -/
def contains (needle text : Str) : Bool := (find needle text).isSome

/-- `str::len`: the number of bytes. -/
def len (text : Str) : Nat := (text.map Char.utf8Size).sum

/-- `&text[start..]`, with `start` in bytes; it panics if `start` is not at the start of a character. -/
def sliceFrom : Nat → Str → Option Str
  | 0, text => some text
  | _ + 1, [] => none
  | start + 1, c :: text => if c.utf8Size ≤ start + 1 then sliceFrom (start + 1 - c.utf8Size) text else none

/-- `&text[..stop]`, with `stop` in bytes. -/
def sliceTo : Nat → Str → Option Str
  | 0, _ => some []
  | _ + 1, [] => none
  | stop + 1, c :: text =>
      if c.utf8Size ≤ stop + 1 then (sliceTo (stop + 1 - c.utf8Size) text).map (c :: ·) else none

/-- `text.get(start..stop)`, in bytes: `none` where `&text[start..stop]` panics. -/
def get (start stop : Nat) (text : Str) : Option Str :=
  if stop < start then none else (sliceFrom start text).bind (sliceTo (stop - start))

/-- `str::as_bytes`. -/
def bytes (text : Str) : List UInt8 := text.flatMap String.utf8EncodeChar

/-- `text.replacen(old, new, 1)`. -/
def replaceOnce (old new text : Str) : Str :=
  match find old text with
  | none => text
  | some index => text.take index ++ new ++ text.drop (index + old.length)

/-- `str::replace`, for a pattern that is not empty: `skip` characters still belong to the last match. -/
def replaceAll (old new : Str) (skip : Nat) : Str → Str
  | [] => []
  | c :: text =>
      match skip with
      | skip + 1 => replaceAll old new skip text
      | 0 =>
          if old.isPrefixOf (c :: text) then new ++ replaceAll old new (old.length - 1) text
          else c :: replaceAll old new 0 text

/-- `Display` of an integer. -/
def displayInt (n : Int) : Str :=
  if n < 0 then '-' :: Nat.toDigits 10 n.natAbs else Nat.toDigits 10 n.natAbs

/-! ## Decimal numbers -/

theorem isDigit_of_mem_decimal {n : Nat} : ∀ c ∈ Nat.toDigits 10 n, c.isDigit = true :=
  fun _ hc => Nat.isDigit_of_mem_toDigits (by omega) (by omega) hc

/-- A number is written with digits only. -/
theorem not_mem_decimal {c : Char} (h : c.isDigit = false) (n : Nat) : c ∉ Nat.toDigits 10 n := by
  intro hmem
  rw [isDigit_of_mem_decimal c hmem] at h
  cases h

/-- Two numbers are written in two ways. -/
theorem decimal_injective {n n' : Nat} (h : Nat.toDigits 10 n = Nat.toDigits 10 n') : n = n' := by
  have hvalue := congrArg (fun digits => Nat.ofDigitChars 10 digits 0) h
  rw [Nat.ofDigitChars_ten_toDigits, Nat.ofDigitChars_ten_toDigits] at hvalue
  exact hvalue

/-- An integer is written with digits and a minus sign only. -/
theorem not_mem_displayInt {c : Char} (hdigit : c.isDigit = false) (hdash : c ≠ '-') (n : Int) :
    c ∉ displayInt n := by
  unfold displayInt
  split
  · rw [List.mem_cons, not_or]
    exact ⟨hdash, not_mem_decimal hdigit _⟩
  · exact not_mem_decimal hdigit _

/-! ## Lines -/

/-- A line without the carriage return that belongs to its line end. -/
def stripCarriageReturn (line : Str) : Str :=
  if line.getLast? = some '\r' then line.dropLast else line

/-- `str::lines`: the pieces between line feeds, each without the carriage return before its line feed. A
    piece after the last line feed counts only if it is not empty, and keeps its carriage return. -/
def lines (text : Str) : List Str :=
  let pieces := text.splitOn '\n'
  pieces.dropLast.map stripCarriageReturn
    ++ (match pieces.getLast? with
        | some (c :: rest) => [c :: rest]
        | _ => [])

/-- A line that ends in a line feed is the first of `lines`. -/
theorem lines_cons {line : Str} (h : '\n' ∉ line) (rest : Str) :
    lines (line ++ '\n' :: rest) = stripCarriageReturn line :: lines rest := by
  unfold lines
  have hne : rest.splitOn '\n' ≠ [] := List.splitOn_ne_nil _ _
  rw [List.splitOn_append_cons_self_of_not_mem h]
  dsimp only
  rw [List.dropLast_cons_of_ne_nil hne, List.map_cons, List.getLast?_cons_of_ne_nil hne]
  rfl

/-- Lines that are written with a line feed each are read back, unless they end in a carriage return. -/
theorem lines_flatMap {written : List Str} (h : ∀ line ∈ written, '\n' ∉ line ∧ line.getLast? ≠ some '\r')
    (rest : Str) : lines (written.flatMap (fun line => line ++ ['\n']) ++ rest) = written ++ lines rest := by
  induction written with
  | nil => rfl
  | cons line written ih =>
      obtain ⟨⟨hnewline, hreturn⟩, hwritten⟩ := List.forall_mem_cons.mp h
      have htext : (line :: written).flatMap (fun line => line ++ ['\n']) ++ rest
          = line ++ '\n' :: (written.flatMap (fun line => line ++ ['\n']) ++ rest) := by simp
      rw [htext, lines_cons hnewline, stripCarriageReturn, if_neg hreturn, ih hwritten]
      rfl

/-- The separator is in none of the pieces. -/
theorem sep_not_mem_splitOn {A : Type} [DecidableEq A] (sep : A) (text : List A) :
    ∀ piece ∈ text.splitOn sep, sep ∉ piece := by
  induction text with
  | nil => simp
  | cons c text ih =>
      rw [List.splitOn_cons_eq_if_modifyHead]
      split
      · exact List.forall_mem_cons.mpr ⟨List.not_mem_nil, ih⟩
      · rename_i hc
        cases hpieces : text.splitOn sep with
        | nil => simp
        | cons first pieces =>
            rw [hpieces, List.forall_mem_cons] at ih
            refine List.forall_mem_cons.mpr ⟨?_, ih.2⟩
            rw [List.mem_cons, not_or]
            exact ⟨fun heq => hc (by simp [heq]), ih.1⟩

/-- No line has a line feed in it. -/
theorem newline_not_mem_lines {text line : Str} (h : line ∈ lines text) : '\n' ∉ line := by
  have hpieces := sep_not_mem_splitOn '\n' text
  rcases List.mem_append.mp h with hmem | hmem
  · obtain ⟨piece, hpiece, rfl⟩ := List.mem_map.mp hmem
    have hnot := hpieces piece (List.dropLast_subset _ hpiece)
    unfold stripCarriageReturn
    split
    · exact fun hmem => hnot (List.dropLast_subset _ hmem)
    · exact hnot
  · split at hmem
    · rename_i c rest hlast
      rw [List.mem_singleton.mp hmem]
      exact hpieces _ (List.mem_of_getLast? hlast)
    · cases hmem

/-! ## Occurrences -/

/-- What `find` finds is there. -/
theorem eq_of_find {needle text : Str} {index : Nat} (h : find needle text = some index) :
    text = text.take index ++ needle ++ text.drop (index + needle.length) := by
  induction text generalizing index with
  | nil =>
      unfold find at h
      split_ifs at h with hneedle
      cases h
      rw [hneedle]
      rfl
  | cons c text ih =>
      unfold find at h
      split_ifs at h with hprefix
      · cases h
        obtain ⟨rest, hrest⟩ := List.isPrefixOf_iff_prefix.mp hprefix
        rw [← hrest]
        simp
      · obtain ⟨found, hfound, rfl⟩ := Option.map_eq_some_iff.mp h
        rw [Nat.add_right_comm, List.take_succ_cons, List.drop_succ_cons, List.cons_append, List.cons_append,
          ← ih hfound]

/-- `find` finds every text that is there, at the latest where it is. -/
theorem find_append (front needle rest : Str) :
    ∃ index, find needle (front ++ needle ++ rest) = some index ∧ index ≤ front.length := by
  induction front with
  | nil =>
      refine ⟨0, ?_, Nat.le_refl 0⟩
      rw [List.nil_append]
      cases htext : needle ++ rest with
      | nil => rw [find, if_pos (List.append_eq_nil_iff.mp htext).1]
      | cons c text =>
          have hprefix : needle.isPrefixOf (c :: text) = true := by
            rw [List.isPrefixOf_iff_prefix, ← htext]
            exact List.prefix_append needle rest
          rw [find, if_pos hprefix]
  | cons c front ih =>
      obtain ⟨index, hindex, hle⟩ := ih
      rw [List.cons_append, List.cons_append, find]
      split_ifs
      · exact ⟨0, rfl, Nat.zero_le _⟩
      · rw [hindex]
        exact ⟨index + 1, rfl, Nat.succ_le_succ hle⟩

theorem replaceOnce_of_find {old text : Str} {index : Nat} (h : find old text = some index) (new : Str) :
    replaceOnce old new text = text.take index ++ new ++ text.drop (index + old.length) := by
  rw [replaceOnce, h]

/-- Replacing what is there by something else changes the text. -/
theorem replaceOnce_ne (front rest : Str) {old new : Str} (h : old ≠ new) :
    replaceOnce old new (front ++ old ++ rest) ≠ front ++ old ++ rest := by
  obtain ⟨index, hindex, -⟩ := find_append front old rest
  intro heq
  rw [replaceOnce_of_find hindex] at heq
  have htext := heq.trans (eq_of_find hindex)
  rw [List.append_cancel_right_eq, List.append_cancel_left_eq] at htext
  exact h htext.symm

/-- A text is replaced in itself as a whole. -/
theorem replaceOnce_self (old new : Str) : replaceOnce old new old = new := by
  obtain ⟨index, hindex, hle⟩ := find_append [] old []
  rw [List.nil_append, List.append_nil] at hindex
  obtain rfl : index = 0 := Nat.le_zero.mp hle
  rw [replaceOnce_of_find hindex]
  simp

/-! ## Byte offsets -/

@[simp] theorem len_nil : len [] = 0 := rfl

theorem len_cons (c : Char) (text : Str) : len (c :: text) = c.utf8Size + len text := by
  simp [len]

theorem len_append (text text' : Str) : len (text ++ text') = len text + len text' := by
  simp [len]

theorem eq_nil_of_len_eq_zero {text : Str} (h : len text = 0) : text = [] := by
  cases text with
  | nil => rfl
  | cons c text =>
      rw [len_cons] at h
      have hpos := c.utf8Size_pos
      omega

theorem sliceFrom_append (front rest : Str) : sliceFrom (len front) (front ++ rest) = some rest := by
  induction front with
  | nil =>
      unfold sliceFrom
      rfl
  | cons c front ih =>
      obtain ⟨size, hsize⟩ : ∃ size, c.utf8Size = size + 1 := ⟨c.utf8Size - 1, by have := c.utf8Size_pos; omega⟩
      rw [len_cons, hsize, show size + 1 + len front = (size + len front) + 1 by omega, List.cons_append, sliceFrom,
        hsize, if_pos (by omega), show size + len front + 1 - (size + 1) = len front by omega, ih]

theorem sliceTo_append (front rest : Str) : sliceTo (len front) (front ++ rest) = some front := by
  induction front with
  | nil =>
      unfold sliceTo
      rfl
  | cons c front ih =>
      obtain ⟨size, hsize⟩ : ∃ size, c.utf8Size = size + 1 := ⟨c.utf8Size - 1, by have := c.utf8Size_pos; omega⟩
      rw [len_cons, hsize, show size + 1 + len front = (size + len front) + 1 by omega, List.cons_append, sliceTo,
        hsize, if_pos (by omega), show size + len front + 1 - (size + 1) = len front by omega, ih]
      rfl

/-- A piece of a text is read back at its offsets. -/
theorem get_append (front piece rest : Str) :
    get (len front) (len front + len piece) (front ++ piece ++ rest) = some piece := by
  rw [get, if_neg (by omega), List.append_assoc, sliceFrom_append, Option.bind_some, Nat.add_sub_cancel_left,
    sliceTo_append]

theorem eq_of_sliceFrom {start : Nat} {text rest : Str} (h : sliceFrom start text = some rest) :
    ∃ front, text = front ++ rest ∧ len front = start := by
  induction start, text using sliceFrom.induct with
  | case1 text =>
      unfold sliceFrom at h
      cases h
      exact ⟨[], rfl, rfl⟩
  | case2 start =>
      unfold sliceFrom at h
      cases h
  | case3 start c text hle ih =>
      rw [sliceFrom, if_pos hle] at h
      obtain ⟨front, rfl, hlen⟩ := ih h
      exact ⟨c :: front, rfl, by rw [len_cons]; omega⟩
  | case4 start c text hle =>
      rw [sliceFrom, if_neg hle] at h
      cases h

theorem eq_of_sliceTo {stop : Nat} {text front : Str} (h : sliceTo stop text = some front) :
    ∃ rest, text = front ++ rest ∧ len front = stop := by
  induction stop, text using sliceTo.induct generalizing front with
  | case1 text =>
      unfold sliceTo at h
      cases h
      exact ⟨text, rfl, rfl⟩
  | case2 stop =>
      unfold sliceTo at h
      cases h
  | case3 stop c text hle ih =>
      rw [sliceTo, if_pos hle] at h
      obtain ⟨front', hfront, rfl⟩ := Option.map_eq_some_iff.mp h
      obtain ⟨rest, rfl, hlen⟩ := ih hfront
      exact ⟨rest, rfl, by rw [len_cons]; omega⟩
  | case4 stop c text hle =>
      rw [sliceTo, if_neg hle] at h
      cases h

/-- What `get` returns is a piece of the text, at its offsets. -/
theorem eq_of_get {start stop : Nat} {text piece : Str} (h : get start stop text = some piece) :
    ∃ front rest, text = front ++ piece ++ rest ∧ len front = start ∧ start + len piece = stop := by
  unfold get at h
  split_ifs at h with hlt
  obtain ⟨tail, hfrom, hto⟩ := Option.bind_eq_some_iff.mp h
  obtain ⟨front, rfl, hfront⟩ := eq_of_sliceFrom hfrom
  obtain ⟨rest, rfl, hpiece⟩ := eq_of_sliceTo hto
  exact ⟨front, rest, by rw [List.append_assoc], hfront, by omega⟩

/-- Of two ways to cut a text, the one that cuts earlier in bytes cuts earlier. -/
theorem isPrefix_of_len_le {front rest front' rest' : Str} (h : front ++ rest = front' ++ rest')
    (hle : len front ≤ len front') : ∃ between, front' = front ++ between ∧ rest = between ++ rest' := by
  rcases List.append_eq_append_iff.mp h with ⟨between, hfront, hrest⟩ | ⟨between, hfront, hrest⟩
  · exact ⟨between, hfront, hrest⟩
  · rw [hfront, len_append] at hle
    obtain rfl : between = [] := eq_nil_of_len_eq_zero (by omega)
    exact ⟨[], by simpa using hfront.symm, by simpa using hrest.symm⟩

/-- The first byte of a character is an ASCII character of its own, or starts a longer one. -/
theorem utf8EncodeChar_cases (c : Char) :
    (∃ byte : UInt8, String.utf8EncodeChar c = [byte] ∧ byte.toNat < 128)
      ∨ ∃ (byte : UInt8) (rest : List UInt8), String.utf8EncodeChar c = byte :: rest ∧ 192 ≤ byte.toNat := by
  unfold String.utf8EncodeChar
  dsimp only
  split_ifs with hone htwo hthree
  · refine Or.inl ⟨_, rfl, ?_⟩
    simp only [UInt8.toNat_ofNat']
    omega
  · refine Or.inr ⟨_, _, rfl, ?_⟩
    simp only [UInt8.toNat_ofNat']
    omega
  · refine Or.inr ⟨_, _, rfl, ?_⟩
    simp only [UInt8.toNat_ofNat']
    omega
  · refine Or.inr ⟨_, _, rfl, ?_⟩
    simp only [UInt8.toNat_ofNat']
    omega

/-- A text is determined by its bytes. -/
theorem bytes_injective {text text' : Str} (h : bytes text = bytes text') : text = text' := by
  have hencode : text.utf8Encode = text'.utf8Encode := congrArg List.toByteArray h
  have hdecode := congrArg ByteArray.utf8Decode? hencode
  rw [List.utf8Decode?_utf8Encode, List.utf8Decode?_utf8Encode] at hdecode
  simpa using hdecode

end Text
end Inspect
