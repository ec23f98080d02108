import Inspect.Lib.Fields

/-!
# `Lib.Split` — splitting at a text

What `split` makes of pieces that were joined, and of white space at the ends of the whole; lines that keep their line
feeds; and the words between white space.
-/

namespace Inspect.Text

section Split

variable {sep : Str}

theorem splitStr_ne_nil (sep : Str) (skip : Nat) (text : Str) : splitStr sep skip text ≠ [] := by
  induction text generalizing skip with
  | nil => exact List.cons_ne_nil _ _
  | cons c text ih =>
      cases skip with
      | succ skip => exact ih skip
      | zero =>
          rw [splitStr]
          split
          · exact List.cons_ne_nil _ _
          · split
            · exact List.cons_ne_nil _ _
            · exact List.cons_ne_nil _ _

/-- What still belongs to a separator is passed over. -/
theorem splitStr_skip {skip : Nat} {text : Str} (h : skip ≤ text.length) :
    splitStr sep skip text = splitStr sep 0 (text.drop skip) := by
  induction skip generalizing text with
  | zero => rw [List.drop_zero]
  | succ skip ih =>
      cases text with
      | nil => exact absurd h (Nat.not_succ_le_zero skip)
      | cons c text => exact ih (Nat.le_of_succ_le_succ h)

/-- A separator ends the first piece. -/
theorem splitStr_sep (hne : sep ≠ []) (rest : Str) : splitStr sep 0 (sep ++ rest) = [] :: splitStr sep 0 rest := by
  obtain ⟨c, tail, rfl⟩ := List.exists_cons_of_ne_nil hne
  have hstarts : (c :: tail).isPrefixOf (c :: (tail ++ rest)) = true :=
    List.isPrefixOf_iff_prefix.mpr (List.prefix_append (c :: tail) rest)
  have hlen : (c :: tail).length - 1 = tail.length := rfl
  rw [List.cons_append, splitStr, if_pos hstarts, hlen, splitStr_skip (by simp), List.drop_left]

/-- Another character belongs to the first piece. -/
theorem splitStr_cons {c : Char} {text : Str} (h : sep.isPrefixOf (c :: text) = false) :
    splitStr sep 0 (c :: text) = (splitStr sep 0 text).modifyHead (c :: ·) := by
  have hne := splitStr_ne_nil sep 0 text
  rw [splitStr, if_neg (by simp [h])]
  cases hpieces : splitStr sep 0 text with
  | nil => exact absurd hpieces hne
  | cons piece pieces => rfl

/-! ## Pieces that were joined -/

theorem find_cons_succ {needle : Str} {c : Char} {text : Str} {index : Nat}
    (h : find needle (c :: text) = some (index + 1)) :
    needle.isPrefixOf (c :: text) = false ∧ find needle text = some index := by
  unfold find at h
  split at h
  · cases h
  · rename_i hstarts
    obtain ⟨found, hfound, hindex⟩ := Option.map_eq_some_iff.mp h
    rw [hfound, Nat.succ.inj hindex]
    exact ⟨Bool.eq_false_iff.mpr hstarts, rfl⟩

/-- A piece in which, with the separator behind it, the separator is only at the end. -/
theorem splitStr_append (hne : sep ≠ []) {piece : Str} (h : find sep (piece ++ sep) = some piece.length) (rest : Str) :
    splitStr sep 0 (piece ++ (sep ++ rest)) = piece :: splitStr sep 0 rest := by
  induction piece with
  | nil => exact splitStr_sep hne rest
  | cons c piece ih =>
      obtain ⟨hstarts, hfind⟩ := @find_cons_succ sep c (piece ++ sep) piece.length h
      have hnot : sep.isPrefixOf (c :: (piece ++ (sep ++ rest))) = false := by
        refine Bool.eq_false_iff.mpr fun hlong => Bool.eq_false_iff.mp hstarts ?_
        rw [List.isPrefixOf_iff_prefix] at hlong ⊢
        rw [← List.append_assoc, ← List.cons_append] at hlong
        refine List.prefix_of_prefix_length_le hlong (List.prefix_append _ _) ?_
        rw [List.length_cons, List.length_append]
        omega
      rw [List.cons_append, splitStr_cons hnot, ih hfind, List.modifyHead_cons]

theorem splitStr_of_not_contains {piece : Str} (h : contains sep piece = false) : splitStr sep 0 piece = [piece] := by
  induction piece with
  | nil => rfl
  | cons c piece ih =>
      unfold contains find at h
      split at h
      · cases h
      · rename_i hstarts
        rw [Option.isSome_map] at h
        rw [splitStr_cons (Bool.eq_false_iff.mpr hstarts), ih h, List.modifyHead_cons]

/-- **Pieces that were joined are the pieces of the whole**, if the separator is only between them. -/
theorem splitStr_intercalate (hne : sep ≠ []) {pieces : List Str} (hpieces : pieces ≠ [])
    (h : ∀ piece ∈ pieces, contains sep piece = false ∧ find sep (piece ++ sep) = some piece.length) :
    splitStr sep 0 (sep.intercalate pieces) = pieces := by
  induction pieces with
  | nil => exact absurd rfl hpieces
  | cons piece pieces ih =>
      obtain ⟨⟨hfree, hfind⟩, hrest⟩ := List.forall_mem_cons.mp h
      cases pieces with
      | nil => rw [List.intercalate_singleton, splitStr_of_not_contains hfree]
      | cons next pieces =>
          rw [List.intercalate_cons_cons, List.append_assoc, splitStr_append hne hfind,
            ih (List.cons_ne_nil _ _) hrest]

/-! ## White space at the ends -/

/-- A character that is no part of the separator does not make one. -/
theorem isPrefixOf_concat {c : Char} (h : c ∉ sep) (text : Str) : sep.isPrefixOf (text ++ [c]) = sep.isPrefixOf text := by
  rw [Bool.eq_iff_iff, List.isPrefixOf_iff_prefix, List.isPrefixOf_iff_prefix]
  refine ⟨fun hstarts => ?_, fun hstarts => hstarts.trans (List.prefix_append _ _)⟩
  rcases List.prefix_concat_iff.mp hstarts with rfl | hstarts
  · exact absurd (List.mem_append_right _ List.mem_cons_self) h
  · exact hstarts

/-- Such a character behind the whole belongs to the last piece. -/
theorem splitStr_concat (hne : sep ≠ []) {c : Char} (hc : c ∉ sep) {skip : Nat} {text : Str} (h : skip ≤ text.length) :
    ∃ init last, splitStr sep skip text = init ++ [last] ∧ splitStr sep skip (text ++ [c]) = init ++ [last ++ [c]] := by
  induction text generalizing skip with
  | nil =>
      obtain rfl : skip = 0 := Nat.le_zero.mp h
      have hstarts : sep.isPrefixOf [c] = false := by
        rw [← List.nil_append [c], isPrefixOf_concat hc, Bool.eq_false_iff]
        exact fun hstarts => hne (List.prefix_nil.mp (List.isPrefixOf_iff_prefix.mp hstarts))
      exact ⟨[], [], rfl, splitStr_cons hstarts⟩
  | cons d text ih =>
      cases skip with
      | succ skip => exact ih (Nat.le_of_succ_le_succ h)
      | zero =>
          cases hstarts : sep.isPrefixOf (d :: text) with
          | true =>
              have hstarts' : sep.isPrefixOf (d :: (text ++ [c])) = true := by
                rw [← List.cons_append, isPrefixOf_concat hc, hstarts]
              have hlen : sep.length - 1 ≤ text.length := by
                have hle := (List.isPrefixOf_iff_prefix.mp hstarts).length_le
                rw [List.length_cons] at hle
                omega
              obtain ⟨init, last, hsplit, hsplit'⟩ := ih hlen
              refine ⟨[] :: init, last, ?_, ?_⟩
              · rw [splitStr, if_pos hstarts, hsplit, List.cons_append]
              · rw [List.cons_append, splitStr, if_pos hstarts', hsplit', List.cons_append]
          | false =>
              have hstarts' : sep.isPrefixOf (d :: (text ++ [c])) = false := by
                rw [← List.cons_append, isPrefixOf_concat hc, hstarts]
              obtain ⟨init, last, hsplit, hsplit'⟩ := ih (Nat.zero_le _)
              rw [List.cons_append, splitStr_cons hstarts, splitStr_cons hstarts', hsplit, hsplit']
              cases init with
              | nil => exact ⟨[], d :: last, rfl, rfl⟩
              | cons piece init => exact ⟨(d :: piece) :: init, last, rfl, rfl⟩

theorem trim_cons {c : Char} (h : isWhitespace c = true) (text : Str) : trim (c :: text) = trim text := by
  rw [trim, trimStart, List.dropWhile_cons_of_pos h]
  rfl

theorem trimEnd_concat {c : Char} (h : isWhitespace c = true) (text : Str) : trimEnd (text ++ [c]) = trimEnd text :=
  List.rdropWhile_concat_pos _ _ _ h

theorem trim_concat {c : Char} (h : isWhitespace c = true) (text : Str) : trim (text ++ [c]) = trim text := by
  induction text with
  | nil => exact trim_cons h []
  | cons d text ih =>
      cases hd : isWhitespace d with
      | true => rw [List.cons_append, trim_cons hd, trim_cons hd, ih]
      | false =>
          rw [List.cons_append, trim, trimStart_cons hd, ← List.cons_append, trimEnd_concat h, trim, trimStart_cons hd]

/-- A trimmed text has nothing to trim. -/
theorem trim_trim (text : Str) : trim (trim text) = trim text := by
  unfold trim
  cases hstart : trimStart text with
  | nil => rfl
  | cons c rest =>
      have hc : isWhitespace c = false := by
        have hne : trimStart text ≠ [] := by
          rw [hstart]
          exact List.cons_ne_nil _ _
        have hhead : (trimStart text).head hne = c := by simp [hstart]
        rw [← hhead]
        exact List.head_dropWhile_not isWhitespace hne
      have hend := trimEnd_append_cons hc []
      simp only [List.nil_append] at hend
      rw [hend, trimStart_cons hc, hend]
      congr 1
      exact List.rdropWhile_idempotent isWhitespace rest

/-- **The trimmed pieces of a text are those of the trimmed text.** -/
theorem map_trim_splitStr (hne : sep ≠ []) (hsep : ∀ c ∈ sep, isWhitespace c = false) (text : Str) :
    (splitStr sep 0 (trim text)).map trim = (splitStr sep 0 text).map trim := by
  have hnot : ∀ c, isWhitespace c = true → c ∉ sep := by
    intro c hc hmem
    rw [hsep c hmem] at hc
    cases hc
  have hend : ∀ text, (splitStr sep 0 (trimEnd text)).map trim = (splitStr sep 0 text).map trim := by
    intro text
    induction text using List.reverseRecOn with
    | nil => rfl
    | append_singleton text c ih =>
        cases hc : isWhitespace c with
        | false =>
            have hkeep : trimEnd (text ++ [c]) = text ++ [c] := trimEnd_append_cons hc text []
            rw [hkeep]
        | true =>
            obtain ⟨init, last, hsplit, hsplit'⟩ := splitStr_concat hne (hnot c hc) (Nat.zero_le text.length)
            rw [trimEnd_concat hc, ih, hsplit, hsplit', List.map_append, List.map_append, List.map_singleton,
              List.map_singleton, trim_concat hc]
  rw [trim, hend]
  induction text with
  | nil => rfl
  | cons c text ih =>
      cases hc : isWhitespace c with
      | false => rw [trimStart_cons hc]
      | true =>
          have hstarts : sep.isPrefixOf (c :: text) = false := by
            obtain ⟨d, tail, rfl⟩ := List.exists_cons_of_ne_nil hne
            refine Bool.eq_false_iff.mpr fun hstarts => hnot c hc ?_
            rw [(List.cons_prefix_cons.mp (List.isPrefixOf_iff_prefix.mp hstarts)).1]
            exact List.mem_cons_self
          rw [trimStart, List.dropWhile_cons_of_pos hc, ← trimStart, ih, splitStr_cons hstarts]
          cases splitStr sep 0 text with
          | nil => rfl
          | cons piece pieces => rw [List.modifyHead_cons, List.map_cons, List.map_cons, trim_cons hc]

end Split

/-! ## Lines -/

/-- A text without line feeds is one line. -/
theorem lines_of_not_mem {line : Str} (h : '\n' ∉ line) (hne : line ≠ []) : lines line = [line] := by
  obtain ⟨c, rest, rfl⟩ := List.exists_cons_of_ne_nil hne
  rw [lines, List.splitOn_eq_singleton h]
  rfl

/-- `split_inclusive('\n')`: every line feed ends a piece and belongs to it. -/
def splitInclusive : Str → List Str
  | [] => []
  | c :: text =>
      if c = '\n' then [c] :: splitInclusive text
      else
        match splitInclusive text with
        | [] => [[c]]
        | line :: lines => (c :: line) :: lines

theorem flatten_splitInclusive (text : Str) : (splitInclusive text).flatten = text := by
  induction text with
  | nil => rfl
  | cons c text ih =>
      rw [splitInclusive]
      split
      · rw [List.flatten_cons, ih, List.singleton_append]
      · cases hlines : splitInclusive text with
        | nil =>
            rw [hlines] at ih
            rw [← ih]
            rfl
        | cons line lines =>
            rw [hlines] at ih
            rw [← ih]
            rfl

/-! ## Words -/

/-- `str::split_whitespace`. -/
def splitWhitespace (text : Str) : List Str := (text.splitOnP isWhitespace).filter fun piece => piece ≠ []

/-- White space in front of a text belongs to no word. -/
theorem splitWhitespace_cons {c : Char} (h : isWhitespace c = true) (text : Str) :
    splitWhitespace (c :: text) = splitWhitespace text := by
  have hsplit := List.splitOnP_append_cons (p := isWhitespace) [] text h
  rw [List.nil_append, List.splitOnP_nil] at hsplit
  rw [splitWhitespace, hsplit]
  rfl

/-- White space after a text belongs to no word. -/
theorem splitWhitespace_concat {c : Char} (h : isWhitespace c = true) (text : Str) :
    splitWhitespace (text ++ [c]) = splitWhitespace text := by
  rw [splitWhitespace, List.splitOnP_append_cons text [] h, List.filter_append, List.splitOnP_nil]
  exact List.append_nil _

theorem splitWhitespace_trimEnd (text : Str) : splitWhitespace (trimEnd text) = splitWhitespace text := by
  induction text using List.reverseRecOn with
  | nil => rfl
  | append_singleton text c ih =>
      cases hc : isWhitespace c with
      | true => rw [trimEnd_concat hc, ih, splitWhitespace_concat hc]
      | false =>
          have hkeep : trimEnd (text ++ [c]) = text ++ [c] := trimEnd_append_cons hc text []
          rw [hkeep]

/-- A word at the front of a text. -/
theorem splitWhitespace_word {word : Str} (hne : word ≠ []) (hword : ∀ c ∈ word, isWhitespace c = false) {c : Char}
    (h : isWhitespace c = true) (text : Str) : splitWhitespace (word ++ c :: text) = word :: splitWhitespace text := by
  rw [splitWhitespace, List.splitOnP_append_cons_of_forall_mem hword c h, List.filter_cons_of_pos (by simp [hne])]
  rfl

end Inspect.Text
