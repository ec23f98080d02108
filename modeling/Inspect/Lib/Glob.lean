import Inspect.Lib.Text

/-!
# `Lib.Glob` — patterns with wildcards

A pattern matches a text if the text is the pattern with every wildcard replaced by some text. `Matches` says so on
the characters of the pattern. A matcher works on the pieces between the wildcards instead: `Occur` says that the
pieces occur in a text one after the other, and what is left behind the last of them. The two are connected piece by
piece, where empty pieces (wildcards side by side) can be left out.
-/

namespace Inspect.Glob

variable {star : Char}

/-- `value` is `pattern` with every `star` replaced by some text. -/
inductive Matches (star : Char) : Str → Str → Prop
  | nil : Matches star [] []
  | star (filler : Str) {pattern value : Str} (h : Matches star pattern value) :
      Matches star (star :: pattern) (filler ++ value)
  | char {c : Char} (hc : c ≠ star) {pattern value : Str} (h : Matches star pattern value) :
      Matches star (c :: pattern) (c :: value)

/-- The pieces occur in `value` one after the other, and `rest` is left behind the last of them. -/
inductive Occur : List Str → Str → Str → Prop
  | nil (rest : Str) : Occur [] rest rest
  | cons (filler piece : Str) {pieces : List Str} {value rest : Str} (h : Occur pieces value rest) :
      Occur (piece :: pieces) (filler ++ piece ++ value) rest

/-! ## Patterns character by character -/

theorem matches_nil_iff {value : Str} : Matches star [] value ↔ value = [] := by
  constructor
  · intro h
    cases h
    rfl
  · rintro rfl
    exact .nil

theorem matches_star_iff {pattern value : Str} :
    Matches star (star :: pattern) value ↔ ∃ filler rest, value = filler ++ rest ∧ Matches star pattern rest := by
  constructor
  · intro h
    cases h with
    | star filler h => exact ⟨filler, _, rfl, h⟩
    | char hc h => exact absurd rfl hc
  · rintro ⟨filler, rest, rfl, h⟩
    exact .star filler h

theorem matches_char_iff {c : Char} (hc : c ≠ star) {pattern value : Str} :
    Matches star (c :: pattern) value ↔ ∃ rest, value = c :: rest ∧ Matches star pattern rest := by
  constructor
  · intro h
    cases h with
    | star filler h => exact absurd rfl hc
    | char hc h => exact ⟨_, rfl, h⟩
  · rintro ⟨rest, rfl, h⟩
    exact .char hc h

/-- A pattern without a wildcard matches itself only. -/
theorem matches_iff_eq {pattern value : Str} (h : star ∉ pattern) : Matches star pattern value ↔ pattern = value := by
  induction pattern generalizing value with
  | nil => rw [matches_nil_iff, eq_comm]
  | cons c pattern ih =>
      obtain ⟨hc, hpattern⟩ := not_or.mp (mt List.mem_cons.mpr h)
      rw [matches_char_iff (Ne.symm hc)]
      constructor
      · rintro ⟨rest, rfl, hrest⟩
        rw [(ih hpattern).mp hrest]
      · rintro rfl
        exact ⟨pattern, rfl, (ih hpattern).mpr rfl⟩

/-- A pattern matches itself. -/
theorem matches_self (pattern : Str) : Matches star pattern pattern := by
  induction pattern with
  | nil => exact .nil
  | cons c pattern ih =>
      by_cases hc : c = star
      · subst hc
        exact .star [c] ih
      · exact .char hc ih

/-- What a pattern matches has all characters of it that are not wildcards. -/
theorem Matches.countP_le {pattern value : Str} (h : Matches star pattern value) :
    pattern.countP (· ≠ star) ≤ value.countP (· ≠ star) := by
  induction h with
  | nil => exact Nat.le_refl _
  | star filler h ih =>
      rw [List.countP_cons_of_neg (by simp), List.countP_append]
      omega
  | char hc h ih =>
      rw [List.countP_cons_of_pos (by simpa using hc), List.countP_cons_of_pos (by simpa using hc)]
      omega

/-- A wildcard at the end matches whatever comes. -/
theorem Matches.append_star {pattern value : Str} (h : Matches star pattern value) (rest : Str) :
    Matches star (pattern ++ [star]) (value ++ rest) := by
  induction h with
  | nil =>
      have hone : Matches star [star] (rest ++ []) := .star rest .nil
      rwa [List.append_nil] at hone
  | star filler h ih =>
      rw [List.append_assoc]
      exact .star filler ih
  | char hc h ih => exact .char hc ih

/-- A pattern that does not end with a wildcard does not match a proper prefix of itself. -/
theorem not_matches_proper_prefix {pattern front : Str} (hclosed : pattern.getLast? ≠ some star)
    (hfront : front <+: pattern) (hne : front ≠ pattern) : ¬Matches star pattern front := by
  intro hmatches
  obtain ⟨back, rfl⟩ := hfront
  have hback : back ≠ [] := by
    rintro rfl
    exact hne (List.append_nil front).symm
  obtain ⟨init, last, rfl⟩ := (List.eq_nil_or_concat' back).resolve_left hback
  have hlast : last ≠ star := by
    rintro rfl
    exact hclosed (by rw [← List.append_assoc, List.getLast?_concat])
  -- the last character of the pattern is missing in the prefix
  have hle := hmatches.countP_le
  rw [List.countP_append, List.countP_append, List.countP_cons_of_pos (by simpa using hlast)] at hle
  omega

/-! ## Pieces -/

namespace Occur

theorem nil_iff {value rest : Str} : Occur [] value rest ↔ value = rest := by
  constructor
  · intro h
    cases h
    rfl
  · rintro rfl
    exact .nil value

theorem cons_iff {piece : Str} {pieces : List Str} {value rest : Str} :
    Occur (piece :: pieces) value rest ↔ ∃ filler tail, value = filler ++ piece ++ tail ∧ Occur pieces tail rest := by
  constructor
  · intro h
    cases h with
    | cons filler piece h => exact ⟨filler, _, rfl, h⟩
  · rintro ⟨filler, tail, rfl, h⟩
    exact .cons filler piece h

/-- Text before the first piece does not matter. -/
theorem prepend {piece : Str} {pieces : List Str} {value rest : Str} (front : Str)
    (h : Occur (piece :: pieces) value rest) : Occur (piece :: pieces) (front ++ value) rest := by
  obtain ⟨filler, tail, rfl, htail⟩ := cons_iff.mp h
  exact cons_iff.mpr ⟨front ++ filler, tail, by simp, htail⟩

/-- Text behind the last piece is what is left. -/
theorem append {pieces : List Str} {value rest : Str} (h : Occur pieces value rest) (back : Str) :
    Occur pieces (value ++ back) (rest ++ back) := by
  induction h with
  | nil rest => exact .nil _
  | cons filler piece h ih => exact cons_iff.mpr ⟨filler, _, by simp, ih⟩

/-- What is left can be cut off. -/
theorem cut {pieces : List Str} {value rest : Str} (h : Occur pieces value rest) :
    ∃ front, value = front ++ rest ∧ Occur pieces front [] := by
  induction h with
  | nil rest => exact ⟨[], rfl, .nil []⟩
  | cons filler piece h ih =>
      obtain ⟨front, rfl, hfront⟩ := ih
      exact ⟨filler ++ piece ++ front, by simp, .cons filler piece hfront⟩

/-- Pieces in front of others. -/
theorem append_pieces {pieces pieces' : List Str} {value rest : Str} :
    Occur (pieces ++ pieces') value rest ↔ ∃ middle, Occur pieces value middle ∧ Occur pieces' middle rest := by
  induction pieces generalizing value with
  | nil => simp [nil_iff]
  | cons piece pieces ih =>
      rw [List.cons_append, cons_iff]
      simp only [ih, cons_iff]
      constructor
      · rintro ⟨filler, tail, hvalue, middle, htail, hmiddle⟩
        exact ⟨middle, ⟨filler, tail, hvalue, htail⟩, hmiddle⟩
      · rintro ⟨middle, ⟨filler, tail, hvalue, htail⟩, hmiddle⟩
        exact ⟨filler, tail, hvalue, middle, htail, hmiddle⟩

/-- Empty pieces can be left out if it does not matter what is left. -/
theorem exists_rest_filter_iff {pieces : List Str} {value : Str} :
    (∃ rest, Occur pieces value rest) ↔ ∃ rest, Occur (pieces.filter (· ≠ [])) value rest := by
  induction pieces generalizing value with
  | nil => rfl
  | cons piece pieces ih =>
      by_cases hpiece : piece = []
      · subst hpiece
        rw [List.filter_cons_of_neg (by simp)]
        constructor
        · rintro ⟨rest, hrest⟩
          obtain ⟨filler, tail, rfl, htail⟩ := cons_iff.mp hrest
          obtain ⟨rest, hfound⟩ := ih.mp ⟨rest, htail⟩
          rw [List.append_nil]
          cases hpieces : pieces.filter (· ≠ []) with
          | nil => exact ⟨_, .nil _⟩
          | cons first others =>
              rw [hpieces] at hfound
              exact ⟨rest, hfound.prepend filler⟩
        · intro h
          obtain ⟨rest, hrest⟩ := ih.mpr h
          exact ⟨rest, cons_iff.mpr ⟨[], value, rfl, hrest⟩⟩
      · rw [List.filter_cons_of_pos (by simpa using hpiece)]
        constructor
        · rintro ⟨rest, hrest⟩
          obtain ⟨filler, tail, rfl, htail⟩ := cons_iff.mp hrest
          obtain ⟨rest, hfound⟩ := ih.mp ⟨rest, htail⟩
          exact ⟨rest, .cons filler piece hfound⟩
        · rintro ⟨rest, hrest⟩
          obtain ⟨filler, tail, rfl, htail⟩ := cons_iff.mp hrest
          obtain ⟨rest, hfound⟩ := ih.mpr ⟨rest, htail⟩
          exact ⟨rest, .cons filler piece hfound⟩

/-- Empty pieces before the last can be left out. -/
theorem filter_iff {pieces : List Str} {last value rest : Str} :
    Occur (pieces ++ [last]) value rest ↔ Occur (pieces.filter (· ≠ []) ++ [last]) value rest := by
  induction pieces generalizing value with
  | nil => rfl
  | cons piece pieces ih =>
      rw [List.cons_append]
      by_cases hpiece : piece = []
      · subst hpiece
        rw [List.filter_cons_of_neg (by simp), ← ih]
        constructor
        · intro h
          obtain ⟨filler, tail, rfl, htail⟩ := cons_iff.mp h
          rw [List.append_nil]
          cases hpieces : pieces ++ [last] with
          | nil => simp at hpieces
          | cons first others =>
              rw [hpieces] at htail
              exact htail.prepend filler
        · intro h
          exact cons_iff.mpr ⟨[], value, rfl, h⟩
      · rw [List.filter_cons_of_pos (by simpa using hpiece), List.cons_append, cons_iff, cons_iff]
        simp only [ih]

end Occur

/-! ## Patterns piece by piece -/

/-- A pattern with a wildcard has a first and a last piece. They are empty if a wildcard is at the start or end. -/
theorem splitOn_of_mem {pattern : Str} (h : star ∈ pattern) :
    ∃ first middle last, pattern.splitOn star = first :: (middle ++ [last])
      ∧ (first = [] ↔ pattern.head? = some star) ∧ (last = [] ↔ pattern.getLast? = some star) := by
  induction pattern with
  | nil => cases h
  | cons c pattern ih =>
      rw [List.splitOn_cons_eq_if_modifyHead]
      by_cases hmem : star ∈ pattern
      · obtain ⟨first, middle, last, hsplit, -, hlast⟩ := ih hmem
        have hne : pattern ≠ [] := List.ne_nil_of_mem hmem
        rw [hsplit, List.getLast?_cons_of_ne_nil hne]
        by_cases hc : c = star
        · subst hc
          exact ⟨[], first :: middle, last, by simp, by simp, hlast⟩
        · exact ⟨c :: first, middle, last, by simp [hc], by simp [hc], hlast⟩
      · -- the wildcard is the first character, and the only one
        obtain rfl : star = c := (List.mem_cons.mp h).resolve_right hmem
        refine ⟨[], [], pattern, by simp [List.splitOn_eq_singleton hmem], by simp, ?_⟩
        cases hlast : pattern.getLast? with
        | none => simp [List.getLast?_eq_none_iff.mp hlast]
        | some c =>
            have hmem' := List.mem_of_getLast? hlast
            have hne : pattern ≠ [] := List.ne_nil_of_mem hmem'
            rw [List.getLast?_cons_of_ne_nil hne, hlast]
            simp only [hne, Option.some.injEq, false_iff]
            rintro rfl
            exact hmem hmem'

/-- A pattern is matched by its first piece at the start, the others in between, and nothing left at the end. -/
theorem matches_iff_occur {pattern first : Str} {pieces : List Str} (h : pattern.splitOn star = first :: pieces)
    {value : Str} :
    Matches star pattern value ↔ ∃ rest, value = first ++ rest ∧ Occur pieces rest [] := by
  induction pattern generalizing first pieces value with
  | nil =>
      rw [List.splitOn_nil] at h
      obtain ⟨rfl, rfl⟩ := List.cons.inj h
      simp [matches_nil_iff, Occur.nil_iff]
  | cons c pattern ih =>
      rw [List.splitOn_cons_eq_if_modifyHead] at h
      cases hsplit : pattern.splitOn star with
      | nil => exact absurd hsplit (List.splitOn_ne_nil _ _)
      | cons next others =>
          rw [hsplit] at h
          by_cases hc : c = star
          · subst hc
            simp only [beq_self_eq_true, if_true, List.cons.injEq] at h
            obtain ⟨rfl, rfl⟩ := h
            simp only [matches_star_iff, ih hsplit, List.nil_append, Occur.cons_iff, exists_eq_left']
            constructor
            · rintro ⟨filler, rest, rfl, tail, rfl, htail⟩
              exact ⟨filler, tail, by simp, htail⟩
            · rintro ⟨filler, tail, rfl, htail⟩
              exact ⟨filler, next ++ tail, by simp, tail, rfl, htail⟩
          · simp only [beq_eq_false_iff_ne.mpr hc, Bool.false_eq_true, if_false, List.modifyHead_cons,
              List.cons.injEq] at h
            obtain ⟨rfl, rfl⟩ := h
            simp only [matches_char_iff hc, ih hsplit]
            constructor
            · rintro ⟨rest, rfl, tail, rfl, htail⟩
              exact ⟨tail, rfl, htail⟩
            · rintro ⟨tail, rfl, htail⟩
              exact ⟨next ++ tail, rfl, tail, rfl, htail⟩

end Inspect.Glob
