import Inspect.Filters.Types
import Inspect.Lib.Fields
import Inspect.Lib.Glob

/-!
# `Filters.Correctness.Glob` — what `glob_match` matches

`glob_match` looks for the pieces of the pattern from left to right and takes the first occurrence of each. That is
right for every piece but the last one: if the pattern does not end with a wildcard, the last piece has to be found at
the end of the value, and its first occurrence may be further left. So the pattern has to match the value and none of
its proper prefixes; `*.example.com` does not match `a.example.com.example.com`.
-/

namespace Inspect.Filters

open Glob

/-! ## The search -/

/-- What the loop finds is there. -/
theorem occur_of_globParts {parts : List Str} {value rest : Str} (h : globParts false parts value = some rest) :
    Occur parts value rest := by
  induction parts generalizing value with
  | nil =>
      cases h
      exact .nil _
  | cons part parts ih =>
      obtain ⟨tail, hfound, htail⟩ := Option.bind_eq_some_iff.mp h
      obtain ⟨index, hindex, rfl⟩ := Option.map_eq_some_iff.mp hfound
      rw [Text.eq_of_find hindex]
      exact .cons _ part (ih htail)

/-- The loop finds what is there, as far left as possible. -/
theorem globParts_of_occur {parts : List Str} {value rest : Str} (h : Occur parts value rest) :
    ∃ rest', globParts false parts value = some rest' ∧ rest <:+ rest' := by
  induction parts generalizing value rest with
  | nil =>
      rw [Occur.nil_iff.mp h]
      exact ⟨rest, rfl, List.suffix_refl rest⟩
  | cons part parts ih =>
      obtain ⟨filler, tail, rfl, htail⟩ := Occur.cons_iff.mp h
      obtain ⟨index, hindex, hle⟩ := Text.find_append filler part tail
      have hdrop : (filler ++ part ++ tail).drop (index + part.length)
          = (filler ++ part).drop (index + part.length) ++ tail := by
        apply List.drop_append_of_le_length
        rw [List.length_append]
        omega
      -- what is skipped is shorter, so there is more text before the other parts
      obtain ⟨rest', hsuffix, hoccur⟩ : ∃ rest', rest <:+ rest'
          ∧ Occur parts ((filler ++ part).drop (index + part.length) ++ tail) rest' := by
        cases parts with
        | nil =>
            rw [← Occur.nil_iff.mp htail]
            exact ⟨_, List.suffix_append _ tail, .nil _⟩
        | cons next parts => exact ⟨rest, List.suffix_refl rest, htail.prepend _⟩
      obtain ⟨rest'', hloop, hrest⟩ := ih hoccur
      refine ⟨rest'', ?_, hsuffix.trans hrest⟩
      show (((Text.find part (filler ++ part ++ tail)).map _).bind _) = _
      rw [hindex, Option.map_some, Option.bind_some, hdrop]
      exact hloop

/-! ## Patterns with a wildcard -/

section Wildcard

variable {pattern first last : Str} {middle : List Str}

/-- What the loop of `glob_match` does with the pieces of a pattern. -/
theorem globParts_pieces (first : Str) (pieces : List Str) (value : Str) :
    globParts (first ≠ []) ((first :: pieces).filter (· ≠ [])) value
      = (Text.stripPrefix first value).bind (globParts false (pieces.filter (· ≠ []))) := by
  by_cases hfirst : first = []
  · subst hfirst
    rw [List.filter_cons_of_neg (by simp)]
    simp [Text.stripPrefix]
  · rw [List.filter_cons_of_pos (by simpa using hfirst)]
    simp [globParts, hfirst]

theorem stripPrefix_eq_some_iff {start text rest : Str} :
    Text.stripPrefix start text = some rest ↔ text = start ++ rest := by
  unfold Text.stripPrefix
  constructor
  · intro h
    split_ifs at h with hprefix
    obtain ⟨rest', rfl⟩ := List.isPrefixOf_iff_prefix.mp hprefix
    cases h
    simp
  · rintro rfl
    simp

/-- A pattern that ends with a wildcard is matched if its pieces are found. -/
theorem matches_open_iff (h : pattern.splitOn '*' = first :: (middle ++ [[]])) {value : Str} :
    Matches '*' pattern value
      ↔ ∃ rest, globParts (first ≠ []) ((first :: (middle ++ [[]])).filter (· ≠ [])) value = some rest := by
  have hfilter : (middle ++ [[]]).filter (· ≠ []) = middle.filter (· ≠ []) := by simp
  rw [matches_iff_occur h, globParts_pieces, hfilter]
  constructor
  · rintro ⟨tail, rfl, htail⟩
    obtain ⟨rest, hrest, -⟩ := Occur.append_pieces.mp htail
    obtain ⟨rest, hrest⟩ := Occur.exists_rest_filter_iff.mp ⟨rest, hrest⟩
    obtain ⟨rest, hloop, -⟩ := globParts_of_occur hrest
    exact ⟨rest, by rw [stripPrefix_eq_some_iff.mpr rfl, Option.bind_some, hloop]⟩
  · rintro ⟨rest, hloop⟩
    obtain ⟨tail, hstrip, hloop⟩ := Option.bind_eq_some_iff.mp hloop
    refine ⟨tail, stripPrefix_eq_some_iff.mp hstrip, ?_⟩
    obtain ⟨rest, hrest⟩ := Occur.exists_rest_filter_iff.mpr ⟨rest, occur_of_globParts hloop⟩
    exact Occur.append_pieces.mpr ⟨rest, hrest, Occur.cons_iff.mpr ⟨rest, [], by simp, .nil []⟩⟩

/-- A pattern that does not end with a wildcard is matched by a value up to what is left behind the pieces. -/
theorem matches_closed_iff (h : pattern.splitOn '*' = first :: (middle ++ [last])) (hlast : last ≠ []) {value : Str} :
    Matches '*' pattern value
      ↔ ∃ tail, value = first ++ tail ∧ Occur ((middle ++ [last]).filter (· ≠ [])) tail [] := by
  have hfilter : (middle ++ [last]).filter (· ≠ []) = middle.filter (· ≠ []) ++ [last] := by
    rw [List.filter_append, List.filter_cons_of_pos (by simpa using hlast), List.filter_nil]
  rw [matches_iff_occur h, hfilter]
  constructor
  · rintro ⟨tail, hvalue, htail⟩
    exact ⟨tail, hvalue, Occur.filter_iff.mp htail⟩
  · rintro ⟨tail, hvalue, htail⟩
    exact ⟨tail, hvalue, Occur.filter_iff.mpr htail⟩

/-- Nothing is left behind the pieces exactly if no proper prefix of the value is matched too. -/
theorem globParts_eq_nil_iff (h : pattern.splitOn '*' = first :: (middle ++ [last])) (hlast : last ≠ [])
    {value : Str} :
    globParts (first ≠ []) ((first :: (middle ++ [last])).filter (· ≠ [])) value = some []
      ↔ Matches '*' pattern value ∧ ∀ front, front <+: value → front ≠ value → ¬Matches '*' pattern front := by
  rw [globParts_pieces]
  constructor
  · intro hsearch
    obtain ⟨tail, hstrip, hloop⟩ := Option.bind_eq_some_iff.mp hsearch
    obtain rfl := stripPrefix_eq_some_iff.mp hstrip
    refine ⟨(matches_closed_iff h hlast).mpr ⟨tail, rfl, occur_of_globParts hloop⟩, ?_⟩
    intro front hfront hne hmatches
    obtain ⟨tail', rfl, hoccur⟩ := (matches_closed_iff h hlast).mp hmatches
    obtain ⟨back, hback⟩ := hfront
    rw [List.append_assoc] at hback
    have htail : tail' ++ back = tail := List.append_cancel_left hback
    obtain ⟨rest, hrest, hsuffix⟩ := globParts_of_occur (hoccur.append back)
    rw [htail, hloop, Option.some.injEq] at hrest
    rw [← hrest, List.nil_append, List.suffix_nil] at hsuffix
    exact hne (by rw [← htail, hsuffix, List.append_nil])
  · rintro ⟨hmatches, hproper⟩
    obtain ⟨tail, rfl, hoccur⟩ := (matches_closed_iff h hlast).mp hmatches
    obtain ⟨rest, hloop, -⟩ := globParts_of_occur hoccur
    rw [stripPrefix_eq_some_iff.mpr rfl, Option.bind_some, hloop]
    obtain ⟨front, rfl, hfront⟩ := (occur_of_globParts hloop).cut
    -- a rest would leave a proper prefix that is matched
    by_contra hrest
    refine hproper (first ++ front) ⟨rest, by simp⟩ ?_ ((matches_closed_iff h hlast).mpr ⟨front, rfl, hfront⟩)
    intro heq
    apply hrest
    have hnil : rest = [] := by simpa using heq
    rw [hnil]

end Wildcard

/-! ## Main result -/

/-- What `glob_match` matches: the pattern matches the value, and unless it ends with a wildcard it matches no proper
    prefix of the value. -/
theorem globMatch_iff (pattern value : Str) :
    globMatch pattern value = true
      ↔ Matches '*' (Text.toAsciiLowercase pattern) (Text.toAsciiLowercase value)
        ∧ ((Text.toAsciiLowercase pattern).getLast? = some '*'
          ∨ ∀ front, front <+: Text.toAsciiLowercase value → front ≠ Text.toAsciiLowercase value →
              ¬Matches '*' (Text.toAsciiLowercase pattern) front) := by
  unfold globMatch
  by_cases hstar : pattern = "*".toList
  · subst hstar
    have hmatches : Matches '*' ['*'] (Text.toAsciiLowercase value) :=
      matches_star_iff.mpr ⟨Text.toAsciiLowercase value, [], by simp, .nil⟩
    simpa using ⟨hmatches, Or.inl rfl⟩
  rw [if_neg hstar]
  generalize Text.toAsciiLowercase pattern = pattern
  generalize Text.toAsciiLowercase value = value
  dsimp only
  -- without a wildcard the pattern is compared; else what counts is whether it is open at its end
  by_cases hmem : '*' ∈ pattern
  · obtain ⟨first, middle, last, hsplit, hfirst, hlast⟩ := splitOn_of_mem hmem
    have hanchored : (!(pattern.head? == some '*')) = decide (first ≠ []) := by
      rw [decide_not, Bool.beq_eq_decide_eq]
      simp only [hfirst]
    rw [if_neg (not_not.mpr hmem), hsplit, hanchored]
    by_cases hopen : last = []
    · -- it does not matter what is left
      subst hopen
      rw [hlast.mp rfl, matches_open_iff hsplit]
      by_cases hparts : (first :: (middle ++ [[]])).filter (· ≠ []) = []
      · rw [if_pos hparts, hparts]
        simp [globParts]
      · rw [if_neg hparts]
        cases globParts (first ≠ []) ((first :: (middle ++ [[]])).filter (· ≠ [])) value with
        | none => simp
        | some rest => simp
    · have hclosed : pattern.getLast? ≠ some '*' := mt hlast.mpr hopen
      have hparts : (first :: (middle ++ [last])).filter (· ≠ []) ≠ [] := by
        simp [hopen]
      rw [if_neg hparts]
      simp only [hclosed, false_or]
      rw [← globParts_eq_nil_iff hsplit hopen]
      cases globParts (first ≠ []) ((first :: (middle ++ [last])).filter (· ≠ [])) value with
      | none => simp
      | some rest => simp [hclosed]
  · rw [if_pos hmem, beq_iff_eq, matches_iff_eq hmem]
    constructor
    · rintro rfl
      refine ⟨rfl, Or.inr ?_⟩
      intro front _ hne hmatches
      exact hne ((matches_iff_eq hmem).mp hmatches).symm
    · rintro ⟨rfl, -⟩
      rfl

theorem toLower_eq_star_iff (c : Char) : c.toLower = '*' ↔ c = '*' := by
  rcases Text.toLower_cases c with ⟨hlow, -, hlower⟩ | hsame
  · -- a letter, and no wildcard in either case
    constructor
    · intro hstar
      rw [hstar] at hlower
      have hnat : ('*' : Char).toNat = 42 := rfl
      omega
    · rintro rfl
      exact absurd hlow (by decide)
  · rw [hsame]

/-- Lower case has its wildcards where the pattern has them. -/
theorem getLast?_toAsciiLowercase (pattern : Str) :
    (Text.toAsciiLowercase pattern).getLast? = some '*' ↔ pattern.getLast? = some '*' := by
  unfold Text.toAsciiLowercase
  rw [List.getLast?_map, Option.map_eq_some_iff]
  constructor
  · rintro ⟨c, hlast, hc⟩
    rw [hlast, (toLower_eq_star_iff c).mp hc]
  · intro hlast
    exact ⟨'*', hlast, rfl⟩

/-- **When `glob_match` has the meaning of a pattern**, which is that the value is the pattern with every wildcard
    replaced by some text: always, unless the pattern does not end with a wildcard and matches the value as well as a
    proper prefix of it. -/
theorem globMatch_correct_iff (pattern value : Str) :
    (globMatch pattern value = true ↔ Matches '*' (Text.toAsciiLowercase pattern) (Text.toAsciiLowercase value))
      ↔ ¬(pattern.getLast? ≠ some '*'
        ∧ Matches '*' (Text.toAsciiLowercase pattern) (Text.toAsciiLowercase value)
        ∧ ∃ front, front <+: Text.toAsciiLowercase value ∧ front ≠ Text.toAsciiLowercase value
            ∧ Matches '*' (Text.toAsciiLowercase pattern) front) := by
  rw [globMatch_iff, getLast?_toAsciiLowercase]
  constructor
  · rintro hcorrect ⟨hclosed, hmatches, front, hprefix, hne, hfront⟩
    obtain ⟨-, hopen | hproper⟩ := hcorrect.mpr hmatches
    · exact hclosed hopen
    · exact hproper front hprefix hne hfront
  · intro hcondition
    refine ⟨fun h => h.1, ?_⟩
    intro hmatches
    refine ⟨hmatches, ?_⟩
    by_cases hopen : pattern.getLast? = some '*'
    · exact Or.inl hopen
    · refine Or.inr ?_
      intro front hprefix hne hfront
      exact hcondition ⟨hopen, hmatches, front, hprefix, hne, hfront⟩

/-- The suffix of the pattern occurs twice in the value. -/
theorem repeated_suffix_not_matched :
    ¬(globMatch "*.example.com".toList "a.example.com.example.com".toList = true
      ↔ Matches '*' (Text.toAsciiLowercase "*.example.com".toList)
          (Text.toAsciiLowercase "a.example.com.example.com".toList)) := by
  intro hcorrect
  have hmatches : Matches '*' "*.example.com".toList "a.example.com.example.com".toList :=
    matches_star_iff.mpr ⟨"a.example.com".toList, ".example.com".toList, rfl, matches_self _⟩
  have hfalse : globMatch "*.example.com".toList "a.example.com.example.com".toList = false := by decide +kernel
  have htrue := hcorrect.mpr hmatches
  rw [hfalse] at htrue
  cases htrue

end Inspect.Filters
