import Inspect.Lib.Split
import Inspect.Tui.PacketRow

/-!
# `Tui.Correctness.FilterQuery` — what a filter query means

A query is a list of conditions, joined with `&&`. What a condition accepts is said here without the parser: how often
it is negated, and what its part without exclamation marks is about. A status list that has a value that is none takes
the whole condition for a part of the address as well.
-/

namespace Inspect.Tui

/-! ## The meaning of a condition -/

/-- What stands before a negated condition. -/
def isNegation (c : Char) : Bool := c == '!' || Text.isWhitespace c

/-- How often a condition is negated. -/
def negations (condition : Str) : Nat := (condition.takeWhile isNegation).count '!'

/-- What is negated. -/
def plainPart (condition : Str) : Str := condition.dropWhile isNegation

/-- A value of a status list, and what it says about the status of a row. -/
inductive StatusMeans : Str → (Option UInt16 → Prop) → Prop
  | absent {value : Str} (h : value = "-".toList ∨ value = "----".toList ∨ Text.toAsciiLowercase value = "none".toList) :
      StatusMeans value fun status => status = none
  | hundreds {digits : Str} {n : Nat} (h : Text.parseUnsigned (2 ^ 16) digits = some n) :
      StatusMeans (digits ++ "xx".toList) fun status => ∃ code ∈ status, code.toNat / 100 = n
  | code {value : Str} {n : Nat} (h : Text.parseUnsigned (2 ^ 16) value = some n) :
      StatusMeans value fun status => ∃ code ∈ status, code.toNat = n

/-- The value is one of a status list. -/
def IsStatusValue (value : Str) : Prop := ∃ P, StatusMeans value P

/-- The address has the text in it, in any ASCII case. -/
def UrlHas (row : PacketRow) (text : Str) : Prop :=
  Text.toAsciiLowercase text <:+: Text.toAsciiLowercase row.urlText

/-- The methods of a condition. -/
def methodList (part : Str) : Option (List Str) :=
  (SearchCondition.stripPrefixes ["method:", "meth:", "m:"] part).map splitCsvValues

/-- The values of a status condition. -/
def statusList (part : Str) : Option (List Str) :=
  (SearchCondition.stripPrefixes ["status:", "stat:", "s:"] part).map splitCsvValues

/-- The pattern of a condition. -/
def patternOf (part : Str) : Option Str :=
  if (methodList part).isSome ∨ (statusList part).isSome then none else Text.stripPrefix "re:".toList part

/-- One of the values of a status list says what holds of the status of the row. -/
def StatusListHolds (values : List Str) (status : Option UInt16) : Prop :=
  ∃ value ∈ values, ∃ P, StatusMeans value P ∧ P status

section Meaning

variable (regexNew : Str → Except Str (Str → Bool)) (row : PacketRow)

/-- What a condition accepts that is not negated. -/
def PlainAccepts (part : Str) : Prop :=
  match methodList part, statusList part, patternOf part with
  | some names, _, _ => ∃ name ∈ names, Text.eqIgnoreAsciiCase row.method name = true
  | none, some values, _ =>
      StatusListHolds values row.status ∨ (∃ value ∈ values, ¬ IsStatusValue value) ∧ UrlHas row part
  | none, none, some pattern => ∃ isMatch, regexNew pattern = .ok isMatch ∧ isMatch row.urlText = true
  | none, none, none => UrlHas row part

/-- **What a condition accepts.** -/
def Accepts (condition : Str) : Prop := Not^[negations condition] (PlainAccepts regexNew row (plainPart condition))

end Meaning

/-! ## Values of a status list -/

/-- A number is written with digits and a plus sign. -/
theorem digits_of_parseUnsigned {bound n : Nat} {text : Str} (h : Text.parseUnsigned bound text = some n) :
    n < bound ∧ ∀ c ∈ text, c.isDigit = true ∨ c = '+' := by
  unfold Text.parseUnsigned Text.stripPrefix at h
  dsimp only at h
  split_ifs at h with hprefix hvalid hvalid
  · obtain ⟨rest, rfl⟩ := List.isPrefixOf_iff_prefix.mp hprefix
    obtain ⟨-, hdigits, hlt⟩ := hvalid
    refine ⟨Option.some.inj h ▸ hlt, fun c hc => ?_⟩
    rcases List.mem_cons.mp hc with rfl | hc
    · exact Or.inr rfl
    · exact Or.inl (List.all_eq_true.mp hdigits c hc)
  · obtain ⟨-, hdigits, hlt⟩ := hvalid
    exact ⟨Option.some.inj h ▸ hlt, fun c hc => Or.inl (List.all_eq_true.mp hdigits c hc)⟩

/-- The values for a missing status are no numbers, and end in no `x`. -/
theorem absent_spec {value : Str}
    (h : value = "-".toList ∨ value = "----".toList ∨ Text.toAsciiLowercase value = "none".toList) :
    Text.parseUnsigned (2 ^ 16) value = none ∧ ∀ digits, value ≠ digits ++ "xx".toList := by
  have hlower : Text.toAsciiLowercase value ∈ ["-".toList, "----".toList, "none".toList] := by
    rcases h with rfl | rfl | hlower
    · decide
    · decide
    · rw [hlower]
      decide
  constructor
  · refine Option.eq_none_iff_forall_ne_some.mpr fun n hparse => ?_
    obtain ⟨-, hchars⟩ := digits_of_parseUnsigned hparse
    -- digits and signs have no case
    have hsame : Text.toAsciiLowercase value = value := by
      refine (List.map_congr_left fun c hc => ?_).trans (List.map_id value)
      rcases Text.toLower_cases c with ⟨hlow, -, -⟩ | hsame
      · rcases hchars c hc with hdigit | rfl
        · simp only [Char.isDigit, Bool.and_eq_true, decide_eq_true_eq, UInt32.le_iff_toNat_le] at hdigit
          have hval : c.toNat = c.val.toNat := rfl
          have hnine : '9'.val.toNat = 57 := rfl
          omega
        · exact absurd hlow (by decide)
      · exact hsame
    rw [hsame] at hlower
    have hnone : ∀ value ∈ ["-".toList, "----".toList, "none".toList], ∃ c ∈ value, c.isDigit = false ∧ c ≠ '+' := by
      rw [List.forall_mem_cons, List.forall_mem_cons, List.forall_mem_singleton]
      exact ⟨⟨'-', by decide, by decide, by decide⟩, ⟨'-', by decide, by decide, by decide⟩,
        ⟨'n', by decide, by decide, by decide⟩⟩
    obtain ⟨c, hc, hdigit, hplus⟩ := hnone value hlower
    rcases hchars c hc with hdigit' | hplus'
    · rw [hdigit] at hdigit'
      cases hdigit'
    · exact hplus hplus'
  · rintro digits rfl
    have hlast : (Text.toAsciiLowercase (digits ++ "xx".toList)).getLast? = some 'x' := by
      have hends : "xx".toList.map Char.toLower = ['x'] ++ ['x'] := by decide
      rw [Text.toAsciiLowercase, List.map_append, hends, ← List.append_assoc, List.getLast?_concat]
    have hnot : ∀ value ∈ ["-".toList, "----".toList, "none".toList], value.getLast? ≠ some 'x' := by decide
    exact hnot _ hlower hlast

/-- A number does not end in `x`. -/
theorem parseUnsigned_xx (digits : Str) : Text.parseUnsigned (2 ^ 16) (digits ++ "xx".toList) = none := by
  refine Option.eq_none_iff_forall_ne_some.mpr fun n hparse => ?_
  rcases (digits_of_parseUnsigned hparse).2 'x' (List.mem_append_right _ (by decide)) with hdigit | hplus
  · exact absurd hdigit (by decide)
  · exact absurd hplus (by decide)

theorem ofNat_eq_iff {n : Nat} (h : n < 2 ^ 16) (code : UInt16) : code = UInt16.ofNat n ↔ code.toNat = n := by
  rw [← UInt16.toNat_inj, UInt16.toNat_ofNat_of_lt' h]

/-- What a value of a status list can be. -/
theorem StatusMeans.inv {value : Str} {P : Option UInt16 → Prop} (h : StatusMeans value P) :
    ((value = "-".toList ∨ value = "----".toList ∨ Text.toAsciiLowercase value = "none".toList)
        ∧ P = fun status => status = none)
      ∨ (∃ digits n, value = digits ++ "xx".toList ∧ Text.parseUnsigned (2 ^ 16) digits = some n
        ∧ P = fun status => ∃ code ∈ status, code.toNat / 100 = n)
      ∨ ∃ n, Text.parseUnsigned (2 ^ 16) value = some n ∧ P = fun status => ∃ code ∈ status, code.toNat = n := by
  cases h with
  | absent h => exact Or.inl ⟨h, rfl⟩
  | hundreds h => exact Or.inr (Or.inl ⟨_, _, rfl, h, rfl⟩)
  | code h => exact Or.inr (Or.inr ⟨_, h, rfl⟩)

/-- The number of a class of status codes. -/
def hundredsOf (value : Str) : Option Nat :=
  if "xx".toList.isSuffixOf value then Text.parseUnsigned (2 ^ 16) (value.take (value.length - 2)) else none

theorem hundredsOf_append (digits : Str) :
    hundredsOf (digits ++ "xx".toList) = Text.parseUnsigned (2 ^ 16) digits := by
  have hlen : (digits ++ "xx".toList).length - 2 = digits.length := by
    rw [List.length_append]
    exact Nat.add_sub_cancel ..
  rw [hundredsOf, if_pos (List.isSuffixOf_iff_suffix.mpr (List.suffix_append _ _)), hlen, List.take_left]

theorem eq_append_of_hundredsOf {value : Str} {n : Nat} (h : hundredsOf value = some n) :
    ∃ digits, value = digits ++ "xx".toList ∧ Text.parseUnsigned (2 ^ 16) digits = some n := by
  have hsuffix : "xx".toList.isSuffixOf value = true := by
    unfold hundredsOf at h
    split at h
    · assumption
    · cases h
  obtain ⟨digits, rfl⟩ := List.isSuffixOf_iff_suffix.mp hsuffix
  rw [hundredsOf_append] at h
  exact ⟨digits, rfl, h⟩

theorem StatusMeans.unique {value : Str} {P P' : Option UInt16 → Prop} (h : StatusMeans value P)
    (h' : StatusMeans value P') : P = P' := by
  rcases h.inv with ⟨habsent, rfl⟩ | ⟨digits, n, rfl, hparse, rfl⟩ | ⟨n, hparse, rfl⟩
  · obtain ⟨hnumber, hclass⟩ := absent_spec habsent
    rcases h'.inv with ⟨-, rfl⟩ | ⟨digits, _, hvalue, -, -⟩ | ⟨_, hparse', -⟩
    · rfl
    · exact absurd hvalue (hclass digits)
    · rw [hnumber] at hparse'
      cases hparse'
  · rcases h'.inv with ⟨habsent, -⟩ | ⟨digits', n', hvalue, hparse', rfl⟩ | ⟨_, hparse', -⟩
    · exact absurd rfl ((absent_spec habsent).2 digits)
    · -- two classes: their numbers are what is before the `xx`
      obtain rfl := List.append_cancel_right hvalue
      rw [Option.some.inj (hparse.symm.trans hparse')]
    · rw [parseUnsigned_xx] at hparse'
      cases hparse'
  · rcases h'.inv with ⟨habsent, -⟩ | ⟨digits, _, rfl, -, -⟩ | ⟨n', hparse', rfl⟩
    · rw [(absent_spec habsent).1] at hparse
      cases hparse
    · rw [parseUnsigned_xx] at hparse
      cases hparse
    · rw [Option.some.inj (hparse.symm.trans hparse')]

/-- A condition that reads the status as a value says it. -/
theorem matches_of_statusMeans {row : PacketRow} {value part : Str} {P : Option UInt16 → Prop} {accepted : Prop}
    (hmeans : StatusMeans value P) (h : accepted ↔ P row.status) :
    accepted ↔ (∃ P, StatusMeans value P ∧ P row.status) ∨ ¬ IsStatusValue value ∧ UrlHas row part := by
  rw [h]
  constructor
  · exact fun hP => Or.inl ⟨P, hmeans, hP⟩
  · rintro (⟨P', hmeans', hP⟩ | ⟨hnot, -⟩)
    · rw [hmeans.unique hmeans']
      exact hP
    · exact absurd ⟨P, hmeans⟩ hnot

theorem matches_urlContains (row : PacketRow) (text : Str) :
    (SearchCondition.urlContains (Text.toAsciiLowercase text)).matches row = true ↔ UrlHas row text :=
  ⟨Text.infix_of_contains, Text.contains_of_infix⟩

/-- **A value of a status list** is read as what it says, or as a part of the address. -/
theorem matches_parseStatusValue (row : PacketRow) {value : Str} (hvalue : Text.trim value = value) (part : Str) :
    (SearchCondition.parseStatusValue value part).matches row = true
      ↔ (∃ P, StatusMeans value P ∧ P row.status) ∨ ¬ IsStatusValue value ∧ UrlHas row part := by
  have hnone : (Text.eqIgnoreAsciiCase value "none".toList = true) = (Text.toAsciiLowercase value = "none".toList) :=
    propext beq_iff_eq
  unfold SearchCondition.parseStatusValue
  rw [hvalue]
  dsimp only
  split
  · rename_i habsent
    rw [hnone] at habsent
    exact matches_of_statusMeans (.absent habsent) Option.isNone_iff_eq_none
  · rename_i hpresent
    rw [hnone] at hpresent
    have hdef : (if "xx".toList.isSuffixOf value then Text.parseUnsigned (2 ^ 16) (value.take (value.length - 2))
        else none) = hundredsOf value := rfl
    rw [hdef]
    cases hhundreds : hundredsOf value with
    | some n =>
        obtain ⟨digits, rfl, hparse⟩ := eq_append_of_hundredsOf hhundreds
        refine matches_of_statusMeans (.hundreds hparse) ?_
        rw [SearchCondition.matches, Option.any_eq_true]
        refine exists_congr fun code => and_congr_right fun _ => ?_
        rw [beq_iff_eq, ofNat_eq_iff (digits_of_parseUnsigned hparse).1, UInt16.toNat_div]
        rfl
    | none =>
        dsimp only
        cases hparse : Text.parseUnsigned (2 ^ 16) value with
        | some n =>
            refine matches_of_statusMeans (.code hparse) ?_
            dsimp only
            rw [SearchCondition.matches, beq_iff_eq]
            constructor
            · exact fun hstatus => ⟨_, hstatus, (ofNat_eq_iff (digits_of_parseUnsigned hparse).1 _).mp rfl⟩
            · rintro ⟨code, hstatus, hcode⟩
              rw [hstatus, (ofNat_eq_iff (digits_of_parseUnsigned hparse).1 code).mpr hcode]
        | none =>
            -- none of the three ways to read a value applies
            have hnot : ¬ IsStatusValue value := by
              rintro ⟨P, hmeans⟩
              rcases hmeans.inv with ⟨habsent, -⟩ | ⟨digits, n, rfl, hdigits, -⟩ | ⟨n, hnumber, -⟩
              · exact hpresent habsent
              · rw [hundredsOf_append, hdigits] at hhundreds
                cases hhundreds
              · rw [hparse] at hnumber
                cases hnumber
            dsimp only
            rw [matches_urlContains]
            constructor
            · exact fun hurl => Or.inr ⟨hnot, hurl⟩
            · rintro (⟨P, hmeans, -⟩ | ⟨-, hurl⟩)
              · exact absurd ⟨P, hmeans⟩ hnot
              · exact hurl

/-! ## Conditions -/

theorem trim_of_mem_splitCsvValues {value text : Str} (h : value ∈ splitCsvValues text) : Text.trim value = value := by
  obtain ⟨hmem, -⟩ := List.mem_filter.mp h
  obtain ⟨piece, -, rfl⟩ := List.mem_map.mp hmem
  exact Text.trim_trim piece

theorem eqIgnoreAsciiCase_toAsciiUppercase (text name : Str) :
    Text.eqIgnoreAsciiCase text (SearchCondition.toAsciiUppercase name) = Text.eqIgnoreAsciiCase text name := by
  have hupper : Text.toAsciiLowercase (SearchCondition.toAsciiUppercase name) = Text.toAsciiLowercase name := by
    unfold Text.toAsciiLowercase SearchCondition.toAsciiUppercase
    rw [List.map_map]
    exact List.map_congr_left fun c _ => Text.toLower_toUpper c
  rw [Text.eqIgnoreAsciiCase, hupper]
  rfl

/-- A name among names is one among the names in upper case. -/
theorem exists_toAsciiUppercase (method : Str) (names : List Str) :
    (∃ name ∈ names.map SearchCondition.toAsciiUppercase, Text.eqIgnoreAsciiCase method name = true)
      ↔ ∃ name ∈ names, Text.eqIgnoreAsciiCase method name = true := by
  simp [eqIgnoreAsciiCase_toAsciiUppercase]

theorem anyMatches_iff (row : PacketRow) (conditions : List SearchCondition) :
    SearchCondition.anyMatches row conditions = true ↔ ∃ condition ∈ conditions, condition.matches row = true := by
  induction conditions with
  | nil => simp [SearchCondition.anyMatches]
  | cons condition conditions ih =>
      rw [SearchCondition.anyMatches, Bool.or_eq_true, ih]
      simp

/-- The condition that a status list is read as. -/
theorem matches_statusList (row : PacketRow) (text part : Str) {condition : SearchCondition}
    (h : (match splitCsvValues text with
      | [value] => Except.ok (SearchCondition.parseStatusValue value part)
      | values => .ok (.any (values.map fun value => SearchCondition.parseStatusValue value part)))
        = (.ok condition : Except Str SearchCondition)) :
    condition.matches row = true ↔ StatusListHolds (splitCsvValues text) row.status
      ∨ (∃ value ∈ splitCsvValues text, ¬ IsStatusValue value) ∧ UrlHas row part := by
  have hany : condition.matches row = true
      ↔ ∃ value ∈ splitCsvValues text, (SearchCondition.parseStatusValue value part).matches row = true := by
    split at h
    · rename_i value hvalues
      cases h
      rw [hvalues]
      simp
    · cases h
      rw [SearchCondition.matches, anyMatches_iff]
      simp
  rw [hany]
  constructor
  · rintro ⟨value, hmem, hmatches⟩
    rcases (matches_parseStatusValue row (trim_of_mem_splitCsvValues hmem) part).mp hmatches with hholds | ⟨hnot, hurl⟩
    · exact Or.inl ⟨value, hmem, hholds⟩
    · exact Or.inr ⟨⟨value, hmem, hnot⟩, hurl⟩
  · rintro (⟨value, hmem, hholds⟩ | ⟨⟨value, hmem, hnot⟩, hurl⟩)
    · exact ⟨value, hmem, (matches_parseStatusValue row (trim_of_mem_splitCsvValues hmem) part).mpr (Or.inl hholds)⟩
    · exact ⟨value, hmem,
        (matches_parseStatusValue row (trim_of_mem_splitCsvValues hmem) part).mpr (Or.inr ⟨hnot, hurl⟩)⟩

section Parse

variable (regexNew : Str → Except Str (Str → Bool))

/-- A condition without exclamation marks is read as what it accepts. -/
theorem matches_parsePlain {part : Str} {condition : SearchCondition}
    (h : SearchCondition.parsePlain regexNew part = .ok condition) (row : PacketRow) :
    condition.matches row = true ↔ PlainAccepts regexNew row part := by
  unfold SearchCondition.parsePlain at h
  unfold PlainAccepts patternOf statusList methodList
  -- the prefixes are tried in the order of the source: methods, statuses, a pattern, then plain text
  cases hmethod : SearchCondition.stripPrefixes ["method:", "meth:", "m:"] part with
  | some value =>
      rw [hmethod] at h
      dsimp only [Option.map_some] at h ⊢
      rw [← exists_toAsciiUppercase]
      split at h
      · rename_i name hnames
        rw [hnames]
        cases h
        simp [SearchCondition.matches]
      · cases h
        rw [SearchCondition.matches, List.any_eq_true]
  | none =>
      rw [hmethod] at h
      dsimp only [Option.map_none] at h ⊢
      cases hstatus : SearchCondition.stripPrefixes ["status:", "stat:", "s:"] part with
      | some value =>
          rw [hstatus] at h
          dsimp only [Option.map_some] at h ⊢
          exact matches_statusList row value part h
      | none =>
          rw [hstatus] at h
          dsimp only [Option.map_none] at h ⊢
          rw [if_neg (by simp)]
          cases hregex : Text.stripPrefix "re:".toList part with
          | some pattern =>
              rw [hregex] at h
              dsimp only at h ⊢
              obtain ⟨isMatch, hnew, rfl⟩ : ∃ isMatch, regexNew pattern = .ok isMatch ∧ .urlRegex isMatch = condition := by
                cases hnew : regexNew pattern with
                | error error => rw [hnew] at h; cases h
                | ok isMatch => rw [hnew] at h; exact ⟨isMatch, rfl, Except.ok.inj h⟩
              rw [hnew]
              simp [SearchCondition.matches]
          | none =>
              rw [hregex] at h
              dsimp only at h ⊢
              cases h
              exact matches_urlContains row part

/-- It cannot be read only if it is a pattern that cannot. -/
theorem parsePlain_error (part : Str) : (∃ error, SearchCondition.parsePlain regexNew part = .error error)
    ↔ ∃ pattern ∈ patternOf part, ∃ error, regexNew pattern = .error error := by
  unfold SearchCondition.parsePlain patternOf statusList methodList
  cases hmethod : SearchCondition.stripPrefixes ["method:", "meth:", "m:"] part with
  | some value =>
      refine iff_of_false ?_ (by simp)
      dsimp only
      split <;> simp
  | none =>
      cases hstatus : SearchCondition.stripPrefixes ["status:", "stat:", "s:"] part with
      | some value =>
          refine iff_of_false ?_ (by simp)
          dsimp only
          split <;> simp
      | none =>
          rw [if_neg (by simp)]
          cases hregex : Text.stripPrefix "re:".toList part with
          | some pattern =>
              dsimp only
              cases hnew : regexNew pattern with
              | error error => exact iff_of_true ⟨error, rfl⟩ ⟨pattern, rfl, error, hnew⟩
              | ok isMatch =>
                  refine iff_of_false (by simp [Except.map]) ?_
                  rintro ⟨_, ⟨⟩, error, herror⟩
                  rw [hnew] at herror
                  cases herror
          | none => exact iff_of_false (by simp) (by simp)

/-! ## Negations -/

/-- A trimmed text ends with no white space. -/
theorem trim_eq_trimStart {rest : Str} (htrim : Text.trim ('!' :: rest) = '!' :: rest) :
    Text.trim rest = Text.trimStart rest := by
  have hend : Text.trimEnd rest = rest := by
    have hcut := Text.trimEnd_append_cons (c := '!') (by decide) [] rest
    rw [Text.trim, Text.trimStart_cons (by decide)] at htrim
    exact (List.cons.inj (hcut.symm.trans htrim)).2
  rw [Text.trim]
  refine List.rdropWhile_eq_self_iff.mpr fun hne => ?_
  have hsuffix : Text.trimStart rest <:+ rest := List.dropWhile_suffix _
  rw [List.IsSuffix.getLast hsuffix hne]
  exact List.rdropWhile_eq_self_iff.mp hend _

/-- One exclamation mark less. -/
theorem negations_cons {rest : Str} (htrim : Text.trim ('!' :: rest) = '!' :: rest) :
    negations ('!' :: rest) = negations (Text.trim rest) + 1
      ∧ plainPart ('!' :: rest) = plainPart (Text.trim rest) := by
  have hblank : ∀ text : Str, negations (Text.trimStart text) = negations text
      ∧ plainPart (Text.trimStart text) = plainPart text := by
    intro text
    induction text with
    | nil => exact ⟨rfl, rfl⟩
    | cons c text ih =>
        cases hc : Text.isWhitespace c with
        | false => rw [Text.trimStart_cons hc]; exact ⟨rfl, rfl⟩
        | true =>
            have hnegation : isNegation c = true := by rw [isNegation, hc, Bool.or_true]
            have hmark : c ≠ '!' := by
              rintro rfl
              cases hc
            rw [Text.trimStart, List.dropWhile_cons_of_pos hc, ← Text.trimStart, ih.1, ih.2]
            constructor
            · rw [negations, negations, List.takeWhile_cons_of_pos hnegation, List.count_cons_of_ne hmark]
            · rw [plainPart, plainPart, List.dropWhile_cons_of_pos hnegation]
  rw [trim_eq_trimStart htrim, (hblank rest).1, (hblank rest).2]
  constructor
  · rw [negations, List.takeWhile_cons_of_pos (by decide), List.count_cons_self]
    rfl
  · exact List.dropWhile_cons_of_pos (by decide)

theorem matches_negated (n : Nat) (condition : SearchCondition) (row : PacketRow) :
    (SearchCondition.not^[n] condition).matches row = true ↔ Not^[n] (condition.matches row = true) := by
  induction n generalizing condition with
  | zero => rfl
  | succ n ih =>
      rw [Function.iterate_succ_apply', Function.iterate_succ_apply', ← ih, SearchCondition.matches,
        Bool.not_eq_true', Bool.not_eq_true]

/-- Every exclamation mark negates what is behind it. -/
theorem parseWithin_eq {fuel : Nat} {part : Str} (htrim : Text.trim part = part) (hfuel : part.length ≤ fuel) :
    SearchCondition.parseWithin regexNew fuel part
      = (SearchCondition.parsePlain regexNew (plainPart part)).map SearchCondition.not^[negations part] := by
  -- every mark makes the part shorter, so its length is fuel enough
  induction fuel generalizing part with
  | zero =>
      obtain rfl := List.eq_nil_of_length_eq_zero (Nat.le_zero.mp hfuel)
      exact (congrFun Except.map_id _).symm
  | succ fuel ih =>
      unfold SearchCondition.parseWithin
      rw [htrim]
      dsimp only
      cases part with
      | nil => exact (congrFun Except.map_id _).symm
      | cons c rest =>
          by_cases hmark : c = '!'
          · -- the mark is taken off, and what is behind it is trimmed again
            subst hmark
            have hrest : (Text.trim rest).length ≤ fuel :=
              ((Text.trim_infix rest).length_le).trans (Nat.le_of_succ_le_succ hfuel)
            obtain ⟨hcount, hplain⟩ := negations_cons htrim
            have hstrip : Text.stripPrefix ['!'] ('!' :: rest) = some rest := rfl
            rw [hstrip]
            dsimp only
            rw [ih (Text.trim_trim rest) hrest, hcount, hplain]
            cases SearchCondition.parsePlain regexNew (plainPart (Text.trim rest)) with
            | error error => rfl
            | ok condition =>
                show Except.ok _ = Except.ok _
                rw [Function.iterate_succ_apply']
          · have hstrip : Text.stripPrefix ['!'] (c :: rest) = none := by
              refine if_neg fun hprefix => hmark ?_
              exact (List.cons_prefix_cons.mp (List.isPrefixOf_iff_prefix.mp hprefix)).1.symm
            have hnegation : isNegation c = false := by
              rw [isNegation, Text.isWhitespace_of_trim_cons htrim, Bool.or_false, beq_eq_false_iff_ne]
              exact hmark
            have hcount : negations (c :: rest) = 0 := by
              rw [negations, List.takeWhile_cons_of_neg (by simp [hnegation])]
              rfl
            have hplain : plainPart (c :: rest) = c :: rest := List.dropWhile_cons_of_neg (by simp [hnegation])
            rw [hstrip, hcount, hplain]
            exact (congrFun Except.map_id _).symm

/-- **A condition is read as what it accepts.** -/
theorem matches_parse {part : Str} (htrim : Text.trim part = part) {condition : SearchCondition}
    (h : SearchCondition.parse regexNew part = .ok condition) (row : PacketRow) :
    condition.matches row = true ↔ Accepts regexNew row part := by
  rw [SearchCondition.parse, parseWithin_eq regexNew htrim (Nat.le_refl _)] at h
  cases hplain : SearchCondition.parsePlain regexNew (plainPart part) with
  | error error => rw [hplain] at h; cases h
  | ok plain =>
      rw [hplain] at h
      cases h
      rw [matches_negated, Accepts, propext (matches_parsePlain regexNew hplain row)]

theorem parse_error {part : Str} (htrim : Text.trim part = part) :
    (∃ error, SearchCondition.parse regexNew part = .error error)
      ↔ ∃ pattern ∈ patternOf (plainPart part), ∃ error, regexNew pattern = .error error := by
  rw [← parsePlain_error, SearchCondition.parse, parseWithin_eq regexNew htrim (Nat.le_refl _)]
  cases SearchCondition.parsePlain regexNew (plainPart part) with
  | error error => exact iff_of_true ⟨error, rfl⟩ ⟨error, rfl⟩
  | ok plain => exact iff_of_false (fun ⟨_, herror⟩ => by cases herror) fun ⟨_, herror⟩ => by cases herror

end Parse

/-! ## Queries -/

/-- A condition of a query, as it can be joined with others. -/
structure IsCondition (condition : Str) : Prop where
  trimmed : Text.trim condition = condition
  nonempty : condition ≠ []
  noJoin : Text.contains "&&".toList condition = false
  first : condition.head? ≠ some '&'
  last : condition.getLast? ≠ some '&'

theorem getLast?_trim {text : Str} (h : text.getLast? = some '&') : (Text.trim text).getLast? = some '&' := by
  obtain ⟨front, rfl⟩ := List.getLast?_eq_some_iff.mp h
  have hstart : ∃ front', Text.trimStart (front ++ ['&']) = front' ++ ['&'] := by
    rw [Text.trimStart, List.dropWhile_append]
    split
    · exact ⟨[], rfl⟩
    · exact ⟨_, rfl⟩
  obtain ⟨front', hfront⟩ := hstart
  rw [Text.trim, hfront, Text.trimEnd_append_cons (by decide)]
  exact List.getLast?_concat

/-- White space around a text joins nothing. -/
theorem join_infix_trim {text : Str} (h : "&&".toList <:+: text) : "&&".toList <:+: Text.trim text := by
  have hstart : ∀ text, "&&".toList <:+: text → "&&".toList <:+: Text.trimStart text := by
    intro text h
    induction text with
    | nil => exact h
    | cons c text ih =>
        cases hc : Text.isWhitespace c with
        | false => rw [Text.trimStart_cons hc]; exact h
        | true =>
            rw [Text.trimStart, List.dropWhile_cons_of_pos hc, ← Text.trimStart]
            rcases List.infix_cons_iff.mp h with hprefix | hrest
            · obtain rfl := (List.cons_prefix_cons.mp hprefix).1
              cases hc
            · exact ih hrest
  -- the end of the text is the start of its reverse
  have hreverse := hstart (Text.trimStart text).reverse (List.reverse_infix.mp (by
    rw [List.reverse_reverse]
    exact hstart text h))
  rw [Text.trim, Text.trimEnd, List.rdropWhile]
  exact List.reverse_infix.mp (by rwa [List.reverse_reverse])

/-- A piece of a query can be joined with others if what it has between its white space can. -/
theorem joinable {piece : Str} (hjoin : Text.contains "&&".toList (Text.trim piece) = false)
    (hlast : (Text.trim piece).getLast? ≠ some '&') :
    Text.contains "&&".toList piece = false
      ∧ Text.find "&&".toList (piece ++ "&&".toList) = some piece.length := by
  have hfree : ¬ "&&".toList <:+: piece := fun hinfix => by
    rw [Text.contains_of_infix (join_infix_trim hinfix)] at hjoin
    cases hjoin
  refine ⟨Bool.eq_false_iff.mpr fun hcontains => hfree (Text.infix_of_contains hcontains), ?_⟩
  obtain ⟨index, hfind, hle⟩ := Text.find_append piece "&&".toList []
  rw [List.append_nil] at hfind
  rw [hfind]
  congr 1
  by_contra hne
  -- an earlier occurrence is in the piece, or its first half is the end of the piece
  have htext := Text.eq_of_find hfind
  rw [List.take_append_of_le_length hle] at htext
  have hsplit : piece = piece.take index ++ piece.drop index := (List.take_append_drop index piece).symm
  have hrest : piece.drop index ++ "&&".toList
      = "&&".toList ++ (piece ++ "&&".toList).drop (index + "&&".toList.length) := by
    refine (List.append_cancel_left_eq (piece.take index) _ _).mp ?_
    rw [← List.append_assoc, ← hsplit, ← List.append_assoc]
    exact htext
  have hmark : "&&".toList = ['&', '&'] := by decide
  rw [hmark] at hrest hfree
  match hdrop : piece.drop index with
  | [] =>
      have hlen := List.drop_eq_nil_iff.mp hdrop
      omega
  | [c] =>
      rw [hdrop] at hrest hsplit
      obtain rfl := (List.cons.inj hrest).1
      refine hlast (getLast?_trim ?_)
      rw [hsplit]
      exact List.getLast?_concat
  | c :: d :: rest =>
      rw [hdrop] at hrest hsplit
      obtain ⟨rfl, hsecond⟩ := List.cons.inj hrest
      obtain ⟨rfl, -⟩ := List.cons.inj hsecond
      exact hfree ⟨piece.take index, rest, by rw [List.append_assoc]; exact hsplit.symm⟩

/-- The results of a loop that can stop with an error. -/
theorem mapM_cons_except {A B E : Type} (f : A → Except E B) (a : A) (as : List A) :
    (a :: as).mapM f = match f a, as.mapM f with
      | .ok b, .ok bs => .ok (b :: bs)
      | .ok _, .error error => .error error
      | .error error, _ => .error error := by
  rw [List.mapM_cons]
  cases f a with
  | error error => rfl
  | ok b =>
      cases as.mapM f with
      | error error => rfl
      | ok bs => rfl

theorem mapM_ok {A B E : Type} {f : A → Except E B} {as : List A} {bs : List B} (h : as.mapM f = .ok bs) :
    List.Forall₂ (fun a b => f a = .ok b) as bs := by
  induction as generalizing bs with
  | nil =>
      cases h
      exact .nil
  | cons a as ih =>
      rw [mapM_cons_except] at h
      split at h
      · rename_i b bs' hb hbs
        cases h
        exact .cons hb (ih hbs)
      · cases h
      · cases h

theorem mapM_error {A B E : Type} {f : A → Except E B} {as : List A} :
    (∃ error, as.mapM f = .error error) ↔ ∃ a ∈ as, ∃ error, f a = .error error := by
  induction as with
  | nil => exact iff_of_false (fun ⟨_, herror⟩ => by cases herror) fun ⟨_, hmem, _⟩ => by cases hmem
  | cons a as ih =>
      rw [mapM_cons_except, List.exists_mem_cons_iff, ← ih]
      cases f a with
      | error error => exact iff_of_true ⟨error, rfl⟩ (Or.inl ⟨error, rfl⟩)
      | ok b =>
          cases as.mapM f with
          | error error => exact iff_of_true ⟨error, rfl⟩ (Or.inr ⟨error, rfl⟩)
          | ok bs =>
              refine iff_of_false (fun ⟨_, herror⟩ => by cases herror) ?_
              rintro (⟨_, herror⟩ | ⟨_, herror⟩)
              · cases herror
              · cases herror

/-- The conditions of a query. -/
def queryConditions (query : Str) : List Str :=
  ((Text.splitStr "&&".toList 0 query).map Text.trim).filter fun part => part ≠ []

theorem queryConditions_trim (query : Str) : queryConditions (Text.trim query) = queryConditions query := by
  unfold queryConditions
  rw [Text.map_trim_splitStr (by decide) (by decide)]

/-- A query is read condition by condition. -/
theorem parse_eq (regexNew : Str → Except Str (Str → Bool)) (query : Str) :
    SearchMatcher.parse regexNew query = ((queryConditions query).mapM (SearchCondition.parse regexNew)).map
      fun conditions => if conditions.isEmpty then none else some ⟨conditions, Text.trim query⟩ := by
  have hparts : ((Text.splitStr "&&".toList 0 (Text.trim query)).map Text.trim).filter (fun part => part ≠ [])
      = queryConditions query := queryConditions_trim query
  unfold SearchMatcher.parse
  dsimp only
  rw [hparts]
  cases (queryConditions query).mapM (SearchCondition.parse regexNew) with
  | error error => rfl
  | ok conditions =>
      cases conditions with
      | nil => rfl
      | cons condition conditions => rfl

/-- The conditions that were joined are those of the query. -/
theorem queryConditions_intercalate {conditions pieces : List Str} (hne : conditions ≠ [])
    (hconditions : ∀ condition ∈ conditions, IsCondition condition)
    (hpieces : (pieces.map Text.trim).filter (fun part => part ≠ []) = conditions) :
    queryConditions ("&&".toList.intercalate pieces) = conditions := by
  unfold queryConditions
  rw [Text.splitStr_intercalate (by decide), hpieces]
  · rintro rfl
    exact hne hpieces.symm
  · intro piece hmem
    -- a blank piece is between two joins, any other is a condition with its white space
    by_cases hblank : Text.trim piece = []
    · exact joinable (by rw [hblank]; decide) (by rw [hblank]; exact (Option.some_ne_none _).symm)
    · have hcondition := hconditions (Text.trim piece) (by
        rw [← hpieces]
        exact List.mem_filter.mpr ⟨List.mem_map_of_mem hmem, by simpa using hblank⟩)
      exact joinable hcondition.noJoin hcondition.last

/-- A query is none if nothing is in it. -/
theorem parse_none_iff (regexNew : Str → Except Str (Str → Bool)) (query : Str) :
    SearchMatcher.parse regexNew query = .ok none
      ↔ ∀ part ∈ Text.splitStr "&&".toList 0 query, Text.trim part = [] := by
  have hblank : queryConditions query = [] ↔ ∀ part ∈ Text.splitStr "&&".toList 0 query, Text.trim part = [] := by
    unfold queryConditions
    rw [List.filter_eq_nil_iff, List.forall_mem_map]
    simp
  rw [← hblank, parse_eq]
  constructor
  · intro hnone
    cases hread : (queryConditions query).mapM (SearchCondition.parse regexNew) with
    | error error => rw [hread] at hnone; cases hnone
    | ok read =>
        rw [hread] at hnone
        cases read with
        | nil => exact List.forall₂_nil_right_iff.mp (mapM_ok hread)
        | cons condition read => cases hnone
  · intro hnil
    rw [hnil]
    rfl

/-- All conditions match a row if all of them accept it. -/
theorem matches_all_iff (regexNew : Str → Except Str (Str → Bool)) {conditions : List Str}
    (htrim : ∀ condition ∈ conditions, Text.trim condition = condition) {read : List SearchCondition}
    (h : List.Forall₂ (fun condition read => SearchCondition.parse regexNew condition = .ok read) conditions read)
    (row : PacketRow) :
    (∀ condition ∈ read, SearchCondition.matches row condition = true)
      ↔ ∀ condition ∈ conditions, Accepts regexNew row condition := by
  induction h with
  | nil => exact iff_of_true (fun _ hmem => by cases hmem) fun _ hmem => by cases hmem
  | cons hparse _ ih =>
      rw [List.forall_mem_cons] at htrim
      rw [List.forall_mem_cons, List.forall_mem_cons, ih htrim.2, matches_parse regexNew htrim.1 hparse]

/-- **The meaning of a query**: the rows that all its conditions accept. It cannot be read if a pattern cannot, and is
    no query if nothing is in it. -/
theorem parse_accepts_iff (regexNew : Str → Except Str (Str → Bool)) {conditions pieces : List Str}
    (hne : conditions ≠ []) (hconditions : ∀ condition ∈ conditions, IsCondition condition)
    (hpieces : (pieces.map Text.trim).filter (fun part => part ≠ []) = conditions) :
    (∀ result, SearchMatcher.parse regexNew ("&&".toList.intercalate pieces) = .ok result →
        ∃ matcher, result = some matcher
          ∧ ∀ row, matcher.matches row = true ↔ ∀ condition ∈ conditions, Accepts regexNew row condition)
      ∧ ((∃ error, SearchMatcher.parse regexNew ("&&".toList.intercalate pieces) = .error error)
          ↔ ∃ condition ∈ conditions, ∃ pattern ∈ patternOf (plainPart condition), ∃ error,
              regexNew pattern = .error error)
      ∧ ∀ query, SearchMatcher.parse regexNew query = .ok none
          ↔ ∀ part ∈ Text.splitStr "&&".toList 0 query, Text.trim part = [] := by
  have hquery := queryConditions_intercalate hne hconditions hpieces
  -- cutting the query at its separators gives the conditions back
  rw [parse_eq, hquery]
  refine ⟨?_, ?_, parse_none_iff regexNew⟩
  · intro result hresult
    cases hread : conditions.mapM (SearchCondition.parse regexNew) with
    | error error => rw [hread] at hresult; cases hresult
    | ok read =>
        have hall := mapM_ok hread
        have hsome : read ≠ [] := by
          rintro rfl
          exact hne (List.forall₂_nil_right_iff.mp hall)
        rw [hread] at hresult
        cases hresult
        refine ⟨⟨read, _⟩, if_neg (by simpa using hsome), fun row => ?_⟩
        rw [SearchMatcher.matches, List.all_eq_true]
        exact matches_all_iff regexNew (fun condition hmem => (hconditions condition hmem).trimmed) hall row
  · have herror : (∃ error, (conditions.mapM (SearchCondition.parse regexNew)).map (fun conditions =>
          if conditions.isEmpty then none else some (SearchMatcher.mk conditions
            (Text.trim ("&&".toList.intercalate pieces)))) = .error error)
        ↔ ∃ error, conditions.mapM (SearchCondition.parse regexNew) = .error error := by
      cases conditions.mapM (SearchCondition.parse regexNew) with
      | error error => exact iff_of_true ⟨error, rfl⟩ ⟨error, rfl⟩
      | ok read => exact iff_of_false (fun ⟨_, herror⟩ => by cases herror) fun ⟨_, herror⟩ => by cases herror
    rw [herror, mapM_error]
    refine exists_congr fun condition => and_congr_right fun hmem => ?_
    exact parse_error regexNew (hconditions condition hmem).trimmed

/-- Expressions of which none can be read. -/
def noRegex : Str → Except Str (Str → Bool) := fun _ => .error []

/-- Two conditions, with white space and an empty part between them. -/
theorem parse_accepts_two_conditions :
    (∀ result, SearchMatcher.parse noRegex ("&&".toList.intercalate [" s:2xx ".toList, [], "!m:get".toList])
          = .ok result →
        ∃ matcher, result = some matcher ∧ ∀ row, matcher.matches row = true
          ↔ ∀ condition ∈ ["s:2xx".toList, "!m:get".toList], Accepts noRegex row condition)
      ∧ ((∃ error, SearchMatcher.parse noRegex ("&&".toList.intercalate [" s:2xx ".toList, [], "!m:get".toList])
            = .error error)
          ↔ ∃ condition ∈ ["s:2xx".toList, "!m:get".toList], ∃ pattern ∈ patternOf (plainPart condition), ∃ error,
              noRegex pattern = .error error)
      ∧ ∀ query, SearchMatcher.parse noRegex query = .ok none
          ↔ ∀ part ∈ Text.splitStr "&&".toList 0 query, Text.trim part = [] := by
  refine parse_accepts_iff noRegex (List.cons_ne_nil _ _) (fun condition hmem => ?_) (by decide +kernel)
  simp only [List.mem_cons, List.not_mem_nil, or_false] at hmem
  rcases hmem with rfl | rfl
  · exact ⟨by decide +kernel, by decide, by decide +kernel, by decide, by decide⟩
  · exact ⟨by decide +kernel, by decide, by decide +kernel, by decide, by decide⟩

/-- A request that was answered. -/
def answeredRow : PacketRow where
  id := "1".toList
  seq := 1
  flowKey := "1".toList
  flowDir := none
  time := []
  method := "GET".toList
  status := some 200
  elapsedMs := none
  protocol := "https".toList
  host := "example.com".toList
  uri := "/".toList
  queryStr := []
  marks := []
  line := []

/-- A list with a value that is none still accepts by its other values. -/
theorem mixed_status_list_accepts :
    IsCondition "s:200,abc".toList ∧ ¬ IsStatusValue "abc".toList ∧ ¬ UrlHas answeredRow "s:200,abc".toList
      ∧ (SearchMatcher.parse noRegex "s:200,abc".toList).map (Option.map fun matcher => matcher.matches answeredRow)
          = .ok (some true) := by
  refine ⟨⟨by decide +kernel, by decide, by decide +kernel, by decide, by decide⟩, ?_, ?_, by decide +kernel⟩
  · rintro ⟨P, hmeans⟩
    rcases hmeans.inv with ⟨habsent, -⟩ | ⟨digits, n, hvalue, -, -⟩ | ⟨n, hnumber, -⟩
    · exact absurd habsent (by decide)
    · have hends := congrArg List.getLast? hvalue
      have hx : (digits ++ "xx".toList).getLast? = some 'x' := by
        rw [List.getLast?_append]
        rfl
      rw [hx] at hends
      exact absurd hends (by decide)
    · have hnone : Text.parseUnsigned (2 ^ 16) "abc".toList = none := by decide +kernel
      rw [hnone] at hnumber
      cases hnumber
  · intro hurl
    have hcontains := Text.contains_of_infix hurl
    revert hcontains
    decide +kernel

end Inspect.Tui
