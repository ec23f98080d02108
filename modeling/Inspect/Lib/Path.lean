import Inspect.Lib.Ascii
import Inspect.Lib.Bytes

/-!
# `Lib.Path` — names and paths of files

The paths of `std` on Unix as bytes, with the parts of a path that `Path` finds; and the search for the first of numbered
candidates that is not taken.
-/

namespace Inspect.OsPath

/-- The bytes of a path, or of a name. -/
abbrev PathBuf := Bytes

/-- The byte `/`. -/
def separator : UInt8 := 47

/-- The byte `.`. -/
def dot : UInt8 := 46

/-- `Path::join`. -/
def join (dir name : PathBuf) : PathBuf :=
  if name.head? = some separator then name
  else if dir.getLast?.any (· ≠ separator) then dir ++ separator :: name
  else dir ++ name

/-- The last component of a path; neither an empty one nor a dot is a component. -/
def lastComponent (path : PathBuf) : Option PathBuf :=
  ((path.splitOn separator).filter fun component => component ≠ [] ∧ component ≠ [dot]).getLast?

/-- `Path::file_name`. -/
def fileName (path : PathBuf) : Option PathBuf := (lastComponent path).filter fun name => name ≠ [dot, dot]

/-- A name in front of its last dot and behind it. A dot at its start counts for nothing. -/
def rsplitFileAtDot (name : PathBuf) : Option PathBuf × Option PathBuf :=
  if dot ∈ name then
    let before := (name.rdropWhile (· ≠ dot)).dropLast
    let after := name.rtakeWhile (· ≠ dot)
    if before = [] then (some name, none) else (some before, some after)
  else (none, some name)

/-- `Path::file_stem`. -/
def fileStem (path : PathBuf) : Option PathBuf :=
  (fileName path).bind fun name => (rsplitFileAtDot name).1.or (rsplitFileAtDot name).2

/-- `Path::extension`. -/
def extension (path : PathBuf) : Option PathBuf :=
  (fileName path).bind fun name => (rsplitFileAtDot name).1.bind fun _ => (rsplitFileAtDot name).2

theorem separator_mem_bytes {text : Str} : separator ∈ Text.bytes text ↔ '/' ∈ text :=
  @Ascii.mem_bytes_iff '/' (by decide) text

/-! ## Inside of a directory -/

/-- A name of one entry of a directory. -/
structure IsEntryName (name : PathBuf) : Prop where
  noSeparator : separator ∉ name
  ne_nil : name ≠ []
  ne_dot : name ≠ [dot]
  ne_dots : name ≠ [dot, dot]

/-- A path is directly inside of a directory. -/
def DirectlyInside (dir path : PathBuf) : Prop := ∃ name, IsEntryName name ∧ path = join dir name

/-- A name without a separator is joined behind the directory. -/
theorem join_eq {dir name : PathBuf} (h : separator ∉ name) :
    join dir name = dir ++ (if dir.getLast?.any (· ≠ separator) then [separator] else []) ++ name := by
  have hrelative : name.head? ≠ some separator := fun hhead => h (List.mem_of_head? hhead)
  unfold join
  rw [if_neg hrelative]
  split_ifs
  · rw [List.append_assoc, List.singleton_append]
  · rw [List.append_nil]

theorem join_injective {dir name name' : PathBuf} (h : separator ∉ name) (h' : separator ∉ name')
    (heq : join dir name = join dir name') : name = name' := by
  rw [join_eq h, join_eq h'] at heq
  exact List.append_cancel_left heq

/-- The file name of a name without separators is the name. -/
theorem eq_of_fileName {name found : PathBuf} (h : separator ∉ name) (hfound : fileName name = some found) :
    found = name := by
  obtain ⟨hlast, -⟩ := Option.filter_eq_some_iff.mp hfound
  have hmem := (List.mem_filter.mp (List.mem_of_getLast? hlast)).1
  rw [List.splitOn_eq_singleton h] at hmem
  exact List.mem_singleton.mp hmem

/-- A file name is one component. -/
theorem separator_not_mem_fileName {path name : PathBuf} (h : fileName path = some name) : separator ∉ name := by
  obtain ⟨hlast, -⟩ := Option.filter_eq_some_iff.mp h
  exact Text.sep_not_mem_splitOn separator path name (List.mem_filter.mp (List.mem_of_getLast? hlast)).1

/-- What is in front of the last dot and behind it is a part of the name. -/
theorem subset_of_rsplitFileAtDot (name : PathBuf) :
    (∀ part ∈ (rsplitFileAtDot name).1, part ⊆ name) ∧ ∀ part ∈ (rsplitFileAtDot name).2, part ⊆ name := by
  have hbefore : (name.rdropWhile (· ≠ dot)).dropLast ⊆ name :=
    fun byte hbyte => (List.rdropWhile_prefix _ _).subset (List.dropLast_subset _ hbyte)
  have hafter : name.rtakeWhile (· ≠ dot) ⊆ name := (List.rtakeWhile_suffix _ _).subset
  unfold rsplitFileAtDot
  dsimp only
  split_ifs
  · refine ⟨fun part hpart => ?_, fun part hpart => absurd hpart (Option.not_mem_none part)⟩
    rw [← Option.some.inj hpart]
    exact List.Subset.refl name
  · refine ⟨fun part hpart => ?_, fun part hpart => ?_⟩
    · rw [← Option.some.inj hpart]
      exact hbefore
    · rw [← Option.some.inj hpart]
      exact hafter
  · refine ⟨fun part hpart => absurd hpart (Option.not_mem_none part), fun part hpart => ?_⟩
    rw [← Option.some.inj hpart]
    exact List.Subset.refl name

theorem subset_of_fileStem {name stem : PathBuf} (h : separator ∉ name) (hstem : fileStem name = some stem) :
    stem ⊆ name := by
  obtain ⟨found, hfound, hparts⟩ := Option.bind_eq_some_iff.mp hstem
  obtain rfl := eq_of_fileName h hfound
  rcases Option.or_eq_some_iff.mp hparts with hbefore | ⟨-, hafter⟩
  · exact (subset_of_rsplitFileAtDot found).1 stem hbefore
  · exact (subset_of_rsplitFileAtDot found).2 stem hafter

theorem subset_of_extension {name ending : PathBuf} (h : separator ∉ name) (hending : extension name = some ending) :
    ending ⊆ name := by
  obtain ⟨found, hfound, hparts⟩ := Option.bind_eq_some_iff.mp hending
  obtain rfl := eq_of_fileName h hfound
  obtain ⟨-, -, hafter⟩ := Option.bind_eq_some_iff.mp hparts
  exact (subset_of_rsplitFileAtDot found).2 ending hafter

/-! ## Candidates -/

section Candidates

variable {A : Type} {taken : A → Bool} {candidate : Nat → A}

/-- The first of `fuel` candidates from `idx` on that is not taken. -/
def firstFree (taken : A → Bool) (candidate : Nat → A) : (fuel idx : Nat) → Option A
  | 0, _ => none
  | fuel + 1, idx => if taken (candidate idx) then firstFree taken candidate fuel (idx + 1) else some (candidate idx)

/-- The search finds a candidate that is not taken, or all of them are. -/
theorem firstFree_cases (fuel idx : Nat) :
    (∃ k, firstFree taken candidate fuel idx = some (candidate k) ∧ taken (candidate k) = false)
      ∨ ∀ k < fuel, taken (candidate (idx + k)) = true := by
  induction fuel generalizing idx with
  | zero => exact Or.inr fun k hk => absurd hk (Nat.not_lt_zero k)
  | succ fuel ih =>
      rw [firstFree]
      split_ifs with htaken
      · rcases ih (idx + 1) with hfound | hall
        · exact Or.inl hfound
        · refine Or.inr fun k hk => ?_
          cases k with
          | zero => exact htaken
          | succ k =>
              have hnext := hall k (Nat.lt_of_succ_lt_succ hk)
              rw [Nat.add_right_comm] at hnext
              exact hnext
      · exact Or.inl ⟨idx, rfl, Bool.eq_false_iff.mpr htaken⟩

/-- **Less names than candidates are taken, so the search finds one that is not.** -/
theorem firstFree_eq_some [DecidableEq A] {names : Finset A} {fuel : Nat} (idx : Nat)
    (htaken : ∀ k, taken (candidate k) = true → candidate k ∈ names)
    (hinjective : ∀ j k, candidate j = candidate k → j = k) (hcard : names.card < fuel) :
    ∃ k, firstFree taken candidate fuel idx = some (candidate k) ∧ taken (candidate k) = false := by
  rcases firstFree_cases fuel idx with hfound | hall
  · exact hfound
  · -- distinct numbers make distinct candidates, so the names that are taken are too many
    have hmaps : ∀ k ∈ Finset.range fuel, candidate (idx + k) ∈ names :=
      fun k hk => htaken _ (hall k (Finset.mem_range.mp hk))
    have hinj : Set.InjOn (fun k => candidate (idx + k)) (Finset.range fuel) :=
      fun j _ k _ heq => Nat.add_left_cancel (hinjective _ _ heq)
    have hle := Finset.card_le_card_of_injOn (fun k => candidate (idx + k)) hmaps hinj
    rw [Finset.card_range] at hle
    exact absurd hcard (Nat.not_lt.mpr hle)

end Candidates

end Inspect.OsPath
