import Inspect.Mitm.Capture

/-!
# `Mitm.Correctness.GeneratedPaths` — generated filters take no path of another file

The name of a generated filter is made of its letters and digits, so it has no separator; a path for it is found as long
as fewer files exist than there are candidates, and it is directly inside of its directory.
-/

namespace Inspect.Mitm

open Filters

open OsPath (PathBuf join)

/-! ## Names -/

/-- The characters of the name of a generated filter. -/
def IsSlugChar (c : Char) : Prop := c.isLower = true ∨ c.isDigit = true ∨ c = '-'

theorem isUpper_toLower (c : Char) : c.toLower.isUpper = false := by
  unfold Char.toLower
  split_ifs with hupper
  · refine decide_eq_false fun hlower => ?_
    have hvalue : (c.val + ('a'.val - 'A'.val)).toNat = c.val.toNat + 32 := by
      have hle : c.val.toNat ≤ 90 := hupper.2
      rw [UInt32.toNat_add]
      change (c.val.toNat + 32) % 2 ^ 32 = _
      omega
    have hge : 65 ≤ c.val.toNat := hupper.1
    have hle : (c.val + ('a'.val - 'A'.val)).toNat ≤ 90 := hlower.2
    omega
  · exact decide_eq_false hupper

/-- No lower case of a character is a capital letter. -/
theorem not_isUpper_toLowercase {c ch : Char} (h : c ∈ toLowercase ch) : c.isUpper = false := by
  unfold toLowercase at h
  split_ifs at h
  · simp only [List.mem_cons, List.not_mem_nil, or_false] at h
    rcases h with rfl | rfl
    · rfl
    · rfl
  · rw [List.mem_singleton.mp h]
    rfl
  · rw [List.mem_singleton.mp h]
    exact isUpper_toLower ch

/-- What the loop keeps is a letter or a digit; the rest are dashes. -/
theorem mem_slugifyLoop {c : Char} {lastWasDash : Bool} {text : Str} (h : c ∈ slugifyLoop lastWasDash text) :
    c = '-' ∨ c ∈ text ∧ c.isAlphanum = true := by
  induction text generalizing lastWasDash with
  | nil => cases h
  | cons ch rest ih =>
      have hrest : ∀ {dash}, c ∈ slugifyLoop dash rest → c = '-' ∨ c ∈ ch :: rest ∧ c.isAlphanum = true :=
        fun hmem => (ih hmem).imp_right fun hkept => ⟨List.mem_cons_of_mem _ hkept.1, hkept.2⟩
      unfold slugifyLoop at h
      split_ifs at h with halphanum hdash
      · rcases List.mem_cons.mp h with rfl | hmem
        · exact Or.inr ⟨List.mem_cons_self, halphanum⟩
        · exact hrest hmem
      · exact hrest h
      · rcases List.mem_cons.mp h with rfl | hmem
        · exact Or.inl rfl
        · exact hrest hmem

theorem mem_format {c : Char} {now : ClockTime} (h : c ∈ now.format) : IsSlugChar c := by
  have hnumber : ∀ n, c ∈ Text.padStart 2 '0' (Nat.toDigits 10 n) → IsSlugChar c :=
    fun n hmem => Or.inr (Or.inl (Text.isDigit_of_mem_padStart c hmem))
  have hword : ∀ c ∈ "generated-".toList, c.isLower = true ∨ c.isDigit = true ∨ c = '-' := by decide
  unfold ClockTime.format at h
  simp only [List.mem_append] at h
  rcases h with ((hmem | hmem) | hmem) | hmem
  · exact hword c hmem
  · exact hnumber _ hmem
  · exact hnumber _ hmem
  · exact hnumber _ hmem

/-- A slug has no other characters, and it is not empty. -/
theorem slugifyFilterName_spec (now : ClockTime) (name : Str) :
    slugifyFilterName now name ≠ [] ∧ ∀ c ∈ slugifyFilterName now name, IsSlugChar c := by
  unfold slugifyFilterName
  dsimp only
  split_ifs with hempty
  · refine ⟨?_, fun c hc => mem_format hc⟩
    unfold ClockTime.format
    simp
  · -- trimming only leaves out dashes, and a letter that the loop keeps is the lower case of one
    refine ⟨fun hnil => hempty (by rw [hnil]; rfl), fun c hc => ?_⟩
    have hloop : c ∈ slugifyLoop false (name.flatMap toLowercase) :=
      (List.dropWhile_suffix _).subset ((List.rdropWhile_prefix _ _).subset hc)
    rcases mem_slugifyLoop hloop with rfl | ⟨hmem, halphanum⟩
    · exact Or.inr (Or.inr rfl)
    · obtain ⟨ch, -, hlower⟩ := List.mem_flatMap.mp hmem
      have hupper := not_isUpper_toLowercase hlower
      unfold Char.isAlphanum Char.isAlpha at halphanum
      rw [hupper, Bool.false_or, Bool.or_eq_true] at halphanum
      exact halphanum.imp_right Or.inl

/-- A character of a slug is neither a separator nor a dot. -/
theorem IsSlugChar.ne {c : Char} (h : IsSlugChar c) : c ≠ '/' ∧ c ≠ '.' := by
  constructor
  · rintro rfl
    rcases h with h | h | h
    · cases h
    · cases h
    · exact absurd h (by decide)
  · rintro rfl
    rcases h with h | h | h
    · cases h
    · cases h
    · exact absurd h (by decide)

/-- **The name of a generated filter is a slug with its ending.** -/
theorem generatedFilterFileName_eq (now : ClockTime) (name : Str) :
    ∃ slug, generatedFilterFileName now name = slug ++ ".roto".toList ∧ slug ≠ [] ∧ ∀ c ∈ slug, IsSlugChar c := by
  obtain ⟨hne, hchars⟩ := slugifyFilterName_spec now name
  refine ⟨slugifyFilterName now name, ?_, hne, hchars⟩
  unfold generatedFilterFileName
  rw [if_neg]
  intro hsuffix
  -- a slug has no dot, so it does not have the ending yet
  have hdot : '.' ∈ slugifyFilterName now name := (List.isSuffixOf_iff_suffix.mp hsuffix).subset (by decide)
  exact (hchars '.' hdot).ne.2 rfl

theorem slash_not_mem_generatedFilterFileName (now : ClockTime) (name : Str) :
    '/' ∉ generatedFilterFileName now name := by
  obtain ⟨slug, heq, -, hchars⟩ := generatedFilterFileName_eq now name
  rw [heq, List.mem_append, not_or]
  exact ⟨fun hmem => (hchars '/' hmem).ne.1 rfl, by decide⟩

/-! ## Paths -/

variable {files : Finset PathBuf} {dir : PathBuf}

theorem uniqueFilePath_fresh {fileName : Str} (hname : '/' ∉ fileName) (hcard : files.card < candidateCount) :
    ∃ path, uniqueFilePath files dir fileName = some path ∧ pathExists files dir path = false
      ∧ OsPath.DirectlyInside dir path :=
  uniquePath_fresh (fun hmem => hname (OsPath.separator_mem_bytes.mp hmem)) (by decide) (by decide) (by decide) hcard

/-- A generated filter is written to a new file, directly inside of its directory. -/
theorem writeGeneratedFilter_fresh (now : ClockTime) (name : Str) (hcard : files.card < candidateCount) :
    ∃ path, writeGeneratedFilter now files dir name = some (path, insert path files) ∧ path ∉ files
      ∧ OsPath.DirectlyInside dir path := by
  obtain ⟨path, heq, hfree, hinside⟩ :=
    @uniqueFilePath_fresh files dir _ (slash_not_mem_generatedFilterFileName now name) hcard
  refine ⟨path, ?_, not_mem_of_not_exists hfree, hinside⟩
  unfold writeGeneratedFilter
  rw [heq]
  rfl

/-- A separator that is read from a name is there. -/
theorem separator_mem_of_lossyLoop {fuel : Nat} {bytes : Bytes} (h : '/' ∈ Bytes.lossyLoop fuel bytes) :
    OsPath.separator ∈ bytes := by
  fun_induction Bytes.lossyLoop fuel bytes with
  | case1 => cases h
  | case2 => cases h
  | case3 fuel bytes hne c hread ih =>
      rcases List.mem_cons.mp h with rfl | hmem
      · obtain ⟨rest, heq⟩ := ByteArray.exists_of_utf8DecodeChar?_eq_some hread
        have hbytes := congrArg (fun array : ByteArray => array.data.toList) heq
        have hfirst : bytes = String.utf8EncodeChar '/' ++ rest.data.toList := by simpa using hbytes
        rw [hfirst]
        exact List.mem_append_left _ (by decide)
      · exact List.drop_subset _ _ (ih hmem)
  | case4 fuel bytes hne hread ih =>
      rcases List.mem_cons.mp h with heq | hmem
      · exact absurd heq (by decide)
      · exact List.drop_subset _ _ (ih hmem)

/-- A generated filter with a name is moved to a path that is not taken, directly inside of the quarantine directory. -/
theorem quarantineGeneratedFilter_fresh {path fileName : PathBuf} (hname : OsPath.fileName path = some fileName)
    (hcard : files.card < candidateCount) :
    ∃ destination, quarantineGeneratedFilter files dir path = some (.ok destination)
      ∧ pathExists files dir destination = false ∧ OsPath.DirectlyInside dir destination := by
  have hslash : '/' ∉ Bytes.fromUtf8Lossy fileName :=
    fun hmem => OsPath.separator_not_mem_fileName hname (separator_mem_of_lossyLoop hmem)
  obtain ⟨destination, heq, hfree, hinside⟩ := @uniqueFilePath_fresh files dir _ hslash hcard
  unfold quarantineGeneratedFilter
  rw [hname]
  dsimp only
  rw [heq]
  exact ⟨destination, rfl, hfree, hinside⟩

/-- **The numbered candidates give a path that does not exist, directly inside of the directory**, and the name of a
    generated filter is lowercase letters, digits and dashes with `.roto` behind them, so its path is one of these. -/
theorem generatedPaths_fresh_confined (files : Finset PathBuf) (dir : PathBuf) (hcard : files.card < 2 ^ 31 - 2) :
    (∀ fileName : Str, '/' ∉ fileName → ∃ path, uniqueFilePath files dir fileName = some path
        ∧ pathExists files dir path = false ∧ OsPath.DirectlyInside dir path)
      ∧ (∀ fileName : PathBuf, OsPath.separator ∉ fileName → ∃ path, uniqueQuarantinePath files dir fileName = some path
        ∧ pathExists files dir path = false ∧ OsPath.DirectlyInside dir path)
      ∧ (∀ (now : ClockTime) (name : Str), ∃ slug, generatedFilterFileName now name = slug ++ ".roto".toList
        ∧ slug ≠ [] ∧ ∀ c ∈ slug, IsSlugChar c)
      ∧ ∀ (now : ClockTime) (name : Str), ∃ path, writeGeneratedFilter now files dir name = some (path, insert path files)
        ∧ path ∉ files ∧ OsPath.DirectlyInside dir path :=
  ⟨fun _ hname => uniqueFilePath_fresh hname hcard, fun _ hname => uniqueQuarantinePath_fresh hname hcard,
    generatedFilterFileName_eq, fun now name => writeGeneratedFilter_fresh now name hcard⟩

/-- Two filters with the same name. -/
theorem generatedPaths_fresh_confined_two :
    ∃ path, uniqueFilePath {Text.bytes "generated/a.roto".toList} (Text.bytes "generated".toList) "a.roto".toList = some path
      ∧ pathExists {Text.bytes "generated/a.roto".toList} (Text.bytes "generated".toList) path = false
      ∧ OsPath.DirectlyInside (Text.bytes "generated".toList) path :=
  (generatedPaths_fresh_confined _ _ (by rw [Finset.card_singleton]; omega)).1 _ (by decide)

example : uniqueFilePath {Text.bytes "generated/a.roto".toList} (Text.bytes "generated".toList)
    (generatedFilterFileName ⟨0, 0, 0⟩ "../A".toList) = some (Text.bytes "generated/a-1.roto".toList) := by decide

end Inspect.Mitm
