import Inspect.Lib.Ascii
import Inspect.Lib.Path

/-!
# `Filters.Manager.Quarantine` — names that are not taken

The parts of `src/filters/manager.rs` that move a filter into quarantine. A file keeps its name there if it can, and
otherwise it gets a number; generated filters of `src/mitm/capture.rs` get their names in the same way.

The files that exist are a finite set of paths, and the directory itself exists. The numbers are `i32`: a search that has
tried all of them panics, and is `none`.
-/

namespace Inspect.Filters

open OsPath (PathBuf join)

/-- `Path::exists`, for a path that is joined to the directory: the directory is there under the names that stand for it. -/
def pathExists (files : Finset PathBuf) (dir path : PathBuf) : Bool :=
  path ∈ files || path = join dir [] || path = join dir [OsPath.dot] || path = join dir [OsPath.dot, OsPath.dot]

/-- The numbers of the candidates: the one behind the last is not an `i32` that has a next one. -/
def candidateCount : Nat := 2 ^ 31 - 2

/-- The name of a candidate. -/
def candidateName (stem mark ending : Str) (idx : Nat) : PathBuf :=
  Text.bytes (stem ++ mark ++ Nat.toDigits 10 idx ++ '.' :: ending)

/-- The search of `unique_quarantine_path` and `unique_file_path`. -/
def uniquePath (files : Finset PathBuf) (dir fileName : PathBuf) (defaultStem mark : Str) : Option PathBuf :=
  let candidate := join dir fileName
  if !pathExists files dir candidate then some candidate
  else
    let stem := ((OsPath.fileStem fileName).bind Bytes.fromUtf8).getD defaultStem
    let ending := ((OsPath.extension fileName).bind Bytes.fromUtf8).getD "roto".toList
    OsPath.firstFree (pathExists files dir) (fun idx => join dir (candidateName stem mark ending idx)) candidateCount 1

/-- `unique_quarantine_path`. -/
def uniqueQuarantinePath (files : Finset PathBuf) (dir fileName : PathBuf) : Option PathBuf :=
  uniquePath files dir fileName "filter".toList ".quarantine-".toList

/-- Where `quarantine_filter_file` moves a file. -/
def quarantineFilterFile (files : Finset PathBuf) (quarantineDir path : PathBuf) : Option (Except Str PathBuf) :=
  match OsPath.fileName path with
  | none => some (.error "quarantine filter path has no file name".toList)
  | some fileName => (uniqueQuarantinePath files quarantineDir fileName).map .ok

/-! ## The search -/

variable {files : Finset PathBuf} {dir : PathBuf}

/-- A name that is not taken is none of the names for the directory itself. -/
theorem isEntryName_of_not_exists {name : PathBuf} (h : OsPath.separator ∉ name)
    (hfree : pathExists files dir (join dir name) = false) : OsPath.IsEntryName name := by
  unfold pathExists at hfree
  simp only [Bool.or_eq_false_iff, decide_eq_false_iff_not] at hfree
  obtain ⟨⟨⟨-, hnil⟩, hdot⟩, hdots⟩ := hfree
  refine ⟨h, ?_, ?_, ?_⟩
  · rintro rfl
    exact hnil rfl
  · rintro rfl
    exact hdot rfl
  · rintro rfl
    exact hdots rfl

/-- A file that exists is found. -/
theorem not_mem_of_not_exists {path : PathBuf} (hfree : pathExists files dir path = false) : path ∉ files := by
  unfold pathExists at hfree
  simp only [Bool.or_eq_false_iff, decide_eq_false_iff_not] at hfree
  exact hfree.1.1.1

/-- A longer name is taken by a file only. -/
theorem mem_of_exists {name : PathBuf} (h : OsPath.separator ∉ name) (hlong : 2 < name.length)
    (htaken : pathExists files dir (join dir name) = true) : join dir name ∈ files := by
  have hother : ∀ special : PathBuf, OsPath.separator ∉ special → special.length ≤ 2 → join dir name ≠ join dir special := by
    intro special hspecial hshort heq
    rw [OsPath.join_injective h hspecial heq] at hlong
    exact absurd hlong (Nat.not_lt.mpr hshort)
  unfold pathExists at htaken
  simp only [Bool.or_eq_true, decide_eq_true_eq] at htaken
  rcases htaken with ((hmem | heq) | heq) | heq
  · exact hmem
  · exact absurd heq (hother [] (by decide) (by decide))
  · exact absurd heq (hother [OsPath.dot] (by decide) (by decide))
  · exact absurd heq (hother [OsPath.dot, OsPath.dot] (by decide) (by decide))

section Names

variable {stem mark ending : Str}

theorem candidateName_injective {j k : Nat} (h : candidateName stem mark ending j = candidateName stem mark ending k) :
    j = k := by
  have htext := Text.bytes_injective h
  rw [List.append_cancel_right_eq, List.append_cancel_left_eq] at htext
  exact Text.decimal_injective htext

/-- A candidate is longer than its mark, its number and its dot. -/
theorem length_candidateName (hmark : mark ≠ []) (idx : Nat) : 2 < (candidateName stem mark ending idx).length := by
  have hmarkBytes : 0 < (Text.bytes mark).length :=
    List.length_pos_iff.mpr fun hnil => hmark (Ascii.eq_nil_of_bytes hnil)
  have hdigits : 0 < (Text.bytes (Nat.toDigits 10 idx)).length :=
    List.length_pos_iff.mpr fun hnil => Nat.toDigits_ne_nil (Ascii.eq_nil_of_bytes hnil)
  have hending : 0 < (Text.bytes ('.' :: ending)).length :=
    List.length_pos_iff.mpr fun hnil => List.cons_ne_nil _ _ (Ascii.eq_nil_of_bytes hnil)
  unfold candidateName
  rw [Ascii.bytes_append, Ascii.bytes_append, Ascii.bytes_append, List.length_append, List.length_append,
    List.length_append]
  omega

theorem separator_not_mem_candidateName (hstem : '/' ∉ stem) (hmark : '/' ∉ mark) (hending : '/' ∉ ending) (idx : Nat) :
    OsPath.separator ∉ candidateName stem mark ending idx := by
  have hdigits : '/' ∉ Nat.toDigits 10 idx := Text.not_mem_decimal (by decide) idx
  rw [candidateName, OsPath.separator_mem_bytes]
  simp only [List.mem_append, List.mem_cons, not_or]
  exact ⟨⟨⟨hstem, hmark⟩, hdigits⟩, by decide, hending⟩

end Names

/-- A part of a name that is text has no separator either. -/
theorem slash_not_mem_getD {name : PathBuf} {part : Option PathBuf} (otherwise : Str) (h : OsPath.separator ∉ name)
    (hpart : ∀ found, part = some found → found ⊆ name) (hotherwise : '/' ∉ otherwise) :
    '/' ∉ (part.bind Bytes.fromUtf8).getD otherwise := by
  cases htext : part.bind Bytes.fromUtf8 with
  | none => exact hotherwise
  | some text =>
      obtain ⟨found, hfound, hread⟩ := Option.bind_eq_some_iff.mp htext
      intro hmem
      have hbyte := OsPath.separator_mem_bytes.mpr hmem
      rw [Option.getD_some, Bytes.bytes_of_fromUtf8 hread] at hbyte
      exact h (hpart found hfound hbyte)

/-- **The search finds a path that is not taken, directly inside of the directory.** -/
theorem uniquePath_fresh {fileName : PathBuf} {defaultStem mark : Str} (hname : OsPath.separator ∉ fileName)
    (hstem : '/' ∉ defaultStem) (hmark : '/' ∉ mark) (hne : mark ≠ []) (hcard : files.card < candidateCount) :
    ∃ path, uniquePath files dir fileName defaultStem mark = some path ∧ pathExists files dir path = false
      ∧ OsPath.DirectlyInside dir path := by
  unfold uniquePath
  dsimp only
  cases htaken : pathExists files dir (join dir fileName) with
  | false => exact ⟨_, rfl, htaken, fileName, isEntryName_of_not_exists hname htaken, rfl⟩
  | true =>
      have hstemText := slash_not_mem_getD defaultStem hname
        (fun found hfound => OsPath.subset_of_fileStem hname hfound) hstem
      have hendingText := slash_not_mem_getD "roto".toList hname
        (fun found hfound => OsPath.subset_of_extension hname hfound) (by decide)
      have hseparator := separator_not_mem_candidateName hstemText hmark hendingText
      obtain ⟨k, hfound, hfree⟩ := OsPath.firstFree_eq_some 1
        (fun k htaken => mem_of_exists (hseparator k) (length_candidateName hne k) htaken)
        (fun j k heq => candidateName_injective (OsPath.join_injective (hseparator j) (hseparator k) heq)) hcard
      exact ⟨_, hfound, hfree, _, isEntryName_of_not_exists (hseparator k) hfree, rfl⟩

/-- A file that is moved into quarantine takes no name of another file there. -/
theorem uniqueQuarantinePath_fresh {fileName : PathBuf} (hname : OsPath.separator ∉ fileName)
    (hcard : files.card < candidateCount) :
    ∃ path, uniqueQuarantinePath files dir fileName = some path ∧ pathExists files dir path = false
      ∧ OsPath.DirectlyInside dir path :=
  uniquePath_fresh hname (by decide) (by decide) (by decide) hcard

/-- A file with a name is moved to a path that is not taken, directly inside of the quarantine directory. -/
theorem quarantineFilterFile_fresh {path fileName : PathBuf} (hname : OsPath.fileName path = some fileName)
    (hcard : files.card < candidateCount) :
    ∃ destination, quarantineFilterFile files dir path = some (.ok destination)
      ∧ pathExists files dir destination = false ∧ OsPath.DirectlyInside dir destination := by
  obtain ⟨destination, heq, hfree, hinside⟩ :=
    @uniqueQuarantinePath_fresh files dir fileName (OsPath.separator_not_mem_fileName hname) hcard
  unfold quarantineFilterFile
  rw [hname]
  dsimp only
  rw [heq]
  exact ⟨destination, rfl, hfree, hinside⟩

end Inspect.Filters
