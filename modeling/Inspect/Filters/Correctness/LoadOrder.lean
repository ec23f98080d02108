import Inspect.Filters.Manager.Load
import Inspect.Lib.Sorting
import Mathlib.Data.List.ReduceOption

/-!
# `Filters.Correctness.LoadOrder` — a filter set does not depend on the order of a directory

`read_dir` promises no order. `load_filter_set` sorts what it loads, by priority and then by path, and a path is
loaded once; so whatever the order was, the set is the same, and so are the names of the files. If one of the files
makes the parser panic, there is a set in neither order.
-/

namespace Inspect.Filters

variable {P : Type}

/-! ## The order of a filter set -/

/-- The order of `CompiledFilterSet::new`: by priority, and by path where the priorities are the same. -/
def Precedes (a b : CompiledFilter P) : Prop :=
  a.priority.toInt < b.priority.toInt
    ∨ a.priority.toInt = b.priority.toInt ∧ (compare a.definition.path b.definition.path).isLE = true

/-- The comparison `CompiledFilterSet::new` sorts with. -/
def comparePriorityPath : CompiledFilter P → CompiledFilter P → Ordering :=
  compareLex (compareOn fun filter => filter.priority.toInt) (compareOn fun filter => filter.definition.path)

instance : Std.TransCmp (comparePriorityPath (P := P)) :=
  inferInstanceAs (Std.TransCmp (compareLex _ _))

theorem precedes_of_isLE {a b : CompiledFilter P} (h : (comparePriorityPath a b).isLE = true) : Precedes a b := by
  change ((compare a.priority.toInt b.priority.toInt).then
    (compare a.definition.path b.definition.path)).isLE = true at h
  rcases lt_trichotomy a.priority.toInt b.priority.toInt with hlt | heq | hgt
  · exact Or.inl hlt
  · rw [compare_eq_iff_eq.mpr heq] at h
    exact Or.inr ⟨heq, h⟩
  · rw [compare_gt_iff_gt.mpr hgt] at h
    cases h

/-- Filters that compare as equal have one path. -/
theorem path_eq_of_comparePriorityPath {a b : CompiledFilter P} (h : comparePriorityPath a b = .eq) :
    a.definition.path = b.definition.path := by
  change (compare a.priority.toInt b.priority.toInt).then (compare a.definition.path b.definition.path) = .eq at h
  exact Std.LawfulEqCmp.eq_of_compare (Ordering.then_eq_eq.mp h).2

/-- A filter set is in order. -/
theorem new_pairwise_precedes (filters : List (CompiledFilter P)) :
    (CompiledFilterSet.new filters).Pairwise Precedes :=
  (Sorting.pairwise_sort comparePriorityPath filters).imp precedes_of_isLE

/-- A filter set holds the filters it was made of. -/
theorem new_perm (filters : List (CompiledFilter P)) : (CompiledFilterSet.new filters).Perm filters :=
  List.mergeSort_perm _ _

/-! ## Two enumerations of the same files -/

/-- The filter directories hold the same entries, which `read_dir` may give in two orders. -/
def SameEntries (manager : FilterManager) (dirs dirs' : Directories) : Prop :=
  ∀ filterDir ∈ manager.filterDirs, Option.Rel List.Perm (dirs.lookup filterDir) (dirs'.lookup filterDir)

section Load

variable (toml : Str → Option Toml.Table) (compile : FilterPath → Str → Option P) {manager : FilterManager}
  {dirs dirs' : Directories}

theorem rotoFiles_perm {filterDir : FilterPath}
    (h : Option.Rel List.Perm (dirs.lookup filterDir) (dirs'.lookup filterDir)) :
    (rotoFiles manager dirs filterDir).Perm (rotoFiles manager dirs' filterDir) := by
  have hentries : ((dirs.lookup filterDir).getD []).Perm ((dirs'.lookup filterDir).getD []) := by
    generalize dirs.lookup filterDir = entries, dirs'.lookup filterDir = entries' at h
    cases h with
    | none => exact List.Perm.nil
    | some hperm => exact hperm
  exact (hentries.map _).filter _

/-- The same files are scanned. -/
theorem scannedFiles_perm (hsame : SameEntries manager dirs dirs') :
    (scannedFiles manager dirs).Perm (scannedFiles manager dirs') :=
  List.Perm.flatMap_left _ fun filterDir hmem => (rotoFiles_perm (hsame filterDir hmem)).map _

theorem compileFilterDefinition_definition {definition : FilterDefinition} {priority : Int32}
    {filter : CompiledFilter P} (h : compileFilterDefinition compile definition priority = some filter) :
    filter.definition = definition := by
  unfold compileFilterDefinition at h
  split_ifs at h
  · cases h; rfl
  · obtain ⟨program, -, rfl⟩ := Option.map_eq_some_iff.mp h
    rfl

/-- A filter keeps the path of its file. -/
theorem loadFilter_path {file : ScannedFile} {filter : CompiledFilter P}
    (h : loadFilter toml compile file = some (some filter)) : filter.definition.path = file.path := by
  unfold loadFilter at h
  split at h
  · cases h
  · split at h
    · cases h
    · cases h
    · dsimp only at h
      split_ifs at h
      · cases h
      · cases h
      · rw [compileFilterDefinition_definition compile (Option.some.inj h)]

/-- The path of a file is that of its directory, and its name. -/
theorem mem_rotoFiles_path {filterDir path : FilterPath} {entry : DirEntry}
    (h : (path, entry) ∈ rotoFiles manager dirs filterDir) : path = filterDir ++ [entry.name] := by
  obtain ⟨hmem, -⟩ := List.mem_filter.mp h
  obtain ⟨entry', -, heq⟩ := List.mem_map.mp hmem
  cases heq
  rfl

theorem path_of_mem_scannedFiles {file : ScannedFile} (h : file ∈ scannedFiles manager dirs) :
    ∃ filterDir ∈ manager.filterDirs, (file.path, file.entry) ∈ rotoFiles manager dirs filterDir
      ∧ file.sourceKind = sourceKindOf manager filterDir ∧ file.path = filterDir ++ [file.entry.name] := by
  obtain ⟨filterDir, hdir, hfile⟩ := List.mem_flatMap.mp h
  obtain ⟨⟨path, entry⟩, hentry, rfl⟩ := List.mem_map.mp hfile
  exact ⟨filterDir, hdir, hentry, rfl, mem_rotoFiles_path hentry⟩

/-- Of every path there is one filter at most. -/
theorem eq_of_loaded_path (hdistinct : ((scannedFiles manager dirs).map ScannedFile.path).Nodup)
    {loaded : List (Option (CompiledFilter P))}
    (hloaded : (scannedFiles manager dirs).mapM (loadFilter toml compile) = some loaded)
    {a b : CompiledFilter P} (ha : a ∈ loaded.reduceOption) (hb : b ∈ loaded.reduceOption)
    (hpath : a.definition.path = b.definition.path) : a = b := by
  obtain ⟨file, hfile, hload⟩ := Sorting.exists_of_mem_mapM hloaded (List.reduceOption_mem_iff.mp ha)
  obtain ⟨file', hfile', hload'⟩ := Sorting.exists_of_mem_mapM hloaded (List.reduceOption_mem_iff.mp hb)
  rw [loadFilter_path toml compile hload, loadFilter_path toml compile hload'] at hpath
  -- one path is one file, since the paths are distinct
  obtain rfl := List.inj_on_of_nodup_map hdistinct hfile hfile' hpath
  exact Option.some.inj (Option.some.inj (hload.symm.trans hload'))

theorem scannedFileNames_eq (hsame : SameEntries manager dirs dirs') :
    scannedFileNames manager dirs = scannedFileNames manager dirs' := by
  have hnames := Sorting.sort_eq_of_perm compare
    ((scannedFiles_perm hsame).map fun file => filterFileName file.path) fun a _ b _ heq =>
      Std.LawfulEqCmp.eq_of_compare heq
  unfold scannedFileNames
  rw [hnames]

/-- **What is loaded does not depend on the order in which the directories are read**, nor whether the parser panics. -/
theorem loadFilterSet_eq_of_sameEntries (hsame : SameEntries manager dirs dirs')
    (hdistinct : ((scannedFiles manager dirs).map ScannedFile.path).Nodup) :
    loadFilterSet toml compile manager dirs = loadFilterSet toml compile manager dirs' := by
  have hfiles := scannedFiles_perm hsame
  unfold loadFilterSet
  rw [scannedFileNames_eq hsame]
  cases hloaded : (scannedFiles manager dirs).mapM (loadFilter toml compile) with
  | none =>
      rw [Sorting.mapM_eq_none_of_perm hfiles hloaded]
  | some loaded =>
      obtain ⟨loaded', hloaded', hperm⟩ := Sorting.mapM_perm hfiles hloaded
      have hset : CompiledFilterSet.new loaded.reduceOption = CompiledFilterSet.new loaded'.reduceOption := by
        apply Sorting.sort_eq_of_perm comparePriorityPath (hperm.filterMap id)
        intro a ha b hb heq
        exact eq_of_loaded_path toml compile hdistinct hloaded ha hb (path_eq_of_comparePriorityPath heq)
      rw [hloaded', Option.map_some, Option.map_some, hset]

end Load

end Inspect.Filters
