import Inspect.Filters.Manager.Source

/-!
# `Filters.Manager.Load` — loading a filter directory

The embedding of `load_filter_set`, `ensure_quarantine_dir` and `FilterSnapshot` of `src/filters/manager.rs`. The state
of the file system is `Directories`: for every directory that exists, its entries in the order `read_dir` gives them.

The Roto compiler is the parameter `compile`, which makes a program of type `P` of a file; the TOML parser is
`toml`. The status events that loading sends to the user interface, and the order of log lines, are not modelled here.
-/

namespace Inspect.Filters

/-- One entry of a directory. A file whose contents are not UTF-8 has no `content`. -/
structure DirEntry where
  name : Bytes
  isFile : Bool
  len : UInt64
  modified : Option Nat
  content : Option Str
deriving DecidableEq

/-- The directories that exist, with their entries. -/
abbrev Directories := List (FilterPath × List DirEntry)

/-- The first of `filterDirs` is `filtersDir`, and the quarantine is inside of it. -/
structure FilterManager where
  filtersDir : FilterPath
  filterDirs : List FilterPath
  quarantineDir : FilterPath
  filtersDir_mem : filtersDir ∈ filterDirs
  quarantineDir_eq : quarantineDir = filtersDir ++ [Text.bytes "quarantine".toList]

/-- `FilterManager::new`. -/
def FilterManager.new (filtersDir : FilterPath) : FilterManager where
  filtersDir
  filterDirs := [filtersDir]
  quarantineDir := filtersDir ++ [Text.bytes "quarantine".toList]
  filtersDir_mem := List.mem_singleton_self filtersDir
  quarantineDir_eq := rfl

/-- `with_filter_dir`. -/
def FilterManager.withFilterDir (manager : FilterManager) (filterDir : FilterPath) : FilterManager :=
  { manager with
    filterDirs := manager.filterDirs ++ [filterDir]
    filtersDir_mem := List.mem_append_left [filterDir] manager.filtersDir_mem }

/-- `is_roto_file`. -/
def isRotoFile (entry : DirEntry) : Bool :=
  entry.isFile && ((OsPath.extension entry.name).bind Bytes.fromUtf8).any fun extension =>
    Text.eqIgnoreAsciiCase extension "roto".toList

/-- `filter_file_name`. -/
def filterFileName (path : FilterPath) : Str := (path.fileName.bind Bytes.fromUtf8).getD "unknown.roto".toList

/-- The name of a filter that declares none. -/
def defaultFilterName (path : FilterPath) : Str := (path.fileStem.bind Bytes.fromUtf8).getD "unnamed".toList

/-! ## The quarantine directory -/

/-- An entry that is a directory. -/
def dirEntry (name : Bytes) : DirEntry := ⟨name, false, 0, none, none⟩

/-- `create_dir` of a directory that does not exist. -/
def createDir (dirs : Directories) (dir : FilterPath) : Directories :=
  dirs.map (fun (parent, entries) =>
    (parent, if parent = dir.dropLast then entries ++ (dir.getLast?.map dirEntry).toList else entries)) ++ [(dir, [])]

/-- The directories after `create_dir_all`, which makes those of the path that do not exist, from the root down. If it
    fails, it does so behind the first few of the path: `failed`. -/
def createDirAll (path : FilterPath) (failed : Option Nat) (dirs : Directories) : Directories :=
  ((path.inits.tail.take (failed.getD path.length)).filter fun dir => (dirs.lookup dir).isNone).foldl createDir dirs

/-! ## Snapshots -/

structure FilterSnapshotEntry where
  path : FilterPath
  len : UInt64
  modified : Option Nat
deriving DecidableEq

abbrev FilterSnapshot := List FilterSnapshotEntry

def sortByPath (files : FilterSnapshot) : FilterSnapshot :=
  files.mergeSort fun a b => (compare a.path b.path).isLE

/-- `FilterSnapshot::read`. -/
def FilterSnapshot.read (dirs : Directories) (filtersDir : FilterPath) : FilterSnapshot :=
  match dirs.lookup filtersDir with
  | none => []
  | some entries => sortByPath ((entries.filter isRotoFile).map fun entry =>
      ⟨filtersDir ++ [entry.name], entry.len, entry.modified⟩)

/-- `FilterSnapshot::read_many`. -/
def FilterSnapshot.readMany (dirs : Directories) (filterDirs : List FilterPath) : FilterSnapshot :=
  sortByPath (filterDirs.flatMap (FilterSnapshot.read dirs))

/-! ## Loading -/

/-- `stable_hash_hex`: the 64-bit FNV-1a hash, in sixteen hexadecimal digits. -/
def stableHashHex (value : Str) : Str :=
  let hash := (value.flatMap String.utf8EncodeChar).foldl
    (fun hash byte => (hash ^^^ byte.toUInt64) * 0x100000001b3) (0xcbf29ce484222325 : UInt64)
  (Nat.toDigits 16 hash.toNat).leftpad 16 '0'

/-- `build_filter_id`. -/
def buildFilterId (fileName : Str) (explicitId : Option Str) : Str :=
  let raw := match explicitId with
    | some id => "id\x00".toList ++ id
    | none => "file\x00".toList ++ fileName
  "filter-".toList ++ stableHashHex raw

/-- `is_reserved_generated_id`. -/
def isReservedGeneratedId (id : Str) : Bool := "inspect-generated:".toList.isPrefixOf id

/-- `priority_from_file_name`; a number that is no `i32` is none. -/
def priorityFromFileName (path : FilterPath) : Option Int32 :=
  (path.fileName.bind Bytes.fromUtf8).bind fun fileName =>
    if '-' ∉ fileName then none
    else
      let digits := fileName.takeWhile (· ≠ '-')
      if digits = [] ∨ digits.all Char.isDigit = false then none
      else
        let value := Nat.ofDigitChars 10 digits 0
        if value < 2 ^ 31 then some (Int32.ofInt value) else none

/-- `has_executable_roto_script`. -/
def hasExecutableRotoScript (script : Str) : Bool :=
  ((Text.lines script).map Text.trim).any fun line =>
    !line.isEmpty && !"//".toList.isPrefixOf line && !"/*".toList.isPrefixOf line
      && !"*".toList.isPrefixOf line && !"*/".toList.isPrefixOf line

inductive RotoProgram (P : Type)
  | metadataOnly
  | compiled (filter : P)
deriving DecidableEq

structure CompiledFilter (P : Type) where
  definition : FilterDefinition
  priority : Int32
  program : RotoProgram P
deriving DecidableEq

abbrev CompiledFilterSet (P : Type) := List (CompiledFilter P)

/-- `CompiledFilterSet::new`: by priority, then by path. -/
def CompiledFilterSet.new {P : Type} (filters : List (CompiledFilter P)) : CompiledFilterSet P :=
  filters.mergeSort fun a b =>
    ((compare a.priority.toInt b.priority.toInt).then (compare a.definition.path b.definition.path)).isLE

structure LoadedFilterSet (P : Type) where
  filters : CompiledFilterSet P
  fileNames : List Str
deriving DecidableEq

/-! ## The files of a manager -/

/-- A file that `load_filter_set` hands to `load_filter`. -/
structure ScannedFile where
  path : FilterPath
  entry : DirEntry
  sourceKind : FilterSourceKind
deriving DecidableEq

section Scan

variable (manager : FilterManager) (dirs : Directories)

/-- The files of one filter directory that `load_filter_set` loads. -/
def rotoFiles (filterDir : FilterPath) : List (FilterPath × DirEntry) :=
  (((dirs.lookup filterDir).getD []).map fun entry => (filterDir ++ [entry.name], entry)).filter
    fun (path, entry) => !manager.quarantineDir.isPrefixOf path && isRotoFile entry

/-- The kind of the filters in a directory. -/
def sourceKindOf (filterDir : FilterPath) : FilterSourceKind :=
  if filterDir = manager.filtersDir then .persistent else .generated

/-- The files that `load_filter_set` loads, directory by directory. -/
def scannedFiles : List ScannedFile :=
  manager.filterDirs.flatMap fun filterDir =>
    (rotoFiles manager dirs filterDir).map fun (path, entry) => ⟨path, entry, sourceKindOf manager filterDir⟩

/-- The `file_names` of `load_filter_set`. -/
def scannedFileNames : List Str :=
  ((scannedFiles manager dirs).map fun file => filterFileName file.path).mergeSort
    (fun a b => (compare a b).isLE) |>.destutter (· ≠ ·)

/-- Whether `reload_loop` watches at all. -/
def anyDirExists : Bool := manager.filterDirs.any fun filterDir => (dirs.lookup filterDir).isSome

end Scan

section Load

variable {P : Type} (toml : Str → Option Toml.Table) (compile : FilterPath → Str → Option P)

/-- `compile_filter_definition`. -/
def compileFilterDefinition (definition : FilterDefinition) (priority : Int32) : Option (CompiledFilter P) :=
  if !hasExecutableRotoScript definition.script then some ⟨definition, priority, .metadataOnly⟩
  else (compile definition.path definition.source).map fun filter => ⟨definition, priority, .compiled filter⟩

/-- `load_filter`: the filter of a file, or none if it is disabled or cannot be loaded, and so is skipped. If the parser
    panics there is no result. -/
def loadFilter (file : ScannedFile) : Option (Option (CompiledFilter P)) :=
  match file.entry.content with
  | none => some none
  | some source =>
      match parseFilterSource toml source with
      | .error .panicked => none
      | .error _ => some none
      | .ok (metadata, script) =>
          if file.sourceKind = .persistent ∧ metadata.id.any isReservedGeneratedId then some none
          else
            let priority := metadata.priority.getD ((priorityFromFileName file.path).getD 1000)
            let definition : FilterDefinition :=
              { id := buildFilterId (filterFileName file.path) metadata.id, sourceKind := file.sourceKind,
                fileName := filterFileName file.path, scriptHash := stableHashHex source, path := file.path, source,
                metadata, script }
            some (if !metadata.enabled then none else compileFilterDefinition compile definition priority)

/-- `load_filter_set`; a panic of the parser unwinds it. -/
def loadFilterSet (manager : FilterManager) (dirs : Directories) : Option (LoadedFilterSet P) :=
  ((scannedFiles manager dirs).mapM (loadFilter toml compile)).map fun loaded =>
    { filters := CompiledFilterSet.new loaded.reduceOption, fileNames := scannedFileNames manager dirs }

end Load

/-! ## What a new directory leaves as it is -/

section Create

theorem lookup_map_entries (change : FilterPath → List DirEntry → List DirEntry) (dirs : Directories)
    (filterDir : FilterPath) :
    List.lookup filterDir (dirs.map fun (dir, entries) => (dir, change dir entries))
      = (dirs.lookup filterDir).map (change filterDir) := by
  induction dirs with
  | nil => rfl
  | cons first dirs ih =>
      obtain ⟨dir, entries⟩ := first
      rw [List.map_cons, List.lookup_cons, List.lookup_cons]
      cases hdir : filterDir == dir with
      | true =>
          rw [eq_of_beq hdir]
          rfl
      | false => exact ih

theorem lookup_createDir (dirs : Directories) (dir filterDir : FilterPath) :
    (createDir dirs dir).lookup filterDir
      = ((dirs.lookup filterDir).map fun entries =>
          if filterDir = dir.dropLast then entries ++ (dir.getLast?.map dirEntry).toList else entries).or
        (if filterDir = dir then some [] else none) := by
  unfold createDir
  rw [List.lookup_append, lookup_map_entries fun parent entries =>
    if parent = dir.dropLast then entries ++ (dir.getLast?.map dirEntry).toList else entries]
  congr 1
  rw [List.lookup_cons]
  by_cases hdir : filterDir = dir
  · rw [if_pos hdir, beq_iff_eq.mpr hdir]
  · rw [if_neg hdir, beq_eq_false_iff_ne.mpr hdir]
    rfl

/-- The entries of a directory that are filter files. -/
def rotoEntries (dirs : Directories) (filterDir : FilterPath) : List DirEntry :=
  ((dirs.lookup filterDir).getD []).filter isRotoFile

/-- A new directory is empty, and no filter file of its parent. -/
theorem rotoEntries_createDir (dirs : Directories) (dir filterDir : FilterPath) :
    rotoEntries (createDir dirs dir) filterDir = rotoEntries dirs filterDir := by
  have hentry : ((dir.getLast?.map dirEntry).toList).filter isRotoFile = [] := by
    cases dir.getLast? <;> rfl
  unfold rotoEntries
  rw [lookup_createDir]
  cases dirs.lookup filterDir with
  | none => split_ifs <;> rfl
  | some entries =>
      rw [Option.map_some, Option.some_or, Option.getD_some, Option.getD_some]
      split_ifs
      · rw [List.filter_append, hentry, List.append_nil]
      · rfl

theorem rotoEntries_createDirAll (path : FilterPath) (failed : Option Nat) (dirs : Directories)
    (filterDir : FilterPath) : rotoEntries (createDirAll path failed dirs) filterDir = rotoEntries dirs filterDir := by
  unfold createDirAll
  generalize ((path.inits.tail.take (failed.getD path.length)).filter fun dir => (dirs.lookup dir).isNone) = made
  induction made generalizing dirs with
  | nil => rfl
  | cons dir made ih => exact (ih (createDir dirs dir)).trans (rotoEntries_createDir dirs dir filterDir)

theorem rotoFiles_eq (manager : FilterManager) (dirs : Directories) (filterDir : FilterPath) :
    rotoFiles manager dirs filterDir
      = ((rotoEntries dirs filterDir).map fun entry => (filterDir ++ [entry.name], entry)).filter
          fun (path, _) => !manager.quarantineDir.isPrefixOf path := by
  unfold rotoFiles rotoEntries
  rw [List.filter_map, List.filter_map, List.filter_filter]
  rfl

/-- Loading finds the files that it would have found. -/
theorem scannedFiles_createDirAll (manager : FilterManager) (path : FilterPath) (failed : Option Nat)
    (dirs : Directories) : scannedFiles manager (createDirAll path failed dirs) = scannedFiles manager dirs := by
  unfold scannedFiles
  simp only [rotoFiles_eq, rotoEntries_createDirAll]

theorem loadFilterSet_createDirAll {P : Type} (toml : Str → Option Toml.Table)
    (compile : FilterPath → Str → Option P) (manager : FilterManager) (path : FilterPath) (failed : Option Nat)
    (dirs : Directories) :
    loadFilterSet toml compile manager (createDirAll path failed dirs) = loadFilterSet toml compile manager dirs := by
  unfold loadFilterSet scannedFileNames
  rw [scannedFiles_createDirAll]

theorem read_eq (dirs : Directories) (filterDir : FilterPath) :
    FilterSnapshot.read dirs filterDir = sortByPath ((rotoEntries dirs filterDir).map fun entry =>
      ⟨filterDir ++ [entry.name], entry.len, entry.modified⟩) := by
  unfold FilterSnapshot.read rotoEntries
  cases dirs.lookup filterDir with
  | none => exact List.mergeSort_nil.symm
  | some entries => rfl

/-- So does a snapshot. -/
theorem readMany_createDirAll (path : FilterPath) (failed : Option Nat) (dirs : Directories)
    (filterDirs : List FilterPath) :
    FilterSnapshot.readMany (createDirAll path failed dirs) filterDirs = FilterSnapshot.readMany dirs filterDirs := by
  have hread : FilterSnapshot.read (createDirAll path failed dirs) = FilterSnapshot.read dirs := by
    funext filterDir
    rw [read_eq, read_eq, rotoEntries_createDirAll]
  unfold FilterSnapshot.readMany
  rw [hread]

theorem lookup_foldl_createDir {made : List FilterPath} {dirs : Directories} {filterDir : FilterPath}
    (h : (dirs.lookup filterDir).isSome ∨ filterDir ∈ made) :
    ((made.foldl createDir dirs).lookup filterDir).isSome := by
  induction made generalizing dirs with
  | nil => exact h.resolve_right List.not_mem_nil
  | cons dir made ih =>
      apply ih
      rw [lookup_createDir, Option.isSome_or, Option.isSome_map]
      rcases h with hsome | hmem
      · exact Or.inl (by rw [hsome]; rfl)
      · rcases List.mem_cons.mp hmem with rfl | hmem
        · exact Or.inl (by rw [if_pos rfl, Option.isSome_some, Bool.or_true])
        · exact Or.inr hmem

/-- Every directory of the path exists once it is created. -/
theorem lookup_createDirAll (path : FilterPath) (dirs : Directories) {filterDir : FilterPath}
    (hfront : filterDir <+: path) (hne : filterDir ≠ []) :
    ((createDirAll path none dirs).lookup filterDir).isSome := by
  have hmem : filterDir ∈ path.inits.tail := by
    have hinits := (List.mem_inits filterDir path).mpr hfront
    rw [← List.cons_head_tail (List.ne_nil_of_mem hinits), List.mem_cons] at hinits
    exact hinits.resolve_left fun hnil => hne (by rw [hnil]; cases path <;> rfl)
  have htake : path.inits.tail.take path.length = path.inits.tail := List.take_of_length_le (by simp)
  unfold createDirAll
  rw [Option.getD_none, htake]
  apply lookup_foldl_createDir
  cases hdir : dirs.lookup filterDir with
  | some _ => exact Or.inl rfl
  | none => exact Or.inr (List.mem_filter.mpr ⟨hmem, by rw [hdir]; rfl⟩)

end Create

end Inspect.Filters
