import Inspect.Filters.Correctness.LoadOrder
import Inspect.Filters.Manager.Status
import Mathlib.Data.Fintype.EquivFin

/-!
# `Filters.Correctness.StatusTable` — the table of filter statuses and the directories

A row is identified by an id, deleted by a file name and pruned by a file name, while it stands for a path. A status
therefore removes every row that has its id or its file name (`Touches`), and of the statuses of a reload those stand
that no later one touches (`standing`). What is in the table after a reload is these, and the rows of the previous
table that no status touches and that the prune leaves (`processFilterStatuses_perm`). File names that are no UTF-8 are
recorded as one name, `unknown.roto`.
-/

namespace Inspect.Filters

/-! ## Statuses on the table -/

/-- The later status removes the row, or takes its place. -/
def Touches (later row : FilterStatusMetadata) : Prop :=
  later.filterId = row.filterId ∨ later.fileName = row.fileName

instance (later row : FilterStatusMetadata) : Decidable (Touches later row) :=
  inferInstanceAs (Decidable (later.filterId = row.filterId ∨ later.fileName = row.fileName))

theorem Touches.refl (row : FilterStatusMetadata) : Touches row row := Or.inl rfl

theorem Touches.symm {later row : FilterStatusMetadata} (h : Touches later row) : Touches row later :=
  h.imp Eq.symm Eq.symm

theorem mem_insertFilterStatus {table : FiltersTable} {metadata row : FilterStatusMetadata} :
    row ∈ (insertFilterStatus table metadata).rows
      ↔ row = metadata ∨ (row ∈ table.rows ∧ ¬Touches metadata row) := by
  unfold insertFilterStatus Touches
  rw [KeyedTable.mem_upsert, KeyedTable.mem_deleteWhere]
  refine or_congr Iff.rfl ?_
  simp only [Bool.and_eq_false_iff, beq_eq_false_iff_ne, bne_eq_false_iff_eq, not_or]
  constructor
  · rintro ⟨⟨hrow, hname | hid⟩, hne⟩
    · exact ⟨hrow, Ne.symm hne, Ne.symm hname⟩
    · exact absurd hid hne
  · rintro ⟨hrow, hid, hname⟩
    exact ⟨⟨hrow, Or.inl (Ne.symm hname)⟩, Ne.symm hid⟩

theorem mem_pruneFilterStatuses {maxVariables : Nat} {table : FiltersTable} {fileNames : List Str}
    {row : FilterStatusMetadata} :
    row ∈ (pruneFilterStatuses maxVariables table fileNames).rows
      ↔ row ∈ table.rows ∧ (fileNames.length ≤ maxVariables → row.fileName ∈ fileNames) := by
  unfold pruneFilterStatuses
  split
  · rename_i hnil
    rw [KeyedTable.mem_deleteWhere, hnil]
    simp
  split
  · rename_i hfew
    rw [KeyedTable.mem_deleteWhere]
    simp [hfew]
  · rename_i hmany
    exact ⟨fun h => ⟨h, fun hfew => absurd hfew hmany⟩, fun h => h.1⟩

/-- A status that is sent, with its file. -/
abbrev SentStatus := ScannedFile × FilterStatusMetadata

/-- The statuses that no later one touches. -/
def standing : List SentStatus → List SentStatus
  | [] => []
  | sent :: later => if ∃ other ∈ later, Touches other.2 sent.2 then standing later else sent :: standing later

theorem standing_sublist (statuses : List SentStatus) : (standing statuses).Sublist statuses := by
  induction statuses with
  | nil => exact List.Sublist.slnil
  | cons first later ih =>
      rw [standing]
      split
      · exact ih.cons first
      · exact ih.cons_cons first

/-- Two statuses that stand have nothing in common. -/
theorem standing_pairwise (statuses : List SentStatus) :
    (standing statuses).Pairwise fun sent later => ¬Touches sent.2 later.2 := by
  induction statuses with
  | nil => exact List.Pairwise.nil
  | cons first later ih =>
      rw [standing]
      split
      · exact ih
      · rename_i hnone
        refine List.pairwise_cons.mpr ⟨?_, ih⟩
        intro other hother htouches
        exact hnone ⟨other, (standing_sublist later).subset hother, htouches.symm⟩

theorem eq_of_touches {sent other : SentStatus} {statuses : List SentStatus} (h : sent ∈ standing statuses)
    (hother : other ∈ standing statuses) (htouches : Touches sent.2 other.2) : sent = other := by
  have : Std.Symm fun a b : SentStatus => ¬Touches a.2 b.2 := ⟨fun _ _ hnot hsymm => hnot hsymm.symm⟩
  by_contra hne
  exact (standing_pairwise statuses).forall h hother hne htouches

/-- If none touches another one, all stand. -/
theorem mem_standing_of_eq_of_touches {statuses : List SentStatus} {sent : SentStatus}
    (heq : ∀ a ∈ statuses, ∀ b ∈ statuses, Touches a.2 b.2 → a = b) (h : sent ∈ statuses) :
    sent ∈ standing statuses := by
  induction statuses with
  | nil => cases h
  | cons first later ih =>
      have ihLater := ih fun a ha b hb => heq a (List.mem_cons_of_mem _ ha) b (List.mem_cons_of_mem _ hb)
      rw [standing]
      split
      · rename_i hlater
        rcases List.mem_cons.mp h with rfl | hmem
        · -- the later one that touches it is the same status
          obtain ⟨other, hother, htouches⟩ := hlater
          obtain rfl := heq other (List.mem_cons_of_mem _ hother) sent h htouches
          exact ihLater hother
        · exact ihLater hmem
      · rcases List.mem_cons.mp h with rfl | hmem
        · exact List.mem_cons_self
        · exact List.mem_cons_of_mem _ (ihLater hmem)

theorem mem_standing_cons {first : SentStatus} {row : FilterStatusMetadata} {later : List SentStatus} :
    row ∈ (standing (first :: later)).map Prod.snd
      ↔ row ∈ (standing later).map Prod.snd ∨ (row = first.2 ∧ ∀ sent ∈ later, ¬Touches sent.2 row) := by
  rw [standing]
  split
  · rename_i hlater
    refine ⟨Or.inl, ?_⟩
    rintro (h | ⟨rfl, hnone⟩)
    · exact h
    · obtain ⟨other, hother, htouches⟩ := hlater
      exact absurd htouches (hnone other hother)
  · rename_i hnone
    rw [List.map_cons, List.mem_cons, or_comm]
    refine or_congr Iff.rfl ⟨?_, fun h => h.1⟩
    rintro rfl
    exact ⟨rfl, fun other hother htouches => hnone ⟨other, hother, htouches⟩⟩

/-- **Statuses one after the other**: those that stand, and the rows that none of them touches. -/
theorem mem_foldl_insertFilterStatus {table : FiltersTable} {statuses : List SentStatus}
    {row : FilterStatusMetadata} :
    row ∈ ((statuses.map Prod.snd).foldl insertFilterStatus table).rows
      ↔ row ∈ (standing statuses).map Prod.snd ∨ (row ∈ table.rows ∧ ∀ sent ∈ statuses, ¬Touches sent.2 row) := by
  induction statuses generalizing table with
  | nil => simp [standing]
  | cons first later ih =>
      rw [List.map_cons, List.foldl_cons, ih, mem_insertFilterStatus, List.forall_mem_cons]
      rw [mem_standing_cons]
      constructor
      · rintro (h | ⟨rfl | ⟨hrow, hfirst⟩, hlater⟩)
        · exact Or.inl (Or.inl h)
        · exact Or.inl (Or.inr ⟨rfl, hlater⟩)
        · exact Or.inr ⟨hrow, hfirst, hlater⟩
      · rintro ((h | ⟨rfl, hlater⟩) | ⟨hrow, hfirst, hlater⟩)
        · exact Or.inl h
        · exact Or.inr ⟨Or.inl rfl, hlater⟩
        · exact Or.inr ⟨Or.inr ⟨hrow, hfirst⟩, hlater⟩

/-! ## The statuses of a reload -/

section Reload

variable {P : Type} (toml : Str → Option Toml.Table) (compile : FilterPath → Str → Option P)
  (describe : FilterSourceError → Str) (compileError : FilterPath → Str → Str)

/-- The id that a file is recorded under. -/
def recordedId (fileName source : Str) : Str :=
  match parseFilterSource toml source with
  | .error _ => buildFilterId fileName none
  | .ok (metadata, _) => buildFilterId fileName metadata.id

variable {toml compile describe compileError}

/-- **What is recorded about a file**: it is readable, and its path, its file name and its id are recorded. -/
theorem recordedStatus_status {file : ScannedFile} {metadata : FilterStatusMetadata}
    (h : recordedStatus toml compile describe compileError file = .status metadata) :
    metadata.path = file.path.toStringLossy ∧ metadata.fileName = filterFileName file.path
      ∧ ∃ source, file.entry.content = some source ∧ parseFilterSource toml source ≠ .error .panicked
        ∧ metadata.filterId = recordedId toml (filterFileName file.path) source := by
  -- the branches of the source: unreadable, no front matter, a reserved id, disabled, compiled or rejected
  unfold recordedStatus at h
  split at h
  · cases h
  · rename_i source hcontent
    unfold recordedId
    split at h
    · cases h
    · rename_i error hnot hparse
      cases h
      refine ⟨rfl, rfl, source, hcontent, ?_, ?_⟩
      · rw [hparse]
        intro heq
        cases heq
        exact hnot rfl
      · rw [hparse]
        rfl
    · rename_i parsed script hparse
      have hne : parseFilterSource toml source ≠ .error .panicked := by
        rw [hparse]
        intro heq
        cases heq
      dsimp only at h
      split_ifs at h
      · cases h
        exact ⟨rfl, rfl, source, hcontent, hne, by rw [hparse]; rfl⟩
      · cases h
        exact ⟨rfl, rfl, source, hcontent, hne, by rw [hparse]; rfl⟩
      · split at h
        · rename_i filter hcompile
          cases h
          have hdefinition := compileFilterDefinition_definition compile hcompile
          refine ⟨?_, ?_, source, hcontent, hne, ?_⟩
          · show filter.definition.path.toStringLossy = file.path.toStringLossy
            rw [hdefinition]
          · show filter.definition.fileName = filterFileName file.path
            rw [hdefinition]
          · show filter.definition.id = _
            rw [hdefinition, hparse]
        · cases h
          exact ⟨rfl, rfl, source, hcontent, hne, by rw [hparse]; rfl⟩

/-- A file that can be read and parsed without a panic is recorded. -/
theorem exists_recordedStatus {file : ScannedFile} {source : Str} (hcontent : file.entry.content = some source)
    (hparse : parseFilterSource toml source ≠ .error .panicked) :
    ∃ metadata, recordedStatus toml compile describe compileError file = .status metadata := by
  unfold recordedStatus
  rw [hcontent]
  dsimp only
  split
  · rename_i heq
    exact absurd heq hparse
  · exact ⟨_, rfl⟩
  · split_ifs
    · exact ⟨_, rfl⟩
    · exact ⟨_, rfl⟩
    · split
      · exact ⟨_, rfl⟩
      · exact ⟨_, rfl⟩

variable (toml compile describe compileError)

/-- The statuses that are enqueued, in order. -/
def sentStatuses : List ScannedFile → List SentStatus
  | [] => []
  | file :: files =>
      match recordedStatus toml compile describe compileError file with
      | .unreadable => sentStatuses files
      | .panicked => []
      | .status metadata => (file, metadata) :: sentStatuses files

/-- No file makes the loader panic, so that the prune event is sent. -/
def Finishes (files : List ScannedFile) : Prop :=
  ∀ file ∈ files, recordedStatus toml compile describe compileError file ≠ .panicked

instance (files : List ScannedFile) : Decidable (Finishes toml compile describe compileError files) :=
  inferInstanceAs (Decidable (∀ file ∈ files, recordedStatus toml compile describe compileError file ≠ .panicked))

variable {toml compile describe compileError}

theorem mem_of_mem_sentStatuses {files : List ScannedFile} {sent : SentStatus}
    (h : sent ∈ sentStatuses toml compile describe compileError files) :
    sent.1 ∈ files ∧ recordedStatus toml compile describe compileError sent.1 = .status sent.2 := by
  induction files with
  | nil => cases h
  | cons file files ih =>
      unfold sentStatuses at h
      split at h
      · exact ⟨List.mem_cons_of_mem _ (ih h).1, (ih h).2⟩
      · cases h
      · rename_i first hfirst
        rcases List.mem_cons.mp h with rfl | h
        · exact ⟨List.mem_cons_self, hfirst⟩
        · exact ⟨List.mem_cons_of_mem _ (ih h).1, (ih h).2⟩

theorem mem_sentStatuses {files : List ScannedFile} (hfinishes : Finishes toml compile describe compileError files)
    {file : ScannedFile} (hfile : file ∈ files) {metadata : FilterStatusMetadata}
    (hstatus : recordedStatus toml compile describe compileError file = .status metadata) :
    (file, metadata) ∈ sentStatuses toml compile describe compileError files := by
  induction files with
  | nil => cases hfile
  | cons first files ih =>
      have ihFiles := ih fun other hother => hfinishes other (List.mem_cons_of_mem _ hother)
      rw [sentStatuses]
      rcases List.mem_cons.mp hfile with rfl | hfile
      · rw [hstatus]
        exact List.mem_cons_self
      · split
        · exact ihFiles hfile
        · rename_i hpanicked
          exact absurd hpanicked (hfinishes first List.mem_cons_self)
        · exact List.mem_cons_of_mem _ (ihFiles hfile)

/-- The queue of a reload: the statuses, and the prune event if the loader gets to it. -/
theorem enqueueStatuses_eq (fileNames : List Str) (files : List ScannedFile) :
    enqueueStatuses toml compile describe compileError fileNames files
      = ((sentStatuses toml compile describe compileError files).map Prod.snd).map FilterStatusEvent.status
        ++ if Finishes toml compile describe compileError files then [.prune fileNames] else [] := by
  induction files with
  | nil =>
      have hfinishes : Finishes toml compile describe compileError [] := fun _ h => nomatch h
      rw [if_pos hfinishes]
      rfl
  | cons file files ih =>
      have hcons : Finishes toml compile describe compileError (file :: files)
          ↔ recordedStatus toml compile describe compileError file ≠ .panicked
            ∧ Finishes toml compile describe compileError files := List.forall_mem_cons
      rw [enqueueStatuses, sentStatuses]
      cases hstatus : recordedStatus toml compile describe compileError file with
      | unreadable => simpa [hcons, hstatus] using ih
      | panicked => simp [hcons, hstatus]
      | status metadata => simpa [hcons, hstatus] using ih

theorem loadFilter_eq_none_iff {file : ScannedFile} :
    loadFilter toml compile file = none ↔ recordedStatus toml compile describe compileError file = .panicked := by
  unfold loadFilter recordedStatus
  cases file.entry.content with
  | none => exact ⟨nofun, nofun⟩
  | some source =>
      dsimp only
      cases parseFilterSource toml source with
      | error error => cases error <;> simp
      | ok parsed =>
          dsimp only
          split_ifs
          · simp
          · simp
          · split <;> simp

/-- The prune event is sent exactly if there is a set to store. -/
theorem finishes_iff (manager : FilterManager) (dirs : Directories) :
    Finishes toml compile describe compileError (scannedFiles manager dirs)
      ↔ (loadFilterSet toml compile manager dirs).isSome := by
  unfold loadFilterSet Finishes
  rw [Option.isSome_map, Sorting.isSome_mapM_iff]
  refine forall₂_congr fun file _ => ?_
  rw [← not_iff_not, not_not, Option.not_isSome_iff_eq_none]
  exact loadFilter_eq_none_iff.symm

/-! ## The table after a reload -/

variable (manager : FilterManager) (dirs : Directories)

/-- The paths of the scanned files. -/
def scannedPaths : List FilterPath := ((scannedFiles manager dirs).map ScannedFile.path).dedup

/-- The names in a directory are different. -/
def UniqueNames : Prop :=
  ∀ filterDir ∈ manager.filterDirs, (((dirs.lookup filterDir).getD []).map DirEntry.name).Nodup

/-- There is exactly one row for each of the paths, and no other row. A row has the text of its path. -/
def Mirrors (rows : List FilterStatusMetadata) (paths : List FilterPath) : Prop :=
  (rows.map FilterStatusMetadata.path).Perm (paths.map FilterPath.toStringLossy)

instance (rows : List FilterStatusMetadata) (paths : List FilterPath) : Decidable (Mirrors rows paths) :=
  inferInstanceAs (Decidable (List.Perm _ _))

variable (toml compile describe compileError)

/-- The statuses of a reload whose rows it leaves behind. -/
def reloaded : List SentStatus :=
  standing (sentStatuses toml compile describe compileError (scannedFiles manager dirs))

/-- The rows of the previous table that are left: no status touches them, and the prune, if it works, does not delete
    them. -/
def keptRows (maxVariables : Nat) (table : FiltersTable) : List FilterStatusMetadata :=
  table.rows.filter fun row =>
    (∀ sent ∈ sentStatuses toml compile describe compileError (scannedFiles manager dirs), ¬Touches sent.2 row)
    ∧ (Finishes toml compile describe compileError (scannedFiles manager dirs)
        → (scannedFileNames manager dirs).length ≤ maxVariables
        → row.fileName ∈ scannedFileNames manager dirs)

/-- The scanned paths without a status that stands: nothing was recorded, or a later status has taken the row. -/
def lostPaths : List FilterPath :=
  (scannedPaths manager dirs).filter fun path =>
    !((reloaded toml compile describe compileError manager dirs).map fun sent => sent.1.path).contains path

/-- Every scanned file can be recorded, and files with different paths have different recorded names and different
    ids. -/
structure Separate (files : List ScannedFile) : Prop where
  recordable : ∀ file ∈ files, ∃ source, file.entry.content = some source
    ∧ parseFilterSource toml source ≠ .error .panicked
  names : ∀ file ∈ files, ∀ file' ∈ files, filterFileName file.path = filterFileName file'.path
    → file.path = file'.path
  ids : ∀ file ∈ files, ∀ file' ∈ files, ∀ source source' : Str,
    file.entry.content = some source → file'.entry.content = some source'
      → recordedId toml (filterFileName file.path) source = recordedId toml (filterFileName file'.path) source'
      → file.path = file'.path

variable {manager dirs toml compile describe compileError}

theorem mem_scannedFileNames {name : Str} :
    name ∈ scannedFileNames manager dirs ↔ ∃ file ∈ scannedFiles manager dirs, filterFileName file.path = name := by
  unfold scannedFileNames
  rw [Sorting.mem_destutter_ne, (List.mergeSort_perm _ _).mem_iff, List.mem_map]

theorem mem_scannedPaths {path : FilterPath} :
    path ∈ scannedPaths manager dirs ↔ ∃ file ∈ scannedFiles manager dirs, file.path = path := by
  unfold scannedPaths
  rw [List.mem_dedup, List.mem_map]

theorem mem_sent_of_mem_reloaded {sent : SentStatus}
    (h : sent ∈ reloaded toml compile describe compileError manager dirs) :
    sent ∈ sentStatuses toml compile describe compileError (scannedFiles manager dirs) :=
  (standing_sublist _).subset h

/-- A file that was scanned keeps its name through the prune. -/
theorem fileName_mem_scannedFileNames {sent : SentStatus}
    (h : sent ∈ sentStatuses toml compile describe compileError (scannedFiles manager dirs)) :
    sent.2.fileName ∈ scannedFileNames manager dirs := by
  obtain ⟨hfile, hstatus⟩ := mem_of_mem_sentStatuses h
  exact mem_scannedFileNames.mpr ⟨sent.1, hfile, (recordedStatus_status hstatus).2.1.symm⟩

theorem mem_keptRows {maxVariables : Nat} {table : FiltersTable} {row : FilterStatusMetadata} :
    row ∈ keptRows toml compile describe compileError manager dirs maxVariables table
      ↔ row ∈ table.rows
        ∧ (∀ sent ∈ sentStatuses toml compile describe compileError (scannedFiles manager dirs), ¬Touches sent.2 row)
        ∧ (Finishes toml compile describe compileError (scannedFiles manager dirs)
            → (scannedFileNames manager dirs).length ≤ maxVariables
            → row.fileName ∈ scannedFileNames manager dirs) := by
  unfold keptRows
  rw [List.mem_filter, decide_eq_true_eq]

theorem mem_processFilterStatuses {maxVariables : Nat} {table : FiltersTable} {row : FilterStatusMetadata} :
    row ∈ (processFilterStatuses maxVariables table
        (reloadEvents toml compile describe compileError manager dirs)).rows
      ↔ row ∈ (reloaded toml compile describe compileError manager dirs).map Prod.snd
        ∨ row ∈ keptRows toml compile describe compileError manager dirs maxVariables table := by
  have hinsert : ∀ (statuses : List FilterStatusMetadata) (table : FiltersTable),
      (statuses.map FilterStatusEvent.status).foldl (processFilterStatus maxVariables) table
        = statuses.foldl insertFilterStatus table := by
    intro statuses table
    rw [List.foldl_map]
    rfl
  unfold processFilterStatuses reloadEvents
  rw [enqueueStatuses_eq, List.foldl_append, hinsert, mem_keptRows]
  by_cases hfinishes : Finishes toml compile describe compileError (scannedFiles manager dirs)
  · rw [if_pos hfinishes]
    show row ∈ (pruneFilterStatuses maxVariables _ _).rows ↔ _
    rw [mem_pruneFilterStatuses, mem_foldl_insertFilterStatus]
    constructor
    · rintro ⟨hrow | ⟨hrow, hnone⟩, hname⟩
      · exact Or.inl hrow
      · exact Or.inr ⟨hrow, hnone, fun _ => hname⟩
    · rintro (hrow | ⟨hrow, hnone, hname⟩)
      · obtain ⟨sent, hsent, rfl⟩ := List.mem_map.mp hrow
        exact ⟨Or.inl hrow, fun _ => fileName_mem_scannedFileNames (mem_sent_of_mem_reloaded hsent)⟩
      · exact ⟨Or.inr ⟨hrow, hnone⟩, hname hfinishes⟩
  · rw [if_neg hfinishes, List.foldl_nil, mem_foldl_insertFilterStatus]
    refine or_congr Iff.rfl ⟨?_, ?_⟩
    · rintro ⟨hrow, hnone⟩
      exact ⟨hrow, hnone, fun h => absurd h hfinishes⟩
    · rintro ⟨hrow, hnone, -⟩
      exact ⟨hrow, hnone⟩

/-- **What a reload leaves in the table**: the statuses that stand, and the rows it keeps. -/
theorem processFilterStatuses_perm (maxVariables : Nat) (table : FiltersTable) :
    (processFilterStatuses maxVariables table (reloadEvents toml compile describe compileError manager dirs)).rows.Perm
      ((reloaded toml compile describe compileError manager dirs).map Prod.snd
        ++ keptRows toml compile describe compileError manager dirs maxVariables table) := by
  rw [List.perm_ext_iff_of_nodup (KeyedTable.keys _).of_map]
  · intro row
    rw [mem_processFilterStatuses, List.mem_append]
  · refine List.nodup_append.mpr ⟨?_, table.keys.of_map.filter _, ?_⟩
    · refine List.pairwise_map.mpr ((standing_pairwise _).imp ?_)
      intro sent later hnot heq
      exact hnot (heq ▸ Touches.refl sent.2)
    · rintro row hrow other hother rfl
      obtain ⟨sent, hsent, rfl⟩ := List.mem_map.mp hrow
      exact (mem_keptRows.mp hother).2.1 sent (mem_sent_of_mem_reloaded hsent) (Touches.refl sent.2)

/-- A path is one file. -/
theorem scannedFile_eq_of_path (hnames : UniqueNames manager dirs) {file file' : ScannedFile}
    (hfile : file ∈ scannedFiles manager dirs) (hfile' : file' ∈ scannedFiles manager dirs)
    (hpath : file.path = file'.path) : file = file' := by
  obtain ⟨filterDir, hdir, hentry, hkind, hfilePath⟩ := path_of_mem_scannedFiles hfile
  obtain ⟨filterDir', -, hentry', hkind', hfilePath'⟩ := path_of_mem_scannedFiles hfile'
  obtain ⟨rfl, hname⟩ := List.append_inj' (hfilePath.symm.trans (hpath.trans hfilePath')) rfl
  -- both entries are in the directory, under one name
  have hmem : ∀ {path : FilterPath} {entry : DirEntry}, (path, entry) ∈ rotoFiles manager dirs filterDir
      → entry ∈ (dirs.lookup filterDir).getD [] := by
    intro path entry h
    obtain ⟨entry', hentry', heq⟩ := List.mem_map.mp (List.mem_of_mem_filter h)
    cases heq
    exact hentry'
  have hentries : file.entry = file'.entry :=
    List.inj_on_of_nodup_map (hnames filterDir hdir) (hmem hentry) (hmem hentry') (List.singleton_inj.mp hname)
  cases file
  cases file'
  dsimp only at hpath hentries hkind hkind'
  rw [hpath, hentries, hkind, hkind']

theorem sent_eq_of_path (hnames : UniqueNames manager dirs) {sent sent' : SentStatus}
    (h : sent ∈ sentStatuses toml compile describe compileError (scannedFiles manager dirs))
    (h' : sent' ∈ sentStatuses toml compile describe compileError (scannedFiles manager dirs))
    (hpath : sent.1.path = sent'.1.path) : sent = sent' := by
  obtain ⟨hfile, hstatus⟩ := mem_of_mem_sentStatuses h
  obtain ⟨hfile', hstatus'⟩ := mem_of_mem_sentStatuses h'
  have hfiles := scannedFile_eq_of_path hnames hfile hfile' hpath
  rw [hfiles, hstatus'] at hstatus
  exact Prod.ext hfiles (RecordedStatus.status.inj hstatus).symm

/-- The scanned paths: those whose status stands, and the lost ones. -/
theorem scannedPaths_perm (hnames : UniqueNames manager dirs) :
    (scannedPaths manager dirs).Perm
      (((reloaded toml compile describe compileError manager dirs).map fun sent => sent.1.path)
        ++ lostPaths toml compile describe compileError manager dirs) := by
  refine perm_append_filter (List.nodup_dedup _) ?_ ?_
  · refine List.pairwise_map.mpr ((standing_pairwise _).imp_of_mem ?_)
    intro sent later hsent hlater hnot hpath
    have heq := sent_eq_of_path hnames (mem_sent_of_mem_reloaded hsent) (mem_sent_of_mem_reloaded hlater) hpath
    exact hnot (heq ▸ Touches.refl sent.2)
  · intro path hpath
    obtain ⟨sent, hsent, rfl⟩ := List.mem_map.mp hpath
    exact mem_scannedPaths.mpr ⟨sent.1, (mem_of_mem_sentStatuses (mem_sent_of_mem_reloaded hsent)).1, rfl⟩

/-- **The table after a reload mirrors the directories** exactly if the rows that are left from the previous table
    mirror the paths that have lost their status. -/
theorem mirrors_iff_keptRows (hnames : UniqueNames manager dirs) (maxVariables : Nat) (table : FiltersTable) :
    Mirrors (processFilterStatuses maxVariables table
        (reloadEvents toml compile describe compileError manager dirs)).rows (scannedPaths manager dirs)
      ↔ Mirrors (keptRows toml compile describe compileError manager dirs maxVariables table)
          (lostPaths toml compile describe compileError manager dirs) := by
  refine map_perm_iff (processFilterStatuses_perm maxVariables table) (scannedPaths_perm hnames) ?_
  rw [List.map_map, List.map_map]
  refine List.map_congr_left fun sent hsent => ?_
  exact (recordedStatus_status (mem_of_mem_sentStatuses (mem_sent_of_mem_reloaded hsent)).2).1

/-- Files that are separate leave no row of a previous table, and no path without its row. -/
theorem mirrors_of_separate (hnames : UniqueNames manager dirs) (hseparate : Separate toml (scannedFiles manager dirs))
    {maxVariables : Nat} (hfew : (scannedFileNames manager dirs).length ≤ maxVariables) (table : FiltersTable) :
    Mirrors (processFilterStatuses maxVariables table
      (reloadEvents toml compile describe compileError manager dirs)).rows (scannedPaths manager dirs) := by
  have hrecorded : ∀ file ∈ scannedFiles manager dirs, ∃ metadata,
      recordedStatus toml compile describe compileError file = .status metadata := by
    intro file hfile
    obtain ⟨source, hcontent, hparse⟩ := hseparate.recordable file hfile
    exact exists_recordedStatus hcontent hparse
  have hfinishes : Finishes toml compile describe compileError (scannedFiles manager dirs) := by
    intro file hfile hpanicked
    obtain ⟨metadata, hstatus⟩ := hrecorded file hfile
    rw [hstatus] at hpanicked
    cases hpanicked
  -- two statuses with one name or one id are of one path, and so the same
  have htouches : ∀ a ∈ sentStatuses toml compile describe compileError (scannedFiles manager dirs),
      ∀ b ∈ sentStatuses toml compile describe compileError (scannedFiles manager dirs),
        Touches a.2 b.2 → a = b := by
    intro a ha b hb h
    obtain ⟨hfile, hstatus⟩ := mem_of_mem_sentStatuses ha
    obtain ⟨hfile', hstatus'⟩ := mem_of_mem_sentStatuses hb
    obtain ⟨-, hname, source, hcontent, -, hid⟩ := recordedStatus_status hstatus
    obtain ⟨-, hname', source', hcontent', -, hid'⟩ := recordedStatus_status hstatus'
    apply sent_eq_of_path hnames ha hb
    rcases h with h | h
    · rw [hid, hid'] at h
      exact hseparate.ids a.1 hfile b.1 hfile' source source' hcontent hcontent' h
    · rw [hname, hname'] at h
      exact hseparate.names a.1 hfile b.1 hfile' h
  have hkept : keptRows toml compile describe compileError manager dirs maxVariables table = [] := by
    refine List.eq_nil_iff_forall_not_mem.mpr fun row hrow => ?_
    obtain ⟨-, hnone, hname⟩ := mem_keptRows.mp hrow
    obtain ⟨file, hfile, hfileName⟩ := mem_scannedFileNames.mp (hname hfinishes hfew)
    obtain ⟨metadata, hstatus⟩ := hrecorded file hfile
    refine hnone (file, metadata) (mem_sentStatuses hfinishes hfile hstatus) (Or.inr ?_)
    exact (recordedStatus_status hstatus).2.1.trans hfileName
  have hlost : lostPaths toml compile describe compileError manager dirs = [] := by
    refine List.filter_eq_nil_iff.mpr fun path hpath hnot => ?_
    obtain ⟨file, hfile, rfl⟩ := mem_scannedPaths.mp hpath
    obtain ⟨metadata, hstatus⟩ := hrecorded file hfile
    rw [Bool.not_eq_true', List.contains_eq_mem, decide_eq_false_iff_not] at hnot
    refine hnot (List.mem_map.mpr ⟨(file, metadata), ?_, rfl⟩)
    exact mem_standing_of_eq_of_touches htouches (mem_sentStatuses hfinishes hfile hstatus)
  rw [mirrors_iff_keptRows hnames, hkept, hlost]
  exact List.Perm.nil

/-- A row of a file that was never scanned. -/
def staleRow (fileName filterId : Str) : FilterStatusMetadata where
  filterId
  sourceKind := .generated
  fileName
  path := []
  explicitId := none
  name := []
  enabled := true
  valid := true
  priority := none
  scriptHash := []
  scriptLen := 0
  programKind := none
  lastError := none

/-- If the table mirrors the directories whatever it held before, the files are separate, and their names fit into one
    statement. -/
theorem separate_of_mirrors {maxVariables : Nat}
    (hmirrors : ∀ table : FiltersTable, Mirrors (processFilterStatuses maxVariables table
      (reloadEvents toml compile describe compileError manager dirs)).rows (scannedPaths manager dirs))
    (hnames : UniqueNames manager dirs) :
    Separate toml (scannedFiles manager dirs) ∧ (scannedFileNames manager dirs).length ≤ maxVariables := by
  -- of an empty table nothing is left, so no path has lost its status
  have hlost : lostPaths toml compile describe compileError manager dirs = [] := by
    have hempty := (mirrors_iff_keptRows hnames maxVariables KeyedTable.empty).mp (hmirrors KeyedTable.empty)
    exact List.map_eq_nil_iff.mp (List.nil_perm.mp hempty)
  have hstatus : ∀ file ∈ scannedFiles manager dirs, ∃ metadata,
      (file, metadata) ∈ reloaded toml compile describe compileError manager dirs := by
    intro file hfile
    have hpath := List.filter_eq_nil_iff.mp hlost file.path (mem_scannedPaths.mpr ⟨file, hfile, rfl⟩)
    rw [Bool.not_eq_true', Bool.not_eq_false, List.contains_iff_mem] at hpath
    obtain ⟨sent, hsent, hpath⟩ := List.mem_map.mp hpath
    have hsentFile := (mem_of_mem_sentStatuses (mem_sent_of_mem_reloaded hsent)).1
    obtain rfl := scannedFile_eq_of_path hnames hsentFile hfile hpath
    exact ⟨sent.2, hsent⟩
  have hrecorded : ∀ {file : ScannedFile} {metadata : FilterStatusMetadata},
      (file, metadata) ∈ reloaded toml compile describe compileError manager dirs →
        recordedStatus toml compile describe compileError file = .status metadata :=
    fun hmem => (mem_of_mem_sentStatuses (mem_sent_of_mem_reloaded hmem)).2
  refine ⟨⟨?_, ?_, ?_⟩, ?_⟩
  · intro file hfile
    obtain ⟨metadata, hmem⟩ := hstatus file hfile
    obtain ⟨-, -, source, hcontent, hparse, -⟩ := recordedStatus_status (hrecorded hmem)
    exact ⟨source, hcontent, hparse⟩
  · intro file hfile file' hfile' hname
    obtain ⟨metadata, hmem⟩ := hstatus file hfile
    obtain ⟨metadata', hmem'⟩ := hstatus file' hfile'
    have hfileName := (recordedStatus_status (hrecorded hmem)).2.1
    have hfileName' := (recordedStatus_status (hrecorded hmem')).2.1
    have htouches : Touches metadata metadata' := Or.inr (by rw [hfileName, hfileName', hname])
    exact congrArg (fun sent : SentStatus => sent.1.path) (eq_of_touches hmem hmem' htouches)
  · intro file hfile file' hfile' source source' hcontent hcontent' hid
    obtain ⟨metadata, hmem⟩ := hstatus file hfile
    obtain ⟨metadata', hmem'⟩ := hstatus file' hfile'
    obtain ⟨-, -, _, hsource, -, hfilterId⟩ := recordedStatus_status (hrecorded hmem)
    obtain ⟨-, -, _, hsource', -, hfilterId'⟩ := recordedStatus_status (hrecorded hmem')
    cases hcontent.symm.trans hsource
    cases hcontent'.symm.trans hsource'
    have htouches : Touches metadata metadata' := Or.inl (by rw [hfilterId, hfilterId', hid])
    exact congrArg (fun sent : SentStatus => sent.1.path) (eq_of_touches hmem hmem' htouches)
  · by_contra hmany
    set statuses := (sentStatuses toml compile describe compileError (scannedFiles manager dirs)).map Prod.snd
      with hstatuses
    -- a row with a name and an id of its own survives, for the statement of the prune fails
    obtain ⟨fresh, hfresh⟩ := Infinite.exists_notMem_finset
      ((statuses.map FilterStatusMetadata.fileName ++ statuses.map FilterStatusMetadata.filterId).toFinset)
    rw [List.mem_toFinset, List.mem_append, not_or, List.mem_map, List.mem_map] at hfresh
    obtain ⟨hfreshName, hfreshId⟩ := hfresh
    let table : FiltersTable := ⟨[staleRow fresh fresh], List.nodup_singleton _⟩
    have hkept : staleRow fresh fresh ∈ keptRows toml compile describe compileError manager dirs maxVariables table := by
      refine mem_keptRows.mpr ⟨List.mem_singleton_self _, ?_, fun _ hfew => absurd hfew hmany⟩
      intro sent hsent htouches
      have hmem : sent.2 ∈ statuses := List.mem_map_of_mem hsent
      rcases htouches with hid | hname
      · exact hfreshId ⟨sent.2, hmem, hid⟩
      · exact hfreshName ⟨sent.2, hmem, hname⟩
    have hleft := (mirrors_iff_keptRows hnames maxVariables table).mp (hmirrors table)
    rw [hlost] at hleft
    rw [List.map_eq_nil_iff.mp (List.perm_nil.mp hleft)] at hkept
    cases hkept

/-- **The table of filter statuses and the directories.** After a reload there is one row for each scanned path, and no
    other row, exactly if the rows left from the previous table are the rows of the paths that lost their status. This
    is so whatever the table held exactly if every file can be read and parsed, files with different paths have
    different recorded names and different ids, and SQLite takes the names in one statement. -/
theorem processFilterStatuses_mirrors_iff (toml : Str → Option Toml.Table) (compile : FilterPath → Str → Option P)
    (describe : FilterSourceError → Str) (compileError : FilterPath → Str → Str) (maxVariables : Nat)
    (manager : FilterManager) (dirs : Directories) (hnames : UniqueNames manager dirs) :
    (∀ table : FiltersTable,
      Mirrors (processFilterStatuses maxVariables table
          (reloadEvents toml compile describe compileError manager dirs)).rows (scannedPaths manager dirs)
        ↔ Mirrors (keptRows toml compile describe compileError manager dirs maxVariables table)
            (lostPaths toml compile describe compileError manager dirs))
      ∧ ((∀ table : FiltersTable,
            Mirrors (processFilterStatuses maxVariables table
              (reloadEvents toml compile describe compileError manager dirs)).rows (scannedPaths manager dirs))
          ↔ Separate toml (scannedFiles manager dirs) ∧ (scannedFileNames manager dirs).length ≤ maxVariables) := by
  refine ⟨mirrors_iff_keptRows hnames maxVariables, ?_, ?_⟩
  · intro hmirrors
    exact separate_of_mirrors hmirrors hnames
  · rintro ⟨hseparate, hfew⟩
    exact mirrors_of_separate hnames hseparate hfew

end Reload

/-! ## Two directories -/

/-- Persistent filters in `f`, generated filters in `g`. -/
def twoDirsManager : FilterManager :=
  (FilterManager.new [Text.bytes "f".toList]).withFilterDir [Text.bytes "g".toList]

/-- A filter without front matter in each of two directories. -/
def twoDirs (persistentName generatedName : Bytes) : Directories :=
  [([Text.bytes "f".toList], [⟨persistentName, true, 3, none, some "// ".toList⟩]),
    ([Text.bytes "g".toList], [⟨generatedName, true, 3, none, some "// ".toList⟩])]

theorem twoDirs_uniqueNames (persistentName generatedName : Bytes) :
    UniqueNames twoDirsManager (twoDirs persistentName generatedName) := by
  intro filterDir hmem
  rcases List.mem_cons.mp hmem with rfl | hmem
  · exact List.nodup_singleton persistentName
  · obtain rfl := List.mem_singleton.mp hmem
    exact List.nodup_singleton generatedName

/-- A name that is no UTF-8. -/
def strayName (byte : UInt8) : Bytes := byte :: Text.bytes ".roto".toList

/-- The second name is no UTF-8. -/
theorem processFilterStatuses_mirrors_twoNames :
    Mirrors (processFilterStatuses 32766 ⟨[staleRow "c.roto".toList "filter-0".toList], by decide⟩
      (reloadEvents (fun _ => none) (fun _ _ => some ()) (fun _ => []) (fun _ _ => []) twoDirsManager
        (twoDirs (Text.bytes "a.roto".toList) (strayName 0xFF)))).rows
      (scannedPaths twoDirsManager (twoDirs (Text.bytes "a.roto".toList) (strayName 0xFF))) := by
  have hcontent : ∀ file ∈ scannedFiles twoDirsManager (twoDirs (Text.bytes "a.roto".toList) (strayName 0xFF)),
      file.entry.content = some "// ".toList := by
    decide +kernel
  have hids : ∀ file ∈ scannedFiles twoDirsManager (twoDirs (Text.bytes "a.roto".toList) (strayName 0xFF)),
      ∀ file' ∈ scannedFiles twoDirsManager (twoDirs (Text.bytes "a.roto".toList) (strayName 0xFF)),
        recordedId (fun _ => none) (filterFileName file.path) "// ".toList
          = recordedId (fun _ => none) (filterFileName file'.path) "// ".toList → file.path = file'.path := by
    decide +kernel
  refine (processFilterStatuses_mirrors_iff (fun _ => none) (fun _ _ => some ()) (fun _ => []) (fun _ _ => []) 32766
    twoDirsManager _ (twoDirs_uniqueNames _ _)).2.mpr ⟨⟨?_, ?_, ?_⟩, ?_⟩ _
  · intro file hfile
    exact ⟨"// ".toList, hcontent file hfile, by decide +kernel⟩
  · decide +kernel
  · intro file hfile file' hfile' source source' hsource hsource' hid
    cases (hcontent file hfile).symm.trans hsource
    cases (hcontent file' hfile').symm.trans hsource'
    exact hids file hfile file' hfile' hid
  · refine (List.destutter_sublist _ _).length_le.trans ?_
    rw [List.length_mergeSort]
    decide +kernel

/-- The two filters have the same name, so they fight for one row; so do filters whose names are no UTF-8. -/
theorem processFilterStatuses_not_mirrors_sameName :
    UniqueNames twoDirsManager (twoDirs (Text.bytes "a.roto".toList) (Text.bytes "a.roto".toList))
      ∧ ¬Mirrors (processFilterStatuses 32766 KeyedTable.empty
        (reloadEvents (fun _ => none) (fun _ _ => some ()) (fun _ => []) (fun _ _ => []) twoDirsManager
          (twoDirs (Text.bytes "a.roto".toList) (Text.bytes "a.roto".toList)))).rows
        (scannedPaths twoDirsManager (twoDirs (Text.bytes "a.roto".toList) (Text.bytes "a.roto".toList)))
      ∧ ¬Mirrors (processFilterStatuses 32766 KeyedTable.empty
        (reloadEvents (fun _ => none) (fun _ _ => some ()) (fun _ => []) (fun _ _ => []) twoDirsManager
          (twoDirs (strayName 0xFF) (strayName 0xFE)))).rows
        (scannedPaths twoDirsManager (twoDirs (strayName 0xFF) (strayName 0xFE))) := by
  refine ⟨twoDirs_uniqueNames _ _, ?_, ?_⟩
  · rw [mirrors_iff_keptRows (twoDirs_uniqueNames _ _)]
    decide +kernel
  · rw [mirrors_iff_keptRows (twoDirs_uniqueNames _ _)]
    decide +kernel

end Inspect.Filters
