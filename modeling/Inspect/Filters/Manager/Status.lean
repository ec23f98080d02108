import Inspect.Filters.Runtime.Compiled
import Inspect.Lib.KeyedTable

/-!
# `Filters.Manager.Status` — the table of filter statuses

What a reload tells the database about the files it has scanned: the status events of `load_filter`, and the prune
event behind them (`src/filters/manager.rs`), as they are processed one after the other on the table `filters`
(`src/mitm/store_metadata.rs`). The column `loaded_at` is left out.

`describe` is the text of an error of the front matter, and `compileError` the text of the compiler for a file.
`maxVariables` is the number of parameters that SQLite takes in one statement.
-/

namespace Inspect.Filters

/-- The columns of a row. -/
structure FilterStatusMetadata where
  filterId : Str
  sourceKind : FilterSourceKind
  fileName : Str
  path : Str
  explicitId : Option Str
  name : Str
  enabled : Bool
  valid : Bool
  priority : Option Int32
  scriptHash : Str
  scriptLen : Nat
  programKind : Option Str
  lastError : Option Str
deriving DecidableEq

/-- `filter_status_from_definition`. -/
def filterStatusFromDefinition (definition : FilterDefinition) (priority : Option Int32) (valid : Bool)
    (programKind lastError : Option Str) : FilterStatusMetadata where
  filterId := definition.id
  sourceKind := definition.sourceKind
  fileName := definition.fileName
  path := definition.path.toStringLossy
  explicitId := definition.metadata.id
  name := definition.metadata.name.getD (defaultFilterName definition.path)
  enabled := definition.metadata.enabled
  valid
  priority
  scriptHash := definition.scriptHash
  scriptLen := Text.len definition.script
  programKind
  lastError

/-- `program_kind_for_filter`. -/
def programKindForFilter {P : Type} (filter : CompiledFilter P) : Str :=
  match filter.program with
  | .metadataOnly => "metadata-only".toList
  | .compiled _ => "compiled".toList

/-! ## Events of a reload -/

inductive FilterStatusEvent
  | status (metadata : FilterStatusMetadata)
  | prune (fileNames : List Str)

/-- What `load_filter` records about a file. -/
inductive RecordedStatus
  /-- the file cannot be read: `load_filter` returns before it records anything -/
  | unreadable
  | panicked
  | status (metadata : FilterStatusMetadata)
deriving DecidableEq

section Reload

variable {P : Type} (toml : Str → Option Toml.Table) (compile : FilterPath → Str → Option P)
  (describe : FilterSourceError → Str) (compileError : FilterPath → Str → Str)

/-- The status that `load_filter` records. -/
def recordedStatus (file : ScannedFile) : RecordedStatus :=
  match file.entry.content with
  | none => .unreadable
  | some source =>
      match parseFilterSource toml source with
      | .error .panicked => .panicked
      | .error error =>
          let definition : FilterDefinition :=
            { id := buildFilterId (filterFileName file.path) none, sourceKind := file.sourceKind,
              fileName := filterFileName file.path, scriptHash := stableHashHex source, path := file.path, source,
              metadata := FilterMetadata.default, script := [] }
          .status (filterStatusFromDefinition definition (some ((priorityFromFileName file.path).getD 1000))
            false none (some ("invalid filter header/front matter: ".toList ++ describe error)))
      | .ok (metadata, script) =>
          let definition : FilterDefinition :=
            { id := buildFilterId (filterFileName file.path) metadata.id, sourceKind := file.sourceKind,
              fileName := filterFileName file.path, scriptHash := stableHashHex source, path := file.path, source,
              metadata, script }
          if file.sourceKind = .persistent ∧ metadata.id.any isReservedGeneratedId then
            .status (filterStatusFromDefinition definition none false none
              (some "persistent filter cannot use generated filter id prefix `inspect-generated:`".toList))
          else
            let priority := metadata.priority.getD ((priorityFromFileName file.path).getD 1000)
            if !metadata.enabled then
              .status (filterStatusFromDefinition definition (some priority) true (some "disabled".toList) none)
            else
              match compileFilterDefinition compile definition priority with
              | some filter =>
                  .status (filterStatusFromDefinition filter.definition (some filter.priority) true
                    (some (programKindForFilter filter)) none)
              | none =>
                  .status (filterStatusFromDefinition definition (some priority) false none
                    (some (compileError file.path source)))

/-- The events of a reload: a status for each file while it is loaded, then the prune event. After a panic nothing is
    sent. -/
def enqueueStatuses (fileNames : List Str) : List ScannedFile → List FilterStatusEvent
  | [] => [.prune fileNames]
  | file :: files =>
      match recordedStatus toml compile describe compileError file with
      | .unreadable => enqueueStatuses fileNames files
      | .panicked => []
      | .status metadata => .status metadata :: enqueueStatuses fileNames files

/-- The events that a reload enqueues. -/
def reloadEvents (manager : FilterManager) (dirs : Directories) : List FilterStatusEvent :=
  enqueueStatuses toml compile describe compileError (scannedFileNames manager dirs) (scannedFiles manager dirs)

end Reload

/-! ## The table -/

/-- The table `filters`. Its primary key is the column `filter_id`. -/
abbrev FiltersTable := KeyedTable FilterStatusMetadata.filterId

/-- `insert_filter_status`: rows of the file with another id are deleted, then the row is inserted or updated. -/
def insertFilterStatus (table : FiltersTable) (metadata : FilterStatusMetadata) : FiltersTable :=
  (table.deleteWhere fun row => row.fileName == metadata.fileName && row.filterId != metadata.filterId).upsert metadata

section Process

variable (maxVariables : Nat)

/-- `prune_filter_statuses`. A statement with too many parameters fails, and the failure is only logged. -/
def pruneFilterStatuses (table : FiltersTable) (fileNames : List Str) : FiltersTable :=
  if fileNames = [] then table.deleteWhere fun _ => true
  else if fileNames.length ≤ maxVariables then table.deleteWhere fun row => !fileNames.contains row.fileName
  else table

/-- One event of the queue. -/
def processFilterStatus (table : FiltersTable) : FilterStatusEvent → FiltersTable
  | .status metadata => insertFilterStatus table metadata
  | .prune fileNames => pruneFilterStatuses maxVariables table fileNames

/-- The table after events, in the order of the queue. -/
def processFilterStatuses (table : FiltersTable) (events : List FilterStatusEvent) : FiltersTable :=
  events.foldl (processFilterStatus maxVariables) table

end Process

end Inspect.Filters
