import Inspect.Filters.Manager.Load

/-!
# `Filters.Manager.ReloadLoop` — reloading filters

The embedding of `reload` and `reload_loop` of `src/filters/manager.rs` as a step function. A reload is two steps:
it makes the quarantine directory and loads the directories, and later stores what it loaded in `current`. The loop
reloads once, takes a snapshot, and then polls: a snapshot that differs from the last one is recorded and starts a
reload. Reloads after a quarantine (`reload_after_quarantine`) run beside the loop, any number of them. Between any two
steps the directories may change.

What is done to the directories and read of them is a `ReloadSource`. Whether a directory can be made and read is a
choice of the action. The prune event of a reload is in `Filters.Manager.Status`.
-/

namespace Inspect.Filters

/-- What a load has come to. -/
inductive LoadOutcome (F : Type)
  /-- it has failed, and the reload with it -/
  | failed
  /-- the parser has panicked on one of the files -/
  | panicked
  | loaded (set : F)
deriving DecidableEq

/-- Where `reload_loop` is. -/
inductive LoopPhase (S F : Type)
  /-- before the initial load -/
  | start
  /-- the initial load is done; `none` if it failed -/
  | initialLoaded (set : Option F)
  | initialStored
  | awaitingSnapshot
  /-- waiting for the next poll -/
  | polling (last : S)
  /-- a poll found another snapshot and recorded it -/
  | reloading (last : S)
  | loaded (last : S) (set : Option F)
  /-- the watcher is disabled or was shut down -/
  | stopped
  /-- a panic has unwound the task of the loop -/
  | unwound
deriving DecidableEq

structure ReloadState (D S F : Type) where
  dirs : D
  current : F
  loop : LoopPhase S F
  /-- what the reloads after quarantines have loaded and not yet stored -/
  pending : List F
deriving DecidableEq

/-- What `ensure_quarantine_dir` and the reads of a load meet. -/
inductive LoadReads
  /-- the quarantine directory is not made, while the first few directories of its path may be -/
  | createFails (made : Nat)
  /-- a directory or an entry of it cannot be read; a file that was read before may have made the parser panic -/
  | readFails (panicked : Bool)
  | ok
deriving DecidableEq

inductive ReloadAction (D : Type)
  /-- the directories are changed by someone else -/
  | change (dirs : D)
  /-- the loop loads -/
  | loopLoad (reads : LoadReads)
  /-- the loop stores what it loaded; a failed load stores nothing -/
  | loopStore
  | checkDirs
  | initialSnapshot (ok : Bool)
  | poll (ok : Bool)
  /-- a reload after a quarantine loads -/
  | quarantineLoad (reads : LoadReads)
  /-- one of the reloads after quarantines stores -/
  | quarantineStore (index : Nat)
  | shutdown
deriving DecidableEq

section Reload

variable {D S F : Type} [DecidableEq S]

/-- What a reload and the loop do to the directories and read of them. Making the quarantine directory shows in no
    snapshot, and loads nothing else. -/
structure ReloadSource (D S F : Type) where
  snapshot : D → S
  /-- the snapshot of a directory without filters, `FilterSnapshot::default()` -/
  noSnapshot : S
  /-- `load_filter_set`; none if the parser panics -/
  load : D → Option F
  exist : D → Bool
  /-- `ensure_quarantine_dir`, which may fail behind the first few directories -/
  ensure : Option Nat → D → D
  snapshot_ensure : ∀ failed dirs, snapshot (ensure failed dirs) = snapshot dirs
  load_ensure : ∀ failed dirs, load (ensure failed dirs) = load dirs

namespace ReloadSource

variable (source : ReloadSource D S F)

/-- The directories behind a load. -/
def ensured (dirs : D) : LoadReads → D
  | .createFails made => source.ensure (some made) dirs
  | _ => source.ensure none dirs

/-- What a load comes to. -/
def outcome (dirs : D) : LoadReads → LoadOutcome F
  | .createFails _ => .failed
  | .readFails panicked => if panicked then .panicked else .failed
  | .ok =>
      match source.load dirs with
      | none => .panicked
      | some set => .loaded set

end ReloadSource

variable (source : ReloadSource D S F)

/-- Where the loop is behind a load. -/
def LoopPhase.afterLoad (phase : Option F → LoopPhase S F) : LoadOutcome F → LoopPhase S F
  | .failed => phase none
  | .panicked => .unwound
  | .loaded set => phase (some set)

/-- The set of a reload after a quarantine; without one the reload ends. -/
def LoadOutcome.toList : LoadOutcome F → List F
  | .loaded set => [set]
  | _ => []

/-- One step, or `none` where the action cannot happen. A change alters the path, the length or the time of some
    file, and so the snapshot. -/
def ReloadState.step (state : ReloadState D S F) : ReloadAction D → Option (ReloadState D S F)
  | .change dirs =>
      if source.snapshot dirs = source.snapshot state.dirs then none else some { state with dirs }
  | .loopLoad reads =>
      let dirs := source.ensured state.dirs reads
      let outcome := source.outcome dirs reads
      match state.loop with
      | .start => some { state with dirs, loop := LoopPhase.afterLoad .initialLoaded outcome }
      | .reloading last => some { state with dirs, loop := LoopPhase.afterLoad (.loaded last) outcome }
      | _ => none
  | .loopStore =>
      match state.loop with
      | .initialLoaded set =>
          some { state with current := set.getD state.current, loop := .initialStored }
      | .loaded last set =>
          some { state with current := set.getD state.current, loop := .polling last }
      | _ => none
  | .checkDirs =>
      match state.loop with
      | .initialStored =>
          some { state with loop := if source.exist state.dirs then .awaitingSnapshot else .stopped }
      | _ => none
  | .initialSnapshot ok =>
      match state.loop with
      | .awaitingSnapshot =>
          some { state with
            loop := .polling (if ok then source.snapshot state.dirs else source.noSnapshot) }
      | _ => none
  | .poll ok =>
      match state.loop with
      | .polling last =>
          if !ok then some state
          else if source.snapshot state.dirs = last then some state
          else some { state with loop := .reloading (source.snapshot state.dirs) }
      | _ => none
  | .quarantineLoad reads =>
      let dirs := source.ensured state.dirs reads
      some { state with dirs, pending := state.pending ++ (source.outcome dirs reads).toList }
  | .quarantineStore index =>
      state.pending[index]?.map fun loaded =>
        { state with current := loaded, pending := state.pending.eraseIdx index }
  | .shutdown =>
      match state.loop with
      | .polling _ => some { state with loop := .stopped }
      | _ => none

/-- The state after a run. -/
def ReloadState.run (state : ReloadState D S F) (actions : List (ReloadAction D)) :
    Option (ReloadState D S F) :=
  actions.foldlM (ReloadState.step source) state

/-- The state before the first step: the manager holds the empty set. -/
def ReloadState.initial (dirs : D) (empty : F) : ReloadState D S F := ⟨dirs, empty, .start, []⟩

end Reload

/-! ## The filter manager -/

section Manager

variable {P : Type} (toml : Str → Option Toml.Table) (compile : FilterPath → Str → Option P)
  (manager : FilterManager)

/-- What the filter manager does and reads. -/
def FilterManager.reloadSource : ReloadSource Directories FilterSnapshot (CompiledFilterSet P) where
  snapshot dirs := FilterSnapshot.readMany dirs manager.filterDirs
  noSnapshot := []
  load dirs := (loadFilterSet toml compile manager dirs).map LoadedFilterSet.filters
  exist := anyDirExists manager
  ensure := createDirAll manager.quarantineDir
  snapshot_ensure failed dirs := readMany_createDirAll manager.quarantineDir failed dirs manager.filterDirs
  load_ensure failed dirs := by
    rw [loadFilterSet_createDirAll]

end Manager

end Inspect.Filters
