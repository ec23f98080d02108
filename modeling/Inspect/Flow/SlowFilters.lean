import Inspect.Flow.FilterRuntime
import Inspect.Lib.Fields

/-!
# `Flow.SlowFilters` — filters that run for too long

The whole of the loops of `src/mitm/flow/filter_runtime.rs`, with the time that a filter takes: one that takes too long
and was generated is moved into quarantine, once, and the filters are loaded anew behind the loop. `FilterRuntime` has
these loops without the time.

How long an execution takes, whether a move succeeds and what a reload finds are streams of readings. The text that says
why a filter was moved is only logged.
-/

namespace Inspect.Flow

open Filters

/-! ## The quarantine -/

/-- `jit_quarantine_threshold` in nanoseconds, for a value of `INSPECT_ROTO_JIT_QUARANTINE_MS`. -/
def jitQuarantineThreshold (setting : Option Str) : Nat :=
  1000000 * ((setting.bind (Text.parseUnsigned (2 ^ 64))).filter fun value => 0 < value).getD 1000

structure QuarantineConfig where
  /-- the value of `INSPECT_ROTO_JIT_QUARANTINE_MS` -/
  setting : Option Str
  /-- the generated filters of the capture -/
  generatedFiltersDir : FilterPath
  filtersDir : FilterPath

namespace QuarantineConfig

variable (config : QuarantineConfig)

/-- `is_over_jit_threshold`, for nanoseconds. -/
def isOverJitThreshold (elapsed : Nat) : Bool := jitQuarantineThreshold config.setting < elapsed

/-- The file of a filter that was generated, for this capture or to stay. -/
def isGenerated (path : FilterPath) : Bool :=
  config.generatedFiltersDir.isPrefixOf path || (config.filtersDir ++ [Text.bytes "generated".toList]).isPrefixOf path

end QuarantineConfig

/-- A move into quarantine that was tried. -/
structure QuarantineAttempt where
  path : FilterPath
  moved : Bool
deriving DecidableEq

/-- What is recorded of one execution, and the file of its filter. -/
structure TimedExecution where
  path : FilterPath
  elapsed : Nat
  stat : FilterExecStat
  resultCode : Int64

structure QuarantineState where
  quarantinedOnce : List FilterPath
  attempts : List QuarantineAttempt
  /-- whether the moves to come succeed -/
  moves : Nat → Bool

/-- `quarantine_slow_filter`: whether the file was moved. -/
def quarantineSlowFilter (config : QuarantineConfig) (path : FilterPath) (state : QuarantineState) :
    Bool × QuarantineState :=
  if path ∈ state.quarantinedOnce then (false, state)
  else
    let state := { state with quarantinedOnce := path :: state.quarantinedOnce }
    if config.isGenerated path then
      (state.moves 0, { state with
        attempts := state.attempts ++ [⟨path, state.moves 0⟩]
        moves := fun reading => state.moves (reading + 1) })
    else (false, state)

/-! ## The loops -/

/-- What the loops share, and the flag of the loop that runs. -/
structure TimedState where
  runtime : FilterRuntimeState
  quarantine : QuarantineState
  executions : List TimedExecution
  elapsed : Nat → Nat
  needsReload : Bool

/-- The code of an execution; a filter does not fail. -/
def resultCode (limitHit quarantined : Bool) : Int64 :=
  if quarantined then 2 else if limitHit then 3 else 0

/-- One execution of a filter. -/
def execTimed {A : Type} (config : QuarantineConfig) (phase : FilterPhase) (flowKey : Str)
    (filter : CompiledFilter CompiledRotoFilter) (run : RuntimeStateContext → StateM RuntimeState A)
    (state : TimedState) : A × TimedState :=
  let (swept, runtime) := sweepStateStats state.runtime
  let (action, after) := run ⟨flowKey, filter.name⟩ ⟨runtime.store, runtime.clock, FilterResourceStats.default⟩
  let resourceStats := swept.merge after.stats
  let elapsed := state.elapsed 0
  let (quarantined, quarantine) :=
    if config.isOverJitThreshold elapsed then quarantineSlowFilter config filter.definition.path state.quarantine
    else (false, state.quarantine)
  let stat : FilterExecStat := ⟨phase, filter.definition.id, filter.name, resourceStats⟩
  (action,
    { runtime := ⟨after.store, after.clock, runtime.execStats ++ [stat]⟩
      quarantine
      executions := state.executions
        ++ [⟨filter.definition.path, elapsed, stat, resultCode resourceStats.limitHit quarantined⟩]
      elapsed := fun reading => state.elapsed (reading + 1)
      needsReload := state.needsReload || quarantined })

/-- A call of one of the loops. -/
inductive FilterCall
  | request (view : FilterRequestView) (req : FilterRequest)
  | response (view : FilterRequestView) (flowKey : Str) (res : FilterResponse)
  | completed (view : FilterRequestView) (flowKey : Str)

inductive FilterAnswer
  | request (action : RequestAction)
  | response (action : ResponseAction)
  | completed

section Loops

variable {N : Type} [BEq N] (serde : SerdeJson N) (regex : Str → Option (Str → Str → Str))

/-- What the loop of `run_request_filters` does with one filter. -/
def requestTurn (config : QuarantineConfig) (req : FilterRequest) (filter : CompiledFilter CompiledRotoFilter)
    (state : TimedState) : Option RequestAction × TimedState :=
  let (action, state) := execTimed config .request req.flowKey filter (fun context =>
    filter.onRequest serde regex context req) state
  (some action, state)

/-- What the loop of `run_response_filters` does with one filter. -/
def responseTurn (config : QuarantineConfig) (flowKey : Str) (res : FilterResponse)
    (filter : CompiledFilter CompiledRotoFilter) (state : TimedState) : Option ResponseAction × TimedState :=
  let (action, state) := execTimed config .response flowKey filter (fun context =>
    filter.onResponse serde regex context res) state
  (some action, state)

/-- What the loop of `run_completed_filters` does with one filter. -/
def completedTurn (config : QuarantineConfig) (flowKey : Str) (state : TimedState)
    (filter : CompiledFilter CompiledRotoFilter) : TimedState :=
  (execTimed config .completed flowKey filter (fun _ => pure ()) state).2

/-- `run_request_filters`, `run_response_filters` and `run_completed_filters`. -/
def runFiltersTimed (config : QuarantineConfig) (filters : CompiledFilterSet CompiledRotoFilter) (state : TimedState) :
    FilterCall → FilterAnswer × TimedState
  | .request view req =>
      let (action, state) := requestChain (requestTurn serde regex config req) filters view state
      (.request action, state)
  | .response view flowKey res =>
      let (action, state) := responseChain (responseTurn serde regex config flowKey res) filters view state
      (.response action, state)
  | .completed view flowKey =>
      (.completed, (filters.matchingCompleted view).foldl (completedTurn config flowKey) state)

/-- The same without the time. -/
def runUntimed (filters : CompiledFilterSet CompiledRotoFilter) (state : FilterRuntimeState) :
    FilterCall → FilterAnswer × FilterRuntimeState
  | .request view req =>
      let (action, state) := runRequestFilters serde regex filters view req state
      (.request action, state)
  | .response view flowKey res =>
      let (action, state) := runResponseFilters serde regex filters view flowKey res state
      (.response action, state)
  | .completed view flowKey => (.completed, runCompletedFilters filters view flowKey state)

/-! ## The runtime -/

/-- `FlowFilterRuntime`. -/
structure TimedFilterRuntime where
  /-- the filters of the manager -/
  current : CompiledFilterSet CompiledRotoFilter
  state : TimedState
  /-- what the reloads to come load; one that fails keeps the filters -/
  reloads : Nat → Option (CompiledFilterSet CompiledRotoFilter)
  reloaded : Nat

/-- `FlowFilterRuntime::new`, with the readings to come. -/
def TimedFilterRuntime.new (current : CompiledFilterSet CompiledRotoFilter) (runtime : FilterRuntimeState)
    (elapsed : Nat → Nat) (moves : Nat → Bool) (reloads : Nat → Option (CompiledFilterSet CompiledRotoFilter)) :
    TimedFilterRuntime where
  current
  state := ⟨runtime, ⟨[], [], moves⟩, [], elapsed, false⟩
  reloads
  reloaded := 0

/-- `reload_after_quarantine`. -/
def TimedFilterRuntime.reloadAfterQuarantine (self : TimedFilterRuntime) : TimedFilterRuntime :=
  { self with
    current := (self.reloads 0).getD self.current
    reloads := fun reading => self.reloads (reading + 1)
    reloaded := self.reloaded + 1 }

/-- One call, from the filters it starts with to the reload behind it. -/
def TimedFilterRuntime.call (config : QuarantineConfig) (self : TimedFilterRuntime) (next : FilterCall) :
    FilterAnswer × TimedFilterRuntime :=
  let (answer, state) := runFiltersTimed serde regex config self.current { self.state with needsReload := false } next
  let self := { self with state }
  (answer, if state.needsReload then self.reloadAfterQuarantine else self)

/-- The calls of all flows, one after the other. -/
def TimedFilterRuntime.callAll (config : QuarantineConfig) (self : TimedFilterRuntime) (calls : List FilterCall) :
    TimedFilterRuntime :=
  calls.foldl (fun self next => (self.call serde regex config next).2) self

end Loops

end Inspect.Flow
