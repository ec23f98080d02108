import Inspect.Filters.Runtime.Compiled
import Inspect.Flow.FilterBridge
import Inspect.Lib.Chain

/-!
# `Flow.FilterRuntime` — running the filters of a flow

The embedding of the loops of `src/mitm/flow/filter_runtime.rs`: the filters that match are run in the order of the
set, their actions are merged, and an action can end the loop. That a filter which runs for longer than a second is
put into quarantine is added in `Flow.SlowFilters`; log lines are not modelled.
-/

namespace Inspect.Flow

open Filters

/-! ## Chains -/

section Chains

variable {P S : Type}

/-- The loop of `run_connect_filters`, for whatever the filters answer. -/
def connectChain (run : CompiledFilter P → S → Option ConnectAction × S) (filters : CompiledFilterSet P) (host : Str)
    (state : S) : ConnectAction × S :=
  Chain.runUntil mergeConnectAction ConnectAction.continueFilters run (filters.matchingConnect host)
    ConnectAction.pass state

/-- The loop of `run_request_filters`, for whatever the filters answer. -/
def requestChain (run : CompiledFilter P → S → Option RequestAction × S) (filters : CompiledFilterSet P)
    (view : FilterRequestView) (state : S) : RequestAction × S :=
  Chain.runUntil mergeRequestAction RequestAction.continueFilters run (filters.matchingRequest view)
    RequestAction.pass state

/-- The loop of `run_response_filters`, for whatever the filters answer. -/
def responseChain (run : CompiledFilter P → S → Option ResponseAction × S) (filters : CompiledFilterSet P)
    (view : FilterRequestView) (state : S) : ResponseAction × S :=
  Chain.runUntil mergeResponseAction ResponseAction.continueFilters run (filters.matchingResponse view)
    ResponseAction.pass state

end Chains

/-! ## Running compiled filters -/

/-- What `record_filter_exec_stat` records of one execution. -/
structure FilterExecStat where
  phase : FilterPhase
  filterId : Str
  filterName : Str
  resourceStats : FilterResourceStats
deriving DecidableEq

/-- What the filters of all flows share. -/
structure FilterRuntimeState where
  store : Option FilterStateStore
  clock : Nat → Nat
  execStats : List FilterExecStat

/-- `sweep_state_stats`. -/
def sweepStateStats (state : FilterRuntimeState) : FilterResourceStats × FilterRuntimeState :=
  match state.store with
  | none => (FilterResourceStats.default, state)
  | some store =>
      let (inner, op) := StateStore.sweepExpired store.limits (state.clock 0) store.inner
      (⟨op.readBytes, op.writeBytes, op.stateItems, op.evictedItems, op.limitHit⟩,
        { state with store := some { store with inner }, clock := fun reading => state.clock (reading + 1) })

/-- A sweep records nothing. -/
theorem sweepStateStats_execStats (state : FilterRuntimeState) :
    (sweepStateStats state).2.execStats = state.execStats := by
  unfold sweepStateStats
  cases state.store with
  | none => rfl
  | some store => rfl

/-- One execution of a filter: expired state is swept first, then the script runs in a context of its own. -/
def execFilter {A : Type} (phase : FilterPhase) (flowKey : Str) (filter : CompiledFilter CompiledRotoFilter)
    (run : RuntimeStateContext → StateM RuntimeState A) (state : FilterRuntimeState) : A × FilterRuntimeState :=
  let (swept, state) := sweepStateStats state
  let (action, runtime) := run ⟨flowKey, filter.name⟩ ⟨state.store, state.clock, FilterResourceStats.default⟩
  (action,
    { store := runtime.store
      clock := runtime.clock
      execStats := state.execStats ++ [⟨phase, filter.definition.id, filter.name, swept.merge runtime.stats⟩] })

/-- `run_connect_filters`. -/
def runConnectFilters (filters : CompiledFilterSet CompiledRotoFilter) (host : Str) (connect : FilterConnect) :
    ConnectAction :=
  (connectChain (fun filter state => (filter.runConnectAction connect, state)) filters host ()).1

section Run

variable {N : Type} [BEq N] (serde : SerdeJson N) (regex : Str → Option (Str → Str → Str))

/-- `run_request_filters`. -/
def runRequestFilters (filters : CompiledFilterSet CompiledRotoFilter) (view : FilterRequestView)
    (req : FilterRequest) (state : FilterRuntimeState) : RequestAction × FilterRuntimeState :=
  requestChain (fun filter state =>
    let (action, state) := execFilter .request req.flowKey filter (fun context =>
      filter.onRequest serde regex context req) state
    (some action, state)) filters view state

/-- `run_response_filters`. -/
def runResponseFilters (filters : CompiledFilterSet CompiledRotoFilter) (view : FilterRequestView) (flowKey : Str)
    (res : FilterResponse) (state : FilterRuntimeState) : ResponseAction × FilterRuntimeState :=
  responseChain (fun filter state =>
    let (action, state) := execFilter .response flowKey filter (fun context =>
      filter.onResponse serde regex context res) state
    (some action, state)) filters view state

end Run

/-- `run_completed_filters`: `on_completed` does nothing, and never stops the loop. -/
def runCompletedFilters (filters : CompiledFilterSet CompiledRotoFilter) (view : FilterRequestView) (flowKey : Str)
    (state : FilterRuntimeState) : FilterRuntimeState :=
  (filters.matchingCompleted view).foldl (fun state filter =>
    (execFilter .completed flowKey filter (fun _ => pure ()) state).2) state

end Inspect.Flow
