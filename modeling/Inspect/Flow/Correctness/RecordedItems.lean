import Inspect.Filters.Correctness.ScriptCalls
import Inspect.Flow.FilterRuntime
import Inspect.Lib.Json.Codec

/-!
# `Flow.Correctness.RecordedItems` — the number of items that is recorded

`record_filter_exec_stat` is given what the sweep counted, merged with what the script counted. The merge takes the
number of items of the right side, which is that of the last state call of the script; a script without calls counts
zero, and so does a `put` of a value that is too large. In both cases zero is recorded, whatever is in the store.
-/

namespace Inspect.Flow

open Filters StateStore

/-! ## One execution -/

/-- One execution of a filter: what it runs, and the state it finds. -/
structure FilterExecution (A : Type) where
  phase : FilterPhase
  flowKey : Str
  filter : CompiledFilter CompiledRotoFilter
  script : RotoScript A
  before : FilterRuntimeState

namespace FilterExecution

variable {A : Type} (execution : FilterExecution A)

/-- The context that the script runs in. -/
def context : RuntimeStateContext := ⟨execution.flowKey, execution.filter.name⟩

/-- What the script finds: the store after the sweep, and nothing counted. -/
def entered : RuntimeState :=
  let (_, state) := sweepStateStats execution.before
  ⟨state.store, state.clock, FilterResourceStats.default⟩

/-- The state calls that the script makes. -/
def calls : StateStore.Run := execution.script.calls execution.context execution.entered

/-- The state when the filter has returned. -/
def after : FilterRuntimeState :=
  (execFilter execution.phase execution.flowKey execution.filter execution.script.call execution.before).2

/-- What is recorded. -/
def stat : FilterExecStat where
  phase := execution.phase
  filterId := execution.filter.definition.id
  filterName := execution.filter.name
  resourceStats :=
    (sweepStateStats execution.before).1.merge (execution.script.call execution.context execution.entered).2.stats

/-- The number of entries in the store when the filter has returned. -/
def liveItems : Nat := (execution.after.store.map fun store => store.inner.entries.entries.length).getD 0

/-- The recorded number of items is that of the store. -/
def Truthful : Prop := execution.stat.resourceStats.stateItems = execution.liveItems

instance : Decidable execution.Truthful := inferInstanceAs (Decidable (_ = _))

/-- The last state call is there and is not a `put` of a value that is too large; or the sweep and the calls leave no
    entry. -/
def Counted : Prop :=
  ∀ store ∈ execution.before.store, endsCounted store.limits execution.calls = true
    ∨ (runFrom store.limits store.inner ((execution.before.clock 0, .sweepExpired) :: execution.calls)).entries.entries
      = []

/-- The record is the last in the log. -/
theorem after_execStats : execution.after.execStats = execution.before.execStats ++ [execution.stat] := by
  show (sweepStateStats execution.before).2.execStats ++ [execution.stat] = _
  rw [sweepStateStats_execStats]

/-- The store when the script is entered. -/
theorem entered_store {store : FilterStateStore} (h : execution.before.store = some store) :
    execution.entered.store
      = some { store with inner := StateOp.apply store.limits (execution.before.clock 0) store.inner .sweepExpired } := by
  unfold entered sweepStateStats
  rw [h]
  rfl

/-- **What is recorded** is the number of entries if the last call counts, and zero otherwise. -/
theorem recorded_eq {store : FilterStateStore} (h : execution.before.store = some store) :
    execution.liveItems
        = (runFrom store.limits store.inner
            ((execution.before.clock 0, .sweepExpired) :: execution.calls)).entries.entries.length
      ∧ execution.stat.resourceStats.stateItems
        = if endsCounted store.limits execution.calls then execution.liveItems else 0 := by
  obtain ⟨hafter, hitems⟩ := call_effect execution.context execution.script (execution.entered_store h)
  have hlive : execution.liveItems = (runFrom store.limits store.inner
      ((execution.before.clock 0, .sweepExpired) :: execution.calls)).entries.entries.length := by
    show ((execution.script.call execution.context execution.entered).2.store.map _).getD 0 = _
    rw [hafter]
    rfl
  refine ⟨hlive, ?_⟩
  rw [hlive]
  -- the merge takes the number of the script, which starts at zero
  exact hitems.trans (lastCounted_zero _)

/-- Without a store nothing is recorded, and nothing is there. -/
theorem truthful_of_none (h : execution.before.store = none) : execution.Truthful := by
  have hentered : execution.entered = ⟨none, execution.before.clock, FilterResourceStats.default⟩ := by
    unfold entered sweepStateStats
    rw [h]
    show (⟨execution.before.store, _, _⟩ : RuntimeState) = _
    rw [h]
  have hcall : (execution.script.call execution.context execution.entered).2 = execution.entered :=
    call_of_none execution.context execution.script (by rw [hentered])
  show (execution.script.call execution.context execution.entered).2.stats.stateItems
    = ((execution.script.call execution.context execution.entered).2.store.map _).getD 0
  rw [hcall, hentered]
  rfl

/-- **One execution is recorded truthfully if and only if its last call counts**, or there is nothing to count. -/
theorem truthful_iff_counted : execution.Truthful ↔ execution.Counted := by
  cases hstore : execution.before.store with
  | none =>
      refine iff_of_true (execution.truthful_of_none hstore) ?_
      intro store hmem
      rw [hstore] at hmem
      cases hmem
  | some store =>
      obtain ⟨hlive, hrecorded⟩ := execution.recorded_eq hstore
      unfold Truthful
      constructor
      · intro htruthful other hmem
        rw [hstore] at hmem
        cases hmem
        by_cases hends : endsCounted store.limits execution.calls = true
        · exact Or.inl hends
        · rw [hrecorded, if_neg hends, hlive] at htruthful
          exact Or.inr (List.length_eq_zero_iff.mp htruthful.symm)
      · intro hcounted
        rcases hcounted store hstore with hends | hempty
        · rw [hrecorded, if_pos hends]
        · have hzero : execution.liveItems = 0 := by rw [hlive, hempty, List.length_nil]
          rw [hrecorded, hzero, ite_self]

end FilterExecution

/-! ## Whole runs -/

section Run

variable {N : Type} [BEq N] (serde : SerdeJson N) (regex : Str → Option (Str → Str → Str))

/-- The executions of `run_request_filters`, in order. -/
def requestExecutions (filters : CompiledFilterSet CompiledRotoFilter) (view : FilterRequestView)
    (req : FilterRequest) (state : FilterRuntimeState) : List (FilterExecution RequestAction) :=
  (Chain.visits mergeRequestAction RequestAction.continueFilters (fun filter state =>
      let (action, state) := execFilter .request req.flowKey filter (fun context =>
        filter.onRequest serde regex context req) state
      (some action, state))
    (filters.matchingRequest view) RequestAction.pass state).map fun (filter, before) =>
      ⟨.request, req.flowKey, filter, filter.requestScript serde regex req, before⟩

/-- The executions of `run_response_filters`, in order. -/
def responseExecutions (filters : CompiledFilterSet CompiledRotoFilter) (view : FilterRequestView) (flowKey : Str)
    (res : FilterResponse) (state : FilterRuntimeState) : List (FilterExecution ResponseAction) :=
  (Chain.visits mergeResponseAction ResponseAction.continueFilters (fun filter state =>
      let (action, state) := execFilter .response flowKey filter (fun context =>
        filter.onResponse serde regex context res) state
      (some action, state))
    (filters.matchingResponse view) ResponseAction.pass state).map fun (filter, before) =>
      ⟨.response, flowKey, filter, filter.responseScript serde regex res, before⟩

variable (filters : CompiledFilterSet CompiledRotoFilter) (view : FilterRequestView) (state : FilterRuntimeState)

/-- What a run over the request filters records. -/
theorem runRequestFilters_execStats (req : FilterRequest) :
    (runRequestFilters serde regex filters view req state).2.execStats
      = state.execStats ++ (requestExecutions serde regex filters view req state).map FilterExecution.stat := by
  unfold requestExecutions
  rw [List.map_map]
  refine Chain.runUntil_log mergeRequestAction RequestAction.continueFilters _ FilterRuntimeState.execStats
    (fun filter before => (FilterExecution.mk FilterPhase.request req.flowKey filter
      (filter.requestScript serde regex req) before).stat) (fun filter before => ?_) _ _ _
  show (execFilter .request req.flowKey filter
    (fun context => filter.onRequest serde regex context req) before).2.execStats = _
  simp only [CompiledFilter.onRequest_eq]
  exact FilterExecution.after_execStats ⟨.request, req.flowKey, filter, filter.requestScript serde regex req, before⟩

/-- What a run over the response filters records. -/
theorem runResponseFilters_execStats (flowKey : Str) (res : FilterResponse) :
    (runResponseFilters serde regex filters view flowKey res state).2.execStats
      = state.execStats ++ (responseExecutions serde regex filters view flowKey res state).map FilterExecution.stat := by
  unfold responseExecutions
  rw [List.map_map]
  refine Chain.runUntil_log mergeResponseAction ResponseAction.continueFilters _ FilterRuntimeState.execStats
    (fun filter before => (FilterExecution.mk FilterPhase.response flowKey filter
      (filter.responseScript serde regex res) before).stat) (fun filter before => ?_) _ _ _
  show (execFilter .response flowKey filter
    (fun context => filter.onResponse serde regex context res) before).2.execStats = _
  simp only [CompiledFilter.onResponse_eq]
  exact FilterExecution.after_execStats ⟨.response, flowKey, filter, filter.responseScript serde regex res, before⟩

/-- **When the recorded number of items is true.** Every execution of a run over the request filters, or over the
    response filters, leaves one record; its number of items is that of the store when the filter returned, if and
    only if the last state call of the script is there and is not a `put` of a value that is too large, or the store
    is empty by then. -/
theorem recorded_stateItems_iff (req : FilterRequest) (flowKey : Str) (res : FilterResponse) :
    ((runRequestFilters serde regex filters view req state).2.execStats
        = state.execStats ++ (requestExecutions serde regex filters view req state).map FilterExecution.stat
      ∧ ∀ execution ∈ requestExecutions serde regex filters view req state,
          execution.Truthful ↔ execution.Counted)
    ∧ (runResponseFilters serde regex filters view flowKey res state).2.execStats
        = state.execStats ++ (responseExecutions serde regex filters view flowKey res state).map FilterExecution.stat
      ∧ ∀ execution ∈ responseExecutions serde regex filters view flowKey res state,
          execution.Truthful ↔ execution.Counted :=
  ⟨⟨runRequestFilters_execStats serde regex filters view state req, fun execution _ => execution.truthful_iff_counted⟩,
    runResponseFilters_execStats serde regex filters view state flowKey res,
    fun execution _ => execution.truthful_iff_counted⟩

end Run

section Uncounted

/-- A filter whose script looks at no state. -/
def statelessFilter : CompiledFilter CompiledRotoFilter where
  definition := ⟨"filter-0".toList, .persistent, "a.roto".toList, [], [Text.bytes "a.roto".toList], [],
    FilterMetadata.default, []⟩
  priority := 1000
  program := .compiled { CompiledRotoFilter.default with onRequest := some fun _ => .answer false }

/-- A store that holds one entry. -/
def storeOfOne : FilterStateStore where
  limits := FilterStateLimits.default
  inner := (StateStore.put FilterStateLimits.default 0 ⟨"c".toList, "f".toList, "k".toList⟩ [] StateIndex.empty).1

/-- A request that the filter matches. -/
def plainRequest : FilterRequest :=
  ⟨[], 0, "c".toList, "GET".toList, "http".toList, "a".toList, "/".toList, [], [], [], ⟨[], none, none, none, false⟩, none⟩

/-- A script that makes no state call is recorded with no item although the store holds one. -/
theorem stateless_filter_not_truthful :
    ¬∀ (filters : CompiledFilterSet CompiledRotoFilter) (view : FilterRequestView) (req : FilterRequest)
      (state : FilterRuntimeState), state.store.isSome = true →
      ∀ execution ∈ requestExecutions JsonCodec.codec (fun _ => none) filters view req state,
        execution.Truthful := by
  intro h
  have htruthful := h [statelessFilter] ⟨"a".toList, "/".toList, "GET".toList⟩ plainRequest
    ⟨some storeOfOne, fun _ => 0, []⟩ rfl
  have hmatch : CompiledFilterSet.matchingRequest [statelessFilter] ⟨"a".toList, "/".toList, "GET".toList⟩
      = [statelessFilter] := rfl
  unfold requestExecutions at htruthful
  rw [hmatch] at htruthful
  have hone := htruthful _ (List.mem_map.mpr ⟨_, List.mem_cons_self, rfl⟩)
  exact absurd hone (by decide +kernel)

end Uncounted

end Inspect.Flow
