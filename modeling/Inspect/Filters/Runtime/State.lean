import Inspect.Flow.StateStore
import Inspect.Lib.Bytes

/-!
# `Filters.Runtime.State` — a script and the state store

The embedding of `src/filters/runtime_state.rs`, and of a Roto function as the host sees it: it answers, or calls one
of the state methods and goes on with what that returns. A call reads the clock when the store does; `clock` holds
the readings to come.
-/

namespace Inspect.Filters

open StateStore

/-- A Roto function as it runs. -/
inductive RotoScript (A : Type)
  | answer (value : A)
  | stateGet (key : Str) (next : Str → RotoScript A)
  | statePut (key value : Str) (next : Bool → RotoScript A)
  | stateDelete (key : Str) (next : Bool → RotoScript A)

structure FilterResourceStats where
  stateReadBytes : Nat
  stateWriteBytes : Nat
  stateItems : Nat
  evictedItems : Nat
  limitHit : Bool
deriving DecidableEq

/-- `FilterResourceStats::default`. -/
def FilterResourceStats.default : FilterResourceStats := ⟨0, 0, 0, 0, false⟩

/-- `FilterResourceStats::merge`: the number of items is that of the right side. -/
def FilterResourceStats.merge (lhs rhs : FilterResourceStats) : FilterResourceStats where
  stateReadBytes := lhs.stateReadBytes + rhs.stateReadBytes
  stateWriteBytes := lhs.stateWriteBytes + rhs.stateWriteBytes
  stateItems := rhs.stateItems
  evictedItems := lhs.evictedItems + rhs.evictedItems
  limitHit := lhs.limitHit || rhs.limitHit

structure FilterStateStore where
  limits : FilterStateLimits
  inner : StateIndex

/-- What a script works on: the store, if there is one, the clock, and what was counted since it was entered. -/
structure RuntimeState where
  store : Option FilterStateStore
  clock : Nat → Nat
  stats : FilterResourceStats

/-- The connection and the filter that the state belongs to. -/
structure RuntimeStateContext where
  connectionId : Str
  filterName : Str

namespace RuntimeState

variable (state : RuntimeState)

/-- `Instant::now()`. -/
def now : Nat := state.clock 0

/-- The state after a reading of the clock. -/
def afterReading : RuntimeState := { state with clock := fun reading => state.clock (reading + 1) }

/-- `accumulate`. -/
def accumulate (op : StateOpStats) : RuntimeState :=
  { state with
    stats :=
      { stateReadBytes := state.stats.stateReadBytes + op.readBytes
        stateWriteBytes := state.stats.stateWriteBytes + op.writeBytes
        evictedItems := state.stats.evictedItems + op.evictedItems
        stateItems := op.stateItems
        limitHit := state.stats.limitHit || op.limitHit } }

/-- The store with a new index. -/
def setInner (store : FilterStateStore) (inner : StateIndex) : RuntimeState :=
  { state with store := some { store with inner } }

end RuntimeState

section Methods

variable (context : RuntimeStateContext)

/-- The key of a user's key. -/
def RuntimeStateContext.stateKey (key : Str) : StateKey := ⟨context.connectionId, context.filterName, key⟩

/-- `state_get_text`. -/
def stateGetText (key : Str) (state : RuntimeState) : Option Str × RuntimeState :=
  match state.store with
  | none => (none, state)
  | some store =>
      let (inner, value, op) := StateStore.get store.limits state.now (context.stateKey key) store.inner
      (value.map Bytes.fromUtf8Lossy, ((state.afterReading.setInner store inner).accumulate op))

/-- `state_put_text`. -/
def statePutText (key value : Str) (state : RuntimeState) : Bool × RuntimeState :=
  match state.store with
  | none => (false, state)
  | some store =>
      let (inner, outcome, op) :=
        StateStore.put store.limits state.now (context.stateKey key) (Text.bytes value) store.inner
      (outcome = .stored || outcome = .replaced, ((state.afterReading.setInner store inner).accumulate op))

/-- `state_delete`. -/
def stateDelete (key : Str) (state : RuntimeState) : Bool × RuntimeState :=
  match state.store with
  | none => (false, state)
  | some store =>
      let (inner, op) := StateStore.delete (context.stateKey key) store.inner
      (0 < op.evictedItems, ((state.setInner store inner).accumulate op))

/-- A call of a Roto function. -/
def RotoScript.call {A : Type} : RotoScript A → StateM RuntimeState A
  | .answer value => pure value
  | .stateGet key next => do
      let value ← stateGetText context key
      (next (value.getD [])).call
  | .statePut key value next => do
      let stored ← statePutText context key value
      (next stored).call
  | .stateDelete key next => do
      let deleted ← Filters.stateDelete context key
      (next deleted).call

end Methods

end Inspect.Filters
