import Inspect.Lib.HashMap
import Inspect.Lib.Text

/-!
# `Flow.StateStore` — the filter state store

The embedding of `src/mitm/flow/state_store.rs`: per-connection, per-filter key/value state with byte
limits and a time to live. The mutex makes every call atomic, so a call is a function from the `StateIndex`
before it to the one after it; a clock reading (`Instant::now()`) is an argument, in the clock's own ticks.

`Instant::duration_since` saturates at zero, as subtraction on `Nat` does. The byte counters are `usize` in
the source: the values they count lie in memory, so their sums stay far below `2^64`, and `Nat` stands for
them.
-/

namespace Inspect.StateStore

structure FilterStateLimits where
  ttl : Nat
  maxEntryBytes : Nat
  maxConnectionBytes : Nat
  maxFilterBytes : Nat
  maxTotalBytes : Nat
deriving DecidableEq, Repr

/-- `FilterStateLimits::default()`, with the clock ticking in seconds. -/
def FilterStateLimits.default : FilterStateLimits where
  ttl := 60
  maxEntryBytes := 256 * 1024
  maxConnectionBytes := 2 * 1024 * 1024
  maxFilterBytes := 16 * 1024 * 1024
  maxTotalBytes := 128 * 1024 * 1024

structure StateOpStats where
  readBytes : Nat := 0
  writeBytes : Nat := 0
  stateItems : Nat := 0
  evictedItems : Nat := 0
  limitHit : Bool := false
deriving DecidableEq, Repr

inductive StatePutOutcome
  | stored
  | replaced
  | rejectedEntryTooLarge
  | rejectedConnectionLimit
  | rejectedFilterLimit
  | rejectedTotalLimit
deriving DecidableEq, Repr

structure StateKey where
  connectionId : Str
  filterName : Str
  userKey : Str
deriving DecidableEq, Repr

structure StateEntry where
  value : List UInt8
  createdAt : Nat
  lastAccessAt : Nat
deriving DecidableEq, Repr

structure StateIndex where
  entries : HashMap StateKey StateEntry
  connectionBytes : HashMap Str Nat
  filterBytes : HashMap Str Nat
  totalBytes : Nat

/-- `StateIndex::default()`. -/
def StateIndex.empty : StateIndex := ⟨∅, ∅, ∅, 0⟩

/-- The tail of `drop_entry`, written twice there: take `len` off one counter, and the counter out of its
    table when it reaches zero. -/
def releaseBytes (table : HashMap Str Nat) (name : Str) (len : Nat) : HashMap Str Nat :=
  match table.lookup name with
  | some used => if used - len = 0 then table.erase name else table.insert name (used - len)
  | none => table

/-- `drop_entry`: remove the entry of `key`, if there is one, and take its length off the counters. -/
def dropEntry (inner : StateIndex) (key : StateKey) : StateIndex × Bool :=
  match inner.entries.lookup key with
  | none => (inner, false)
  | some entry =>
      ({ entries := inner.entries.erase key
         connectionBytes := releaseBytes inner.connectionBytes key.connectionId entry.value.length
         filterBytes := releaseBytes inner.filterBytes key.filterName entry.value.length
         totalBytes := inner.totalBytes - entry.value.length }, true)

/-- The sweep's test: idle for longer than `ttl`, or older than `ttl`. -/
def StateEntry.expired (ttl now : Nat) (entry : StateEntry) : Bool :=
  decide (now - entry.lastAccessAt > ttl) || decide (now - entry.createdAt > ttl)

/-- The keys `sweep_expired_locked` collects. -/
def expiredKeys (inner : StateIndex) (ttl now : Nat) : List StateKey :=
  (inner.entries.entries.filter fun entry => entry.2.expired ttl now).map Sigma.fst

/-- The sweep's second loop: drop the collected keys one by one, counting the evictions. -/
def dropAll : StateIndex → StateOpStats → List StateKey → StateIndex × StateOpStats
  | inner, stats, [] => (inner, stats)
  | inner, stats, key :: keys =>
      match dropEntry inner key with
      | (inner, true) => dropAll inner { stats with evictedItems := stats.evictedItems + 1 } keys
      | (inner, false) => dropAll inner stats keys

/-- `sweep_expired_locked`. -/
def sweepExpiredLocked (inner : StateIndex) (ttl now : Nat) (stats : StateOpStats) :
    StateIndex × StateOpStats :=
  dropAll inner stats (expiredKeys inner ttl now)

/-- `FilterStateStore::get`. Note that only the idle time is tested here, not the age. -/
def get (limits : FilterStateLimits) (now : Nat) (key : StateKey) (inner : StateIndex) :
    StateIndex × Option (List UInt8) × StateOpStats :=
  match inner.entries.lookup key with
  | none => (inner, none, { stateItems := inner.entries.entries.length })
  | some entry =>
      if now - entry.lastAccessAt > limits.ttl then
        let inner := (dropEntry inner key).1
        (inner, none, { evictedItems := 1, stateItems := inner.entries.entries.length })
      else
        let inner :=
          { inner with entries := inner.entries.insert key { entry with lastAccessAt := now } }
        (inner, some entry.value,
          { readBytes := entry.value.length, stateItems := inner.entries.entries.length })

/-- `put`'s `old_len`: the length of the value under `key`, zero when there is none. -/
def oldLen (inner : StateIndex) (key : StateKey) : Nat :=
  ((inner.entries.lookup key).map fun entry => entry.value.length).getD 0

/-- The body of `put` under the lock, after the sweep: test the three limits against the counters, then
    store the entry and add `delta` to the counters. -/
def putLocked (limits : FilterStateLimits) (now : Nat) (key : StateKey) (value : List UInt8)
    (inner : StateIndex) (stats : StateOpStats) : StateIndex × StatePutOutcome × StateOpStats :=
  -- `saturating_sub`: a shorter value gives `delta = 0`
  let delta := value.length - oldLen inner key
  let connUsed := (inner.connectionBytes.lookup key.connectionId).getD 0
  let filterUsed := (inner.filterBytes.lookup key.filterName).getD 0
  let rejected := { stats with limitHit := true, stateItems := inner.entries.entries.length }
  if connUsed + delta > limits.maxConnectionBytes then (inner, .rejectedConnectionLimit, rejected)
  else if filterUsed + delta > limits.maxFilterBytes then (inner, .rejectedFilterLimit, rejected)
  else if inner.totalBytes + delta > limits.maxTotalBytes then (inner, .rejectedTotalLimit, rejected)
  else
    let outcome :=
      if (inner.entries.lookup key).isSome then StatePutOutcome.replaced else StatePutOutcome.stored
    let inner : StateIndex :=
      { entries := inner.entries.insert key { value, createdAt := now, lastAccessAt := now }
        connectionBytes := inner.connectionBytes.insert key.connectionId (connUsed + delta)
        filterBytes := inner.filterBytes.insert key.filterName (filterUsed + delta)
        totalBytes := inner.totalBytes + delta }
    (inner, outcome, { stats with writeBytes := delta, stateItems := inner.entries.entries.length })

/-- `FilterStateStore::put`. -/
def put (limits : FilterStateLimits) (now : Nat) (key : StateKey) (value : List UInt8)
    (inner : StateIndex) : StateIndex × StatePutOutcome × StateOpStats :=
  if value.length > limits.maxEntryBytes then
    (inner, .rejectedEntryTooLarge, { limitHit := true })
  else
    let (inner, stats) := sweepExpiredLocked inner limits.ttl now {}
    putLocked limits now key value inner stats

/-- `FilterStateStore::delete`. -/
def delete (key : StateKey) (inner : StateIndex) : StateIndex × StateOpStats :=
  let (inner, dropped) := dropEntry inner key
  (inner, { evictedItems := if dropped then 1 else 0, stateItems := inner.entries.entries.length })

/-- `FilterStateStore::sweep_expired`. -/
def sweepExpired (limits : FilterStateLimits) (now : Nat) (inner : StateIndex) :
    StateIndex × StateOpStats :=
  let (inner, stats) := sweepExpiredLocked inner limits.ttl now {}
  (inner, { stats with stateItems := inner.entries.entries.length })

/-! ## Runs -/

/-- One call on the store. -/
inductive StateOp
  | get (key : StateKey)
  | put (key : StateKey) (value : List UInt8)
  | delete (key : StateKey)
  | sweepExpired
deriving DecidableEq, Repr

/-- What a call at clock reading `now` leaves in the store. -/
def StateOp.apply (limits : FilterStateLimits) (now : Nat) (inner : StateIndex) :
    StateOp → StateIndex
  | .get key => (StateStore.get limits now key inner).1
  | .put key value => (StateStore.put limits now key value inner).1
  | .delete key => (StateStore.delete key inner).1
  | .sweepExpired => (StateStore.sweepExpired limits now inner).1

/-- The calls of a run, oldest first, each with its clock reading. -/
abbrev Run := List (Nat × StateOp)

/-- The store after a run. -/
def runFrom (limits : FilterStateLimits) (inner : StateIndex) (run : Run) : StateIndex :=
  run.foldl (fun inner call => call.2.apply limits call.1 inner) inner

end Inspect.StateStore
