import Inspect.Flow.Correctness.StateStoreAccounting

/-!
# `Flow.Correctness.StateStoreExpiry` — when a sweep changes what is read

The sweep drops an entry that is idle *or* old; `get` refuses an entry only if it is idle. An entry that is read again
and again is never idle, and so it outlives its time to live until somebody sweeps: from then on a `get` returns what a
sweep at the same moment would have dropped.
-/

namespace Inspect.StateStore

variable (limits : FilterStateLimits)

/-- What a `get` at clock reading `now` returns after a run. -/
def readAfter (run : Run) (now : Nat) (key : StateKey) : Option (List UInt8) :=
  (get limits now key (runFrom limits .empty run)).2.1

/-- An entry under `key` that was accessed within the time to live was also put within it. -/
def TimelyGet (inner : StateIndex) (now : Nat) (key : StateKey) : Prop :=
  ∀ entry, inner.entries.lookup key = some entry → now - entry.lastAccessAt ≤ limits.ttl →
    now - entry.createdAt ≤ limits.ttl

section Read

variable {limits} {inner : StateIndex} {now : Nat} {key : StateKey}

/-- `get` returns the value of an entry that is not idle. -/
theorem get_value_eq_some_iff {value : List UInt8} :
    (get limits now key inner).2.1 = some value
      ↔ ∃ entry, inner.entries.lookup key = some entry ∧ now - entry.lastAccessAt ≤ limits.ttl
          ∧ entry.value = value := by
  unfold get
  cases hlookup : inner.entries.lookup key with
  | none => simp
  | some entry =>
      by_cases hidle : now - entry.lastAccessAt > limits.ttl
      · simp only [hidle, if_true, reduceCtorEq, false_iff, not_exists, not_and]
        intro found hfound hfresh
        cases hfound
        omega
      · simp only [hidle, if_false, Option.some.injEq, exists_eq_left', Nat.le_of_not_gt hidle, true_and]

theorem expired_eq_false_iff {ttl : Nat} {entry : StateEntry} :
    entry.expired ttl now = false ↔ now - entry.lastAccessAt ≤ ttl ∧ now - entry.createdAt ≤ ttl := by
  simp [StateEntry.expired]

/-- A `get` right after a sweep returns the value of an entry that is neither idle nor old. -/
theorem get_sweepExpired_eq_some_iff {value : List UInt8} :
    (get limits now key (sweepExpired limits now inner).1).2.1 = some value
      ↔ ∃ entry, inner.entries.lookup key = some entry ∧ now - entry.lastAccessAt ≤ limits.ttl
          ∧ now - entry.createdAt ≤ limits.ttl ∧ entry.value = value := by
  rw [get_value_eq_some_iff]
  show (∃ entry, (sweepExpiredLocked inner limits.ttl now {}).1.entries.lookup key = some entry ∧ _) ↔ _
  simp only [sweepExpiredLocked_lookup, expired_eq_false_iff]
  constructor
  · rintro ⟨entry, ⟨hlookup, hidle, hborn⟩, -, hvalue⟩
    exact ⟨entry, hlookup, hidle, hborn, hvalue⟩
  · rintro ⟨entry, hlookup, hidle, hborn, hvalue⟩
    exact ⟨entry, ⟨hlookup, hidle, hborn⟩, hidle, hvalue⟩

/-- A sweep before a `get` changes nothing exactly if the `get` is timely. -/
theorem get_sweepExpired_iff :
    (get limits now key (sweepExpired limits now inner).1).2.1 = (get limits now key inner).2.1
      ↔ TimelyGet limits inner now key := by
  constructor
  · intro hsame entry hlookup hidle
    have hread : (get limits now key inner).2.1 = some entry.value :=
      get_value_eq_some_iff.mpr ⟨entry, hlookup, hidle, rfl⟩
    rw [← hsame] at hread
    obtain ⟨kept, hkept, -, hborn, -⟩ := get_sweepExpired_eq_some_iff.mp hread
    rw [hlookup] at hkept
    cases hkept
    exact hborn
  · intro htimely
    apply Option.ext
    intro value
    rw [get_sweepExpired_eq_some_iff, get_value_eq_some_iff]
    constructor
    · rintro ⟨entry, hlookup, hidle, -, hvalue⟩
      exact ⟨entry, hlookup, hidle, hvalue⟩
    · rintro ⟨entry, hlookup, hidle, hvalue⟩
      exact ⟨entry, hlookup, hidle, htimely entry hlookup hidle, hvalue⟩

end Read

/-- **A sweep right before a `get` never changes what it returns, throughout a run, exactly if every `get` of the run
    is timely**: none finds an entry that was put longer ago than the time to live, but was accessed since. -/
theorem sweep_before_get_iff_timely (run : Run) :
    (∀ start now key rest, run = start ++ (now, .get key) :: rest →
        readAfter limits (start ++ [(now, .sweepExpired)]) now key = readAfter limits start now key)
      ↔ ∀ start now key rest, run = start ++ (now, .get key) :: rest →
          TimelyGet limits (runFrom limits .empty start) now key := by
  have hstep : ∀ (start : Run) (now : Nat) (key : StateKey),
      readAfter limits (start ++ [(now, .sweepExpired)]) now key = readAfter limits start now key
        ↔ TimelyGet limits (runFrom limits .empty start) now key := by
    intro start now key
    unfold readAfter
    rw [show runFrom limits .empty (start ++ [(now, .sweepExpired)])
      = (sweepExpired limits now (runFrom limits .empty start)).1 from List.foldl_append ..]
    exact get_sweepExpired_iff
  constructor
  · intro h start now key rest hrun
    exact (hstep start now key).mp (h start now key rest hrun)
  · intro h start now key rest hrun
    exact (hstep start now key).mpr (h start now key rest hrun)

/-- An entry that is put at 0 and read at 50 is returned at 70, though a sweep would have dropped it. -/
theorem old_entry_read_without_sweep :
    let key : StateKey := ⟨"c".toList, "f".toList, "k".toList⟩
    let run : Run := [(0, .put key [1]), (50, .get key)]
    List.Pairwise (fun call call' => call.1 ≤ call'.1) (run ++ [(70, StateOp.get key)])
    ∧ readAfter .default run 70 key = some [1]
    ∧ readAfter .default (run ++ [(70, .sweepExpired)]) 70 key = none := by
  decide

end Inspect.StateStore
