import Inspect.Flow.Correctness.StateStoreAccounting

/-!
# `Flow.Correctness.StateStoreRuns` — limits and accounting over whole runs

Two results over every run from the empty store.

* The configured limits hold of the bytes that are really stored. The counters never *under*count
  (`Ledger (· ≤ ·)`), they never pass a limit, and so neither do the stored bytes.
* The counters are exact as long as every `put` is at least as long as the live value it replaces. A shorter
  one is always accepted, adds nothing, and leaves the counters too high: the runs with exact counters are
  exactly the runs that never shorten a live value.
-/

namespace Inspect.StateStore

/-! ## Limits -/

/-- The invariant behind the limits: the counters bound the stored bytes and stay within the limits, and
    every single value is within the entry limit. -/
structure Bounded (limits : FilterStateLimits) (inner : StateIndex) : Prop where
  ledger : Ledger (· ≤ ·) inner
  counters : ∀ scope, counter inner scope ≤ limits.limit scope
  values : ∀ key entry, inner.entries.lookup key = some entry →
    entry.value.length ≤ limits.maxEntryBytes

/-- What the limits say about the stored values themselves, with no counter in sight. -/
structure WithinLimits (limits : FilterStateLimits) (inner : StateIndex) : Prop where
  entry : ∀ key entry, inner.entries.lookup key = some entry →
    entry.value.length ≤ limits.maxEntryBytes
  connection : ∀ id, storedBytes inner (.connection id) ≤ limits.maxConnectionBytes
  filter : ∀ name, storedBytes inner (.filter name) ≤ limits.maxFilterBytes
  total : storedBytes inner .total ≤ limits.maxTotalBytes

theorem Bounded.withinLimits {limits : FilterStateLimits} {inner : StateIndex}
    (h : Bounded limits inner) : WithinLimits limits inner := by
  have hscope : ∀ scope, storedBytes inner scope ≤ limits.limit scope :=
    fun scope => le_trans (h.ledger scope) (h.counters scope)
  exact ⟨h.values, fun id => hscope (.connection id), fun name => hscope (.filter name),
    hscope .total⟩

section Bounded

variable {limits : FilterStateLimits} {inner : StateIndex}

theorem bounded_empty (limits : FilterStateLimits) : Bounded limits .empty := by
  refine ⟨ledger_empty le_rfl, ?_, ?_⟩
  · intro scope
    have hzero : counter .empty scope = 0 := by cases scope <;> rfl
    omega
  · intro key entry hentry
    simp [StateIndex.empty] at hentry

theorem dropEntry_bounded (h : Bounded limits inner) (key : StateKey) :
    Bounded limits (dropEntry inner key).1 := by
  refine ⟨dropEntry_ledger releasable_le h.ledger key, ?_, ?_⟩
  · intro scope
    have hlimit := h.counters scope
    cases hentry : inner.entries.lookup key with
    | none => rw [dropEntry_of_none hentry]; exact hlimit
    | some entry => rw [dropEntry_counter hentry]; omega
  · intro other entry hentry
    rw [dropEntry_lookup] at hentry
    split at hentry
    · cases hentry
    · exact h.values other entry hentry

theorem sweepExpiredLocked_bounded (h : Bounded limits inner) (ttl now : Nat)
    (stats : StateOpStats) : Bounded limits (sweepExpiredLocked inner ttl now stats).1 :=
  dropAll_invariant (Bounded limits) (fun _ key hinner => dropEntry_bounded hinner key) _ stats h

theorem get_bounded (h : Bounded limits inner) (now : Nat) (key : StateKey) :
    Bounded limits (get limits now key inner).1 := by
  have hledger := get_ledger releasable_le h.ledger limits now key
  rcases get_cases limits now key inner with heq | heq | ⟨entry, hentry, heq⟩
  · rw [heq]; exact h
  · rw [heq]; exact dropEntry_bounded h key
  · refine ⟨hledger, ?_, ?_⟩
    · intro scope
      rw [heq]
      have hlimit := h.counters scope
      cases scope <;> exact hlimit
    · intro other touched htouched
      rw [heq] at htouched
      simp only [HashMap.lookup_insert_eq] at htouched
      split at htouched
      · cases htouched
        exact h.values key entry hentry
      · exact h.values other touched htouched

/-- A value within the entry limit keeps the invariant, whether it is stored or rejected. -/
theorem putLocked_bounded (h : Bounded limits inner) (now : Nat) (key : StateKey)
    {value : List UInt8} (hvalue : value.length ≤ limits.maxEntryBytes) (stats : StateOpStats) :
    Bounded limits (putLocked limits now key value inner stats).1 := by
  rcases putLocked_cases limits now key value inner stats with ⟨heq, -⟩ | ⟨hentries, hcounter⟩
  · rw [heq]; exact h
  · refine ⟨?_, ?_, ?_⟩
    · intro scope
      have hstored := storedBytes_insert hentries scope
      have hle := h.ledger scope
      rw [(hcounter scope).1, Scope.share_sub]
      dsimp only at hstored hle ⊢
      -- the stored bytes change by `new - old`, the count by that or by zero, whichever is more
      omega
    · intro scope
      by_cases hcovers : scope.covers key = true
      · exact (hcounter scope).2 hcovers
      · have hsame := (hcounter scope).1
        have hlimit := h.counters scope
        simp only [Scope.share, hcovers] at hsame
        rw [hsame]
        exact hlimit
    · intro other entry hentry
      rw [hentries, HashMap.lookup_insert_eq] at hentry
      split at hentry
      · cases hentry; exact hvalue
      · exact h.values other entry hentry

theorem put_bounded (h : Bounded limits inner) (now : Nat) (key : StateKey) (value : List UInt8) :
    Bounded limits (put limits now key value inner).1 := by
  unfold put
  split
  · exact h
  · rename_i hvalue
    exact putLocked_bounded (sweepExpiredLocked_bounded h limits.ttl now {}) now key
      (Nat.le_of_not_gt hvalue) _

/-- One call keeps the invariant. -/
theorem StateOp.apply_bounded (h : Bounded limits inner) (now : Nat) (op : StateOp) :
    Bounded limits (op.apply limits now inner) := by
  cases op with
  | get key => exact get_bounded h now key
  | put key value => exact put_bounded h now key value
  | delete key => exact dropEntry_bounded h key
  | sweepExpired => exact sweepExpiredLocked_bounded h limits.ttl now {}

theorem runFrom_bounded (h : Bounded limits inner) (run : Run) :
    Bounded limits (runFrom limits inner run) := by
  induction run generalizing inner with
  | nil => exact h
  | cons call run ih => exact ih (StateOp.apply_bounded h call.1 call.2)

end Bounded

/-- **The stored bytes respect the limits** after every run of the store, whatever the calls, the limits and
    the clock readings. -/
theorem runFrom_withinLimits (limits : FilterStateLimits) (run : Run) :
    WithinLimits limits (runFrom limits .empty run) :=
  (runFrom_bounded (bounded_empty limits) run).withinLimits

/-! ## Exact accounting -/

/-- The three counters are exact. -/
structure Accounted (inner : StateIndex) : Prop where
  total : inner.totalBytes = storedBytes inner .total
  connection : ∀ id, (inner.connectionBytes.lookup id).getD 0 = storedBytes inner (.connection id)
  filter : ∀ name, (inner.filterBytes.lookup name).getD 0 = storedBytes inner (.filter name)

theorem accounted_iff_ledger {inner : StateIndex} : Accounted inner ↔ Ledger (· = ·) inner := by
  constructor
  · intro h scope
    cases scope with
    | total => exact h.total.symm
    | connection id => exact (h.connection id).symm
    | filter name => exact (h.filter name).symm
  · intro h
    exact ⟨(h .total).symm, fun id => (h (.connection id)).symm, fun name => (h (.filter name)).symm⟩

/-- A call that does not shorten a live value: if it is a `put` to a key whose entry has not expired by
    `now`, its value is at least as long as the one stored there. -/
def KeepsLength (limits : FilterStateLimits) (now : Nat) (inner : StateIndex) : StateOp → Prop
  | .put key value => ∀ entry, inner.entries.lookup key = some entry →
      entry.expired limits.ttl now = false → entry.value.length ≤ value.length
  | _ => True

/-- A run none of whose calls shortens a live value. -/
def GrowingRun (limits : FilterStateLimits) : StateIndex → Run → Prop
  | _, [] => True
  | inner, (now, op) :: run =>
      KeepsLength limits now inner op ∧ GrowingRun limits (op.apply limits now inner) run

/-- A run is growing exactly if its start is, and so is what its start leads to. -/
theorem growingRun_append {limits : FilterStateLimits} {inner : StateIndex} (run run' : Run) :
    GrowingRun limits inner (run ++ run')
      ↔ GrowingRun limits inner run ∧ GrowingRun limits (runFrom limits inner run) run' := by
  induction run generalizing inner with
  | nil => simp [GrowingRun, runFrom]
  | cons call run ih =>
      rw [List.cons_append]
      simp only [GrowingRun, ih, runFrom, List.foldl_cons, and_assoc]

section Accounted

variable {limits : FilterStateLimits} {inner : StateIndex}

/-- After the sweep of a `put`, the old length is that of a live entry. -/
theorem KeepsLength.oldLen_le {now : Nat} {key : StateKey} {value : List UInt8}
    (h : KeepsLength limits now inner (.put key value)) (stats : StateOpStats) :
    oldLen (sweepExpiredLocked inner limits.ttl now stats).1 key ≤ value.length := by
  unfold oldLen
  cases hentry : (sweepExpiredLocked inner limits.ttl now stats).1.entries.lookup key with
  | none => simp
  | some entry =>
      obtain ⟨hlookup, hlive⟩ := sweepExpiredLocked_lookup.mp hentry
      exact h entry hlookup hlive

theorem putLocked_exact (h : Ledger (· = ·) inner) (now : Nat) {key : StateKey}
    {value : List UInt8} (hlen : oldLen inner key ≤ value.length) (stats : StateOpStats) :
    Ledger (· = ·) (putLocked limits now key value inner stats).1 := by
  rcases putLocked_cases limits now key value inner stats with ⟨heq, -⟩ | ⟨hentries, hcounter⟩
  · rw [heq]; exact h
  · intro scope
    have hstored := storedBytes_insert hentries scope
    have hexact := h scope
    have hmono := scope.share_mono key hlen
    rw [(hcounter scope).1, Scope.share_sub]
    dsimp only at hstored hexact ⊢
    omega

/-- One call that does not shorten a live value keeps the counters exact. -/
theorem StateOp.apply_exact (h : Ledger (· = ·) inner) {now : Nat} {op : StateOp}
    (hkeeps : KeepsLength limits now inner op) : Ledger (· = ·) (op.apply limits now inner) := by
  cases op with
  | get key => exact get_ledger releasable_eq h limits now key
  | put key value =>
      show Ledger (· = ·) (StateStore.put limits now key value inner).1
      unfold StateStore.put
      split
      · exact h
      · exact putLocked_exact (sweepExpiredLocked_ledger releasable_eq h limits.ttl now {}) now
          (hkeeps.oldLen_le {}) _
  | delete key => exact dropEntry_ledger releasable_eq h key
  | sweepExpired => exact sweepExpiredLocked_ledger releasable_eq h limits.ttl now {}

/-- **The defect.** From exact counters within the limits, a `put` that shortens a live value is accepted
    and leaves the total too high. -/
theorem StateOp.apply_inexact (hexact : Ledger (· = ·) inner) (hbounded : Bounded limits inner)
    {now : Nat} {op : StateOp} (hshort : ¬ KeepsLength limits now inner op) :
    ¬ Ledger (· = ·) (op.apply limits now inner) := by
  cases op with
  | get key => exact absurd trivial hshort
  | delete key => exact absurd trivial hshort
  | sweepExpired => exact absurd trivial hshort
  | put key value =>
      simp only [KeepsLength, not_forall, Nat.not_le] at hshort
      obtain ⟨entry, hlookup, hlive, hlt⟩ := hshort
      have hvalue := hbounded.values key entry hlookup
      intro hafter
      have happly : StateOp.apply limits now inner (.put key value)
          = (putLocked limits now key value (sweepExpiredLocked inner limits.ttl now {}).1
              (sweepExpiredLocked inner limits.ttl now {}).2).1 := by
        show (StateStore.put limits now key value inner).1 = _
        unfold StateStore.put
        rw [if_neg (by omega)]
      rw [happly] at hafter
      have hexact' := sweepExpiredLocked_ledger releasable_eq hexact limits.ttl now {}
      have hbounded' := sweepExpiredLocked_bounded hbounded limits.ttl now {}
      have hold : oldLen (sweepExpiredLocked inner limits.ttl now {}).1 key
          = entry.value.length := by
        simp [oldLen, sweepExpiredLocked_lookup.mpr ⟨hlookup, hlive⟩]
      rcases putLocked_cases limits now key value (sweepExpiredLocked inner limits.ttl now {}).1
        (sweepExpiredLocked inner limits.ttl now {}).2 with ⟨-, scope, -, hover⟩ | ⟨hentries, hcounter⟩
      · -- with `delta = 0` no limit can reject
        have hlimit := hbounded'.counters scope
        omega
      · have hstored := storedBytes_insert hentries .total
        have hbefore := hexact' .total
        have htotal := (hcounter .total).1
        have hequal := hafter .total
        simp only [hold, Scope.share, Scope.covers, if_true] at hstored htotal
        dsimp only at hbefore hequal
        omega

theorem runFrom_exact (h : Ledger (· = ·) inner) {run : Run} (hrun : GrowingRun limits inner run) :
    Ledger (· = ·) (runFrom limits inner run) := by
  induction run generalizing inner with
  | nil => exact h
  | cons call run ih => exact ih (StateOp.apply_exact h hrun.1) hrun.2

/-- A run through exact counters only is growing. -/
theorem growingRun_of_exact (hbounded : Bounded limits inner) {run : Run}
    (h : ∀ start rest, run = start ++ rest → Ledger (· = ·) (runFrom limits inner start)) :
    GrowingRun limits inner run := by
  induction run generalizing inner with
  | nil => trivial
  | cons call run ih =>
      obtain ⟨now, op⟩ := call
      have hinner : Ledger (· = ·) inner := h [] _ rfl
      refine ⟨?_, ih (StateOp.apply_bounded hbounded now op) ?_⟩
      · by_contra hshort
        exact StateOp.apply_inexact hinner hbounded hshort (h [(now, op)] run rfl)
      · intro start rest hsplit
        exact h ((now, op) :: start) rest (by rw [hsplit]; rfl)

end Accounted

/-- **The counters are exact in every state of a run exactly if no call of the run shortens a live value.** -/
theorem accounted_throughout_iff_growingRun (limits : FilterStateLimits) (run : Run) :
    (∀ start rest, run = start ++ rest → Accounted (runFrom limits .empty start))
      ↔ GrowingRun limits .empty run := by
  constructor
  · intro h
    apply growingRun_of_exact (bounded_empty limits)
    intro start rest hsplit
    exact accounted_iff_ledger.mp (h start rest hsplit)
  · rintro hrun start rest rfl
    exact accounted_iff_ledger.mpr
      (runFrom_exact (ledger_empty rfl) ((growingRun_append start rest).mp hrun).1)

/-- Two puts to one key, the second with an empty value, leave two bytes on the counter and none stored. -/
theorem shrinking_put_not_accounted :
    ¬ ∀ (limits : FilterStateLimits) (run : Run), run.Pairwise (fun call call' => call.1 ≤ call'.1) →
      Accounted (runFrom limits .empty run) := by
  intro h
  have hrun := h .default
    [(0, .put ⟨"c".toList, "f".toList, "k".toList⟩ [1, 2]), (1, .put ⟨"c".toList, "f".toList, "k".toList⟩ [])]
    (by decide)
  exact absurd hrun.total (by decide)

end Inspect.StateStore
