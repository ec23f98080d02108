import Inspect.Flow.Correctness.StateStoreRuns
import Inspect.Flow.Correctness.StateStoreExpiry

/-!
# `Flow.Correctness.StateStoreMap` — the store as a map

What a call does to one key is one of five things: it writes the key, deletes it, touches it, lets it expire, or leaves
it as it is (`KeyStep`). From this it follows, over whole runs, that a `get` returns what the last accepted `put` to
its key wrote; and that no other key matters, although every `put` sweeps the whole store and the limits are shared.

A `put` that is rejected leaves the entries that are not expired, and the bytes that are counted beyond the stored ones.
-/

namespace Inspect.StateStore

/-- `Stored` or `Replaced`. -/
def StatePutOutcome.accepted : StatePutOutcome → Bool
  | .stored | .replaced => true
  | .rejectedEntryTooLarge | .rejectedConnectionLimit | .rejectedFilterLimit | .rejectedTotalLimit => false

variable (limits : FilterStateLimits)

/-! ## One call -/

/-- The call writes the key. -/
def Writes (inner : StateIndex) (now : Nat) (key : StateKey) (op : StateOp) : Prop :=
  ∃ value, op = .put key value ∧ (put limits now key value inner).2.1.accepted = true

/-- The call finds an entry under the key, and drops it although it does not delete it. -/
def Expires (inner : StateIndex) (now : Nat) (key : StateKey) (op : StateOp) : Prop :=
  op ≠ .delete key ∧ (inner.entries.lookup key).isSome = true
    ∧ (op.apply limits now inner).entries.lookup key = none

/-- All that a call can do to a key. -/
inductive KeyStep (inner : StateIndex) (now : Nat) (key : StateKey) (op : StateOp) : Prop
  | written (value : List UInt8) (hop : op = .put key value)
      (haccepted : (put limits now key value inner).2.1.accepted = true)
      (hafter : (op.apply limits now inner).entries.lookup key = some ⟨value, now, now⟩)
  | deleted (hop : op = .delete key) (hafter : (op.apply limits now inner).entries.lookup key = none)
  | touched (entry : StateEntry) (hop : op = .get key) (hbefore : inner.entries.lookup key = some entry)
      (hfresh : now - entry.lastAccessAt ≤ limits.ttl)
      (hafter : (op.apply limits now inner).entries.lookup key = some { entry with lastAccessAt := now })
  | expired (entry : StateEntry) (hwrites : ¬Writes limits inner now key op) (hdelete : op ≠ .delete key)
      (hbefore : inner.entries.lookup key = some entry) (hexpired : entry.expired limits.ttl now = true)
      (hafter : (op.apply limits now inner).entries.lookup key = none)
  | kept (hwrites : ¬Writes limits inner now key op) (hdelete : op ≠ .delete key)
      (hget : op = .get key → inner.entries.lookup key = none)
      (hafter : (op.apply limits now inner).entries.lookup key = inner.entries.lookup key)

section Step

variable {limits} {inner : StateIndex} {now : Nat}

/-- `put` under the lock rejects and changes nothing, or stores the entry. -/
theorem putLocked_accepted (key : StateKey) (value : List UInt8) (stats : StateOpStats) :
    ((putLocked limits now key value inner stats).2.1.accepted = false
        ∧ (putLocked limits now key value inner stats).1 = inner)
      ∨ ((putLocked limits now key value inner stats).2.1.accepted = true
        ∧ (putLocked limits now key value inner stats).1.entries
          = inner.entries.insert key { value, createdAt := now, lastAccessAt := now }) := by
  unfold putLocked
  dsimp only
  split_ifs
  · exact Or.inl ⟨rfl, rfl⟩
  · exact Or.inl ⟨rfl, rfl⟩
  · exact Or.inl ⟨rfl, rfl⟩
  · exact Or.inr ⟨rfl, rfl⟩
  · exact Or.inr ⟨rfl, rfl⟩

/-- The store after the sweep of a call. -/
abbrev swept (limits : FilterStateLimits) (now : Nat) (inner : StateIndex) : StateIndex :=
  (sweepExpiredLocked inner limits.ttl now {}).1

variable (limits inner now) in
/-- **What a `put` can do**: reject the value at once, reject it after the sweep, or store it after the sweep. -/
theorem put_cases (key : StateKey) (value : List UInt8) :
    ((put limits now key value inner).2.1.accepted = false ∧ (put limits now key value inner).1 = inner)
      ∨ ((put limits now key value inner).2.1.accepted = false
        ∧ (put limits now key value inner).1 = swept limits now inner)
      ∨ ((put limits now key value inner).2.1.accepted = true
        ∧ (put limits now key value inner).1.entries
          = (swept limits now inner).entries.insert key { value, createdAt := now, lastAccessAt := now }) := by
  unfold put
  split
  · exact Or.inl ⟨rfl, rfl⟩
  · exact Or.inr (putLocked_accepted key value _)

variable (limits inner now) in
/-- A sweep keeps the entry of a key, or drops it since it is expired. -/
theorem swept_lookup (key : StateKey) :
    (swept limits now inner).entries.lookup key = inner.entries.lookup key
      ∨ ∃ entry, inner.entries.lookup key = some entry ∧ entry.expired limits.ttl now = true
        ∧ (swept limits now inner).entries.lookup key = none := by
  cases hafter : (swept limits now inner).entries.lookup key with
  | some entry => exact Or.inl (sweepExpiredLocked_lookup.mp hafter).1.symm
  | none =>
      cases hbefore : inner.entries.lookup key with
      | none => exact Or.inl rfl
      | some entry =>
          refine Or.inr ⟨entry, rfl, ?_, rfl⟩
          by_contra hfresh
          rw [sweepExpiredLocked_lookup.mpr ⟨hbefore, eq_false_of_ne_true hfresh⟩] at hafter
          cases hafter

/-- A call that does to the key what a sweep does. -/
theorem keyStep_of_swept {key : StateKey} {op : StateOp} (hwrites : ¬Writes limits inner now key op)
    (hdelete : op ≠ .delete key) (hget : op ≠ .get key)
    (hafter : (op.apply limits now inner).entries.lookup key = (swept limits now inner).entries.lookup key) :
    KeyStep limits inner now key op := by
  rcases swept_lookup limits inner now key with hkept | ⟨entry, hbefore, hexpired, hnone⟩
  · exact .kept hwrites hdelete (fun h => absurd h hget) (hafter.trans hkept)
  · exact .expired entry hwrites hdelete hbefore hexpired (hafter.trans hnone)

theorem keyStep_get (key key' : StateKey) : KeyStep limits inner now key (.get key') := by
  have hwrites : ¬Writes limits inner now key (.get key') := by
    rintro ⟨value, hop, -⟩
    cases hop
  have hdelete : StateOp.get key' ≠ .delete key := StateOp.noConfusion
  cases hlookup : inner.entries.lookup key' with
  | none =>
      have happly : (StateOp.get key').apply limits now inner = inner := by
        show (StateStore.get limits now key' inner).1 = inner
        unfold StateStore.get
        rw [hlookup]
      refine .kept hwrites hdelete ?_ (by rw [happly])
      intro hop
      cases hop
      exact hlookup
  | some entry =>
      by_cases hidle : now - entry.lastAccessAt > limits.ttl
      · have happly : (StateOp.get key').apply limits now inner = (dropEntry inner key').1 := by
          show (StateStore.get limits now key' inner).1 = _
          simp only [StateStore.get, hlookup, hidle, if_true]
        by_cases hkey : key = key'
        · subst hkey
          refine .expired entry hwrites hdelete hlookup ?_ ?_
          · simp [StateEntry.expired, hidle]
          · rw [happly, dropEntry_lookup, if_pos rfl]
        · refine .kept hwrites hdelete ?_ ?_
          · intro hop
            cases hop
            exact absurd rfl hkey
          · rw [happly, dropEntry_lookup, if_neg hkey]
      · have happly : ((StateOp.get key').apply limits now inner).entries
            = inner.entries.insert key' { entry with lastAccessAt := now } := by
          show (StateStore.get limits now key' inner).1.entries = _
          simp only [StateStore.get, hlookup, hidle, if_false]
        by_cases hkey : key = key'
        · subst hkey
          refine .touched entry rfl hlookup (Nat.le_of_not_gt hidle) ?_
          rw [happly, HashMap.lookup_insert_eq, if_pos rfl]
        · refine .kept hwrites hdelete ?_ ?_
          · intro hop
            cases hop
            exact absurd rfl hkey
          · rw [happly, HashMap.lookup_insert_eq, if_neg hkey]

theorem keyStep_put (key key' : StateKey) (value : List UInt8) :
    KeyStep limits inner now key (.put key' value) := by
  have hdelete : StateOp.put key' value ≠ .delete key := StateOp.noConfusion
  have hget : StateOp.put key' value ≠ .get key := StateOp.noConfusion
  have hrejected : (StateStore.put limits now key' value inner).2.1.accepted = false
      → ¬Writes limits inner now key (.put key' value) := by
    rintro hrejected ⟨value', hop, haccepted⟩
    cases hop
    rw [hrejected] at haccepted
    cases haccepted
  rcases put_cases limits inner now key' value with
    ⟨hout, hsame⟩ | ⟨hout, hswept⟩ | ⟨hout, hentries⟩
  · exact .kept (hrejected hout) hdelete (fun h => absurd h hget) (congrArg (·.entries.lookup key) hsame)
  · exact keyStep_of_swept (hrejected hout) hdelete hget (congrArg (·.entries.lookup key) hswept)
  · have hafter : ((StateOp.put key' value).apply limits now inner).entries.lookup key
        = if key = key' then some ⟨value, now, now⟩ else (swept limits now inner).entries.lookup key :=
      (congrArg (AList.lookup key) hentries).trans (HashMap.lookup_insert_eq _ _ _ _)
    by_cases hkey : key = key'
    · subst hkey
      exact .written value rfl hout (hafter.trans (if_pos rfl))
    · refine keyStep_of_swept ?_ hdelete hget (hafter.trans (if_neg hkey))
      rintro ⟨value', hop, -⟩
      cases hop
      exact hkey rfl

theorem keyStep_delete (key key' : StateKey) : KeyStep limits inner now key (.delete key') := by
  have hafter : ((StateOp.delete key').apply limits now inner).entries.lookup key
      = if key = key' then none else inner.entries.lookup key := dropEntry_lookup inner key' key
  by_cases hkey : key = key'
  · subst hkey
    exact .deleted rfl (hafter.trans (if_pos rfl))
  · refine .kept ?_ ?_ (fun h => StateOp.noConfusion h) (hafter.trans (if_neg hkey))
    · rintro ⟨value, hop, -⟩
      cases hop
    · intro hop
      cases hop
      exact hkey rfl

variable (limits inner now) in
/-- **All that a call can do to a key.** -/
theorem keyStep (key : StateKey) (op : StateOp) : KeyStep limits inner now key op := by
  cases op with
  | get key' => exact keyStep_get key key'
  | put key' value => exact keyStep_put key key' value
  | delete key' => exact keyStep_delete key key'
  | sweepExpired =>
      refine keyStep_of_swept ?_ StateOp.noConfusion StateOp.noConfusion rfl
      rintro ⟨value, hop, -⟩
      cases hop

end Step

/-! ## Runs -/

/-- No call of the run writes or deletes the key. -/
def Unwritten (inner : StateIndex) (key : StateKey) : Run → Prop
  | [] => True
  | (now, op) :: run =>
      (¬Writes limits inner now key op ∧ op ≠ .delete key) ∧ Unwritten (op.apply limits now inner) key run

/-- No call of the run finds the entry of the key and drops it. -/
def Unexpired (inner : StateIndex) (key : StateKey) : Run → Prop
  | [] => True
  | (now, op) :: run => ¬Expires limits inner now key op ∧ Unexpired (op.apply limits now inner) key run

/-- Every call of the run comes within the time to live, of the put at `createdAt` and of the last access. -/
def Fresh (ttl createdAt : Nat) (key : StateKey) : Nat → Run → Prop
  | _, [] => True
  | lastAccessAt, (now, op) :: run =>
      (now - lastAccessAt ≤ ttl ∧ now - createdAt ≤ ttl)
        ∧ Fresh ttl createdAt key (if op = .get key then now else lastAccessAt) run

/-- The `put` of the value under the key was accepted, and the key was neither written nor deleted since, nor did its
    entry expire. -/
structure LatestPut (run : Run) (key : StateKey) (value : List UInt8) (start rest : Run) (now : Nat) : Prop where
  split : run = start ++ (now, .put key value) :: rest
  accepted : (put limits now key value (runFrom limits .empty start)).2.1.accepted = true
  unwritten : Unwritten limits (runFrom limits .empty (start ++ [(now, .put key value)])) key rest
  unexpired : Unexpired limits (runFrom limits .empty (start ++ [(now, .put key value)])) key rest

section Runs

variable {limits}

theorem runFrom_append (inner : StateIndex) (run run' : Run) :
    runFrom limits inner (run ++ run') = runFrom limits (runFrom limits inner run) run' := List.foldl_append ..

theorem unwritten_concat {inner : StateIndex} {key : StateKey} {run : Run} {now : Nat} {op : StateOp} :
    Unwritten limits inner key (run ++ [(now, op)])
      ↔ Unwritten limits inner key run
        ∧ ¬Writes limits (runFrom limits inner run) now key op ∧ op ≠ .delete key := by
  induction run generalizing inner with
  | nil => simp [Unwritten, runFrom]
  | cons call run ih =>
      show _ ∧ Unwritten limits _ key (run ++ [(now, op)]) ↔ (_ ∧ Unwritten limits _ key run) ∧ _
      rw [ih]
      exact and_assoc.symm

theorem unexpired_concat {inner : StateIndex} {key : StateKey} {run : Run} {now : Nat} {op : StateOp} :
    Unexpired limits inner key (run ++ [(now, op)])
      ↔ Unexpired limits inner key run ∧ ¬Expires limits (runFrom limits inner run) now key op := by
  induction run generalizing inner with
  | nil => simp [Unexpired, runFrom]
  | cons call run ih =>
      show _ ∧ Unexpired limits _ key (run ++ [(now, op)]) ↔ (_ ∧ Unexpired limits _ key run) ∧ _
      rw [ih]
      exact and_assoc.symm

/-- A call that neither writes nor deletes the key, and leaves an entry there, continues the run of its last put. -/
theorem LatestPut.concat {run start rest : Run} {key : StateKey} {value : List UInt8} {time now : Nat} {op : StateOp}
    (h : LatestPut limits run key value start rest time)
    (hwrites : ¬Writes limits (runFrom limits .empty run) now key op) (hdelete : op ≠ .delete key)
    (hafter : (op.apply limits now (runFrom limits .empty run)).entries.lookup key ≠ none) :
    LatestPut limits (run ++ [(now, op)]) key value start (rest ++ [(now, op)]) time := by
  have hrun : runFrom limits (runFrom limits .empty (start ++ [(time, .put key value)])) rest
      = runFrom limits .empty run := by
    rw [h.split, ← runFrom_append, List.append_assoc, List.singleton_append]
  refine ⟨?_, h.accepted, ?_, ?_⟩
  · rw [h.split, List.append_assoc, List.cons_append]
  · rw [unwritten_concat, hrun]
    exact ⟨h.unwritten, hwrites, hdelete⟩
  · rw [unexpired_concat, hrun]
    refine ⟨h.unexpired, ?_⟩
    rintro ⟨-, -, hnone⟩
    exact hafter hnone

/-- **An entry is that of the last accepted put** to its key, after every run. -/
theorem latestPut_of_lookup {run : Run} {key : StateKey} {entry : StateEntry}
    (h : (runFrom limits .empty run).entries.lookup key = some entry) :
    ∃ start rest now, LatestPut limits run key entry.value start rest now := by
  induction run using List.reverseRecOn generalizing entry with
  | nil => simp [runFrom, StateIndex.empty] at h
  | append_singleton run call ih =>
      obtain ⟨now, op⟩ := call
      rw [runFrom_append] at h
      change (op.apply limits now (runFrom limits .empty run)).entries.lookup key = some entry at h
      have hafter : (op.apply limits now (runFrom limits .empty run)).entries.lookup key ≠ none := by
        rw [h]
        exact Option.some_ne_none entry
      cases keyStep limits (runFrom limits .empty run) now key op with
      | written value hop haccepted hwritten =>
          subst hop
          rw [h] at hwritten
          cases hwritten
          exact ⟨run, [], now, rfl, haccepted, trivial, trivial⟩
      | deleted hop hnone => exact absurd hnone hafter
      | touched found hop hbefore hfresh htouched =>
          rw [h] at htouched
          obtain ⟨start, rest, time, hput⟩ := ih hbefore
          refine ⟨start, rest ++ [(now, op)], time, ?_⟩
          cases htouched
          subst hop
          refine hput.concat ?_ StateOp.noConfusion hafter
          rintro ⟨value, hop, -⟩
          cases hop
      | expired found hwrites hdelete hbefore hexpired hnone => exact absurd hnone hafter
      | kept hwrites hdelete hget hkept =>
          rw [hkept] at h
          obtain ⟨start, rest, time, hput⟩ := ih h
          exact ⟨start, rest ++ [(now, op)], time, hput.concat hwrites hdelete hafter⟩

/-- **An entry that is accessed in time stays**: nothing but its own key matters. -/
theorem lookup_of_fresh {inner : StateIndex} {key : StateKey} {run : Run} {value : List UInt8}
    {createdAt lastAccessAt now : Nat} (hlookup : inner.entries.lookup key = some ⟨value, createdAt, lastAccessAt⟩)
    (hunwritten : Unwritten limits inner key run)
    (hfresh : Fresh limits.ttl createdAt key lastAccessAt (run ++ [(now, .get key)])) :
    ∃ accessedAt, (runFrom limits inner run).entries.lookup key = some ⟨value, createdAt, accessedAt⟩
      ∧ now - accessedAt ≤ limits.ttl := by
  induction run generalizing inner lastAccessAt with
  | nil => exact ⟨lastAccessAt, hlookup, hfresh.1.1⟩
  | cons call run ih =>
      obtain ⟨time, op⟩ := call
      obtain ⟨⟨hwrites, hdelete⟩, hrest⟩ := hunwritten
      obtain ⟨⟨hidle, hborn⟩, hfreshRest⟩ := hfresh
      have hnext : (op.apply limits time inner).entries.lookup key
          = some ⟨value, createdAt, if op = .get key then time else lastAccessAt⟩ := by
        cases keyStep limits inner time key op with
        | written value hop haccepted _ => exact absurd ⟨value, hop, haccepted⟩ hwrites
        | deleted hop _ => exact absurd hop hdelete
        | touched entry hop hbefore _ htouched =>
            rw [hlookup] at hbefore
            cases hbefore
            rw [htouched, if_pos hop]
        | expired entry _ _ hbefore hexpired _ =>
            rw [hlookup] at hbefore
            cases hbefore
            rw [expired_eq_false_iff.mpr ⟨hidle, hborn⟩] at hexpired
            cases hexpired
        | kept _ _ hget hkept =>
            have hnotGet : op ≠ .get key := by
              intro hop
              rw [hget hop] at hlookup
              cases hlookup
            rw [hkept, if_neg hnotGet, hlookup]
      exact ih hnext hrest hfreshRest

end Runs

/-! ## Rejected puts -/

/-- What a sweep takes off a counter is what it takes off the stored bytes. -/
theorem swept_counter (limits : FilterStateLimits) {inner : StateIndex} (h : Ledger (· ≤ ·) inner) (now : Nat) (scope : Scope) :
    counter (swept limits now inner) scope + storedBytes inner scope
      = counter inner scope + storedBytes (swept limits now inner) scope := by
  have hinv : Ledger (· ≤ ·) (swept limits now inner) ∧ ∀ scope, counter (swept limits now inner) scope
      + storedBytes inner scope = counter inner scope + storedBytes (swept limits now inner) scope := by
    refine dropAll_invariant (fun after => Ledger (· ≤ ·) after ∧ ∀ scope,
      counter after scope + storedBytes inner scope = counter inner scope + storedBytes after scope) ?_ _ _
      ⟨h, fun _ => rfl⟩
    rintro after key ⟨hledger, hsame⟩
    refine ⟨dropEntry_ledger releasable_le hledger key, ?_⟩
    intro scope
    cases hentry : after.entries.lookup key with
    | none =>
        rw [dropEntry_of_none hentry]
        exact hsame scope
    | some entry =>
        have hcounter := dropEntry_counter hentry scope
        have hstored := dropEntry_storedBytes hentry scope
        have hle := hledger scope
        have hbefore := hsame scope
        dsimp only at hle
        -- the entry is counted, so that the subtraction does not saturate
        omega
  exact hinv.2 scope

/-- The bytes of a scope in which nothing expired stay the same. -/
theorem swept_storedBytes {limits : FilterStateLimits} {inner : StateIndex} {now : Nat} {scope : Scope}
    (h : ∀ key entry, inner.entries.lookup key = some entry → entry.expired limits.ttl now = true →
      scope.covers key = false) :
    storedBytes (swept limits now inner) scope = storedBytes inner scope := by
  have hkeys : ∀ keys : List StateKey, (∀ key ∈ keys, scope.covers key = false) → ∀ (stats : StateOpStats)
      (after : StateIndex), storedBytes (dropAll after stats keys).1 scope = storedBytes after scope := by
    intro keys hcovers stats after
    rw [dropAll_index]
    induction keys generalizing after with
    | nil => rfl
    | cons key keys ih =>
        obtain ⟨hkey, hrest⟩ := List.forall_mem_cons.mp hcovers
        rw [List.foldl_cons, ih hrest]
        cases hentry : after.entries.lookup key with
        | none => rw [dropEntry_of_none hentry]
        | some entry =>
            have hstored := dropEntry_storedBytes hentry scope
            rw [Scope.share, hkey] at hstored
            exact hstored
  refine hkeys _ ?_ _ _
  intro key hkey
  obtain ⟨entry, hlookup, hexpired⟩ := mem_expiredKeys.mp hkey
  exact h key entry hlookup hexpired

/-- A rejected `put` leaves the store as it was, or swept. -/
theorem put_rejected {limits : FilterStateLimits} {inner : StateIndex} {now : Nat} {key : StateKey} {value : List UInt8}
    (h : (put limits now key value inner).2.1.accepted = false) :
    (put limits now key value inner).1 = inner ∨ (put limits now key value inner).1 = swept limits now inner := by
  rcases put_cases limits inner now key value with
    ⟨-, hsame⟩ | ⟨-, hswept⟩ | ⟨haccepted, -⟩
  · exact Or.inl hsame
  · exact Or.inr hswept
  · rw [h] at haccepted
    cases haccepted

/-! ## Main result -/

/-- The key that a call is about. -/
def StateOp.key : StateOp → Option StateKey
  | .get key | .put key _ | .delete key => some key
  | .sweepExpired => none

/-- **The store is a map from keys to values**, after every run. A `get` returns only what the last accepted put to its
    key wrote, if the key was not deleted and its entry not dropped as expired since. It does return it if every call
    since, the `get` included, came within the time to live. A call about another key leaves the entry as it is, or
    drops it if it is expired. A rejected put drops expired entries only, and changes no counter but by their bytes. -/
theorem stateStore_map_semantics (limits : FilterStateLimits) (run : Run) :
    (∀ (now : Nat) (key : StateKey) (value : List UInt8), readAfter limits run now key = some value →
      (∃ start rest time, LatestPut limits run key value start rest time)
        ∧ ¬Expires limits (runFrom limits .empty run) now key (.get key))
    ∧ (∀ (start rest : Run) (time now : Nat) (key : StateKey) (value : List UInt8),
      run = start ++ (time, .put key value) :: rest →
      (put limits time key value (runFrom limits .empty start)).2.1.accepted = true →
      Unwritten limits (runFrom limits .empty (start ++ [(time, .put key value)])) key rest →
      Fresh limits.ttl time key time (rest ++ [(now, .get key)]) → readAfter limits run now key = some value)
    ∧ (∀ (now : Nat) (key : StateKey) (op : StateOp), op.key ≠ some key →
      (op.apply limits now (runFrom limits .empty run)).entries.lookup key
          = (runFrom limits .empty run).entries.lookup key
        ∨ ∃ entry, (runFrom limits .empty run).entries.lookup key = some entry
          ∧ entry.expired limits.ttl now = true
          ∧ (op.apply limits now (runFrom limits .empty run)).entries.lookup key = none)
    ∧ ∀ (now : Nat) (key : StateKey) (value : List UInt8),
      (put limits now key value (runFrom limits .empty run)).2.1.accepted = false →
      (∀ other entry, (runFrom limits .empty run).entries.lookup other = some entry →
        entry.expired limits.ttl now = false →
          (put limits now key value (runFrom limits .empty run)).1.entries.lookup other = some entry)
      ∧ (∀ other entry, (put limits now key value (runFrom limits .empty run)).1.entries.lookup other = some entry →
        (runFrom limits .empty run).entries.lookup other = some entry)
      ∧ (∀ scope, counter (put limits now key value (runFrom limits .empty run)).1 scope
            + storedBytes (runFrom limits .empty run) scope
          = counter (runFrom limits .empty run) scope
            + storedBytes (put limits now key value (runFrom limits .empty run)).1 scope)
      ∧ ∀ scope, (∀ other entry, (runFrom limits .empty run).entries.lookup other = some entry →
          entry.expired limits.ttl now = true → scope.covers other = false) →
        counter (put limits now key value (runFrom limits .empty run)).1 scope
          = counter (runFrom limits .empty run) scope := by
  refine ⟨?_, ?_, ?_, ?_⟩
  · -- a value that is read is that of the entry, and the entry is that of the last accepted put
    intro now key value hread
    obtain ⟨entry, hlookup, hidle, rfl⟩ := get_value_eq_some_iff.mp hread
    refine ⟨latestPut_of_lookup hlookup, ?_⟩
    rintro ⟨-, -, hnone⟩
    have hafter : (StateOp.apply limits now (runFrom limits .empty run) (.get key)).entries
        = (runFrom limits .empty run).entries.insert key { entry with lastAccessAt := now } := by
      show (StateStore.get limits now key (runFrom limits .empty run)).1.entries = _
      simp only [StateStore.get, hlookup, Nat.not_lt_of_le hidle, if_false]
    rw [hafter, HashMap.lookup_insert_eq, if_pos rfl] at hnone
    cases hnone
  · -- an accepted put stores its entry, which stays as long as every call comes in time
    rintro start rest time now key value rfl haccepted hunwritten hfresh
    have hwritten : (runFrom limits .empty (start ++ [(time, .put key value)])).entries.lookup key
        = some ⟨value, time, time⟩ := by
      rw [runFrom_append]
      rcases put_cases limits (runFrom limits .empty start) time key value with
        ⟨hrejected, -⟩ | ⟨hrejected, -⟩ | ⟨-, hentries⟩
      · rw [haccepted] at hrejected
        cases hrejected
      · rw [haccepted] at hrejected
        cases hrejected
      · exact (congrArg (AList.lookup key) hentries).trans (by rw [HashMap.lookup_insert_eq, if_pos rfl])
    obtain ⟨accessedAt, hlookup, hidle⟩ := lookup_of_fresh hwritten hunwritten hfresh
    refine get_value_eq_some_iff.mpr ⟨⟨value, time, accessedAt⟩, ?_, hidle, rfl⟩
    rw [← hlookup, ← runFrom_append, List.append_assoc, List.singleton_append]
  · -- only an operation on the key writes, deletes or touches its entry
    intro now key op hkey
    cases keyStep limits (runFrom limits .empty run) now key op with
    | written value hop _ _ => exact absurd (hop ▸ rfl) hkey
    | deleted hop _ => exact absurd (hop ▸ rfl) hkey
    | touched entry hop _ _ _ => exact absurd (hop ▸ rfl) hkey
    | expired entry _ _ hbefore hexpired hafter => exact Or.inr ⟨entry, hbefore, hexpired, hafter⟩
    | kept _ _ _ hafter => exact Or.inl hafter
  · -- a rejected put is refused at once, or after the sweep
    intro now key value hrejected
    have hledger := (runFrom_bounded (bounded_empty limits) run).ledger
    rcases put_rejected hrejected with hsame | hswept
    · rw [hsame]
      exact ⟨fun _ _ h _ => h, fun _ _ h => h, fun _ => rfl, fun _ _ => rfl⟩
    · rw [hswept]
      refine ⟨?_, ?_, swept_counter limits hledger now, ?_⟩
      · intro other entry hlookup hfresh
        exact sweepExpiredLocked_lookup.mpr ⟨hlookup, hfresh⟩
      · intro other entry hlookup
        exact (sweepExpiredLocked_lookup.mp hlookup).1
      · intro scope hcovers
        have hcounter := swept_counter limits hledger now scope
        have hstored := swept_storedBytes hcovers
        omega

/-- A value is read back after a put to another key and a read. -/
theorem stateStore_map_semantics_read :
    let key : StateKey := ⟨"c".toList, "f".toList, "k".toList⟩
    let other : StateKey := ⟨"c".toList, "g".toList, "k".toList⟩
    readAfter .default [(0, .put key [1]), (10, .put other [2]), (50, .get key)] 60 key = some [1] := by
  intro key other
  have hother : ∀ inner, ¬Writes .default inner 10 key (.put other [2]) := by
    rintro inner ⟨value, hop, -⟩
    exact absurd (StateOp.put.inj hop).1 (by decide)
  have hget : ∀ inner, ¬Writes .default inner 50 key (.get key) := by
    rintro inner ⟨value, hop, -⟩
    cases hop
  exact (stateStore_map_semantics .default [(0, .put key [1]), (10, .put other [2]), (50, .get key)]).2.1 []
    [(10, .put other [2]), (50, .get key)] 0 60 key [1] rfl (by decide)
    ⟨⟨hother _, StateOp.noConfusion⟩, ⟨hget _, StateOp.noConfusion⟩, trivial⟩
    ⟨by decide, by decide, by decide, trivial⟩

end Inspect.StateStore
