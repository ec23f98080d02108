import Inspect.Flow.StateStore
import Mathlib.Tactic

/-!
# `Flow.Correctness.StateStoreAccounting` — counters against stored bytes

The store keeps three redundant byte counts: one in all, one per connection, one per filter. A `Scope` names
one of them, so that every statement about the three is made once, for a scope: `counter` is what the store
has written down, `storedBytes` is what the entries really hold.

Each operation is described by what it does to both sides. An operation can then be shown to preserve any
relation `rel (storedBytes) (counter)` that survives those effects; `Ledger rel` is that invariant. With
`rel := (· ≤ ·)` it holds in every reachable state, which gives the limits; with `rel := (· = ·)` it holds as
long as no `put` shortens a live entry, because `put` adds the *saturated* difference of the lengths.
-/

namespace Inspect.StateStore

/-! ## Scopes -/

/-- One of the store's byte counts. -/
inductive Scope
  | total
  | connection (id : Str)
  | filter (name : Str)

/-- The keys whose entries a scope counts. -/
def Scope.covers : Scope → StateKey → Bool
  | .total, _ => true
  | .connection id, key => decide (key.connectionId = id)
  | .filter name, key => decide (key.filterName = name)

/-- The count the store keeps for a scope; an absent count reads as zero. -/
def counter (inner : StateIndex) : Scope → Nat
  | .total => inner.totalBytes
  | .connection id => (inner.connectionBytes.lookup id).getD 0
  | .filter name => (inner.filterBytes.lookup name).getD 0

/-- The bytes a value of length `len` under `key` adds to a scope. -/
def Scope.share (scope : Scope) (key : StateKey) (len : Nat) : Nat :=
  if scope.covers key then len else 0

/-- The sum of the lengths of all values stored in a scope. -/
def storedBytes (inner : StateIndex) (scope : Scope) : Nat :=
  HashMap.weight (fun key entry => scope.share key entry.value.length) inner.entries

/-- The limit configured for a scope. -/
def FilterStateLimits.limit (limits : FilterStateLimits) : Scope → Nat
  | .total => limits.maxTotalBytes
  | .connection _ => limits.maxConnectionBytes
  | .filter _ => limits.maxFilterBytes

theorem Scope.share_mono (scope : Scope) (key : StateKey) {m n : Nat} (h : m ≤ n) :
    scope.share key m ≤ scope.share key n := by
  unfold Scope.share; split <;> omega

theorem Scope.share_sub (scope : Scope) (key : StateKey) (m n : Nat) :
    scope.share key (m - n) = scope.share key m - scope.share key n := by
  unfold Scope.share; split <;> omega

/-! ## What each operation does to a scope -/

theorem releaseBytes_lookup (table : HashMap Str Nat) (name other : Str) (len : Nat) :
    ((releaseBytes table name len).lookup other).getD 0
      = (table.lookup other).getD 0 - (if name = other then len else 0) := by
  unfold releaseBytes
  cases hused : table.lookup name with
  | none =>
      by_cases hname : name = other
      · subst hname; simp [hused]
      · simp [hname]
  | some used =>
      dsimp only
      split
      · rename_i hzero
        rw [HashMap.lookup_erase_eq]
        by_cases hname : other = name
        · subst hname; simp [hused, hzero]
        · simp [hname, Ne.symm hname]
      · rw [HashMap.lookup_insert_eq]
        by_cases hname : other = name
        · subst hname; simp [hused]
        · simp [hname, Ne.symm hname]

/-- Dropping an absent key changes nothing. -/
theorem dropEntry_of_none {inner : StateIndex} {key : StateKey}
    (h : inner.entries.lookup key = none) : dropEntry inner key = (inner, false) := by
  simp [dropEntry, h]

/-- `dropEntry` removes the key from the entries, present or not. -/
theorem dropEntry_lookup (inner : StateIndex) (key other : StateKey) :
    (dropEntry inner key).1.entries.lookup other
      = if other = key then none else inner.entries.lookup other := by
  cases hentry : inner.entries.lookup key with
  | none =>
      rw [dropEntry_of_none hentry]
      by_cases hother : other = key
      · subst hother; simp [hentry]
      · simp [hother]
  | some entry =>
      simp only [dropEntry, hentry]
      exact HashMap.lookup_erase_eq _ _ _

theorem dropEntry_counter {inner : StateIndex} {key : StateKey} {entry : StateEntry}
    (h : inner.entries.lookup key = some entry) (scope : Scope) :
    counter (dropEntry inner key).1 scope
      = counter inner scope - scope.share key entry.value.length := by
  cases scope with
  | total => simp [dropEntry, h, counter, Scope.share, Scope.covers]
  | connection id =>
      simp only [dropEntry, h, counter, releaseBytes_lookup, Scope.share, Scope.covers,
        decide_eq_true_eq]
  | filter name =>
      simp only [dropEntry, h, counter, releaseBytes_lookup, Scope.share, Scope.covers,
        decide_eq_true_eq]

theorem dropEntry_storedBytes {inner : StateIndex} {key : StateKey} {entry : StateEntry}
    (h : inner.entries.lookup key = some entry) (scope : Scope) :
    storedBytes (dropEntry inner key).1 scope + scope.share key entry.value.length
      = storedBytes inner scope := by
  have herase := HashMap.weight_erase
    (fun key (entry : StateEntry) => scope.share key entry.value.length) inner.entries key
  rw [HashMap.weightAt_of_lookup h] at herase
  simpa only [dropEntry, h, storedBytes] using herase

/-- What `putLocked` can do: reject and leave the index as it is, or store the entry and raise the counts of
    the three scopes of its key by the saturated difference, all three staying within their limits. -/
theorem putLocked_cases (limits : FilterStateLimits) (now : Nat) (key : StateKey)
    (value : List UInt8) (inner : StateIndex) (stats : StateOpStats) :
    ((putLocked limits now key value inner stats).1 = inner ∧
      ∃ scope : Scope, scope.covers key = true ∧
        limits.limit scope < counter inner scope + (value.length - oldLen inner key)) ∨
    ((putLocked limits now key value inner stats).1.entries
        = inner.entries.insert key { value, createdAt := now, lastAccessAt := now } ∧
      ∀ scope : Scope, counter (putLocked limits now key value inner stats).1 scope
          = counter inner scope + scope.share key (value.length - oldLen inner key) ∧
        (scope.covers key = true →
          counter (putLocked limits now key value inner stats).1 scope ≤ limits.limit scope)) := by
  -- the limits are tried in the order of the source: connection, filter, total
  unfold putLocked
  dsimp only
  split
  · exact Or.inl ⟨rfl, .connection key.connectionId, by simp [Scope.covers], by assumption⟩
  split
  · exact Or.inl ⟨rfl, .filter key.filterName, by simp [Scope.covers], by assumption⟩
  split
  · exact Or.inl ⟨rfl, .total, rfl, by assumption⟩
  rename_i hconn hfilter htotal
  refine Or.inr ⟨rfl, fun scope => ?_⟩
  cases scope with
  | total =>
      refine ⟨by simp [counter, Scope.share, Scope.covers], fun _ => ?_⟩
      simp only [counter, FilterStateLimits.limit]; omega
  | connection id =>
      simp only [counter, Scope.share, Scope.covers, decide_eq_true_eq, FilterStateLimits.limit,
        HashMap.lookup_insert_eq]
      by_cases hid : key.connectionId = id
      · subst hid; simp; omega
      · simp [hid, Ne.symm hid]
  | filter name =>
      simp only [counter, Scope.share, Scope.covers, decide_eq_true_eq, FilterStateLimits.limit,
        HashMap.lookup_insert_eq]
      by_cases hname : key.filterName = name
      · subst hname; simp; omega
      · simp [hname, Ne.symm hname]

/-- Storing a value replaces what its key held before. -/
theorem storedBytes_insert {inner after : StateIndex} {key : StateKey} {entry : StateEntry}
    (h : after.entries = inner.entries.insert key entry) (scope : Scope) :
    storedBytes after scope + scope.share key (oldLen inner key)
      = storedBytes inner scope + scope.share key entry.value.length := by
  have hinsert := HashMap.weight_insert
    (fun key (entry : StateEntry) => scope.share key entry.value.length) inner.entries key entry
  unfold storedBytes
  rw [h]
  have hold : HashMap.weightAt (fun key (entry : StateEntry) => scope.share key entry.value.length)
      inner.entries key = scope.share key (oldLen inner key) := by
    unfold HashMap.weightAt oldLen
    cases inner.entries.lookup key with
    | none => simp [Scope.share]
    | some old => rfl
  rw [← hold]
  exact hinsert

/-! ## The sweep

The sweep collects the expired keys and then drops them; no entry changes in between, so what is left is
exactly the entries that were not expired. -/

/-- The statistics do not influence which entries are dropped. -/
theorem dropAll_index (keys : List StateKey) :
    ∀ (inner : StateIndex) (stats : StateOpStats),
      (dropAll inner stats keys).1 = keys.foldl (fun inner key => (dropEntry inner key).1) inner := by
  induction keys with
  | nil => intro inner stats; rfl
  | cons key keys ih =>
      intro inner stats
      cases hdrop : dropEntry inner key with
      | mk after dropped =>
          cases dropped <;> simp only [dropAll, hdrop, List.foldl_cons] <;> exact ih _ _

/-- Anything `dropEntry` preserves, dropping a list of keys preserves. -/
theorem dropAll_invariant (Inv : StateIndex → Prop)
    (hdrop : ∀ inner key, Inv inner → Inv (dropEntry inner key).1) (keys : List StateKey)
    (stats : StateOpStats) {inner : StateIndex} (h : Inv inner) :
    Inv (dropAll inner stats keys).1 := by
  rw [dropAll_index]
  induction keys generalizing inner with
  | nil => exact h
  | cons key keys ih => exact ih (hdrop inner key h)

theorem dropAll_lookup (keys : List StateKey) (stats : StateOpStats) (inner : StateIndex)
    (other : StateKey) :
    (dropAll inner stats keys).1.entries.lookup other
      = if other ∈ keys then none else inner.entries.lookup other := by
  rw [dropAll_index]
  induction keys generalizing inner with
  | nil => simp
  | cons key keys ih =>
      rw [List.foldl_cons, ih, dropEntry_lookup]
      by_cases hkey : other = key
      · simp [hkey]
      · simp [hkey]

theorem mem_expiredKeys {inner : StateIndex} {ttl now : Nat} {key : StateKey} :
    key ∈ expiredKeys inner ttl now
      ↔ ∃ entry, inner.entries.lookup key = some entry ∧ entry.expired ttl now = true := by
  unfold expiredKeys
  simp only [List.mem_map, List.mem_filter]
  constructor
  · rintro ⟨⟨key', entry⟩, ⟨hmem, hexp⟩, rfl⟩
    exact ⟨entry, List.mem_dlookup inner.entries.nodupKeys hmem, hexp⟩
  · rintro ⟨entry, hlookup, hexp⟩
    exact ⟨⟨key, entry⟩, ⟨List.of_mem_dlookup hlookup, hexp⟩, rfl⟩

/-- **After a sweep** an entry is there exactly if it was there before and is not expired. -/
theorem sweepExpiredLocked_lookup {inner : StateIndex} {ttl now : Nat} {stats : StateOpStats}
    {key : StateKey} {entry : StateEntry} :
    (sweepExpiredLocked inner ttl now stats).1.entries.lookup key = some entry
      ↔ inner.entries.lookup key = some entry ∧ entry.expired ttl now = false := by
  unfold sweepExpiredLocked
  rw [dropAll_lookup]
  by_cases hmem : key ∈ expiredKeys inner ttl now
  · obtain ⟨old, hlookup, hexp⟩ := mem_expiredKeys.mp hmem
    simp only [hmem, if_true, hlookup, reduceCtorEq, false_iff, not_and, Option.some.injEq]
    rintro rfl
    simp [hexp]
  · simp only [hmem, if_false]
    refine ⟨fun hlookup => ⟨hlookup, ?_⟩, fun h => h.1⟩
    cases hexp : entry.expired ttl now with
    | false => rfl
    | true => exact absurd (mem_expiredKeys.mpr ⟨entry, hlookup, hexp⟩) hmem

/-! ## Ledgers

`Ledger rel inner` relates, in every scope, what is stored to what is counted. -/

/-- In every scope the stored bytes and the count are related by `rel`. -/
def Ledger (rel : Nat → Nat → Prop) (inner : StateIndex) : Prop :=
  ∀ scope, rel (storedBytes inner scope) (counter inner scope)

section Ledger

variable {rel : Nat → Nat → Prop}

/-- The relations that survive taking the same length off both sides. -/
def Releasable (rel : Nat → Nat → Prop) : Prop :=
  ∀ stored counted len, rel (stored + len) counted → rel stored (counted - len)

theorem releasable_le : Releasable (· ≤ ·) := by
  intro stored counted len h
  omega

theorem releasable_eq : Releasable (· = ·) := by
  intro stored counted len h
  omega

theorem ledger_empty (hzero : rel 0 0) : Ledger rel .empty := by
  intro scope
  have hstored : storedBytes .empty scope = 0 := rfl
  have hcounter : counter .empty scope = 0 := by cases scope <;> rfl
  rw [hstored, hcounter]
  exact hzero

theorem dropEntry_ledger (hrel : Releasable rel) {inner : StateIndex} (h : Ledger rel inner)
    (key : StateKey) : Ledger rel (dropEntry inner key).1 := by
  intro scope
  cases hentry : inner.entries.lookup key with
  | none => rw [dropEntry_of_none hentry]; exact h scope
  | some entry =>
      rw [dropEntry_counter hentry]
      apply hrel
      rw [dropEntry_storedBytes hentry]
      exact h scope

theorem sweepExpiredLocked_ledger (hrel : Releasable rel) {inner : StateIndex}
    (h : Ledger rel inner) (ttl now : Nat) (stats : StateOpStats) :
    Ledger rel (sweepExpiredLocked inner ttl now stats).1 :=
  dropAll_invariant (Ledger rel) (fun _ key hinner => dropEntry_ledger hrel hinner key) _ stats h

/-- What `get` can do to the index: nothing, drop the key, or touch its entry. -/
theorem get_cases (limits : FilterStateLimits) (now : Nat) (key : StateKey) (inner : StateIndex) :
    (get limits now key inner).1 = inner ∨ (get limits now key inner).1 = (dropEntry inner key).1 ∨
    ∃ entry, inner.entries.lookup key = some entry ∧ (get limits now key inner).1
      = { inner with entries := inner.entries.insert key { entry with lastAccessAt := now } } := by
  unfold get
  cases hentry : inner.entries.lookup key with
  | none => exact Or.inl rfl
  | some entry =>
      dsimp only
      split
      · exact Or.inr (Or.inl rfl)
      · exact Or.inr (Or.inr ⟨entry, rfl, rfl⟩)

theorem get_ledger (hrel : Releasable rel) {inner : StateIndex} (h : Ledger rel inner)
    (limits : FilterStateLimits) (now : Nat) (key : StateKey) :
    Ledger rel (get limits now key inner).1 := by
  rcases get_cases limits now key inner with heq | heq | ⟨entry, hentry, heq⟩
  · rw [heq]; exact h
  · rw [heq]; exact dropEntry_ledger hrel h key
  · intro scope
    rw [heq]
    have hstored := @storedBytes_insert inner
      { inner with entries := inner.entries.insert key { entry with lastAccessAt := now } } key
      { entry with lastAccessAt := now } rfl scope
    have hlen : oldLen inner key = entry.value.length := by simp [oldLen, hentry]
    rw [hlen] at hstored
    have hsame := h scope
    rw [← Nat.add_right_cancel hstored] at hsame
    cases scope <;> exact hsame

end Ledger

end Inspect.StateStore
