import Mathlib.Data.List.AList
import Mathlib.Tactic

/-!
# `Lib.HashMap` — finite maps with a weight

A hash map is an `AList`: an association list without repeated keys, so that every key has at most one
value. Its entry order stands for the (unspecified) iteration order of a hash table.

`weight w m` adds up `w key value` over all entries. The two update laws say what an `insert` or an `erase`
does to it: the weight of the entry that leaves goes, the weight of the entry that comes is added. They are
stated without subtraction, so `omega` can use them.
-/

namespace Inspect

/-- A finite map from `K` to `V`. -/
abbrev HashMap (K V : Type) := AList (fun _ : K => V)

namespace HashMap

variable {K V : Type}

/-- The total weight of the entries of `m`. -/
def weight (w : K → V → Nat) (m : HashMap K V) : Nat :=
  (m.entries.map fun entry => w entry.1 entry.2).sum

@[simp] theorem weight_empty (w : K → V → Nat) : weight w (∅ : HashMap K V) = 0 := rfl

variable [DecidableEq K]

/-- What `key` contributes to the weight: nothing when it is absent. -/
def weightAt (w : K → V → Nat) (m : HashMap K V) (key : K) : Nat :=
  ((m.lookup key).map (w key)).getD 0

/-- Removing a key from an entry list takes out exactly that key's weight. -/
theorem sum_kerase (w : K → V → Nat) (key : K) :
    ∀ l : List (Sigma fun _ : K => V),
      ((l.kerase key).map fun entry => w entry.1 entry.2).sum
          + ((l.dlookup key).map (w key)).getD 0
        = (l.map fun entry => w entry.1 entry.2).sum
  | [] => rfl
  | ⟨k, v⟩ :: l => by
      by_cases hk : key = k
      · subst hk
        have herase : List.kerase key (⟨key, v⟩ :: l) = l :=
          List.kerase_cons_eq (s := (⟨key, v⟩ : Sigma fun _ : K => V)) rfl
        rw [herase, List.dlookup_cons_eq]
        simp only [Option.map_some, Option.getD_some, List.map_cons, List.sum_cons]
        omega
      · rw [List.kerase_cons_ne hk, List.dlookup_cons_ne l ⟨k, v⟩ hk]
        simp only [List.map_cons, List.sum_cons]
        have ih := sum_kerase w key l
        omega

/-- **Erasing** a key removes its weight. -/
theorem weight_erase (w : K → V → Nat) (m : HashMap K V) (key : K) :
    weight w (m.erase key) + weightAt w m key = weight w m :=
  sum_kerase w key m.entries

/-- **Inserting** at a key replaces its weight. -/
theorem weight_insert (w : K → V → Nat) (m : HashMap K V) (key : K) (value : V) :
    weight w (m.insert key value) + weightAt w m key = weight w m + w key value := by
  have h := sum_kerase w key m.entries
  unfold weight weightAt AList.lookup
  rw [AList.entries_insert, List.map_cons, List.sum_cons]
  dsimp only
  omega

/-- A key that is present contributes its value's weight. -/
theorem weightAt_of_lookup {w : K → V → Nat} {m : HashMap K V} {key : K} {value : V}
    (h : m.lookup key = some value) : weightAt w m key = w key value := by
  simp [weightAt, h]

/-- A lookup after an `insert`, in one equation. -/
theorem lookup_insert_eq (m : HashMap K V) (key key' : K) (value : V) :
    (m.insert key value).lookup key' = if key' = key then some value else m.lookup key' := by
  by_cases h : key' = key
  · subst h; simp
  · rw [if_neg h, AList.lookup_insert_ne h]

/-- A lookup after an `erase`, in one equation. -/
theorem lookup_erase_eq (m : HashMap K V) (key key' : K) :
    (m.erase key).lookup key' = if key' = key then none else m.lookup key' := by
  by_cases h : key' = key
  · subst h; simp
  · rw [if_neg h, AList.lookup_erase_ne h]

end HashMap
end Inspect
