import Mathlib.Data.List.Destutter
import Mathlib.Data.List.Sort
import Mathlib.Tactic

/-!
# `Lib.Sorting` — sorting by a comparison

What a stable sort by a comparison guarantees: the result is in order, and it does not depend on the order of the
input as long as no two of its items compare as equal. A map that may fail gives the results of its items one by one,
and whether it fails does not depend on their order.
-/

namespace Inspect.Sorting

variable {A : Type} (cmp : A → A → Ordering) [Std.TransCmp cmp]

theorem isLE_total (a b : A) : ((cmp a b).isLE || (cmp b a).isLE) = true := by
  have hswap : cmp b a = (cmp a b).swap := Std.OrientedCmp.eq_swap
  rw [hswap]
  cases cmp a b with
  | lt => rfl
  | eq => rfl
  | gt => rfl

/-- A sorted list is in order. -/
theorem pairwise_sort (items : List A) :
    (items.mergeSort fun a b => (cmp a b).isLE).Pairwise fun a b => (cmp a b).isLE = true := by
  apply List.pairwise_mergeSort
  · intro a b c hab hbc
    exact Std.TransCmp.isLE_trans hab hbc
  · exact isLE_total cmp

/-- **Sorting forgets the order of the input** if only equal items compare as equal. -/
theorem sort_eq_of_perm {items items' : List A} (hperm : items.Perm items')
    (heq : ∀ a ∈ items, ∀ b ∈ items, cmp a b = .eq → a = b) :
    (items.mergeSort fun a b => (cmp a b).isLE) = items'.mergeSort fun a b => (cmp a b).isLE := by
  have hsorted := List.mergeSort_perm items fun a b => (cmp a b).isLE
  have hsorted' := List.mergeSort_perm items' fun a b => (cmp a b).isLE
  apply List.Perm.eq_of_pairwise _ (pairwise_sort cmp items) (pairwise_sort cmp items')
    (hsorted.trans (hperm.trans hsorted'.symm))
  intro a b ha hb hab hba
  exact heq a (hsorted.mem_iff.mp ha) b (hperm.mem_iff.mpr (hsorted'.mem_iff.mp hb))
    (Std.OrientedCmp.isLE_antisymm hab hba)

/-- What is found in a list is found in it in any order, if there is only one item to find. -/
theorem find?_eq_of_perm {B : Type} {items items' : List B} {p : B → Bool} (hperm : items.Perm items')
    (hunique : ∀ a ∈ items, ∀ b ∈ items, p a = true → p b = true → a = b) : items.find? p = items'.find? p := by
  cases hfound : items.find? p with
  | none =>
      rw [List.find?_eq_none] at hfound
      exact (List.find?_eq_none.mpr fun a ha => hfound a (hperm.mem_iff.mpr ha)).symm
  | some a =>
      have hmem := List.mem_of_find?_eq_some hfound
      have hp := List.find?_some hfound
      cases hfound' : items'.find? p with
      | none => exact absurd hp (List.find?_eq_none.mp hfound' a (hperm.mem_iff.mp hmem))
      | some b =>
          have hmem' := hperm.mem_iff.mpr (List.mem_of_find?_eq_some hfound')
          rw [hunique a hmem b hmem' hp (List.find?_some hfound')]

/-- A sort by a key that does not say in which order it leaves items with the same key. -/
structure UnstableSort (A : Type) (key : A → Nat) where
  sort : List A → List A
  perm : ∀ items, (sort items).Perm items
  sorted : ∀ items, (sort items).Pairwise fun a b => key a ≤ key b

/-- A stable sort is one of them. -/
def UnstableSort.stable (A : Type) (key : A → Nat) : UnstableSort A key where
  sort items := items.insertionSort fun a b => key a ≤ key b
  perm items := List.perm_insertionSort _ items
  sorted items := by
    have : Std.Total fun a b => key a ≤ key b := ⟨fun a b => Nat.le_total (key a) (key b)⟩
    have : IsTrans A fun a b => key a ≤ key b := ⟨fun _ _ _ => Nat.le_trans⟩
    exact List.pairwise_insertionSort _ items

/-! ## Removing repetitions -/

section Destutter

variable [DecidableEq A]

private theorem mem_destutter'_ne {item first : A} {items : List A} :
    item ∈ List.destutter' (· ≠ ·) first items ↔ item = first ∨ item ∈ items := by
  induction items generalizing first with
  | nil => simp
  | cons second items ih =>
      by_cases hne : first ≠ second
      · rw [List.destutter'_cons_pos items hne, List.mem_cons, ih, List.mem_cons]
      · rw [List.destutter'_cons_neg items hne, ih, List.mem_cons, ← not_not.mp hne]
        exact or_self_left.symm

/-- Removing repetitions removes no item altogether. -/
theorem mem_destutter_ne {item : A} {items : List A} : item ∈ items.destutter (· ≠ ·) ↔ item ∈ items := by
  cases items with
  | nil => rfl
  | cons first items =>
      rw [List.destutter_cons', mem_destutter'_ne, List.mem_cons]

end Destutter

/-! ## Maps that may fail -/

/-- What is related has something that it is related to. -/
theorem exists_of_mem_forall₂ {A B : Type} {R : A → B → Prop} {as : List A} {bs : List B} (h : List.Forall₂ R as bs)
    {b : B} (hmem : b ∈ bs) : ∃ a ∈ as, R a b := by
  induction h with
  | nil => cases hmem
  | @cons a b' as bs hab _ ih =>
      rcases List.mem_cons.mp hmem with rfl | hmem
      · exact ⟨a, List.mem_cons_self, hab⟩
      · obtain ⟨other, hother, hrelated⟩ := ih hmem
        exact ⟨other, List.mem_cons_of_mem _ hother, hrelated⟩

section MapM

variable {B C : Type} {f : B → Option C}

/-- Maps that agree on the items. -/
theorem mapM_congr {f' : B → Option C} {items : List B} (h : ∀ item ∈ items, f item = f' item) :
    items.mapM f = items.mapM f' := by
  induction items with
  | nil => rfl
  | cons item items ih =>
      rw [List.mapM_cons, List.mapM_cons, h item List.mem_cons_self,
        ih fun item hmem => h item (List.mem_cons_of_mem _ hmem)]

/-- Mapping twice is mapping once. -/
theorem mapM_bind_mapM {D : Type} (g : C → Option D) (items : List B) :
    (items.mapM f).bind (fun results => results.mapM g) = items.mapM fun item => (f item).bind g := by
  induction items with
  | nil => rfl
  | cons item items ih =>
      rw [List.mapM_cons, List.mapM_cons, ← ih]
      cases f item with
      | none => rfl
      | some result =>
          cases items.mapM f with
          | none => cases hg : g result <;> simp [hg]
          | some results => simp

/-- A map gives the results of its items, one by one. -/
theorem mapM_eq_some_iff {items : List B} {results : List C} :
    items.mapM f = some results ↔ List.Forall₂ (fun item result => f item = some result) items results := by
  induction items generalizing results with
  | nil =>
      rw [List.mapM_nil, List.forall₂_nil_left_iff]
      exact ⟨fun h => (Option.some.inj h).symm, fun h => congrArg some h.symm⟩
  | cons item items ih =>
      rw [List.mapM_cons, List.forall₂_cons_left_iff]
      constructor
      · intro h
        obtain ⟨result, hresult, h⟩ := Option.bind_eq_some_iff.mp h
        obtain ⟨rest, hrest, h⟩ := Option.bind_eq_some_iff.mp h
        exact ⟨result, rest, hresult, ih.mp hrest, (Option.some.inj h).symm⟩
      · rintro ⟨result, rest, hresult, hrest, rfl⟩
        rw [hresult, ih.mpr hrest]
        rfl

/-- A result is that of an item. -/
theorem exists_of_mem_mapM {items : List B} {results : List C} (h : items.mapM f = some results) {result : C}
    (hmem : result ∈ results) : ∃ item ∈ items, f item = some result :=
  exists_of_mem_forall₂ (mapM_eq_some_iff.mp h) hmem

/-- An item has its result. -/
theorem exists_mem_of_mapM {items : List B} {results : List C} (h : items.mapM f = some results) {item : B}
    (hmem : item ∈ items) : ∃ result ∈ results, f item = some result :=
  exists_of_mem_forall₂ (R := fun result item => f item = some result) (mapM_eq_some_iff.mp h).flip hmem

/-- The map succeeds if it does for every item. -/
theorem isSome_mapM_iff {items : List B} : (items.mapM f).isSome ↔ ∀ item ∈ items, (f item).isSome := by
  induction items with
  | nil => simp
  | cons item items ih =>
      rw [List.forall_mem_cons, ← ih, List.mapM_cons]
      cases f item with
      | none => simp
      | some result => cases items.mapM f <;> simp

/-- The same items in another order have the same results in another order. -/
theorem mapM_perm {items items' : List B} (hperm : items.Perm items') {results : List C}
    (h : items.mapM f = some results) : ∃ results', items'.mapM f = some results' ∧ results.Perm results' := by
  obtain ⟨results', hresults', hsame⟩ := List.perm_comp_forall₂ hperm.symm (mapM_eq_some_iff.mp h)
  exact ⟨results', mapM_eq_some_iff.mpr hresults', hsame.symm⟩

/-- In any order the map fails. -/
theorem mapM_eq_none_of_perm {items items' : List B} (hperm : items.Perm items') (h : items.mapM f = none) :
    items'.mapM f = none := by
  cases hresults : items'.mapM f with
  | none => rfl
  | some results =>
      obtain ⟨results', hresults', -⟩ := mapM_perm hperm.symm hresults
      rw [h] at hresults'
      cases hresults'

end MapM

end Inspect.Sorting
