import Inspect.Lib.Json.Patch

/-!
# `Filters.Correctness.JsonDiffPatch` — the patch of a diff

`patchOf original edited` is the patch the diff amounts to, over values and reference tokens instead of texts:
all removals carry indices of the *original* array, in ascending order. Applied in order, each removal moves
the later items down, so a second removal from one array always misses: its index is past the end by the time
the last removal runs. `Shrinks` says that this happens somewhere.
-/

namespace Inspect.Filters

open Rfc6902

variable {N : Type} [BEq N]

/-! ## The patch -/

mutual

/-- The operations that turn `original` into `edited`, with paths relative to the value. -/
def patchOf (original edited : Json N) : List (Operation N) :=
  if original.beq edited then []
  else
    match original, edited with
    | .object originalMap, .object editedMap =>
        patchMembers originalMap editedMap
          ++ (editedMap.filter fun member => (originalMap.lookup member.1).isNone).map fun member =>
              .add [member.1] member.2
    | .array originalItems, .array editedItems =>
        let commonLen := min originalItems.length editedItems.length
        patchItems 0 originalItems editedItems
          ++ ((originalItems.zipIdx.drop commonLen).map fun (_, idx) => .remove [Nat.toDigits 10 idx])
          ++ ((editedItems.zipIdx.drop commonLen).map fun (item, idx) =>
              .add [Nat.toDigits 10 idx] item)
    | _, _ => [.replace [] edited]
termination_by structural original

def patchMembers (originalMap editedMap : List (Str × Json N)) : List (Operation N) :=
  match originalMap with
  | [] => []
  | (key, originalValue) :: originalMap =>
      (match editedMap.lookup key with
        | some editedValue => (patchOf originalValue editedValue).map (·.under key)
        | none => [.remove [key]])
      ++ patchMembers originalMap editedMap
termination_by structural originalMap

def patchItems (idx : Nat) (originalItems editedItems : List (Json N)) : List (Operation N) :=
  match originalItems, editedItems with
  | originalItem :: originalItems, editedItem :: editedItems =>
      (patchOf originalItem editedItem).map (·.under (Nat.toDigits 10 idx))
        ++ patchItems (idx + 1) originalItems editedItems
  | _, _ => []
termination_by structural originalItems

end

attribute [grind =] patchOf patchMembers patchItems

omit [BEq N] in
/-- Somewhere in the two values, reached by keys and indices that both have, an array of the original is at
    least two items longer than the edited one. -/
inductive Shrinks : Json N → Json N → Prop
  | here {items items' : List (Json N)} (h : items'.length + 2 ≤ items.length) :
      Shrinks (.array items) (.array items')
  | item {items items' : List (Json N)} {index : Nat} {value value' : Json N}
      (hitem : items[index]? = some value) (hitem' : items'[index]? = some value')
      (h : Shrinks value value') : Shrinks (.array items) (.array items')
  | member {members members' : List (Str × Json N)} {key : Str} {value value' : Json N}
      (hmember : members.lookup key = some value) (hmember' : members'.lookup key = some value')
      (h : Shrinks value value') : Shrinks (.object members) (.object members')

/-- Equal values do not shrink. -/
theorem not_shrinks_of_beq {original edited : Json N} (h : Shrinks original edited) :
    original.beq edited = false := by
  rw [← Bool.not_eq_true]
  induction h with
  | here h =>
      intro hbeq
      have hlength := Json.beq_array_length hbeq
      omega
  | item hitem hitem' _ ih => exact fun hbeq => ih (Json.beq_array_item hbeq hitem hitem')
  | member hmember hmember' _ ih =>
      intro hbeq
      obtain ⟨found, hfound, hvalue⟩ := Json.beq_object_member hbeq hmember
      rw [hmember'] at hfound
      cases hfound
      exact ih hvalue

/-! ## Every operation of the patch is local -/

omit [BEq N] in
theorem local_map_under {operations : List (Operation N)}
    (h : ∀ operation ∈ operations, Local operation) (token : Str) :
    ∀ operation ∈ operations.map (·.under token), Local operation := by
  intro operation hmem
  obtain ⟨inner, hinner, rfl⟩ := List.mem_map.mp hmem
  exact (h inner hinner).under token

theorem patchMembers_local {originalMap : List (Str × Json N)}
    (ih : ∀ member ∈ originalMap, ∀ edited, ∀ operation ∈ patchOf member.2 edited, Local operation)
    (editedMap : List (Str × Json N)) :
    ∀ operation ∈ patchMembers originalMap editedMap, Local operation := by
  induction originalMap with
  | nil => intro operation hmem; cases hmem
  | cons member originalMap ihMap =>
      obtain ⟨key, originalValue⟩ := member
      intro operation hmem
      unfold patchMembers at hmem
      rcases List.mem_append.mp hmem with hmem | hmem
      · cases hlookup : editedMap.lookup key with
        | some editedValue =>
            rw [hlookup] at hmem
            exact local_map_under (ih _ List.mem_cons_self editedValue) key operation hmem
        | none =>
            rw [hlookup] at hmem
            rw [List.mem_singleton.mp hmem]
            exact Local.remove [] key
      · exact ihMap (fun member hmember => ih member (List.mem_cons_of_mem _ hmember)) operation hmem

theorem patchItems_local {originalItems : List (Json N)}
    (ih : ∀ item ∈ originalItems, ∀ edited, ∀ operation ∈ patchOf item edited, Local operation)
    (idx : Nat) (editedItems : List (Json N)) :
    ∀ operation ∈ patchItems idx originalItems editedItems, Local operation := by
  induction originalItems generalizing idx editedItems with
  | nil => intro operation hmem; cases hmem
  | cons originalItem originalItems ihItems =>
      cases editedItems with
      | nil => intro operation hmem; cases hmem
      | cons editedItem editedItems =>
          intro operation hmem
          unfold patchItems at hmem
          rcases List.mem_append.mp hmem with hmem | hmem
          · exact local_map_under (ih _ List.mem_cons_self editedItem) _ operation hmem
          · exact ihItems (fun item hitem => ih item (List.mem_cons_of_mem _ hitem)) _ _ operation hmem

theorem patchOf_local (original edited : Json N) :
    ∀ operation ∈ patchOf original edited, Local operation := by
  induction original using Json.induction generalizing edited with
  | array originalItems ih =>
      intro operation hmem
      cases edited with
      | array editedItems =>
          unfold patchOf at hmem
          split at hmem
          · cases hmem
          · rcases List.mem_append.mp hmem with hmem | hmem
            · rcases List.mem_append.mp hmem with hmem | hmem
              · exact patchItems_local ih 0 editedItems operation hmem
              · obtain ⟨item, -, rfl⟩ := List.mem_map.mp hmem
                exact Local.remove [] _
            · obtain ⟨item, -, rfl⟩ := List.mem_map.mp hmem
              exact Local.add [] _ _
      | _ =>
          rw [List.mem_singleton.mp hmem]
          exact Local.replace [] _
  | object originalMap ih =>
      intro operation hmem
      cases edited with
      | object editedMap =>
          unfold patchOf at hmem
          split at hmem
          · cases hmem
          · rcases List.mem_append.mp hmem with hmem | hmem
            · exact patchMembers_local ih editedMap operation hmem
            · obtain ⟨member, -, rfl⟩ := List.mem_map.mp hmem
              exact Local.add [] _ _
      | _ =>
          rw [List.mem_singleton.mp hmem]
          exact Local.replace [] _
  | _ =>
      intro operation hmem
      unfold patchOf at hmem
      split at hmem
      · cases hmem
      · rw [List.mem_singleton.mp hmem]
        exact Local.replace [] _

end Inspect.Filters
