import Inspect.Filters.Correctness.JsonDiffPatch

/-!
# `Filters.Correctness.JsonPatchValues` — the values a patch carries

An operation of `patchOf` that adds or replaces carries a part of the edited value. `BringsIn` says of two values,
and of nothing else, which parts these are.
-/

namespace Inspect.Filters

open Rfc6902

variable {N : Type} {p : Json N → Prop}

/-! ## Operations with a value -/

/-- An operation carries a value of the kind. -/
def Carries (p : Json N → Prop) (operations : List (Operation N)) : Prop :=
  ∃ operation ∈ operations, ∃ value ∈ operation.value?, p value

variable {operations operations' : List (Operation N)}

@[simp] theorem not_carries_nil : ¬ Carries p [] := by
  rintro ⟨operation, hmem, -⟩
  cases hmem

@[simp] theorem carries_append :
    Carries p (operations ++ operations') ↔ Carries p operations ∨ Carries p operations' := by
  simp only [Carries, List.mem_append, or_and_right, exists_or]

@[simp] theorem carries_under (token : Str) : Carries p (operations.map (·.under token)) ↔ Carries p operations := by
  simp only [Carries, List.mem_map, exists_exists_and_eq_and, Operation.value?_under]

/-- Operations made one by one from a list. -/
theorem carries_map {A : Type} {items : List A} {operation : A → Operation N} :
    Carries p (items.map operation) ↔ ∃ item ∈ items, ∃ value ∈ (operation item).value?, p value := by
  simp only [Carries, List.mem_map, exists_exists_and_eq_and]

/-- The items that are new are the ones behind the length of the original. -/
theorem carries_newItems {originalItems editedItems : List (Json N)} :
    Carries p ((editedItems.zipIdx.drop (min originalItems.length editedItems.length)).map fun (item, idx) =>
        .add [Nat.toDigits 10 idx] item)
      ↔ ∃ value ∈ editedItems.drop originalItems.length, p value := by
  have hdrop : (editedItems.zipIdx.drop (min originalItems.length editedItems.length)).map Prod.fst
      = editedItems.drop originalItems.length := by
    rw [List.map_drop, List.zipIdx_map_fst]
    rcases Nat.le_total originalItems.length editedItems.length with hle | hge
    · rw [min_eq_left hle]
    · rw [min_eq_right hge, List.drop_length, List.drop_of_length_le hge]
  rw [carries_map, ← hdrop]
  constructor
  · rintro ⟨new, hmem, value, hvalue, h⟩
    cases hvalue
    exact ⟨new.1, List.mem_map_of_mem hmem, h⟩
  · rintro ⟨value, hmem, h⟩
    obtain ⟨new, hnew, rfl⟩ := List.mem_map.mp hmem
    exact ⟨new, hnew, new.1, rfl, h⟩

theorem carries_newMembers {originalMap editedMap : List (Str × Json N)} :
    Carries p ((editedMap.filter fun member => (originalMap.lookup member.1).isNone).map fun member =>
        .add [member.1] member.2)
      ↔ ∃ key value, originalMap.lookup key = none ∧ (key, value) ∈ editedMap ∧ p value := by
  rw [carries_map]
  constructor
  · rintro ⟨member, hmem, value, hvalue, h⟩
    cases hvalue
    obtain ⟨hmember, hnew⟩ := List.mem_filter.mp hmem
    exact ⟨member.1, member.2, Option.isNone_iff_eq_none.mp hnew, hmember, h⟩
  · rintro ⟨key, value, hnew, hmember, h⟩
    exact ⟨(key, value), List.mem_filter.mpr ⟨hmember, Option.isNone_iff_eq_none.mpr hnew⟩, value, rfl, h⟩

/-! ## What comes in -/

variable [BEq N]

/-- A value of the kind comes in, somewhere that is reached by keys and indices that both values have: it takes the
    place of another one, or it is an item or a member that was not there. -/
inductive BringsIn (p : Json N → Prop) : Json N → Json N → Prop
  | replaced {original edited : Json N}
      (hitems : ∀ items items', ¬ (original = .array items ∧ edited = .array items'))
      (hmembers : ∀ members members', ¬ (original = .object members ∧ edited = .object members'))
      (hdiffers : original.beq edited = false) (h : p edited) : BringsIn p original edited
  | newItem {items items' : List (Json N)} {value : Json N} (hnew : value ∈ items'.drop items.length) (h : p value) :
      BringsIn p (.array items) (.array items')
  | newMember {members members' : List (Str × Json N)} {key : Str} {value : Json N}
      (hnew : members.lookup key = none) (hmember : (key, value) ∈ members') (h : p value) :
      BringsIn p (.object members) (.object members')
  | item {items items' : List (Json N)} {index : Nat} {value value' : Json N}
      (hitem : items[index]? = some value) (hitem' : items'[index]? = some value')
      (h : BringsIn p value value') : BringsIn p (.array items) (.array items')
  | member {members members' : List (Str × Json N)} {key : Str} {value value' : Json N}
      (hmember : members.lookup key = some value) (hmember' : members'.lookup key = some value')
      (h : BringsIn p value value') : BringsIn p (.object members) (.object members')

/-- Nothing comes into an equal value. -/
theorem beq_of_bringsIn {original edited : Json N} (horiginal : original.WellFormed) (h : BringsIn p original edited) :
    original.beq edited = false := by
  rw [← Bool.not_eq_true]
  induction h with
  | replaced _ _ hdiffers _ => exact fun hbeq => Bool.noConfusion (hdiffers.symm.trans hbeq)
  | newItem hnew _ =>
      intro hbeq
      rw [Json.beq_array_length hbeq, List.drop_length] at hnew
      cases hnew
  | newMember hnew hmember _ =>
      intro hbeq
      have hnone := Json.beq_object_key hbeq horiginal.keys hnew
      exact Members.lookup_eq_none_iff.mp hnone (List.mem_map_of_mem hmember)
  | item hitem hitem' _ ih =>
      exact fun hbeq => ih (horiginal.items _ (List.mem_of_getElem? hitem)) (Json.beq_array_item hbeq hitem hitem')
  | member hmember hmember' _ ih =>
      intro hbeq
      obtain ⟨found, hfound, hvalue⟩ := Json.beq_object_member hbeq hmember
      rw [hmember'] at hfound
      cases hfound
      exact ih (horiginal.lookup hmember) hvalue

/-- What comes in is a part of the edited value. -/
theorem BringsIn.part {q : Json N → Prop} (hitems : ∀ items, q (.array items) → ∀ item ∈ items, q item)
    (hmembers : ∀ members, q (.object members) → ∀ member ∈ members, q member.2) {original edited : Json N}
    (h : BringsIn p original edited) (hedited : q edited) : ∃ value, q value ∧ p value := by
  induction h with
  | replaced _ _ _ h => exact ⟨_, hedited, h⟩
  | newItem hnew h => exact ⟨_, hitems _ hedited _ (List.mem_of_mem_drop hnew), h⟩
  | newMember _ hmember h => exact ⟨_, hmembers _ hedited _ hmember, h⟩
  | item _ hitem' _ ih => exact ih (hitems _ hedited _ (List.mem_of_getElem? hitem'))
  | member _ hmember' _ ih => exact ih (hmembers _ hedited _ (Members.mem_of_lookup hmember'))

/-! ## The patch -/

theorem carries_patchMembers {originalMap editedMap : List (Str × Json N)} :
    Carries p (patchMembers originalMap editedMap)
      ↔ ∃ member ∈ originalMap, ∃ value', editedMap.lookup member.1 = some value'
        ∧ Carries p (patchOf member.2 value') := by
  induction originalMap with
  | nil => simp [patchMembers]
  | cons member originalMap ih =>
      obtain ⟨key, value⟩ := member
      rw [patchMembers, carries_append, ih, List.exists_mem_cons_iff]
      cases hlookup : editedMap.lookup key with
      | some value' => simp
      | none => simp [Carries, Operation.value?]

theorem carries_patchItems {originalItems editedItems : List (Json N)} (idx : Nat) :
    Carries p (patchItems idx originalItems editedItems)
      ↔ ∃ (index : Nat) (value value' : Json N), originalItems[index]? = some value ∧ editedItems[index]? = some value'
        ∧ Carries p (patchOf value value') := by
  induction originalItems generalizing editedItems idx with
  | nil => simp [patchItems]
  | cons value originalItems ih =>
      cases editedItems with
      | nil => simp [patchItems]
      | cons value' editedItems =>
          rw [patchItems, carries_append, carries_under, ih]
          constructor
          · rintro (h | ⟨index, found, found', hfound, hfound', h⟩)
            · exact ⟨0, value, value', rfl, rfl, h⟩
            · exact ⟨index + 1, found, found', hfound, hfound', h⟩
          · rintro ⟨index, found, found', hfound, hfound', h⟩
            cases index with
            | zero =>
                cases hfound
                cases hfound'
                exact Or.inl h
            | succ index => exact Or.inr ⟨index, found, found', hfound, hfound', h⟩

theorem carries_patchOf_array {items items' : List (Json N)}
    (hbeq : (Json.array items).beq (.array items') = false)
    (ih : ∀ item ∈ items, ∀ edited, Carries p (patchOf item edited) ↔ BringsIn p item edited) :
    Carries p (patchOf (.array items) (.array items')) ↔ BringsIn p (.array items) (.array items') := by
  unfold patchOf
  rw [if_neg (by simp [hbeq])]
  dsimp only
  rw [carries_append, carries_append, carries_patchItems, carries_newItems]
  constructor
  · rintro ((⟨index, value, value', hitem, hitem', h⟩ | hremoved) | ⟨value, hnew, h⟩)
    · exact .item hitem hitem' ((ih value (List.mem_of_getElem? hitem) value').mp h)
    · obtain ⟨_, -, _, hvalue, -⟩ := carries_map.mp hremoved
      cases hvalue
    · exact .newItem hnew h
  · intro h
    cases h with
    | replaced hitems => exact absurd ⟨rfl, rfl⟩ (hitems items items')
    | newItem hnew h => exact Or.inr ⟨_, hnew, h⟩
    | item hitem hitem' h =>
        exact Or.inl (Or.inl ⟨_, _, _, hitem, hitem', (ih _ (List.mem_of_getElem? hitem) _).mpr h⟩)

theorem carries_patchOf_object {members members' : List (Str × Json N)} (hkeys : (Members.Keys members).Nodup)
    (hbeq : (Json.object members).beq (.object members') = false)
    (ih : ∀ member ∈ members, ∀ edited, Carries p (patchOf member.2 edited) ↔ BringsIn p member.2 edited) :
    Carries p (patchOf (.object members) (.object members')) ↔ BringsIn p (.object members) (.object members') := by
  unfold patchOf
  rw [if_neg (by simp [hbeq])]
  dsimp only
  rw [carries_append, carries_patchMembers, carries_newMembers]
  constructor
  · rintro (⟨member, hmem, value', hlookup, h⟩ | ⟨key, value, hnew, hmember, h⟩)
    · exact .member (Members.lookup_of_mem hkeys hmem) hlookup ((ih member hmem value').mp h)
    · exact .newMember hnew hmember h
  · intro h
    cases h with
    | replaced _ hmembers => exact absurd ⟨rfl, rfl⟩ (hmembers members members')
    | newMember hnew hmember h => exact Or.inr ⟨_, _, hnew, hmember, h⟩
    | member hmember hmember' h =>
        have hmem := Members.mem_of_lookup hmember
        exact Or.inl ⟨_, hmem, _, hmember', (ih _ hmem _).mpr h⟩

/-- Values of which one is no container of the other's kind are replaced as a whole. -/
theorem patchOf_replaced {original edited : Json N}
    (hitems : ∀ items items', ¬ (original = .array items ∧ edited = .array items'))
    (hmembers : ∀ members members', ¬ (original = .object members ∧ edited = .object members'))
    (hbeq : original.beq edited = false) : patchOf original edited = [.replace [] edited] := by
  unfold patchOf
  rw [if_neg (by simp [hbeq])]
  split
  · exact absurd ⟨rfl, rfl⟩ (hmembers _ _)
  · exact absurd ⟨rfl, rfl⟩ (hitems _ _)
  · rfl

theorem carries_patchOf_replaced {original edited : Json N}
    (hitems : ∀ items items', ¬ (original = .array items ∧ edited = .array items'))
    (hmembers : ∀ members members', ¬ (original = .object members ∧ edited = .object members'))
    (hbeq : original.beq edited = false) :
    Carries p (patchOf original edited) ↔ BringsIn p original edited := by
  rw [patchOf_replaced hitems hmembers hbeq]
  constructor
  · rintro ⟨operation, hmem, value, hvalue, h⟩
    cases List.mem_singleton.mp hmem
    cases hvalue
    exact .replaced hitems hmembers hbeq h
  · intro h
    refine ⟨_, List.mem_singleton_self _, edited, rfl, ?_⟩
    cases h with
    | replaced _ _ _ h => exact h
    | newItem => exact absurd ⟨rfl, rfl⟩ (hitems _ _)
    | item => exact absurd ⟨rfl, rfl⟩ (hitems _ _)
    | newMember => exact absurd ⟨rfl, rfl⟩ (hmembers _ _)
    | member => exact absurd ⟨rfl, rfl⟩ (hmembers _ _)

/-- Into an equal value nothing comes, and there is no patch. -/
theorem carries_patchOf_of_beq {original edited : Json N} (horiginal : original.WellFormed)
    (hbeq : original.beq edited = true) : Carries p (patchOf original edited) ↔ BringsIn p original edited := by
  unfold patchOf
  rw [if_pos hbeq]
  refine iff_of_false not_carries_nil fun h => ?_
  exact Bool.noConfusion (hbeq.symm.trans (beq_of_bringsIn horiginal h))

theorem carries_patchOf_scalar {original edited : Json N} (horiginal : original.WellFormed)
    (harray : ∀ items, original ≠ .array items) (hobject : ∀ members, original ≠ .object members) :
    Carries p (patchOf original edited) ↔ BringsIn p original edited := by
  cases hbeq : original.beq edited with
  | true => exact carries_patchOf_of_beq horiginal hbeq
  | false => exact carries_patchOf_replaced (fun _ _ h => harray _ h.1) (fun _ _ h => hobject _ h.1) hbeq

/-- **The operations of a patch carry the values that come in.** -/
theorem carries_patchOf_iff {original edited : Json N} (horiginal : original.WellFormed) :
    Carries p (patchOf original edited) ↔ BringsIn p original edited := by
  induction original using Json.induction generalizing edited with
  | array items ih =>
      cases hbeq : (Json.array items).beq edited with
      | true => exact carries_patchOf_of_beq horiginal hbeq
      | false =>
          cases edited with
          | array items' =>
              exact carries_patchOf_array hbeq fun item hmem edited => ih item hmem (horiginal.items item hmem)
          | _ => exact carries_patchOf_replaced (by simp) (by simp) hbeq
  | object members ih =>
      cases hbeq : (Json.object members).beq edited with
      | true => exact carries_patchOf_of_beq horiginal hbeq
      | false =>
          cases edited with
          | object members' =>
              exact carries_patchOf_object horiginal.keys hbeq fun member hmem edited =>
                ih member hmem (horiginal.members member hmem)
          | _ => exact carries_patchOf_replaced (by simp) (by simp) hbeq
  | null => exact carries_patchOf_scalar horiginal (by simp) (by simp)
  | bool b => exact carries_patchOf_scalar horiginal (by simp) (by simp)
  | number n => exact carries_patchOf_scalar horiginal (by simp) (by simp)
  | string s => exact carries_patchOf_scalar horiginal (by simp) (by simp)

/-- Nothing of a kind comes in if no operation carries it. -/
theorem not_bringsIn_iff {original edited : Json N} (horiginal : original.WellFormed) :
    ¬ BringsIn p original edited ↔ ∀ operation ∈ patchOf original edited, ∀ value ∈ operation.value?, ¬ p value := by
  rw [← carries_patchOf_iff horiginal]
  simp only [Carries, not_exists, not_and]

/-- A patch carries only parts of the edited value. -/
theorem patchOf_values {q : Json N → Prop} (hitems : ∀ items, q (.array items) → ∀ item ∈ items, q item)
    (hmembers : ∀ members, q (.object members) → ∀ member ∈ members, q member.2) {original edited : Json N}
    (horiginal : original.WellFormed) (hedited : q edited) :
    ∀ operation ∈ patchOf original edited, ∀ value ∈ operation.value?, q value := by
  intro operation hmem value hvalue
  by_contra hnot
  obtain ⟨_, hpart, hnot⟩ := ((carries_patchOf_iff (p := fun value => ¬ q value) horiginal).mp
    ⟨operation, hmem, value, hvalue, hnot⟩).part hitems hmembers hedited
  exact hnot hpart

end Inspect.Filters
