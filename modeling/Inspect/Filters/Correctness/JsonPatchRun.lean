import Inspect.Filters.Correctness.JsonPatchValues
import Inspect.Lib.Json.Numbers

/-!
# `Filters.Correctness.JsonPatchRun` — what the patch of a diff does

A patch fails if the original shrinks to the edited value. If not, it makes a value of the original, with the parts of
the edited value that it carries put in as they arrive. `Patched` says this for any way in which values may change on
the way to the patch, and for any way to compare numbers in the end: the result is the edited value exactly if
everything `Arrives`. On a way on which nothing changes that is always so (`applyAll_patchOf`).
-/

namespace Inspect.Filters

open Rfc6902

variable {N : Type} [BEq N]

/-! ## What arrives -/

/-- Somewhere that is reached by keys and indices that both values have, two numbers are equal and so related. -/
inductive Keeps (q : N → N → Prop) : Json N → Json N → Prop
  | number {n m : N} (hequal : (n == m) = true) (h : q n m) : Keeps q (.number n) (.number m)
  | item {items items' : List (Json N)} {index : Nat} {value value' : Json N}
      (hitem : items[index]? = some value) (hitem' : items'[index]? = some value')
      (h : Keeps q value value') : Keeps q (.array items) (.array items')
  | member {members members' : List (Str × Json N)} {key : Str} {value value' : Json N}
      (hmember : members.lookup key = some value) (hmember' : members'.lookup key = some value')
      (h : Keeps q value value') : Keeps q (.object members) (.object members')

variable (g : Json N → Json N) (eq : N → N → Bool)

/-- The numbers that stay in place and the values that come in are in the end what the edited value has there. -/
structure Arrives (original edited : Json N) : Prop where
  kept : ¬ Keeps (fun n m => eq n m = false) original edited
  brought : ¬ BringsIn (fun value => (g value).beqBy eq value = false) original edited

variable {g eq}

theorem arrives_array_iff {items items' : List (Json N)} :
    Arrives g eq (.array items) (.array items')
      ↔ (∀ pair ∈ items.zip items', Arrives g eq pair.1 pair.2)
        ∧ ∀ value ∈ items'.drop items.length, (g value).beqBy eq value = true := by
  constructor
  · intro h
    refine ⟨fun pair hmem => ?_, fun value hnew => ?_⟩
    · obtain ⟨index, hpair⟩ := List.mem_iff_getElem?.mp hmem
      obtain ⟨hitem, hitem'⟩ := List.getElem?_zip_eq_some.mp hpair
      exact ⟨fun hkeeps => h.kept (.item hitem hitem' hkeeps), fun hbrings => h.brought (.item hitem hitem' hbrings)⟩
    · rw [← Bool.not_eq_false]
      exact fun hdrifts => h.brought (.newItem hnew hdrifts)
  · rintro ⟨hitems, hnew⟩
    have hpair : ∀ {index value value'}, items[index]? = some value → items'[index]? = some value' →
        Arrives g eq value value' := fun hitem hitem' =>
      hitems (_, _) (List.mem_of_getElem? (List.getElem?_zip_eq_some.mpr ⟨hitem, hitem'⟩))
    constructor
    · intro h
      cases h with
      | item hitem hitem' h => exact (hpair hitem hitem').kept h
    · intro h
      cases h with
      | replaced hnot => exact hnot _ _ ⟨rfl, rfl⟩
      | newItem hmem h => exact Bool.noConfusion (h.symm.trans (hnew _ hmem))
      | item hitem hitem' h => exact (hpair hitem hitem').brought h

theorem arrives_object_iff {members members' : List (Str × Json N)} (hkeys' : (Members.Keys members').Nodup) :
    Arrives g eq (.object members) (.object members')
      ↔ ∀ key value', members'.lookup key = some value' →
          (∀ value, members.lookup key = some value → Arrives g eq value value')
            ∧ (members.lookup key = none → (g value').beqBy eq value' = true) := by
  constructor
  · intro h key value' hmember'
    refine ⟨fun value hmember => ?_, fun hnew => ?_⟩
    · exact ⟨fun hkeeps => h.kept (.member hmember hmember' hkeeps),
        fun hbrings => h.brought (.member hmember hmember' hbrings)⟩
    · rw [← Bool.not_eq_false]
      exact fun hdrifts => h.brought (.newMember hnew (Members.mem_of_lookup hmember') hdrifts)
  · intro hmembers
    constructor
    · intro h
      cases h with
      | member hmember hmember' h => exact ((hmembers _ _ hmember').1 _ hmember).kept h
    · intro h
      cases h with
      | replaced _ hnot => exact hnot _ _ ⟨rfl, rfl⟩
      | newMember hnew hmem h =>
          exact Bool.noConfusion (h.symm.trans ((hmembers _ _ (Members.lookup_of_mem hkeys' hmem)).2 hnew))
      | member hmember hmember' h => exact ((hmembers _ _ hmember').1 _ hmember).brought h

/-- Of a value that is replaced as a whole, the new one has to arrive. -/
theorem arrives_replaced_iff {original edited : Json N}
    (hitems : ∀ items items', ¬ (original = .array items ∧ edited = .array items'))
    (hmembers : ∀ members members', ¬ (original = .object members ∧ edited = .object members'))
    (hdiffers : original.beq edited = false) : Arrives g eq original edited ↔ (g edited).beqBy eq edited = true := by
  constructor
  · intro h
    rw [← Bool.not_eq_false]
    exact fun hdrifts => h.brought (.replaced hitems hmembers hdiffers hdrifts)
  · intro harrives
    constructor
    · intro h
      cases h with
      | number hequal h =>
          rw [Json.beq, hequal] at hdiffers
          cases hdiffers
      | item => exact hitems _ _ ⟨rfl, rfl⟩
      | member => exact hmembers _ _ ⟨rfl, rfl⟩
    · intro h
      cases h with
      | replaced _ _ _ h => exact Bool.noConfusion (h.symm.trans harrives)
      | newItem => exact hitems _ _ ⟨rfl, rfl⟩
      | item => exact hitems _ _ ⟨rfl, rfl⟩
      | newMember => exact hmembers _ _ ⟨rfl, rfl⟩
      | member => exact hmembers _ _ ⟨rfl, rfl⟩

/-- Of equal values that are no containers of one kind, only numbers have to arrive. -/
theorem arrives_of_scalar {original edited : Json N} (horiginal : original.WellFormed)
    (hbeq : original.beq edited = true)
    (hnumber : ∀ n m, original = .number n → edited = .number m → eq n m = true)
    (harray : ∀ items, original ≠ .array items) (hobject : ∀ members, original ≠ .object members) :
    Arrives g eq original edited := by
  refine ⟨fun h => ?_, fun h => Bool.noConfusion (hbeq.symm.trans (beq_of_bringsIn horiginal h))⟩
  cases h with
  | number _ h => exact Bool.noConfusion (h.symm.trans (hnumber _ _ rfl rfl))
  | item => exact harray _ rfl
  | member => exact hobject _ rfl

/-- Of equal values only the numbers have to arrive. -/
theorem beqBy_iff_arrives {original edited : Json N} (horiginal : original.WellFormed) (hedited : edited.WellFormed)
    (hbeq : original.beq edited = true) : original.beqBy eq edited = true ↔ Arrives g eq original edited := by
  induction original using Json.induction generalizing edited with
  | null | bool | string =>
      refine iff_of_true ?_ (arrives_of_scalar horiginal hbeq (by simp) (by simp) (by simp))
      cases edited <;> simp_all [Json.beq, Json.beqBy]
  | number n =>
      cases edited with
      | number m =>
          show eq n m = true ↔ _
          constructor
          · intro h
            refine arrives_of_scalar horiginal hbeq ?_ (by simp) (by simp)
            rintro _ _ ⟨⟩ ⟨⟩
            exact h
          · intro h
            rw [← Bool.not_eq_false]
            exact fun hdrifts => h.kept (.number (by simpa [Json.beq] using hbeq) hdrifts)
      | _ => simp [Json.beq] at hbeq
  | array items ih =>
      cases edited with
      | array items' =>
          have hlength := Json.beq_array_length hbeq
          have hpair : ∀ pair ∈ items.zip items', pair.1.beqBy eq pair.2 = true ↔ Arrives g eq pair.1 pair.2 := by
            intro pair hmem
            obtain ⟨index, hpair⟩ := List.mem_iff_getElem?.mp hmem
            obtain ⟨hitem, hitem'⟩ := List.getElem?_zip_eq_some.mp hpair
            have hmem := List.mem_of_getElem? hitem
            exact ih pair.1 hmem (horiginal.items _ hmem) (hedited.items _ (List.mem_of_getElem? hitem'))
              (Json.beq_array_item hbeq hitem hitem')
          rw [Json.beqBy_array_iff, arrives_array_iff, List.drop_of_length_le hlength.ge, List.forall₂_iff_zip,
            and_iff_right hlength, and_iff_left (by simp), ← forall₂_congr hpair, Prod.forall]
      | _ => simp [Json.beq] at hbeq
  | object members ih =>
      cases edited with
      | object members' =>
          rw [Json.beqBy_object_iff_lookup horiginal.keys hedited.keys, arrives_object_iff hedited.keys]
          refine forall_congr' fun key => ?_
          cases hlookup : members.lookup key with
          | none => simp [Json.beq_object_key hbeq horiginal.keys hlookup]
          | some value =>
              obtain ⟨value', hlookup', hvalue⟩ := Json.beq_object_member hbeq hlookup
              have hmem := Members.mem_of_lookup hlookup
              have hih := ih _ hmem (horiginal.lookup hlookup) (hedited.lookup hlookup') hvalue
              simpa [hlookup'] using hih
      | _ => simp [Json.beq] at hbeq

/-! ## What a patch does -/

/-- Operations as they arrive, their values changed on the way. -/
def arriving (g : Json N → Json N) (operations : List (Operation N)) : List (Operation N) :=
  operations.map (·.mapValue g)

section Arriving

variable {operations operations' : List (Operation N)}

omit [BEq N] in
theorem arriving_append : arriving g (operations ++ operations') = arriving g operations ++ arriving g operations' :=
  List.map_append

omit [BEq N] in
theorem arriving_under (token : Str) :
    arriving g (operations.map (·.under token)) = (arriving g operations).map (·.under token) := by
  unfold arriving
  rw [List.map_map, List.map_map]
  exact List.map_congr_left fun operation _ => operation.mapValue_under g token

omit [BEq N] in
theorem arriving_local (h : ∀ operation ∈ operations, Local operation) :
    ∀ operation ∈ arriving g operations, Local operation := by
  intro operation hmem
  obtain ⟨inner, hinner, rfl⟩ := List.mem_map.mp hmem
  cases h inner hinner with
  | add path token value => exact Local.add path token (g value)
  | remove path token => exact Local.remove path token
  | replace path value => exact Local.replace path (g value)

end Arriving

variable (g eq)

/-- The result of patching one value into another: nothing if the value shrinks, else a value that is equal to the
    edited one exactly if everything arrives. -/
def Patched (original edited : Json N) (result : Option (Json N)) : Prop :=
  (Shrinks original edited → result = none) ∧
  (¬ Shrinks original edited → ∃ value, result = some value ∧ value.WellFormed ∧
    (value.beqBy eq edited = true ↔ Arrives g eq original edited))

variable {g eq}

/-- One of two ways it went. -/
theorem Patched.cases {original edited : Json N} {result : Option (Json N)}
    (h : Patched g eq original edited result) :
    (Shrinks original edited ∧ result = none) ∨
    (¬ Shrinks original edited ∧ ∃ value, result = some value ∧ value.WellFormed ∧
      (value.beqBy eq edited = true ↔ Arrives g eq original edited)) := by
  by_cases hshrinks : Shrinks original edited
  · exact Or.inl ⟨hshrinks, h.1 hshrinks⟩
  · exact Or.inr ⟨hshrinks, h.2 hshrinks⟩

/-! ### Objects -/

omit [BEq N] in
/-- Some member of the original shrinks. -/
def MemberShrinks (originalMap editedMap : List (Str × Json N)) : Prop :=
  ∃ key value value', (key, value) ∈ originalMap ∧ editedMap.lookup key = some value' ∧
    Shrinks value value'

omit [BEq N] in
theorem memberShrinks_cons {key : Str} {value : Json N} {originalMap editedMap : List (Str × Json N)} :
    MemberShrinks ((key, value) :: originalMap) editedMap ↔
      (∃ value', editedMap.lookup key = some value' ∧ Shrinks value value') ∨
      MemberShrinks originalMap editedMap := by
  constructor
  · rintro ⟨key', found, found', hmem, hlookup, hshrinks⟩
    rcases List.mem_cons.mp hmem with heq | hmem
    · cases heq
      exact Or.inl ⟨found', hlookup, hshrinks⟩
    · exact Or.inr ⟨key', found, found', hmem, hlookup, hshrinks⟩
  · rintro (⟨value', hlookup, hshrinks⟩ | ⟨key', found, found', hmem, hlookup, hshrinks⟩)
    · exact ⟨key, value, value', List.mem_cons_self, hlookup, hshrinks⟩
    · exact ⟨key', found, found', List.mem_cons_of_mem _ hmem, hlookup, hshrinks⟩

variable (g eq) in
/-- The members after the loop: those of the original are patched to what the edited object has, the others are as
    they were. -/
structure MembersPatched (originalMap editedMap before after : List (Str × Json N)) : Prop where
  wellFormed : Json.WellFormed (.object after)
  inside : ∀ member ∈ originalMap,
    Option.Rel (fun value value' => value.beqBy eq value' = true ↔ Arrives g eq member.2 value')
      (after.lookup member.1) (editedMap.lookup member.1)
  outside : ∀ key, key ∉ Members.Keys originalMap → after.lookup key = before.lookup key

/-- The first turn of the loop, and the rest of it from the object that the first turn leaves. -/
theorem MembersPatched.cons {key : Str} {value : Json N} {originalMap editedMap before next after : List (Str × Json N)}
    (hkey : key ∉ Members.Keys originalMap) (hsame : ∀ key', key' ≠ key → next.lookup key' = before.lookup key')
    (hrel : Option.Rel (fun patched value' => patched.beqBy eq value' = true ↔ Arrives g eq value value')
      (next.lookup key) (editedMap.lookup key))
    (h : MembersPatched g eq originalMap editedMap next after) :
    MembersPatched g eq ((key, value) :: originalMap) editedMap before after := by
  refine ⟨h.wellFormed, fun member hmem => ?_, fun key' hmem => ?_⟩
  · rcases List.mem_cons.mp hmem with rfl | hmem
    · rw [h.outside key hkey]
      exact hrel
    · exact h.inside member hmem
  · simp only [List.map_cons, List.mem_cons, not_or] at hmem
    rw [h.outside key' hmem.2, hsame key' hmem.1]

theorem applyAll_patchMembers {originalMap : List (Str × Json N)}
    (ih : ∀ member ∈ originalMap, ∀ edited : Json N, edited.WellFormed →
      Patched g eq member.2 edited (applyAll (arriving g (patchOf member.2 edited)) member.2))
    (hkeys : (Members.Keys originalMap).Nodup) {editedMap : List (Str × Json N)}
    (hedited : Json.WellFormed (.object editedMap)) {before : List (Str × Json N)}
    (hbefore : Json.WellFormed (.object before))
    (hagree : ∀ member ∈ originalMap, before.lookup member.1 = some member.2) :
    (MemberShrinks originalMap editedMap ∧
      applyAll (arriving g (patchMembers originalMap editedMap)) (.object before) = none) ∨
    (¬ MemberShrinks originalMap editedMap ∧
      ∃ after, applyAll (arriving g (patchMembers originalMap editedMap)) (.object before) = some (.object after) ∧
        MembersPatched g eq originalMap editedMap before after) := by
  induction originalMap generalizing before with
  | nil =>
      refine Or.inr ⟨?_, before, rfl, hbefore, ?_, fun key _ => rfl⟩
      · rintro ⟨key, value, value', hmem, -⟩
        cases hmem
      · intro member hmem
        cases hmem
  | cons member originalMap ihMap =>
      obtain ⟨key, value⟩ := member
      rw [Members.keys_cons_nodup] at hkeys
      have hvalue : before.lookup key = some value := hagree (key, value) List.mem_cons_self
      have hother : ∀ member ∈ originalMap, member.1 ≠ key := by
        rintro member hmem rfl
        exact hkeys.1 (List.mem_map_of_mem hmem)
      -- the rest of the loop, from the object the first turn leaves
      have hrest : ∀ {next : List (Str × Json N)}, Json.WellFormed (.object next) →
          (∀ key', key' ≠ key → next.lookup key' = before.lookup key') →
          Option.Rel (fun patched value' => patched.beqBy eq value' = true ↔ Arrives g eq value value')
            (next.lookup key) (editedMap.lookup key) →
          (MemberShrinks originalMap editedMap ∧
            applyAll (arriving g (patchMembers originalMap editedMap)) (.object next) = none) ∨
          (¬ MemberShrinks originalMap editedMap ∧
            ∃ after, applyAll (arriving g (patchMembers originalMap editedMap)) (.object next)
                = some (.object after) ∧
              MembersPatched g eq ((key, value) :: originalMap) editedMap before after) := by
        intro next hnext hsame hrel
        rcases ihMap (fun member hmem => ih member (List.mem_cons_of_mem _ hmem)) hkeys.2 hnext
          (fun member hmem => by
            rw [hsame member.1 (hother member hmem)]
            exact hagree member (List.mem_cons_of_mem _ hmem)) with hnone | ⟨hnot, after, hafter, hpatched⟩
        · exact Or.inl hnone
        · exact Or.inr ⟨hnot, after, hafter, hpatched.cons hkeys.1 hsame hrel⟩
      unfold patchMembers
      rw [arriving_append, applyAll_append, memberShrinks_cons]
      cases hlookup : editedMap.lookup key with
      | none =>
          have hremove : applyAll (arriving g [.remove [key]]) (.object before)
              = some (.object (Members.erase key before)) := by
            simp [arriving, Operation.mapValue, applyAll_cons, Operation.apply, removeAt, modifyAt, removeChild, hvalue]
          dsimp only
          rw [hremove, Option.bind_some]
          have hnext := hrest (hbefore.erase key)
            (fun key' hne => by rw [Members.lookup_erase hbefore.keys, if_neg hne])
            (by rw [Members.lookup_erase hbefore.keys, if_pos rfl, hlookup]; exact Option.Rel.none)
          simpa only [hlookup, reduceCtorEq, false_and, exists_false, false_or] using hnext
      | some editedValue =>
          dsimp only
          rw [arriving_under, applyAll_under_member (arriving_local (patchOf_local value editedValue)) hvalue]
          rcases (ih (key, value) List.mem_cons_self editedValue (hedited.lookup hlookup)).cases with
            ⟨hshrinks, hnone⟩ | ⟨hnot, result, hresult, hwf, harrives⟩
          · dsimp only at hnone
            rw [hnone]
            exact Or.inl ⟨Or.inl ⟨editedValue, rfl, hshrinks⟩, rfl⟩
          · dsimp only at hresult
            rw [hresult, Option.map_some, Option.bind_some]
            have hnext := hrest (hbefore.insert key hwf)
              (fun key' hne => by rw [Members.lookup_insert, if_neg hne])
              (by rw [Members.lookup_insert, if_pos rfl, hlookup]; exact Option.Rel.some harrives)
            simpa only [Option.some.injEq, exists_eq_left', hnot, false_or] using hnext

theorem applyAll_adds {added : List (Str × Json N)} (hkeys : (Members.Keys added).Nodup)
    (hadded : ∀ member ∈ added, (g member.2).WellFormed) {before : List (Str × Json N)}
    (hbefore : Json.WellFormed (.object before)) :
    ∃ after, applyAll (arriving g (added.map fun member => .add [member.1] member.2)) (.object before)
        = some (.object after) ∧ Json.WellFormed (.object after) ∧
      ∀ key, after.lookup key = ((added.lookup key).map g).or (before.lookup key) := by
  induction added generalizing before with
  | nil => exact ⟨before, rfl, hbefore, fun key => rfl⟩
  | cons member added ih =>
      obtain ⟨key, value⟩ := member
      rw [Members.keys_cons_nodup] at hkeys
      obtain ⟨after, hafter, hwf, hlookup⟩ := ih hkeys.2
        (fun member hmem => hadded member (List.mem_cons_of_mem _ hmem))
        (hbefore.insert key (hadded (key, value) List.mem_cons_self))
      refine ⟨after, ?_, hwf, ?_⟩
      · rw [List.map_cons, arriving, List.map_cons, applyAll_cons]
        exact hafter
      · intro key'
        rw [hlookup, Members.lookup_insert, Members.lookup_cons_eq]
        by_cases heq : key' = key
        · subst heq
          rw [Members.lookup_eq_none_iff.mpr hkeys.1, if_pos rfl, if_pos rfl]
          rfl
        · rw [if_neg heq, if_neg heq]

/-! ### Arrays -/

omit [BEq N] in
/-- Some item that both arrays have shrinks. -/
def ItemShrinks (originalItems editedItems : List (Json N)) : Prop :=
  ∃ (index : Nat) (value value' : Json N), originalItems[index]? = some value ∧ editedItems[index]? = some value' ∧
    Shrinks value value'

omit [BEq N] in
theorem itemShrinks_cons {item item' : Json N} {items items' : List (Json N)} :
    ItemShrinks (item :: items) (item' :: items') ↔ Shrinks item item' ∨ ItemShrinks items items' := by
  constructor
  · rintro ⟨index, value, value', hvalue, hvalue', hshrinks⟩
    cases index with
    | zero =>
        simp only [List.getElem?_cons_zero, Option.some.injEq] at hvalue hvalue'
        subst hvalue hvalue'
        exact Or.inl hshrinks
    | succ index => exact Or.inr ⟨index, value, value', hvalue, hvalue', hshrinks⟩
  · rintro (hshrinks | ⟨index, value, value', hvalue, hvalue', hshrinks⟩)
    · exact ⟨0, item, item', rfl, rfl, hshrinks⟩
    · exact ⟨index + 1, value, value', hvalue, hvalue', hshrinks⟩

/-- The loop over the common indices patches the items one by one; what is beyond them stays. -/
theorem applyAll_patchItems {originalItems : List (Json N)}
    (ih : ∀ item ∈ originalItems, ∀ edited : Json N, edited.WellFormed →
      Patched g eq item edited (applyAll (arriving g (patchOf item edited)) item))
    {editedItems : List (Json N)} (hedited : ∀ item ∈ editedItems, item.WellFormed)
    (before : List (Json N)) :
    (ItemShrinks originalItems editedItems ∧
      applyAll (arriving g (patchItems before.length originalItems editedItems))
        (.array (before ++ originalItems)) = none) ∨
    (¬ ItemShrinks originalItems editedItems ∧
      ∃ patched, applyAll (arriving g (patchItems before.length originalItems editedItems))
          (.array (before ++ originalItems))
            = some (.array (before ++ patched ++ originalItems.drop editedItems.length)) ∧
        (∀ item ∈ patched, item.WellFormed) ∧ patched.length = (originalItems.zip editedItems).length ∧
        (List.Forall₂ (fun item item' => item.beqBy eq item' = true) patched (editedItems.take originalItems.length)
          ↔ ∀ pair ∈ originalItems.zip editedItems, Arrives g eq pair.1 pair.2)) := by
  induction originalItems generalizing editedItems before with
  | nil =>
      refine Or.inr ⟨?_, [], ?_, by simp, by simp, by simp⟩
      · rintro ⟨index, value, value', hvalue, -⟩
        simp at hvalue
      · simp [patchItems, arriving]
  | cons item originalItems ihItems =>
      cases editedItems with
      | nil =>
          refine Or.inr ⟨?_, [], ?_, by simp, by simp, by simp⟩
          · rintro ⟨index, value, value', -, hvalue', -⟩
            simp at hvalue'
          · simp [patchItems, arriving]
      | cons item' editedItems =>
          have hitem : (before ++ item :: originalItems)[before.length]? = some item := by simp
          rw [patchItems, arriving_append, arriving_under, applyAll_append, itemShrinks_cons,
            applyAll_under_item (arriving_local (patchOf_local item item')) hitem]
          rcases (ih item List.mem_cons_self item' (hedited item' List.mem_cons_self)).cases with
            ⟨hshrinks, hnone⟩ | ⟨hnot, result, hresult, hwf, harrives⟩
          · rw [hnone]
            exact Or.inl ⟨Or.inl hshrinks, rfl⟩
          · -- the patched item moves over to those before, and the loop goes on behind it
            have hset : (before ++ item :: originalItems).set before.length result
                = (before ++ [result]) ++ originalItems := by simp
            have hlen : before.length + 1 = (before ++ [result]).length := by simp
            rw [hresult, Option.map_some, Option.bind_some, hset, hlen]
            rcases ihItems (fun item hmem => ih item (List.mem_cons_of_mem _ hmem))
              (fun item hmem => hedited item (List.mem_cons_of_mem _ hmem)) (before ++ [result]) with
              ⟨hshrinks, hnone⟩ | ⟨hnot', patched, hpatched, hpatchedWf, hpatchedLen, hforall⟩
            · exact Or.inl ⟨Or.inr hshrinks, hnone⟩
            · refine Or.inr ⟨by simp [hnot, hnot'], result :: patched, ?_, ?_, ?_, ?_⟩
              · rw [hpatched]
                simp
              · intro value hmem
                rcases List.mem_cons.mp hmem with rfl | hmem
                · exact hwf
                · exact hpatchedWf value hmem
              · rw [List.zip_cons_cons, List.length_cons, List.length_cons, hpatchedLen]
              · rw [List.length_cons, List.take_succ_cons, List.forall₂_cons, harrives, hforall, List.zip_cons_cons,
                  List.forall_mem_cons]

/-- One removal from an array. -/
theorem apply_remove_item (index : Nat) (items : List (Json N)) :
    (Operation.remove [Nat.toDigits 10 index]).apply (.array items)
      = if index < items.length then some (.array (items.eraseIdx index)) else none := by
  simp [Operation.apply, removeAt, modifyAt, removeChild, parseIndex_toDigits]

/-- **Removals in ascending order miss.** From an array too short for them, the last of the removals fails,
    if not an earlier one: each removal moves the rest down by one while the index goes up by one. -/
theorem applyAll_removes_none {removed : List (Json N)} {index : Nat} {items : List (Json N)}
    (hremoved : removed ≠ []) (hshort : items.length + 2 ≤ index + 2 * removed.length) :
    applyAll ((removed.zipIdx index).map fun (_, idx) => Operation.remove [Nat.toDigits 10 idx])
      (.array items) = none := by
  induction removed generalizing index items with
  | nil => exact absurd rfl hremoved
  | cons item removed ih =>
      rw [List.zipIdx_cons, List.map_cons, applyAll_cons, apply_remove_item]
      split
      · rename_i hlt
        rw [Option.bind_some]
        have hnext : removed ≠ [] := by
          rintro rfl
          simp only [List.length_cons, List.length_nil] at hshort
          omega
        apply ih hnext
        simp only [List.length_cons] at hshort
        rw [List.length_eraseIdx_of_lt hlt]
        omega
      · rfl

/-- New items go to the end of the array. -/
theorem applyAll_adds_items (added items : List (Json N)) :
    applyAll (arriving g ((added.zipIdx items.length).map fun (item, idx) => .add [Nat.toDigits 10 idx] item))
      (.array items) = some (.array (items ++ added.map g)) := by
  induction added generalizing items with
  | nil => simp [arriving]
  | cons item added ih =>
      have hdash : Nat.toDigits 10 items.length ≠ ['-'] := by
        intro heq
        have hnot : '-' ∉ Nat.toDigits 10 items.length := Text.not_mem_decimal (by decide) _
        rw [heq] at hnot
        exact hnot (List.mem_singleton_self '-')
      have hadd : ((Operation.add [Nat.toDigits 10 items.length] item).mapValue g).apply (.array items)
          = some (.array (items ++ [g item])) := by
        simp [Operation.mapValue, Operation.apply, addAt, modifyAt, addChild, parseIndex_toDigits, hdash,
          List.insertIdx_length_self]
      have hlen : items.length + 1 = (items ++ [g item]).length := by simp
      rw [List.zipIdx_cons, List.map_cons, arriving, List.map_cons, applyAll_cons, hadd, Option.bind_some, hlen]
      refine (ih (items ++ [g item])).trans ?_
      simp

omit [BEq N] in
theorem zipIdx_drop (items : List (Json N)) (n index : Nat) :
    (items.zipIdx index).drop n = (items.drop n).zipIdx (index + n) := by
  induction items generalizing n index with
  | nil => simp
  | cons item items ih =>
      cases n with
      | zero => simp
      | succ n =>
          rw [List.zipIdx_cons, List.drop_succ_cons, List.drop_succ_cons, ih]
          congr 1
          omega

/-! ### The whole patch -/

omit [BEq N] in
theorem shrinks_object_iff {originalMap editedMap : List (Str × Json N)} (hkeys : (Members.Keys originalMap).Nodup) :
    Shrinks (.object originalMap) (.object editedMap) ↔ MemberShrinks originalMap editedMap := by
  constructor
  · intro h
    cases h with
    | member hmember hmember' h => exact ⟨_, _, _, Members.mem_of_lookup hmember, hmember', h⟩
  · rintro ⟨key, value, value', hmem, hlookup, h⟩
    exact Shrinks.member (Members.lookup_of_mem hkeys hmem) hlookup h

omit [BEq N] in
theorem shrinks_array_iff {originalItems editedItems : List (Json N)} :
    Shrinks (.array originalItems) (.array editedItems)
      ↔ ItemShrinks originalItems editedItems ∨ editedItems.length + 2 ≤ originalItems.length := by
  constructor
  · intro h
    cases h with
    | here h => exact Or.inr h
    | item hitem hitem' h => exact Or.inl ⟨_, _, _, hitem, hitem', h⟩
  · rintro (⟨index, value, value', hitem, hitem', h⟩ | h)
    · exact Shrinks.item hitem hitem' h
    · exact Shrinks.here h

omit [BEq N] in
theorem arriving_removes (items : List (Json N × Nat)) :
    arriving g (items.map fun (_, idx) => .remove [Nat.toDigits 10 idx])
      = items.map fun (_, idx) => .remove [Nat.toDigits 10 idx] :=
  List.map_map

/-- A list against one that goes on behind it. -/
theorem forall₂_append_map_iff {A B : Type} {R : A → B → Prop} {f : B → A} {as : List A} {bs : List B} :
    List.Forall₂ R (as ++ (bs.drop as.length).map f) bs
      ↔ List.Forall₂ R as (bs.take as.length) ∧ ∀ b ∈ bs.drop as.length, R (f b) b := by
  have hsame : List.Forall₂ R ((bs.drop as.length).map f) (bs.drop as.length)
      ↔ ∀ b ∈ bs.drop as.length, R (f b) b := by
    rw [List.forall₂_map_left_iff, List.forall₂_same]
  rw [← hsame]
  constructor
  · intro h
    have htake := List.forall₂_take as.length h
    have hdrop := List.forall₂_drop as.length h
    rw [List.take_left] at htake
    rw [List.drop_left] at hdrop
    exact ⟨htake, hdrop⟩
  · rintro ⟨htake, hdrop⟩
    have happend := List.rel_append htake hdrop
    dsimp only at happend
    rwa [List.take_append_drop] at happend

theorem patched_object (hg : ∀ value : Json N, value.WellFormed → (g value).WellFormed)
    {originalMap editedMap : List (Str × Json N)}
    (ih : ∀ member ∈ originalMap, ∀ edited : Json N, edited.WellFormed →
      Patched g eq member.2 edited (applyAll (arriving g (patchOf member.2 edited)) member.2))
    (horiginal : Json.WellFormed (.object originalMap))
    (hedited : Json.WellFormed (.object editedMap))
    (hbeq : (Json.object originalMap).beq (.object editedMap) = false) :
    Patched g eq (.object originalMap) (.object editedMap)
      (applyAll (arriving g (patchOf (.object originalMap) (.object editedMap))) (.object originalMap)) := by
  unfold patchOf Patched
  rw [shrinks_object_iff horiginal.keys, if_neg (by simp [hbeq])]
  dsimp only
  rw [arriving_append, applyAll_append]
  rcases applyAll_patchMembers ih horiginal.keys hedited horiginal
    (fun member hmem => Members.lookup_of_mem horiginal.keys hmem) with
    ⟨hshrinks, hnone⟩ | ⟨hnot, after, hafter, hpatched⟩
  · exact ⟨fun _ => by rw [hnone]; rfl, fun hnot => absurd hshrinks hnot⟩
  · refine ⟨fun h => absurd h hnot, fun _ => ?_⟩
    -- the old keys are patched already; what is left is to add the keys that are new
    have hnew : ∀ key, (editedMap.filter fun member => (originalMap.lookup member.1).isNone).lookup key
        = if (originalMap.lookup key).isNone then editedMap.lookup key else none :=
      fun key => Members.lookup_filter (fun key => (originalMap.lookup key).isNone) key editedMap
    have hnewKeys : (Members.Keys (editedMap.filter fun member =>
        (originalMap.lookup member.1).isNone)).Nodup :=
      (List.filter_sublist.map Prod.fst).nodup hedited.keys
    obtain ⟨final, hfinal, hwf, hlookup⟩ := applyAll_adds hnewKeys
      (fun member hmem => hg _ (hedited.members member (List.mem_filter.mp hmem).1)) hpatched.wellFormed
    refine ⟨.object final, by rw [hafter]; exact hfinal, hwf, ?_⟩
    rw [Json.beqBy_object_iff_lookup hwf.keys hedited.keys, arrives_object_iff hedited.keys]
    refine forall_congr' fun key => ?_
    rw [hlookup, hnew]
    cases hvalue : originalMap.lookup key with
    | some value =>
        have hinside := hpatched.inside (key, value) (Members.mem_of_lookup hvalue)
        dsimp only at hinside
        simp only [Option.isNone_some, Bool.false_eq_true, if_false, Option.map_none, Option.none_or]
        generalize after.lookup key = patched, editedMap.lookup key = found at hinside
        cases hinside with
        | none => simp
        | some harrives => simpa using harrives
    | none =>
        rw [hpatched.outside key (Members.lookup_eq_none_iff.mp hvalue), hvalue]
        cases editedMap.lookup key with
        | none => simp
        | some value' => simp

theorem patched_array (hg : ∀ value : Json N, value.WellFormed → (g value).WellFormed)
    {originalItems editedItems : List (Json N)}
    (ih : ∀ item ∈ originalItems, ∀ edited : Json N, edited.WellFormed →
      Patched g eq item edited (applyAll (arriving g (patchOf item edited)) item))
    (hedited : Json.WellFormed (.array editedItems))
    (hbeq : (Json.array originalItems).beq (.array editedItems) = false) :
    Patched g eq (.array originalItems) (.array editedItems)
      (applyAll (arriving g (patchOf (.array originalItems) (.array editedItems))) (.array originalItems)) := by
  unfold patchOf Patched
  rw [shrinks_array_iff, if_neg (by simp [hbeq])]
  dsimp only
  rw [arriving_append, arriving_append, arriving_removes, applyAll_append, applyAll_append, zipIdx_drop, zipIdx_drop,
    Nat.zero_add]
  rcases applyAll_patchItems ih hedited.items [] with
    ⟨hitem, hnone⟩ | ⟨hnot, patched, hpatched, hwf, hlen, hforall⟩
  · rw [List.nil_append, List.length_nil] at hnone
    exact ⟨fun _ => by rw [hnone]; rfl, fun h => absurd (Or.inl hitem) h⟩
  rw [List.nil_append, List.nil_append, List.length_nil] at hpatched
  rw [hpatched, Option.bind_some]
  rw [List.length_zip] at hlen
  by_cases hlong : editedItems.length + 2 ≤ originalItems.length
  · -- two removals or more: the indices run past the end
    refine ⟨fun _ => ?_, fun h => absurd (Or.inr hlong) h⟩
    rw [applyAll_removes_none]
    · rfl
    · intro hnil
      have := List.length_eq_zero_iff.mpr hnil
      rw [List.length_drop] at this
      omega
    · simp only [List.length_append, List.length_drop, hlen]
      omega
  · refine ⟨fun h => absurd h (by simp [hnot, hlong]), fun _ => ?_⟩
    by_cases hone : editedItems.length < originalItems.length
    · -- one removal, at the end of the array
      obtain ⟨last, hlast⟩ : ∃ last, originalItems.drop editedItems.length = [last] :=
        List.length_eq_one_iff.mp (by rw [List.length_drop]; omega)
      have hmin : min originalItems.length editedItems.length = editedItems.length := by omega
      rw [hmin] at hlen ⊢
      rw [hlast, List.zipIdx_singleton, List.map_singleton, applyAll_cons, apply_remove_item,
        if_pos (by simp [hlen]), List.drop_length]
      refine ⟨.array patched, ?_, Json.WellFormed.array hwf, ?_⟩
      · rw [← hlen, List.eraseIdx_append_of_length_le (Nat.le_refl _)]
        simp [arriving]
      · rw [Json.beqBy_array_iff, arrives_array_iff, ← hforall, List.take_of_length_le (by omega),
          List.drop_of_length_le (by omega), and_iff_left (by simp)]
    · -- no removal; the items beyond the original are added at the end
      have hmin : min originalItems.length editedItems.length = originalItems.length := by omega
      rw [hmin] at hlen ⊢
      rw [List.drop_eq_nil_of_le (Nat.le_of_not_lt hone), List.drop_length, List.append_nil,
        List.zipIdx_nil, List.map_nil, applyAll_nil, Option.bind_some, ← hlen, applyAll_adds_items]
      refine ⟨_, rfl, Json.WellFormed.array ?_, ?_⟩
      · intro item hmem
        rcases List.mem_append.mp hmem with hmem | hmem
        · exact hwf item hmem
        · obtain ⟨new, hnew, rfl⟩ := List.mem_map.mp hmem
          exact hg new (hedited.items new (List.mem_of_mem_drop hnew))
      · rw [Json.beqBy_array_iff, arrives_array_iff, ← hforall, ← hlen, forall₂_append_map_iff]

/-- Equal values need no patch. -/
theorem patched_of_beq {original edited : Json N} (horiginal : original.WellFormed) (hedited : edited.WellFormed)
    (hbeq : original.beq edited = true) :
    Patched g eq original edited (applyAll (arriving g (patchOf original edited)) original) := by
  have hpatch : patchOf original edited = [] := by
    unfold patchOf
    rw [if_pos hbeq]
  rw [hpatch]
  refine ⟨fun hshrinks => ?_, fun _ => ⟨original, rfl, horiginal, beqBy_iff_arrives horiginal hedited hbeq⟩⟩
  rw [not_shrinks_of_beq hshrinks] at hbeq
  cases hbeq

/-- Values of which one is no container of the other's kind: the new one takes the place of the old one. -/
theorem patched_of_replace (hg : ∀ value : Json N, value.WellFormed → (g value).WellFormed) {original edited : Json N}
    (hedited : edited.WellFormed)
    (hitems : ∀ items items', ¬ (original = .array items ∧ edited = .array items'))
    (hmembers : ∀ members members', ¬ (original = .object members ∧ edited = .object members'))
    (hbeq : original.beq edited = false) :
    Patched g eq original edited (applyAll (arriving g (patchOf original edited)) original) := by
  have hshrinks : ¬ Shrinks original edited := by
    intro h
    cases h with
    | here h => exact hitems _ _ ⟨rfl, rfl⟩
    | item hitem hitem' h => exact hitems _ _ ⟨rfl, rfl⟩
    | member hmember hmember' h => exact hmembers _ _ ⟨rfl, rfl⟩
  rw [patchOf_replaced hitems hmembers hbeq]
  exact ⟨fun h => absurd h hshrinks,
    fun _ => ⟨g edited, rfl, hg edited hedited, (arrives_replaced_iff hitems hmembers hbeq).symm⟩⟩

/-- A value that is no container is kept or replaced. -/
theorem patched_of_scalar (hg : ∀ value : Json N, value.WellFormed → (g value).WellFormed) {original edited : Json N}
    (horiginal : original.WellFormed) (hedited : edited.WellFormed)
    (harray : ∀ items, original ≠ .array items) (hobject : ∀ members, original ≠ .object members) :
    Patched g eq original edited (applyAll (arriving g (patchOf original edited)) original) := by
  cases hbeq : original.beq edited with
  | true => exact patched_of_beq horiginal hedited hbeq
  | false =>
      exact patched_of_replace hg hedited (fun _ _ h => harray _ h.1) (fun _ _ h => hobject _ h.1) hbeq

/-- **What the patch of a diff does**, exactly: it fails if the original shrinks to the edited value, and if not, it
    yields the edited value where everything arrives. -/
theorem patched_patchOf (hg : ∀ value : Json N, value.WellFormed → (g value).WellFormed) {original edited : Json N}
    (horiginal : original.WellFormed) (hedited : edited.WellFormed) :
    Patched g eq original edited (applyAll (arriving g (patchOf original edited)) original) := by
  induction original using Json.induction generalizing edited with
  | array originalItems ih =>
      have ihItems : ∀ item ∈ originalItems, ∀ edited : Json N, edited.WellFormed →
          Patched g eq item edited (applyAll (arriving g (patchOf item edited)) item) :=
        fun item hmem edited hwf => ih item hmem (horiginal.items item hmem) hwf
      cases hbeq : (Json.array originalItems).beq edited with
      | true => exact patched_of_beq horiginal hedited hbeq
      | false =>
          cases edited with
          | array editedItems => exact patched_array hg ihItems hedited hbeq
          | _ => exact patched_of_replace hg hedited (by simp) (by simp) hbeq
  | object originalMap ih =>
      have ihMembers : ∀ member ∈ originalMap, ∀ edited : Json N, edited.WellFormed →
          Patched g eq member.2 edited (applyAll (arriving g (patchOf member.2 edited)) member.2) :=
        fun member hmem edited hwf => ih member hmem (horiginal.members member hmem) hwf
      cases hbeq : (Json.object originalMap).beq edited with
      | true => exact patched_of_beq horiginal hedited hbeq
      | false =>
          cases edited with
          | object editedMap => exact patched_object hg ihMembers horiginal hedited hbeq
          | _ => exact patched_of_replace hg hedited (by simp) (by simp) hbeq
  | null => exact patched_of_scalar hg horiginal hedited (by simp) (by simp)
  | bool b => exact patched_of_scalar hg horiginal hedited (by simp) (by simp)
  | number n => exact patched_of_scalar hg horiginal hedited (by simp) (by simp)
  | string s => exact patched_of_scalar hg horiginal hedited (by simp) (by simp)

/-! ## A patch that arrives as it was made -/

/-- Where nothing changes on the way, everything arrives. -/
theorem arrives_unchanged (hnumber : ∀ n : N, (n == n) = true) {original edited : Json N}
    (hedited : edited.WellFormed) : Arrives id (· == ·) original edited := by
  constructor
  · intro h
    induction h with
    | number hequal hdrifts => exact Bool.noConfusion (hequal.symm.trans hdrifts)
    | item _ hitem' _ ih => exact ih (hedited.items _ (List.mem_of_getElem? hitem'))
    | member _ hmember' _ ih => exact ih (hedited.lookup hmember')
  · intro h
    obtain ⟨value, hwf, hdrifts⟩ := h.part (fun _ => Json.WellFormed.items) (fun _ => Json.WellFormed.members) hedited
    exact Bool.noConfusion ((Json.beq_refl hnumber hwf).symm.trans hdrifts)

/-- **What the patch of a diff does** to the original: it fails if the original shrinks to the edited value, and yields
    the edited value if not. -/
theorem applyAll_patchOf (hnumber : ∀ n : N, (n == n) = true) {original edited : Json N}
    (horiginal : original.WellFormed) (hedited : edited.WellFormed) :
    (Shrinks original edited → applyAll (patchOf original edited) original = none)
      ∧ (¬ Shrinks original edited → ∃ value, applyAll (patchOf original edited) original = some value
        ∧ value.WellFormed ∧ value.beq edited = true) := by
  have hpatched := @patched_patchOf N _ id (· == ·) (fun _ h => h) original edited horiginal hedited
  have harriving : arriving id (patchOf original edited) = patchOf original edited :=
    (List.map_congr_left fun operation _ => operation.mapValue_eq_self fun _ _ => rfl).trans (List.map_id _)
  rw [harriving] at hpatched
  refine ⟨hpatched.1, fun hnot => ?_⟩
  obtain ⟨value, happly, hwf, harrives⟩ := hpatched.2 hnot
  exact ⟨value, happly, hwf, harrives.mpr (arrives_unchanged hnumber hedited)⟩

/-- There is no patch exactly between equal values. -/
theorem patchOf_eq_nil_iff (hnumber : ∀ n : N, (n == n) = true) {original edited : Json N}
    (horiginal : original.WellFormed) (hedited : edited.WellFormed) :
    patchOf original edited = [] ↔ original.beq edited = true := by
  constructor
  · intro hnil
    obtain ⟨hfails, hyields⟩ := applyAll_patchOf hnumber horiginal hedited
    rw [hnil] at hfails hyields
    by_cases hshrinks : Shrinks original edited
    · cases hfails hshrinks
    · obtain ⟨value, hsome, -, hbeq⟩ := hyields hshrinks
      cases hsome
      exact hbeq
  · intro hbeq
    unfold patchOf
    rw [if_pos hbeq]

end Inspect.Filters
