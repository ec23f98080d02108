import Inspect.Lib.Text
import Mathlib.Tactic

/-!
# `Lib.Json.Value` — JSON values

A value with numbers of any type `N`. An object is the list of its members in iteration order; its keys are
unique (`WellFormed`), and two objects are equal when they have the same members in whatever order
(`Json.beq`).

Members are handled by lookup alone: `insert` and `erase` are given by what they do to every lookup, and two
objects with related lookups are compared by `beq_object`, which needs nothing else.
-/

namespace Inspect

/-! ## Members of an object -/

namespace Members

variable {V : Type}

/-- The members of an object: keys with values. -/
abbrev Keys (members : List (Str × V)) : List Str := members.map Prod.fst

theorem keys_cons_nodup {key : Str} {value : V} {members : List (Str × V)} :
    (Keys ((key, value) :: members)).Nodup ↔ key ∉ Keys members ∧ (Keys members).Nodup :=
  List.nodup_cons

/-- Set the value of `key`: in place if the key is there, at the end if not. -/
@[grind =]
def insert (key : Str) (value : V) : List (Str × V) → List (Str × V)
  | [] => [(key, value)]
  | (key', value') :: members =>
      if key = key' then (key, value) :: members else (key', value') :: insert key value members

/-- Remove `key`. -/
@[grind =]
def erase (key : Str) : List (Str × V) → List (Str × V)
  | [] => []
  | (key', value') :: members =>
      if key = key' then members else (key', value') :: erase key members

theorem lookup_cons_eq (key key' : Str) (value : V) (members : List (Str × V)) :
    ((key', value) :: members).lookup key = if key = key' then some value else members.lookup key := by
  rw [List.lookup_cons]
  by_cases h : key = key'
  · simp [h]
  · have hbeq : (key == key') = false := by simpa using h
    simp [h, hbeq]

theorem lookup_eq_none_iff {key : Str} {members : List (Str × V)} :
    members.lookup key = none ↔ key ∉ Keys members := by
  induction members with
  | nil => simp
  | cons member members ih =>
      obtain ⟨key', value⟩ := member
      rw [lookup_cons_eq]
      by_cases h : key = key'
      · simp [h]
      · simp [h, ih]

theorem mem_keys_iff {key : Str} {members : List (Str × V)} :
    key ∈ Keys members ↔ ∃ value, members.lookup key = some value := by
  rw [← not_iff_not, ← lookup_eq_none_iff]
  cases members.lookup key with
  | none => simp
  | some value => simp

theorem mem_of_lookup {key : Str} {value : V} {members : List (Str × V)}
    (h : members.lookup key = some value) : (key, value) ∈ members := by
  induction members with
  | nil => cases h
  | cons member members ih =>
      obtain ⟨key', value'⟩ := member
      rw [lookup_cons_eq] at h
      split at h
      · rename_i heq
        cases h
        rw [heq]
        exact List.mem_cons_self
      · exact List.mem_cons_of_mem _ (ih h)

/-- With unique keys, lookup finds every member. -/
theorem lookup_of_mem {key : Str} {value : V} {members : List (Str × V)}
    (hkeys : (Keys members).Nodup) (h : (key, value) ∈ members) :
    members.lookup key = some value := by
  induction members with
  | nil => cases h
  | cons member members ih =>
      obtain ⟨key', value'⟩ := member
      rw [keys_cons_nodup] at hkeys
      rw [lookup_cons_eq]
      rcases List.mem_cons.mp h with heq | hmem
      · cases heq
        simp
      · have hne : key ≠ key' := by
          rintro rfl
          exact hkeys.1 (List.mem_map_of_mem hmem)
        rw [if_neg hne]
        exact ih hkeys.2 hmem

theorem lookup_insert (key key' : Str) (value : V) (members : List (Str × V)) :
    (insert key value members).lookup key' = if key' = key then some value else members.lookup key' := by
  induction members with
  | nil => rw [insert, lookup_cons_eq]
  | cons member members ih =>
      obtain ⟨key₁, value₁⟩ := member
      unfold insert
      split
      · rename_i heq
        subst heq
        rw [lookup_cons_eq, lookup_cons_eq]
        split <;> rfl
      · rename_i hne
        rw [lookup_cons_eq, lookup_cons_eq, ih]
        by_cases h : key' = key₁
        · subst h
          rw [if_pos rfl, if_neg (Ne.symm hne), if_pos rfl]
        · rw [if_neg h, if_neg h]

/-- The later of two values set under one key stays. -/
theorem insert_insert (key : Str) (value value' : V) (members : List (Str × V)) :
    insert key value' (insert key value members) = insert key value' members := by
  induction members with
  | nil => simp [insert]
  | cons member members ih =>
      obtain ⟨key₁, value₁⟩ := member
      by_cases h : key = key₁
      · simp [insert, h]
      · simp [insert, h, ih]

/-- Setting the value that is there changes nothing. -/
theorem insert_of_lookup {key : Str} {value : V} {members : List (Str × V)}
    (h : members.lookup key = some value) : insert key value members = members := by
  induction members with
  | nil => cases h
  | cons member members ih =>
      obtain ⟨key₁, value₁⟩ := member
      rw [lookup_cons_eq] at h
      unfold insert
      by_cases heq : key = key₁
      · rw [if_pos heq] at h ⊢
        cases h
        rw [heq]
      · rw [if_neg heq] at h ⊢
        rw [ih h]

theorem lookup_erase {members : List (Str × V)} (hkeys : (Keys members).Nodup) (key key' : Str) :
    (erase key members).lookup key' = if key' = key then none else members.lookup key' := by
  induction members with
  | nil => simp [erase]
  | cons member members ih =>
      obtain ⟨key₁, value₁⟩ := member
      rw [keys_cons_nodup] at hkeys
      unfold erase
      split
      · rename_i heq
        subst heq
        rw [lookup_cons_eq]
        by_cases h : key' = key
        · subst h
          rw [if_pos rfl]
          exact lookup_eq_none_iff.mpr hkeys.1
        · rw [if_neg h, if_neg h]
      · rename_i hne
        rw [lookup_cons_eq, lookup_cons_eq, ih hkeys.2]
        by_cases h : key' = key₁
        · subst h
          rw [if_pos rfl, if_neg (Ne.symm hne), if_pos rfl]
        · rw [if_neg h, if_neg h]

theorem keys_insert_nodup {members : List (Str × V)} (hkeys : (Keys members).Nodup) (key : Str)
    (value : V) : (Keys (insert key value members)).Nodup := by
  induction members with
  | nil => simp [insert]
  | cons member members ih =>
      obtain ⟨key₁, value₁⟩ := member
      rw [keys_cons_nodup] at hkeys
      unfold insert
      split
      · rename_i heq
        subst heq
        rw [keys_cons_nodup]
        exact hkeys
      · rename_i hne
        rw [keys_cons_nodup]
        refine ⟨?_, ih hkeys.2⟩
        rw [← lookup_eq_none_iff, lookup_insert, if_neg (Ne.symm hne), lookup_eq_none_iff]
        exact hkeys.1

theorem keys_erase_nodup {members : List (Str × V)} (hkeys : (Keys members).Nodup) (key : Str) :
    (Keys (erase key members)).Nodup := by
  have hsub : (erase key members).Sublist members := by
    clear hkeys
    induction members with
    | nil => exact List.Sublist.refl _
    | cons member members ih =>
        obtain ⟨key₁, value₁⟩ := member
        unfold erase
        split
        · exact List.sublist_cons_self _ _
        · exact ih.cons_cons _
  exact (hsub.map Prod.fst).nodup hkeys

/-- Members picked by their key. -/
theorem lookup_filter (p : Str → Bool) (key : Str) (members : List (Str × V)) :
    (members.filter fun member => p member.1).lookup key = if p key then members.lookup key else none := by
  induction members with
  | nil => simp
  | cons member members ih =>
      obtain ⟨key₁, value₁⟩ := member
      rw [List.filter_cons, lookup_cons_eq]
      by_cases hp : p key₁ = true
      · rw [if_pos hp, lookup_cons_eq, ih]
        by_cases h : key = key₁
        · rw [if_pos h, if_pos h, h, if_pos hp]
        · rw [if_neg h, if_neg h]
      · rw [if_neg hp, ih]
        by_cases h : key = key₁
        · rw [h, if_neg hp, if_neg hp]
        · rw [if_neg h]

/-- Two lists of members with unique keys and the same keys are of one length. -/
theorem length_eq_of_keys {W : Type} {members : List (Str × V)} {members' : List (Str × W)}
    (hkeys : (Keys members).Nodup) (hkeys' : (Keys members').Nodup)
    (h : ∀ key, key ∈ Keys members ↔ key ∈ Keys members') : members.length = members'.length := by
  have hperm : (Keys members).Perm (Keys members') :=
    (List.perm_ext_iff_of_nodup hkeys hkeys').mpr h
  simpa using hperm.length_eq

end Members

/-! ## Values -/

/-- A JSON value with numbers in `N`. -/
inductive Json (N : Type)
  | null
  | bool (value : Bool)
  | number (value : N)
  | string (value : Str)
  | array (items : List (Json N))
  | object (members : List (Str × Json N))

namespace Json

variable {N : Type}

/-- Induction over a value: the items and the members of a container come first. -/
@[elab_as_elim]
theorem induction {motive : Json N → Prop} (null : motive .null) (bool : ∀ b, motive (.bool b))
    (number : ∀ n, motive (.number n)) (string : ∀ s, motive (.string s))
    (array : ∀ items, (∀ item ∈ items, motive item) → motive (.array items))
    (object : ∀ members, (∀ member ∈ members, motive member.2) → motive (.object members)) :
    ∀ value, motive value
  | .null => null
  | .bool b => bool b
  | .number n => number n
  | .string s => string s
  | .array items => array items fun item _ =>
      induction null bool number string array object item
  | .object members => object members fun member _ =>
      induction null bool number string array object member.2
termination_by value => sizeOf value
decreasing_by
  · rename_i hmem
    have h := List.sizeOf_lt_of_mem hmem
    simp only [Json.array.sizeOf_spec]
    omega
  · rename_i hmem
    have h := List.sizeOf_lt_of_mem hmem
    have hpair : sizeOf member = 1 + sizeOf member.1 + sizeOf member.2 := by
      cases member; rfl
    simp only [Json.object.sizeOf_spec]
    omega

/-- Every object in the value has unique keys. -/
inductive WellFormed : Json N → Prop
  | null : WellFormed .null
  | bool (b : Bool) : WellFormed (.bool b)
  | number (n : N) : WellFormed (.number n)
  | string (s : Str) : WellFormed (.string s)
  | array {items : List (Json N)} : (∀ item ∈ items, WellFormed item) → WellFormed (.array items)
  | object {members : List (Str × Json N)} : (Members.Keys members).Nodup →
      (∀ member ∈ members, WellFormed member.2) → WellFormed (.object members)

theorem WellFormed.items {items : List (Json N)} (h : WellFormed (.array items)) :
    ∀ item ∈ items, WellFormed item := by
  cases h with
  | array h => exact h

theorem WellFormed.keys {members : List (Str × Json N)} (h : WellFormed (.object members)) :
    (Members.Keys members).Nodup := by
  cases h with
  | object h _ => exact h

theorem WellFormed.members {members : List (Str × Json N)} (h : WellFormed (.object members)) :
    ∀ member ∈ members, WellFormed member.2 := by
  cases h with
  | object _ h => exact h

theorem WellFormed.lookup {members : List (Str × Json N)} (h : WellFormed (.object members))
    {key : Str} {value : Json N} (hlookup : members.lookup key = some value) : WellFormed value :=
  h.members _ (Members.mem_of_lookup hlookup)

/-- Unique keys and well-formed values under them make a well-formed object. -/
theorem wellFormed_object {members : List (Str × Json N)} (hkeys : (Members.Keys members).Nodup)
    (h : ∀ key value, members.lookup key = some value → WellFormed value) :
    WellFormed (.object members) := by
  refine WellFormed.object hkeys ?_
  rintro ⟨key, value⟩ hmem
  exact h key value (Members.lookup_of_mem hkeys hmem)

theorem WellFormed.insert {members : List (Str × Json N)} (h : WellFormed (.object members))
    (key : Str) {value : Json N} (hvalue : WellFormed value) :
    WellFormed (.object (Members.insert key value members)) := by
  apply wellFormed_object (Members.keys_insert_nodup h.keys key value)
  intro key' value' hlookup
  rw [Members.lookup_insert] at hlookup
  split at hlookup
  · cases hlookup; exact hvalue
  · exact h.lookup hlookup

theorem WellFormed.erase {members : List (Str × Json N)} (h : WellFormed (.object members))
    (key : Str) : WellFormed (.object (Members.erase key members)) := by
  apply wellFormed_object (Members.keys_erase_nodup h.keys key)
  intro key' value' hlookup
  rw [Members.lookup_erase h.keys] at hlookup
  split at hlookup
  · cases hlookup
  · exact h.lookup hlookup

/-! ## Equality

Arrays are compared item by item, objects as maps: as many members on both sides, and every member of the
one found in the other. -/

section Equality

variable [BEq N]

mutual

/-- `==` on values. -/
def beq : Json N → Json N → Bool
  | .null, .null => true
  | .bool a, .bool b => a == b
  | .number a, .number b => a == b
  | .string a, .string b => a == b
  | .array items, .array items' => beqItems items items'
  | .object members, .object members' =>
      members.length == members'.length && beqMembers members members'
  | _, _ => false

def beqItems : List (Json N) → List (Json N) → Bool
  | [], [] => true
  | item :: items, item' :: items' => beq item item' && beqItems items items'
  | _, _ => false

def beqMembers : List (Str × Json N) → List (Str × Json N) → Bool
  | [], _ => true
  | (key, value) :: members, members' =>
      (match members'.lookup key with
        | some value' => beq value value'
        | none => false) && beqMembers members members'

end

attribute [grind =] beq beqItems beqMembers

theorem beqItems_iff {items items' : List (Json N)} :
    beqItems items items' = true ↔ List.Forall₂ (fun item item' => beq item item' = true) items items' := by
  induction items generalizing items' with
  | nil => cases items' <;> simp [beqItems]
  | cons item items ih =>
      cases items' with
      | nil => simp [beqItems]
      | cons item' items' => simp [beqItems, ih]

theorem beqMembers_iff {members members' : List (Str × Json N)} :
    beqMembers members members' = true ↔ ∀ key value, (key, value) ∈ members →
      ∃ value', members'.lookup key = some value' ∧ beq value value' = true := by
  induction members with
  | nil => simp [beqMembers]
  | cons member members ih =>
      obtain ⟨key, value⟩ := member
      rw [beqMembers, Bool.and_eq_true, ih]
      constructor
      · rintro ⟨hhead, htail⟩ key' value' hmem
        rcases List.mem_cons.mp hmem with heq | hmem
        · cases heq
          cases hlookup : members'.lookup key with
          | none => simp [hlookup] at hhead
          | some value' => exact ⟨value', rfl, by simpa [hlookup] using hhead⟩
        · exact htail key' value' hmem
      · intro h
        refine ⟨?_, fun key' value' hmem => h key' value' (List.mem_cons_of_mem _ hmem)⟩
        obtain ⟨value', hlookup, hbeq⟩ := h key value List.mem_cons_self
        simpa [hlookup] using hbeq

/-- Equal arrays have as many items. -/
theorem beq_array_length {items items' : List (Json N)}
    (hbeq : beq (.array items) (.array items') = true) : items.length = items'.length := by
  rw [beq, beqItems_iff] at hbeq
  exact hbeq.length_eq

/-- Equal arrays have equal items. -/
theorem beq_array_item {items items' : List (Json N)} {index : Nat} {item item' : Json N}
    (hbeq : beq (.array items) (.array items') = true) (hitem : items[index]? = some item)
    (hitem' : items'[index]? = some item') : beq item item' = true := by
  rw [beq, beqItems_iff] at hbeq
  obtain ⟨hlt, rfl⟩ := List.getElem?_eq_some_iff.mp hitem
  obtain ⟨hlt', rfl⟩ := List.getElem?_eq_some_iff.mp hitem'
  exact hbeq.get hlt hlt'

/-- Equal objects have equal members. -/
theorem beq_object_member {members members' : List (Str × Json N)} {key : Str} {value : Json N}
    (hbeq : beq (.object members) (.object members') = true) (hlookup : members.lookup key = some value) :
    ∃ value', members'.lookup key = some value' ∧ beq value value' = true := by
  rw [beq, Bool.and_eq_true, beqMembers_iff] at hbeq
  exact hbeq.2 key value (Members.mem_of_lookup hlookup)

/-- Equal objects have the same keys. -/
theorem beq_object_key {members members' : List (Str × Json N)} {key : Str}
    (hbeq : beq (.object members) (.object members') = true) (hkeys : (Members.Keys members).Nodup)
    (hnone : members.lookup key = none) : members'.lookup key = none := by
  have hsub : Members.Keys members ⊆ Members.Keys members' := by
    intro key hmem
    obtain ⟨value, hvalue⟩ := Members.mem_keys_iff.mp hmem
    obtain ⟨value', hvalue', -⟩ := beq_object_member hbeq hvalue
    exact Members.mem_keys_iff.mpr ⟨value', hvalue'⟩
  rw [beq, Bool.and_eq_true, beq_iff_eq] at hbeq
  rw [Members.lookup_eq_none_iff] at hnone ⊢
  -- one more key than the other side has room for
  intro hmem
  have hnodup : (key :: Members.Keys members).Nodup := List.nodup_cons.mpr ⟨hnone, hkeys⟩
  have hlength := (List.subperm_of_subset hnodup (List.cons_subset.mpr ⟨hmem, hsub⟩)).length_le
  simp only [List.length_cons, Members.Keys, List.length_map] at hlength
  omega

/-- **Objects are compared by lookup.** -/
theorem beq_object {members members' : List (Str × Json N)}
    (hkeys : (Members.Keys members).Nodup) (hkeys' : (Members.Keys members').Nodup)
    (h : ∀ key, Option.Rel (fun value value' => beq value value' = true)
      (members.lookup key) (members'.lookup key)) :
    beq (.object members) (.object members') = true := by
  rw [beq, Bool.and_eq_true, beq_iff_eq, beqMembers_iff]
  constructor
  · apply Members.length_eq_of_keys hkeys hkeys'
    intro key
    rw [Members.mem_keys_iff, Members.mem_keys_iff]
    have hrel := h key
    generalize members.lookup key = found, members'.lookup key = found' at hrel
    cases hrel with
    | none => simp
    | some hbeq => simp
  · intro key value hmem
    have hrel := h key
    rw [Members.lookup_of_mem hkeys hmem] at hrel
    cases hlookup' : members'.lookup key with
    | none => rw [hlookup'] at hrel; cases hrel
    | some value' =>
        rw [hlookup'] at hrel
        cases hrel with
        | some hbeq => exact ⟨value', rfl, hbeq⟩

theorem beq_refl (hnumber : ∀ n : N, (n == n) = true) {value : Json N} (h : WellFormed value) :
    beq value value = true := by
  induction value using Json.induction with
  | null => rfl
  | bool b => simp [beq]
  | number n => simpa [beq] using hnumber n
  | string s => simp [beq]
  | array items ih =>
      rw [beq, beqItems_iff]
      exact List.forall₂_same.mpr fun item hmem => ih item hmem (h.items item hmem)
  | object members ih =>
      apply beq_object h.keys h.keys
      intro key
      cases hlookup : members.lookup key with
      | none => exact Option.Rel.none
      | some value =>
          have hmem := Members.mem_of_lookup hlookup
          exact Option.Rel.some (ih _ hmem (h.members _ hmem))

end Equality

/-! ## Nesting -/

mutual

/-- How many arrays and objects lie in one another, this one included. -/
def depth : Json N → Nat
  | .array items => depthItems items + 1
  | .object members => depthMembers members + 1
  | _ => 0

def depthItems : List (Json N) → Nat
  | [] => 0
  | item :: items => max (depth item) (depthItems items)

def depthMembers : List (Str × Json N) → Nat
  | [] => 0
  | (_, value) :: members => max (depth value) (depthMembers members)

end

attribute [grind =] depth depthItems depthMembers

theorem depth_array_le_iff {items : List (Json N)} {limit : Nat} :
    depth (.array items) ≤ limit + 1 ↔ ∀ item ∈ items, depth item ≤ limit := by
  rw [depth, Nat.add_le_add_iff_right]
  induction items with
  | nil => simp [depthItems]
  | cons item items ih => rw [depthItems, max_le_iff, ih, List.forall_mem_cons]

theorem depth_object_le_iff {members : List (Str × Json N)} {limit : Nat} :
    depth (.object members) ≤ limit + 1 ↔ ∀ member ∈ members, depth member.2 ≤ limit := by
  rw [depth, Nat.add_le_add_iff_right]
  induction members with
  | nil => simp [depthMembers]
  | cons member members ih => rw [depthMembers, max_le_iff, ih, List.forall_mem_cons]

theorem depth_item_lt {items : List (Json N)} {item : Json N} (h : item ∈ items) :
    depth item < depth (.array items) :=
  Nat.lt_succ_of_le (depth_array_le_iff.mp (Nat.le_refl _) item h)

theorem depth_member_lt {members : List (Str × Json N)} {member : Str × Json N} (h : member ∈ members) :
    depth member.2 < depth (.object members) :=
  Nat.lt_succ_of_le (depth_object_le_iff.mp (Nat.le_refl _) member h)

/-- Equal values are nested alike. -/
theorem depth_le_of_beq [BEq N] {value value' : Json N} (h : beq value value' = true) : depth value ≤ depth value' := by
  induction value using Json.induction generalizing value' with
  | array items ih =>
      cases value' with
      | array items' =>
          refine depth_array_le_iff.mpr fun item hmem => ?_
          obtain ⟨index, hitem⟩ := List.mem_iff_getElem?.mp hmem
          have hlt : index < items'.length := beq_array_length h ▸ (List.getElem?_eq_some_iff.mp hitem).1
          have hitem' := List.getElem?_eq_getElem hlt
          have hle := ih item hmem (beq_array_item h hitem hitem')
          exact Nat.le_of_lt_succ ((Nat.lt_succ_of_le hle).trans_le (depth_item_lt (List.mem_of_getElem? hitem')))
      | _ => simp [beq] at h
  | object members ih =>
      cases value' with
      | object members' =>
          refine depth_object_le_iff.mpr fun member hmem => ?_
          have hmembers := h
          rw [beq, Bool.and_eq_true, beqMembers_iff] at hmembers
          obtain ⟨value', hlookup, hbeq⟩ := hmembers.2 member.1 member.2 hmem
          have hlt := depth_member_lt (Members.mem_of_lookup hlookup)
          exact Nat.le_of_lt_succ ((Nat.lt_succ_of_le (ih member hmem hbeq)).trans_le hlt)
      | _ => simp [beq] at h
  | null => exact Nat.zero_le _
  | bool b => exact Nat.zero_le _
  | number n => exact Nat.zero_le _
  | string s => exact Nat.zero_le _

end Json
end Inspect
