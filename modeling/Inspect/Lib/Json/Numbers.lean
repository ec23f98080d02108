import Inspect.Lib.Json.Value
import Inspect.Lib.Sorting

/-!
# `Lib.Json.Numbers` — the numbers in a JSON value

What is printed and read again differs from what it was in its numbers at most: `mapNumbers` is a value with every
number replaced, or nothing where a number has no replacement. `beq_mapNumbers_iff` says that comparing the result
is comparing the value itself, with the numbers compared after the replacement.
-/

namespace Inspect.Json

variable {N : Type}

mutual

/-- The numbers in a value. -/
def numbers : Json N → List N
  | .null | .bool _ | .string _ => []
  | .number n => [n]
  | .array items => numbersItems items
  | .object members => numbersMembers members

def numbersItems : List (Json N) → List N
  | [] => []
  | item :: items => numbers item ++ numbersItems items

def numbersMembers : List (Str × Json N) → List N
  | [] => []
  | (_, value) :: members => numbers value ++ numbersMembers members

end

mutual

/-- The value with every number replaced. -/
def mapNumbers (f : N → Option N) : Json N → Option (Json N)
  | .null => some .null
  | .bool b => some (.bool b)
  | .string s => some (.string s)
  | .number n => (f n).map .number
  | .array items => (mapNumbersItems f items).map .array
  | .object members => (mapNumbersMembers f members).map .object

def mapNumbersItems (f : N → Option N) : List (Json N) → Option (List (Json N))
  | [] => some []
  | item :: items => (mapNumbers f item).bind fun item => (mapNumbersItems f items).map (item :: ·)

def mapNumbersMembers (f : N → Option N) : List (Str × Json N) → Option (List (Str × Json N))
  | [] => some []
  | (key, value) :: members =>
      (mapNumbers f value).bind fun value => (mapNumbersMembers f members).map ((key, value) :: ·)

end

attribute [grind =] numbers numbersItems numbersMembers mapNumbers mapNumbersItems mapNumbersMembers

/-- Equality of values up to another comparison of their numbers. -/
def beqBy (eq : N → N → Bool) (value value' : Json N) : Bool := @beq N ⟨eq⟩ value value'

/-! ## Which numbers -/

theorem mem_numbersItems {items : List (Json N)} {n : N} :
    n ∈ numbersItems items ↔ ∃ item ∈ items, n ∈ numbers item := by
  induction items with
  | nil => simp [numbersItems]
  | cons item items ih => rw [numbersItems, List.mem_append, ih, List.exists_mem_cons_iff]

theorem mem_numbersMembers {members : List (Str × Json N)} {n : N} :
    n ∈ numbersMembers members ↔ ∃ member ∈ members, n ∈ numbers member.2 := by
  induction members with
  | nil => simp [numbersMembers]
  | cons member members ih => rw [numbersMembers, List.mem_append, ih, List.exists_mem_cons_iff]

/-- Only the numbers decide whether there is a replacement. -/
theorem isSome_mapNumbers_iff {f : N → Option N} {value : Json N} :
    (value.mapNumbers f).isSome ↔ ∀ n ∈ value.numbers, (f n).isSome := by
  induction value using Json.induction with
  | null | bool | string => simp [mapNumbers, numbers]
  | number n => simp [mapNumbers, numbers]
  | array items ih =>
      rw [mapNumbers, numbers, Option.isSome_map]
      induction items with
      | nil => simp [mapNumbersItems, numbersItems]
      | cons item items ihItems =>
          have hrest := ihItems fun item hmem => ih item (List.mem_cons_of_mem _ hmem)
          rw [numbersItems, List.forall_mem_append, ← ih item List.mem_cons_self, ← hrest, mapNumbersItems]
          cases item.mapNumbers f with
          | none => simp
          | some item => simp
  | object members ih =>
      rw [mapNumbers, numbers, Option.isSome_map]
      induction members with
      | nil => simp [mapNumbersMembers, numbersMembers]
      | cons member members ihMembers =>
          have hrest := ihMembers fun member hmem => ih member (List.mem_cons_of_mem _ hmem)
          rw [numbersMembers, List.forall_mem_append, ← ih member List.mem_cons_self, ← hrest, mapNumbersMembers]
          cases member.2.mapNumbers f with
          | none => simp
          | some value => simp

/-! ## Replacing -/

/-- A replacement of the items is one of each item. -/
theorem mapNumbersItems_eq_some_iff {f : N → Option N} {items items' : List (Json N)} :
    mapNumbersItems f items = some items'
      ↔ List.Forall₂ (fun item item' => item.mapNumbers f = some item') items items' := by
  induction items generalizing items' with
  | nil => rw [mapNumbersItems, List.forall₂_nil_left_iff, Option.some.injEq, eq_comm]
  | cons item items ih =>
      rw [mapNumbersItems, List.forall₂_cons_left_iff]
      simp only [Option.bind_eq_some_iff, Option.map_eq_some_iff, ih]
      constructor
      · rintro ⟨item', hitem, rest, hrest, rfl⟩
        exact ⟨item', rest, hitem, hrest, rfl⟩
      · rintro ⟨item', rest, hitem, hrest, rfl⟩
        exact ⟨item', hitem, rest, hrest, rfl⟩

theorem mapNumbersMembers_eq_some_iff {f : N → Option N} {members members' : List (Str × Json N)} :
    mapNumbersMembers f members = some members'
      ↔ List.Forall₂ (fun member member' => member.1 = member'.1 ∧ member.2.mapNumbers f = some member'.2)
          members members' := by
  induction members generalizing members' with
  | nil => rw [mapNumbersMembers, List.forall₂_nil_left_iff, Option.some.injEq, eq_comm]
  | cons member members ih =>
      rw [mapNumbersMembers, List.forall₂_cons_left_iff]
      simp only [Option.bind_eq_some_iff, Option.map_eq_some_iff, ih]
      constructor
      · rintro ⟨value', hvalue, rest, hrest, rfl⟩
        exact ⟨(member.1, value'), rest, ⟨rfl, hvalue⟩, hrest, rfl⟩
      · rintro ⟨⟨key, value'⟩, rest, ⟨rfl, hvalue⟩, hrest, rfl⟩
        exact ⟨value', hvalue, rest, hrest, rfl⟩

theorem keys_mapNumbersMembers {f : N → Option N} {members members' : List (Str × Json N)}
    (h : mapNumbersMembers f members = some members') : Members.Keys members' = Members.Keys members := by
  have hforall := mapNumbersMembers_eq_some_iff.mp h
  induction hforall with
  | nil => rfl
  | cons hmember hforall ih =>
      exact congrArg₂ List.cons hmember.1.symm (ih (mapNumbersMembers_eq_some_iff.mpr hforall))

theorem wellFormed_mapNumbers {f : N → Option N} {value value' : Json N} (hwf : value.WellFormed)
    (h : value.mapNumbers f = some value') : value'.WellFormed := by
  induction value using Json.induction generalizing value' with
  | null | bool | string => cases h; exact hwf
  | number n =>
      obtain ⟨m, -, rfl⟩ := Option.map_eq_some_iff.mp h
      exact .number m
  | array items ih =>
      obtain ⟨items', hitems, rfl⟩ := Option.map_eq_some_iff.mp h
      refine .array fun item' hmem' => ?_
      obtain ⟨item, hmem, hitem⟩ := Sorting.exists_of_mem_forall₂ (mapNumbersItems_eq_some_iff.mp hitems) hmem'
      exact ih item hmem (hwf.items item hmem) hitem
  | object members ih =>
      obtain ⟨members', hmembers, rfl⟩ := Option.map_eq_some_iff.mp h
      refine .object (keys_mapNumbersMembers hmembers ▸ hwf.keys) fun member' hmem' => ?_
      obtain ⟨member, hmem, -, hvalue⟩ := Sorting.exists_of_mem_forall₂ (mapNumbersMembers_eq_some_iff.mp hmembers) hmem'
      exact ih member hmem (hwf.members member hmem) hvalue

/-- The items are mapped one by one. -/
theorem mapNumbersItems_eq_mapM (f : N → Option N) (items : List (Json N)) :
    mapNumbersItems f items = items.mapM (mapNumbers f) := by
  induction items with
  | nil => rfl
  | cons item items ih =>
      rw [mapNumbersItems, List.mapM_cons, ih]
      cases item.mapNumbers f <;> simp [Option.map_eq_bind]

/-- Where every number is kept, the value is. -/
theorem mapNumbers_eq_self {f : N → Option N} {value : Json N} (h : ∀ n ∈ value.numbers, f n = some n) :
    value.mapNumbers f = some value := by
  induction value using Json.induction with
  | null | bool | string => rfl
  | number n => rw [mapNumbers, h n (List.mem_singleton_self n), Option.map_some]
  | array items ih =>
      have hitems : mapNumbersItems f items = some items :=
        mapNumbersItems_eq_some_iff.mpr (List.forall₂_same.mpr fun item hmem =>
          ih item hmem fun n hn => h n (mem_numbersItems.mpr ⟨item, hmem, hn⟩))
      rw [mapNumbers, hitems, Option.map_some]
  | object members ih =>
      have hmembers : mapNumbersMembers f members = some members :=
        mapNumbersMembers_eq_some_iff.mpr (List.forall₂_same.mpr fun member hmem =>
          ⟨rfl, ih member hmem fun n hn => h n (mem_numbersMembers.mpr ⟨member, hmem, hn⟩)⟩)
      rw [mapNumbers, hmembers, Option.map_some]

/-- Replacing twice is replacing once. -/
theorem mapNumbers_bind (f g : N → Option N) (value : Json N) :
    (value.mapNumbers f).bind (mapNumbers g) = value.mapNumbers fun n => (f n).bind g := by
  induction value using Json.induction with
  | null | bool | string => rfl
  | number n => cases hf : f n <;> simp [mapNumbers, hf]
  | array items ih =>
      have hitems : (mapNumbersItems f items).bind (mapNumbersItems g)
          = mapNumbersItems (fun n => (f n).bind g) items := by
        induction items with
        | nil => rfl
        | cons item items ihItems =>
            have hrest := ihItems fun item hmem => ih item (List.mem_cons_of_mem _ hmem)
            rw [mapNumbersItems, mapNumbersItems, ← hrest, ← ih item List.mem_cons_self]
            cases item.mapNumbers f with
            | none => rfl
            | some item =>
                cases mapNumbersItems f items with
                | none => cases hitem : item.mapNumbers g <;> simp [hitem]
                | some items => rfl
      rw [mapNumbers, mapNumbers, ← hitems]
      cases mapNumbersItems f items <;> rfl
  | object members ih =>
      have hmembers : (mapNumbersMembers f members).bind (mapNumbersMembers g)
          = mapNumbersMembers (fun n => (f n).bind g) members := by
        induction members with
        | nil => rfl
        | cons member members ihMembers =>
            have hrest := ihMembers fun member hmem => ih member (List.mem_cons_of_mem _ hmem)
            rw [mapNumbersMembers, mapNumbersMembers, ← hrest, ← ih member List.mem_cons_self]
            cases member.2.mapNumbers f with
            | none => rfl
            | some value =>
                cases mapNumbersMembers f members with
                | none => cases hvalue : value.mapNumbers g <;> simp [hvalue]
                | some members => rfl
      rw [mapNumbers, mapNumbers, ← hmembers]
      cases mapNumbersMembers f members <;> rfl

/-- Replacing numbers does not change how deep a value is nested. -/
theorem depth_mapNumbers {f : N → Option N} {value value' : Json N} (h : value.mapNumbers f = some value') :
    value'.depth = value.depth := by
  induction value using Json.induction generalizing value' with
  | null | bool | string => cases h; rfl
  | number n =>
      obtain ⟨m, -, rfl⟩ := Option.map_eq_some_iff.mp h
      rfl
  | array items ih =>
      obtain ⟨items', hitems, rfl⟩ := Option.map_eq_some_iff.mp h
      have hforall := mapNumbersItems_eq_some_iff.mp hitems
      rw [depth, depth]
      congr 1
      clear h hitems
      induction hforall with
      | nil => rfl
      | cons hitem _ ihItems =>
          rw [depthItems, depthItems, ih _ List.mem_cons_self hitem,
            ihItems fun item hmem => ih item (List.mem_cons_of_mem _ hmem)]
  | object members ih =>
      obtain ⟨members', hmembers, rfl⟩ := Option.map_eq_some_iff.mp h
      have hforall := mapNumbersMembers_eq_some_iff.mp hmembers
      rw [depth, depth]
      congr 1
      clear h hmembers
      induction hforall with
      | nil => rfl
      | cons hmember _ ihMembers =>
          rw [depthMembers, depthMembers, ih _ List.mem_cons_self hmember.2,
            ihMembers fun member hmem => ih member (List.mem_cons_of_mem _ hmem)]

/-! ## Comparing -/

section BeqBy

variable {eq : N → N → Bool}

theorem beqBy_array_iff {items items' : List (Json N)} :
    (array items).beqBy eq (.array items') = true
      ↔ List.Forall₂ (fun item item' => item.beqBy eq item' = true) items items' := by
  let _ : BEq N := ⟨eq⟩
  unfold beqBy
  rw [beq, beqItems_iff]

theorem beqBy_object_iff {members members' : List (Str × Json N)} :
    (object members).beqBy eq (.object members') = true
      ↔ members.length = members'.length ∧ ∀ member ∈ members,
          ∃ value', members'.lookup member.1 = some value' ∧ member.2.beqBy eq value' = true := by
  let _ : BEq N := ⟨eq⟩
  unfold beqBy
  rw [beq, Bool.and_eq_true, beq_iff_eq, beqMembers_iff, Prod.forall]

/-- Equal values are nested alike. -/
theorem depth_le_of_beqBy {value value' : Json N} (h : value.beqBy eq value' = true) : value.depth ≤ value'.depth :=
  @depth_le_of_beq N ⟨eq⟩ value value' h

/-- Objects are equal if there is the same under every key. -/
theorem beqBy_object_iff_lookup {members members' : List (Str × Json N)} (hkeys : (Members.Keys members).Nodup)
    (hkeys' : (Members.Keys members').Nodup) :
    (object members).beqBy eq (.object members') = true
      ↔ ∀ key, Option.Rel (fun value value' => value.beqBy eq value' = true) (members.lookup key)
          (members'.lookup key) := by
  let _ : BEq N := ⟨eq⟩
  refine ⟨fun h key => ?_, beq_object hkeys hkeys'⟩
  cases hlookup : members.lookup key with
  | none =>
      rw [beq_object_key h hkeys hlookup]
      exact .none
  | some value =>
      obtain ⟨value', hlookup', hvalue⟩ := beq_object_member h hlookup
      rw [hlookup']
      exact .some hvalue

/-- A value is equal to itself if its numbers are. -/
theorem beqBy_self_iff {value : Json N} (h : value.WellFormed) :
    value.beqBy eq value = true ↔ ∀ n ∈ value.numbers, eq n n = true := by
  induction value using Json.induction with
  | null | bool | string => simp [beqBy, beq, numbers]
  | number n => simp [beqBy, beq, numbers]
  | array items ih =>
      rw [beqBy_array_iff, numbers, List.forall₂_same]
      simp only [mem_numbersItems, forall_exists_index, and_imp]
      constructor
      · exact fun hitems n item hmem hn => (ih item hmem (h.items item hmem)).mp (hitems item hmem) n hn
      · exact fun hnumbers item hmem => (ih item hmem (h.items item hmem)).mpr fun n hn => hnumbers n item hmem hn
  | object members ih =>
      rw [beqBy_object_iff, and_iff_right rfl, numbers]
      simp only [mem_numbersMembers, forall_exists_index, and_imp]
      constructor
      · intro hmembers n member hmem hn
        obtain ⟨value', hlookup, hvalue⟩ := hmembers member hmem
        cases (Members.lookup_of_mem h.keys hmem).symm.trans hlookup
        exact (ih member hmem (h.members member hmem)).mp hvalue n hn
      · intro hnumbers member hmem
        exact ⟨member.2, Members.lookup_of_mem h.keys hmem,
          (ih member hmem (h.members member hmem)).mpr fun n hn => hnumbers n member hmem hn⟩

end BeqBy

/-- **Comparing with replaced numbers.** -/
theorem beq_mapNumbers_iff [BEq N] {f : N → Option N} {value value' : Json N} :
    (∃ replaced, value.mapNumbers f = some replaced ∧ replaced.beq value' = true)
      ↔ value.beqBy (fun n m => (f n).any (· == m)) value' = true := by
  induction value using Json.induction generalizing value' with
  | null | bool | string => cases value' <;> simp [mapNumbers, beqBy, beq]
  | number n => cases value' <;> cases hf : f n <;> simp [mapNumbers, beqBy, beq, hf]
  | array items ih =>
      cases value' with
      | array items' =>
          simp only [mapNumbers, Option.map_eq_some_iff, beqBy_array_iff]
          constructor
          · rintro ⟨_, ⟨replaced, hreplaced, rfl⟩, hbeq⟩
            rw [beq, beqItems_iff] at hbeq
            have hforall := mapNumbersItems_eq_some_iff.mp hreplaced
            clear hreplaced
            induction hforall generalizing items' with
            | nil =>
                cases hbeq
                exact .nil
            | cons hitem _ ihItems =>
                cases hbeq with
                | cons hhead htail =>
                    exact .cons ((ih _ List.mem_cons_self).mp ⟨_, hitem, hhead⟩)
                      (ihItems (fun item hmem => ih item (List.mem_cons_of_mem _ hmem)) _ htail)
          · intro hforall
            suffices h : ∃ replaced, mapNumbersItems f items = some replaced ∧ beqItems replaced items' = true by
              obtain ⟨replaced, hreplaced, hbeq⟩ := h
              exact ⟨.array replaced, ⟨replaced, hreplaced, rfl⟩, by rwa [beq]⟩
            induction hforall with
            | nil => exact ⟨[], rfl, rfl⟩
            | cons hitem _ ihItems =>
                obtain ⟨item', hitem', hbeq⟩ := (ih _ List.mem_cons_self).mpr hitem
                obtain ⟨replaced, hreplaced, hrest⟩ :=
                  ihItems fun item hmem => ih item (List.mem_cons_of_mem _ hmem)
                refine ⟨item' :: replaced, by rw [mapNumbersItems, hitem', hreplaced]; rfl, ?_⟩
                rw [beqItems, hbeq, hrest]
                rfl
      | _ => simp [mapNumbers, beqBy, beq]
  | object members ih =>
      cases value' with
      | object members' =>
          simp only [mapNumbers, Option.map_eq_some_iff, beqBy_object_iff]
          constructor
          · rintro ⟨_, ⟨replaced, hreplaced, rfl⟩, hbeq⟩
            rw [beq, Bool.and_eq_true, beq_iff_eq, beqMembers_iff] at hbeq
            have hforall := mapNumbersMembers_eq_some_iff.mp hreplaced
            refine ⟨hforall.length_eq.trans hbeq.1, fun member hmem => ?_⟩
            obtain ⟨member', hmem', hkey, hvalue⟩ := Sorting.exists_of_mem_forall₂ hforall.flip hmem
            obtain ⟨value', hlookup, hvalue'⟩ := hbeq.2 member'.1 member'.2 hmem'
            exact ⟨value', hkey ▸ hlookup, (ih member hmem).mp ⟨_, hvalue, hvalue'⟩⟩
          · rintro ⟨hlength, hmembers⟩
            suffices h : ∃ replaced, mapNumbersMembers f members = some replaced
                ∧ ∀ member ∈ replaced, ∃ value', members'.lookup member.1 = some value' ∧ member.2.beq value' = true by
              obtain ⟨replaced, hreplaced, hbeq⟩ := h
              refine ⟨.object replaced, ⟨replaced, hreplaced, rfl⟩, ?_⟩
              rw [beq, Bool.and_eq_true, beq_iff_eq, beqMembers_iff]
              exact ⟨(mapNumbersMembers_eq_some_iff.mp hreplaced).length_eq.symm.trans hlength,
                fun key value hmem => hbeq (key, value) hmem⟩
            clear hlength
            induction members with
            | nil => exact ⟨[], rfl, by simp⟩
            | cons member members ihMembers =>
                obtain ⟨value', hlookup, hvalue⟩ := hmembers member List.mem_cons_self
                obtain ⟨value, hreplaced, hbeq⟩ := (ih member List.mem_cons_self).mpr hvalue
                obtain ⟨replaced, hrest, hbeqs⟩ :=
                  ihMembers (fun member hmem => ih member (List.mem_cons_of_mem _ hmem))
                    fun member hmem => hmembers member (List.mem_cons_of_mem _ hmem)
                refine ⟨(member.1, value) :: replaced, by rw [mapNumbersMembers, hreplaced, hrest]; rfl, ?_⟩
                exact List.forall_mem_cons.mpr ⟨⟨value', hlookup, hbeq⟩, hbeqs⟩
      | _ => simp [mapNumbers, beqBy, beq]

end Inspect.Json
