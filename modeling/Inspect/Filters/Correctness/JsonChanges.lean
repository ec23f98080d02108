import Inspect.Filters.Correctness.JsonDiff

/-!
# `Filters.Correctness.JsonChanges` — the shape of a JSON diff

`diff_json_value` walks two values side by side. Its events are the places where they differ: each has the values that
are found there, no two overlap, and away from all of them the two values agree.
-/

namespace Inspect.Filters

section Changes

variable {N : Type} [BEq N] {serde : SerdeJson N}

/-! ## Where two bodies differ -/

/-- The two values differ at this path: a member or an item is only in one of them, or the values there are
    different and not both objects or both arrays. -/
inductive ChangedAt : Json N → Json N → List JsonStep → Prop
  | replaced {original edited : Json N} (hbeq : original.beq edited = false)
      (hobjects : ∀ members members', ¬ (original = .object members ∧ edited = .object members'))
      (harrays : ∀ items items', ¬ (original = .array items ∧ edited = .array items')) :
      ChangedAt original edited []
  | removedMember {members members' : List (Str × Json N)} {key : Str} {value : Json N}
      (hmember : members.lookup key = some value) (hmember' : members'.lookup key = none) :
      ChangedAt (.object members) (.object members') [.key key]
  | addedMember {members members' : List (Str × Json N)} {key : Str} {value : Json N}
      (hmember : members.lookup key = none) (hmember' : members'.lookup key = some value) :
      ChangedAt (.object members) (.object members') [.key key]
  | member {members members' : List (Str × Json N)} {key : Str} {value value' : Json N}
      {steps : List JsonStep} (hmember : members.lookup key = some value)
      (hmember' : members'.lookup key = some value') (h : ChangedAt value value' steps) :
      ChangedAt (.object members) (.object members') (.key key :: steps)
  | removedItem {items items' : List (Json N)} {index : Nat} (hlt : index < items.length)
      (hle : items'.length ≤ index) : ChangedAt (.array items) (.array items') [.index index]
  | addedItem {items items' : List (Json N)} {index : Nat} (hle : items.length ≤ index)
      (hlt : index < items'.length) : ChangedAt (.array items) (.array items') [.index index]
  | item {items items' : List (Json N)} {index : Nat} {value value' : Json N} {steps : List JsonStep}
      (hitem : items[index]? = some value) (hitem' : items'[index]? = some value')
      (h : ChangedAt value value' steps) :
      ChangedAt (.array items) (.array items') (.index index :: steps)

/-- Equal values differ nowhere. -/
theorem ChangedAt.beq {original edited : Json N} {steps : List JsonStep}
    (h : ChangedAt original edited steps) (hwf : original.WellFormed) : original.beq edited = false := by
  rw [← Bool.not_eq_true]
  induction h with
  | replaced hbeq _ _ => rw [hbeq]; exact Bool.false_ne_true
  | removedMember hmember hmember' =>
      intro hbeq
      obtain ⟨found, hfound, -⟩ := Json.beq_object_member hbeq hmember
      rw [hmember'] at hfound
      cases hfound
  | addedMember hmember hmember' =>
      intro hbeq
      have hnone := Json.beq_object_key hbeq hwf.keys hmember
      rw [hmember'] at hnone
      cases hnone
  | member hmember hmember' _ ih =>
      intro hbeq
      obtain ⟨found, hfound, hvalue⟩ := Json.beq_object_member hbeq hmember
      rw [hmember'] at hfound
      cases hfound
      exact ih (hwf.lookup hmember) hvalue
  | removedItem hlt hle =>
      intro hbeq
      have hlength := Json.beq_array_length hbeq
      omega
  | addedItem hle hlt =>
      intro hbeq
      have hlength := Json.beq_array_length hbeq
      omega
  | item hitem hitem' _ ih =>
      intro hbeq
      exact ih (hwf.items _ (List.mem_of_getElem? hitem)) (Json.beq_array_item hbeq hitem hitem')

/-- What is one step into a value. -/
def childAt : JsonStep → Json N → Option (Json N)
  | .key key, .object members => members.lookup key
  | .index index, .array items => items[index]?
  | _, _ => none

/-- What is at a path in a value. -/
def valueAt : List JsonStep → Json N → Option (Json N)
  | [], value => some value
  | step :: steps, value => (childAt step value).bind (valueAt steps)

variable (serde) in
/-- The event is about the value at this path. -/
def EventAt (steps : List JsonStep) (event : DiffEvent) : Prop :=
  (∃ old, event = deleteEvent serde (steps.map JsonStep.segment) old)
    ∨ (∃ node, event = insertEvent serde (steps.map JsonStep.segment) node)
    ∨ ∃ old new, event = replaceEvent serde (steps.map JsonStep.segment) old new

variable (serde) in
/-- The event is about this path below `path`, and has what is there in the two values. -/
inductive EventOf (original edited : Json N) (path steps : List JsonStep) : DiffEvent → Prop
  | delete {old : Json N} (hold : valueAt steps original = some old) (hnew : valueAt steps edited = none) :
      EventOf original edited path steps (deleteEvent serde ((path ++ steps).map JsonStep.segment) old)
  | insert {node : Json N} (hold : valueAt steps original = none) (hnew : valueAt steps edited = some node) :
      EventOf original edited path steps (insertEvent serde ((path ++ steps).map JsonStep.segment) node)
  | replace {old new : Json N} (hold : valueAt steps original = some old)
      (hnew : valueAt steps edited = some new) :
      EventOf original edited path steps (replaceEvent serde ((path ++ steps).map JsonStep.segment) old new)

omit [BEq N] in
theorem EventOf.eventAt {original edited : Json N} {path steps : List JsonStep} {event : DiffEvent}
    (h : EventOf serde original edited path steps event) : EventAt serde (path ++ steps) event := by
  cases h with
  | delete _ _ => exact Or.inl ⟨_, rfl⟩
  | insert _ _ => exact Or.inr (Or.inl ⟨_, rfl⟩)
  | replace _ _ => exact Or.inr (Or.inr ⟨_, _, rfl⟩)

omit [BEq N] in
/-- An event of two values is one of the values they are in. -/
theorem EventOf.cons {original edited value value' : Json N} {path steps : List JsonStep} {step : JsonStep}
    {event : DiffEvent} (hvalue : childAt step original = some value)
    (hvalue' : childAt step edited = some value')
    (h : EventOf serde value value' (path ++ [step]) steps event) :
    EventOf serde original edited path (step :: steps) event := by
  have hat : valueAt (step :: steps) original = valueAt steps value := by rw [valueAt, hvalue]; rfl
  have hat' : valueAt (step :: steps) edited = valueAt steps value' := by rw [valueAt, hvalue']; rfl
  have hpath : path ++ step :: steps = path ++ [step] ++ steps := (List.append_assoc path [step] steps).symm
  cases h with
  | delete hold hnew => exact hpath ▸ .delete (hat.trans hold) (hat'.trans hnew)
  | insert hold hnew => exact hpath ▸ .insert (hat.trans hold) (hat'.trans hnew)
  | replace hold hnew => exact hpath ▸ .replace (hat.trans hold) (hat'.trans hnew)

omit [BEq N] in
theorem valueAt_singleton {step : JsonStep} {value : Json N} {found : Option (Json N)}
    (h : childAt step value = found) : valueAt [step] value = found := by
  rw [valueAt, h]
  cases found <;> rfl

omit [BEq N] in
theorem valueAt_key (key : Str) (members : List (Str × Json N)) :
    valueAt [.key key] (.object members) = members.lookup key :=
  valueAt_singleton rfl

omit [BEq N] in
theorem valueAt_index (index : Nat) (items : List (Json N)) : valueAt [.index index] (.array items) = items[index]? :=
  valueAt_singleton rfl

omit [BEq N] in
/-- The items of an array that are behind the end of another one, with their indices. -/
theorem mem_zipIdx_drop_min {items items' : List (Json N)} {item : Json N} {index : Nat} :
    (item, index) ∈ items.zipIdx.drop (min items.length items'.length)
      ↔ items'.length ≤ index ∧ index < items.length ∧ items[index]? = some item := by
  rw [zipIdx_drop, Nat.zero_add, List.mk_mem_zipIdx_iff_le_and_getElem?_sub]
  constructor
  · rintro ⟨hle, hitem⟩
    rw [List.getElem?_drop, Nat.add_sub_of_le hle] at hitem
    have hlt := (List.getElem?_eq_some_iff.mp hitem).1
    exact ⟨by omega, hlt, hitem⟩
  · rintro ⟨hle, hlt, hitem⟩
    have hmin : min items.length items'.length ≤ index := by omega
    rw [List.getElem?_drop, Nat.add_sub_of_le hmin]
    exact ⟨hmin, hitem⟩

/-! ### The events of two containers -/

/-- The events of two objects that differ: the members of the first, and those that only the second has. -/
theorem diffJsonValue_object {members members' : List (Str × Json N)}
    (hbeq : (Json.object members).beq (.object members') = false) (path : List JsonStep) :
    diffJsonValue serde (path.map JsonStep.segment) (.object members) (.object members')
      = diffMembers serde (path.map JsonStep.segment) members members'
        ++ (members'.filter fun member => (members.lookup member.1).isNone).map fun member =>
            insertEvent serde ((path ++ [JsonStep.key member.1]).map JsonStep.segment) member.2 := by
  unfold diffJsonValue
  rw [hbeq, if_neg Bool.false_ne_true]
  simp only [segment_key]

/-- The events of two arrays that differ: the items that both have, and those at the end of the longer one. -/
theorem diffJsonValue_array {items items' : List (Json N)}
    (hbeq : (Json.array items).beq (.array items') = false) (path : List JsonStep) :
    diffJsonValue serde (path.map JsonStep.segment) (.array items) (.array items')
      = diffItems serde (path.map JsonStep.segment) 0 items items'
        ++ ((items.zipIdx.drop (min items.length items'.length)).map fun (item, idx) =>
            deleteEvent serde ((path ++ [JsonStep.index idx]).map JsonStep.segment) item)
        ++ ((items'.zipIdx.drop (min items.length items'.length)).map fun (item, idx) =>
            insertEvent serde ((path ++ [JsonStep.index idx]).map JsonStep.segment) item) := by
  unfold diffJsonValue
  rw [hbeq, if_neg Bool.false_ne_true]
  simp only [segment_index]

theorem diffJsonValue_of_beq {original edited : Json N} (hbeq : original.beq edited = true)
    (path : List DiffPathSegment) : diffJsonValue serde path original edited = [] := by
  unfold diffJsonValue
  rw [if_pos hbeq]

/-! ### Every event is about a change -/

theorem changedAt_of_mem_diffMembers {originalMap editedMap : List (Str × Json N)}
    (ih : ∀ member ∈ originalMap, ∀ (edited : Json N) (path : List JsonStep) (event : DiffEvent),
      edited.WellFormed → event ∈ diffJsonValue serde (path.map JsonStep.segment) member.2 edited →
      ∃ steps, ChangedAt member.2 edited steps ∧ EventOf serde member.2 edited path steps event)
    (hedited : Json.WellFormed (.object editedMap)) {path : List JsonStep} {event : DiffEvent}
    (hmem : event ∈ diffMembers serde (path.map JsonStep.segment) originalMap editedMap) :
    ∃ key value, (key, value) ∈ originalMap
      ∧ ((editedMap.lookup key = none
          ∧ event = deleteEvent serde ((path ++ [JsonStep.key key]).map JsonStep.segment) value)
        ∨ ∃ value' steps, editedMap.lookup key = some value' ∧ ChangedAt value value' steps
            ∧ EventOf serde value value' (path ++ [.key key]) steps event) := by
  induction originalMap with
  | nil => cases hmem
  | cons member originalMap ihMembers =>
      obtain ⟨key, value⟩ := member
      rw [diffMembers, segment_key] at hmem
      rcases List.mem_append.mp hmem with hhead | hrest
      · refine ⟨key, value, List.mem_cons_self, ?_⟩
        cases hlookup : editedMap.lookup key with
        | none =>
            rw [hlookup] at hhead
            exact Or.inl ⟨rfl, List.mem_singleton.mp hhead⟩
        | some value' =>
            rw [hlookup] at hhead
            obtain ⟨steps, hchanged, hevent⟩ := ih (key, value) List.mem_cons_self value'
              (path ++ [.key key]) event (hedited.lookup hlookup) hhead
            exact Or.inr ⟨value', steps, rfl, hchanged, hevent⟩
      · obtain ⟨key', value', hmem', h⟩ :=
          ihMembers (fun member hmem => ih member (List.mem_cons_of_mem _ hmem)) hrest
        exact ⟨key', value', List.mem_cons_of_mem _ hmem', h⟩

theorem changedAt_of_mem_diffItems {originalItems editedItems : List (Json N)}
    (ih : ∀ item ∈ originalItems, ∀ (edited : Json N) (path : List JsonStep) (event : DiffEvent),
      edited.WellFormed → event ∈ diffJsonValue serde (path.map JsonStep.segment) item edited →
      ∃ steps, ChangedAt item edited steps ∧ EventOf serde item edited path steps event)
    (hedited : ∀ item ∈ editedItems, item.WellFormed) {path : List JsonStep} {event : DiffEvent}
    {idx : Nat}
    (hmem : event ∈ diffItems serde (path.map JsonStep.segment) idx originalItems editedItems) :
    ∃ index value value' steps, originalItems[index]? = some value ∧ editedItems[index]? = some value'
      ∧ ChangedAt value value' steps ∧ EventOf serde value value' (path ++ [.index (idx + index)]) steps event := by
  induction originalItems generalizing editedItems idx with
  | nil => cases hmem
  | cons item originalItems ihItems =>
      cases editedItems with
      | nil => cases hmem
      | cons item' editedItems =>
          rw [diffItems, segment_index] at hmem
          rcases List.mem_append.mp hmem with hhead | hrest
          · obtain ⟨steps, hchanged, hevent⟩ := ih item List.mem_cons_self item' (path ++ [.index idx])
              event (hedited item' List.mem_cons_self) hhead
            exact ⟨0, item, item', steps, rfl, rfl, hchanged, hevent⟩
          · obtain ⟨index, value, value', steps, hitem, hitem', hchanged, hevent⟩ :=
              ihItems (fun item hmem => ih item (List.mem_cons_of_mem _ hmem))
                (fun item hmem => hedited item (List.mem_cons_of_mem _ hmem)) hrest
            have hindex : idx + 1 + index = idx + (index + 1) := by omega
            rw [hindex] at hevent
            exact ⟨index + 1, value, value', steps, hitem, hitem', hchanged, hevent⟩

theorem changedAt_of_mem_array {originalItems editedItems : List (Json N)}
    (ih : ∀ item ∈ originalItems, ∀ (edited : Json N) (path : List JsonStep) (event : DiffEvent),
      edited.WellFormed → event ∈ diffJsonValue serde (path.map JsonStep.segment) item edited →
      ∃ steps, ChangedAt item edited steps ∧ EventOf serde item edited path steps event)
    (hedited : Json.WellFormed (.array editedItems)) {path : List JsonStep} {event : DiffEvent}
    (hmem : event ∈ diffJsonValue serde (path.map JsonStep.segment) (.array originalItems) (.array editedItems)) :
    ∃ steps, ChangedAt (.array originalItems) (.array editedItems) steps
      ∧ EventOf serde (.array originalItems) (.array editedItems) path steps event := by
  cases hbeq : (Json.array originalItems).beq (.array editedItems) with
  | true =>
      rw [diffJsonValue_of_beq hbeq] at hmem
      cases hmem
  | false =>
      rw [diffJsonValue_array hbeq] at hmem
      rcases List.mem_append.mp hmem with hmem | hadded
      · rcases List.mem_append.mp hmem with hboth | hremoved
        · obtain ⟨index, value, value', steps, hitem, hitem', hchanged, hevent⟩ :=
            changedAt_of_mem_diffItems ih hedited.items hboth
          rw [Nat.zero_add] at hevent
          exact ⟨.index index :: steps, ChangedAt.item hitem hitem' hchanged, hevent.cons hitem hitem'⟩
        · obtain ⟨⟨item, idx⟩, hitem, rfl⟩ := List.mem_map.mp hremoved
          obtain ⟨hle, hlt, hitem⟩ := mem_zipIdx_drop_min.mp hitem
          exact ⟨[.index idx], ChangedAt.removedItem hlt hle,
            .delete (valueAt_singleton hitem) (valueAt_singleton (List.getElem?_eq_none hle))⟩
      · obtain ⟨⟨item, idx⟩, hitem, rfl⟩ := List.mem_map.mp hadded
        rw [Nat.min_comm] at hitem
        obtain ⟨hle, hlt, hitem⟩ := mem_zipIdx_drop_min.mp hitem
        exact ⟨[.index idx], ChangedAt.addedItem hle hlt,
          .insert (valueAt_singleton (List.getElem?_eq_none hle)) (valueAt_singleton hitem)⟩

theorem changedAt_of_mem_object {originalMap editedMap : List (Str × Json N)}
    (ih : ∀ member ∈ originalMap, ∀ (edited : Json N) (path : List JsonStep) (event : DiffEvent),
      edited.WellFormed → event ∈ diffJsonValue serde (path.map JsonStep.segment) member.2 edited →
      ∃ steps, ChangedAt member.2 edited steps ∧ EventOf serde member.2 edited path steps event)
    (horiginal : Json.WellFormed (.object originalMap)) (hedited : Json.WellFormed (.object editedMap))
    {path : List JsonStep} {event : DiffEvent}
    (hmem : event ∈ diffJsonValue serde (path.map JsonStep.segment) (.object originalMap) (.object editedMap)) :
    ∃ steps, ChangedAt (.object originalMap) (.object editedMap) steps
      ∧ EventOf serde (.object originalMap) (.object editedMap) path steps event := by
  cases hbeq : (Json.object originalMap).beq (.object editedMap) with
  | true =>
      rw [diffJsonValue_of_beq hbeq] at hmem
      cases hmem
  | false =>
      rw [diffJsonValue_object hbeq] at hmem
      rcases List.mem_append.mp hmem with hboth | hadded
      · obtain ⟨key, value, hmember, h⟩ := changedAt_of_mem_diffMembers ih hedited hboth
        have hlookup := Members.lookup_of_mem horiginal.keys hmember
        rcases h with ⟨hnone, hevent⟩ | ⟨value', steps, hlookup', hchanged, hevent⟩
        · rw [hevent]
          exact ⟨[.key key], ChangedAt.removedMember hlookup hnone,
            .delete (valueAt_singleton hlookup) (valueAt_singleton hnone)⟩
        · exact ⟨.key key :: steps, ChangedAt.member hlookup hlookup' hchanged,
            hevent.cons hlookup hlookup'⟩
      · obtain ⟨⟨key, value⟩, hnew, rfl⟩ := List.mem_map.mp hadded
        obtain ⟨hmember, hnone⟩ := List.mem_filter.mp hnew
        have hnone := Option.isNone_iff_eq_none.mp hnone
        have hlookup := Members.lookup_of_mem hedited.keys hmember
        exact ⟨[.key key], ChangedAt.addedMember hnone hlookup,
          .insert (valueAt_singleton hnone) (valueAt_singleton hlookup)⟩

/-- An event about a value replaced as a whole. -/
theorem changedAt_of_mem_replace {original edited : Json N} {path : List JsonStep} {event : DiffEvent}
    (hdiff : diffJsonValue serde (path.map JsonStep.segment) original edited
      = if original.beq edited then []
        else [replaceEvent serde (path.map JsonStep.segment) original edited])
    (hobjects : ∀ members members', ¬ (original = .object members ∧ edited = .object members'))
    (harrays : ∀ items items', ¬ (original = .array items ∧ edited = .array items'))
    (hmem : event ∈ diffJsonValue serde (path.map JsonStep.segment) original edited) :
    ∃ steps, ChangedAt original edited steps ∧ EventOf serde original edited path steps event := by
  rw [hdiff] at hmem
  split at hmem
  · cases hmem
  · rename_i hbeq
    have hevent : EventOf serde original edited path []
        (replaceEvent serde ((path ++ []).map JsonStep.segment) original edited) := .replace rfl rfl
    rw [List.append_nil, ← List.mem_singleton.mp hmem] at hevent
    exact ⟨[], ChangedAt.replaced (Bool.not_eq_true _ ▸ hbeq) hobjects harrays, hevent⟩

/-- **Every event of a diff is about a change.** -/
theorem changedAt_of_mem_diffJsonValue {original edited : Json N} (horiginal : original.WellFormed)
    (hedited : edited.WellFormed) {path : List JsonStep} {event : DiffEvent}
    (hmem : event ∈ diffJsonValue serde (path.map JsonStep.segment) original edited) :
    ∃ steps, ChangedAt original edited steps ∧ EventOf serde original edited path steps event := by
  induction original using Json.induction generalizing edited path event with
  | array originalItems ih =>
      cases edited with
      | array editedItems =>
          exact changedAt_of_mem_array
            (fun item hmem edited path event hwf => ih item hmem (horiginal.items item hmem) hwf) hedited hmem
      | _ => exact changedAt_of_mem_replace rfl (by simp) (by simp) hmem
  | object originalMap ih =>
      cases edited with
      | object editedMap =>
          exact changedAt_of_mem_object
            (fun member hmem edited path event hwf => ih member hmem (horiginal.members member hmem) hwf)
            horiginal hedited hmem
      | _ => exact changedAt_of_mem_replace rfl (by simp) (by simp) hmem
  | null => exact changedAt_of_mem_replace rfl (by simp) (by simp) hmem
  | bool b => exact changedAt_of_mem_replace rfl (by simp) (by simp) hmem
  | number n => exact changedAt_of_mem_replace rfl (by simp) (by simp) hmem
  | string s => exact changedAt_of_mem_replace rfl (by simp) (by simp) hmem

/-! ### Every change has an event -/

theorem mem_diffMembers {originalMap editedMap : List (Str × Json N)} {key : Str} {value : Json N}
    (hmem : (key, value) ∈ originalMap) (path : List DiffPathSegment) {event : DiffEvent}
    (hevent : event ∈ (match editedMap.lookup key with
        | some value' => diffJsonValue serde (path ++ [DiffPathSegment.jsonKey key]) value value'
        | none => [deleteEvent serde (path ++ [DiffPathSegment.jsonKey key]) value])) :
    event ∈ diffMembers serde path originalMap editedMap := by
  induction originalMap with
  | nil => cases hmem
  | cons member originalMap ih =>
      obtain ⟨key', value'⟩ := member
      rw [diffMembers]
      rcases List.mem_cons.mp hmem with heq | hmem
      · cases heq
        exact List.mem_append_left _ hevent
      · exact List.mem_append_right _ (ih hmem)

theorem mem_diffItems {originalItems editedItems : List (Json N)} {index : Nat} {value value' : Json N}
    (hitem : originalItems[index]? = some value) (hitem' : editedItems[index]? = some value')
    (path : List DiffPathSegment) (idx : Nat) {event : DiffEvent}
    (hevent : event ∈ diffJsonValue serde (path ++ [.jsonIndex (idx + index)]) value value') :
    event ∈ diffItems serde path idx originalItems editedItems := by
  induction originalItems generalizing editedItems index idx with
  | nil => cases hitem
  | cons item originalItems ih =>
      cases editedItems with
      | nil => cases hitem'
      | cons item' editedItems =>
          rw [diffItems]
          cases index with
          | zero =>
              cases hitem
              cases hitem'
              exact List.mem_append_left _ hevent
          | succ index =>
              have hindex : idx + (index + 1) = idx + 1 + index := by omega
              rw [hindex] at hevent
              exact List.mem_append_right _ (ih hitem hitem' (idx + 1) hevent)

/-- **Every change has an event.** -/
theorem exists_event_of_changedAt {original edited : Json N} (horiginal : original.WellFormed)
    {steps : List JsonStep} (h : ChangedAt original edited steps) (path : List JsonStep) :
    ∃ event ∈ diffJsonValue serde (path.map JsonStep.segment) original edited,
      EventAt serde (path ++ steps) event := by
  have hbeq := h.beq horiginal
  -- on how the two values differ: each kind of difference has its own list among the events of its level
  induction h generalizing path with
  | @replaced original edited _ hobjects harrays =>
      refine ⟨replaceEvent serde (path.map JsonStep.segment) original edited, ?_, ?_⟩
      · unfold diffJsonValue
        rw [if_neg (by simp [hbeq])]
        split
        · exact absurd ⟨rfl, rfl⟩ (hobjects _ _)
        · exact absurd ⟨rfl, rfl⟩ (harrays _ _)
        · exact List.mem_singleton_self _
      · rw [List.append_nil]
        exact Or.inr (Or.inr ⟨original, edited, rfl⟩)
  | @removedMember members members' key value hmember hmember' =>
      refine ⟨deleteEvent serde ((path ++ [JsonStep.key key]).map JsonStep.segment) value, ?_, Or.inl ⟨value, rfl⟩⟩
      rw [diffJsonValue_object hbeq]
      apply List.mem_append_left
      apply mem_diffMembers (Members.mem_of_lookup hmember)
      rw [hmember', segment_key]
      exact List.mem_singleton_self _
  | @addedMember members members' key value hmember hmember' =>
      refine ⟨insertEvent serde ((path ++ [JsonStep.key key]).map JsonStep.segment) value, ?_,
        Or.inr (Or.inl ⟨value, rfl⟩)⟩
      rw [diffJsonValue_object hbeq]
      apply List.mem_append_right
      refine List.mem_map.mpr ⟨(key, value), List.mem_filter.mpr ⟨Members.mem_of_lookup hmember', ?_⟩, rfl⟩
      rw [hmember]
      rfl
  | @member members members' key value value' steps hmember hmember' hchanged ih =>
      have hwf := horiginal.lookup hmember
      obtain ⟨event, hmem, hevent⟩ := ih hwf (path ++ [.key key]) (hchanged.beq hwf)
      rw [List.append_assoc] at hevent
      refine ⟨event, ?_, hevent⟩
      rw [diffJsonValue_object hbeq]
      apply List.mem_append_left
      apply mem_diffMembers (Members.mem_of_lookup hmember)
      rw [hmember', segment_key]
      exact hmem
  | @removedItem items items' index hlt hle =>
      have hmem := mem_zipIdx_drop_min.mpr ⟨hle, hlt, List.getElem?_eq_getElem hlt⟩
      refine ⟨deleteEvent serde ((path ++ [JsonStep.index index]).map JsonStep.segment) items[index], ?_,
        Or.inl ⟨_, rfl⟩⟩
      rw [diffJsonValue_array hbeq]
      apply List.mem_append_left
      apply List.mem_append_right
      exact List.mem_map.mpr ⟨_, hmem, rfl⟩
  | @addedItem items items' index hle hlt =>
      have hmem := mem_zipIdx_drop_min.mpr ⟨hle, hlt, List.getElem?_eq_getElem hlt⟩
      rw [Nat.min_comm] at hmem
      refine ⟨insertEvent serde ((path ++ [JsonStep.index index]).map JsonStep.segment) items'[index], ?_,
        Or.inr (Or.inl ⟨_, rfl⟩)⟩
      rw [diffJsonValue_array hbeq]
      apply List.mem_append_right
      exact List.mem_map.mpr ⟨_, hmem, rfl⟩
  | @item items items' index value value' steps hitem hitem' hchanged ih =>
      have hwf := horiginal.items _ (List.mem_of_getElem? hitem)
      obtain ⟨event, hmem, hevent⟩ := ih hwf (path ++ [.index index]) (hchanged.beq hwf)
      rw [List.append_assoc] at hevent
      refine ⟨event, ?_, hevent⟩
      rw [diffJsonValue_array hbeq]
      apply List.mem_append_left
      apply List.mem_append_left
      apply mem_diffItems hitem hitem'
      rw [Nat.zero_add, segment_index]
      exact hmem

/-! ### No two events overlap -/

/-- Neither event is about something inside what the other one is about. -/
def Apart (event event' : DiffEvent) : Prop :=
  ¬ event.path.segments <+: event'.path.segments ∧ ¬ event'.path.segments <+: event.path.segments

variable (serde) in
/-- The event is about a path that takes this step below `path`. -/
def Below (path : List JsonStep) (step : JsonStep) (event : DiffEvent) : Prop :=
  ∃ rest, EventAt serde (path ++ step :: rest) event

omit [BEq N] in
theorem EventAt.segments {steps : List JsonStep} {event : DiffEvent} (h : EventAt serde steps event) :
    event.path.segments = .body :: steps.map JsonStep.segment := by
  rcases h with ⟨_, rfl⟩ | ⟨_, rfl⟩ | ⟨_, _, rfl⟩ <;> rfl

theorem JsonStep.segment_injective {step step' : JsonStep} (h : step.segment = step'.segment) : step = step' := by
  cases step <;> cases step' <;> cases h <;> rfl

omit [BEq N] in
/-- Two steps from one place lead apart. -/
theorem Below.apart {path : List JsonStep} {step step' : JsonStep} {event event' : DiffEvent}
    (h : Below serde path step event) (h' : Below serde path step' event') (hne : step ≠ step') :
    Apart event event' := by
  obtain ⟨rest, h⟩ := h
  obtain ⟨rest', h'⟩ := h'
  have hsegments := h.segments
  have hsegments' := h'.segments
  rw [List.map_append, List.map_cons] at hsegments hsegments'
  unfold Apart
  rw [hsegments, hsegments', List.cons_prefix_cons, List.cons_prefix_cons, List.prefix_append_right_inj,
    List.prefix_append_right_inj, List.cons_prefix_cons, List.cons_prefix_cons]
  exact ⟨fun hprefix => hne (JsonStep.segment_injective hprefix.2.1),
    fun hprefix => hne (JsonStep.segment_injective hprefix.2.1).symm⟩

omit [BEq N] in
theorem below_delete (path : List JsonStep) (step : JsonStep) (old : Json N) :
    Below serde path step (deleteEvent serde ((path ++ [step]).map JsonStep.segment) old) :=
  ⟨[], Or.inl ⟨old, rfl⟩⟩

omit [BEq N] in
theorem below_insert (path : List JsonStep) (step : JsonStep) (node : Json N) :
    Below serde path step (insertEvent serde ((path ++ [step]).map JsonStep.segment) node) :=
  ⟨[], Or.inr (Or.inl ⟨node, rfl⟩)⟩

/-- The events of two members or items are below the step to them. -/
theorem below_of_mem {original edited : Json N} (horiginal : original.WellFormed) (hedited : edited.WellFormed)
    {path : List JsonStep} {step : JsonStep} {event : DiffEvent}
    (hmem : event ∈ diffJsonValue serde ((path ++ [step]).map JsonStep.segment) original edited) :
    Below serde path step event := by
  obtain ⟨steps, -, hevent⟩ := changedAt_of_mem_diffJsonValue horiginal hedited hmem
  have hat := hevent.eventAt
  rw [List.append_assoc] at hat
  exact ⟨steps, hat⟩

theorem below_of_mem_diffMembers {originalMap editedMap : List (Str × Json N)}
    (horiginal : ∀ member ∈ originalMap, member.2.WellFormed) (hedited : Json.WellFormed (.object editedMap))
    {path : List JsonStep} {event : DiffEvent}
    (hmem : event ∈ diffMembers serde (path.map JsonStep.segment) originalMap editedMap) :
    ∃ key ∈ Members.Keys originalMap, Below serde path (.key key) event := by
  obtain ⟨key, value, hmember, h⟩ := changedAt_of_mem_diffMembers
    (fun member hmem _ _ _ hwf => changedAt_of_mem_diffJsonValue (horiginal member hmem) hwf) hedited hmem
  refine ⟨key, List.mem_map_of_mem hmember, ?_⟩
  rcases h with ⟨-, rfl⟩ | ⟨value', steps, -, -, hevent⟩
  · exact below_delete path (.key key) value
  · have hat := hevent.eventAt
    rw [List.append_assoc] at hat
    exact ⟨steps, hat⟩

theorem below_of_mem_diffItems {originalItems editedItems : List (Json N)}
    (horiginal : ∀ item ∈ originalItems, item.WellFormed) (hedited : ∀ item ∈ editedItems, item.WellFormed)
    {path : List JsonStep} {event : DiffEvent} {idx : Nat}
    (hmem : event ∈ diffItems serde (path.map JsonStep.segment) idx originalItems editedItems) :
    ∃ index, idx ≤ index ∧ index < idx + min originalItems.length editedItems.length
      ∧ Below serde path (.index index) event := by
  obtain ⟨index, value, value', steps, hitem, hitem', -, hevent⟩ := changedAt_of_mem_diffItems
    (fun item hmem _ _ _ hwf => changedAt_of_mem_diffJsonValue (horiginal item hmem) hwf) hedited hmem
  have hlt := (List.getElem?_eq_some_iff.mp hitem).1
  have hlt' := (List.getElem?_eq_some_iff.mp hitem').1
  have hat := hevent.eventAt
  rw [List.append_assoc] at hat
  exact ⟨idx + index, by omega, by omega, steps, hat⟩

theorem pairwise_diffMembers {originalMap editedMap : List (Str × Json N)}
    (ih : ∀ member ∈ originalMap, ∀ (edited : Json N) (path : List JsonStep), edited.WellFormed →
      (diffJsonValue serde (path.map JsonStep.segment) member.2 edited).Pairwise Apart)
    (horiginal : Json.WellFormed (.object originalMap)) (hedited : Json.WellFormed (.object editedMap))
    (path : List JsonStep) :
    (diffMembers serde (path.map JsonStep.segment) originalMap editedMap).Pairwise Apart := by
  induction originalMap with
  | nil => exact List.Pairwise.nil
  | cons member originalMap ihMembers =>
      obtain ⟨key, value⟩ := member
      obtain ⟨hkey, hkeys⟩ := Members.keys_cons_nodup.mp horiginal.keys
      have hvalue := horiginal.members (key, value) List.mem_cons_self
      have hmembers : ∀ member ∈ originalMap, member.2.WellFormed :=
        fun member hmem => horiginal.members member (List.mem_cons_of_mem _ hmem)
      rw [diffMembers, segment_key]
      -- the events of one member are all below its key, and no other member has that key
      refine List.pairwise_append.mpr ⟨?_, ?_, ?_⟩
      · split
        · rename_i value' hlookup
          exact ih (key, value) List.mem_cons_self value' (path ++ [.key key]) (hedited.lookup hlookup)
        · exact List.pairwise_singleton _ _
      · exact ihMembers (fun member hmem => ih member (List.mem_cons_of_mem _ hmem))
          (Json.WellFormed.object hkeys hmembers)
      · intro event hmem event' hmem'
        obtain ⟨key', hkey', hbelow'⟩ := below_of_mem_diffMembers hmembers hedited hmem'
        have hne : JsonStep.key key ≠ .key key' := by
          rintro ⟨⟩
          exact hkey hkey'
        refine Below.apart ?_ hbelow' hne
        split at hmem
        · rename_i value' hlookup
          exact below_of_mem hvalue (hedited.lookup hlookup) hmem
        · rw [List.mem_singleton.mp hmem]
          exact below_delete path (.key key) value

theorem pairwise_diffItems {originalItems editedItems : List (Json N)}
    (ih : ∀ item ∈ originalItems, ∀ (edited : Json N) (path : List JsonStep), edited.WellFormed →
      (diffJsonValue serde (path.map JsonStep.segment) item edited).Pairwise Apart)
    (horiginal : ∀ item ∈ originalItems, item.WellFormed) (hedited : ∀ item ∈ editedItems, item.WellFormed)
    (path : List JsonStep) (idx : Nat) :
    (diffItems serde (path.map JsonStep.segment) idx originalItems editedItems).Pairwise Apart := by
  induction originalItems generalizing editedItems idx with
  | nil => exact List.Pairwise.nil
  | cons item originalItems ihItems =>
      cases editedItems with
      | nil => exact List.Pairwise.nil
      | cons item' editedItems =>
          have hitem' := hedited item' List.mem_cons_self
          have hitems : ∀ item ∈ originalItems, item.WellFormed :=
            fun item hmem => horiginal item (List.mem_cons_of_mem _ hmem)
          have hitems' : ∀ item ∈ editedItems, item.WellFormed :=
            fun item hmem => hedited item (List.mem_cons_of_mem _ hmem)
          rw [diffItems, segment_index]
          -- the events of one item are all below its index, and the later items have greater indices
          refine List.pairwise_append.mpr ⟨ih item List.mem_cons_self item' _ hitem',
            ihItems (fun item hmem => ih item (List.mem_cons_of_mem _ hmem)) hitems hitems' _, ?_⟩
          intro event hmem event' hmem'
          obtain ⟨index, hle, -, hbelow'⟩ := below_of_mem_diffItems hitems hitems' hmem'
          have hne : JsonStep.index idx ≠ .index index := by
            rintro ⟨⟩
            omega
          exact (below_of_mem (horiginal item List.mem_cons_self) hitem' hmem).apart hbelow' hne

omit [BEq N] in
/-- The items behind the end of another array have indices of their own. -/
theorem pairwise_zipIdx_drop (items : List (Json N)) (n : Nat) {event : Json N × Nat → DiffEvent}
    {path : List JsonStep} (hbelow : ∀ entry, Below serde path (.index entry.2) (event entry)) :
    ((items.zipIdx.drop n).map event).Pairwise Apart := by
  rw [List.pairwise_map]
  have hindices : (items.zipIdx.map Prod.snd).Nodup := by
    rw [List.zipIdx_map_snd]
    exact List.nodup_range'
  refine (List.pairwise_map.mp hindices).drop.imp fun {entry entry'} hne => ?_
  refine (hbelow entry).apart (hbelow entry') ?_
  rintro heq
  exact hne (JsonStep.index.inj heq)

theorem pairwise_array {originalItems editedItems : List (Json N)}
    (ih : ∀ item ∈ originalItems, ∀ (edited : Json N) (path : List JsonStep), edited.WellFormed →
      (diffJsonValue serde (path.map JsonStep.segment) item edited).Pairwise Apart)
    (horiginal : Json.WellFormed (.array originalItems)) (hedited : Json.WellFormed (.array editedItems))
    (path : List JsonStep) :
    (diffJsonValue serde (path.map JsonStep.segment) (.array originalItems) (.array editedItems)).Pairwise Apart := by
  cases hbeq : (Json.array originalItems).beq (.array editedItems) with
  | true =>
      rw [diffJsonValue_of_beq hbeq]
      exact List.Pairwise.nil
  | false =>
      rw [diffJsonValue_array hbeq]
      refine List.pairwise_append.mpr ⟨List.pairwise_append.mpr ⟨?_, ?_, ?_⟩, ?_, ?_⟩
      · exact pairwise_diffItems ih horiginal.items hedited.items path 0
      · exact pairwise_zipIdx_drop originalItems _ fun entry => below_delete path (.index entry.2) entry.1
      · -- both arrays have the indices of the first events, one of them those of the others
        intro event hmem event' hmem'
        obtain ⟨index, -, hlt, hbelow⟩ := below_of_mem_diffItems horiginal.items hedited.items hmem
        obtain ⟨⟨item, idx⟩, hitem, rfl⟩ := List.mem_map.mp hmem'
        obtain ⟨hle, -, -⟩ := mem_zipIdx_drop_min.mp hitem
        refine hbelow.apart (below_delete path (.index idx) item) ?_
        rintro ⟨⟩
        omega
      · exact pairwise_zipIdx_drop editedItems _ fun entry => below_insert path (.index entry.2) entry.1
      · intro event hmem event' hmem'
        obtain ⟨⟨item', idx'⟩, hitem', rfl⟩ := List.mem_map.mp hmem'
        rw [Nat.min_comm] at hitem'
        obtain ⟨hle, hlt, -⟩ := mem_zipIdx_drop_min.mp hitem'
        rcases List.mem_append.mp hmem with hmem | hmem
        · obtain ⟨index, -, hlt, hbelow⟩ := below_of_mem_diffItems horiginal.items hedited.items hmem
          refine hbelow.apart (below_insert path (.index idx') item') ?_
          rintro ⟨⟩
          omega
        · obtain ⟨⟨item, idx⟩, hitem, rfl⟩ := List.mem_map.mp hmem
          obtain ⟨-, hlt', -⟩ := mem_zipIdx_drop_min.mp hitem
          refine (below_delete path (.index idx) item).apart (below_insert path (.index idx') item') ?_
          rintro ⟨⟩
          omega

theorem pairwise_object {originalMap editedMap : List (Str × Json N)}
    (ih : ∀ member ∈ originalMap, ∀ (edited : Json N) (path : List JsonStep), edited.WellFormed →
      (diffJsonValue serde (path.map JsonStep.segment) member.2 edited).Pairwise Apart)
    (horiginal : Json.WellFormed (.object originalMap)) (hedited : Json.WellFormed (.object editedMap))
    (path : List JsonStep) :
    (diffJsonValue serde (path.map JsonStep.segment) (.object originalMap) (.object editedMap)).Pairwise Apart := by
  cases hbeq : (Json.object originalMap).beq (.object editedMap) with
  | true =>
      rw [diffJsonValue_of_beq hbeq]
      exact List.Pairwise.nil
  | false =>
      rw [diffJsonValue_object hbeq]
      refine List.pairwise_append.mpr ⟨?_, ?_, ?_⟩
      · exact pairwise_diffMembers ih horiginal hedited path
      · rw [List.pairwise_map]
        refine ((List.pairwise_map.mp hedited.keys).filter _).imp fun {member member'} hne => ?_
        refine (below_insert path (.key member.1) member.2).apart (below_insert path (.key member'.1) member'.2) ?_
        rintro heq
        exact hne (JsonStep.key.inj heq)
      · -- a new member has a key that the original does not have
        intro event hmem event' hmem'
        obtain ⟨key, hkey, hbelow⟩ := below_of_mem_diffMembers horiginal.members hedited hmem
        obtain ⟨⟨key', value'⟩, hnew, rfl⟩ := List.mem_map.mp hmem'
        have hnone := Option.isNone_iff_eq_none.mp (List.mem_filter.mp hnew).2
        refine hbelow.apart (below_insert path (.key key') value') ?_
        rintro ⟨⟩
        exact Members.lookup_eq_none_iff.mp hnone hkey

theorem pairwise_replace (path : List DiffPathSegment) (original edited : Json N) :
    (if original.beq edited then [] else [replaceEvent serde path original edited]).Pairwise Apart := by
  split
  · exact List.Pairwise.nil
  · exact List.pairwise_singleton _ _

/-- **No two events of a diff overlap.** -/
theorem pairwise_diffJsonValue {original edited : Json N} (horiginal : original.WellFormed)
    (hedited : edited.WellFormed) (path : List JsonStep) :
    (diffJsonValue serde (path.map JsonStep.segment) original edited).Pairwise Apart := by
  induction original using Json.induction generalizing edited path with
  | array originalItems ih =>
      cases edited with
      | array editedItems =>
          exact pairwise_array (fun item hmem _ path hwf => ih item hmem (horiginal.items item hmem) hwf path)
            horiginal hedited path
      | _ => exact pairwise_replace _ _ _
  | object originalMap ih =>
      cases edited with
      | object editedMap =>
          exact pairwise_object (fun member hmem _ path hwf => ih member hmem (horiginal.members member hmem) hwf path)
            horiginal hedited path
      | _ => exact pairwise_replace _ _ _
  | null => exact pairwise_replace _ _ _
  | bool b => exact pairwise_replace _ _ _
  | number n => exact pairwise_replace _ _ _
  | string s => exact pairwise_replace _ _ _

/-! ### Away from the events -/

/-- Equal scalars, or containers of one kind. -/
def SameShape : Json N → Json N → Prop
  | .null, .null => True
  | .bool b, .bool b' => b = b'
  | .number n, .number n' => (n == n') = true
  | .string text, .string text' => text = text'
  | .array _, .array _ => True
  | .object _, .object _ => True
  | _, _ => False

/-- The two values have nothing at this path, or values of one shape. -/
def AgreeAt (original edited : Json N) (steps : List JsonStep) : Prop :=
  Option.Rel SameShape (valueAt steps original) (valueAt steps edited)

/-- Values that are not replaced as a whole have one shape. -/
theorem sameShape_iff {original edited : Json N} : SameShape original edited ↔ ¬ ChangedAt original edited [] := by
  constructor
  · rintro hshape hchanged
    cases hchanged with
    | replaced hbeq hobjects harrays =>
        cases original <;> cases edited <;> simp_all [SameShape, Json.beq]
  · intro hsame
    by_contra hshape
    refine hsame (.replaced ?_ ?_ ?_)
    · cases original <;> cases edited <;> simp_all [SameShape, Json.beq]
    · rintro _ _ ⟨rfl, rfl⟩
      exact hshape trivial
    · rintro _ _ ⟨rfl, rfl⟩
      exact hshape trivial

theorem agreeAt_cons {original edited value value' : Json N} {step : JsonStep}
    (hvalue : childAt step original = some value) (hvalue' : childAt step edited = some value')
    (steps : List JsonStep) : AgreeAt original edited (step :: steps) ↔ AgreeAt value value' steps := by
  unfold AgreeAt
  rw [valueAt, valueAt, hvalue, hvalue']
  rfl

omit [BEq N] in
/-- A step finds something in a container of its kind only. -/
theorem childAt_eq_some {step : JsonStep} {value found : Json N} (h : childAt step value = some found) :
    (∃ key members, step = .key key ∧ value = .object members ∧ members.lookup key = some found)
      ∨ ∃ index items, step = .index index ∧ value = .array items ∧ items[index]? = some found := by
  cases step <;> cases value <;> first | exact absurd h (Option.some_ne_none _).symm | skip
  · exact Or.inl ⟨_, _, rfl, rfl, h⟩
  · exact Or.inr ⟨_, _, rfl, rfl, h⟩

theorem ChangedAt.cons {original edited value value' : Json N} {step : JsonStep} {steps : List JsonStep}
    (hvalue : childAt step original = some value) (hvalue' : childAt step edited = some value')
    (h : ChangedAt value value' steps) : ChangedAt original edited (step :: steps) := by
  rcases childAt_eq_some hvalue with ⟨key, members, rfl, rfl, hmember⟩ | ⟨index, items, rfl, rfl, hitem⟩
  · rcases childAt_eq_some hvalue' with ⟨_, members', ⟨⟩, rfl, hmember'⟩ | ⟨_, _, ⟨⟩, _⟩
    exact .member hmember hmember' h
  · rcases childAt_eq_some hvalue' with ⟨_, _, ⟨⟩, _⟩ | ⟨_, items', ⟨⟩, rfl, hitem'⟩
    exact .item hitem hitem' h

/-- What only one of two containers of a kind has is a difference. -/
theorem changedAt_removed {original edited value : Json N} (hshape : SameShape original edited) {step : JsonStep}
    (hvalue : childAt step original = some value) (hnone : childAt step edited = none) :
    ChangedAt original edited [step] := by
  rcases childAt_eq_some hvalue with ⟨key, members, rfl, rfl, hmember⟩ | ⟨index, items, rfl, rfl, hitem⟩
  · cases edited with
    | object members' => exact .removedMember hmember hnone
    | _ => exact hshape.elim
  · cases edited with
    | array items' =>
        exact .removedItem (List.getElem?_eq_some_iff.mp hitem).1 (List.getElem?_eq_none_iff.mp hnone)
    | _ => exact hshape.elim

theorem changedAt_added {original edited value : Json N} (hshape : SameShape original edited) {step : JsonStep}
    (hnone : childAt step original = none) (hvalue : childAt step edited = some value) :
    ChangedAt original edited [step] := by
  rcases childAt_eq_some hvalue with ⟨key, members, rfl, rfl, hmember⟩ | ⟨index, items, rfl, rfl, hitem⟩
  · cases original with
    | object members' => exact .addedMember hnone hmember
    | _ => exact hshape.elim
  · cases original with
    | array items' =>
        exact .addedItem (List.getElem?_eq_none_iff.mp hnone) (List.getElem?_eq_some_iff.mp hitem).1
    | _ => exact hshape.elim

/-- Two values do not agree where they differ. -/
theorem ChangedAt.not_agreeAt {original edited : Json N} {steps : List JsonStep}
    (h : ChangedAt original edited steps) : ¬ AgreeAt original edited steps := by
  -- on the way to the difference: the last step finds a value on one side only, or two shapes
  induction h with
  | replaced hbeq hobjects harrays =>
      rintro ⟨hshape⟩
      exact sameShape_iff.mp hshape (.replaced hbeq hobjects harrays)
  | @removedMember members members' key value hmember hmember' =>
      unfold AgreeAt
      rw [valueAt_key, valueAt_key, hmember, hmember']
      rintro ⟨⟩
  | @addedMember members members' key value hmember hmember' =>
      unfold AgreeAt
      rw [valueAt_key, valueAt_key, hmember, hmember']
      rintro ⟨⟩
  | @member members members' key value value' steps hmember hmember' _ ih =>
      have hcons := @agreeAt_cons N _ (.object members) (.object members') _ _ (.key key) hmember hmember' steps
      exact fun hagree => ih (hcons.mp hagree)
  | removedItem hlt hle =>
      unfold AgreeAt
      rw [valueAt_index, valueAt_index, List.getElem?_eq_getElem hlt, List.getElem?_eq_none hle]
      rintro ⟨⟩
  | addedItem hle hlt =>
      unfold AgreeAt
      rw [valueAt_index, valueAt_index, List.getElem?_eq_none hle, List.getElem?_eq_getElem hlt]
      rintro ⟨⟩
  | @item items items' index value value' steps hitem hitem' _ ih =>
      have hcons := @agreeAt_cons N _ (.array items) (.array items') _ _ (.index index) hitem hitem' steps
      exact fun hagree => ih (hcons.mp hagree)

/-- Two values agree where no way leads through a difference. -/
theorem agreeAt_of_not_changedAt {original edited : Json N} {steps : List JsonStep}
    (h : ∀ changed, ChangedAt original edited changed → ¬ changed <+: steps) : AgreeAt original edited steps := by
  have hshape : SameShape original edited := sameShape_iff.mpr fun hchanged => h [] hchanged List.nil_prefix
  -- on the way: a step that exists on one side only, or leads to two shapes, would be a difference
  induction steps generalizing original edited with
  | nil => exact .some hshape
  | cons step steps ih =>
      have hstep : ¬ ChangedAt original edited [step] :=
        fun hchanged => h [step] hchanged (List.cons_prefix_cons.mpr ⟨rfl, List.nil_prefix⟩)
      cases hvalue : childAt step original with
      | none =>
          cases hvalue' : childAt step edited with
          | none =>
              unfold AgreeAt
              rw [valueAt, valueAt, hvalue, hvalue']
              exact .none
          | some value' => exact absurd (changedAt_added hshape hvalue hvalue') hstep
      | some value =>
          cases hvalue' : childAt step edited with
          | none => exact absurd (changedAt_removed hshape hvalue hvalue') hstep
          | some value' =>
              have hbelow : ∀ changed, ChangedAt value value' changed → ¬ changed <+: steps :=
                fun changed hchanged hprefix =>
                  h _ (hchanged.cons hvalue hvalue') (List.cons_prefix_cons.mpr ⟨rfl, hprefix⟩)
              exact (agreeAt_cons hvalue hvalue' steps).mpr
                (ih hbelow (sameShape_iff.mpr fun hchanged => hbelow [] hchanged List.nil_prefix))

/-- Values that agree everywhere have values that agree everywhere. -/
theorem agreeAt_children {original edited : Json N} (h : ∀ steps, AgreeAt original edited steps) (step : JsonStep) :
    Option.Rel (fun value value' => ∀ steps, AgreeAt value value' steps) (childAt step original)
      (childAt step edited) := by
  have hstep := h [step]
  unfold AgreeAt at hstep
  cases hvalue : childAt step original with
  | none =>
      rw [valueAt_singleton hvalue] at hstep
      cases hvalue' : childAt step edited with
      | none => exact .none
      | some value' =>
          rw [valueAt_singleton hvalue'] at hstep
          cases hstep
  | some value =>
      rw [valueAt_singleton hvalue] at hstep
      cases hvalue' : childAt step edited with
      | none =>
          rw [valueAt_singleton hvalue'] at hstep
          cases hstep
      | some value' => exact .some fun steps => (agreeAt_cons hvalue hvalue' steps).mp (h (step :: steps))

theorem AgreeAt.sameShape {original edited : Json N} (h : AgreeAt original edited []) : SameShape original edited := by
  cases h with
  | some hshape => exact hshape

omit [BEq N] in
/-- Lists with items at the same indices are of one length. -/
theorem length_eq_of_rel {R : Json N → Json N → Prop} {items items' : List (Json N)}
    (h : ∀ index : Nat, Option.Rel R items[index]? items'[index]?) : items.length = items'.length := by
  have hend := h items.length
  have hend' := h items'.length
  rw [List.getElem?_eq_none (Nat.le_refl _)] at hend hend'
  cases hle : items'[items.length]? with
  | some item' => rw [hle] at hend; cases hend
  | none =>
      cases hle' : items[items'.length]? with
      | some item => rw [hle'] at hend'; cases hend'
      | none => exact Nat.le_antisymm (List.getElem?_eq_none_iff.mp hle') (List.getElem?_eq_none_iff.mp hle)

/-- **Values that agree everywhere are equal.** -/
theorem beq_of_agreeAt {original edited : Json N} (horiginal : original.WellFormed) (hedited : edited.WellFormed)
    (h : ∀ steps, AgreeAt original edited steps) : original.beq edited = true := by
  have hshape : SameShape original edited := (h []).sameShape
  -- agreement below every index and key is what equality of arrays and objects asks of their children
  induction original using Json.induction generalizing edited with
  | array items ih =>
      cases edited with
      | array items' =>
          have hchildren : ∀ index, Option.Rel (fun item item' => ∀ steps, AgreeAt item item' steps)
              items[index]? items'[index]? := fun index => agreeAt_children h (.index index)
          rw [Json.beq, Json.beqItems_iff, List.forall₂_iff_get]
          refine ⟨length_eq_of_rel hchildren, fun index hlt hlt' => ?_⟩
          have hitem := hchildren index
          rw [List.getElem?_eq_getElem hlt, List.getElem?_eq_getElem hlt'] at hitem
          cases hitem with
          | some hagree =>
              exact ih _ (List.getElem_mem hlt) (horiginal.items _ (List.getElem_mem hlt))
                (hedited.items _ (List.getElem_mem hlt')) hagree (hagree []).sameShape
      | _ => exact hshape.elim
  | object members ih =>
      cases edited with
      | object members' =>
          refine Json.beq_object horiginal.keys hedited.keys fun key => ?_
          have hchild : Option.Rel (fun value value' => ∀ steps, AgreeAt value value' steps) (members.lookup key)
              (members'.lookup key) := agreeAt_children h (.key key)
          cases hlookup : members.lookup key with
          | none =>
              cases hlookup' : members'.lookup key with
              | none => exact .none
              | some value' => rw [hlookup, hlookup'] at hchild; cases hchild
          | some value =>
              cases hlookup' : members'.lookup key with
              | none => rw [hlookup, hlookup'] at hchild; cases hchild
              | some value' =>
                  rw [hlookup, hlookup'] at hchild
                  cases hchild with
                  | some hagree =>
                      exact .some (ih (key, value) (Members.mem_of_lookup hlookup) (horiginal.lookup hlookup)
                        (hedited.lookup hlookup') hagree (hagree []).sameShape)
      | _ => exact hshape.elim
  | null => cases edited <;> first | rfl | exact hshape.elim
  | bool b => cases edited <;> first | exact beq_iff_eq.mpr hshape | exact hshape.elim
  | number n => cases edited <;> first | exact hshape | exact hshape.elim
  | string s => cases edited <;> first | exact beq_iff_eq.mpr hshape | exact hshape.elim

/-! ### The shape of a diff -/

variable (serde) in
/-- What the events of a diff say about two values. -/
structure DiffShape (original edited : Json N) (events : List DiffEvent) : Prop where
  none_iff_eq : events = [] ↔ original.beq edited = true
  none_iff_agree : events = [] ↔ ∀ steps, AgreeAt original edited steps
  apart : events.Pairwise Apart
  values : ∀ event ∈ events, ∃ steps, EventOf serde original edited [] steps event
  elsewhere : ∀ steps, (∀ event ∈ events, ¬ event.path.segments <+: .body :: steps.map JsonStep.segment) →
    AgreeAt original edited steps

/-- **The events of a diff** are the values at which two JSON values differ, and no two of them overlap. -/
theorem diffShape_diffJsonValue {original edited : Json N} (horiginal : original.WellFormed)
    (hedited : edited.WellFormed) : DiffShape serde original edited (diffJsonValue serde [] original edited) := by
  -- every difference has an event, so where no event leads the values agree
  have helsewhere : ∀ steps, (∀ event ∈ diffJsonValue serde [] original edited,
      ¬ event.path.segments <+: .body :: steps.map JsonStep.segment) → AgreeAt original edited steps := by
    intro steps hevents
    refine agreeAt_of_not_changedAt fun changed hchanged hprefix => ?_
    obtain ⟨event, hmem, hevent⟩ := @exists_event_of_changedAt N _ serde _ _ horiginal _ hchanged []
    refine hevents event hmem ?_
    rw [hevent.segments, List.cons_prefix_cons]
    exact ⟨rfl, hprefix.map _⟩
  have hagree : diffJsonValue serde [] original edited = [] ↔ ∀ steps, AgreeAt original edited steps := by
    constructor
    · intro hnil steps
      refine helsewhere steps fun event hmem => ?_
      rw [hnil] at hmem
      cases hmem
    · intro hagree
      by_contra hne
      obtain ⟨event, hmem⟩ := List.exists_mem_of_ne_nil _ hne
      obtain ⟨steps, hchanged, -⟩ := @changedAt_of_mem_diffJsonValue N _ serde _ _ horiginal hedited [] _ hmem
      exact hchanged.not_agreeAt (hagree steps)
  refine ⟨⟨fun hnil => beq_of_agreeAt horiginal hedited (hagree.mp hnil), ?_⟩, hagree,
    pairwise_diffJsonValue horiginal hedited [], ?_, helsewhere⟩
  · intro hbeq
    unfold diffJsonValue
    exact if_pos hbeq
  · intro event hmem
    obtain ⟨steps, -, hevent⟩ := @changedAt_of_mem_diffJsonValue N _ serde _ _ horiginal hedited [] _ hmem
    exact ⟨steps, hevent⟩

/-- A value that changes inside an array that grows. -/
theorem diffShape_grown_array : DiffShape JsonCodec.codec (.array [.bool true]) (.array [.bool false, .null])
    (diffJsonValue JsonCodec.codec [] (.array [.bool true]) (.array [.bool false, .null])) := by
  refine diffShape_diffJsonValue (.array fun item hmem => ?_) (.array fun item hmem => ?_)
  · rw [List.mem_singleton.mp hmem]
    exact .bool true
  · rcases List.mem_cons.mp hmem with rfl | hmem
    · exact .bool false
    · rw [List.mem_singleton.mp hmem]
      exact .null

end Changes

end Inspect.Filters
