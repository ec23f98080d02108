import Inspect.Filters.Correctness.JsonDiff

/-!
# `Filters.Correctness.JsonPatchCodec` — JSON patch operations and their pointers as text

What a list of operations becomes when it is written as RFC 6902 JSON and read back: the same list, every value in its
canonical text. And the pointer of a path is decoded to the steps of the path.
-/

namespace Inspect.Filters

open Rfc6902 GeneratedJsonPatchOperation

/-! ## Pointers -/

/-- Whether a step is a key. -/
def JsonStep.isKey : JsonStep → Bool
  | .key _ => true
  | .index _ => false

/-- Steps of the same kind with the same token are the same. -/
theorem JsonStep.eq_of_token {step step' : JsonStep} (hkind : step.isKey = step'.isKey)
    (htoken : step.token = step'.token) : step = step' := by
  cases step with
  | key key =>
      cases step' with
      | key key' => exact congrArg JsonStep.key htoken
      | index index' => cases hkind
  | index index =>
      cases step' with
      | key key' => cases hkind
      | index index' =>
          have hdigits : Nat.toDigits 10 index = Nat.toDigits 10 index' := htoken
          have hindex : some index = some index' := by
            rw [← parseIndex_toDigits index, hdigits, parseIndex_toDigits index']
          exact congrArg JsonStep.index (Option.some.inj hindex)

theorem eq_of_map_token {steps steps' : List JsonStep} (hkinds : steps.map JsonStep.isKey = steps'.map JsonStep.isKey)
    (htokens : steps.map JsonStep.token = steps'.map JsonStep.token) : steps = steps' := by
  induction steps generalizing steps' with
  | nil => exact (List.map_eq_nil_iff.mp htokens.symm).symm
  | cons step steps ih =>
      cases steps' with
      | nil => cases hkinds
      | cons step' steps' =>
          obtain ⟨hkind, hkinds⟩ := List.cons.inj hkinds
          obtain ⟨htoken, htokens⟩ := List.cons.inj htokens
          rw [JsonStep.eq_of_token hkind htoken, ih hkinds htokens]

/-- **The pointer of a path below the body** is decoded to the keys and the decimal indices of the path, in order. Two
    paths of the same kinds of steps have the same pointer only if they are the same. -/
theorem jsonPointerFromDiffPath_faithful :
    (∀ steps : List JsonStep, ∃ pointer,
      jsonPointerFromDiffPath (.bodyJson (steps.map JsonStep.segment)) = some pointer
        ∧ decodePointer pointer = some (steps.map JsonStep.token))
    ∧ ∀ steps steps' : List JsonStep, steps.map JsonStep.isKey = steps'.map JsonStep.isKey → steps ≠ steps' →
        jsonPointerFromDiffPath (.bodyJson (steps.map JsonStep.segment))
          ≠ jsonPointerFromDiffPath (.bodyJson (steps'.map JsonStep.segment)) := by
  constructor
  · intro steps
    exact ⟨_, jsonPointerFromDiffPath_bodyJson steps, decodePointer_renderPointer _⟩
  · intro steps steps' hkinds hne hpointer
    rw [jsonPointerFromDiffPath_bodyJson, jsonPointerFromDiffPath_bodyJson] at hpointer
    refine hne (eq_of_map_token hkinds (Option.some.inj ?_))
    calc
      some (steps.map JsonStep.token) = decodePointer (renderPointer (steps.map JsonStep.token)) :=
        (decodePointer_renderPointer _).symm
      _ = decodePointer (renderPointer (steps'.map JsonStep.token)) := congrArg _ (Option.some.inj hpointer)
      _ = some (steps'.map JsonStep.token) := decodePointer_renderPointer _

/-- Two keys that are full of escapes. -/
theorem jsonPointerFromDiffPath_escapes :
    (∃ pointer, jsonPointerFromDiffPath (.bodyJson ([JsonStep.key "~1".toList, .index 7].map JsonStep.segment))
        = some pointer ∧ decodePointer pointer = some ["~1".toList, "7".toList])
    ∧ jsonPointerFromDiffPath (.bodyJson ([JsonStep.key "~1".toList].map JsonStep.segment))
        ≠ jsonPointerFromDiffPath (.bodyJson ([JsonStep.key "/".toList].map JsonStep.segment)) :=
  ⟨jsonPointerFromDiffPath_faithful.1 [.key "~1".toList, .index 7],
    jsonPointerFromDiffPath_faithful.2 [.key "~1".toList] [.key "/".toList] rfl (by decide)⟩

/-! ## Operations -/

section Codec

variable {N : Type} (serde : SerdeJson N)

/-- The canonical text of a value: that of the JSON it is, or else of the JSON string that holds it. -/
def canonicalText (value : Str) : Str :=
  match serde.fromStr value with
  | some json => serde.toString json
  | none => serde.toString (.string value)

/-- An operation with its value in its canonical text. -/
def canonical : GeneratedJsonPatchOperation → GeneratedJsonPatchOperation
  | .add path value => .add path (canonicalText serde value)
  | .remove path => .remove path
  | .replace path value => .replace path (canonicalText serde value)
  | .move source path => .move source path

theorem jsonPatchValueToString_parse (value : Str) :
    jsonPatchValueToString serde (parseJsonPatchValue serde value) = canonicalText serde value := by
  unfold jsonPatchValueToString parseJsonPatchValue canonicalText
  cases serde.fromStr value with
  | none => rfl
  | some json => rfl

theorem field_cons (key key' : Str) (value : Json N) (members : List (Str × Json N)) :
    field (.object ((key', value) :: members)) key = if key = key' then some value else field (.object members) key :=
  Members.lookup_cons_eq key key' value members

/-- The members that every operation but a move starts with. -/
theorem field_object (op path : Str) (rest : List (Str × Json N)) :
    (field (.object (("op".toList, .string op) :: ("path".toList, .string path) :: rest)) "op".toList).bind asStr
        = some op
      ∧ (field (.object (("op".toList, .string op) :: ("path".toList, .string path) :: rest)) "path".toList).bind asStr
        = some path := by
  have hpath : "path".toList ≠ "op".toList := by simp
  rw [field_cons, if_pos rfl, field_cons, if_neg hpath, field_cons, if_pos rfl]
  exact ⟨rfl, rfl⟩

theorem field_value (op path : Str) (value : Json N) :
    field (.object [("op".toList, .string op), ("path".toList, .string path), ("value".toList, value)]) "value".toList
      = some value := by
  have hop : "value".toList ≠ "op".toList := by simp
  have hpath : "value".toList ≠ "path".toList := by simp
  rw [field_cons, if_neg hop, field_cons, if_neg hpath, field_cons, if_pos rfl]

/-- One operation, read back. -/
theorem fromRfc6902Value_toRfc6902Value (operation : GeneratedJsonPatchOperation) :
    fromRfc6902Value serde (toRfc6902Value serde operation) = some (canonical serde operation) := by
  have hremoveAdd : "remove".toList ≠ "add".toList := by simp
  have hreplaceAdd : "replace".toList ≠ "add".toList := by simp
  have hreplaceRemove : "replace".toList ≠ "remove".toList := by simp
  cases operation with
  | add path value =>
      obtain ⟨hop, hpath⟩ := field_object "add".toList path [("value".toList, parseJsonPatchValue serde value)]
      rw [toRfc6902Value, fromRfc6902Value, hop, Option.bind_some, if_pos rfl, hpath, Option.bind_some, field_value,
        Option.map_some, jsonPatchValueToString_parse]
      rfl
  | remove path =>
      obtain ⟨hop, hpath⟩ := @field_object N "remove".toList path []
      rw [toRfc6902Value, fromRfc6902Value, hop, Option.bind_some, if_neg hremoveAdd, if_pos rfl, hpath]
      rfl
  | replace path value =>
      obtain ⟨hop, hpath⟩ := field_object "replace".toList path [("value".toList, parseJsonPatchValue serde value)]
      rw [toRfc6902Value, fromRfc6902Value, hop, Option.bind_some, if_neg hreplaceAdd, if_neg hreplaceRemove,
        if_pos rfl, hpath, Option.bind_some, field_value, Option.map_some, jsonPatchValueToString_parse]
      rfl
  | move source path =>
      have hadd : "move".toList ≠ "add".toList := by simp
      have hremove : "move".toList ≠ "remove".toList := by simp
      have hreplace : "move".toList ≠ "replace".toList := by simp
      have hfrom : "from".toList ≠ "op".toList := by simp
      have hpathOp : "path".toList ≠ "op".toList := by simp
      have hpathFrom : "path".toList ≠ "from".toList := by simp
      rw [toRfc6902Value, fromRfc6902Value, field_cons, if_pos rfl, Option.bind_some, asStr, Option.bind_some,
        if_neg hadd, if_neg hremove, if_neg hreplace, if_pos rfl, field_cons, if_neg hfrom, field_cons, if_pos rfl,
        Option.bind_some, asStr, Option.bind_some, field_cons, if_neg hpathOp, field_cons, if_neg hpathFrom,
        field_cons, if_pos rfl]
      rfl

variable [BEq N] {serde}

/-- The canonical text stands for the same value. -/
theorem parseJsonPatchValue_canonicalText (hlaws : serde.Laws) (hfaithful : serde.Faithful) (value : Str) :
    parseJsonPatchValue serde (canonicalText serde value) = parseJsonPatchValue serde value := by
  unfold parseJsonPatchValue canonicalText
  cases hparse : serde.fromStr value with
  | none =>
      dsimp only
      rw [hfaithful.fromStr_toString (Json.WellFormed.string value)]
      rfl
  | some json =>
      dsimp only
      rw [hfaithful.fromStr_toString (hlaws.fromStr_wellFormed hparse)]
      rfl

theorem toRfc6902Value_canonical (hlaws : serde.Laws) (hfaithful : serde.Faithful)
    (operation : GeneratedJsonPatchOperation) :
    toRfc6902Value serde (canonical serde operation) = toRfc6902Value serde operation := by
  cases operation with
  | add path value =>
      rw [canonical, toRfc6902Value, parseJsonPatchValue_canonicalText hlaws hfaithful, toRfc6902Value]
  | remove path => rfl
  | replace path value =>
      rw [canonical, toRfc6902Value, parseJsonPatchValue_canonicalText hlaws hfaithful, toRfc6902Value]
  | move source path => rfl

/-- **What is written is read back**: as many operations, in the same order, each of its kind and with its paths, its
    value in canonical text. Written again, they give the same JSON. -/
theorem jsonPatchOperations_codec (hlaws : serde.Laws) (hfaithful : serde.Faithful)
    (operations : List GeneratedJsonPatchOperation) :
    jsonPatchOperationsFromRfc6902Json serde (jsonPatchOperationsToRfc6902Json serde operations)
        = operations.map (canonical serde)
      ∧ jsonPatchOperationsToRfc6902Json serde
          (jsonPatchOperationsFromRfc6902Json serde (jsonPatchOperationsToRfc6902Json serde operations))
        = jsonPatchOperationsToRfc6902Json serde operations := by
  have hwf : (Json.array (operations.map (toRfc6902Value serde))).WellFormed := by
    apply Json.WellFormed.array
    intro item hmem
    obtain ⟨operation, -, rfl⟩ := List.mem_map.mp hmem
    exact toRfc6902Value_wellFormed hlaws operation
  -- no entry is dropped, as every one is an operation that was written
  have hread : jsonPatchOperationsFromRfc6902Json serde (jsonPatchOperationsToRfc6902Json serde operations)
      = operations.map (canonical serde) := by
    rw [jsonPatchOperationsFromRfc6902Json, jsonPatchOperationsToRfc6902Json,
      hfaithful.fromStr_toStringPretty hwf]
    dsimp only
    rw [List.filterMap_map, ← List.filterMap_eq_map]
    congr 1
    funext operation
    exact fromRfc6902Value_toRfc6902Value serde operation
  refine ⟨hread, ?_⟩
  have hsame : toRfc6902Value serde ∘ canonical serde = toRfc6902Value serde :=
    funext fun operation => toRfc6902Value_canonical hlaws hfaithful operation
  rw [hread, jsonPatchOperationsToRfc6902Json, List.map_map, hsame, jsonPatchOperationsToRfc6902Json]

end Codec

/-- A value that is not JSON becomes a JSON string. -/
theorem jsonPatchOperations_codec_text :
    jsonPatchOperationsFromRfc6902Json JsonCodec.codec (jsonPatchOperationsToRfc6902Json JsonCodec.codec
        [.move "/a".toList "/b".toList, .add "/c".toList "x".toList])
      = [.move "/a".toList "/b".toList, .add "/c".toList "\"x\"".toList] :=
  (jsonPatchOperations_codec JsonCodec.codec_laws JsonCodec.codec_faithful
    [.move "/a".toList "/b".toList, .add "/c".toList "x".toList]).1.trans (by decide +kernel)

end Inspect.Filters
