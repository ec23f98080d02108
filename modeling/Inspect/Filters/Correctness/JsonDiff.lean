import Inspect.Filters.Engine.JsonCapture
import Inspect.Filters.Correctness.JsonPatchRun
import Inspect.Lib.Json.Codec
import Inspect.Lib.Sorting

/-!
# `Filters.Correctness.JsonDiff` — the diff of two JSON bodies, applied

The events of `diff_json_value` carry diff paths and texts; `patchOf` is the same patch over values. This
module carries the one to the other: pointers are rendered and parsed, values are printed and parsed (`readBack`), and
`decodePatch_mapNumbers` says that the JSON patch written for two values is `patchOf`, with the values it carries as
they are read back and with the numbers of the document as they are read.

The diff is then right on exactly the pairs that do not shrink (`PatchYields`).
-/

namespace Inspect.Filters

open Rfc6902 GeneratedJsonPatchOperation

/-! ## Paths -/

/-- One step into a JSON value. -/
inductive JsonStep
  | key (key : Str)
  | index (index : Nat)
deriving DecidableEq

/-- The diff path segment of a step. -/
def JsonStep.segment : JsonStep → DiffPathSegment
  | .key name => .jsonKey name
  | .index i => .jsonIndex i

/-- The reference token of a step. -/
def JsonStep.token : JsonStep → Str
  | .key name => name
  | .index i => Nat.toDigits 10 i

theorem segment_key (steps : List JsonStep) (key : Str) :
    steps.map JsonStep.segment ++ [.jsonKey key] = (steps ++ [JsonStep.key key]).map JsonStep.segment := by
  rw [List.map_append]
  rfl

theorem segment_index (steps : List JsonStep) (index : Nat) :
    steps.map JsonStep.segment ++ [.jsonIndex index]
      = (steps ++ [JsonStep.index index]).map JsonStep.segment := by
  rw [List.map_append]
  rfl

/-- The two replacements of `escape_json_pointer_segment` are the escape of RFC 6901. -/
theorem escapeJsonPointerSegment_eq (segment : Str) :
    escapeJsonPointerSegment segment = escapeToken segment := by
  induction segment with
  | nil => rfl
  | cons c segment ih =>
      unfold escapeJsonPointerSegment Text.replaceChar escapeToken at ih ⊢
      rw [List.flatMap_cons, List.flatMap_append, List.flatMap_cons, ih]
      congr 1
      by_cases htilde : c = '~'
      · subst htilde; rfl
      · simp [htilde]

theorem escapeToken_toDigits (index : Nat) :
    escapeToken (Nat.toDigits 10 index) = Nat.toDigits 10 index := by
  have hdigits := @Text.isDigit_of_mem_decimal index
  unfold escapeToken
  generalize Nat.toDigits 10 index = digits at hdigits ⊢
  induction digits with
  | nil => rfl
  | cons c digits ih =>
      have hc := hdigits c List.mem_cons_self
      have htilde : c ≠ '~' := by rintro rfl; exact absurd hc (by decide)
      have hslash : c ≠ '/' := by rintro rfl; exact absurd hc (by decide)
      rw [List.flatMap_cons, if_neg htilde, if_neg hslash,
        ih fun c hmem => hdigits c (List.mem_cons_of_mem _ hmem)]
      rfl

/-- The pointer of a path below the body. -/
theorem jsonPointerFromDiffPath_bodyJson (steps : List JsonStep) :
    jsonPointerFromDiffPath (.bodyJson (steps.map JsonStep.segment))
      = some (renderPointer (steps.map JsonStep.token)) := by
  have hloop : ∀ steps : List JsonStep, jsonPointerLoop true (steps.map JsonStep.segment)
      = (true, renderPointer (steps.map JsonStep.token)) := by
    intro steps
    induction steps with
    | nil => rfl
    | cons step steps ih =>
        cases step with
        | key key =>
            simp only [List.map_cons, JsonStep.segment, jsonPointerLoop, ih,
              escapeJsonPointerSegment_eq]
            rfl
        | index index =>
            simp only [List.map_cons, JsonStep.segment, jsonPointerLoop, ih]
            rw [← escapeToken_toDigits]
            rfl
  unfold jsonPointerFromDiffPath DiffPath.bodyJson
  dsimp only
  rw [jsonPointerLoop, hloop]

/-! ## Events as operations -/

section Operations

variable {N : Type}

variable (serde : SerdeJson N)

/-- A value as it is written into an event and read back from the operation. -/
def readBack (value : Json N) : Json N :=
  parseJsonPatchValue serde (diffNodeToJsonPatchValue serde (jsonValueToDiffNode serde value))

/-- The operation with its value read back, and with all of `tokens` put before its paths. -/
def written (tokens : List Str) (operation : Operation N) : Operation N :=
  tokens.foldr Operation.under (operation.mapValue (readBack serde))

theorem written_cons (token : Str) (tokens : List Str) (operation : Operation N) :
    written serde (token :: tokens) operation = (written serde tokens operation).under token := rfl

theorem written_under (tokens : List Str) (token : Str) (operation : Operation N) :
    written serde tokens (operation.under token) = written serde (tokens ++ [token]) operation := by
  simp [written, Operation.mapValue_under]

theorem written_add (tokens path : List Str) (value : Json N) :
    written serde tokens (.add path value) = .add (tokens ++ path) (readBack serde value) := by
  induction tokens with
  | nil => rfl
  | cons token tokens ih =>
      rw [written_cons, ih]
      rfl

theorem written_remove (tokens path : List Str) :
    written serde tokens (.remove path : Operation N) = .remove (tokens ++ path) := by
  induction tokens with
  | nil => rfl
  | cons token tokens ih =>
      rw [written_cons, ih]
      rfl

theorem written_replace (tokens path : List Str) (value : Json N) :
    written serde tokens (.replace path value) = .replace (tokens ++ path) (readBack serde value) := by
  induction tokens with
  | nil => rfl
  | cons token tokens ih =>
      rw [written_cons, ih]
      rfl

/-- The RFC 6902 operations that a list of events is turned into. -/
def decodeEvents (events : List DiffEvent) : Option (List (Operation N)) :=
  ((jsonPatchOperationsFromDiffEvents serde events).map (toRfc6902Value serde)).mapM decodeOperation

variable {serde}

theorem decodeEvents_append {events events' : List DiffEvent} {operations operations' : List (Operation N)}
    (h : decodeEvents serde events = some operations)
    (h' : decodeEvents serde events' = some operations') :
    decodeEvents serde (events ++ events') = some (operations ++ operations') := by
  unfold decodeEvents jsonPatchOperationsFromDiffEvents at h h' ⊢
  rw [List.filterMap_append, List.map_append, List.mapM_append, h, h']
  rfl

/-! ### Reading an operation back -/

section Decode

section Fields

variable (path : Str) (value : Json N)

/-- An operation with a value, in a patch document. -/
theorem field_valued (op : Str) :
    field (.object [("op".toList, .string op), ("path".toList, .string path), ("value".toList, value)]) "op".toList
        = some (.string op)
      ∧ field (.object [("op".toList, .string op), ("path".toList, .string path), ("value".toList, value)])
          "path".toList = some (.string path)
      ∧ field (.object [("op".toList, .string op), ("path".toList, .string path), ("value".toList, value)])
          "value".toList = some value := by
  simp [field, Members.lookup_cons_eq]

theorem decodeOperation_add :
    decodeOperation (.object [("op".toList, .string "add".toList), ("path".toList, .string path),
        ("value".toList, value)])
      = (parsePointer path).map fun tokens => .add tokens value := by
  obtain ⟨hop, hpath, hvalue⟩ := field_valued path value "add".toList
  unfold decodeOperation pointerField
  rw [hop, hpath, hvalue]
  simp only [Option.bind_some, asStr, if_true, Option.map_eq_bind]
  rfl

theorem decodeOperation_replace :
    decodeOperation (.object [("op".toList, .string "replace".toList), ("path".toList, .string path),
        ("value".toList, value)])
      = (parsePointer path).map fun tokens => .replace tokens value := by
  obtain ⟨hop, hpath, hvalue⟩ := field_valued path value "replace".toList
  have hadd : "replace".toList ≠ "add".toList := by simp
  have hremove : "replace".toList ≠ "remove".toList := by simp
  unfold decodeOperation pointerField
  rw [hop, hpath, hvalue]
  simp only [Option.bind_some, asStr, if_neg hadd, if_neg hremove, if_true, Option.map_eq_bind]
  rfl

end Fields

variable (serde) (path value : Str)

theorem decodeOperation_remove :
    decodeOperation (toRfc6902Value serde (.remove path)) = (parsePointer path).map .remove := by
  have hop : field (toRfc6902Value serde (.remove path)) "op".toList = some (.string "remove".toList) := by
    simp [toRfc6902Value, field]
  have hpath : field (toRfc6902Value serde (.remove path)) "path".toList = some (.string path) := by
    simp [toRfc6902Value, field, Members.lookup_cons_eq]
  have hadd : "remove".toList ≠ "add".toList := by simp
  unfold decodeOperation pointerField
  rw [hop, hpath]
  simp only [Option.bind_some, asStr, if_neg hadd, if_true]

theorem decodeOperation_move (source : Str) :
    decodeOperation (toRfc6902Value serde (.move source path))
      = (parsePointer source).bind fun source => (parsePointer path).map (.move source) := by
  have hop : field (toRfc6902Value serde (.move source path)) "op".toList = some (.string "move".toList) := by
    simp [toRfc6902Value, field]
  have hsource : field (toRfc6902Value serde (.move source path)) "from".toList = some (.string source) := by
    simp [toRfc6902Value, field, Members.lookup_cons_eq]
  have hpath : field (toRfc6902Value serde (.move source path)) "path".toList = some (.string path) := by
    simp [toRfc6902Value, field, Members.lookup_cons_eq]
  have hadd : "move".toList ≠ "add".toList := by simp
  have hremove : "move".toList ≠ "remove".toList := by simp
  have hreplace : "move".toList ≠ "replace".toList := by simp
  unfold decodeOperation pointerField
  rw [hop, hsource, hpath]
  simp only [Option.bind_some, asStr, if_neg hadd, if_neg hremove, if_neg hreplace, if_true]

variable {serde}

/-- An operation lies one level deeper than its value. -/
theorem depth_toRfc6902Value {operation : GeneratedJsonPatchOperation} {decoded : Operation N}
    (h : decodeOperation (toRfc6902Value serde operation) = some decoded) :
    (toRfc6902Value serde operation).depth = decoded.value?.elim 0 Json.depth + 1 := by
  cases operation with
  | add path value =>
      rw [toRfc6902Value, decodeOperation_add] at h
      obtain ⟨tokens, -, rfl⟩ := Option.map_eq_some_iff.mp h
      simp [toRfc6902Value, Json.depth, Json.depthMembers, Operation.value?]
  | remove path =>
      rw [decodeOperation_remove] at h
      obtain ⟨tokens, -, rfl⟩ := Option.map_eq_some_iff.mp h
      simp [toRfc6902Value, Json.depth, Json.depthMembers, Operation.value?]
  | replace path value =>
      rw [toRfc6902Value, decodeOperation_replace] at h
      obtain ⟨tokens, -, rfl⟩ := Option.map_eq_some_iff.mp h
      simp [toRfc6902Value, Json.depth, Json.depthMembers, Operation.value?]
  | move source path =>
      rw [decodeOperation_move] at h
      obtain ⟨source, -, h⟩ := Option.bind_eq_some_iff.mp h
      obtain ⟨tokens, -, rfl⟩ := Option.map_eq_some_iff.mp h
      simp [toRfc6902Value, Json.depth, Json.depthMembers, Operation.value?]

/-- An operation whose numbers are replaced is read as the operation with those of its value replaced. -/
theorem decodeOperation_mapNumbers (f : N → Option N) {operation : GeneratedJsonPatchOperation} {decoded : Operation N}
    (h : decodeOperation (toRfc6902Value serde operation) = some decoded) :
    ((toRfc6902Value serde operation).mapNumbers f).bind decodeOperation = decoded.mapValueM (Json.mapNumbers f) := by
  cases operation with
  | add path value =>
      rw [toRfc6902Value, decodeOperation_add] at h
      obtain ⟨tokens, htokens, rfl⟩ := Option.map_eq_some_iff.mp h
      rw [toRfc6902Value, Operation.mapValueM]
      cases hvalue : (parseJsonPatchValue serde value).mapNumbers f with
      | none => simp [Json.mapNumbers, Json.mapNumbersMembers, hvalue]
      | some replaced =>
          have hadd := decodeOperation_add path replaced
          rw [htokens] at hadd
          simpa [Json.mapNumbers, Json.mapNumbersMembers, hvalue] using hadd
  | remove path =>
      obtain ⟨tokens, -, rfl⟩ := Option.map_eq_some_iff.mp ((decodeOperation_remove serde path).symm.trans h)
      exact h
  | replace path value =>
      rw [toRfc6902Value, decodeOperation_replace] at h
      obtain ⟨tokens, htokens, rfl⟩ := Option.map_eq_some_iff.mp h
      rw [toRfc6902Value, Operation.mapValueM]
      cases hvalue : (parseJsonPatchValue serde value).mapNumbers f with
      | none => simp [Json.mapNumbers, Json.mapNumbersMembers, hvalue]
      | some replaced =>
          have hreplace := decodeOperation_replace path replaced
          rw [htokens] at hreplace
          simpa [Json.mapNumbers, Json.mapNumbersMembers, hvalue] using hreplace
  | move source path =>
      obtain ⟨source', -, hmove⟩ := Option.bind_eq_some_iff.mp ((decodeOperation_move serde path source).symm.trans h)
      obtain ⟨tokens, -, rfl⟩ := Option.map_eq_some_iff.mp hmove
      exact h

end Decode

/-- One event that becomes one operation. -/
theorem decodeEvents_singleton {event : DiffEvent} {operation : GeneratedJsonPatchOperation}
    {decoded : Operation N} (hevent : jsonPatchOperationFromDiffEvent serde event = some operation)
    (hdecode : decodeOperation (toRfc6902Value serde operation) = some decoded) :
    decodeEvents serde [event] = some [decoded] := by
  rw [decodeEvents, jsonPatchOperationsFromDiffEvents, List.filterMap_cons, hevent]
  simp [hdecode]

theorem decodeEvents_delete (steps : List JsonStep) (old : Json N) :
    decodeEvents serde [deleteEvent serde (steps.map JsonStep.segment) old]
      = some [.remove (steps.map JsonStep.token)] := by
  have hdecode := decodeOperation_remove serde (renderPointer (steps.map JsonStep.token))
  rw [parsePointer_renderPointer, Option.map_some] at hdecode
  apply decodeEvents_singleton _ hdecode
  simp [jsonPatchOperationFromDiffEvent, deleteEvent, DiffEvent.source,
    jsonPointerFromDiffPath_bodyJson]

theorem decodeEvents_insert (steps : List JsonStep) (node : Json N) :
    decodeEvents serde [insertEvent serde (steps.map JsonStep.segment) node]
      = some [.add (steps.map JsonStep.token) (readBack serde node)] := by
  have hdecode : decodeOperation (toRfc6902Value serde (.add (renderPointer (steps.map JsonStep.token))
      (diffNodeToJsonPatchValue serde (jsonValueToDiffNode serde node)))) = _ :=
    decodeOperation_add (renderPointer (steps.map JsonStep.token)) (readBack serde node)
  rw [parsePointer_renderPointer, Option.map_some] at hdecode
  apply decodeEvents_singleton _ hdecode
  simp [jsonPatchOperationFromDiffEvent, insertEvent, DiffEvent.source,
    jsonPointerFromDiffPath_bodyJson]

theorem decodeEvents_replace (steps : List JsonStep) (old new : Json N) :
    decodeEvents serde [replaceEvent serde (steps.map JsonStep.segment) old new]
      = some [.replace (steps.map JsonStep.token) (readBack serde new)] := by
  have hdecode : decodeOperation (toRfc6902Value serde (.replace (renderPointer (steps.map JsonStep.token))
      (diffNodeToJsonPatchValue serde (jsonValueToDiffNode serde new)))) = _ :=
    decodeOperation_replace (renderPointer (steps.map JsonStep.token)) (readBack serde new)
  rw [parsePointer_renderPointer, Option.map_some] at hdecode
  apply decodeEvents_singleton _ hdecode
  simp [jsonPatchOperationFromDiffEvent, replaceEvent, DiffEvent.source,
    jsonPointerFromDiffPath_bodyJson]

/-- Events made one by one from a list. -/
theorem decodeEvents_map {A : Type} {items : List A} {event : A → DiffEvent}
    {operation : A → Operation N}
    (h : ∀ item ∈ items, decodeEvents serde [event item] = some [operation item]) :
    decodeEvents serde (items.map event) = some (items.map operation) := by
  induction items with
  | nil => rfl
  | cons item items ih =>
      have hrest := ih fun item hmem => h item (List.mem_cons_of_mem _ hmem)
      exact decodeEvents_append (h item List.mem_cons_self) hrest

/-! ## The events of a diff are the patch -/

theorem map_written_under (tokens : List Str) (token : Str) (operations : List (Operation N)) :
    (operations.map (·.under token)).map (written serde tokens)
      = operations.map (written serde (tokens ++ [token])) := by
  rw [List.map_map]
  exact List.map_congr_left fun operation _ => written_under serde tokens token operation

/-- The members of the edited object that the original does not have. -/
theorem decodeEvents_newMembers (steps : List JsonStep) (members : List (Str × Json N)) :
    decodeEvents serde (members.map fun member =>
        insertEvent serde (steps.map JsonStep.segment ++ [.jsonKey member.1]) member.2)
      = some ((members.map fun member => .add [member.1] member.2).map
          (written serde (steps.map JsonStep.token))) := by
  rw [List.map_map]
  apply decodeEvents_map
  intro member _
  have hinsert := @decodeEvents_insert N serde (steps ++ [.key member.1]) member.2
  simpa [JsonStep.segment, JsonStep.token, written_add] using hinsert

/-- The items of the original array beyond the edited one. -/
theorem decodeEvents_oldItems (steps : List JsonStep) (items : List (Json N × Nat)) :
    decodeEvents serde (items.map fun (item, idx) =>
        deleteEvent serde (steps.map JsonStep.segment ++ [.jsonIndex idx]) item)
      = some ((items.map fun (_, idx) => .remove [Nat.toDigits 10 idx]).map
          (written serde (steps.map JsonStep.token))) := by
  rw [List.map_map]
  apply decodeEvents_map
  rintro ⟨item, idx⟩ -
  have hdelete := @decodeEvents_delete N serde (steps ++ [.index idx]) item
  simpa [JsonStep.segment, JsonStep.token, written_remove] using hdelete

/-- The items of the edited array beyond the original one. -/
theorem decodeEvents_newItems (steps : List JsonStep) (items : List (Json N × Nat)) :
    decodeEvents serde (items.map fun (item, idx) =>
        insertEvent serde (steps.map JsonStep.segment ++ [.jsonIndex idx]) item)
      = some ((items.map fun (item, idx) => .add [Nat.toDigits 10 idx] item).map
          (written serde (steps.map JsonStep.token))) := by
  rw [List.map_map]
  apply decodeEvents_map
  rintro ⟨item, idx⟩ -
  have hinsert := @decodeEvents_insert N serde (steps ++ [.index idx]) item
  simpa [JsonStep.segment, JsonStep.token, written_add] using hinsert

variable [BEq N]

theorem decodeEvents_diffMembers {originalMap : List (Str × Json N)} (editedMap : List (Str × Json N))
    {steps : List JsonStep}
    (ih : ∀ member ∈ originalMap, ∀ (edited : Json N) (steps : List JsonStep),
      decodeEvents serde (diffJsonValue serde (steps.map JsonStep.segment) member.2 edited)
        = some ((patchOf member.2 edited).map (written serde (steps.map JsonStep.token)))) :
    decodeEvents serde (diffMembers serde (steps.map JsonStep.segment) originalMap editedMap)
      = some ((patchMembers originalMap editedMap).map (written serde (steps.map JsonStep.token))) := by
  induction originalMap with
  | nil => rfl
  | cons member originalMap ihMembers =>
      obtain ⟨key, originalValue⟩ := member
      rw [diffMembers, patchMembers, List.map_append]
      have hrest := ihMembers fun member hmem => ih member (List.mem_cons_of_mem _ hmem)
      refine decodeEvents_append ?_ hrest
      have htoken : (steps ++ [JsonStep.key key]).map JsonStep.token
          = steps.map JsonStep.token ++ [key] := by simp [JsonStep.token]
      rw [segment_key]
      cases hlookup : editedMap.lookup key with
      | some editedValue =>
          have hvalue := ih (key, originalValue) List.mem_cons_self editedValue (steps ++ [JsonStep.key key])
          rw [htoken] at hvalue
          rw [map_written_under]
          exact hvalue
      | none =>
          have hdelete := @decodeEvents_delete N serde (steps ++ [JsonStep.key key]) originalValue
          rw [htoken] at hdelete
          rw [List.map_singleton, written_remove]
          exact hdelete

theorem decodeEvents_diffItems {originalItems : List (Json N)} (editedItems : List (Json N)) {steps : List JsonStep}
    (ih : ∀ item ∈ originalItems, ∀ (edited : Json N) (steps : List JsonStep),
      decodeEvents serde (diffJsonValue serde (steps.map JsonStep.segment) item edited)
        = some ((patchOf item edited).map (written serde (steps.map JsonStep.token)))) (idx : Nat) :
    decodeEvents serde (diffItems serde (steps.map JsonStep.segment) idx originalItems editedItems)
      = some ((patchItems idx originalItems editedItems).map (written serde (steps.map JsonStep.token))) := by
  induction originalItems generalizing editedItems idx with
  | nil => rfl
  | cons item originalItems ihItems =>
      cases editedItems with
      | nil => rfl
      | cons item' editedItems =>
          rw [diffItems, patchItems, List.map_append, map_written_under]
          have hrest := ihItems editedItems (fun item hmem => ih item (List.mem_cons_of_mem _ hmem)) (idx + 1)
          refine decodeEvents_append ?_ hrest
          have hitem := ih item List.mem_cons_self item' (steps ++ [.index idx])
          simpa [JsonStep.segment, JsonStep.token] using hitem

/-- A value replaced as a whole. -/
theorem decodeEvents_diffJsonValue_replace {original edited : Json N} (steps : List JsonStep)
    (hdiff : diffJsonValue serde (steps.map JsonStep.segment) original edited
      = if original.beq edited then []
        else [replaceEvent serde (steps.map JsonStep.segment) original edited])
    (hpatch : patchOf original edited
      = if original.beq edited then [] else [.replace [] edited]) :
    decodeEvents serde (diffJsonValue serde (steps.map JsonStep.segment) original edited)
      = some ((patchOf original edited).map (written serde (steps.map JsonStep.token))) := by
  rw [hdiff, hpatch]
  split
  · rfl
  · rw [decodeEvents_replace, List.map_singleton, written_replace, List.append_nil]

/-- **The events of a diff are its patch**: written as operations and read back, they are `patchOf` below the path the
    diff started at, with its values as they are read back. -/
theorem decodeEvents_diffJsonValue (original edited : Json N) (steps : List JsonStep) :
    decodeEvents serde (diffJsonValue serde (steps.map JsonStep.segment) original edited)
      = some ((patchOf original edited).map (written serde (steps.map JsonStep.token))) := by
  induction original using Json.induction generalizing edited steps with
  | array originalItems ih =>
      cases edited with
      | array editedItems =>
          unfold diffJsonValue patchOf
          split
          · rfl
          dsimp only
          rw [List.map_append, List.map_append]
          refine decodeEvents_append (decodeEvents_append ?_ (decodeEvents_oldItems steps _))
            (decodeEvents_newItems steps _)
          exact decodeEvents_diffItems editedItems ih 0
      | _ => exact decodeEvents_diffJsonValue_replace steps rfl rfl
  | object originalMap ih =>
      cases edited with
      | object editedMap =>
          unfold diffJsonValue patchOf
          split
          · rfl
          dsimp only
          rw [List.map_append]
          exact decodeEvents_append (decodeEvents_diffMembers editedMap ih) (decodeEvents_newMembers steps _)
      | _ => exact decodeEvents_diffJsonValue_replace steps rfl rfl
  | null => exact decodeEvents_diffJsonValue_replace steps rfl rfl
  | bool b => exact decodeEvents_diffJsonValue_replace steps rfl rfl
  | number n => exact decodeEvents_diffJsonValue_replace steps rfl rfl
  | string s => exact decodeEvents_diffJsonValue_replace steps rfl rfl

/-- The operations of the diff of two JSON bodies. -/
def jsonDiffOperations (serde : SerdeJson N) (original edited : Json N) :
    List GeneratedJsonPatchOperation :=
  jsonPatchOperationsFromDiffEvents serde (diffJsonValue serde [] original edited)

/-- The patch that is written for two JSON bodies. -/
def patchDocument (serde : SerdeJson N) (original edited : Json N) : Json N :=
  .array ((jsonDiffOperations serde original edited).map (toRfc6902Value serde))

theorem mapM_jsonDiffOperations (serde : SerdeJson N) (original edited : Json N) :
    ((jsonDiffOperations serde original edited).map (toRfc6902Value serde)).mapM decodeOperation
      = some ((patchOf original edited).map (·.mapValue (readBack serde))) :=
  decodeEvents_diffJsonValue original edited []

/-! ## Running the patch -/

theorem parseJsonPatchValue_wellFormed (hlaws : serde.Laws) (text : Str) :
    (parseJsonPatchValue serde text).WellFormed := by
  unfold parseJsonPatchValue
  cases hparse : serde.fromStr text with
  | none => exact Json.WellFormed.string text
  | some value => exact hlaws.fromStr_wellFormed hparse

/-- Every operation is a well-formed JSON object. -/
theorem toRfc6902Value_wellFormed (hlaws : serde.Laws) (operation : GeneratedJsonPatchOperation) :
    (toRfc6902Value serde operation).WellFormed := by
  have hvalue := parseJsonPatchValue_wellFormed hlaws
  cases operation with
  | add path value =>
      exact Json.WellFormed.object (by simp [Members.Keys]) (by simp [hvalue, Json.WellFormed.string])
  | remove path =>
      exact Json.WellFormed.object (by simp [Members.Keys]) (by simp [Json.WellFormed.string])
  | replace path value =>
      exact Json.WellFormed.object (by simp [Members.Keys]) (by simp [hvalue, Json.WellFormed.string])
  | move source path =>
      exact Json.WellFormed.object (by simp [Members.Keys]) (by simp [Json.WellFormed.string])

theorem patchDocument_wellFormed (hlaws : serde.Laws) (original edited : Json N) :
    (patchDocument serde original edited).WellFormed := by
  apply Json.WellFormed.array
  intro item hmem
  obtain ⟨operation, -, rfl⟩ := List.mem_map.mp hmem
  exact toRfc6902Value_wellFormed hlaws operation

/-- What can be read back as it was printed survives being written into an event. -/
theorem readBack_eq_self (hlaws : serde.Laws) {value : Json N} (h : serde.fromStr (serde.toString value) = some value) :
    readBack serde value = value := by
  have hprinted : parseJsonPatchValue serde (serde.toString value) = value := by
    rw [parseJsonPatchValue, h]
    rfl
  -- only containers are parsed on the way; every other node is printed as it is
  have hraw : diffNodeToJsonPatchValue serde (.json (serde.toString value)) = serde.toString value := by
    unfold diffNodeToJsonPatchValue
    dsimp only
    rw [h]
  cases value with
  | null =>
      show parseJsonPatchValue serde "null".toList = _
      rw [← hlaws.toString_null, hprinted]
  | bool b =>
      show parseJsonPatchValue serde (if b then "true".toList else "false".toList) = _
      rw [← hlaws.toString_bool, hprinted]
  | number n => exact hprinted
  | string text => exact hprinted
  | array items =>
      show parseJsonPatchValue serde (diffNodeToJsonPatchValue serde (.json _)) = _
      rw [hraw, hprinted]
  | object members =>
      show parseJsonPatchValue serde (diffNodeToJsonPatchValue serde (.json _)) = _
      rw [hraw, hprinted]

/-- Applying the patch that is written for two bodies. -/
theorem applyJsonPatch_diff (text : Str) (original edited : Json N) :
    applyJsonPatchRfc6902Json serde text
        (jsonPatchOperationsToRfc6902Json serde (jsonDiffOperations serde original edited))
      = (serde.fromStr text).bind fun value =>
          ((serde.fromStr (serde.toStringPretty (patchDocument serde original edited))).bind decodePatch).bind fun patch =>
            (applyAll patch value).map serde.toString := rfl

/-- **The patch document with its numbers as they are read**: the patch with its values as they are read. -/
theorem decodePatch_mapNumbers (f : N → Option N) (original edited : Json N) :
    ((patchDocument serde original edited).mapNumbers f).bind decodePatch
      = (patchOf original edited).mapM (Operation.mapValueM fun value => (readBack serde value).mapNumbers f) := by
  have hdecode := mapM_jsonDiffOperations serde original edited
  calc
    ((patchDocument serde original edited).mapNumbers f).bind decodePatch
        = (((jsonDiffOperations serde original edited).map (toRfc6902Value serde)).mapM (Json.mapNumbers f)).bind
            fun items => items.mapM decodeOperation := by
      rw [patchDocument, Json.mapNumbers, Json.mapNumbersItems_eq_mapM, Option.bind_map]
      rfl
    _ = ((jsonDiffOperations serde original edited).map (toRfc6902Value serde)).mapM fun item =>
          (item.mapNumbers f).bind decodeOperation := Sorting.mapM_bind_mapM decodeOperation _
    _ = ((jsonDiffOperations serde original edited).map (toRfc6902Value serde)).mapM fun item =>
          (decodeOperation item).bind (Operation.mapValueM (Json.mapNumbers f)) := by
      -- every item is an operation that can be read
      refine Sorting.mapM_congr fun item hmem => ?_
      obtain ⟨decoded, -, hdecoded⟩ := Sorting.exists_mem_of_mapM hdecode hmem
      obtain ⟨operation, -, rfl⟩ := List.mem_map.mp hmem
      rw [decodeOperation_mapNumbers f hdecoded, hdecoded, Option.bind_some]
    _ = ((patchOf original edited).map (·.mapValue (readBack serde))).mapM
          (Operation.mapValueM (Json.mapNumbers f)) := by
      rw [← Sorting.mapM_bind_mapM, hdecode, Option.bind_some]
    _ = (patchOf original edited).mapM (Operation.mapValueM fun value => (readBack serde value).mapNumbers f) := by
      rw [List.mapM_map]
      exact Sorting.mapM_congr fun operation _ => operation.mapValueM_mapValue (readBack serde) (Json.mapNumbers f)

/-- The patch lies two levels deeper than the values it carries. -/
theorem depth_patchDocument_le_iff {limit : Nat} (hlimit : 2 ≤ limit) (original edited : Json N) :
    (patchDocument serde original edited).depth ≤ limit
      ↔ ∀ operation ∈ patchOf original edited, ∀ value ∈ operation.value?, (readBack serde value).depth + 2 ≤ limit := by
  obtain ⟨limit, rfl⟩ := Nat.exists_eq_add_of_le' hlimit
  have hdecode := mapM_jsonDiffOperations serde original edited
  rw [patchDocument, Json.depth_array_le_iff]
  constructor
  · intro hdepth operation hmem value hvalue
    obtain ⟨item, hitem, hdecoded⟩ := Sorting.exists_of_mem_mapM hdecode (List.mem_map_of_mem hmem)
    have hle := hdepth item hitem
    obtain ⟨written, -, rfl⟩ := List.mem_map.mp hitem
    rw [depth_toRfc6902Value hdecoded, Operation.value?_mapValue, hvalue, Option.map_some, Option.elim_some] at hle
    omega
  · intro hvalues item hitem
    obtain ⟨decoded, hmem, hdecoded⟩ := Sorting.exists_mem_of_mapM hdecode hitem
    obtain ⟨written, -, rfl⟩ := List.mem_map.mp hitem
    obtain ⟨operation, hoperation, rfl⟩ := List.mem_map.mp hmem
    rw [depth_toRfc6902Value hdecoded, Operation.value?_mapValue]
    cases hvalue : operation.value? with
    | none => exact Nat.succ_le_succ (Nat.zero_le _)
    | some value =>
        have hle := hvalues operation hoperation value hvalue
        rw [Option.map_some, Option.elim_some]
        omega

/-- Applied to the original in order, the operations of the diff succeed and yield the edited value. -/
def PatchYields (serde : SerdeJson N) (original edited : Json N) : Prop :=
  ∃ patched value,
    applyJsonPatchRfc6902Json serde (serde.toString original)
        (jsonPatchOperationsToRfc6902Json serde (jsonDiffOperations serde original edited)) = some patched
      ∧ serde.fromStr patched = some value ∧ value.beq edited = true

/-- **The diff is right on exactly the values that do not shrink**: the patch yields the edited value if and
    only if no array, reached by keys and indices that both values have, loses two items or more. -/
theorem patchYields_iff_not_shrinks (hlaws : serde.Laws) (hfaithful : serde.Faithful) {original edited : Json N}
    (horiginal : original.WellFormed) (hedited : edited.WellFormed) :
    PatchYields serde original edited ↔ ¬ Shrinks original edited := by
  have hpatched := applyAll_patchOf hlaws.number_refl horiginal hedited
  -- the values of the patch are read back, so the patch is
  have hvalues : (patchOf original edited).map (·.mapValue (readBack serde)) = patchOf original edited := by
    conv_rhs => rw [← List.map_id (patchOf original edited)]
    refine List.map_congr_left fun operation hmem => Operation.mapValue_eq_self fun value hvalue => ?_
    exact readBack_eq_self hlaws (hfaithful.fromStr_toString (patchOf_values (fun _ => Json.WellFormed.items)
      (fun _ => Json.WellFormed.members) horiginal hedited operation hmem value hvalue))
  have hdecode : decodePatch (patchDocument serde original edited) = some (patchOf original edited) :=
    (mapM_jsonDiffOperations serde original edited).trans (congrArg some hvalues)
  unfold PatchYields
  rw [applyJsonPatch_diff, hfaithful.fromStr_toString horiginal,
    hfaithful.fromStr_toStringPretty (patchDocument_wellFormed hlaws original edited), Option.bind_some,
    Option.bind_some, hdecode, Option.bind_some]
  constructor
  · rintro ⟨patched, value, happly, -, -⟩ hshrinks
    rw [hpatched.1 hshrinks] at happly
    cases happly
  · intro hnot
    obtain ⟨value, happly, hwf, hbeq⟩ := hpatched.2 hnot
    refine ⟨serde.toString value, value, ?_, hfaithful.fromStr_toString hwf, hbeq⟩
    rw [happly]
    rfl

/-- One item less is no loss: `[1, 2]` is turned into `[1]`. -/
theorem patchYields_one_item_less :
    JsonCodec.codec.Laws ∧ JsonCodec.codec.Faithful
      ∧ PatchYields JsonCodec.codec (.array [.number 1, .number 2]) (.array [.number 1]) := by
  have hnot : ¬ Shrinks (.array [.number 1, .number 2] : Json Int) (.array [.number 1]) := by
    intro h
    cases h with
    | here h => simp at h
    | item hitem _ h =>
        obtain ⟨m, rfl⟩ : ∃ m, _ = Json.number m := by
          have hmem := List.mem_of_getElem? hitem
          rcases List.mem_cons.mp hmem with h | hmem
          · exact ⟨1, h⟩
          · exact ⟨2, List.mem_singleton.mp hmem⟩
        cases h
  have hwf : ∀ numbers : List Int, (Json.array (numbers.map Json.number)).WellFormed := by
    intro numbers
    apply Json.WellFormed.array
    simp [Json.WellFormed.number]
  exact ⟨JsonCodec.codec_laws, JsonCodec.codec_faithful,
    (patchYields_iff_not_shrinks JsonCodec.codec_laws JsonCodec.codec_faithful (hwf [1, 2]) (hwf [1])).mpr hnot⟩

/-- Two items less: of the operations `remove /0` and `remove /1` that are to take `[1, 2]` to `[]`, the second
    finds no item left. -/
theorem patch_two_items_less_fails :
    ¬ PatchYields JsonCodec.codec (.array [.number 1, .number 2]) (.array []) := by
  have hfails : (applyJsonPatchRfc6902Json JsonCodec.codec "[1,2]".toList
      (jsonPatchOperationsToRfc6902Json JsonCodec.codec
        (jsonDiffOperations JsonCodec.codec (.array [.number 1, .number 2]) (.array [])))) = none := by
    decide +kernel
  rintro ⟨patched, value, happly, -, -⟩
  rw [show JsonCodec.codec.toString (.array [.number 1, .number 2]) = "[1,2]".toList by decide +kernel,
    hfails] at happly
  cases happly

end Operations

end Inspect.Filters
