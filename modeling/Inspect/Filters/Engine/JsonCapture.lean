import Inspect.Filters.Engine.Diff
import Inspect.Filters.Engine.JsonPatch

/-!
# `Filters.Engine.JsonCapture` — diffing JSON bodies

The embedding of the diff half of `src/filters/engine/json/capture.rs`: two JSON bodies are compared value by
value, every difference becomes a diff event at its path, and the events become patch operations.

`events: &mut Vec<DiffEvent>` is the list of the events pushed. The functions that print captured messages as
JSON (`json_filter_request_bytes` and the like) belong to the capture of flows and are not modelled here.
-/

namespace Inspect.Filters

variable {N : Type} (serde : SerdeJson N)

/-- `json_value_to_diff_node`. -/
def jsonValueToDiffNode : Json N → DiffNode
  | .null => .null
  | .bool value => .bool value
  | .number value => .number (serde.toString (.number value))
  | .string value => .string value
  | .array items => .json (serde.toString (.array items))
  | .object members => .json (serde.toString (.object members))

/-- `looks_like_json`. -/
def looksLikeJson (contentType : Option Str) (text : Str) : Bool :=
  (contentType.any fun contentType =>
    let contentType := Text.toAsciiLowercase (Text.trim (contentType.takeWhile (· ≠ ';')))
    contentType == "application/json".toList
      || "+json".toList.isSuffixOf contentType
      || contentType == "text/json".toList)
  || (match Text.trimStart text with
      | c :: _ => c == '{' || c == '['
      | [] => false)

/-! ## The diff -/

section Diff

variable [BEq N]

/-- The event for a value that is only in the original. -/
def deleteEvent (path : List DiffPathSegment) (old : Json N) : DiffEvent :=
  .delete (.bodyJson path) (jsonValueToDiffNode serde old) (.body .json)

/-- The event for a value that is only in the edited body. -/
def insertEvent (path : List DiffPathSegment) (node : Json N) : DiffEvent :=
  .insert (.bodyJson path) (jsonValueToDiffNode serde node) (.body .json)

/-- The event for a value replaced as a whole. -/
def replaceEvent (path : List DiffPathSegment) (old new : Json N) : DiffEvent :=
  .replace (.bodyJson path) (jsonValueToDiffNode serde old) (jsonValueToDiffNode serde new)
    (.body .json)

mutual

/-- `diff_json_value`: the events it pushes. -/
def diffJsonValue (path : List DiffPathSegment) (original edited : Json N) : List DiffEvent :=
  if original.beq edited then []
  else
    match original, edited with
    | .object originalMap, .object editedMap =>
        diffMembers path originalMap editedMap
          ++ (editedMap.filter fun member => (originalMap.lookup member.1).isNone).map fun member =>
              insertEvent serde (path ++ [.jsonKey member.1]) member.2
    | .array originalItems, .array editedItems =>
        let commonLen := min originalItems.length editedItems.length
        diffItems path 0 originalItems editedItems
          ++ ((originalItems.zipIdx.drop commonLen).map fun (item, idx) =>
              deleteEvent serde (path ++ [.jsonIndex idx]) item)
          ++ ((editedItems.zipIdx.drop commonLen).map fun (item, idx) =>
              insertEvent serde (path ++ [.jsonIndex idx]) item)
    | _, _ => [replaceEvent serde path original edited]
termination_by structural original

/-- The loop over the members of the original object. -/
def diffMembers (path : List DiffPathSegment) (originalMap editedMap : List (Str × Json N)) :
    List DiffEvent :=
  match originalMap with
  | [] => []
  | (key, originalValue) :: originalMap =>
      (match editedMap.lookup key with
        | some editedValue => diffJsonValue (path ++ [.jsonKey key]) originalValue editedValue
        | none => [deleteEvent serde (path ++ [.jsonKey key]) originalValue])
      ++ diffMembers path originalMap editedMap
termination_by structural originalMap

/-- The loop over the indices both arrays have. -/
def diffItems (path : List DiffPathSegment) (idx : Nat) (originalItems editedItems : List (Json N)) :
    List DiffEvent :=
  match originalItems, editedItems with
  | originalItem :: originalItems, editedItem :: editedItems =>
      diffJsonValue (path ++ [.jsonIndex idx]) originalItem editedItem
        ++ diffItems path (idx + 1) originalItems editedItems
  | _, _ => []
termination_by structural originalItems

end

attribute [grind =] diffJsonValue diffMembers diffItems

/-- `push_json_body_diff_events`: the events pushed, or `none` where it returns `false`. -/
def pushJsonBodyDiffEvents (original edited : Str) (contentType : Option Str) :
    Option (List DiffEvent) :=
  if !looksLikeJson contentType original && !looksLikeJson contentType edited then none
  else
    (serde.fromStr original).bind fun originalJson => (serde.fromStr edited).map fun editedJson =>
      diffJsonValue serde [] originalJson editedJson

end Diff

/-- `push_json_body_insert_event`. -/
def pushJsonBodyInsertEvent (text : Str) (contentType : Option Str) : Option DiffEvent :=
  if !looksLikeJson contentType text then none
  else
    (serde.fromStr text).map fun json =>
      .insert .body (jsonValueToDiffNode serde json) (.body .json)

/-- `push_json_body_delete_event`. -/
def pushJsonBodyDeleteEvent (text : Str) (contentType : Option Str) : Option DiffEvent :=
  if !looksLikeJson contentType text then none
  else
    (serde.fromStr text).map fun json =>
      .delete .body (jsonValueToDiffNode serde json) (.body .json)

/-! ## From events to operations -/

/-- `escape_json_pointer_segment`. -/
def escapeJsonPointerSegment (segment : Str) : Str :=
  Text.replaceChar '/' "~1".toList (Text.replaceChar '~' "~0".toList segment)

/-- The loop of `json_pointer_from_diff_path`; only segments after the body segment count. -/
def jsonPointerLoop : Bool → List DiffPathSegment → Bool × Str
  | seenBody, [] => (seenBody, [])
  | seenBody, segment :: segments =>
      match segment, seenBody with
      | .body, _ => jsonPointerLoop true segments
      | .jsonKey key, true =>
          let (seenBody, out) := jsonPointerLoop true segments
          (seenBody, '/' :: escapeJsonPointerSegment key ++ out)
      | .jsonIndex index, true =>
          let (seenBody, out) := jsonPointerLoop true segments
          (seenBody, '/' :: Nat.toDigits 10 index ++ out)
      | _, seenBody => jsonPointerLoop seenBody segments

/-- `json_pointer_from_diff_path`. -/
def jsonPointerFromDiffPath (path : DiffPath) : Option Str :=
  match jsonPointerLoop false path.segments with
  | (true, out) => some out
  | (false, _) => none

/-- A JSON object of texts, as the `json!` literals of `diff_node_to_json_patch_value` build it. -/
def optionalString : Option Str → Json N
  | some text => .string text
  | none => .null

/-- `diff_node_to_json_patch_value`. A count of bytes is written in decimal. -/
def diffNodeToJsonPatchValue : DiffNode → Str
  | .null => "null".toList
  | .bool value => if value then "true".toList else "false".toList
  | .number value => value
  | .string value => serde.toString (.string value)
  | .text value => serde.toString (.string value)
  | .json raw =>
      match serde.fromStr raw with
      | some value => serde.toString value
      | none => serde.toString (.string raw)
  | .xml name text =>
      serde.toString (.object [("name".toList, optionalString name), ("text".toList, .string text)])
  | .html tag text =>
      serde.toString (.object [("tag".toList, optionalString tag), ("text".toList, .string text)])
  | .ast kind text =>
      serde.toString (.object [("kind".toList, .string kind), ("text".toList, .string text)])
  | .bytesLen len => Nat.toDigits 10 len
  | .header name value =>
      serde.toString (.object [("name".toList, .string name), ("value".toList, .string value)])
  | .cookie name value =>
      serde.toString (.object [("name".toList, .string name), ("value".toList, .string value)])
  | .binary bytesLen contentType =>
      -- the only literal with a number in it, written out as the compact printer writes it
      "\x7b\"bytes_len\":".toList ++ Nat.toDigits 10 bytesLen ++ ",\"content_type\":".toList
        ++ serde.toString (optionalString contentType) ++ "\x7d".toList

/-- `json_patch_operation_from_diff_event`. -/
def jsonPatchOperationFromDiffEvent (event : DiffEvent) : Option GeneratedJsonPatchOperation :=
  if event.source ≠ .body .json then none
  else
    match event with
    | .insert path node _ =>
        (jsonPointerFromDiffPath path).map fun path => .add path (diffNodeToJsonPatchValue serde node)
    | .delete path _ _ => (jsonPointerFromDiffPath path).map .remove
    | .replace path _ new _ =>
        (jsonPointerFromDiffPath path).map fun path =>
          .replace path (diffNodeToJsonPatchValue serde new)
    | .move origin target _ _ =>
        (jsonPointerFromDiffPath origin).bind fun source =>
          (jsonPointerFromDiffPath target).map (.move source)

/-- `json_patch_operations_from_diff_events`. -/
def jsonPatchOperationsFromDiffEvents (events : List DiffEvent) : List GeneratedJsonPatchOperation :=
  events.filterMap (jsonPatchOperationFromDiffEvent serde)

end Inspect.Filters
