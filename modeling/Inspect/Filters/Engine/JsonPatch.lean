import Inspect.Lib.Json.Patch
import Inspect.Lib.Json.Serde

/-!
# `Filters.Engine.JsonPatch` — JSON patch operations as text

The embedding of `src/filters/engine/json/patch.rs`. An operation carries its pointer and its value as
texts; it is turned into RFC 6902 JSON to be run, and into comment lines to be shown in a generated filter.

`serde_json` is the parameter `serde`; printing a value cannot fail, so the fallbacks for it are left out.
The `json_patch` crate is RFC 6902 as in `Lib.Json.Patch`.
-/

namespace Inspect.Filters

inductive GeneratedJsonPatchOperation
  | add (path value : Str)
  | remove (path : Str)
  | replace (path value : Str)
  | move (source path : Str)
deriving DecidableEq, Repr

variable {N : Type} (serde : SerdeJson N)

/-- `parse_json_patch_value`: a text that is not JSON stands for itself. -/
def parseJsonPatchValue (value : Str) : Json N := (serde.fromStr value).getD (.string value)

/-- `json_patch_value_to_string`. -/
def jsonPatchValueToString (value : Json N) : Str := serde.toString value

namespace GeneratedJsonPatchOperation

/-- `to_rfc6902_value`. -/
def toRfc6902Value : GeneratedJsonPatchOperation → Json N
  | .add path value =>
      .object [("op".toList, .string "add".toList), ("path".toList, .string path),
        ("value".toList, parseJsonPatchValue serde value)]
  | .remove path =>
      .object [("op".toList, .string "remove".toList), ("path".toList, .string path)]
  | .replace path value =>
      .object [("op".toList, .string "replace".toList), ("path".toList, .string path),
        ("value".toList, parseJsonPatchValue serde value)]
  | .move source path =>
      .object [("op".toList, .string "move".toList), ("from".toList, .string source),
        ("path".toList, .string path)]

open Rfc6902 (field asStr)

/-- `from_rfc6902_value`. -/
def fromRfc6902Value (value : Json N) : Option GeneratedJsonPatchOperation :=
  ((field value "op".toList).bind asStr).bind fun op =>
    if op = "add".toList then
      ((field value "path".toList).bind asStr).bind fun path =>
        (field value "value".toList).map fun value => .add path (jsonPatchValueToString serde value)
    else if op = "remove".toList then ((field value "path".toList).bind asStr).map .remove
    else if op = "replace".toList then
      ((field value "path".toList).bind asStr).bind fun path =>
        (field value "value".toList).map fun value =>
          .replace path (jsonPatchValueToString serde value)
    else if op = "move".toList then
      ((field value "from".toList).bind asStr).bind fun source =>
        ((field value "path".toList).bind asStr).map (.move source)
    else none

end GeneratedJsonPatchOperation

open GeneratedJsonPatchOperation

/-- `json_patch_operations_to_rfc6902_json`. -/
def jsonPatchOperationsToRfc6902Json (operations : List GeneratedJsonPatchOperation) : Str :=
  serde.toStringPretty (.array (operations.map (toRfc6902Value serde)))

/-- `json_patch_operations_from_rfc6902_json`. -/
def jsonPatchOperationsFromRfc6902Json (patchJson : Str) : List GeneratedJsonPatchOperation :=
  match serde.fromStr patchJson with
  | some (.array values) => values.filterMap (fromRfc6902Value serde)
  | _ => []

/-- The comment of one operation. Paths and values are written as they are. -/
def operationComment : GeneratedJsonPatchOperation → Str
  | .add path value => "\n            // - add ".toList ++ path ++ " = ".toList ++ value
  | .remove path => "\n            // - remove ".toList ++ path
  | .replace path value => "\n            // - replace ".toList ++ path ++ " = ".toList ++ value
  | .move source path => "\n            // - move ".toList ++ source ++ " -> ".toList ++ path

/-- `write_json_patch_comments`: the text it appends. -/
def writeJsonPatchComments (operations : List GeneratedJsonPatchOperation) : Str :=
  "\n            // JSON patch operations:".toList
    ++ operations.flatMap operationComment
    ++ "\n            // RFC6902 JSON Patch:".toList
    ++ (Text.lines (jsonPatchOperationsToRfc6902Json serde operations)).flatMap
        fun line => "\n            // ".toList ++ line

variable [BEq N]

/-- `apply_json_patch_rfc6902_json`. -/
def applyJsonPatchRfc6902Json (original patchJson : Str) : Option Str :=
  (serde.fromStr original).bind fun value =>
    ((serde.fromStr patchJson).bind Rfc6902.decodePatch).bind fun patch =>
      (Rfc6902.applyAll patch value).map serde.toString

/-- `validate_json_patch_operations`. -/
def validateJsonPatchOperations (original edited : Str)
    (operations : List GeneratedJsonPatchOperation) : Bool :=
  match applyJsonPatchRfc6902Json serde original
      (jsonPatchOperationsToRfc6902Json serde operations) with
  | none => false
  | some patched =>
      match serde.fromStr patched, serde.fromStr edited with
      | some patched, some edited => patched.beq edited
      | _, _ => false

end Inspect.Filters
