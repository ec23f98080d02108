import Inspect.Filters.Types
import Inspect.Lib.Toml

/-!
# `Filters.Manager.Source` — reading a filter file

The embedding of `parse_filter_source` of `src/filters/manager.rs`: the front matter of a filter file is TOML in
comment lines between two `+++` delimiters; the rest of the file is the script.

The `toml` crate is the parameter `toml`, a parser of documents to tables; what `serde` derives for
`FilterMetadata` is `FilterMetadata.deserialize`.
-/

namespace Inspect.Filters

/-! ## Metadata -/

/-- A field of a table, with the default of `#[serde(default)]`. -/
def tableField {A : Type} (table : Toml.Table) (header : Option Str) (key : String) (default : A)
    (read : Toml.Value → Option A) : Option A :=
  match table.entries.lookup (header, key.toList) with
  | none => some default
  | some value => read value

def readString : Toml.Value → Option (Option Str)
  | .string text => some (some text)
  | _ => none

def readBool : Toml.Value → Option Bool
  | .boolean value => some value
  | _ => none

def readI32 : Toml.Value → Option (Option Int32)
  | .integer value => if -2 ^ 31 ≤ value ∧ value < 2 ^ 31 then some (some (Int32.ofInt value)) else none
  | _ => none

def readStrings : Toml.Value → Option (List Str)
  | .array items => some items
  | _ => none

/-- A phase by its name in kebab case. -/
def FilterPhase.deserialize (name : Str) : Option FilterPhase :=
  if name = "connect".toList then some .connect
  else if name = "request".toList then some .request
  else if name = "response".toList then some .response
  else if name = "completed".toList then some .completed
  else none

def readPhases : Toml.Value → Option (List FilterPhase)
  | .array items => items.mapM FilterPhase.deserialize
  | _ => none

/-- The derived `Deserialize` of `FilterTrigger`, at its table. -/
def FilterTrigger.deserialize (table : Toml.Table) : Option FilterTrigger :=
  if (table.entries.lookup (none, "trigger".toList)).isSome then none
  else if "trigger".toList ∉ table.headers then some FilterTrigger.default
  else
    let header := some "trigger".toList
    (tableField table header "host" FilterTrigger.default.host readStrings).bind fun host =>
      (tableField table header "path" FilterTrigger.default.path readStrings).bind fun path =>
        (tableField table header "method" FilterTrigger.default.method readStrings).bind fun method =>
          (tableField table header "phase" FilterTrigger.default.phase readPhases).map fun phase =>
            ⟨host, path, method, phase⟩

/-- The derived `Deserialize` of `FilterMetadata`. Unknown keys are ignored; a table in the place of a value is an
    error. -/
def FilterMetadata.deserialize (table : Toml.Table) : Option FilterMetadata :=
  if table.headers.any fun header =>
      header = "id".toList || header = "name".toList || header = "enabled".toList
        || header = "priority".toList then none
  else
    (tableField table none "id" FilterMetadata.default.id readString).bind fun id =>
      (tableField table none "name" FilterMetadata.default.name readString).bind fun name =>
        (tableField table none "enabled" FilterMetadata.default.enabled readBool).bind fun enabled =>
          (tableField table none "priority" FilterMetadata.default.priority readI32).bind fun priority =>
            (FilterTrigger.deserialize table).map fun trigger => ⟨id, name, enabled, priority, trigger⟩

/-! ## Front matter -/

/-- `FRONT_MATTER_DELIMITER`. -/
def frontMatterDelimiter : Str := "+++".toList

inductive FilterSourceError
  /-- the byte offset of the front matter is inside a character -/
  | panicked
  | unterminatedString (line : Str)
  | unterminatedBlock
  | invalidToml
deriving DecidableEq

/-- `normalized_comment_line`. -/
def normalizedCommentLine (line : Str) : Option Str :=
  let trimmed := Text.trimStart line
  ((Text.stripPrefix "//!".toList trimmed).or (Text.stripPrefix "//".toList trimmed)).map Text.trimStart

/-- The loop of `validate_front_matter_line`: whether a string is open at the end. -/
def inStringAfter : Bool → Bool → Str → Bool
  | inString, _, [] => inString
  | inString, true, _ :: line => inStringAfter inString false line
  | inString, false, ch :: line =>
      if ch = '\\' ∧ inString then inStringAfter inString true line
      else if ch = '"' then inStringAfter (!inString) false line
      else inStringAfter inString false line

/-- `validate_front_matter_line`. -/
def validateFrontMatterLine (line : Str) : Bool := !inStringAfter false false line

/-- The loop of `parse_filter_source` over the lines after the opening delimiter: the TOML text and the script. -/
def frontMatterLoop (tomlText : Str) : List Str → Except FilterSourceError (Str × Str)
  | [] => .error .unterminatedBlock
  | line :: lines =>
      let normalized := (normalizedCommentLine line).getD line
      if Text.trim normalized = frontMatterDelimiter then .ok (tomlText, lines.flatMap fun line => line ++ ['\n'])
      else if !validateFrontMatterLine normalized then .error (.unterminatedString normalized)
      else frontMatterLoop (tomlText ++ normalized ++ ['\n']) lines

/-- `parse_filter_source`. The offset of the first line that is not blank counts one byte for each line end before
    it. -/
def parseFilterSource (toml : Str → Option Toml.Table) (source : Str) :
    Except FilterSourceError (FilterMetadata × Str) :=
  let lines := Text.lines source
  let blank := lines.takeWhile fun line => Text.trim line = []
  match lines.dropWhile fun line => Text.trim line = [] with
  | [] => .ok (FilterMetadata.default, [])
  | firstLine :: _ =>
      if normalizedCommentLine firstLine ≠ some frontMatterDelimiter then .ok (FilterMetadata.default, source)
      else
        match Text.sliceFrom (blank.map fun line => Text.len line + 1).sum source with
        | none => .error .panicked
        | some sourceFromFrontMatter =>
            match frontMatterLoop [] (Text.lines sourceFromFrontMatter).tail with
            | .error error => .error error
            | .ok (tomlText, script) =>
                match (toml tomlText).bind FilterMetadata.deserialize with
                | none => .error .invalidToml
                | some metadata => .ok (metadata, script)

end Inspect.Filters
