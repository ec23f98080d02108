import Inspect.Flow.WebSocket

/-!
# `Tui.ReadMetadata` — the metadata of a response, as it is shown

The part of `src/tui/read_metadata.rs` that reads the row of a response back and writes it as a text. The headers of
a row are JSON in a text column. `canonicalReason` is the text the `http` crate has for a status.
-/

namespace Inspect.Tui

open Http

/-- What `select_response` reads of a row, as far as it is shown. -/
structure ResponseMetadata (N : Type) where
  elapsed : Option Int64
  status : Option Int64
  upstreamStatus : Option Int64
  version : Option Str
  upstreamRemoteAddr : Option Str
  headers : Json N

/-- `opt_str`. -/
def optStr (value : Option Str) : Str := value.getD "-".toList

/-- `indent_lines`. -/
def indentLines (text start : Str) : Str := ['\n'].intercalate ((Text.lines text).map fun line => start ++ line)

/-- A key in its column. -/
def keyColumn (key : String) : Str := Text.padEnd 10 ' ' key.toList

/-- A line with a key. -/
def metaLine (key : String) (value : Str) : Str := keyColumn key ++ ": ".toList ++ value

section Display

variable {N : Type} (serde : SerdeJson N) (canonicalReason : StatusCode → Option Str)

/-- `insert_response`, and `select_response` of the row it makes. -/
def selectResponse (row : Flow.ResponseMetadata N) : ResponseMetadata N where
  elapsed := some row.elapsed
  status := some row.status.toUInt64.toInt64
  upstreamStatus := row.upstreamStatus.map fun status => status.toUInt64.toInt64
  version := some row.version
  upstreamRemoteAddr := row.upstreamRemoteAddr
  headers := .string (serde.toString row.headers)

/-- `normalize_headers_for_display`. -/
def normalizeHeadersForDisplay : Json N → Json N
  | .string text => (serde.fromStr text).getD (.string text)
  | other => other

/-- `format_status_for_display`. -/
def formatStatusForDisplay : Option Int64 → Str
  | none => "-".toList
  | some status =>
      if 0 ≤ status.toInt ∧ status.toInt < 2 ^ 16 then
        let statusU16 := UInt16.ofNat status.toInt.toNat
        match (StatusCode.fromU16 statusU16).bind canonicalReason with
        | some reason => Nat.toDigits 10 statusU16.toNat ++ ' ' :: reason
        | none => Nat.toDigits 10 statusU16.toNat
      else Text.displayInt status.toInt

namespace ResponseMetadata

variable (metadata : ResponseMetadata N)

/-- The lines above the headers. -/
def headLines : List Str :=
  [metaLine "status" (formatStatusForDisplay canonicalReason (metadata.upstreamStatus.or metadata.status)),
    metaLine "elapsed" ((metadata.elapsed.elim "-".toList fun elapsed => Text.displayInt elapsed.toInt)
      ++ " ms".toList),
    metaLine "protocol" (optStr metadata.version),
    metaLine "remote" (optStr metadata.upstreamRemoteAddr)]

/-- `ResponseMetadata::fmt`. -/
def display : Str :=
  let headersPretty := serde.toStringPretty (normalizeHeadersForDisplay serde metadata.headers)
  (metadata.headLines canonicalReason ++ [keyColumn "headers" ++ [':']]).flatMap (fun line => line ++ ['\n'])
    ++ indentLines headersPretty "  ".toList

end ResponseMetadata

end Display

end Inspect.Tui
