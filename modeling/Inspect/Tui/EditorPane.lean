import Inspect.Filters.EditorText
import Inspect.Flow.BodyEncoding
import Inspect.Lib.Hex
import Inspect.Lib.Split

/-!
# `Tui.EditorPane` — a message of the detail pane, as it is edited

The part of `src/tui/editor_pane.rs` that makes a session of the editor of what the detail pane shows. It works on the
shown texts: the headers are found again in the text of the metadata, and the body in the text of the body, which can
be the text of a hex dump.
-/

namespace Inspect.Tui

open Filters Inspect.Flow

structure PacketRowEditContext where
  flowKey : Str
  method : Str
  protocol : Str
  host : Str
  uri : Str
  queryStr : Str
  status : Option UInt16
deriving DecidableEq

inductive DetailPrimaryTabSelection
  | request
  | response
  | sslTls
  | info
deriving DecidableEq

/-- What is shown of a flow, and the tab that is open. -/
structure DetailEditState where
  primaryTab : DetailPrimaryTabSelection
  requestMeta : Str
  requestBody : Str
  responseMeta : Str
  responseBody : Str
deriving DecidableEq

/-! ## Headers -/

/-- The key of a line. -/
def lineKey (line : Str) : Str := Text.trim ((Text.splitOnce [':'] line).elim line Prod.fst)

/-- Where the line of the headers starts, in bytes; a line is counted with one byte for its end. -/
def headersLineIdx : Nat → List Str → Option Nat
  | _, [] => none
  | start, line :: lines =>
      if lineKey line = "headers".toList then some start else headersLineIdx (start + Text.len line + 1) lines

/-- The loop over the text from its first bracket on, and the text up to the bracket that closes it. -/
def matchBrackets (opening closing : Char) : Nat → Bool → Bool → Str → Option Str
  | _, _, _, [] => none
  | depth, inString, true, ch :: text =>
      (matchBrackets opening closing depth inString false text).map (ch :: ·)
  | depth, true, false, ch :: text =>
      (if ch = '\\' then matchBrackets opening closing depth true true text
        else matchBrackets opening closing depth (ch ≠ '"') false text).map (ch :: ·)
  | depth, false, false, ch :: text =>
      if ch = '"' then (matchBrackets opening closing depth true false text).map (ch :: ·)
      else if ch = opening then (matchBrackets opening closing (depth + 1) false false text).map (ch :: ·)
      else if ch = closing then
        if depth - 1 = 0 then some [ch]
        else (matchBrackets opening closing (depth - 1) false false text).map (ch :: ·)
      else (matchBrackets opening closing depth false false text).map (ch :: ·)

/-- `extract_headers_json`; a slice that panics is `none` here. -/
def extractHeadersJson (metaText : Str) : Option Str :=
  (headersLineIdx 0 (Text.lines metaText)).bind fun start =>
    (Text.sliceFrom start metaText).bind fun afterHeaders =>
      match afterHeaders.dropWhile fun ch => ch ≠ '[' && ch ≠ '{' with
      | [] => none
      | opening :: text =>
          matchBrackets opening (if opening = '[' then ']' else '}') 0 false false (opening :: text)

section Headers

variable {N : Type} (serde : SerdeJson N)

/-- The value of a header in the headers as JSON. -/
def headerJsonText : Json N → Str
  | .string value => value
  | .null => []
  | other => serde.toString other

/-- `as_str` of a member. -/
def memberText (item : Json N) (key : String) : Option Str :=
  match item with
  | .object members =>
      match members.lookup key.toList with
      | some (.string text) => some text
      | _ => none
  | _ => none

/-- The headers that a JSON value stands for. -/
def headersFromJson : Json N → List EditableHttpHeader
  | .array items => items.filterMap fun item =>
      (memberText item "name").bind fun name => (memberText item "value").map fun value => ⟨name, value⟩
  | .object members => members.map fun member => ⟨member.1, headerJsonText serde member.2⟩
  | _ => []

/-- `parse_headers_from_meta`. -/
def parseHeadersFromMeta (metaText : Str) : List EditableHttpHeader :=
  match (extractHeadersJson metaText).bind serde.fromStr with
  | none => []
  | some value => (headersFromJson serde value).mergeSort fun left right => (compare left.name right.name).isLE

end Headers

/-- `content_type_from_headers`. -/
def contentTypeFromHeaders (headers : List EditableHttpHeader) : Option Str :=
  (headers.find? fun header => Text.eqIgnoreAsciiCase header.name "content-type".toList).map
    EditableHttpHeader.value

/-! ## Bodies -/

/-- A token of `length` hexadecimal digits. -/
def isHexToken (length : Nat) (token : Str) : Bool := Text.len token == length && token.all Text.isAsciiHexdigit

/-- What follows the offset in a line of a hex dump, left of the first bar. -/
def hexdumpTokens (line : Str) : List Str :=
  match Text.splitWhitespace (Text.trimEnd ((line.splitOn '|').headD [])) with
  | [] => []
  | offset :: tokens => if isHexToken 8 offset then tokens else []

/-- `extract_hexdump_bytes`. -/
def extractHexdumpBytes (text : Str) : Option Bytes :=
  let bytes := ((Text.lines text).flatMap fun line => (hexdumpTokens line).filter (isHexToken 2)).map fun token =>
    UInt8.ofNat (Text.hexValue token)
  if bytes = [] then none else some bytes

/-- `looks_like_hexdump`: four of five lines that are not blank have an offset and up to sixteen bytes. -/
def looksLikeHexdump (text : Str) : Bool :=
  let totalLines := ((Text.lines text).filter fun line => Text.trim line ≠ []).length
  let validLines := ((Text.lines text).filter fun line =>
    let hexTokens := ((hexdumpTokens line).filter (isHexToken 2)).length
    Text.trim line ≠ [] ∧ 1 ≤ hexTokens ∧ hexTokens ≤ 16).length
  decide (0 < totalLines ∧ 0 < validLines ∧ 80 ≤ validLines * 100 / totalLines)

/-- The text of a body that is shown as a body that is not there. -/
def isEmptyBodyText (body : Str) : Bool :=
  body.isEmpty || "<no path>".toList.isPrefixOf body || "<read error:".toList.isPrefixOf body

section Bodies

variable (codecs : Codecs)

/-- `decode_gzip_hexdump_to_text`. -/
def decodeGzipHexdumpToText (text : Str) : Option Str :=
  if Text.contains "magic number: gzip".toList text then
    (extractHexdumpBytes text).bind fun bytes =>
      ((codecs .gzip bytes).bind Bytes.fromUtf8).bind fun out =>
        if Text.trim out = [] then none else some out
  else none

/-- `editable_body_from_text`. -/
def editableBodyFromText (text : Str) (contentType : Option Str) : EditableHttpBody :=
  let body := Text.trim text
  if isEmptyBodyText body then .empty
  else
    match decodeGzipHexdumpToText codecs body with
    | some decodedText => .text decodedText contentType
    | none =>
        if "<binary body detected".toList.isPrefixOf body || looksLikeHexdump body then
          .binary (((extractHexdumpBytes body).map List.length).getD (Text.len text)) contentType
        else .text text contentType

/-- `strip_body_size_header`. -/
def stripBodySizeHeader (text : Str) : Str :=
  if "body size :".toList.isPrefixOf text then ((Text.splitOnce "\n\n".toList text).map Prod.snd).getD text
  else text

/-! ## Sessions -/

variable {N : Type} (serde : SerdeJson N) (row : PacketRowEditContext) (detail : DetailEditState)

/-- `editable_request_from_detail`. -/
def editableRequestFromDetail : EditableHttpMessage :=
  let headers := parseHeadersFromMeta serde detail.requestMeta
  { kind := .request
    method := some row.method
    scheme := some row.protocol
    host := row.host
    path := row.uri
    query := row.queryStr
    status := none
    headers
    body := editableBodyFromText codecs (stripBodySizeHeader detail.requestBody) (contentTypeFromHeaders headers) }

/-- `editable_response_from_detail`. -/
def editableResponseFromDetail : EditableHttpMessage :=
  let headers := parseHeadersFromMeta serde detail.responseMeta
  { kind := .response
    method := none
    scheme := some row.protocol
    host := row.host
    path := row.uri
    query := row.queryStr
    status := row.status
    headers
    body := editableBodyFromText codecs (stripBodySizeHeader detail.responseBody) (contentTypeFromHeaders headers) }

/-- `generated_edit_name`. -/
def generatedEditName (phase : String) : Str :=
  let path := Text.replaceChar '/' "-".toList ((row.uri.dropWhile (· = '/')).rdropWhile (· = '/'))
  let name := "edit ".toList ++ phase.toList ++ ' ' :: row.host
  if path = [] then name else name ++ ' ' :: path

/-- `editable_session_from_detail`. -/
def editableSessionFromDetail : Option EditableFilterSession :=
  let request := editableRequestFromDetail codecs serde row detail
  let response := editableResponseFromDetail codecs serde row detail
  match detail.primaryTab with
  | .request => some (.request (generatedEditName row "request") request request.toEditText)
  | .response => some (.response (generatedEditName row "response") request response response.toEditText)
  | .sslTls | .info => none

end Bodies

end Inspect.Tui
