import Inspect.Flow.CaptureCommit
import Inspect.Lib.Json.Patch
import Inspect.Tui.Body

/-!
# `Mitm.Har` — the export of a capture

The embedding of `src/mitm/har.rs`: the rows of the capture are joined, and each makes an entry of the HAR file. The
bodies are read from the files of the capture, the headers from a text column.

`rfc3999z` is the text of a time, `jsonNumber` an integer as a JSON number, `parseSocketAddr` the parser of `std` with
the texts of its two parts, and `canonicalReason` the text the `http` crate has for a status.
-/

namespace Inspect.Mitm

open Http Filters Inspect.Flow

/-! ## Rows -/

structure HarRow where
  startedDateTime : Option Str
  method : Option Str
  protocol : Option Str
  host : Option Str
  uri : Option Str
  queryStr : Option Str
  requestVersion : Option Str
  requestHeaders : Option Str
  requestHeadPath : Option FilePath
  requestBodyPath : Option FilePath
  requestBodySize : Option Int64
  requestBodySavedSize : Option Int64
  requestBodyTruncated : Option Int64
  requestBodySaveLimit : Option Int64
  requestBodySaveUnlimited : Option Int64
  elapsed : Option Int64
  status : Option Int64
  responseVersion : Option Str
  responseHeaders : Option Str
  responseHeadPath : Option FilePath
  responseBodyPath : Option FilePath
  responseBodySize : Option Int64
  responseBodySavedSize : Option Int64
  responseBodyTruncated : Option Int64
  responseBodySaveLimit : Option Int64
  responseBodySaveUnlimited : Option Int64
  upstreamRemoteAddr : Option Str

/-- A truth value in a column. -/
def sqlBool (value : Bool) : Int64 := if value then 1 else 0

section Row

variable {N : Type} (serde : SerdeJson N) (rfc3999z : Int64 → Str)

/-- The row that `select_har_rows` makes of a request and its response. Without a response all its columns are null,
    and so is its save limit. -/
def harRow (request : RequestMetadata N) (response : Option (ResponseMetadata N)) : HarRow where
  startedDateTime := some (rfc3999z request.epochMs)
  method := some request.method
  protocol := some request.protocol
  host := some request.host
  uri := some request.uri
  queryStr := some request.queryStr
  requestVersion := some request.version
  requestHeaders := some (serde.toString request.headers)
  requestHeadPath := some request.requestHeadPath
  requestBodyPath := some request.requestBodyPath
  requestBodySize := some request.bodySize
  requestBodySavedSize := some request.bodySavedSize
  requestBodyTruncated := some (sqlBool request.bodyTruncated)
  requestBodySaveLimit := request.bodySaveLimit
  requestBodySaveUnlimited := some (sqlBool request.bodySaveLimit.isNone)
  elapsed := response.map ResponseMetadata.elapsed
  status := response.map fun response => (response.upstreamStatus.getD response.status).toUInt64.toInt64
  responseVersion := response.map ResponseMetadata.version
  responseHeaders := response.map fun response => serde.toString response.headers
  responseHeadPath := response.map ResponseMetadata.responseHeadPath
  responseBodyPath := response.map ResponseMetadata.responseBodyPath
  responseBodySize := response.map ResponseMetadata.bodySize
  responseBodySavedSize := response.map ResponseMetadata.bodySavedSize
  responseBodyTruncated := response.map fun response => sqlBool response.bodyTruncated
  responseBodySaveLimit := response.bind ResponseMetadata.bodySaveLimit
  responseBodySaveUnlimited := some (sqlBool (response.bind ResponseMetadata.bodySaveLimit).isNone)
  upstreamRemoteAddr := response.bind ResponseMetadata.upstreamRemoteAddr

/-- `select_har_rows`: every request in the order of the numbers, with the response of the same id if there is one. -/
def selectHarRows (requests : List (RequestMetadata N)) (responses : List (ResponseMetadata N)) : List HarRow :=
  (requests.mergeSort fun request request' => request.seq ≤ request'.seq).map fun request =>
    harRow serde rfc3999z request (responses.find? fun response => response.id = request.id)

end Row

/-! ## Parts of an entry -/

/-- `should_include_body`. -/
def shouldIncludeBody (bodySaveUnlimited bodyTruncated : Option Int64) : Bool :=
  bodySaveUnlimited == some 1 && bodyTruncated != some 1

/-- `read_file`: there is no file without a path, nor under the empty one. -/
def readFile (disk : Disk) (path : Option FilePath) : Option Bytes :=
  path.bind fun path => if path = [] then none else disk path

/-- `file_size`. -/
def fileSize (disk : Disk) (path : Option FilePath) : Option Int64 :=
  (readFile disk path).map fun bytes => Int64.ofNat bytes.length

/-- `build_url`. -/
def buildUrl (protocol host uri queryStr : Option Str) : Str :=
  let url := protocol.getD "http".toList ++ "://".toList ++ host.getD [] ++ uri.getD "/".toList
  match queryStr with
  | some (c :: query) => url ++ '?' :: c :: query
  | _ => url

section Headers

variable {N : Type} (serde : SerdeJson N)

/-- `parse_headers`: the column holds an object, or a text that is one. -/
def parseHeaders (headers : Option Str) : Json N :=
  match headers with
  | none => .null
  | some headers =>
      match (serde.fromStr headers).getD .null with
      | .string text => (serde.fromStr text).getD .null
      | other => other

/-- `header_value_to_string`. -/
def headerValueToString : Json N → Str
  | .string text => text
  | .null => []
  | other => serde.toString other

/-- A header in a HAR file. -/
def harHeader (name : Str) (value : Json N) : Json N :=
  .object [("name".toList, .string name), ("value".toList, .string (headerValueToString serde value))]

/-- `headers_to_har_array`. -/
def headersToHarArray (headers : Option Str) : Json N :=
  match parseHeaders serde headers with
  | .object members => .array (members.flatMap fun (name, value) =>
      match value with
      | .array values => values.map (harHeader serde name)
      | value => [harHeader serde name value])
  | _ => .array []

/-- The value of a header in `headers_to_map`. -/
def joinedValue : Json N → Str
  | .array values => ", ".toList.intercalate (values.map (headerValueToString serde))
  | value => headerValueToString serde value

/-- `header_lookup` for a name in lower case. -/
def headerLookup (headers : Option Str) (name : Str) : Option Str :=
  match parseHeaders serde headers with
  | .object members =>
      (members.foldl (fun map (key, value) => Members.insert (Text.toAsciiLowercase key) (joinedValue serde value) map)
        []).lookup name
  | _ => none

/-- `content_type`. -/
def contentTypeOf (headers : Option Str) : Option Str :=
  ((headerLookup serde headers "content-type".toList).map Tui.mimeTypeOf).filter (· ≠ [])

/-- `redirect_url`. -/
def redirectUrl (headers : Option Str) : Option Str := headerLookup serde headers "location".toList

/-- `query_to_har_array`. -/
def queryToHarArray (query : Option Str) : Json N :=
  .array ((((query.getD []).splitOn '&').filter (· ≠ [])).map fun part =>
    .object [("name".toList, .string (part.takeWhile (· ≠ '='))),
      ("value".toList, .string ((part.dropWhile (· ≠ '=')).drop 1))])

end Headers

/-- `status_text`. -/
def statusText (canonicalReason : StatusCode → Option Str) (status : Int64) : Str :=
  if 0 ≤ status.toInt ∧ status.toInt < 2 ^ 16 then
    ((StatusCode.fromU16 (UInt16.ofNat status.toInt.toNat)).bind canonicalReason).getD []
  else []

/-- `size_text`. -/
def sizeText (value : Option Int64) : Str := value.elim "-".toList fun value => Text.displayInt value.toInt

/-- The two comments of `truncation_comments` on the body of a message. -/
def omittedComment (message : String) (unlimited truncated size : Option Int64) : List Str :=
  if !shouldIncludeBody unlimited truncated && 0 < (size.getD 0).toInt then
    [message.toList
      ++ " body text is omitted because body_save_unlimited was not enabled or body was truncated".toList]
  else []

def truncatedComment (message : String) (truncated size savedSize saveLimit : Option Int64) : List Str :=
  if truncated = some 1 then
    [message.toList ++ " body was truncated on disk: bodySize=".toList ++ sizeText size ++ ", saved=".toList
      ++ sizeText savedSize ++ ", limit=".toList ++ sizeText saveLimit]
  else []

/-- `truncation_comments`. -/
def truncationComments (row : HarRow) : List Str :=
  omittedComment "Request" row.requestBodySaveUnlimited row.requestBodyTruncated row.requestBodySize
    ++ omittedComment "Response" row.responseBodySaveUnlimited row.responseBodyTruncated row.responseBodySize
    ++ truncatedComment "Request" row.requestBodyTruncated row.requestBodySize row.requestBodySavedSize
        row.requestBodySaveLimit
    ++ truncatedComment "Response" row.responseBodyTruncated row.responseBodySize row.responseBodySavedSize
        row.responseBodySaveLimit

/-! ## Entries -/

section Entry

variable {N : Type} (codecs : Codecs) (serde : SerdeJson N) (jsonNumber : Int → N)
  (canonicalReason : StatusCode → Option Str) (parseSocketAddr : Str → Option (Str × Str)) (disk : Disk)

/-- The body that goes into an entry, if it does. -/
def includedBody (unlimited truncated : Option Int64) (path : Option FilePath) : Option Bytes :=
  if shouldIncludeBody unlimited truncated then readFile disk path else none

/-- The text in a member of an object, or none. -/
def memberText (content : Json N) (key : String) : Str :=
  ((Rfc6902.field content key.toList).bind Rfc6902.asStr).getD []

/-- The member `postData` of a request. -/
def postDataOf (content : Json N) : Json N :=
  .object ([("mimeType".toList, .string (memberText content "mimeType")),
      ("text".toList, .string (memberText content "text"))]
    ++ (Rfc6902.field content "encoding".toList).toList.map fun encoding => ("encoding".toList, encoding))

/-- The member `request` of an entry. -/
def harRequest (row : HarRow) : Json N :=
  .object ([
      ("method".toList, .string (row.method.getD "GET".toList)),
      ("url".toList, .string (buildUrl row.protocol row.host row.uri row.queryStr)),
      ("httpVersion".toList, .string (row.requestVersion.getD "HTTP/1.1".toList)),
      ("cookies".toList, .array []),
      ("headers".toList, headersToHarArray serde row.requestHeaders),
      ("queryString".toList, queryToHarArray row.queryStr),
      ("headersSize".toList, .number (jsonNumber ((fileSize disk row.requestHeadPath).getD (-1)).toInt)),
      ("bodySize".toList, .number (jsonNumber (row.requestBodySize.getD (-1)).toInt))]
    ++ (includedBody disk row.requestBodySaveUnlimited row.requestBodyTruncated row.requestBodyPath).toList.map
      fun body => ("postData".toList,
        postDataOf (Tui.formatBodyForHar codecs serde jsonNumber (parseHeaders serde row.requestHeaders) body)))

/-- The member `content` of a response. -/
def harResponseContent (row : HarRow) : Json N :=
  match includedBody disk row.responseBodySaveUnlimited row.responseBodyTruncated row.responseBodyPath with
  | some body => Tui.formatBodyForHar codecs serde jsonNumber (parseHeaders serde row.responseHeaders) body
  | none => .object [
      ("size".toList, .number (jsonNumber (row.responseBodySize.getD (-1)).toInt)),
      ("mimeType".toList, .string ((contentTypeOf serde row.responseHeaders).getD []))]

/-- The member `response` of an entry. -/
def harResponse (row : HarRow) : Json N :=
  let status := row.status.getD 0
  .object [
    ("status".toList, .number (jsonNumber status.toInt)),
    ("statusText".toList, .string (statusText canonicalReason status)),
    ("httpVersion".toList, .string (row.responseVersion.getD "HTTP/1.1".toList)),
    ("cookies".toList, .array []),
    ("headers".toList, headersToHarArray serde row.responseHeaders),
    ("content".toList, harResponseContent codecs serde jsonNumber disk row),
    ("redirectURL".toList, .string ((redirectUrl serde row.responseHeaders).getD [])),
    ("headersSize".toList, .number (jsonNumber ((fileSize disk row.responseHeadPath).getD (-1)).toInt)),
    ("bodySize".toList, .number (jsonNumber (row.responseBodySize.getD (-1)).toInt))]

/-- The member `timings` of an entry. -/
def harTimings (elapsed : Int) : Json N :=
  .object [
    ("blocked".toList, .number (jsonNumber (-1))),
    ("dns".toList, .number (jsonNumber (-1))),
    ("connect".toList, .number (jsonNumber (-1))),
    ("ssl".toList, .number (jsonNumber (-1))),
    ("send".toList, .number (jsonNumber 0)),
    ("wait".toList, .number (jsonNumber elapsed)),
    ("receive".toList, .number (jsonNumber 0))]

/-- `build_entry`. -/
def buildEntry (row : HarRow) : Json N :=
  let elapsed := max (row.elapsed.getD 0).toInt 0
  let comments := truncationComments row
  .object ([
      ("startedDateTime".toList, .string (row.startedDateTime.getD "1970-01-01T00:00:00.000Z".toList)),
      ("time".toList, .number (jsonNumber elapsed)),
      ("request".toList, harRequest codecs serde jsonNumber disk row),
      ("response".toList, harResponse codecs serde jsonNumber canonicalReason disk row),
      ("cache".toList, .object []),
      ("timings".toList, harTimings jsonNumber elapsed)]
    ++ (match row.upstreamRemoteAddr.bind parseSocketAddr with
        | some (ip, port) => [("serverIPAddress".toList, .string ip), ("connection".toList, .string port)]
        | none => [])
    ++ (if comments = [] then [] else [("comment".toList, .string ("; ".toList.intercalate comments))]))

/-- `build_har`. -/
def buildHar (rows : List HarRow) : Json N :=
  .object [("log".toList, .object [
    ("version".toList, .string "1.2".toList),
    ("creator".toList, .object [
      ("name".toList, .string "inspect".toList), ("version".toList, .string "0.7.3".toList)]),
    ("entries".toList, .array (rows.map (buildEntry codecs serde jsonNumber canonicalReason parseSocketAddr disk)))])]

end Entry

end Inspect.Mitm
