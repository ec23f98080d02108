import Inspect.Flow.HttpTypes
import Inspect.Lib.Json.Serde

/-!
# `Flow.OutboundHttp` — what is sent to other services

The embedding of how `src/mitm/flow/dispatcher.rs` resolves the body of an outbound job, with the printers of captured
messages of `src/filters/engine/json/capture.rs` and `capture_service.rs`.

`jsonNumber` makes a JSON number of an integer, and `canonicalReason` is the text the `http` crate has for a status.
-/

namespace Inspect.Flow

open Http Filters

/-! ## Raw messages -/

/-- `request_target`. -/
def requestTarget (req : FilterRequest) : Str :=
  if req.query = [] then req.path else req.path ++ '?' :: req.query

/-- `append_filter_headers`. -/
def appendFilterHeaders (headers : List FilterHeader) : Str :=
  headers.flatMap fun header => header.name ++ ": ".toList ++ header.value ++ "\r\n".toList

/-- `raw_filter_request_bytes`. -/
def rawFilterRequestBytes (req : FilterRequest) : Bytes :=
  Text.bytes (req.method ++ ' ' :: requestTarget req ++ ' ' :: req.version ++ "\r\n".toList
    ++ ((req.tlsSni.map fun tlsSni => "X-Inspect-TLS-SNI: ".toList ++ tlsSni ++ "\r\n".toList).getD [])
    ++ appendFilterHeaders req.headers ++ "\r\n".toList) ++ req.body.bytes

/-- The text of a URI. -/
def uriText (uri : Uri) : Str :=
  ((uri.scheme.map fun scheme => scheme ++ "://".toList).getD []) ++ uri.authority.getD [] ++ uri.path
    ++ ((uri.query.map fun query => '?' :: query).getD [])

/-- The lines of a header map in the head of a message. -/
def headerLines (headers : HeaderMap) : Str :=
  headers.flatMap fun header =>
    header.1.text ++ ": ".toList ++ header.2.toStr.getD "<binary>".toList ++ "\r\n".toList

/-- `build_request_head_text`. -/
def buildRequestHeadText (parts : RequestParts) (tlsSni : Option Str) : Str :=
  ((tlsSni.map fun tlsSni => "X-Inspect-TLS-SNI: ".toList ++ tlsSni ++ "\r\n".toList).getD [])
    ++ parts.method ++ ' ' :: uriText parts.uri ++ ' ' :: versionToString parts.version ++ "\r\n".toList
    ++ headerLines parts.headers ++ "\r\n".toList

section Head

variable (canonicalReason : StatusCode → Option Str)

/-- The text of a status. -/
def statusText (status : StatusCode) : Str :=
  Nat.toDigits 10 status.code.toNat ++ ' ' :: (canonicalReason status).getD "<unknown status code>".toList

/-- `build_response_head_text`. -/
def buildResponseHeadText (parts : ResponseParts) : Str :=
  versionToString parts.version ++ ' ' :: statusText canonicalReason parts.status ++ "\r\n".toList
    ++ (parts.headers.flatMap fun header =>
        header.1.text ++ ": ".toList ++ header.2.toStr.getD "<binary>".toList ++ "\r\n".toList)
    ++ "\r\n".toList

/-- `raw_response_bytes`. -/
def rawResponseBytes (parts : ResponseParts) (body : Bytes) : Bytes :=
  Text.bytes (buildResponseHeadText canonicalReason parts) ++ body

end Head

/-! ## Messages as JSON -/

section Json

variable {N : Type} (serde : SerdeJson N) (jsonNumber : Int → N)

/-- A text or null. -/
def jsonText (value : Option Str) : Json N := (value.map Json.string).getD .null

/-- `json_filter_headers`. -/
def jsonFilterHeaders (headers : List FilterHeader) : Json N :=
  .array (headers.map fun header =>
    .object [("name".toList, .string header.name), ("value".toList, .string header.value)])

/-- `json_header_map`. -/
def jsonHeaderMap (headers : HeaderMap) : Json N := jsonFilterHeaders (filterHeadersFromHeaderMap headers)

/-- `json_body`: the text of the body, or its bytes in base 64. -/
def jsonBody (contentType encoding : Option Str) (truncated : Bool) (bytes : Bytes) : Json N :=
  let text := Bytes.fromUtf8 bytes
  .object [("content_type".toList, jsonText contentType), ("encoding".toList, jsonText encoding),
    ("truncated".toList, .bool truncated), ("text".toList, jsonText text),
    ("base64".toList, if text.isSome then .null else .string (Bytes.base64 bytes))]

/-- The value of `json_filter_request_bytes`. -/
def jsonFilterRequest (req : FilterRequest) : Json N :=
  .object [("id".toList, .string req.id), ("seq".toList, .number (jsonNumber req.seq.toNat)),
    ("flow_key".toList, .string req.flowKey), ("method".toList, .string req.method),
    ("scheme".toList, .string req.scheme), ("host".toList, .string req.host), ("path".toList, .string req.path),
    ("query".toList, .string req.query), ("version".toList, .string req.version),
    ("tls_sni".toList, jsonText req.tlsSni), ("headers".toList, jsonFilterHeaders req.headers),
    ("body".toList, jsonBody req.body.contentType req.body.encoding req.body.truncated req.body.bytes)]

/-- The value of `json_filter_response_bytes`. -/
def jsonFilterResponse (parts : ResponseParts) (body : Bytes) (upstreamStatus : Option UInt16) (elapsedMs : Int64) :
    Json N :=
  .object [("status".toList, .number (jsonNumber parts.status.code.toNat)),
    ("version".toList, .string (versionToString parts.version)),
    ("upstream_status".toList, (upstreamStatus.map fun status => Json.number (jsonNumber status.toNat)).getD .null),
    ("elapsed_ms".toList, .number (jsonNumber elapsedMs.toInt)), ("headers".toList, jsonHeaderMap parts.headers),
    ("body".toList, jsonBody (normalizedContentType parts.headers) (HeaderMap.getStr parts.headers contentEncoding)
      false body)]

/-- The bytes of a value, as `serde_json::to_vec` writes it. -/
def jsonBytes (value : Json N) : Bytes := Text.bytes (serde.toString value)

/-- A value that is written and read back, as it is put into the flow. -/
def reparsed (value : Json N) : Json N := (serde.fromStr (serde.toString value)).getD (.object [])

/-- The value of `json_filter_flow_bytes`. -/
def jsonFilterFlow (input : ResponseDispatchInput N) (parts : ResponseParts) (body : Bytes) (elapsedMs : Int64) :
    Json N :=
  .object [("id".toList, .string input.id.toText), ("seq".toList, .number (jsonNumber input.seq.toNat)),
    ("flow_key".toList, .string input.flowKey),
    ("request".toList, reparsed serde (jsonFilterRequest jsonNumber input.filterRequest)),
    ("response".toList, reparsed serde (jsonFilterResponse jsonNumber parts body input.upstreamStatus elapsedMs))]

/-! ## Jobs -/

variable (canonicalReason : StatusCode → Option Str)

/-- `resolve_outbound_http_job`; `elapsedMs` is read when the job is resolved. -/
def resolveOutboundHttpJob (job : OutboundHttpJob) (input : ResponseDispatchInput N) (parts : ResponseParts)
    (body : Bytes) (elapsedMs : Int64) : OutboundHttpJob :=
  { job with
    body := match job.body with
      | .bytes bytes => .bytes bytes
      | .capturedRequest => .bytes (rawFilterRequestBytes input.filterRequest)
      | .capturedResponse => .bytes (rawResponseBytes canonicalReason parts body)
      | .capturedRequestJson => .bytes (jsonBytes serde (jsonFilterRequest jsonNumber input.filterRequest))
      | .capturedResponseJson =>
          .bytes (jsonBytes serde (jsonFilterResponse jsonNumber parts body input.upstreamStatus elapsedMs))
      | .capturedFlowJson => .bytes (jsonBytes serde (jsonFilterFlow serde jsonNumber input parts body elapsedMs)) }

end Json

end Inspect.Flow
