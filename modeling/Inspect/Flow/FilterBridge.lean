import Inspect.Filters.Types
import Inspect.Flow.CaptureService

/-!
# `Flow.FilterBridge` — between filters and messages

The embedding of `src/mitm/flow/filter_bridge.rs`: how the actions of several filters are merged, what a filter is
shown of a message, and how a patch is applied to it. The parser of `http` for a path with its query is the parameter
`parsePathAndQuery`.
-/

namespace Inspect.Flow

open Http Filters

/-! ## Marks -/

structure FlowMark where
  label : Str
  color : Option Str
deriving DecidableEq

/-- The marks of an action: its marks, its tags in green and its notes in blue. -/
def flowMarks (marks : List FilterMark) (tags notes : List Str) : List FlowMark :=
  (marks.map fun mark => ⟨mark.label, mark.color⟩) ++ (tags.map fun tag => ⟨tag, some "green".toList⟩)
    ++ notes.map fun note => ⟨note, some "blue".toList⟩

/-- `flow_marks_from_request_action`. -/
def flowMarksFromRequestAction (action : RequestAction) : List FlowMark :=
  flowMarks action.marks action.tags action.notes

/-- `flow_marks_from_response_action`. -/
def flowMarksFromResponseAction (action : ResponseAction) : List FlowMark :=
  flowMarks action.marks action.tags action.notes

/-- `flow_marks_from_connect_action`. -/
def flowMarksFromConnectAction (action : ConnectAction) : List FlowMark := flowMarks action.marks [] []

/-! ## Merging -/

/-- `merge_request_action`. -/
def mergeRequestAction (dst src : RequestAction) : RequestAction where
  request := src.request.or dst.request
  syntheticResponse := src.syntheticResponse.or dst.syntheticResponse
  continueFilters := if src.syntheticResponse.isSome then false else src.continueFilters
  dropClientResponse := dst.dropClientResponse || src.dropClientResponse
  marks := dst.marks ++ src.marks
  tags := dst.tags ++ src.tags
  notes := dst.notes ++ src.notes
  outboundHttp := dst.outboundHttp ++ src.outboundHttp
  -- `bypass_upstream_proxy` is not merged
  bypassUpstreamProxy := dst.bypassUpstreamProxy

/-- `merge_response_action`. -/
def mergeResponseAction (dst src : ResponseAction) : ResponseAction where
  response := src.response.or dst.response
  marks := dst.marks ++ src.marks
  tags := dst.tags ++ src.tags
  notes := dst.notes ++ src.notes
  outboundHttp := dst.outboundHttp ++ src.outboundHttp
  continueFilters := src.continueFilters
  dropClientResponse := dst.dropClientResponse || src.dropClientResponse

/-- `merge_connect_action`. -/
def mergeConnectAction (dst src : ConnectAction) : ConnectAction where
  marks := dst.marks ++ src.marks
  dropTunnel := if src.dropTunnel then true else dst.dropTunnel
  rejectStatus := src.rejectStatus.or dst.rejectStatus
  continueFilters := src.continueFilters

/-! ## Messages as filters see them -/

/-- `version_to_string`. -/
def versionToString : Version → Str
  | .http09 => "HTTP/0.9".toList
  | .http10 => "HTTP/1.0".toList
  | .http11 => "HTTP/1.1".toList
  | .http2 => "HTTP/2".toList
  | .http3 => "HTTP/3".toList

/-- `filter_headers_from_header_map`. -/
def filterHeadersFromHeaderMap (headers : HeaderMap) : List FilterHeader :=
  headers.map fun header => ⟨header.1.text, header.2.display⟩

section Build

variable (codecs : Codecs)

/-- The body of a message, as `build_filter_request` and `build_filter_response` show it. -/
def buildFilterBody (headers : HeaderMap) (body : Bytes) : FilterBody where
  bytes := body
  text := Bytes.fromUtf8 (decodedBodyOrRaw codecs headers body)
  contentType := normalizedContentType headers
  encoding := HeaderMap.getStr headers contentEncoding
  truncated := false

/-- `build_filter_request`. -/
def buildFilterRequest (id : Str) (seq : UInt64) (flowKey : Str) (parts : RequestParts) (reqProtocol reqHost : Str)
    (reqBodyBytes : Bytes) (tlsSni : Option Str) : FilterRequest where
  id
  seq
  flowKey
  method := parts.method
  scheme := reqProtocol
  host := reqHost
  path := parts.uri.path
  query := parts.uri.query.getD []
  version := versionToString parts.version
  headers := filterHeadersFromHeaderMap parts.headers
  body := buildFilterBody codecs parts.headers reqBodyBytes
  tlsSni

/-- `build_filter_response`. -/
def buildFilterResponse (parts : ResponseParts) (resBodyBytes : Bytes) (upstreamStatus : Option UInt16)
    (elapsedMs : Int64) : FilterResponse where
  status := parts.status.code
  version := versionToString parts.version
  headers := filterHeadersFromHeaderMap parts.headers
  body := buildFilterBody codecs parts.headers resBodyBytes
  upstreamStatus
  elapsedMs := some elapsedMs

end Build

/-! ## Patches -/

/-- The first loop of `apply_header_patch`: names that are not valid are ignored. -/
def removeHeaders (headers : HeaderMap) (names : List Str) : HeaderMap :=
  names.foldl (fun headers name =>
    match HeaderName.fromBytes name with
    | some name => HeaderMap.remove headers name
    | none => headers) headers

/-- The second loop of `apply_header_patch`: names and values that are not valid are ignored. -/
def setHeaders (headers : HeaderMap) (set : List FilterHeader) : HeaderMap :=
  set.foldl (fun headers header =>
    match HeaderName.fromBytes header.name, HeaderValue.fromStr header.value with
    | some name, some value => HeaderMap.insert headers name value
    | _, _ => headers) headers

/-- `apply_header_patch`. -/
def applyHeaderPatch (headers : HeaderMap) (set : List FilterHeader) (removed : List Str) : HeaderMap :=
  setHeaders (removeHeaders headers removed) set

/-- `remove_body_integrity_headers`. -/
def removeBodyIntegrityHeaders (headers : HeaderMap) : HeaderMap :=
  [contentLength, contentEncoding, etag, contentMd5].foldl HeaderMap.remove headers

/-- The end of `apply_request_patch` and `apply_response_patch`: headers and body together. -/
def applyBodyPatch (headers : HeaderMap) (body : Bytes) : Option FilterBodyPatch → HeaderMap × Bytes
  | none => (headers, body)
  | some patch =>
      let headers := removeBodyIntegrityHeaders headers
      let headers := match patch.contentType.bind HeaderValue.fromStr with
        | some value => HeaderMap.insert headers contentType value
        | none => headers
      (headers, patch.bytes)

section Apply

variable (parsePathAndQuery : Str → Option (Str × Option Str))

/-- The target that a patch asks for. -/
def patchUri (uri : Uri) (path query : Option Str) : Uri :=
  if path.isSome ∨ query.isSome then
    let nextPath := path.getD uri.path
    let pathAndQuery := match query.or uri.query with
      | some query => if query ≠ [] then nextPath ++ '?' :: query else nextPath
      | none => nextPath
    ((parsePathAndQuery pathAndQuery).bind (Uri.fromParts uri.scheme uri.authority)).getD uri
  else uri

/-- `apply_request_patch`. -/
def applyRequestPatch (parts : RequestParts) (body : Bytes) (patch : FilterRequestPatch) : RequestParts × Bytes :=
  let headers := applyHeaderPatch parts.headers patch.setHeaders patch.removeHeaders
  let (headers, body) := applyBodyPatch headers body patch.body
  ({ parts with
      method := (patch.method.bind parseMethod).getD parts.method
      uri := patchUri parsePathAndQuery parts.uri patch.path patch.query
      headers }, body)

end Apply

/-- `apply_response_patch`. -/
def applyResponsePatch (parts : ResponseParts) (body : Bytes) (patch : FilterResponsePatch) : ResponseParts × Bytes :=
  let headers := applyHeaderPatch parts.headers patch.setHeaders patch.removeHeaders
  let (headers, body) := applyBodyPatch headers body patch.body
  ({ parts with
      status := (patch.status.bind StatusCode.fromU16).getD parts.status
      headers }, body)

end Inspect.Flow
