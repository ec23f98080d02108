import Inspect.Flow.BodyEncoding
import Inspect.Lib.Json.Value

/-!
# `Flow.CaptureService` — how a message is stored

The embedding of `src/mitm/flow/capture_service.rs`: under which name and with which bytes the body of a message is
written, what the metadata says about it, and the headers as JSON.
-/

namespace Inspect.Flow

open Http

/-! ## Headers as JSON -/

section Json

variable {N : Type}

/-- One round of the loop of `headers_to_json`: the second value of a name makes an array. -/
def pushHeaderJson (members : List (Str × Json N)) (header : HeaderName × HeaderValue) : List (Str × Json N) :=
  let value : Json N := .string header.2.display
  match members.lookup header.1.text with
  | none => Members.insert header.1.text value members
  | some (.array items) => Members.insert header.1.text (.array (items ++ [value])) members
  | some existing => Members.insert header.1.text (.array [existing, value]) members

/-- `headers_to_json`. -/
def headersToJson (headers : HeaderMap) : Json N := .object (headers.foldl pushHeaderJson [])

end Json

/-- `normalized_content_type`. -/
def normalizedContentType (headers : HeaderMap) : Option Str :=
  (HeaderMap.getStr headers contentType).bind fun value =>
    let value := Text.trim ((value.splitOn ';').headD [])
    if value = [] then none else some (Text.toAsciiLowercase value)

/-! ## File names -/

/-- The ending of files in a coding. -/
def ContentCoding.suffix : ContentCoding → Str
  | .gzip => "gz".toList
  | .deflate => "deflate".toList
  | .br => "br".toList
  | .zstd => "zst".toList

/-- The codings that `body_file_name` finds in the headers. -/
def contentCodings (headers : HeaderMap) : List ContentCoding :=
  match HeaderMap.getStr headers contentEncoding with
  | none => []
  | some value => (encodingParts value).filterMap ContentCoding.ofName

/-- `body_file_name`. -/
def bodyFileName (base : Str) (headers : HeaderMap) : Str :=
  let suffixes := (contentCodings headers).map ContentCoding.suffix
  if suffixes = [] then base else base ++ '.' :: ".".toList.intercalate suffixes

/-! ## Bodies -/

structure CaptureService where
  bodySaveLimitBytes : Option Nat
  bodyOmitContentTypes : List Str

/-- `CaptureService::new`. -/
def CaptureService.new (bodySaveLimitBytes : Option Nat) (bodyOmitContentTypes : List Str) : CaptureService where
  bodySaveLimitBytes
  bodyOmitContentTypes :=
    (bodyOmitContentTypes.map fun value => Text.toAsciiLowercase (Text.trim value)).filter fun value => value ≠ []

/-- `body_omit_reason_by_content_type`. -/
def bodyOmitReasonByContentType (headers : HeaderMap) (omitContentTypes : List Str) : Option Str :=
  (normalizedContentType headers).bind fun contentType =>
    (omitContentTypes.find? fun pattern => pattern.isPrefixOf contentType).map fun pattern =>
      "content-type ".toList ++ contentType ++ " matched omit rule ".toList ++ pattern

structure BodyStorageInfo where
  savedSize : Nat
  truncated : Bool
deriving DecidableEq

/-- `body_storage_info`. -/
def bodyStorageInfo (bodyLen : Nat) : Option Nat → BodyStorageInfo
  | some maxLen => ⟨min bodyLen maxLen, maxLen < bodyLen⟩
  | none => ⟨bodyLen, false⟩

/-- What `write_body_limited` appends to a body that is cut. -/
def truncationMarker (maxLen total : Nat) : Bytes :=
  Text.bytes ("\n<< mitm truncated: max_len=".toList ++ Nat.toDigits 10 maxLen ++ " bytes, total=".toList
    ++ Nat.toDigits 10 total ++ " bytes >>".toList)

/-- The file that `write_body_for_storage` writes. -/
def writeBodyForStorage (bytes : Bytes) : Option Nat → Bytes
  | some maxLen =>
      bytes.take maxLen ++ if maxLen < bytes.length then truncationMarker maxLen bytes.length else []
  | none => bytes

/-- The body file of a message, and what the metadata says about it. -/
structure StoredBody where
  fileName : Str
  file : Bytes
  savedSize : Nat
  truncated : Bool
  saveLimit : Option Nat
deriving DecidableEq

inductive ResponseOrigin
  | upstream
  | synthetic
  | proxyError
  | webSocketUpgrade
deriving DecidableEq, Repr

section Store

variable (codecs : Codecs) (service : CaptureService)

/-- The bytes that are stored: the decoded body, but only under a save limit. -/
def CaptureService.storedBodyBytes (headers : HeaderMap) (body : Bytes) : Bytes :=
  if service.bodySaveLimitBytes.isNone then body else decodedBodyOrRaw codecs headers body

/-- The part that `commit_request` and `commit_response` share. -/
def CaptureService.storeBody (base : Str) (headers : HeaderMap) (body : Bytes) : StoredBody :=
  match bodyOmitReasonByContentType headers service.bodyOmitContentTypes with
  | some reason =>
      let notice := Text.bytes ("<body omitted by inspect: ".toList ++ reason ++ ">\n".toList)
      ⟨bodyFileName base headers, notice, notice.length, true, some 0⟩
  | none =>
      let bytes := service.storedBodyBytes codecs headers body
      let info := bodyStorageInfo bytes.length service.bodySaveLimitBytes
      ⟨bodyFileName base headers, writeBodyForStorage bytes service.bodySaveLimitBytes, info.savedSize,
        info.truncated, service.bodySaveLimitBytes⟩

/-- The body file of `commit_request`. -/
def CaptureService.storeRequestBody (headers : HeaderMap) (body : Bytes) : StoredBody :=
  service.storeBody codecs "request.body".toList headers body

/-- The body file of `commit_response`: the message of an upstream error takes the place of the body. -/
def CaptureService.storeResponseBody (headers : HeaderMap) (body : Bytes) (bodyTruncatedOverride : Option Bool)
    (upstreamErrorMessage : Option Str) : StoredBody :=
  let stored : StoredBody := match upstreamErrorMessage with
    | some message =>
        let bytes := Text.bytes message
        let info := bodyStorageInfo bytes.length service.bodySaveLimitBytes
        ⟨bodyFileName "response.body".toList headers, writeBodyForStorage bytes service.bodySaveLimitBytes,
          info.savedSize, info.truncated, service.bodySaveLimitBytes⟩
    | none => service.storeBody codecs "response.body".toList headers body
  { stored with truncated := bodyTruncatedOverride.getD stored.truncated }

end Store

end Inspect.Flow
