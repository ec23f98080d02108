import Inspect.Flow.HttpTypes
import Inspect.Flow.SseCapture

/-!
# `Flow.ResponseBody` — how a body is read and handed on

The part of `src/mitm/flow/dispatcher.rs` that deals with bodies: which responses are collected, probed or streamed,
and the bodies that count or record what passes through them.

A task that `tokio::spawn` was called for runs at some later time: the body keeps the tasks that it has spawned, and
how many of them have run.
-/

namespace Inspect.Flow

open Http Sse

/-! ## Reading -/

/-- The data of a body that is read to its end, or none if the transfer breaks off. -/
def collected : Body → Option Bytes
  | [] => some []
  | .error :: _ => none
  | .pending :: polls => collected polls
  | .frame frame :: polls => (collected polls).map fun rest => frame.dataRef ++ rest

/-- `collect_body`: the body of a transfer that breaks off is empty. -/
def collectBody (body : Body) : Bytes := (collected body).getD []

inductive ProbedResponseBody
  | collected (bytes : Bytes)
  | stream (start : Bytes) (rest : Body)
deriving DecidableEq

/-- The loop of `probe_response_body`: frames are buffered until there is more than the threshold, or the body ends or
    breaks off. -/
def probeLoop (threshold : Nat) (buffered : Bytes) : Body → ProbedResponseBody
  | [] | .error :: _ => .collected buffered
  | .pending :: polls | .frame (.trailers _) :: polls => probeLoop threshold buffered polls
  | .frame (.data bytes) :: polls =>
      if threshold < (buffered ++ bytes).length then .stream (buffered ++ bytes) polls
      else probeLoop threshold (buffered ++ bytes) polls

/-- `probe_response_body`. -/
def probeResponseBody (body : Body) (threshold : Nat) : ProbedResponseBody := probeLoop threshold [] body

/-- The polls of `PrefixThenBody`: what was buffered comes first. -/
def prefixThenBody (start : Bytes) (rest : Body) : Body := .frame (.data start) :: rest

/-! ## Modes -/

/-- `is_sse_response`. -/
def isSseResponse (headers : HeaderMap) : Bool :=
  (HeaderMap.getStr headers contentType).any fun value =>
    Text.eqIgnoreAsciiCase (Text.trim ((value.splitOn ';').headD [])) "text/event-stream".toList

inductive ResponseBodyMode
  | collect
  | stream
  | probe
deriving DecidableEq, Repr

/-- `response_status_never_has_body`. -/
def responseStatusNeverHasBody (status : StatusCode) : Bool :=
  status.isInformational || status == StatusCode.noContent || status == StatusCode.notModified

/-- `content_length`. -/
def contentLengthOf (headers : HeaderMap) : Option Nat :=
  (HeaderMap.getStr headers contentLength).bind (Text.parseUnsigned (2 ^ 64))

/-- `is_compressed_response`: any of the codings counts. -/
def isCompressedResponse (headers : HeaderMap) : Bool :=
  (HeaderMap.getStr headers contentEncoding).any fun value =>
    (encodingParts value).any fun encoding => (ContentCoding.ofName encoding).isSome

/-- `is_probably_text_content_type`. -/
def isProbablyTextContentType (contentType : Str) : Bool :=
  "text/".toList.isPrefixOf contentType
    || contentType == "application/json".toList
    || "+json".toList.isSuffixOf contentType
    || contentType == "application/xml".toList
    || "+xml".toList.isSuffixOf contentType
    || contentType == "application/javascript".toList
    || contentType == "application/x-javascript".toList
    || contentType == "application/ecmascript".toList
    || contentType == "application/x-www-form-urlencoded".toList

/-- `is_probably_binary_response`. -/
def isProbablyBinaryResponse (headers : HeaderMap) : Bool :=
  match normalizedContentType headers with
  | none => false
  | some contentType =>
      if isProbablyTextContentType contentType then false
      else
        "image/".toList.isPrefixOf contentType
          || "video/".toList.isPrefixOf contentType
          || "audio/".toList.isPrefixOf contentType
          || contentType == "application/octet-stream".toList
          || contentType == "application/pdf".toList
          || contentType == "application/zip".toList
          || contentType == "application/x-zip-compressed".toList
          || contentType == "application/gzip".toList
          || contentType == "application/x-gzip".toList
          || contentType == "application/x-tar".toList
          || contentType == "application/x-7z-compressed".toList
          || contentType == "application/vnd.rar".toList
          || contentType == "application/vnd.microsoft.portable-executable".toList
          || "application/vnd.".toList.isPrefixOf contentType

/-- `response_body_mode`. -/
def responseBodyMode (method : Str) (status : StatusCode) (headers : HeaderMap) (threshold : Nat) :
    ResponseBodyMode :=
  if threshold = 0 then .collect
  else if Text.eqIgnoreAsciiCase method "HEAD".toList then .collect
  else if responseStatusNeverHasBody status then .collect
  else
    match contentLengthOf headers with
    | some len => if threshold < len then .stream else .collect
    | none =>
        if isCompressedResponse headers then .probe
        else if isProbablyBinaryResponse headers then .probe
        else .collect

/-! ## The notice that stands for a streamed body -/

/-- `streaming_response_capture_notice`. -/
def streamingResponseCaptureNotice (headers : HeaderMap) (threshold : Nat) (streamedBytes : UInt64)
    (interrupted : Bool) : Bytes :=
  let contentType := (normalizedContentType headers).getD "<unknown>".toList
  let contentLength := ((contentLengthOf headers).map (Nat.toDigits 10)).getD "<unknown>".toList
  let contentEncoding := (HeaderMap.getStr headers contentEncoding).getD "<none>".toList
  let streamStatus :=
    if interrupted then "interrupted before upstream EOF or dropped before normal completion".toList
    else "completed normally".toList
  Text.bytes (
    "<response body streamed by inspect>\n\n".toList
      ++ "This response body was not fully buffered or captured.\n\n".toList
      ++ "Reason:\n".toList
      ++ "  inspect switched this response to streaming mode because it matched the\n".toList
      ++ "  stream_body_threshold_bytes policy or a streaming body heuristic.\n\n".toList
      ++ "Configuration:\n".toList
      ++ "  stream_body_threshold_bytes = ".toList ++ Nat.toDigits 10 threshold ++ "\n\n".toList
      ++ "Observed response metadata:\n".toList
      ++ "  content-type: ".toList ++ contentType ++ "\n".toList
      ++ "  content-encoding: ".toList ++ contentEncoding ++ "\n".toList
      ++ "  content-length: ".toList ++ contentLength ++ "\n\n".toList
      ++ "Streaming result:\n".toList
      ++ "  status: ".toList ++ streamStatus ++ "\n".toList
      ++ "  streamed-bytes-observed-by-inspect: ".toList ++ Nat.toDigits 10 streamedBytes.toNat ++ "\n\n".toList
      ++ "Notes:\n".toList
      ++ "  - The response was forwarded to the client as a stream.\n".toList
      ++ "  - The complete response body is not stored in this capture.\n".toList
      ++ "  - streamed-bytes-observed-by-inspect is counted from body data frames that\n".toList
      ++ "    inspect actually observed while forwarding the stream.\n".toList
      ++ "  - This value may differ from the Content-Length header if the client cancels,\n".toList
      ++ "    the upstream connection ends early, the upstream header is inaccurate, or the\n".toList
      ++ "    response uses protocol framing where Content-Length is absent.\n".toList
      ++ "  - Whole-body Roto response filters, response-body rewrites, completed filters,\n".toList
      ++ "    and captured-response outbound HTTP payloads are skipped for this streamed body.\n".toList
      ++ "  - Set stream_body_threshold_bytes = 0 to disable threshold-based streaming.\n".toList)

/-! ## Bodies that are recorded as they pass -/

structure SseCaptureBody where
  inner : Body
  capture : SseCapture
deriving DecidableEq

/-- `poll_frame` of `SseCaptureBody`. -/
def SseCaptureBody.poll (body : SseCaptureBody) : Polled × SseCaptureBody :=
  let (result, inner) := body.inner.poll
  match result with
  | .frame (.data bytes) => (result, ⟨inner, body.capture.push bytes⟩)
  | .done => (result, ⟨inner, body.capture.finish⟩)
  | .frame (.trailers _) | .error | .pending => (result, ⟨inner, body.capture⟩)

/-- Dropping the body drops the capture, which finishes it. -/
def SseCaptureBody.drop (body : SseCaptureBody) : SseCaptureBody := { body with capture := body.capture.finish }

/-- The state of a `StreamingResponseFinalize` that changes. -/
structure StreamingResponseFinalize where
  streamedBytes : UInt64
  finalized : Bool
  /-- the tasks spawned so far, each with its `interrupted` -/
  spawned : List Bool
  /-- how many of them have run -/
  ran : Nat
deriving DecidableEq

/-- `StreamingResponseFinalize::new`. -/
def StreamingResponseFinalize.new : StreamingResponseFinalize := ⟨0, false, [], 0⟩

/-- `add_streamed_bytes`: the counter wraps. -/
def StreamingResponseFinalize.addStreamedBytes (self : StreamingResponseFinalize) (len : Nat) :
    StreamingResponseFinalize :=
  { self with streamedBytes := self.streamedBytes + UInt64.ofNat len }

/-- `finalize`: the flag is set, and a task is spawned if it was not set before. -/
def StreamingResponseFinalize.finalize (self : StreamingResponseFinalize) (interrupted : Bool) :
    StreamingResponseFinalize :=
  if self.finalized then self else { self with finalized := true, spawned := self.spawned ++ [interrupted] }

structure StreamingCaptureBody where
  inner : Body
  finalize : StreamingResponseFinalize
deriving DecidableEq

/-- `poll_frame` of `StreamingCaptureBody`. -/
def StreamingCaptureBody.poll (body : StreamingCaptureBody) : Polled × StreamingCaptureBody :=
  let (result, inner) := body.inner.poll
  match result with
  | .frame (.data bytes) => (result, ⟨inner, body.finalize.addStreamedBytes bytes.length⟩)
  | .frame (.trailers _) => (result, ⟨inner, body.finalize⟩)
  | .done => (result, ⟨inner, body.finalize.finalize false⟩)
  | .error => (result, ⟨inner, body.finalize.finalize true⟩)
  | .pending => (result, ⟨inner, body.finalize⟩)

/-- `drop` of `StreamingCaptureBody`. -/
def StreamingCaptureBody.drop (body : StreamingCaptureBody) : StreamingCaptureBody :=
  { body with finalize := body.finalize.finalize true }

end Inspect.Flow
