import Inspect.Flow.WebSocket

/-!
# `Flow.CaptureCommit` — what a commit leaves behind

The files and the row of `commit_request`, `commit_response` and `commit_tunnel_failure` of
`src/mitm/flow/capture_service.rs`, when all writes succeed. `rfc3999z` is the text of a time, `jsonNumber` an integer
as a JSON number.
-/

namespace Inspect.Flow

open Http Filters

/-! ## The disk -/

abbrev Disk := FilePath → Option Bytes

/-- `tokio::fs::write`. -/
def Disk.write (disk : Disk) (file : FilePath × Bytes) : Disk :=
  fun path => if path = file.1 then some file.2 else disk path

/-- Files that are written one after the other. -/
def Disk.writeAll (files : List (FilePath × Bytes)) (disk : Disk) : Disk := files.foldl Disk.write disk

theorem writeAll_of_not_mem {files : List (FilePath × Bytes)} {path : FilePath} (h : ∀ file ∈ files, path ≠ file.1)
    (disk : Disk) : disk.writeAll files path = disk path := by
  unfold Disk.writeAll
  induction files generalizing disk with
  | nil => rfl
  | cons file files ih =>
      rw [List.foldl_cons, ih (fun file hmem => h file (List.mem_cons_of_mem _ hmem)), Disk.write,
        if_neg (h file List.mem_cons_self)]

/-- A file that is written, and not written again, holds what was written. -/
theorem writeAll_of_mem (files : List (FilePath × Bytes)) (path : FilePath) (bytes : Bytes)
    {files' : List (FilePath × Bytes)} (h : ∀ file ∈ files', path ≠ file.1) (disk : Disk) :
    disk.writeAll (files ++ (path, bytes) :: files') path = some bytes := by
  have hrest := writeAll_of_not_mem h (Disk.write (disk.writeAll files) (path, bytes))
  unfold Disk.writeAll at hrest ⊢
  rw [List.foldl_append, List.foldl_cons, hrest, Disk.write, if_pos rfl]

/-- What a commit leaves: files, and a row of a table. -/
structure Commit (Row : Type) where
  files : List (FilePath × Bytes)
  row : Row

/-! ## Commits -/

/-- `ResponseOrigin::as_str`. -/
def ResponseOrigin.asStr : ResponseOrigin → Str
  | .upstream => "upstream".toList
  | .synthetic => "synthetic".toList
  | .proxyError => "proxy_error".toList
  | .webSocketUpgrade => "websocket_upgrade".toList

structure TunnelFailureCapture where
  id : Str
  seq : UInt64
  flowKey : Str
  flowDir : FilePath
  epochMs : Int64
  host : Str
  port : UInt16
  stage : Str
  error : Str

section Commit

variable {N : Type} (codecs : Codecs) (service : CaptureService)

/-- `CaptureService::commit_request`. -/
def CaptureService.commitRequest (capture : EffectiveRequestCapture) : Commit (RequestMetadata N) :=
  let stored := service.storeRequestBody codecs capture.headers capture.bodyBytes
  let requestHeadPath := capture.flowDir ++ ["request.head".toList]
  let requestBodyPath := capture.flowDir ++ [stored.fileName]
  let requestHeadText := buildRequestHeadText ⟨capture.method, capture.uri, capture.version, capture.headers⟩
    capture.tlsSni
  { files := [(requestHeadPath, Text.bytes requestHeadText), (requestBodyPath, stored.file)]
    row := {
      id := capture.id.toText
      seq := capture.seq.toInt64
      flowKey := capture.flowKey
      flowDir := capture.flowDir
      requestHeadPath
      requestBodyPath
      epochMs := capture.epochMs
      method := capture.method
      protocol := capture.protocol
      host := capture.host
      uri := capture.uri.path
      queryStr := capture.uri.query.getD []
      version := versionToString capture.version
      tlsSni := capture.tlsSni
      headers := headersToJson capture.headers
      bodySize := Int64.ofNat capture.bodyBytes.length
      bodySavedSize := Int64.ofNat stored.savedSize
      bodyTruncated := stored.truncated
      bodySaveLimit := stored.saveLimit.map Int64.ofNat } }

variable (serde : SerdeJson N)

/-- The file `ssl_tls.json` of a response. -/
def sslTlsText (capture : EffectiveResponseCapture N) : Str :=
  serde.toStringPretty (.object [
    ("request".toList, .object [("tls_sni".toList, jsonText capture.tlsSni)]),
    ("response".toList, .object [
      ("upstream_tls".toList, capture.tlsUpstream.getD .null),
      ("origin".toList, .string capture.origin.asStr)])])

/-- `CaptureService::commit_response`. -/
def CaptureService.commitResponse (canonicalReason : StatusCode → Option Str)
    (capture : EffectiveResponseCapture N) : Commit (ResponseMetadata N) :=
  let stored := service.storeResponseBody codecs capture.headers capture.bodyBytes capture.bodyTruncatedOverride
    capture.upstreamErrorMessage
  let responseHeadPath := capture.flowDir ++ ["response.head".toList]
  let responseBodyPath := capture.flowDir ++ [stored.fileName]
  let responseHeadText := buildResponseHeadText canonicalReason ⟨capture.status, capture.version, capture.headers⟩
  { files := [
      (capture.flowDir ++ ["ssl_tls.json".toList], Text.bytes (sslTlsText serde capture)),
      (responseHeadPath, Text.bytes responseHeadText),
      (responseBodyPath, stored.file)]
    row := {
      id := capture.id.toText
      seq := capture.seq.toInt64
      flowKey := capture.flowKey
      flowDir := capture.flowDir
      responseHeadPath
      responseBodyPath
      elapsed := capture.elapsedMs
      status := capture.status.code
      upstreamStatus := capture.upstreamStatus
      version := versionToString capture.version
      tlsUpstream := capture.tlsUpstream
      upstreamRemoteAddr := capture.upstreamRemoteAddr
      headers := headersToJson capture.headers
      bodySize := capture.bodySizeOverride.getD (Int64.ofNat capture.bodyBytes.length)
      bodySavedSize := Int64.ofNat stored.savedSize
      bodyTruncated := stored.truncated
      bodySaveLimit := stored.saveLimit.map Int64.ofNat } }

variable (jsonNumber : Int → N) (rfc3999z : Int64 → Str)

/-- `CaptureService::commit_tunnel_failure`: there is no file of a request. -/
def commitTunnelFailure (capture : TunnelFailureCapture) : Commit (RequestMetadata N) :=
  let port := Nat.toDigits 10 capture.port.toNat
  let failure : Json N := .object [
    ("kind".toList, .string "tls_tunnel_failure".toList),
    ("method".toList, .string "CONNECT".toList),
    ("target".toList, .string (capture.host ++ ':' :: port)),
    ("host".toList, .string capture.host),
    ("port".toList, .number (jsonNumber capture.port.toNat)),
    ("time".toList, .string (rfc3999z capture.epochMs)),
    ("epoch_ms".toList, .number (jsonNumber capture.epochMs.toInt)),
    ("stage".toList, .string capture.stage),
    ("result".toList, .string "failed".toList),
    ("error".toList, .string capture.error)]
  { files := [(capture.flowDir ++ ["ssl_tls.json".toList], Text.bytes (serde.toStringPretty failure))]
    row := {
      id := capture.id
      seq := capture.seq.toInt64
      flowKey := capture.flowKey
      flowDir := capture.flowDir
      requestHeadPath := []
      requestBodyPath := []
      epochMs := capture.epochMs
      method := "CONNECT".toList
      protocol := "https".toList
      host := capture.host
      uri := []
      queryStr := []
      version := []
      tlsSni := none
      headers := .object []
      bodySize := 0
      bodySavedSize := 0
      bodyTruncated := false
      bodySaveLimit := none } }

end Commit

/-! ## Handshakes -/

namespace HandshakeEffect

variable {N : Type}

/-- The file that an effect writes. -/
def file? : HandshakeEffect N → Option (FilePath × Bytes)
  | .write path text => some (path, Text.bytes text)
  | _ => none

/-- The row that an effect inserts into the table of requests. -/
def requestRow? : HandshakeEffect N → Option (RequestMetadata N)
  | .request row => some row
  | _ => none

/-- The row that an effect inserts into the table of responses. -/
def responseRow? : HandshakeEffect N → Option (ResponseMetadata N)
  | .response row => some row
  | _ => none

end HandshakeEffect

section Handshake

variable {S N : Type} (dispatcher : FlowDispatcher S N) (bodySaveLimitBytes : Option Nat)
  (ctx : RequestDispatchContext)

/-- What a handshake leaves of its request. -/
def handshakeRequestCommit (req : Request) : Commit (RequestMetadata N) :=
  let effects := websocketRequestEffects dispatcher bodySaveLimitBytes ctx req
  { files := effects.filterMap HandshakeEffect.file?
    row := (effects.findSome? HandshakeEffect.requestRow?).get rfl }

/-- What a handshake leaves of its response. -/
def handshakeResponseCommit (parts : ResponseParts) (elapsedMs : Int64) : Commit (ResponseMetadata N) :=
  let effects := websocketResponseEffects dispatcher bodySaveLimitBytes ctx parts elapsedMs
  { files := effects.filterMap HandshakeEffect.file?
    row := (effects.findSome? HandshakeEffect.responseRow?).get rfl }

end Handshake

end Inspect.Flow
