import Inspect.Flow.Dispatcher

/-!
# `Flow.WebSocket` — the handshake of a WebSocket

The embedding of `dispatch_websocket_handshake` of `src/mitm/flow/websocket.rs`, with the rows of
`src/mitm/store_metadata.rs` that it stores. A handshake is handed on as it is: no filter sees it. What it writes is
recorded whether the write succeeds or not, since a failure is only logged.

The upgraded connection itself is not modelled: nothing of its payload is captured.
-/

namespace Inspect.Flow

open Http Filters

/-! ## Rows -/

structure RequestMetadata (N : Type) where
  id : Str
  seq : Int64
  flowKey : Str
  flowDir : FilePath
  requestHeadPath : FilePath
  requestBodyPath : FilePath
  epochMs : Int64
  method : Str
  protocol : Str
  host : Str
  uri : Str
  queryStr : Str
  version : Str
  tlsSni : Option Str
  headers : Json N
  bodySize : Int64
  bodySavedSize : Int64
  bodyTruncated : Bool
  bodySaveLimit : Option Int64

structure ResponseMetadata (N : Type) where
  id : Str
  seq : Int64
  flowKey : Str
  flowDir : FilePath
  responseHeadPath : FilePath
  responseBodyPath : FilePath
  elapsed : Int64
  status : UInt16
  upstreamStatus : Option UInt16
  version : Str
  tlsUpstream : Option (Json N)
  upstreamRemoteAddr : Option Str
  headers : Json N
  bodySize : Int64
  bodySavedSize : Int64
  bodyTruncated : Bool
  bodySaveLimit : Option Int64

/-- What a handshake does to the world. -/
inductive HandshakeEffect (N : Type)
  | write (path : FilePath) (text : Str)
  | request (row : RequestMetadata N)
  | requestCommitted (event : RequestCommitted)
  /-- a call of the upstream client -/
  | serveWebsocket (request : Request)
  | response (row : ResponseMetadata N)
  | responseCommitted (event : ResponseCommitted)

/-! ## The handshake -/

/-- `websocket_scheme_from_http_scheme`. -/
def websocketSchemeFromHttpScheme (scheme : Str) : Str :=
  if scheme = "https".toList then "wss".toList
  else if scheme = "http".toList then "ws".toList
  else scheme

def websocketNotCapturedMessage : Str :=
  ("<WebSocket upgraded; payload is not captured by inspect. Use tcpdump + SSLKEYLOGFILE + Wireshark.>\n").toList

section Handshake

variable {S N : Type} (dispatcher : FlowDispatcher S N)

/-- The file `ssl_tls.json` of a handshake. -/
def websocketTlsText (tlsSni : Option Str) : Str :=
  dispatcher.serde.toStringPretty (.object [
    ("request".toList, .object [("tls_sni".toList, jsonText tlsSni)]),
    ("response".toList, .object [
      ("upstream_tls".toList, .null),
      ("note".toList, .string "websocket payload is not captured".toList)])])

/-- What `dispatch_websocket_handshake` does before it calls the upstream. -/
def websocketRequestEffects (bodySaveLimitBytes : Option Nat) (ctx : RequestDispatchContext) (req : Request) :
    List (HandshakeEffect N) :=
  [.write (ctx.flowDir ++ ["request.head".toList]) (buildRequestHeadText req.parts ctx.tlsSni),
    .write (ctx.flowDir ++ ["request.body".toList]) "<empty>\n".toList,
    .write (ctx.flowDir ++ ["ssl_tls.json".toList]) (websocketTlsText dispatcher ctx.tlsSni),
    .request {
      id := ctx.id.toText
      seq := ctx.seq.toInt64
      flowKey := ctx.flowKey
      flowDir := ctx.flowDir
      requestHeadPath := ctx.flowDir ++ ["request.head".toList]
      requestBodyPath := ctx.flowDir ++ ["request.body".toList]
      epochMs := ctx.epochMs
      method := ctx.method
      protocol := ctx.protocol
      host := ctx.host
      uri := ctx.uri.path
      queryStr := ctx.uri.query.getD []
      version := versionToString req.parts.version
      tlsSni := ctx.tlsSni
      headers := headersToJson req.parts.headers
      bodySize := 0
      bodySavedSize := 0
      bodyTruncated := false
      bodySaveLimit := bodySaveLimitBytes.map Int64.ofNat },
    .requestCommitted {
      id := ctx.id.toText
      seq := ctx.seq
      flowKey := ctx.flowKey
      epochMs := ctx.epochMs
      -- the list shows no method but the kind of flow
      method := "WS".toList
      protocol := ctx.protocol
      host := ctx.host
      uri := ctx.uri.path
      queryStr := ctx.uri.query.getD []
      version := versionToString req.parts.version
      marks := [] }]

/-- What `dispatch_websocket_handshake` does with the response of the upstream. -/
def websocketResponseEffects (bodySaveLimitBytes : Option Nat) (ctx : RequestDispatchContext)
    (parts : ResponseParts) (elapsedMs : Int64) : List (HandshakeEffect N) :=
  [.write (ctx.flowDir ++ ["response.head".toList]) (buildResponseHeadText dispatcher.canonicalReason parts),
    .write (ctx.flowDir ++ ["response.body".toList]) websocketNotCapturedMessage,
    .response {
      id := ctx.id.toText
      seq := ctx.seq.toInt64
      flowKey := ctx.flowKey
      flowDir := ctx.flowDir
      responseHeadPath := ctx.flowDir ++ ["response.head".toList]
      responseBodyPath := ctx.flowDir ++ ["response.body".toList]
      elapsed := elapsedMs
      status := parts.status.code
      upstreamStatus := some parts.status.code
      version := versionToString parts.version
      tlsUpstream := none
      upstreamRemoteAddr := none
      headers := headersToJson parts.headers
      bodySize := 0
      bodySavedSize := Int64.ofNat (Text.bytes websocketNotCapturedMessage).length
      bodyTruncated := false
      bodySaveLimit := bodySaveLimitBytes.map Int64.ofNat },
    .responseCommitted {
      id := ctx.id.toText
      flowKey := ctx.flowKey
      status := parts.status.code
      elapsedMs
      version := versionToString parts.version
      marks := [] }]

/-- `dispatch_websocket_handshake`: a handshake has a number even if its context cannot be found. -/
def dispatchWebsocketHandshake (serveWebsocket : Request → Response) (bodySaveLimitBytes : Option Nat)
    (req : Request) (state : FlowState S N) : Response × List (HandshakeEffect N) × FlowState S N :=
  let seq := state.seq + 1
  match dispatcher.requestContext req with
  | none => (intoResponse .badRequest, [], { state with seq })
  | some reqCtx =>
      let id := state.uuids 0
      let flowKey := flowKeyOf seq id
      let ctx : RequestDispatchContext := {
        id, seq, flowKey
        flowDir := dispatcher.flowsDir ++ [flowKey]
        epochMs := state.clock 0
        tlsSni := req.tlsSni
        protocol := websocketSchemeFromHttpScheme reqCtx.protocol
        host := reqCtx.host
        uri := req.parts.uri
        method := req.parts.method }
      let response := serveWebsocket req
      (response,
        websocketRequestEffects dispatcher bodySaveLimitBytes ctx req ++ .serveWebsocket req
          :: websocketResponseEffects dispatcher bodySaveLimitBytes ctx response.parts (state.elapsed 0),
        { state with
          seq
          uuids := later state.uuids
          clock := later state.clock
          elapsed := later state.elapsed })

end Handshake

end Inspect.Flow
