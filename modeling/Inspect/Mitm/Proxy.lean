import Inspect.Flow.WebSocket

/-!
# `Mitm.Proxy` — the services of the proxy

The embedding of `src/mitm/proxy.rs`: what happens to a request that arrives at the listener or inside of a tunnel. A
`CONNECT` is accepted or denied, a WebSocket handshake is handed on, and any other request is a flow.

The proxy framework is the structure `Framework`: the authority and the WebSocket matcher it finds for a request, the
upstream client for WebSockets, and the layers around the handler. What is inside of an accepted tunnel until a request
arrives there (the router and TLS) is not modelled, only what is recorded when it fails.
-/

namespace Inspect.Mitm

open Http Filters Inspect.Flow

inductive ProxyMode
  | observe
  | emulate
deriving DecidableEq, Repr

structure HostWithPort where
  host : Str
  port : UInt16
deriving DecidableEq

/-- What the proxy takes from its framework; `C` is a response as it leaves the layers. -/
structure Framework (N C : Type) where
  /-- `RequestContext::try_from` and `host_with_port` -/
  hostWithPort : Request → Option HostWithPort
  /-- `WebSocketMatcher::matches` -/
  matchesWebSocket : Request → Bool
  /-- `UpstreamFlowClient::serve_websocket` -/
  serveWebsocket : Request → Response
  /-- The layers of `new_http_mitm_proxy`, by whether the user agent is detected: they answer a request, or they hand
      it on and treat what the handler answers. -/
  layers : Bool → Request → Except C (Request × (ClientResponse N → C))

structure State (S N C : Type) where
  framework : Framework N C
  flowDispatcher : FlowDispatcher S N
  /-- `FlowFilterRuntime::run_connect_filters` of the dispatcher -/
  runConnectFilters : Str → FilterConnect → ConnectAction
  bodySaveLimitBytes : Option Nat
  proxyMode : ProxyMode

/-- The state whose `FilterManager` holds a filter set. -/
def State.withFilterSet {N C : Type} [BEq N] (state : State FilterRuntimeState N C)
    (regex : Str → Option (Str → Str → Str)) (set : CompiledFilterSet CompiledRotoFilter) :
    State FilterRuntimeState N C :=
  { state with
    flowDispatcher := state.flowDispatcher.withFilterSet regex set
    runConnectFilters := Flow.runConnectFilters set }

structure TunnelFailed where
  id : Str
  seq : UInt64
  flowKey : Str
  epochMs : Int64
  host : Str
  port : UInt16
  stage : Str
  error : Str
  marks : List FlowMark
deriving DecidableEq

/-- The world of the proxy: that of its flows, with what is recorded of denied tunnels and of handshakes. -/
structure World (S N : Type) where
  flow : FlowState S N
  tunnels : List TunnelFailed
  handshakes : List (HandshakeEffect N)

section Services

variable {S N C : Type}

/-! ## Tunnels -/

structure ConnectDispatchOutput where
  host : Str
  port : UInt16
  action : ConnectAction
deriving DecidableEq

/-- `dispatch_connect_filters`: every `CONNECT` has an id of its own. -/
def dispatchConnectFilters (state : State S N C) (authority : HostWithPort) (world : World S N) :
    ConnectDispatchOutput × World S N :=
  let connect : FilterConnect := ⟨(world.flow.uuids 0).toText, authority.host, authority.port⟩
  (⟨authority.host, authority.port, state.runConnectFilters authority.host connect⟩,
    { world with flow := { world.flow with uuids := later world.flow.uuids } })

/-- The answer to a `CONNECT` that a filter denies. -/
def deniedResponse (status : StatusCode) : Response := ⟨⟨status, .http11, [(connection, closeValue)]⟩, []⟩

/-- The branch of `http_connect_accept` for a tunnel that is dropped. -/
def denyTunnel (connect : ConnectDispatchOutput) (world : World S N) : Response × World S N :=
  let status := connect.action.rejectStatus.bind StatusCode.fromU16
  let id := world.flow.uuids 0
  let seq := world.flow.seq + 1
  let event : TunnelFailed := {
    id := id.toText
    seq
    flowKey := flowKeyOf seq id
    epochMs := world.flow.clock 0
    host := connect.host
    port := connect.port
    stage := "Roto connect_action".toList
    error := match status with
      | some status => "CONNECT denied by Roto with status ".toList ++ Nat.toDigits 10 status.code.toNat
      | none => "CONNECT dropped by Roto".toList
    marks := flowMarksFromConnectAction connect.action }
  (deniedResponse (status.getD .forbidden),
    { world with
      flow := { world.flow with seq, uuids := later world.flow.uuids, clock := later world.flow.clock }
      tunnels := world.tunnels ++ [event] })

/-- `http_connect_accept`: the mode of the proxy is not looked at. The state is an extension of the request. -/
def httpConnectAccept (framework : Framework N C) (extension : Option (State S N C)) (req : Request)
    (world : World S N) : Except Response (Response × HostWithPort) × World S N :=
  match framework.hostWithPort req with
  | none => (.error (intoResponse .badRequest), world)
  | some authority =>
      match extension with
      | none => (.ok (intoResponse .ok, authority), world)
      | some state =>
          let (connect, world) := dispatchConnectFilters state authority world
          if connect.action.dropTunnel then
            let (response, world) := denyTunnel connect world
            (.error response, world)
          else (.ok (intoResponse .ok, authority), world)

/-! ### Tunnels that fail -/

structure TunnelFailureCapture where
  id : Str
  seq : UInt64
  flowKey : Str
  flowDir : FilePath
  epochMs : Int64
  host : Str
  port : UInt16
  stage : Str
  error : Str
deriving DecidableEq

/-- The file `ssl_tls.json` of a tunnel that failed; `rfc3999z` is the text of a time. -/
def tunnelFailureText (dispatcher : FlowDispatcher S N) (rfc3999z : Int64 → Str) (capture : TunnelFailureCapture) : Str :=
  let port := Nat.toDigits 10 capture.port.toNat
  dispatcher.serde.toStringPretty (.object [
    ("kind".toList, .string "tls_tunnel_failure".toList),
    ("method".toList, .string "CONNECT".toList),
    ("target".toList, .string (capture.host ++ ':' :: port)),
    ("host".toList, .string capture.host),
    ("port".toList, .number (dispatcher.jsonNumber capture.port.toNat)),
    ("time".toList, .string (rfc3999z capture.epochMs)),
    ("epoch_ms".toList, .number (dispatcher.jsonNumber capture.epochMs.toInt)),
    ("stage".toList, .string capture.stage),
    ("result".toList, .string "failed".toList),
    ("error".toList, .string capture.error)])

/-- What `commit_tunnel_failure` writes and stores, if nothing fails. -/
def commitTunnelFailure (dispatcher : FlowDispatcher S N) (rfc3999z : Int64 → Str) (capture : TunnelFailureCapture) :
    List (HandshakeEffect N) :=
  [.write (capture.flowDir ++ ["ssl_tls.json".toList]) (tunnelFailureText dispatcher rfc3999z capture),
    .request {
      id := capture.id
      seq := capture.seq.toInt64
      flowKey := capture.flowKey
      flowDir := capture.flowDir
      requestHeadPath := []
      requestBodyPath := []
      epochMs := capture.epochMs
      method := "CONNECT".toList
      protocol := "https".toList
      host := capture.host
      uri := []
      queryStr := []
      version := []
      tlsSni := none
      headers := .object []
      bodySize := 0
      bodySavedSize := 0
      bodyTruncated := false
      bodySaveLimit := none }]

/-- The branch of `http_connect_proxy` for a tunnel to a known target that fails with `error`. -/
def failTunnel (dispatcher : FlowDispatcher S N) (rfc3999z : Int64 → Str) (target : HostWithPort) (error : Str)
    (world : World S N) : List (HandshakeEffect N) × World S N :=
  let id := (world.flow.uuids 0).toText
  let seq := world.flow.seq + 1
  let flowKey := Text.padStart 6 '0' (Nat.toDigits 10 seq.toNat) ++ '-' :: id.take 8
  let epochMs := world.flow.clock 0
  let stage := "TLS accept / handshake".toList
  let capture : TunnelFailureCapture := {
    id, seq, flowKey, epochMs, stage, error
    flowDir := dispatcher.flowsDir ++ [flowKey]
    host := target.host
    port := target.port }
  let event : TunnelFailed := {
    id, seq, flowKey, epochMs, stage, error
    host := target.host
    port := target.port
    marks := [] }
  (commitTunnelFailure dispatcher rfc3999z capture,
    { world with
      flow := { world.flow with seq, uuids := later world.flow.uuids, clock := later world.flow.clock }
      tunnels := world.tunnels ++ [event] })

/-! ## Requests -/

/-- `http_mitm_proxy`. -/
def httpMitmProxy (state : State S N C) (req : Request) (world : World S N) : ClientResponse N × World S N :=
  if state.framework.matchesWebSocket req then
    let (response, effects, flow) := dispatchWebsocketHandshake state.flowDispatcher state.framework.serveWebsocket
      state.bodySaveLimitBytes req world.flow
    (response.intoClientResponse, { world with flow, handshakes := world.handshakes ++ effects })
  else
    let (response, flow) := state.flowDispatcher.dispatch req world.flow
    (response, { world with flow })

/-- `new_http_mitm_proxy`: only the detection of the user agent depends on the mode of the proxy. -/
def newHttpMitmProxy (state : State S N C) (req : Request) (world : World S N) : C × World S N :=
  match state.framework.layers (state.proxyMode == .emulate) req with
  | .error answer => (answer, world)
  | .ok (req, respond) =>
      let (response, world) := httpMitmProxy state req world
      (respond response, world)

/-! ## Arrivals -/

/-- Where a request arrives. -/
inductive Arrival
  | listener
  | tunnel
deriving DecidableEq, Repr

/-- What the client gets. -/
inductive Answer (C : Type)
  | accepted (response : Response) (target : HostWithPort)
  | denied (response : Response)
  | answered (response : C)

/-- The service of `mitm_proxy_main` at the listener and the one of `http_connect_proxy` in a tunnel: a `CONNECT` is
    upgraded at the listener only. -/
def serve (state : State S N C) (arrival : Arrival) (req : Request) (world : World S N) : Answer C × World S N :=
  if arrival = .listener ∧ req.parts.method = "CONNECT".toList then
    match httpConnectAccept state.framework (some state) req world with
    | (.ok (response, target), world) => (.accepted response target, world)
    | (.error response, world) => (.denied response, world)
  else
    let (response, world) := newHttpMitmProxy state req world
    (.answered response, world)

end Services

end Inspect.Mitm
