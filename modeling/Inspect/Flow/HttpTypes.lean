import Inspect.Filters.Manager.Load
import Inspect.Flow.FilterBridge

/-!
# `Flow.HttpTypes` — what is known of a flow

The data of `src/mitm/flow/http_types.rs`, with the captures of `capture_service.rs` and the events of
`flow_event.rs`: what a flow knows while it is dispatched, what is stored of it, and what is told to the user
interface. The text of a time is left out, its milliseconds are kept.
-/

namespace Inspect.Flow

open Http Filters

structure Uuid where
  value : BitVec 128
deriving DecidableEq

/-- `Uuid::simple`. -/
def Uuid.simple (id : Uuid) : Str := (Nat.toDigits 16 id.value.toNat).leftpad 32 '0'

/-- The text of an id, with hyphens. -/
def Uuid.toText (id : Uuid) : Str :=
  let digits := id.simple
  digits.take 8 ++ '-' :: (digits.drop 8).take 4 ++ '-' :: (digits.drop 12).take 4 ++ '-' :: (digits.drop 16).take 4
    ++ '-' :: digits.drop 20

/-- The key of a flow: its number in at least six digits, and the start of its id. -/
def flowKeyOf (seq : UInt64) (id : Uuid) : Str :=
  (Nat.toDigits 10 seq.toNat).leftpad 6 '0' ++ '-' :: id.simple.take 8

/-! ## Messages -/

/-- A request, with what the proxy reads of its extensions. -/
structure Request where
  parts : RequestParts
  tlsSni : Option Str
  upstreamProxy : Option Str
  body : Body
deriving DecidableEq

structure Response where
  parts : ResponseParts
  body : Body
deriving DecidableEq

/-- `StatusCode::into_response`. -/
def intoResponse (status : StatusCode) : Response := ⟨⟨status, .http11, []⟩, []⟩

/-- What the upstream client answers. -/
structure UpstreamFlowResult (N : Type) where
  response : Response
  upstreamErr : Option Str
  upstreamStatus : Option UInt16
  upstreamRemoteAddr : Option Str
  /-- what `upstream_tls_info_from_extensions` finds in the response -/
  tlsUpstream : Option (Json N)

/-! ## Contexts -/

structure RequestDispatchContext where
  id : Uuid
  seq : UInt64
  flowKey : Str
  flowDir : FilePath
  epochMs : Int64
  tlsSni : Option Str
  protocol : Str
  host : Str
  uri : Uri
  method : Str
deriving DecidableEq

/-- `RequestDispatchContext::request_view`. -/
def RequestDispatchContext.requestView (ctx : RequestDispatchContext) (method : Str) : FilterRequestView :=
  ⟨ctx.host, ctx.uri.path, method⟩

structure ResponseDispatchInput (N : Type) where
  id : Uuid
  seq : UInt64
  flowKey : Str
  flowDir : FilePath
  tlsSni : Option Str
  reqHost : Str
  reqPath : Str
  reqMethod : Str
  filterRequest : FilterRequest
  origin : ResponseOrigin
  upstreamStatus : Option UInt16
  upstreamRemoteAddr : Option Str
  tlsUpstream : Option (Json N)
  upstreamErrorMessage : Option Str

/-- `ResponseDispatchInput::request_view`. -/
def ResponseDispatchInput.requestView {N : Type} (input : ResponseDispatchInput N) : FilterRequestView :=
  ⟨input.reqHost, input.reqPath, input.reqMethod⟩

/-- `into_response_input`. -/
def RequestDispatchContext.intoResponseInput {N : Type} (ctx : RequestDispatchContext)
    (filterRequest : FilterRequest) (origin : ResponseOrigin) (upstreamStatus : Option UInt16)
    (upstreamRemoteAddr : Option Str) (tlsUpstream : Option (Json N)) (upstreamErrorMessage : Option Str) :
    ResponseDispatchInput N where
  id := ctx.id
  seq := ctx.seq
  flowKey := ctx.flowKey
  flowDir := ctx.flowDir
  tlsSni := ctx.tlsSni
  reqHost := ctx.host
  reqPath := ctx.uri.path
  reqMethod := ctx.method
  filterRequest
  origin
  upstreamStatus
  upstreamRemoteAddr
  tlsUpstream
  upstreamErrorMessage

/-! ## Captures -/

structure EffectiveRequestCapture where
  id : Uuid
  seq : UInt64
  flowKey : Str
  epochMs : Int64
  flowDir : FilePath
  method : Str
  uri : Uri
  version : Version
  headers : HeaderMap
  bodyBytes : Bytes
  protocol : Str
  host : Str
  tlsSni : Option Str
deriving DecidableEq

structure EffectiveResponseCapture (N : Type) where
  id : Uuid
  seq : UInt64
  flowKey : Str
  flowDir : FilePath
  status : StatusCode
  version : Version
  headers : HeaderMap
  bodyBytes : Bytes
  bodySizeOverride : Option Int64
  bodyTruncatedOverride : Option Bool
  elapsedMs : Int64
  origin : ResponseOrigin
  upstreamStatus : Option UInt16
  upstreamRemoteAddr : Option Str
  tlsSni : Option Str
  tlsUpstream : Option (Json N)
  upstreamErrorMessage : Option Str

/-! ## Events -/

structure RequestCommitted where
  id : Str
  seq : UInt64
  flowKey : Str
  epochMs : Int64
  method : Str
  protocol : Str
  host : Str
  uri : Str
  queryStr : Str
  version : Str
  marks : List FlowMark
deriving DecidableEq

structure ResponseCommitted where
  id : Str
  flowKey : Str
  status : UInt16
  elapsedMs : Int64
  version : Str
  marks : List FlowMark
deriving DecidableEq

/-- What `commit_request` returns, as `publish_request_committed` publishes it. -/
def EffectiveRequestCapture.committed (capture : EffectiveRequestCapture) (marks : List FlowMark) :
    RequestCommitted where
  id := capture.id.toText
  seq := capture.seq
  flowKey := capture.flowKey
  epochMs := capture.epochMs
  method := capture.method
  protocol := capture.protocol
  host := capture.host
  uri := capture.uri.path
  queryStr := capture.uri.query.getD []
  version := versionToString capture.version
  marks

/-- What `commit_response` returns, as `publish_response_committed` publishes it: the status of the upstream is shown
    where there is one. -/
def EffectiveResponseCapture.committed {N : Type} (capture : EffectiveResponseCapture N) (marks : List FlowMark) :
    ResponseCommitted where
  id := capture.id.toText
  flowKey := capture.flowKey
  status := capture.upstreamStatus.getD capture.status.code
  elapsedMs := capture.elapsedMs
  version := versionToString capture.version
  marks

end Inspect.Flow
