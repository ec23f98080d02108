import Inspect.Flow.FilterRuntime
import Inspect.Flow.OutboundHttp
import Inspect.Flow.ResponseBody

/-!
# `Flow.Dispatcher` — one flow from the request to the response

The embedding of `FlowDispatcher` of `src/mitm/flow/dispatcher.rs`. A flow is run in a state that holds what the
dispatcher shares with the world: the sequence number, the state of the filters, and the effects so far in their
order. What the world answers is read from it one after the other: the ids and times to come, and whether the writes
of a capture succeed.

The upstream client, the request context of the proxy framework, the decompressors and the printers are fields of the
dispatcher. Log lines are not modelled, and no event of the user interface is lost.
-/

namespace Inspect.Flow

open Http Filters Sse

/-! ## The world of a flow -/

/-- What a flow does to the world. -/
inductive FlowEffect (N : Type)
  /-- `CaptureService::commit_request`, and whether all writes succeeded -/
  | commitRequest (capture : EffectiveRequestCapture) (stored : Bool)
  | requestCommitted (event : RequestCommitted)
  /-- a call of the upstream client -/
  | serve (request : Request)
  | outboundHttp (job : OutboundHttpJob)
  /-- `CaptureService::commit_response`, and whether all writes succeeded -/
  | commitResponse (capture : EffectiveResponseCapture N) (stored : Bool)
  | responseCommitted (event : ResponseCommitted)

structure FlowState (S N : Type) where
  seq : UInt64
  uuids : Nat → Uuid
  clock : Nat → Int64
  elapsed : Nat → Int64
  /-- whether the writes of the captures to come succeed -/
  writes : Nat → Bool
  /-- whether the outbound queue has room for the jobs to come -/
  queue : Nat → Bool
  filters : S
  effects : List (FlowEffect N)

inductive FlowDispatchError
  | badRequest
  | upstream (message : Str)
  | internal
deriving DecidableEq

/-- A step of a flow: it can fail, and what it did to the world before stays done. -/
abbrev FlowM (S N : Type) := ExceptT FlowDispatchError (StateM (FlowState S N))

section World

variable {S N : Type}

/-- What is left of a stream of readings. -/
def later {A : Type} (readings : Nat → A) : Nat → A := fun reading => readings (reading + 1)

def nextUuid : FlowM S N Uuid :=
  ExceptT.mk fun state => (.ok (state.uuids 0), { state with uuids := later state.uuids })

def nextEpochMs : FlowM S N Int64 :=
  ExceptT.mk fun state => (.ok (state.clock 0), { state with clock := later state.clock })

def nextElapsedMs : FlowM S N Int64 :=
  ExceptT.mk fun state => (.ok (state.elapsed 0), { state with elapsed := later state.elapsed })

def nextWrite : FlowM S N Bool :=
  ExceptT.mk fun state => (.ok (state.writes 0), { state with writes := later state.writes })

def nextQueueSlot : FlowM S N Bool :=
  ExceptT.mk fun state => (.ok (state.queue 0), { state with queue := later state.queue })

/-- `fetch_add` on the number of flows, and one more. -/
def nextSeq : FlowM S N UInt64 :=
  ExceptT.mk fun state => (.ok (state.seq + 1), { state with seq := state.seq + 1 })

def emit (effect : FlowEffect N) : FlowM S N Unit :=
  ExceptT.mk fun state => (.ok (), { state with effects := state.effects ++ [effect] })

/-- A run of the filters. -/
def runFilters {A : Type} (run : StateM S A) : FlowM S N A :=
  ExceptT.mk fun state => (.ok (run state.filters).1, { state with filters := (run state.filters).2 })

/-! ### Steps at a state -/

variable {A B : Type} (state : FlowState S N)

/-- A step that fails ends the flow, in the state it left. -/
@[simp] theorem bind_apply (step : FlowM S N A) (next : A → FlowM S N B) :
    (step >>= next) state
      = match step state with
        | (.ok value, state') => next value state'
        | (.error error, state') => (.error error, state') := by
  show (ExceptT.bindCont next (step state).1 : StateM _ _) (step state).2 = _
  obtain ⟨result, state'⟩ := step state
  cases result with
  | ok value => rfl
  | error error => rfl

@[simp] theorem pure_apply (value : A) : (pure value : FlowM S N A) state = (.ok value, state) := rfl

@[simp] theorem throw_apply (error : FlowDispatchError) : (throw error : FlowM S N A) state = (.error error, state) :=
  rfl

@[simp] theorem nextUuid_apply :
    (nextUuid : FlowM S N Uuid) state = (.ok (state.uuids 0), { state with uuids := later state.uuids }) := rfl

@[simp] theorem nextEpochMs_apply :
    (nextEpochMs : FlowM S N Int64) state = (.ok (state.clock 0), { state with clock := later state.clock }) := rfl

@[simp] theorem nextElapsedMs_apply :
    (nextElapsedMs : FlowM S N Int64) state
      = (.ok (state.elapsed 0), { state with elapsed := later state.elapsed }) := rfl

@[simp] theorem nextWrite_apply :
    (nextWrite : FlowM S N Bool) state = (.ok (state.writes 0), { state with writes := later state.writes }) := rfl

@[simp] theorem nextQueueSlot_apply :
    (nextQueueSlot : FlowM S N Bool) state = (.ok (state.queue 0), { state with queue := later state.queue }) := rfl

@[simp] theorem nextSeq_apply :
    (nextSeq : FlowM S N UInt64) state = (.ok (state.seq + 1), { state with seq := state.seq + 1 }) := rfl

@[simp] theorem emit_apply (effect : FlowEffect N) :
    (emit effect : FlowM S N Unit) state = (.ok (), { state with effects := state.effects ++ [effect] }) := rfl

@[simp] theorem runFilters_apply (run : StateM S A) :
    (runFilters run : FlowM S N A) state
      = (.ok (run state.filters).1, { state with filters := (run state.filters).2 }) := rfl

end World

/-! ## The dispatcher -/

/-- The filters as the dispatcher calls them. -/
structure FlowFilterRuntime (S : Type) where
  runRequestFilters : FilterRequestView → FilterRequest → StateM S RequestAction
  runResponseFilters : FilterRequestView → Str → FilterResponse → StateM S ResponseAction
  runCompletedFilters : FilterRequestView → Str → StateM S Unit

/-- The filters of a set. -/
def FlowFilterRuntime.ofSet {N : Type} [BEq N] (serde : SerdeJson N) (regex : Str → Option (Str → Str → Str))
    (filters : CompiledFilterSet CompiledRotoFilter) : FlowFilterRuntime FilterRuntimeState where
  runRequestFilters view req := Flow.runRequestFilters serde regex filters view req
  runResponseFilters view flowKey res := Flow.runResponseFilters serde regex filters view flowKey res
  runCompletedFilters view flowKey state := ((), Flow.runCompletedFilters filters view flowKey state)

/-- What `RequestContext::try_from` finds. -/
structure RequestContext where
  protocol : Str
  host : Str
deriving DecidableEq

structure FlowDispatcherConfig where
  upstreamProxy : Option Str
  streamBodyThresholdBytes : Nat
  sseCaptureMaxEvents : Nat
  sseCaptureMaxEventBytes : Nat
deriving DecidableEq

structure FlowDispatcher (S N : Type) where
  filters : FlowFilterRuntime S
  /-- `RequestContext::try_from` -/
  requestContext : Request → Option RequestContext
  /-- `UpstreamFlowClient::serve` -/
  upstreamClient : Request → UpstreamFlowResult N
  /-- the parser of `http` for a path with its query -/
  parsePathAndQuery : Str → Option (Str × Option Str)
  canonicalReason : StatusCode → Option Str
  codecs : Codecs
  serde : SerdeJson N
  jsonNumber : Int → N
  flowsDir : FilePath
  /-- the clients of the outbound pool, if it is configured -/
  outboundHttpPool : Option (List Str)
  config : FlowDispatcherConfig

/-- The dispatcher whose `FilterManager` holds a filter set. -/
def FlowDispatcher.withFilterSet {N : Type} [BEq N] (dispatcher : FlowDispatcher FilterRuntimeState N)
    (regex : Str → Option (Str → Str → Str)) (set : CompiledFilterSet CompiledRotoFilter) :
    FlowDispatcher FilterRuntimeState N :=
  { dispatcher with filters := FlowFilterRuntime.ofSet dispatcher.serde regex set }

/-- The body of a response as the client gets it. -/
inductive ClientBody (N : Type)
  | full (body : Body)
  | sse (body : SseCaptureBody)
  /-- a body that is counted, with what its finalisation knows of the flow -/
  | streaming (body : StreamingCaptureBody) (input : ResponseDispatchInput N) (parts : ResponseParts)
      (threshold : Nat)

structure ClientResponse (N : Type) where
  parts : ResponseParts
  body : ClientBody N

/-- A response that is handed on as it is. -/
def Response.intoClientResponse {N : Type} (response : Response) : ClientResponse N :=
  ⟨response.parts, .full response.body⟩

/-- The status of a response that is dropped. -/
def droppedStatus : StatusCode := ⟨444, by decide⟩

/-- `HeaderValue::from_static("close")`. -/
def closeValue : HeaderValue := ⟨Text.bytes "close".toList, by decide⟩

/-- The answer to a request or response that a filter drops. -/
def droppedResponse : Response := ⟨⟨droppedStatus, .http11, [(connection, closeValue)]⟩, []⟩

/-- `build_synthetic_response`: what is not valid makes an internal error. -/
def buildSyntheticResponse (version : Version) (synthetic : FilterSyntheticResponse) : Response :=
  let headers := synthetic.headers.mapM fun header =>
    (HeaderName.fromBytes header.name).bind fun name =>
      (HeaderValue.fromStr header.value).map fun value => (name, value)
  match StatusCode.fromU16 synthetic.status, headers with
  | some status, some headers => ⟨⟨status, version, headers⟩, Body.ofBytes synthetic.body⟩
  | _, _ => intoResponse .internalServerError

/-- `split_upstream_result`. -/
def splitUpstreamResult {N : Type} (ctx : RequestDispatchContext) (filterRequest : FilterRequest)
    (result : UpstreamFlowResult N) : ResponseDispatchInput N × Response :=
  let origin : ResponseOrigin := if result.upstreamErr.isSome then .proxyError else .upstream
  (ctx.intoResponseInput filterRequest origin result.upstreamStatus result.upstreamRemoteAddr result.tlsUpstream
    result.upstreamErr, result.response)

namespace FlowDispatcher

variable {S N : Type} (dispatcher : FlowDispatcher S N)

/-! ### Requests -/

/-- `new_request_context`: a flow has a number and an id even if its context cannot be found. -/
def newRequestContext (req : Request) : FlowM S N RequestDispatchContext := do
  let seq ← nextSeq
  let id ← nextUuid
  let epochMs ← nextEpochMs
  match dispatcher.requestContext req with
  | none => throw .badRequest
  | some reqCtx =>
      let flowKey := flowKeyOf seq id
      return {
        id, seq, flowKey, epochMs
        flowDir := dispatcher.flowsDir ++ [flowKey]
        tlsSni := req.tlsSni
        protocol := reqCtx.protocol
        host := reqCtx.host
        uri := req.parts.uri
        method := req.parts.method }

/-- What `dispatch_request_filters` shows to the filters. -/
def filterRequestOf (ctx : RequestDispatchContext) (parts : RequestParts) (body : Bytes) : FilterRequest :=
  buildFilterRequest dispatcher.codecs ctx.id.toText ctx.seq ctx.flowKey parts ctx.protocol ctx.host body ctx.tlsSni

structure RequestDispatchOutput where
  filterRequest : FilterRequest
  marks : List FlowMark
  syntheticResponse : Option FilterSyntheticResponse
  dropClientResponse : Bool
  parts : RequestParts
  body : Bytes

/-- `dispatch_request_filters`: the outbound jobs of the action are not looked at. -/
def dispatchRequestFilters (ctx : RequestDispatchContext) (parts : RequestParts) (body : Bytes) :
    FlowM S N RequestDispatchOutput := do
  let filterRequest := dispatcher.filterRequestOf ctx parts body
  let action ← runFilters (dispatcher.filters.runRequestFilters (ctx.requestView parts.method) filterRequest)
  let (parts, body) := match action.request with
    | some patch => applyRequestPatch dispatcher.parsePathAndQuery parts body patch
    | none => (parts, body)
  return {
    filterRequest
    marks := flowMarksFromRequestAction action
    syntheticResponse := action.syntheticResponse
    dropClientResponse := action.dropClientResponse
    parts, body }

/-- The capture of `commit_request`. -/
def requestCapture (ctx : RequestDispatchContext) (parts : RequestParts) (body : Bytes) : EffectiveRequestCapture where
  id := ctx.id
  seq := ctx.seq
  flowKey := ctx.flowKey
  epochMs := ctx.epochMs
  flowDir := ctx.flowDir
  method := parts.method
  uri := parts.uri
  version := parts.version
  headers := parts.headers
  bodyBytes := body
  protocol := ctx.protocol
  host := ctx.host
  tlsSni := ctx.tlsSni

/-- `commit_request`. -/
def commitRequest (ctx : RequestDispatchContext) (parts : RequestParts) (body : Bytes) (marks : List FlowMark) :
    FlowM S N Unit := do
  let capture := requestCapture ctx parts body
  let stored ← nextWrite
  emit (.commitRequest capture stored)
  if stored then emit (.requestCommitted (capture.committed marks)) else throw .internal

/-! ### Responses -/

/-- The capture of `commit_response`, and of a finalisation. -/
def responseCapture (input : ResponseDispatchInput N) (parts : ResponseParts) (body : Bytes)
    (bodySizeOverride : Option Int64) (bodyTruncatedOverride : Option Bool) (elapsedMs : Int64) :
    EffectiveResponseCapture N where
  id := input.id
  seq := input.seq
  flowKey := input.flowKey
  flowDir := input.flowDir
  status := parts.status
  version := parts.version
  headers := parts.headers
  bodyBytes := body
  bodySizeOverride
  bodyTruncatedOverride
  elapsedMs
  origin := input.origin
  upstreamStatus := input.upstreamStatus
  upstreamRemoteAddr := input.upstreamRemoteAddr
  tlsSni := input.tlsSni
  tlsUpstream := input.tlsUpstream
  upstreamErrorMessage := input.upstreamErrorMessage

/-- `commit_response`. -/
def commitResponse (input : ResponseDispatchInput N) (parts : ResponseParts) (body : Bytes) (elapsedMs : Int64) :
    FlowM S N (EffectiveResponseCapture N) := do
  let capture := responseCapture input parts body none none elapsedMs
  let stored ← nextWrite
  emit (.commitResponse capture stored)
  if stored then return capture else throw .internal

structure ResponseFilterDispatchOutput where
  marks : List FlowMark
  outboundHttp : List OutboundHttpJob
  dropClientResponse : Bool
  parts : ResponseParts
  body : Bytes

/-- `dispatch_response_filters`. -/
def dispatchResponseFilters (input : ResponseDispatchInput N) (parts : ResponseParts) (body : Bytes)
    (elapsedMs : Int64) : FlowM S N ResponseFilterDispatchOutput := do
  let filterResponse := buildFilterResponse dispatcher.codecs parts body input.upstreamStatus elapsedMs
  let action ← runFilters (dispatcher.filters.runResponseFilters input.requestView input.flowKey filterResponse)
  let (parts, body) := match action.response with
    | some patch => applyResponsePatch parts body patch
    | none => (parts, body)
  return {
    marks := flowMarksFromResponseAction action
    outboundHttp := action.outboundHttp
    dropClientResponse := action.dropClientResponse
    parts, body }

/-- `resolve_outbound_http_jobs`: the time is read for the two kinds of body that tell it. -/
def resolveOutboundHttpJobs (input : ResponseDispatchInput N) (parts : ResponseParts) (body : Bytes) :
    List OutboundHttpJob → FlowM S N (List OutboundHttpJob)
  | [] => return []
  | job :: jobs => do
      let elapsedMs ← match job.body with
        | .capturedResponseJson | .capturedFlowJson => nextElapsedMs
        | _ => pure 0
      let rest ← resolveOutboundHttpJobs input parts body jobs
      return resolveOutboundHttpJob dispatcher.serde dispatcher.jsonNumber dispatcher.canonicalReason job input parts
        body elapsedMs :: rest

/-- `OutboundHttpClientPool::try_enqueue` for every job. -/
def tryEnqueue (clients : List Str) : List OutboundHttpJob → FlowM S N Unit
  | [] => return ()
  | job :: jobs => do
      if clients.contains job.client then
        if ← nextQueueSlot then emit (.outboundHttp job)
      tryEnqueue clients jobs

/-- `dispatch_outbound_http`. -/
def dispatchOutboundHttp (jobs : List OutboundHttpJob) : FlowM S N Unit :=
  match dispatcher.outboundHttpPool with
  | none => return ()
  | some clients => tryEnqueue clients jobs

/-- `dispatch_completed_filters`: they see the flow, but their answer is not looked at. -/
def dispatchCompletedFilters (input : ResponseDispatchInput N) : FlowM S N Unit :=
  runFilters (dispatcher.filters.runCompletedFilters input.requestView input.flowKey)

/-- `dispatch_sse_response`. -/
def dispatchSseResponse (input : ResponseDispatchInput N) (parts : ResponseParts) (body : Body) (elapsedMs : Int64) :
    FlowM S N (ClientResponse N) := do
  let capture ← commitResponse input parts [] elapsedMs
  emit (.responseCommitted (capture.committed []))
  return ⟨parts, .sse ⟨body, SseCapture.start dispatcher.config.sseCaptureMaxEvents
    dispatcher.config.sseCaptureMaxEventBytes⟩⟩

/-- `dispatch_streaming_response`. -/
def dispatchStreamingResponse (input : ResponseDispatchInput N) (parts : ResponseParts) (body : Body) :
    ClientResponse N :=
  ⟨parts, .streaming ⟨body, StreamingResponseFinalize.new⟩ input parts dispatcher.config.streamBodyThresholdBytes⟩

/-- The end of `dispatch_response`, for a body that was read. -/
def dispatchCollectedResponse (input : ResponseDispatchInput N) (parts : ResponseParts) (body : Bytes)
    (elapsedMs : Int64) : FlowM S N (ClientResponse N) := do
  let output ← dispatcher.dispatchResponseFilters input parts body elapsedMs
  let jobs ← dispatcher.resolveOutboundHttpJobs input output.parts output.body output.outboundHttp
  dispatcher.dispatchOutboundHttp jobs
  let capture ← commitResponse input output.parts output.body elapsedMs
  dispatcher.dispatchCompletedFilters input
  emit (.responseCommitted (capture.committed output.marks))
  if output.dropClientResponse then return droppedResponse.intoClientResponse
  else return ⟨output.parts, .full (Body.ofBytes output.body)⟩

/-- `dispatch_response`. -/
def dispatchResponse (input : ResponseDispatchInput N) (response : Response) :
    FlowM S N (ClientResponse N) := do
  let elapsedMs ← nextElapsedMs
  let threshold := dispatcher.config.streamBodyThresholdBytes
  if isSseResponse response.parts.headers then
    dispatcher.dispatchSseResponse input response.parts response.body elapsedMs
  else
    match responseBodyMode input.filterRequest.method response.parts.status response.parts.headers threshold with
    | .collect => dispatcher.dispatchCollectedResponse input response.parts (collectBody response.body) elapsedMs
    | .stream => return dispatcher.dispatchStreamingResponse input response.parts response.body
    | .probe =>
        match probeResponseBody response.body threshold with
        | .collected body => dispatcher.dispatchCollectedResponse input response.parts body elapsedMs
        | .stream start rest =>
            return dispatcher.dispatchStreamingResponse input response.parts (prefixThenBody start rest)

/-- `dispatch_synthetic_response`. -/
def dispatchSyntheticResponse (ctx : RequestDispatchContext) (version : Version) (filterRequest : FilterRequest)
    (synthetic : FilterSyntheticResponse) : FlowM S N (ClientResponse N) :=
  dispatcher.dispatchResponse (ctx.intoResponseInput filterRequest .synthetic none none none none)
    (buildSyntheticResponse version synthetic)

/-- `dispatch_upstream_response`. -/
def dispatchUpstreamResponse (ctx : RequestDispatchContext) (filterRequest : FilterRequest)
    (result : UpstreamFlowResult N) : FlowM S N (ClientResponse N) :=
  let (input, response) := splitUpstreamResult ctx filterRequest result
  dispatcher.dispatchResponse input response

/-! ### Flows -/

/-- A request with the upstream proxy in its extensions, if one is configured. -/
def routed (req : Request) : Request :=
  match dispatcher.config.upstreamProxy with
  | some upstreamProxy => { req with upstreamProxy := some upstreamProxy }
  | none => req

/-- The part of `dispatch_http` behind the request filters. -/
def dispatchFilteredRequest (req : Request) (ctx : RequestDispatchContext) (output : RequestDispatchOutput) :
    FlowM S N (ClientResponse N) := do
  if output.dropClientResponse then
    commitRequest ctx output.parts output.body output.marks
    return droppedResponse.intoClientResponse
  else
    commitRequest ctx output.parts output.body output.marks
    match output.syntheticResponse with
    | some synthetic =>
        dispatcher.dispatchSyntheticResponse ctx output.parts.version output.filterRequest synthetic
    | none =>
        let upstreamReq := { req with parts := output.parts, body := Body.ofBytes output.body }
        emit (.serve upstreamReq)
        dispatcher.dispatchUpstreamResponse ctx output.filterRequest (dispatcher.upstreamClient upstreamReq)

/-- `dispatch_http`. -/
def dispatchHttp (req : Request) : FlowM S N (ClientResponse N) := do
  let req := dispatcher.routed req
  let ctx ← dispatcher.newRequestContext req
  let output ← dispatcher.dispatchRequestFilters ctx req.parts (collectBody req.body)
  dispatcher.dispatchFilteredRequest req ctx output

/-- `dispatch`. -/
def dispatch (req : Request) (state : FlowState S N) : ClientResponse N × FlowState S N :=
  match dispatcher.dispatchHttp req state with
  | (.ok response, state) => (response, state)
  | (.error .badRequest, state) => ((intoResponse .badRequest).intoClientResponse, state)
  | (.error _, state) => ((intoResponse .internalServerError).intoClientResponse, state)

end FlowDispatcher

end Inspect.Flow
