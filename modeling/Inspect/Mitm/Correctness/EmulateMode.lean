import Inspect.Flow.Correctness.Dispatch
import Inspect.Mitm.Proxy

/-!
# `Mitm.Correctness.EmulateMode` — filters while a browser is emulated

The documentation says that filters are bypassed in the mode `emulate`. Then no two filter sets could be told apart
there. The handlers do not look at the mode: two sets can be told apart at every request that reaches a hook, and at no
other. The proof names two sets for each of the two entrances: one that denies every tunnel against the empty one, and
two that write different bodies into every request.
-/

namespace Inspect.Flow.FlowDispatcher

open Http Filters

variable {S N : Type} (dispatcher : FlowDispatcher S N)

/-! ## The first effect of a flow -/

/-- Whatever becomes of a request, it is committed first. -/
theorem dispatchFilteredRequest_commits (req : Request) (ctx : RequestDispatchContext)
    (output : RequestDispatchOutput) (state : FlowState S N) :
    ∃ stored rest, (dispatcher.dispatchFilteredRequest req ctx output state).2.effects
      = state.effects ++ .commitRequest (requestCapture ctx output.parts output.body) stored :: rest := by
  unfold dispatchFilteredRequest
  cases hstored : state.writes 0 with
  | false =>
      split_ifs
      · rw [bind_apply, commitRequest_failed _ _ _ _ hstored]
        exact ⟨false, [], rfl⟩
      · rw [bind_apply, commitRequest_failed _ _ _ _ hstored]
        exact ⟨false, [], rfl⟩
  | true =>
      split_ifs
      · rw [bind_apply, commitRequest_stored _ _ _ _ hstored]
        exact ⟨true, _, rfl⟩
      · rw [bind_apply, commitRequest_stored _ _ _ _ hstored]
        cases output.syntheticResponse with
        | some synthetic =>
            obtain ⟨rest, hrest, -⟩ := (dispatcher.dispatchResponse_outcome _ _ _).effects_append
            exact ⟨true, _, hrest.trans (List.append_assoc ..)⟩
        | none =>
            simp only [bind_apply, emit_apply]
            obtain ⟨rest, hrest, -⟩ := (dispatcher.dispatchResponse_outcome _ _ _).effects_append
            refine ⟨true, .requestCommitted ((requestCapture ctx output.parts output.body).committed output.marks)
              :: .serve { req with parts := output.parts, body := Body.ofBytes output.body } :: rest, ?_⟩
            rw [show (dispatcher.dispatchUpstreamResponse ctx output.filterRequest _ _).2.effects = _ from hrest,
              List.append_assoc, List.append_assoc]
            rfl

theorem patchedBody_of_some {action : RequestAction} {patch : FilterRequestPatch} {bodyPatch : FilterBodyPatch}
    (hpatch : action.request = some patch) (hbody : patch.body = some bodyPatch) {body : Bytes} :
    patchedBody action body = bodyPatch.bytes := by
  rw [patchedBody, hpatch, Option.bind_some, hbody]

/-- A body that the filters set is the body of the first capture. -/
theorem dispatchHttp_commits {req : Request} {state : FlowState S N}
    {action : RequestAction} {patch : FilterRequestPatch} {bodyPatch : FilterBodyPatch}
    (haction : dispatcher.combinedRequestAction req state = some action) (hpatch : action.request = some patch)
    (hbody : patch.body = some bodyPatch) :
    ∃ capture stored rest,
      (dispatcher.dispatchHttp req state).2.effects = state.effects ++ .commitRequest capture stored :: rest
      ∧ capture.bodyBytes = bodyPatch.bytes := by
  obtain ⟨reqCtx, hcontext, rfl⟩ := Option.map_eq_some_iff.mp haction
  unfold dispatchHttp
  simp only [bind_apply, dispatcher.newRequestContext_apply hcontext]
  obtain ⟨output, filters, houtput, haction⟩ := dispatcher.dispatchRequestFilters_apply
    (dispatcher.flowContext (dispatcher.routed req) reqCtx state) (dispatcher.routed req).parts
    (collectBody (dispatcher.routed req).body)
    { state with seq := state.seq + 1, uuids := later state.uuids, clock := later state.clock }
  obtain ⟨-, -, hpatched⟩ := haction _ rfl
  have hbytes : output.body = bodyPatch.bytes := hpatched.trans (patchedBody_of_some hpatch hbody)
  simp only [houtput]
  obtain ⟨stored, rest, heffects⟩ := dispatcher.dispatchFilteredRequest_commits (dispatcher.routed req)
    (dispatcher.flowContext (dispatcher.routed req) reqCtx state) output
    { state with seq := state.seq + 1, uuids := later state.uuids, clock := later state.clock, filters }
  exact ⟨_, stored, rest, heffects, hbytes⟩

/-! ## Answers -/

/-- `dispatch` makes a response of an error, and leaves the world as it is. -/
theorem dispatch_snd (req : Request) (state : FlowState S N) :
    (dispatcher.dispatch req state).2 = (dispatcher.dispatchHttp req state).2 := by
  unfold dispatch
  obtain ⟨result, state'⟩ := dispatcher.dispatchHttp req state
  cases result with
  | ok response => rfl
  | error error =>
      cases error with
      | badRequest => rfl
      | upstream message => rfl
      | internal => rfl

theorem dispatch_none {req : Request} (h : dispatcher.requestContext (dispatcher.routed req) = none)
    (state : FlowState S N) :
    dispatcher.dispatch req state
      = ((intoResponse .badRequest).intoClientResponse,
        { state with seq := state.seq + 1, uuids := later state.uuids, clock := later state.clock }) := by
  unfold dispatch
  rw [dispatcher.dispatchHttp_none h]

end Inspect.Flow.FlowDispatcher

namespace Inspect.Mitm

open Http Filters Inspect.Flow

/-! ## What can be observed -/

section Observed

variable {N C : Type}

/-- The request that is sent upstream. -/
def served : FlowEffect N → Option Request
  | .serve request => some request
  | _ => none

/-- The request that is captured. Parts of a capture are on disk even if a later write fails. -/
def capturedRequest : FlowEffect N → Option EffectiveRequestCapture
  | .commitRequest capture _ => some capture
  | _ => none

/-- The response that is captured. -/
def capturedResponse : FlowEffect N → Option (EffectiveResponseCapture N)
  | .commitResponse capture _ => some capture
  | _ => none

/-- The outbound job that is queued. -/
def outboundJob : FlowEffect N → Option OutboundHttpJob
  | .outboundHttp job => some job
  | _ => none

/-- What the client, the upstream, the capture and other services see. -/
structure Observation (N C : Type) where
  answer : Answer C
  served : List Request
  requests : List EffectiveRequestCapture
  responses : List (EffectiveResponseCapture N)
  outboundJobs : List OutboundHttpJob
  handshakes : List (HandshakeEffect N)

def observation {S : Type} (outcome : Answer C × World S N) : Observation N C where
  answer := outcome.1
  served := outcome.2.flow.effects.filterMap Mitm.served
  requests := outcome.2.flow.effects.filterMap capturedRequest
  responses := outcome.2.flow.effects.filterMap capturedResponse
  outboundJobs := outcome.2.flow.effects.filterMap outboundJob
  handshakes := outcome.2.handshakes

end Observed

section Emulate

variable {N C : Type} [BEq N] (regex : Str → Option (Str → Str → Str)) (state : State FilterRuntimeState N C)
  (arrival : Arrival) (req : Request) (world : World FilterRuntimeState N)

/-- A request tells no two filter sets apart, and no filter set makes an outbound job of it. -/
structure NoninterferingAt : Prop where
  same : ∀ F₁ F₂, observation (serve (state.withFilterSet regex F₁) arrival req world)
    = observation (serve (state.withFilterSet regex F₂) arrival req world)
  noOutboundJob : ∀ F, (observation (serve (state.withFilterSet regex F) arrival req world)).outboundJobs
    = world.flow.effects.filterMap outboundJob

/-- Whether a request reaches a hook of the filters in the mode `emulate`. A `CONNECT` does if it has an authority. Any
    other request does if the layers hand it on, it is not a WebSocket handshake, and it has a context. -/
def reachesHook : Bool :=
  if arrival = .listener ∧ req.parts.method = "CONNECT".toList then (state.framework.hostWithPort req).isSome
  else
    match state.framework.layers true req with
    | .error _ => false
    | .ok (req, _) =>
        !state.framework.matchesWebSocket req
          && (state.flowDispatcher.requestContext (state.flowDispatcher.routed req)).isSome

end Emulate

/-! ## Filters that match every message -/

/-- A filter with the default trigger. -/
def everyMessage (script : CompiledRotoFilter) : CompiledFilter CompiledRotoFilter where
  definition := ⟨"every".toList, .persistent, "every.roto".toList, [],
    [Text.bytes "filters".toList, Text.bytes "every.roto".toList], [], FilterMetadata.default, []⟩
  priority := 0
  program := .compiled script

/-- A script whose `connect_action` drops the tunnel. -/
def blockingScript : CompiledRotoFilter :=
  { CompiledRotoFilter.default with connectAction := some fun _ => ⟨true, true, none, []⟩ }

/-- A script whose `request_action` sets the body. -/
def rewritingScript (body : Str) : CompiledRotoFilter :=
  { CompiledRotoFilter.default with
    requestAction := some fun _ => .answer (RotoRequestActionData.pass.setBodyText body []) }

theorem runRequestFilters_rewriting {N : Type} [BEq N] (serde : SerdeJson N) (regex : Str → Option (Str → Str → Str))
    (body : Str) (view : FilterRequestView) (req : FilterRequest) (state : FilterRuntimeState) :
    ((FlowFilterRuntime.ofSet serde regex [everyMessage (rewritingScript body)]).runRequestFilters view req
        state).1.request
      = some { FilterRequestPatch.default with body := some ⟨Text.bytes body, none⟩ } := rfl

/-! ## Services -/

section Services

variable {S N C : Type} (state : State S N C) {arrival : Arrival} {req : Request} (world : World S N)

/-- A handshake leaves the effects of the flows as they are. -/
theorem dispatchWebsocketHandshake_effects (dispatcher : FlowDispatcher S N) (serveWebsocket : Request → Response)
    (limit : Option Nat) (req : Request) (flow : FlowState S N) :
    (dispatchWebsocketHandshake dispatcher serveWebsocket limit req flow).2.2.effects = flow.effects := by
  unfold dispatchWebsocketHandshake
  cases dispatcher.requestContext req with
  | none => rfl
  | some reqCtx => rfl

theorem httpMitmProxy_handshake (h : state.framework.matchesWebSocket req = true) :
    httpMitmProxy state req world
      = let handshake := dispatchWebsocketHandshake state.flowDispatcher state.framework.serveWebsocket
          state.bodySaveLimitBytes req world.flow
        (handshake.1.intoClientResponse,
          { world with flow := handshake.2.2, handshakes := world.handshakes ++ handshake.2.1 }) := by
  unfold httpMitmProxy
  rw [if_pos h]

theorem httpMitmProxy_flow (h : ¬state.framework.matchesWebSocket req = true) :
    httpMitmProxy state req world
      = ((state.flowDispatcher.dispatch req world.flow).1,
        { world with flow := (state.flowDispatcher.dispatch req world.flow).2 }) := by
  unfold httpMitmProxy
  rw [if_neg h]

theorem newHttpMitmProxy_of_error (hmode : state.proxyMode = .emulate) {answer : C}
    (h : state.framework.layers true req = .error answer) : newHttpMitmProxy state req world = (answer, world) := by
  unfold newHttpMitmProxy
  rw [hmode, show (ProxyMode.emulate == ProxyMode.emulate) = true from rfl, h]

theorem newHttpMitmProxy_of_ok (hmode : state.proxyMode = .emulate) {inner : Request}
    {respond : ClientResponse N → C} (h : state.framework.layers true req = .ok (inner, respond)) :
    newHttpMitmProxy state req world
      = (respond (httpMitmProxy state inner world).1, (httpMitmProxy state inner world).2) := by
  unfold newHttpMitmProxy
  rw [hmode, show (ProxyMode.emulate == ProxyMode.emulate) = true from rfl, h]

theorem serve_connect_none (hconnect : arrival = .listener ∧ req.parts.method = "CONNECT".toList)
    (h : state.framework.hostWithPort req = none) :
    serve state arrival req world = (.denied (intoResponse .badRequest), world) := by
  unfold serve httpConnectAccept
  rw [if_pos hconnect, h]

/-- The filters decide about a tunnel with an authority. -/
theorem serve_connect_answer (hconnect : arrival = .listener ∧ req.parts.method = "CONNECT".toList)
    {authority : HostWithPort} (h : state.framework.hostWithPort req = some authority) :
    let connect := (dispatchConnectFilters state authority world).1
    (serve state arrival req world).1
      = if connect.action.dropTunnel then
          .denied (deniedResponse ((connect.action.rejectStatus.bind StatusCode.fromU16).getD .forbidden))
        else .accepted (intoResponse .ok) authority := by
  unfold serve httpConnectAccept
  rw [if_pos hconnect, h]
  dsimp only
  split_ifs with hdrop
  · rfl
  · rfl

theorem serve_request (hconnect : ¬(arrival = .listener ∧ req.parts.method = "CONNECT".toList)) :
    serve state arrival req world
      = (.answered (newHttpMitmProxy state req world).1, (newHttpMitmProxy state req world).2) := by
  unfold serve
  rw [if_neg hconnect]

end Services

/-! ## Main result -/

section Emulate

variable {N C : Type} [BEq N] (regex : Str → Option (Str → Str → Str)) (state : State FilterRuntimeState N C)
  (arrival : Arrival) (req : Request) (world : World FilterRuntimeState N)

/-- A request that is no flow is handled without the filters. -/
theorem httpMitmProxy_without_filters (F : CompiledFilterSet CompiledRotoFilter)
    (h : state.framework.matchesWebSocket req = true
      ∨ state.flowDispatcher.requestContext (state.flowDispatcher.routed req) = none) :
    httpMitmProxy (state.withFilterSet regex F) req world = httpMitmProxy state req world
    ∧ (httpMitmProxy state req world).2.flow.effects = world.flow.effects := by
  by_cases hwebsocket : state.framework.matchesWebSocket req = true
  · -- a handshake is handed on as it is
    rw [httpMitmProxy_handshake state world hwebsocket, httpMitmProxy_handshake (state.withFilterSet regex F) world hwebsocket]
    exact ⟨rfl, dispatchWebsocketHandshake_effects _ _ _ _ _⟩
  · -- a request without a context is refused
    have hnone := h.resolve_left hwebsocket
    rw [httpMitmProxy_flow state world hwebsocket, httpMitmProxy_flow (state.withFilterSet regex F) world hwebsocket,
      state.flowDispatcher.dispatch_none hnone, (state.withFilterSet regex F).flowDispatcher.dispatch_none hnone]
    exact ⟨rfl, rfl⟩

/-- What no hook is asked about has one outcome for all filter sets. -/
theorem serve_of_not_reachesHook (hmode : state.proxyMode = .emulate) (h : reachesHook state arrival req = false)
    (F : CompiledFilterSet CompiledRotoFilter) :
    serve (state.withFilterSet regex F) arrival req world = serve state arrival req world
    ∧ (serve state arrival req world).2.flow.effects = world.flow.effects := by
  unfold reachesHook at h
  split_ifs at h with hconnect
  · have hnone : state.framework.hostWithPort req = none := by simpa using h
    rw [serve_connect_none state world hconnect hnone, serve_connect_none (state.withFilterSet regex F) world hconnect hnone]
    exact ⟨rfl, rfl⟩
  · rw [serve_request state world hconnect, serve_request (state.withFilterSet regex F) world hconnect]
    cases hlayers : state.framework.layers true req with
    | error answer =>
        rw [newHttpMitmProxy_of_error state world hmode hlayers,
          newHttpMitmProxy_of_error (state.withFilterSet regex F) world hmode hlayers]
        exact ⟨rfl, rfl⟩
    | ok handed =>
        obtain ⟨inner, respond⟩ := handed
        rw [hlayers] at h
        have hfree : state.framework.matchesWebSocket inner = true
            ∨ state.flowDispatcher.requestContext (state.flowDispatcher.routed inner) = none := by
          rcases Bool.and_eq_false_iff.mp h with hwebsocket | hnone
          · exact Or.inl (by simpa using hwebsocket)
          · exact Or.inr (by simpa using hnone)
        obtain ⟨hsame, heffects⟩ := httpMitmProxy_without_filters regex state inner world F hfree
        rw [newHttpMitmProxy_of_ok state world hmode hlayers,
          newHttpMitmProxy_of_ok (state.withFilterSet regex F) world hmode hlayers, hsame]
        exact ⟨rfl, heffects⟩

/-- A filter set that denies every tunnel is told from the empty one by every `CONNECT` with an authority. -/
theorem interfering_connect (hconnect : arrival = .listener ∧ req.parts.method = "CONNECT".toList)
    {authority : HostWithPort} (hauthority : state.framework.hostWithPort req = some authority) :
    (serve (state.withFilterSet regex []) arrival req world).1
      ≠ (serve (state.withFilterSet regex [everyMessage blockingScript]) arrival req world).1 := by
  have hpass : (dispatchConnectFilters (state.withFilterSet regex []) authority world).1.action.dropTunnel = false :=
    rfl
  have hdrop : (dispatchConnectFilters (state.withFilterSet regex [everyMessage blockingScript]) authority
      world).1.action.dropTunnel = true := rfl
  rw [serve_connect_answer (state.withFilterSet regex []) world hconnect hauthority,
    serve_connect_answer (state.withFilterSet regex [everyMessage blockingScript]) world hconnect hauthority]
  simp only [hpass, hdrop, Bool.false_eq_true, if_false, if_true]
  intro hsame
  cases hsame

/-- What is captured of a flow under a filter set that sets its body. -/
theorem captured_of_rewriting (hmode : state.proxyMode = .emulate)
    (hconnect : ¬(arrival = .listener ∧ req.parts.method = "CONNECT".toList)) {inner : Request}
    {respond : ClientResponse N → C} (hlayers : state.framework.layers true req = .ok (inner, respond))
    (hwebsocket : ¬state.framework.matchesWebSocket inner = true) {reqCtx : RequestContext}
    (hcontext : state.flowDispatcher.requestContext (state.flowDispatcher.routed inner) = some reqCtx) (body : Str) :
    ∃ capture rest, (observation (serve (state.withFilterSet regex [everyMessage (rewritingScript body)]) arrival req
        world)).requests = world.flow.effects.filterMap capturedRequest ++ capture :: rest
      ∧ capture.bodyBytes = Text.bytes body := by
  set rewriting := state.withFilterSet regex [everyMessage (rewritingScript body)]
  obtain ⟨action, haction, hpatch⟩ : ∃ action,
      rewriting.flowDispatcher.combinedRequestAction inner world.flow = some action
      ∧ action.request = some { FilterRequestPatch.default with body := some ⟨Text.bytes body, none⟩ } := by
    refine ⟨_, Option.map_eq_some_iff.mpr ⟨reqCtx, hcontext, rfl⟩, ?_⟩
    exact runRequestFilters_rewriting state.flowDispatcher.serde regex body _ _ _
  obtain ⟨capture, stored, rest, heffects, hbytes⟩ :=
    rewriting.flowDispatcher.dispatchHttp_commits haction hpatch rfl
  refine ⟨capture, rest.filterMap capturedRequest, ?_, hbytes⟩
  rw [serve_request rewriting world hconnect, newHttpMitmProxy_of_ok rewriting world hmode hlayers,
    httpMitmProxy_flow rewriting world hwebsocket]
  show (rewriting.flowDispatcher.dispatch inner world.flow).2.effects.filterMap capturedRequest = _
  rw [rewriting.flowDispatcher.dispatch_snd, heffects, List.filterMap_append]
  rfl

/-- Two filter sets that set different bodies are told apart by every flow. -/
theorem interfering_request (hmode : state.proxyMode = .emulate)
    (hconnect : ¬(arrival = .listener ∧ req.parts.method = "CONNECT".toList)) {inner : Request}
    {respond : ClientResponse N → C} (hlayers : state.framework.layers true req = .ok (inner, respond))
    (hwebsocket : ¬state.framework.matchesWebSocket inner = true) {reqCtx : RequestContext}
    (hcontext : state.flowDispatcher.requestContext (state.flowDispatcher.routed inner) = some reqCtx) :
    observation (serve (state.withFilterSet regex [everyMessage (rewritingScript "a".toList)]) arrival req world)
      ≠ observation (serve (state.withFilterSet regex [everyMessage (rewritingScript "b".toList)]) arrival req
        world) := by
  intro hsame
  obtain ⟨capture₁, rest₁, hfirst₁, hbody₁⟩ := captured_of_rewriting regex state arrival req world hmode hconnect
    hlayers hwebsocket hcontext "a".toList
  obtain ⟨capture₂, rest₂, hfirst₂, hbody₂⟩ := captured_of_rewriting regex state arrival req world hmode hconnect
    hlayers hwebsocket hcontext "b".toList
  rw [hsame, hfirst₂] at hfirst₁
  -- both runs committed the same request first
  obtain ⟨hcapture, -⟩ := List.cons.inj (List.append_cancel_left hfirst₁)
  rw [← hcapture, hbody₂] at hbody₁
  exact absurd hbody₁ (by decide)

/-- **Filters while a browser is emulated.** In the mode `emulate` a request tells no two filter sets apart, and no
    filter set makes an outbound job of it, exactly if it reaches no hook of the filters. -/
theorem emulate_noninterference_iff (hmode : state.proxyMode = .emulate) :
    NoninterferingAt regex state arrival req world ↔ reachesHook state arrival req = false := by
  constructor
  · intro hnone
    by_contra hreaches
    rw [Bool.not_eq_false] at hreaches
    unfold reachesHook at hreaches
    split_ifs at hreaches with hconnect
    · obtain ⟨authority, hauthority⟩ := Option.isSome_iff_exists.mp hreaches
      exact interfering_connect regex state arrival req world hconnect hauthority
        (congrArg Observation.answer (hnone.same _ _))
    · cases hlayers : state.framework.layers true req with
      | error answer =>
          rw [hlayers] at hreaches
          cases hreaches
      | ok handed =>
          obtain ⟨inner, respond⟩ := handed
          rw [hlayers] at hreaches
          obtain ⟨hwebsocket, hcontext⟩ := Bool.and_eq_true_iff.mp hreaches
          obtain ⟨reqCtx, hreqCtx⟩ := Option.isSome_iff_exists.mp hcontext
          exact interfering_request regex state arrival req world hmode hconnect hlayers (by simpa using hwebsocket)
            hreqCtx (hnone.same _ _)
  · intro hfree
    have hserve := serve_of_not_reachesHook regex state arrival req world hmode hfree
    refine ⟨?_, ?_⟩
    · intro F₁ F₂
      rw [(hserve F₁).1, (hserve F₂).1]
    · intro F
      rw [(hserve F).1]
      show (serve state arrival req world).2.flow.effects.filterMap outboundJob = _
      rw [(hserve F).2]

end Emulate

/-! ## A proxy that emulates a browser -/

/-- A proxy in the mode `emulate`, with layers that change nothing. -/
def emulatingProxy : State FilterRuntimeState Int (ClientResponse Int) where
  framework := {
    hostWithPort := fun req => req.parts.uri.authority.map fun host => ⟨host, 443⟩
    matchesWebSocket := fun _ => false
    serveWebsocket := fun _ => intoResponse .badRequest
    layers := fun _ req => .ok (req, id) }
  flowDispatcher := plainDispatcher
  runConnectFilters := runConnectFilters []
  bodySaveLimitBytes := none
  proxyMode := .emulate

def idleWorld : World FilterRuntimeState Int := ⟨idleFlow idleFilters, [], []⟩

/-- `CONNECT example.com`. -/
def connectRequest : Request :=
  ⟨⟨"CONNECT".toList, ⟨none, some "example.com".toList, [], none⟩, .http11, []⟩, none, none, []⟩

/-- A request without a host is refused in any case, and one with a host is not left alone. -/
theorem emulate_noninterference_download :
    NoninterferingAt (fun _ => none) emulatingProxy .tunnel ⟨downloadRequest, none, none, []⟩ idleWorld
    ∧ ¬NoninterferingAt (fun _ => none) emulatingProxy .tunnel hostedRequest idleWorld := by
  constructor
  · exact (emulate_noninterference_iff _ emulatingProxy .tunnel _ idleWorld rfl).mpr rfl
  · intro hnone
    have hfree := (emulate_noninterference_iff _ emulatingProxy .tunnel _ idleWorld rfl).mp hnone
    cases hfree

/-- A tunnel that is accepted without filters is denied by a filter, in the mode `emulate`. -/
theorem emulating_proxy_denies_tunnel :
    emulatingProxy.proxyMode = .emulate
    ∧ (serve (emulatingProxy.withFilterSet (fun _ => none) []) .listener connectRequest idleWorld).1
      = .accepted (intoResponse .ok) ⟨"example.com".toList, 443⟩
    ∧ (serve (emulatingProxy.withFilterSet (fun _ => none) [everyMessage blockingScript]) .listener connectRequest
        idleWorld).1 = .denied (deniedResponse .forbidden)
    ∧ ¬NoninterferingAt (fun _ => none) emulatingProxy .listener connectRequest idleWorld := by
  refine ⟨rfl, rfl, rfl, ?_⟩
  intro hnone
  have hanswers := congrArg Observation.answer (hnone.same [] [everyMessage blockingScript])
  cases hanswers

end Inspect.Mitm
