import Inspect.Flow.Correctness.Streaming
import Inspect.Lib.Json.Codec

/-!
# `Flow.Correctness.Dispatch` — the protocol of a flow

What a run of `dispatch_http` does to the world, in which order and how often: the request is committed before the
upstream is called, and the response is committed once, either while it is dispatched or when its body is finalised.

The functions of the dispatcher are specified one after the other; no proof about a caller looks into what it calls.
-/

namespace Inspect.Flow

open Http Filters

variable {S N : Type} (dispatcher : FlowDispatcher S N)

namespace FlowDispatcher

/-! ## Outbound jobs -/

theorem resolveOutboundHttpJobs_apply (input : ResponseDispatchInput N) (parts : ResponseParts) (body : Bytes)
    (jobs : List OutboundHttpJob) (state : FlowState S N) :
    ∃ resolved elapsed, dispatcher.resolveOutboundHttpJobs input parts body jobs state
      = (.ok resolved, { state with elapsed }) := by
  induction jobs generalizing state with
  | nil => exact ⟨[], state.elapsed, rfl⟩
  | cons job jobs ih =>
      unfold resolveOutboundHttpJobs
      cases hbody : job.body with
      | capturedResponseJson =>
          obtain ⟨resolved, elapsed, hrest⟩ := ih { state with elapsed := later state.elapsed }
          simp only [bind_apply, nextElapsedMs_apply, pure_apply, hrest]
          exact ⟨_, elapsed, rfl⟩
      | capturedFlowJson =>
          obtain ⟨resolved, elapsed, hrest⟩ := ih { state with elapsed := later state.elapsed }
          simp only [bind_apply, nextElapsedMs_apply, pure_apply, hrest]
          exact ⟨_, elapsed, rfl⟩
      | bytes _ | capturedRequest | capturedResponse | capturedRequestJson =>
          obtain ⟨resolved, elapsed, hrest⟩ := ih state
          simp only [bind_apply, pure_apply, hrest]
          exact ⟨_, elapsed, rfl⟩

theorem tryEnqueue_apply (clients : List Str) (jobs : List OutboundHttpJob) (state : FlowState S N) :
    ∃ (sent : List OutboundHttpJob) (queue : Nat → Bool),
      tryEnqueue clients jobs state
      = (.ok (), { state with queue, effects := state.effects ++ sent.map .outboundHttp }) := by
  induction jobs generalizing state with
  | nil => exact ⟨[], state.queue, by simp [tryEnqueue]⟩
  | cons job jobs ih =>
      unfold tryEnqueue
      by_cases hclient : clients.contains job.client = true
      · rw [if_pos hclient]
        cases hslot : state.queue 0 with
        | true =>
            obtain ⟨sent, queue, hrest⟩ := ih
              { state with queue := later state.queue, effects := state.effects ++ [.outboundHttp job] }
            refine ⟨job :: sent, queue, ?_⟩
            simp only [bind_apply, nextQueueSlot_apply, hslot, if_true, emit_apply, hrest, List.append_assoc,
              List.singleton_append, List.map_cons]
        | false =>
            obtain ⟨sent, queue, hrest⟩ := ih { state with queue := later state.queue }
            refine ⟨sent, queue, ?_⟩
            simp only [bind_apply, nextQueueSlot_apply, hslot, Bool.false_eq_true, if_false, hrest]
      · rw [if_neg hclient]
        exact ih state

theorem dispatchOutboundHttp_apply (jobs : List OutboundHttpJob) (state : FlowState S N) :
    ∃ (sent : List OutboundHttpJob) (queue : Nat → Bool), dispatcher.dispatchOutboundHttp jobs state
      = (.ok (), { state with queue, effects := state.effects ++ sent.map .outboundHttp }) := by
  unfold dispatchOutboundHttp
  cases dispatcher.outboundHttpPool with
  | none => exact ⟨[], state.queue, by simp⟩
  | some clients => exact tryEnqueue_apply clients jobs state

/-! ## Responses -/

/-- What a dispatch of a response can do: it is committed and published after some outbound jobs, or the commit fails,
    or nothing happens yet since the body is streamed. -/
inductive ResponseOutcome (state : FlowState S N) :
    Except FlowDispatchError (ClientResponse N) × FlowState S N → Prop
  | committed (client : ClientResponse N) (state' : FlowState S N) (jobs : List OutboundHttpJob)
      (capture : EffectiveResponseCapture N) (marks : List FlowMark) (hstored : state.writes 0 = true)
      (hwrites : state'.writes = later state.writes)
      (heffects : state'.effects = state.effects ++ (jobs.map .outboundHttp
        ++ [.commitResponse capture true, .responseCommitted (capture.committed marks)]))
      (hbody : client.body.isStreaming = false) :
      ResponseOutcome state (.ok client, state')
  | failed (state' : FlowState S N) (jobs : List OutboundHttpJob) (capture : EffectiveResponseCapture N)
      (hstored : state.writes 0 = false)
      (heffects : state'.effects = state.effects ++ (jobs.map .outboundHttp ++ [.commitResponse capture false])) :
      ResponseOutcome state (.error .internal, state')
  | streaming (client : ClientResponse N) (state' : FlowState S N) (inner : Body) (input : ResponseDispatchInput N)
      (parts : ResponseParts) (threshold : Nat) (hwrites : state'.writes = state.writes)
      (heffects : state'.effects = state.effects)
      (hbody : client.body = .streaming ⟨inner, StreamingResponseFinalize.new⟩ input parts threshold) :
      ResponseOutcome state (.ok client, state')

theorem dispatchSseResponse_outcome (input : ResponseDispatchInput N) (parts : ResponseParts) (body : Body)
    (elapsedMs : Int64) (state : FlowState S N) :
    ResponseOutcome state (dispatcher.dispatchSseResponse input parts body elapsedMs state) := by
  unfold dispatchSseResponse commitResponse
  cases hstored : state.writes 0 with
  | true =>
      simp only [bind_apply, nextWrite_apply, emit_apply, pure_apply, hstored, if_true]
      exact .committed _ _ [] _ [] hstored rfl (List.append_assoc ..) rfl
  | false =>
      simp only [bind_apply, nextWrite_apply, emit_apply, hstored, if_false, throw_apply, Bool.false_eq_true]
      exact .failed _ [] _ hstored rfl

theorem dispatchResponseFilters_apply (input : ResponseDispatchInput N) (parts : ResponseParts) (body : Bytes)
    (elapsedMs : Int64) (state : FlowState S N) :
    ∃ output filters, dispatcher.dispatchResponseFilters input parts body elapsedMs state
      = (.ok output, { state with filters }) := by
  unfold dispatchResponseFilters
  simp only [bind_apply, runFilters_apply, pure_apply]
  exact ⟨_, _, rfl⟩

/-- The dispatch of a body that was read, all at once: what the filters make of it is committed, then published and
    handed on if it could be stored. -/
theorem dispatchCollectedResponse_apply (input : ResponseDispatchInput N) (parts : ResponseParts) (body : Bytes)
    (elapsedMs : Int64) (state : FlowState S N) :
    ∃ output filters, ∃ jobs : List OutboundHttpJob, ∃ state',
      dispatcher.dispatchResponseFilters input parts body elapsedMs state = (.ok output, { state with filters })
      ∧ state'.writes = later state.writes
      ∧ state'.effects = state.effects ++ (jobs.map .outboundHttp
        ++ .commitResponse (responseCapture input output.parts output.body none none elapsedMs) (state.writes 0)
          :: if state.writes 0 then [.responseCommitted
            ((responseCapture input output.parts output.body none none elapsedMs).committed output.marks)] else [])
      ∧ dispatcher.dispatchCollectedResponse input parts body elapsedMs state
        = (if state.writes 0 then .ok (if output.dropClientResponse then droppedResponse.intoClientResponse
            else ⟨output.parts, .full (Body.ofBytes output.body)⟩) else .error .internal, state') := by
  obtain ⟨output, filters, houtput⟩ := dispatcher.dispatchResponseFilters_apply input parts body elapsedMs state
  obtain ⟨jobs, elapsed, hjobs⟩ := dispatcher.resolveOutboundHttpJobs_apply input output.parts output.body
    output.outboundHttp { state with filters }
  obtain ⟨sent, queue, hsent⟩ := dispatcher.dispatchOutboundHttp_apply jobs { state with filters, elapsed }
  unfold dispatchCollectedResponse dispatchCompletedFilters commitResponse
  simp only [bind_apply, houtput, hjobs, hsent, nextWrite_apply, emit_apply]
  cases hstored : state.writes 0 with
  | true =>
      simp only [if_true, runFilters_apply]
      rw [← apply_ite pure, pure_apply]
      exact ⟨output, filters, sent, _, rfl, rfl, by simp only [List.append_assoc, List.singleton_append], rfl⟩
  | false =>
      simp only [Bool.false_eq_true, if_false, throw_apply]
      exact ⟨output, filters, sent, _, rfl, rfl, List.append_assoc .., rfl⟩

theorem dispatchCollectedResponse_outcome (input : ResponseDispatchInput N) (parts : ResponseParts) (body : Bytes)
    (elapsedMs : Int64) (state : FlowState S N) :
    ResponseOutcome state (dispatcher.dispatchCollectedResponse input parts body elapsedMs state) := by
  obtain ⟨output, filters, sent, state', -, hwrites, heffects, happly⟩ :=
    dispatcher.dispatchCollectedResponse_apply input parts body elapsedMs state
  rw [happly]
  cases hstored : state.writes 0 with
  | true =>
      rw [hstored] at heffects
      refine .committed _ state' sent _ output.marks hstored hwrites heffects ?_
      cases output.dropClientResponse <;> rfl
  | false =>
      rw [hstored] at heffects
      exact .failed state' sent _ hstored heffects

/-- Reading the time changes nothing of it. -/
theorem ResponseOutcome.of_elapsed {state : FlowState S N} (elapsed : Nat → Int64)
    {outcome : Except FlowDispatchError (ClientResponse N) × FlowState S N}
    (h : ResponseOutcome { state with elapsed } outcome) : ResponseOutcome state outcome := by
  cases h with
  | committed client state' jobs capture marks hstored hwrites heffects hbody =>
      exact .committed client state' jobs capture marks hstored hwrites heffects hbody
  | failed state' jobs capture hstored heffects => exact .failed state' jobs capture hstored heffects
  | streaming client state' inner input parts threshold hwrites heffects hbody =>
      exact .streaming client state' inner input parts threshold hwrites heffects hbody

/-- A response only adds effects, and none that calls the upstream. -/
theorem ResponseOutcome.effects_append {state : FlowState S N}
    {outcome : Except FlowDispatchError (ClientResponse N) × FlowState S N} (h : ResponseOutcome state outcome) :
    ∃ rest, outcome.2.effects = state.effects ++ rest ∧ ∀ sent, .serve sent ∉ rest := by
  cases h with
  | committed client state' jobs capture marks hstored hwrites heffects hbody =>
      exact ⟨_, heffects, fun sent => by simp⟩
  | failed state' jobs capture hstored heffects => exact ⟨_, heffects, fun sent => by simp⟩
  | streaming client state' inner input parts threshold hwrites heffects hbody =>
      exact ⟨[], heffects.trans (List.append_nil _).symm, fun sent => List.not_mem_nil⟩

/-- **All that the dispatch of a response can do.** -/
theorem dispatchResponse_outcome (input : ResponseDispatchInput N) (response : Response) (state : FlowState S N) :
    ResponseOutcome state (dispatcher.dispatchResponse input response state) := by
  unfold dispatchResponse
  simp only [bind_apply, nextElapsedMs_apply]
  apply ResponseOutcome.of_elapsed (later state.elapsed)
  split_ifs with hsse
  · exact dispatcher.dispatchSseResponse_outcome _ _ _ _ _
  · cases responseBodyMode input.filterRequest.method response.parts.status response.parts.headers
      dispatcher.config.streamBodyThresholdBytes with
    | collect => exact dispatcher.dispatchCollectedResponse_outcome _ _ _ _ _
    | stream => exact .streaming _ _ response.body input response.parts _ rfl rfl rfl
    | probe =>
        cases probeResponseBody response.body dispatcher.config.streamBodyThresholdBytes with
        | collected body => exact dispatcher.dispatchCollectedResponse_outcome _ _ _ _ _
        | stream start rest => exact .streaming _ _ (prefixThenBody start rest) input response.parts _ rfl rfl rfl

/-! ## Requests -/

theorem routed_body (req : Request) : (dispatcher.routed req).body = req.body := by
  unfold routed
  cases dispatcher.config.upstreamProxy with
  | none => rfl
  | some upstreamProxy => rfl

theorem routed_parts (req : Request) : (dispatcher.routed req).parts = req.parts := by
  unfold routed
  cases dispatcher.config.upstreamProxy with
  | none => rfl
  | some upstreamProxy => rfl

/-- The context of a flow. -/
def flowContext (req : Request) (reqCtx : RequestContext) (state : FlowState S N) : RequestDispatchContext where
  id := state.uuids 0
  seq := state.seq + 1
  flowKey := flowKeyOf (state.seq + 1) (state.uuids 0)
  flowDir := dispatcher.flowsDir ++ [flowKeyOf (state.seq + 1) (state.uuids 0)]
  epochMs := state.clock 0
  tlsSni := req.tlsSni
  protocol := reqCtx.protocol
  host := reqCtx.host
  uri := req.parts.uri
  method := req.parts.method

theorem newRequestContext_apply {req : Request} {reqCtx : RequestContext}
    (h : dispatcher.requestContext req = some reqCtx) (state : FlowState S N) :
    dispatcher.newRequestContext req state
      = (.ok (dispatcher.flowContext req reqCtx state),
        { state with seq := state.seq + 1, uuids := later state.uuids, clock := later state.clock }) := by
  unfold newRequestContext
  simp only [bind_apply, nextSeq_apply, nextUuid_apply, nextEpochMs_apply, h, pure_apply]
  rfl

theorem newRequestContext_none {req : Request} (h : dispatcher.requestContext req = none) (state : FlowState S N) :
    dispatcher.newRequestContext req state
      = (.error .badRequest,
        { state with seq := state.seq + 1, uuids := later state.uuids, clock := later state.clock }) := by
  unfold newRequestContext
  simp only [bind_apply, nextSeq_apply, nextUuid_apply, nextEpochMs_apply, h, throw_apply]

/-- A request without a context is refused before anything else happens. -/
theorem dispatchHttp_none {req : Request} (h : dispatcher.requestContext (dispatcher.routed req) = none)
    (state : FlowState S N) :
    dispatcher.dispatchHttp req state
      = (.error .badRequest,
        { state with seq := state.seq + 1, uuids := later state.uuids, clock := later state.clock }) := by
  unfold dispatchHttp
  rw [bind_apply, dispatcher.newRequestContext_none h]

/-- What the filters of a request answer together, if its context can be found. -/
def combinedRequestAction (req : Request) (state : FlowState S N) : Option RequestAction :=
  (dispatcher.requestContext (dispatcher.routed req)).map fun reqCtx =>
    let ctx := dispatcher.flowContext (dispatcher.routed req) reqCtx state
    (dispatcher.filters.runRequestFilters (ctx.requestView (dispatcher.routed req).parts.method)
      (dispatcher.filterRequestOf ctx (dispatcher.routed req).parts (collectBody (dispatcher.routed req).body))
      state.filters).1

/-- The body a request has behind its filters: what they set together, or what was read. -/
def patchedBody (action : RequestAction) (body : Bytes) : Bytes :=
  match action.request.bind FilterRequestPatch.body with
  | some patch => patch.bytes
  | none => body

theorem dispatchRequestFilters_apply (ctx : RequestDispatchContext) (parts : RequestParts) (body : Bytes)
    (state : FlowState S N) :
    ∃ output filters, dispatcher.dispatchRequestFilters ctx parts body state = (.ok output, { state with filters })
      ∧ ∀ action, action = (dispatcher.filters.runRequestFilters (ctx.requestView parts.method)
          (dispatcher.filterRequestOf ctx parts body) state.filters).1 →
        output.dropClientResponse = action.dropClientResponse
        ∧ output.syntheticResponse = action.syntheticResponse
        ∧ output.body = patchedBody action body := by
  unfold dispatchRequestFilters
  simp only [bind_apply, runFilters_apply, pure_apply]
  refine ⟨_, _, rfl, ?_⟩
  rintro action rfl
  refine ⟨rfl, rfl, ?_⟩
  unfold patchedBody
  cases (dispatcher.filters.runRequestFilters (ctx.requestView parts.method)
      (dispatcher.filterRequestOf ctx parts body) state.filters).1.request with
  | none => rfl
  | some patch =>
      show (applyBodyPatch _ body patch.body).2 = _
      rw [Option.bind_some]
      cases patch.body with
      | none => rfl
      | some bodyPatch => rfl

theorem commitRequest_stored (ctx : RequestDispatchContext) (parts : RequestParts) (body : Bytes)
    (marks : List FlowMark) {state : FlowState S N} (h : state.writes 0 = true) :
    commitRequest ctx parts body marks state
      = (.ok (), { state with
          writes := later state.writes
          effects := state.effects ++ [.commitRequest (requestCapture ctx parts body) true,
            .requestCommitted ((requestCapture ctx parts body).committed marks)] }) := by
  unfold commitRequest
  simp only [bind_apply, nextWrite_apply, emit_apply, h, if_true, List.append_assoc, List.singleton_append]

theorem commitRequest_failed (ctx : RequestDispatchContext) (parts : RequestParts) (body : Bytes)
    (marks : List FlowMark) {state : FlowState S N} (h : state.writes 0 = false) :
    commitRequest ctx parts body marks state
      = (.error .internal, { state with
          writes := later state.writes
          effects := state.effects ++ [.commitRequest (requestCapture ctx parts body) false] }) := by
  unfold commitRequest
  simp only [bind_apply, nextWrite_apply, emit_apply, h, Bool.false_eq_true, if_false, throw_apply]

/-- What a flow can do, by the combined action of its request and the body that was read: the commit of the request
    fails, or the request is dropped, or it is answered. An answer comes from the upstream unless it is synthetic. -/
inductive FlowOutcome (action : RequestAction) (body : Bytes) (state : FlowState S N) :
    Except FlowDispatchError (ClientResponse N) × FlowState S N → Prop
  | failed (state' : FlowState S N) (capture : EffectiveRequestCapture) (hstored : state.writes 0 = false)
      (heffects : state'.effects = state.effects ++ [.commitRequest capture false]) :
      FlowOutcome action body state (.error .internal, state')
  | dropped (state' : FlowState S N) (capture : EffectiveRequestCapture) (marks : List FlowMark)
      (hdrop : action.dropClientResponse = true) (hstored : state.writes 0 = true)
      (heffects : state'.effects = state.effects
        ++ [.commitRequest capture true, .requestCommitted (capture.committed marks)]) :
      FlowOutcome action body state (.ok droppedResponse.intoClientResponse, state')
  | answered (outcome : Except FlowDispatchError (ClientResponse N) × FlowState S N) (state' : FlowState S N)
      (capture : EffectiveRequestCapture) (marks : List FlowMark) (served : List Request)
      (hdrop : action.dropClientResponse = false) (hstored : state.writes 0 = true)
      (hwrites : state'.writes = later state.writes)
      (hserved : served.length = if action.syntheticResponse.isSome then 0 else 1)
      (hbodies : ∀ sent ∈ served, sent.body = Body.ofBytes (patchedBody action body))
      (heffects : state'.effects = state.effects
        ++ ([.commitRequest capture true, .requestCommitted (capture.committed marks)] ++ served.map .serve))
      (hresponse : ResponseOutcome state' outcome) :
      FlowOutcome action body state outcome

theorem dispatchFilteredRequest_outcome (req : Request) (ctx : RequestDispatchContext)
    {output : RequestDispatchOutput} {action : RequestAction} {body : Bytes}
    (hdrop : output.dropClientResponse = action.dropClientResponse)
    (hsynthetic : output.syntheticResponse = action.syntheticResponse)
    (hbody : output.body = patchedBody action body) (state : FlowState S N) :
    FlowOutcome action body state (dispatcher.dispatchFilteredRequest req ctx output state) := by
  unfold dispatchFilteredRequest
  cases hstored : state.writes 0 with
  | false =>
      split_ifs
      · rw [bind_apply, commitRequest_failed _ _ _ _ hstored]
        exact .failed _ _ hstored rfl
      · rw [bind_apply, commitRequest_failed _ _ _ _ hstored]
        exact .failed _ _ hstored rfl
  | true =>
      split_ifs with hdropped
      · rw [bind_apply, commitRequest_stored _ _ _ _ hstored]
        exact .dropped _ _ _ (hdrop.symm.trans hdropped) hstored rfl
      · have hkept : action.dropClientResponse = false := hdrop.symm.trans (eq_false_of_ne_true hdropped)
        rw [bind_apply, commitRequest_stored _ _ _ _ hstored]
        cases hanswer : output.syntheticResponse with
        | some synthetic =>
            -- the filters answer, and nothing is sent
            refine .answered _ _ _ _ [] hkept hstored rfl ?_ ?_ rfl (dispatcher.dispatchResponse_outcome _ _ _)
            · rw [← hsynthetic, hanswer]
              rfl
            · intro sent hmem
              cases hmem
        | none =>
            -- the upstream answers
            simp only [bind_apply, emit_apply]
            refine .answered _ _ _ _ [{ req with parts := output.parts, body := Body.ofBytes output.body }] hkept
              hstored rfl ?_ ?_ (List.append_assoc ..) (dispatcher.dispatchResponse_outcome _ _ _)
            · rw [← hsynthetic, hanswer]
              rfl
            · intro sent hmem
              rw [List.mem_singleton.mp hmem, ← hbody]

/-- What a flow did before it was committed is not among its effects. -/
theorem FlowOutcome.of_same {action : RequestAction} {body : Bytes} {state state₀ : FlowState S N}
    (hwrites : state.writes = state₀.writes) (heffects₀ : state.effects = state₀.effects)
    {outcome : Except FlowDispatchError (ClientResponse N) × FlowState S N}
    (h : FlowOutcome action body state outcome) : FlowOutcome action body state₀ outcome := by
  cases h with
  | failed state' capture hstored heffects =>
      exact .failed state' capture (hwrites ▸ hstored) (heffects₀ ▸ heffects)
  | dropped state' capture marks hdrop hstored heffects =>
      exact .dropped state' capture marks hdrop (hwrites ▸ hstored) (heffects₀ ▸ heffects)
  | answered _ state' capture marks served hdrop hstored hlater hserved hbodies heffects hresponse =>
      exact .answered _ state' capture marks served hdrop (hwrites ▸ hstored) (hwrites ▸ hlater) hserved hbodies
        (heffects₀ ▸ heffects) hresponse

/-- **All that a flow can do.** -/
theorem dispatchHttp_outcome {req : Request} {state : FlowState S N} {action : RequestAction}
    (h : dispatcher.combinedRequestAction req state = some action) :
    FlowOutcome action (collectBody req.body) state (dispatcher.dispatchHttp req state) := by
  obtain ⟨reqCtx, hcontext, rfl⟩ := Option.map_eq_some_iff.mp h
  have hcollect : collectBody req.body = collectBody (dispatcher.routed req).body := by rw [dispatcher.routed_body]
  rw [hcollect]
  unfold dispatchHttp
  simp only [bind_apply, dispatcher.newRequestContext_apply hcontext]
  obtain ⟨output, filters, houtput, haction⟩ := dispatcher.dispatchRequestFilters_apply
    (dispatcher.flowContext (dispatcher.routed req) reqCtx state) (dispatcher.routed req).parts
    (collectBody (dispatcher.routed req).body)
    { state with seq := state.seq + 1, uuids := later state.uuids, clock := later state.clock }
  obtain ⟨hdrop, hsynthetic, hbody⟩ := haction _ rfl
  simp only [houtput]
  have houtcome := dispatcher.dispatchFilteredRequest_outcome (dispatcher.routed req)
    (dispatcher.flowContext (dispatcher.routed req) reqCtx state) hdrop hsynthetic hbody
    { state with seq := state.seq + 1, uuids := later state.uuids, clock := later state.clock, filters }
  exact houtcome.of_same (by rfl) (by rfl)

end FlowDispatcher

/-! ## The protocol -/

namespace FlowEffect

def isRequestCommit : FlowEffect N → Bool
  | .commitRequest .. => true
  | _ => false

def isRequestPublished : FlowEffect N → Bool
  | .requestCommitted _ => true
  | _ => false

def isUpstreamCall : FlowEffect N → Bool
  | .serve _ => true
  | _ => false

def isResponseCommit : FlowEffect N → Bool
  | .commitResponse .. => true
  | _ => false

def isResponsePublished : FlowEffect N → Bool
  | .responseCommitted _ => true
  | _ => false

end FlowEffect

open FlowEffect

/-- How often and in which order a flow commits, publishes and calls the upstream. -/
structure FlowProtocol (calls responses : Nat) (trace : List (FlowEffect N)) : Prop where
  requestCommits : trace.countP isRequestCommit = 1
  requestPublished : trace.countP isRequestPublished = 1
  upstreamCalls : trace.countP isUpstreamCall = calls
  responseCommits : trace.countP isResponseCommit = responses
  responsePublished : trace.countP isResponsePublished = responses
  /-- no request is committed after a call of the upstream -/
  commitBeforeUpstream : trace.Pairwise fun a b => a.isUpstreamCall = true → b.isRequestCommit = false
  /-- no request is published after a response -/
  requestPublishedFirst : trace.Pairwise fun a b => a.isResponsePublished = true → b.isRequestPublished = false

/-- The trace of a request that is dropped. -/
theorem flowProtocol_dropped (capture : EffectiveRequestCapture) (marks : List FlowMark) :
    FlowProtocol 0 0 ([.commitRequest capture true, .requestCommitted (capture.committed marks)]
      : List (FlowEffect N)) where
  requestCommits := rfl
  requestPublished := rfl
  upstreamCalls := rfl
  responseCommits := rfl
  responsePublished := rfl
  commitBeforeUpstream := by simp [isUpstreamCall]
  requestPublishedFirst := by simp [isResponsePublished]

/-- Behind the request there is neither a commit nor an event of it. -/
theorem answer_not_request {served : List Request} {jobs : List OutboundHttpJob}
    {response : EffectiveResponseCapture N} {responseMarks : List FlowMark} {effect : FlowEffect N}
    (h : effect ∈ served.map .serve ++ (jobs.map .outboundHttp
      ++ [.commitResponse response true, .responseCommitted (response.committed responseMarks)])) :
    effect.isRequestCommit = false ∧ effect.isRequestPublished = false := by
  simp only [List.mem_append, List.mem_map, List.mem_cons, List.not_mem_nil, or_false] at h
  rcases h with ⟨served, -, rfl⟩ | ⟨job, -, rfl⟩ | rfl | rfl
  · exact ⟨rfl, rfl⟩
  · exact ⟨rfl, rfl⟩
  · exact ⟨rfl, rfl⟩
  · exact ⟨rfl, rfl⟩

/-- The trace of a request that is answered. -/
theorem flowProtocol_answered (capture : EffectiveRequestCapture) (marks : List FlowMark) (served : List Request)
    (jobs : List OutboundHttpJob) (response : EffectiveResponseCapture N) (responseMarks : List FlowMark) :
    FlowProtocol served.length 1
      (([.commitRequest capture true, .requestCommitted (capture.committed marks)] ++ served.map .serve)
        ++ (jobs.map .outboundHttp
          ++ [.commitResponse response true, .responseCommitted (response.committed responseMarks)])) where
  requestCommits := by simp [isRequestCommit, List.countP_cons, Function.comp_def]
  requestPublished := by simp [isRequestPublished, List.countP_cons, Function.comp_def]
  upstreamCalls := by simp [isUpstreamCall, Function.comp_def]
  responseCommits := by simp [isResponseCommit, List.countP_cons, Function.comp_def]
  responsePublished := by simp [isResponsePublished, List.countP_cons, Function.comp_def]
  commitBeforeUpstream := by
    rw [List.append_assoc, List.cons_append, List.cons_append, List.pairwise_cons, List.nil_append, List.pairwise_cons]
    refine ⟨by simp [isUpstreamCall], by simp [isUpstreamCall], ?_⟩
    exact List.pairwise_of_forall_mem_list fun _ _ _ hmem _ => (answer_not_request hmem).1
  requestPublishedFirst := by
    rw [List.append_assoc, List.cons_append, List.cons_append, List.pairwise_cons, List.nil_append, List.pairwise_cons]
    refine ⟨by simp [isResponsePublished], by simp [isResponsePublished], ?_⟩
    exact List.pairwise_of_forall_mem_list fun _ _ _ hmem _ => (answer_not_request hmem).2

/-! ## Main result -/

/-- **The protocol of a flow.** If all writes succeed, then for every request whose context can be found and every
    combined action of its filters: the request is committed once and before the upstream is called; the upstream is
    called once if the action neither drops nor answers, and never otherwise; a dropped request is answered with 444
    and no response is committed. Any other response is committed once when the client is through with its body and
    the task of a finalisation has run; and the request is published before it. -/
theorem dispatchHttp_protocol (req : Request) (state : FlowState S N) (action : RequestAction)
    (hwrites : ∀ commit, state.writes commit = true)
    (haction : dispatcher.combinedRequestAction req state = some action) :
    ∃ client state', dispatcher.dispatchHttp req state = (.ok client, state')
    ∧ (action.dropClientResponse = true → client = droppedResponse.intoClientResponse)
    ∧ ∀ events run, ClientRun.steps events (ClientRun.start client.body state') = some run → run.Settled →
        ∃ trace, run.flow.effects = state.effects ++ trace
        ∧ FlowProtocol (if action.dropClientResponse || action.syntheticResponse.isSome then 0 else 1)
            (if action.dropClientResponse then 0 else 1) trace := by
  have houtcome := dispatcher.dispatchHttp_outcome haction
  revert houtcome
  generalize dispatcher.dispatchHttp req state = outcome
  intro houtcome
  cases houtcome with
  | failed state' capture hstored heffects =>
      rw [hwrites 0] at hstored
      cases hstored
  | dropped state' capture marks hdrop hstored heffects =>
      refine ⟨_, state', rfl, fun _ => rfl, ?_⟩
      intro events run hrun _
      refine ⟨[.commitRequest capture true, .requestCommitted (capture.committed marks)], ?_, ?_⟩
      · rw [ClientRun.flow_of_not_streaming rfl hrun, heffects]
      · rw [hdrop]
        exact flowProtocol_dropped capture marks
  | answered _ state₁ capture marks served hdrop hstored hlater hserved hbodies heffects hresponse =>
      rw [hdrop, Bool.false_or, ← hserved]
      have hstored₁ : state₁.writes 0 = true := by
        rw [hlater]
        exact hwrites 1
      cases hresponse with
      | failed state' jobs response hfailed _ =>
          rw [hstored₁] at hfailed
          cases hfailed
      | committed client state' jobs response responseMarks _ _ hcommitted hbody =>
          refine ⟨client, state', rfl, fun hdropped => Bool.noConfusion hdropped, ?_⟩
          intro events run hrun _
          refine ⟨_, ?_, flowProtocol_answered capture marks served jobs response responseMarks⟩
          rw [ClientRun.flow_of_not_streaming hbody hrun, hcommitted, heffects, List.append_assoc]
      | streaming client state' inner input parts threshold hkept hunchanged hbody =>
          refine ⟨client, state', rfl, fun hdropped => Bool.noConfusion hdropped, ?_⟩
          intro events run hrun hsettled
          rw [hbody] at hrun
          -- nothing was committed yet: the finalisation does it
          obtain ⟨-, response, hcommitted, -⟩ := streamed_committed_once inner input parts threshold state' events run
            hrun hsettled
          refine ⟨_, ?_, flowProtocol_answered capture marks served [] response []⟩
          rw [hcommitted, hkept, hstored₁, hunchanged, heffects, List.append_assoc]
          rfl

/-! ## A plain proxy -/

/-- The name of the header a request names its host with. -/
def hostHeader : HeaderName := ⟨"host".toList, by decide⟩

/-- A dispatcher without filters, before an upstream that sends the download. -/
def plainDispatcher : FlowDispatcher FilterRuntimeState Int where
  filters := FlowFilterRuntime.ofSet JsonCodec.codec (fun _ => none) []
  requestContext req :=
    if (HeaderMap.get req.parts.headers hostHeader).isSome then some ⟨"http".toList, "example.com".toList⟩ else none
  upstreamClient _ := ⟨⟨downloadParts, downloadBody⟩, none, some 200, none, none⟩
  parsePathAndQuery _ := none
  canonicalReason _ := none
  codecs _ _ := none
  serde := JsonCodec.codec
  jsonNumber := id
  flowsDir := []
  outboundHttpPool := none
  config := ⟨none, 1, 10, 10⟩

/-- Filters that have not run yet. -/
def idleFilters : FilterRuntimeState := ⟨none, fun _ => 0, []⟩

/-- The request of the download, as it names its host. -/
def hostedRequest : Request :=
  ⟨{ downloadRequest with headers := [(hostHeader, ⟨Text.bytes "example.com".toList, by decide⟩)] }, none, none, []⟩

theorem dispatchHttp_protocol_download :
    plainDispatcher.combinedRequestAction hostedRequest (idleFlow idleFilters) = some RequestAction.pass
    ∧ ∃ client state', plainDispatcher.dispatchHttp hostedRequest (idleFlow idleFilters) = (.ok client, state')
    ∧ ∀ events run, ClientRun.steps events (ClientRun.start client.body state') = some run → run.Settled →
        ∃ trace, run.flow.effects = trace ∧ FlowProtocol 1 1 trace := by
  have haction : plainDispatcher.combinedRequestAction hostedRequest (idleFlow idleFilters)
      = some RequestAction.pass := rfl
  obtain ⟨client, state', hdispatch, -, hprotocol⟩ := dispatchHttp_protocol plainDispatcher hostedRequest
    (idleFlow idleFilters) RequestAction.pass (fun _ => rfl) haction
  exact ⟨haction, client, state', hdispatch, hprotocol⟩

/-- A request that names no host is answered with 400, and is not committed. -/
theorem request_without_context_not_committed :
    let state := idleFlow idleFilters
    let outcome := plainDispatcher.dispatchHttp ⟨downloadRequest, none, none, []⟩ state
    (∀ commit, state.writes commit = true)
    ∧ outcome.1 = .error .badRequest ∧ outcome.2.effects.countP isRequestCommit = 0 := by
  intro state outcome
  have houtcome : outcome = (.error .badRequest, _) := plainDispatcher.dispatchHttp_none rfl state
  rw [houtcome]
  exact ⟨fun _ => rfl, rfl, rfl⟩

end Inspect.Flow
