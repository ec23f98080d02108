import Inspect.Flow.CaptureCommit
import Inspect.Flow.Correctness.BodyTransfer

/-!
# `Flow.Correctness.CapturedFlow` — what is captured is what was exchanged

The kinds of messages that are captured, each with the message that was exchanged and with what its writer leaves
behind. Whatever a flow commits is of one of these kinds: the request is the one that is sent to the upstream, and the
response the one that the client is handed, unless the filters drop it.
-/

namespace Inspect.Flow

open Http Filters

/-! ## Captured flows -/

/-- The request of a flow, as it is captured: by the dispatcher, by the handshake of a WebSocket, or when no tunnel
    to the host could be made. -/
inductive CapturedRequest
  | http (capture : EffectiveRequestCapture)
  | handshake (ctx : RequestDispatchContext) (req : Request)
  | tunnelFailure (capture : TunnelFailureCapture)

/-- The response of a flow, as it is captured. A response of the upstream, a synthetic one and the answer to an
    upstream error are collected; the body of the others is handed on and not read. -/
inductive CapturedResponse (N : Type)
  | collected (input : ResponseDispatchInput N) (parts : ResponseParts) (body : Bytes) (elapsedMs : Int64)
  | sse (input : ResponseDispatchInput N) (parts : ResponseParts) (body : Body) (elapsedMs : Int64)
  | streamed (input : ResponseDispatchInput N) (parts : ResponseParts) (body : Body) (threshold : Nat)
      (streamedBytes : UInt64) (interrupted : Bool) (elapsedMs : Int64)
  | handshake (ctx : RequestDispatchContext) (response : Response) (elapsedMs : Int64)

/-- The headers and the body of a message that is exchanged. -/
structure ExchangedMessage where
  headers : HeaderMap
  body : Bytes

/-- The request that is exchanged, if there is one. -/
def CapturedRequest.message : CapturedRequest → Option ExchangedMessage
  | .http capture => some ⟨capture.headers, capture.bodyBytes⟩
  | .handshake _ req => some ⟨req.parts.headers, req.body.data⟩
  | .tunnelFailure _ => none

/-- The response that is exchanged. -/
def CapturedResponse.message {N : Type} : CapturedResponse N → ExchangedMessage
  | .collected _ parts body _ => ⟨parts.headers, body⟩
  | .sse _ parts body _ => ⟨parts.headers, body.data⟩
  | .streamed _ parts body _ _ _ _ => ⟨parts.headers, body.data⟩
  | .handshake _ response _ => ⟨response.parts.headers, response.body.data⟩

section Flow

variable {S N : Type} (dispatcher : FlowDispatcher S N) (service : CaptureService) (rfc3999z : Int64 → Str)

/-- What is left of the request of a flow. -/
def CapturedRequest.commit : CapturedRequest → Commit (RequestMetadata N)
  | .http capture => service.commitRequest dispatcher.codecs capture
  | .handshake ctx req => handshakeRequestCommit dispatcher service.bodySaveLimitBytes ctx req
  | .tunnelFailure capture => commitTunnelFailure dispatcher.serde dispatcher.jsonNumber rfc3999z capture

/-- What is left of the response of a flow. -/
def CapturedResponse.commit : CapturedResponse N → Commit (ResponseMetadata N)
  | .collected input parts body elapsedMs =>
      service.commitResponse dispatcher.codecs dispatcher.serde dispatcher.canonicalReason
        (FlowDispatcher.responseCapture input parts body none none elapsedMs)
  | .sse input parts _ elapsedMs =>
      service.commitResponse dispatcher.codecs dispatcher.serde dispatcher.canonicalReason
        (FlowDispatcher.responseCapture input parts [] none none elapsedMs)
  | .streamed input parts _ threshold streamedBytes interrupted elapsedMs =>
      service.commitResponse dispatcher.codecs dispatcher.serde dispatcher.canonicalReason
        (streamedCapture input parts threshold streamedBytes interrupted elapsedMs)
  | .handshake ctx response elapsedMs =>
      handshakeResponseCommit dispatcher service.bodySaveLimitBytes ctx response.parts elapsedMs

end Flow

/-! ## Flows -/

section Dispatch

variable {S N : Type}

/-- The capture that the dispatcher commits. -/
def CapturedResponse.capture? : CapturedResponse N → Option (EffectiveResponseCapture N)
  | .collected input parts body elapsedMs =>
      some (FlowDispatcher.responseCapture input parts body none none elapsedMs)
  | .sse input parts _ elapsedMs => some (FlowDispatcher.responseCapture input parts [] none none elapsedMs)
  | .streamed input parts _ threshold streamedBytes interrupted elapsedMs =>
      some (streamedCapture input parts threshold streamedBytes interrupted elapsedMs)
  | .handshake .. => none

/-- The client is handed the message, or its own copy is dropped by the filters. -/
def HandedOn (client : ClientResponse N) (message : ExchangedMessage) : Prop :=
  client = droppedResponse.intoClientResponse
    ∨ client.parts.headers = message.headers ∧ client.body.inner.data = message.body

/-- An effect of a response: what it commits is handed on to the client. -/
def ResponseEffect (client : ClientResponse N) : FlowEffect N → Prop
  | .outboundHttp _ | .responseCommitted _ => True
  | .commitResponse capture _ =>
      ∃ captured : CapturedResponse N, captured.capture? = some capture ∧ HandedOn client captured.message
  | _ => False

namespace FlowDispatcher

variable (dispatcher : FlowDispatcher S N)

theorem dispatchSseResponse_effects {input : ResponseDispatchInput N} {parts : ResponseParts} {body : Body}
    {elapsedMs : Int64} {state state' : FlowState S N} {client : ClientResponse N}
    (h : dispatcher.dispatchSseResponse input parts body elapsedMs state = (.ok client, state')) :
    client.body.isStreaming = false
      ∧ ∃ rest, state'.effects = state.effects ++ rest ∧ ∀ effect ∈ rest, ResponseEffect client effect := by
  unfold dispatchSseResponse commitResponse at h
  cases hstored : state.writes 0 with
  | false =>
      simp only [bind_apply, nextWrite_apply, emit_apply, hstored, Bool.false_eq_true, if_false, throw_apply] at h
      cases h
  | true =>
      simp only [bind_apply, nextWrite_apply, emit_apply, hstored, if_true, pure_apply] at h
      cases h
      refine ⟨rfl, _, List.append_assoc .., ?_⟩
      rintro effect (_ | ⟨_, _ | ⟨_, hmem⟩⟩)
      · exact ⟨.sse input parts body elapsedMs, rfl, Or.inr ⟨rfl, rfl⟩⟩
      · trivial
      · cases hmem

theorem dispatchCollectedResponse_effects {input : ResponseDispatchInput N} {parts : ResponseParts} {body : Bytes}
    {elapsedMs : Int64} {state state' : FlowState S N} {client : ClientResponse N}
    (h : dispatcher.dispatchCollectedResponse input parts body elapsedMs state = (.ok client, state')) :
    client.body.isStreaming = false
      ∧ ∃ rest, state'.effects = state.effects ++ rest ∧ ∀ effect ∈ rest, ResponseEffect client effect := by
  obtain ⟨output, filters, sent, final, -, -, heffects, happly⟩ :=
    dispatcher.dispatchCollectedResponse_apply input parts body elapsedMs state
  rw [happly] at h
  cases hstored : state.writes 0 with
  | false =>
      rw [hstored] at h
      cases h
  | true =>
      rw [hstored, if_pos rfl] at h
      rw [hstored] at heffects
      have hclient : HandedOn client ⟨output.parts.headers, output.body⟩ ∧ client.body.isStreaming = false := by
        split_ifs at h
        · cases h
          exact ⟨Or.inl rfl, rfl⟩
        · cases h
          exact ⟨Or.inr ⟨rfl, data_ofBytes _⟩, rfl⟩
      cases h
      refine ⟨hclient.2, _, heffects, ?_⟩
      intro effect hmem
      rcases List.mem_append.mp hmem with hmem | hmem
      · obtain ⟨job, -, rfl⟩ := List.mem_map.mp hmem
        trivial
      · rcases List.mem_pair.mp hmem with rfl | rfl
        · exact ⟨.collected input output.parts output.body elapsedMs, rfl, hclient.1⟩
        · trivial

/-- A body that is handed on while it is streamed, with nothing committed yet. -/
def StartsStreaming (client : ClientResponse N) : Prop :=
  ∃ inner input parts threshold,
    client = ⟨parts, .streaming ⟨inner, StreamingResponseFinalize.new⟩ input parts threshold⟩

/-- What the dispatch of a response commits is handed on. -/
theorem dispatchResponse_effects {input : ResponseDispatchInput N} {response : Response}
    {state state' : FlowState S N} {client : ClientResponse N}
    (h : dispatcher.dispatchResponse input response state = (.ok client, state')) :
    (client.body.isStreaming = false ∨ StartsStreaming client)
      ∧ ∃ rest, state'.effects = state.effects ++ rest ∧ ∀ effect ∈ rest, ResponseEffect client effect := by
  have hstreaming : ∀ body : Body, (dispatcher.dispatchStreamingResponse input response.parts body,
      { state with elapsed := later state.elapsed }) = (client, state') →
      (client.body.isStreaming = false ∨ StartsStreaming client)
        ∧ ∃ rest, state'.effects = state.effects ++ rest ∧ ∀ effect ∈ rest, ResponseEffect client effect := by
    rintro body heq
    cases heq
    exact ⟨Or.inr ⟨body, input, response.parts, _, rfl⟩, [], (List.append_nil _).symm, by simp⟩
  have hcollected : ∀ body, dispatcher.dispatchCollectedResponse input response.parts body (state.elapsed 0)
      { state with elapsed := later state.elapsed } = (.ok client, state') →
      (client.body.isStreaming = false ∨ StartsStreaming client)
        ∧ ∃ rest, state'.effects = state.effects ++ rest ∧ ∀ effect ∈ rest, ResponseEffect client effect := by
    intro body hbody
    obtain ⟨hplain, heffects⟩ := dispatcher.dispatchCollectedResponse_effects hbody
    exact ⟨Or.inl hplain, heffects⟩
  unfold dispatchResponse at h
  simp only [bind_apply, nextElapsedMs_apply] at h
  split_ifs at h with hsse
  · obtain ⟨hplain, heffects⟩ := dispatcher.dispatchSseResponse_effects h
    exact ⟨Or.inl hplain, heffects⟩
  · cases hmode : responseBodyMode input.filterRequest.method response.parts.status response.parts.headers
        dispatcher.config.streamBodyThresholdBytes with
    | collect =>
        rw [hmode] at h
        exact hcollected _ h
    | stream =>
        rw [hmode] at h
        cases h
        exact hstreaming _ rfl
    | probe =>
        rw [hmode] at h
        dsimp only at h
        cases hprobe : probeResponseBody response.body dispatcher.config.streamBodyThresholdBytes with
        | collected body =>
            rw [hprobe] at h
            exact hcollected _ h
        | stream start rest =>
            rw [hprobe] at h
            cases h
            exact hstreaming _ rfl

/-- What a client run commits is the body that the client is handed. -/
theorem clientRun_effects {client : ClientResponse N} {flow : FlowState S N} {events : List ClientEvent}
    {run : ClientRun S N} (hclient : client.body.isStreaming = false ∨ StartsStreaming client)
    (hrun : ClientRun.steps events (ClientRun.start client.body flow) = some run) :
    ∃ rest, run.flow.effects = flow.effects ++ rest ∧ ∀ effect ∈ rest, ResponseEffect client effect := by
  rcases hclient with hplain | ⟨inner, input, parts, threshold, rfl⟩
  · rw [ClientRun.flow_of_not_streaming hplain hrun]
    exact ⟨[], (List.append_nil _).symm, by simp⟩
  · cases streamingRun_steps hrun with
    | opened polls hpolls hopen => exact ⟨[], (List.append_nil _).symm, by simp⟩
    | waiting polls dropped hclosed => exact ⟨[], (List.append_nil _).symm, by simp⟩
    | committed polls dropped hclosed =>
        rw [finalizeTask_snd]
        refine ⟨_, rfl, ?_⟩
        rintro effect (_ | ⟨_, hmem⟩)
        · exact ⟨.streamed input parts inner threshold _ _ _, rfl, Or.inr ⟨rfl, rfl⟩⟩
        · split_ifs at hmem
          · rw [List.mem_singleton.mp hmem]
            trivial
          · cases hmem

/-- What a flow commits is what it exchanges: the request with the upstream, the response with the client. -/
structure Exchanged (client : ClientResponse N) (trace : List (FlowEffect N)) : Prop where
  request : ∀ sent, .serve sent ∈ trace → ∃ capture, .commitRequest capture true ∈ trace
    ∧ CapturedRequest.message (.http capture) = some ⟨sent.parts.headers, sent.body.data⟩
  response : ∀ capture stored, .commitResponse capture stored ∈ trace →
    ∃ captured : CapturedResponse N, captured.capture? = some capture ∧ HandedOn client captured.message

theorem exchanged_of_served {client : ClientResponse N} (capture : EffectiveRequestCapture)
    (committed : RequestCommitted) (served : List Request) {rest : List (FlowEffect N)}
    (hserved : ∀ sent ∈ served,
      CapturedRequest.message (.http capture) = some ⟨sent.parts.headers, sent.body.data⟩)
    (hrest : ∀ effect ∈ rest, ResponseEffect client effect) :
    Exchanged client ([.commitRequest capture true, .requestCommitted committed] ++ served.map .serve ++ rest) where
  request := by
    intro sent hmem
    refine ⟨capture, by simp, ?_⟩
    rcases List.mem_append.mp hmem with hmem | hmem
    · exact hserved sent (by simpa using hmem)
    · exact (hrest _ hmem).elim
  response := by
    intro capture' stored hmem
    rcases List.mem_append.mp hmem with hmem | hmem
    · simp at hmem
    · exact hrest _ hmem

/-- An answer to a request that was committed, and served or not. -/
theorem dispatchResponse_exchanged (capture : EffectiveRequestCapture) (committed : RequestCommitted)
    (served : List Request) (hserved : ∀ sent ∈ served,
      CapturedRequest.message (.http capture) = some ⟨sent.parts.headers, sent.body.data⟩)
    {input : ResponseDispatchInput N} {response : Response} {state₀ state state' : FlowState S N}
    {client : ClientResponse N}
    (hfront : state.effects
      = state₀.effects ++ ([.commitRequest capture true, .requestCommitted committed] ++ served.map .serve))
    (h : dispatcher.dispatchResponse input response state = (.ok client, state')) {events : List ClientEvent}
    {run : ClientRun S N} (hrun : ClientRun.steps events (ClientRun.start client.body state') = some run) :
    ∃ trace, run.flow.effects = state₀.effects ++ trace ∧ Exchanged client trace := by
  obtain ⟨hclient, sent, hsent, hresponse⟩ := dispatcher.dispatchResponse_effects h
  obtain ⟨rest, heffects, hrest⟩ := clientRun_effects hclient hrun
  refine ⟨_, ?_, exchanged_of_served capture committed served hserved
    (List.forall_mem_append.mpr ⟨hresponse, hrest⟩)⟩
  rw [heffects, hsent, hfront]
  simp only [List.append_assoc]

theorem dispatchFilteredRequest_exchanged {req : Request} {ctx : RequestDispatchContext}
    {output : RequestDispatchOutput} {state state' : FlowState S N} {client : ClientResponse N}
    (h : dispatcher.dispatchFilteredRequest req ctx output state = (.ok client, state')) {events : List ClientEvent}
    {run : ClientRun S N} (hrun : ClientRun.steps events (ClientRun.start client.body state') = some run) :
    ∃ trace, run.flow.effects = state.effects ++ trace ∧ Exchanged client trace := by
  unfold dispatchFilteredRequest at h
  cases hstored : state.writes 0 with
  | false =>
      split_ifs at h
      · rw [bind_apply, commitRequest_failed _ _ _ _ hstored] at h
        cases h
      · rw [bind_apply, commitRequest_failed _ _ _ _ hstored] at h
        cases h
  | true =>
      split_ifs at h
      · -- the request is dropped
        rw [bind_apply, commitRequest_stored _ _ _ _ hstored] at h
        cases h
        obtain ⟨rest, heffects, hrest⟩ := clientRun_effects (Or.inl rfl) hrun
        refine ⟨_, heffects.trans (List.append_assoc ..), ?_⟩
        exact exchanged_of_served (requestCapture ctx output.parts output.body) _ [] (by simp) hrest
      · rw [bind_apply, commitRequest_stored _ _ _ _ hstored] at h
        cases hanswer : output.syntheticResponse with
        | some synthetic =>
            -- the filters answer
            rw [hanswer] at h
            exact dispatcher.dispatchResponse_exchanged (requestCapture ctx output.parts output.body) _ [] (by simp) rfl h
              hrun
        | none =>
            -- the upstream answers what it is sent
            rw [hanswer] at h
            simp only [bind_apply, emit_apply] at h
            refine dispatcher.dispatchResponse_exchanged (requestCapture ctx output.parts output.body)
              ((requestCapture ctx output.parts output.body).committed output.marks)
              [{ req with parts := output.parts, body := Body.ofBytes output.body }] ?_ ?_ h hrun
            · intro sent hmem
              rw [List.mem_singleton.mp hmem, data_ofBytes]
              rfl
            · exact List.append_assoc ..

/-- **What a flow commits is what it exchanges**, however the client polls the body it is handed. -/
theorem dispatchHttp_exchanged {req : Request} {state state' : FlowState S N} {client : ClientResponse N}
    (h : dispatcher.dispatchHttp req state = (.ok client, state')) {events : List ClientEvent}
    {run : ClientRun S N} (hrun : ClientRun.steps events (ClientRun.start client.body state') = some run) :
    ∃ trace, run.flow.effects = state.effects ++ trace ∧ Exchanged client trace := by
  cases hcontext : dispatcher.requestContext (dispatcher.routed req) with
  | none =>
      rw [dispatcher.dispatchHttp_none hcontext] at h
      cases h
  | some reqCtx =>
      unfold dispatchHttp at h
      simp only [bind_apply, dispatcher.newRequestContext_apply hcontext] at h
      obtain ⟨output, filters, houtput, -⟩ := dispatcher.dispatchRequestFilters_apply
        (dispatcher.flowContext (dispatcher.routed req) reqCtx state) (dispatcher.routed req).parts
        (collectBody (dispatcher.routed req).body)
        { state with seq := state.seq + 1, uuids := later state.uuids, clock := later state.clock }
      simp only [houtput] at h
      exact dispatcher.dispatchFilteredRequest_exchanged h hrun

end FlowDispatcher

end Dispatch

end Inspect.Flow
