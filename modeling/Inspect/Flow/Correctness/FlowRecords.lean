import Inspect.Flow.Correctness.CapturedFlow

/-!
# `Flow.Correctness.FlowRecords` — what a flow stores and publishes

A flow stores its request, publishes it, stores its response and publishes that, in this order; it can end before each
of the two commits, and all of it is about the id that the flow was given. The same holds of a flow whose body is
streamed, however the client polls it.
-/

namespace Inspect.Flow

open Http Filters

/-! ## Records -/

/-- A row of a table that is made from a capture, or an event that is published. -/
inductive FlowRecord (N : Type)
  | requestStored (capture : EffectiveRequestCapture)
  | requestPublished (event : RequestCommitted)
  | responseStored (capture : EffectiveResponseCapture N)
  | responsePublished (event : ResponseCommitted)

variable {S N : Type}

/-- The record that an effect makes: a commit that fails makes none. -/
def FlowEffect.record : FlowEffect N → Option (FlowRecord N)
  | .commitRequest capture true => some (.requestStored capture)
  | .requestCommitted event => some (.requestPublished event)
  | .commitResponse capture true => some (.responseStored capture)
  | .responseCommitted event => some (.responsePublished event)
  | .commitRequest _ false | .commitResponse _ false | .serve _ | .outboundHttp _ => none

def recordsOf (effects : List (FlowEffect N)) : List (FlowRecord N) := effects.filterMap FlowEffect.record

theorem recordsOf_append (front rest : List (FlowEffect N)) :
    recordsOf (front ++ rest) = recordsOf front ++ recordsOf rest := List.filterMap_append

@[simp] theorem recordsOf_serve (served : List Request) : recordsOf (served.map (FlowEffect.serve (N := N))) = [] := by
  simp [recordsOf, FlowEffect.record]

@[simp] theorem recordsOf_outboundHttp (jobs : List OutboundHttpJob) :
    recordsOf (jobs.map (FlowEffect.outboundHttp (N := N))) = [] := by
  simp [recordsOf, FlowEffect.record]

/-- The name of a flow. -/
structure FlowName where
  id : Uuid
  seq : UInt64
  flowKey : Str
deriving DecidableEq

def EffectiveRequestCapture.name (capture : EffectiveRequestCapture) : FlowName :=
  ⟨capture.id, capture.seq, capture.flowKey⟩

def EffectiveResponseCapture.name (capture : EffectiveResponseCapture N) : FlowName :=
  ⟨capture.id, capture.seq, capture.flowKey⟩

def RequestDispatchContext.name (ctx : RequestDispatchContext) : FlowName := ⟨ctx.id, ctx.seq, ctx.flowKey⟩

def ResponseDispatchInput.name (input : ResponseDispatchInput N) : FlowName := ⟨input.id, input.seq, input.flowKey⟩

/-- What a flow has stored and published at some time. -/
inductive FlowTrace (name : FlowName) : List (FlowRecord N) → Prop
  | start : FlowTrace name []
  | requestStored (capture : EffectiveRequestCapture) (hname : capture.name = name) :
      FlowTrace name [.requestStored capture]
  | requestPublished (capture : EffectiveRequestCapture) (marks : List FlowMark) (hname : capture.name = name) :
      FlowTrace name [.requestStored capture, .requestPublished (capture.committed marks)]
  | responseStored (capture : EffectiveRequestCapture) (marks : List FlowMark) (hname : capture.name = name)
      (response : EffectiveResponseCapture N) (hresponse : response.name = name) :
      FlowTrace name
        [.requestStored capture, .requestPublished (capture.committed marks), .responseStored response]
  | responsePublished (capture : EffectiveRequestCapture) (marks : List FlowMark) (hname : capture.name = name)
      (response : EffectiveResponseCapture N) (responseMarks : List FlowMark) (hresponse : response.name = name) :
      FlowTrace name
        [.requestStored capture, .requestPublished (capture.committed marks), .responseStored response,
          .responsePublished (response.committed responseMarks)]

/-- What is stored was published too. -/
def AllPublished (records : List (FlowRecord N)) : Prop := Even records.length

namespace FlowRecord

@[simp] def requestStored? : FlowRecord N → Option EffectiveRequestCapture
  | .requestStored capture => some capture
  | _ => none

@[simp] def requestPublished? : FlowRecord N → Option RequestCommitted
  | .requestPublished event => some event
  | _ => none

@[simp] def responseStored? : FlowRecord N → Option (EffectiveResponseCapture N)
  | .responseStored capture => some capture
  | _ => none

@[simp] def responsePublished? : FlowRecord N → Option ResponseCommitted
  | .responsePublished event => some event
  | _ => none

end FlowRecord

open FlowRecord

/-- What the records of a flow say is about the flow, and each is said once. -/
structure FlowValues (name : FlowName) (records : List (FlowRecord N)) : Prop where
  requestStored : ∀ capture ∈ records.filterMap requestStored?, capture.name = name
  requestPublished : ∀ event ∈ records.filterMap requestPublished?,
    ∃ capture ∈ records.filterMap requestStored?, ∃ marks, event = capture.committed marks
  responseStored : ∀ response ∈ records.filterMap responseStored?, response.name = name
  responsePublished : ∀ event ∈ records.filterMap responsePublished?,
    ∃ response ∈ records.filterMap responseStored?, ∃ marks, event = response.committed marks
  requestsStored : (records.filterMap requestStored?).length ≤ 1
  requestsPublished : (records.filterMap requestPublished?).length ≤ 1
  responsesStored : (records.filterMap responseStored?).length ≤ 1
  responsesPublished : (records.filterMap responsePublished?).length ≤ 1

theorem FlowTrace.values {name : FlowName} {records : List (FlowRecord N)} (h : FlowTrace name records) :
    FlowValues name records := by
  cases h with
  | start => constructor <;> simp
  | requestStored capture hname => constructor <;> simp [List.filterMap_cons, hname]
  | requestPublished capture marks hname => constructor <;> simp [List.filterMap_cons, hname]
  | responseStored capture marks hname response hresponse =>
      constructor <;> simp [List.filterMap_cons, hname, hresponse]
  | responsePublished capture marks hname response responseMarks hresponse =>
      constructor <;> simp [List.filterMap_cons, hname, hresponse]

/-- A flow had a shorter trace before. -/
theorem FlowTrace.dropLast {name : FlowName} {records : List (FlowRecord N)} (h : FlowTrace name records) :
    FlowTrace name records.dropLast := by
  cases h with
  | start => exact .start
  | requestStored capture hname => exact .start
  | requestPublished capture marks hname => exact .requestStored capture hname
  | responseStored capture marks hname response hresponse => exact .requestPublished capture marks hname
  | responsePublished capture marks hname response responseMarks hresponse =>
      exact .responseStored capture marks hname response hresponse

theorem FlowTrace.front_of {name : FlowName} {records front : List (FlowRecord N)} (h : FlowTrace name records)
    (hfront : front <+: records) : FlowTrace name front := by
  obtain ⟨rest, rfl⟩ := hfront
  induction rest using List.reverseRecOn with
  | nil => rwa [List.append_nil] at h
  | append_singleton rest record ih =>
      apply ih
      have hshorter := h.dropLast
      rwa [← List.append_assoc, List.dropLast_concat] at hshorter

/-- What a flow has recorded when it publishes its request. -/
theorem FlowTrace.before_requestPublished {name : FlowName} {records : List (FlowRecord N)} {event : RequestCommitted}
    (h : FlowTrace name (records ++ [.requestPublished event])) :
    ∃ capture, records = [.requestStored capture] ∧ capture.name = name := by
  generalize hrecords : records ++ [.requestPublished event] = all at h
  have hlast := congrArg List.getLast? hrecords
  have hfront := congrArg List.dropLast hrecords
  rw [List.getLast?_concat] at hlast
  rw [List.dropLast_concat] at hfront
  cases h with
  | requestPublished capture marks hname => exact ⟨capture, hfront, hname⟩
  | start | requestStored | responseStored | responsePublished => cases hlast

/-- What a flow has recorded when it publishes its response. -/
theorem FlowTrace.before_responsePublished {name : FlowName} {records : List (FlowRecord N)}
    {event : ResponseCommitted} (h : FlowTrace name (records ++ [.responsePublished event])) :
    ∃ capture marks response, records = [.requestStored capture, .requestPublished (capture.committed marks),
      .responseStored response] ∧ capture.name = name ∧ event.id = name.id.toText := by
  generalize hrecords : records ++ [.responsePublished event] = all at h
  have hlast := congrArg List.getLast? hrecords
  have hfront := congrArg List.dropLast hrecords
  rw [List.getLast?_concat] at hlast
  rw [List.dropLast_concat] at hfront
  cases h with
  | responsePublished capture marks hname response responseMarks hresponse =>
      cases hlast
      refine ⟨capture, marks, response, hfront, hname, ?_⟩
      rw [← hresponse]
      rfl
  | start | requestStored | requestPublished | responseStored => cases hlast

/-! ## Responses -/

/-- What the response to a flow has recorded. -/
inductive ResponseTrace (name : FlowName) : List (FlowRecord N) → Prop
  | nothing : ResponseTrace name []
  | published (response : EffectiveResponseCapture N) (marks : List FlowMark) (hname : response.name = name) :
      ResponseTrace name [.responseStored response, .responsePublished (response.committed marks)]

/-- A body that commits the response of the flow when it is through. -/
def StreamsFor (name : FlowName) (body : ClientBody N) : Prop :=
  body.isStreaming = false ∨ ∃ inner input parts threshold,
    ResponseDispatchInput.name input = name
      ∧ body = .streaming ⟨inner, StreamingResponseFinalize.new⟩ input parts threshold

/-- The dispatch of a response records it, or nothing: if it is streamed, its body will do it. -/
structure ResponseRecorded (name : FlowName) (state : FlowState S N)
    (outcome : Except FlowDispatchError (ClientResponse N) × FlowState S N) : Prop where
  trace : ∃ rest, outcome.2.effects = state.effects ++ rest ∧ ResponseTrace name (recordsOf rest)
    ∧ ∀ client, outcome.1 = .ok client → client.body.isStreaming = true → recordsOf rest = []
  streams : ∀ client, outcome.1 = .ok client → StreamsFor name client.body

namespace FlowDispatcher

variable (dispatcher : FlowDispatcher S N)

theorem dispatchSseResponse_recorded (input : ResponseDispatchInput N) (parts : ResponseParts) (body : Body)
    (elapsedMs : Int64) (state : FlowState S N) :
    ResponseRecorded input.name state (dispatcher.dispatchSseResponse input parts body elapsedMs state) := by
  unfold dispatchSseResponse commitResponse
  cases hstored : state.writes 0 with
  | true =>
      simp only [bind_apply, nextWrite_apply, emit_apply, pure_apply, hstored, if_true]
      refine ⟨⟨_, List.append_assoc .., .published _ [] rfl, ?_⟩, ?_⟩
      · rintro client hclient hstreaming
        cases hclient
        cases hstreaming
      · rintro client hclient
        cases hclient
        exact Or.inl rfl
  | false =>
      simp only [bind_apply, nextWrite_apply, emit_apply, hstored, if_false, throw_apply, Bool.false_eq_true]
      refine ⟨⟨_, rfl, .nothing, ?_⟩, ?_⟩
      · rintro client hclient
        cases hclient
      · rintro client hclient
        cases hclient

theorem dispatchCollectedResponse_recorded (input : ResponseDispatchInput N) (parts : ResponseParts) (body : Bytes)
    (elapsedMs : Int64) (state : FlowState S N) :
    ResponseRecorded input.name state (dispatcher.dispatchCollectedResponse input parts body elapsedMs state) := by
  obtain ⟨output, filters, sent, state', -, -, heffects, happly⟩ :=
    dispatcher.dispatchCollectedResponse_apply input parts body elapsedMs state
  rw [happly]
  cases hstored : state.writes 0 with
  | true =>
      rw [hstored] at heffects
      have hplain : ∀ client : ClientResponse N, (if output.dropClientResponse = true then
          droppedResponse.intoClientResponse else ⟨output.parts, .full (Body.ofBytes output.body)⟩) = client →
          client.body.isStreaming = false := by
        rintro client rfl
        split <;> rfl
      refine ⟨⟨_, heffects, ?_, ?_⟩, ?_⟩
      · rw [recordsOf_append, recordsOf_outboundHttp]
        exact .published _ output.marks rfl
      · intro client hclient hstreaming
        have hclient' := hplain client (by simpa using hclient)
        rw [hclient'] at hstreaming
        cases hstreaming
      · intro client hclient
        exact Or.inl (hplain client (by simpa using hclient))
  | false =>
      rw [hstored] at heffects
      refine ⟨⟨_, heffects, ?_, ?_⟩, ?_⟩
      · rw [recordsOf_append, recordsOf_outboundHttp]
        exact .nothing
      · rintro client hclient
        cases hclient
      · rintro client hclient
        cases hclient

/-- **A response is recorded at most once**, under the name of its flow. -/
theorem dispatchResponse_recorded (input : ResponseDispatchInput N) (response : Response) (state : FlowState S N) :
    ResponseRecorded input.name state (dispatcher.dispatchResponse input response state) := by
  have helapsed : ∀ outcome, ResponseRecorded input.name { state with elapsed := later state.elapsed } outcome →
      ResponseRecorded input.name state outcome := fun outcome h => ⟨h.trace, h.streams⟩
  have hstreaming : ∀ body : Body, ResponseRecorded input.name state
      (.ok (dispatcher.dispatchStreamingResponse input response.parts body),
        { state with elapsed := later state.elapsed }) := by
    intro body
    refine ⟨⟨[], (List.append_nil _).symm, .nothing, fun _ _ _ => rfl⟩, ?_⟩
    rintro client hclient
    cases hclient
    exact Or.inr ⟨body, input, response.parts, _, rfl, rfl⟩
  unfold dispatchResponse
  simp only [bind_apply, nextElapsedMs_apply]
  split_ifs
  · exact helapsed _ (dispatcher.dispatchSseResponse_recorded _ _ _ _ _)
  · cases responseBodyMode input.filterRequest.method response.parts.status response.parts.headers
        dispatcher.config.streamBodyThresholdBytes with
    | collect => exact helapsed _ (dispatcher.dispatchCollectedResponse_recorded _ _ _ _ _)
    | stream => exact hstreaming response.body
    | probe =>
        cases probeResponseBody response.body dispatcher.config.streamBodyThresholdBytes with
        | collected body => exact helapsed _ (dispatcher.dispatchCollectedResponse_recorded _ _ _ _ _)
        | stream start rest => exact hstreaming (prefixThenBody start rest)

end FlowDispatcher

/-! ## Bodies -/

/-- A client run records the response of a streamed body at most once, and nothing of another body. -/
theorem clientRun_recorded {name : FlowName} {body : ClientBody N} {flow : FlowState S N} {events : List ClientEvent}
    {run : ClientRun S N} (hstreams : StreamsFor name body)
    (hrun : ClientRun.steps events (ClientRun.start body flow) = some run) :
    ∃ rest, run.flow.effects = flow.effects ++ rest ∧ ResponseTrace name (recordsOf rest)
      ∧ (body.isStreaming = false → recordsOf rest = []) := by
  rcases hstreams with hplain | ⟨inner, input, parts, threshold, hname, rfl⟩
  · rw [ClientRun.flow_of_not_streaming hplain hrun]
    exact ⟨[], (List.append_nil _).symm, .nothing, fun _ => rfl⟩
  · cases streamingRun_steps hrun with
    | opened polls hpolls hopen => exact ⟨[], (List.append_nil _).symm, .nothing, fun _ => rfl⟩
    | waiting polls dropped hclosed => exact ⟨[], (List.append_nil _).symm, .nothing, fun _ => rfl⟩
    | committed polls dropped hclosed =>
        rw [finalizeTask_snd]
        refine ⟨_, rfl, ?_, ?_⟩
        · cases flow.writes 0 with
          | true => exact .published _ [] hname
          | false => exact .nothing
        · intro hplain
          cases hplain

/-! ## Flows -/

/-- The response of a flow comes behind its request. -/
theorem FlowTrace.of_response {name : FlowName} (capture : EffectiveRequestCapture) (marks : List FlowMark)
    (hname : capture.name = name) {records : List (FlowRecord N)} (h : ResponseTrace name records) :
    FlowTrace name (.requestStored capture :: .requestPublished (capture.committed marks) :: records)
      ∧ AllPublished (.requestStored capture :: .requestPublished (capture.committed marks) :: records) := by
  cases h with
  | nothing => exact ⟨.requestPublished capture marks hname, ⟨1, rfl⟩⟩
  | published response responseMarks hresponse =>
      exact ⟨.responsePublished capture marks hname response responseMarks hresponse, ⟨2, rfl⟩⟩

/-- A flow with the run of its client records what its trace says. -/
def Recorded (name : FlowName) (state : FlowState S N)
    (outcome : Except FlowDispatchError (ClientResponse N) × FlowState S N) : Prop :=
  (∀ client, outcome.1 = .ok client → ∀ events run,
    ClientRun.steps events (ClientRun.start client.body outcome.2) = some run →
    ∃ trace, run.flow.effects = state.effects ++ trace ∧ FlowTrace name (recordsOf trace)
      ∧ AllPublished (recordsOf trace))
  ∧ ∀ error, outcome.1 = .error error →
    ∃ trace, outcome.2.effects = state.effects ++ trace ∧ FlowTrace name (recordsOf trace)
      ∧ AllPublished (recordsOf trace)

/-- The end of a flow whose request was committed. -/
theorem ResponseRecorded.recorded {name : FlowName} {state state₀ : FlowState S N} {front : List (FlowEffect N)}
    {outcome : Except FlowDispatchError (ClientResponse N) × FlowState S N} (h : ResponseRecorded name state outcome)
    (capture : EffectiveRequestCapture) (marks : List FlowMark) (hname : capture.name = name)
    (heffects : state.effects = state₀.effects ++ front)
    (hfront : recordsOf front = [.requestStored capture, .requestPublished (capture.committed marks)]) :
    Recorded name state₀ outcome := by
  obtain ⟨rest, hrest, hresponse, hstreaming⟩ := h.trace
  constructor
  · intro client hclient events run hrun
    obtain ⟨last, hlast, hbody, hplain⟩ := clientRun_recorded (h.streams client hclient) hrun
    refine ⟨front ++ rest ++ last, by rw [hlast, hrest, heffects]; simp only [List.append_assoc], ?_⟩
    rw [recordsOf_append, recordsOf_append, hfront]
    -- either the dispatch has recorded the response, or the body does
    cases hstream : client.body.isStreaming with
    | true =>
        rw [hstreaming client hclient hstream, List.append_nil]
        exact FlowTrace.of_response capture marks hname hbody
    | false =>
        rw [hplain hstream, List.append_nil]
        exact FlowTrace.of_response capture marks hname hresponse
  · intro error _
    refine ⟨front ++ rest, by rw [hrest, heffects, List.append_assoc], ?_⟩
    rw [recordsOf_append, hfront]
    exact FlowTrace.of_response capture marks hname hresponse

/-- A flow that ends without a body that is streamed. -/
theorem recorded_of_trace {name : FlowName} {state : FlowState S N} {trace : List (FlowEffect N)}
    {outcome : Except FlowDispatchError (ClientResponse N) × FlowState S N}
    (heffects : outcome.2.effects = state.effects ++ trace)
    (hplain : ∀ client, outcome.1 = .ok client → client.body.isStreaming = false)
    (htrace : FlowTrace name (recordsOf trace)) (hall : AllPublished (recordsOf trace)) :
    Recorded name state outcome := by
  constructor
  · intro client hclient events run hrun
    rw [ClientRun.flow_of_not_streaming (hplain client hclient) hrun]
    exact ⟨trace, heffects, htrace, hall⟩
  · intro error _
    exact ⟨trace, heffects, htrace, hall⟩

namespace FlowDispatcher

variable (dispatcher : FlowDispatcher S N)

theorem dispatchFilteredRequest_recorded (req : Request) (ctx : RequestDispatchContext)
    (output : RequestDispatchOutput) (state : FlowState S N) :
    Recorded ctx.name state (dispatcher.dispatchFilteredRequest req ctx output state) := by
  unfold dispatchFilteredRequest
  cases hstored : state.writes 0 with
  | false =>
      have hfailed : ∀ trace : List (FlowEffect N), recordsOf trace = [] → ∀ (error : FlowDispatchError) state',
          state'.effects = state.effects ++ trace → Recorded ctx.name state (.error error, state') := by
        intro trace hnothing error state' heffects
        refine recorded_of_trace heffects (fun client hclient => ?_) ?_ ?_
        · cases hclient
        · rw [hnothing]
          exact .start
        · rw [hnothing]
          exact ⟨0, rfl⟩
      split_ifs
      · rw [bind_apply, commitRequest_failed _ _ _ _ hstored]
        exact hfailed _ rfl _ _ rfl
      · rw [bind_apply, commitRequest_failed _ _ _ _ hstored]
        exact hfailed _ rfl _ _ rfl
  | true =>
      split_ifs
      · rw [bind_apply, commitRequest_stored _ _ _ _ hstored]
        refine recorded_of_trace rfl ?_ (.requestPublished _ output.marks rfl) ⟨1, rfl⟩
        intro client hclient
        cases hclient
        rfl
      · rw [bind_apply, commitRequest_stored _ _ _ _ hstored]
        cases output.syntheticResponse with
        | some synthetic =>
            exact (dispatcher.dispatchResponse_recorded _ _ _).recorded (requestCapture ctx output.parts output.body)
              output.marks rfl rfl rfl
        | none =>
            simp only [bind_apply, emit_apply]
            exact (dispatcher.dispatchResponse_recorded _ _ _).recorded (requestCapture ctx output.parts output.body)
              output.marks rfl (List.append_assoc ..) rfl

/-- The name that a flow is given. -/
def nextName (state : FlowState S N) : FlowName :=
  ⟨state.uuids 0, state.seq + 1, flowKeyOf (state.seq + 1) (state.uuids 0)⟩

theorem dispatchHttp_recorded (req : Request) (state : FlowState S N) :
    Recorded (nextName state) state (dispatcher.dispatchHttp req state) := by
  cases hcontext : dispatcher.requestContext (dispatcher.routed req) with
  | none =>
      rw [dispatcher.dispatchHttp_none hcontext]
      refine recorded_of_trace (List.append_nil _).symm (fun client hclient => ?_) .start ⟨0, rfl⟩
      cases hclient
  | some reqCtx =>
      unfold dispatchHttp
      simp only [bind_apply, dispatcher.newRequestContext_apply hcontext]
      obtain ⟨output, filters, houtput, -⟩ := dispatcher.dispatchRequestFilters_apply
        (dispatcher.flowContext (dispatcher.routed req) reqCtx state) (dispatcher.routed req).parts
        (collectBody (dispatcher.routed req).body)
        { state with seq := state.seq + 1, uuids := later state.uuids, clock := later state.clock }
      simp only [houtput]
      exact dispatcher.dispatchFilteredRequest_recorded (dispatcher.routed req)
        (dispatcher.flowContext (dispatcher.routed req) reqCtx state) output
        { state with seq := state.seq + 1, uuids := later state.uuids, clock := later state.clock, filters }

/-- **What a flow stores and publishes**, whatever its filters do, its writes and its client: its request and then its
    response, each stored before it is published, all under the name that the flow was given. -/
theorem dispatch_recorded (req : Request) (state : FlowState S N) {events : List ClientEvent} {run : ClientRun S N}
    (hrun : ClientRun.steps events (ClientRun.start (dispatcher.dispatch req state).1.body
      (dispatcher.dispatch req state).2) = some run) :
    ∃ trace, run.flow.effects = state.effects ++ trace ∧ FlowTrace (nextName state) (recordsOf trace)
      ∧ AllPublished (recordsOf trace) := by
  have hrecorded := dispatcher.dispatchHttp_recorded req state
  unfold dispatch at hrun
  revert hrecorded hrun
  generalize dispatcher.dispatchHttp req state = outcome
  obtain ⟨result, state'⟩ := outcome
  intro hrun hrecorded
  cases result with
  | ok client => exact hrecorded.1 client rfl events run hrun
  | error error =>
      have hplain : run.flow = state' := by
        cases error <;> exact ClientRun.flow_of_not_streaming rfl hrun
      rw [hplain]
      exact hrecorded.2 error rfl

end FlowDispatcher

/-! ## Runs -/

/-- A flow, with the run of the client that is handed its answer. -/
structure FlowRun (S N : Type) where
  dispatcher : FlowDispatcher S N
  req : Request
  state : FlowState S N
  fresh : state.effects = []
  events : List ClientEvent
  run : ClientRun S N
  reaches : ClientRun.steps events (ClientRun.start (dispatcher.dispatch req state).1.body
    (dispatcher.dispatch req state).2) = some run

namespace FlowRun

def name (flow : FlowRun S N) : FlowName := FlowDispatcher.nextName flow.state

/-- What the flow has stored and published. -/
def records (flow : FlowRun S N) : List (FlowRecord N) := recordsOf flow.run.flow.effects

theorem flowTrace (flow : FlowRun S N) : FlowTrace flow.name flow.records ∧ AllPublished flow.records := by
  obtain ⟨trace, heffects, htrace⟩ := flow.dispatcher.dispatch_recorded flow.req flow.state flow.reaches
  rw [flow.fresh, List.nil_append] at heffects
  unfold records
  rw [heffects]
  exact htrace

end FlowRun

end Inspect.Flow
