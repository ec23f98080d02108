import Inspect.Flow.Client

/-!
# `Flow.Correctness.Streaming` — a streamed body is finalised once

A run of a client over a `StreamingCaptureBody` goes through three phases: the body is open; it is closed and the
task of its finalisation waits; the task has run. `StreamingRun` says what holds in each of them, and every step of
the client or of the task keeps it.
-/

namespace Inspect.Flow

open Http

variable {S N : Type} {inner : Body} {input : ResponseDispatchInput N} {parts : ResponseParts} {threshold : Nat}
  {flow : FlowState S N}

/-! ## One step -/

/-- The bytes of data in the results of polls. -/
def dataBytes (seen : List Polled) : Nat := (seen.map Polled.dataLen).sum

theorem dataBytes_append (seen : List Polled) (result : Polled) :
    dataBytes (seen ++ [result]) = dataBytes seen + result.dataLen := by
  unfold dataBytes
  rw [List.map_append, List.sum_append, List.map_singleton, List.sum_singleton]

/-- The finalisation after a poll: data is counted, the end and an error finalise. -/
def finalizeAfter (finalize : StreamingResponseFinalize) (result : Polled) : StreamingResponseFinalize :=
  match result with
  | .frame (.data bytes) => finalize.addStreamedBytes bytes.length
  | .done => finalize.finalize false
  | .error => finalize.finalize true
  | .frame (.trailers _) | .pending => finalize

theorem StreamingCaptureBody.poll_eq (body : StreamingCaptureBody) :
    body.poll = (body.inner.poll.1, ⟨body.inner.poll.2, finalizeAfter body.finalize body.inner.poll.1⟩) := by
  unfold StreamingCaptureBody.poll finalizeAfter
  obtain ⟨result, rest⟩ := body.inner.poll
  cases result with
  | pending => rfl
  | error => rfl
  | done => rfl
  | frame frame => cases frame with
    | data bytes => rfl
    | trailers headers => rfl

/-- A result that is not final only counts. -/
theorem finalizeAfter_of_not_final (finalize : StreamingResponseFinalize) {result : Polled}
    (h : result.isFinal = false) :
    finalizeAfter finalize result
      = { finalize with streamedBytes := finalize.streamedBytes + UInt64.ofNat result.dataLen } := by
  cases result with
  | pending =>
      show finalize = _
      simp [Polled.dataLen]
  | error => cases h
  | done => cases h
  | frame frame => cases frame with
    | data bytes => rfl
    | trailers headers =>
        show finalize = _
        simp [Polled.dataLen, Frame.dataRef]

/-- A final result finalises, and only the end does so normally. -/
theorem finalizeAfter_of_final (finalize : StreamingResponseFinalize) {result : Polled}
    (h : result.isFinal = true) :
    finalizeAfter finalize result = finalize.finalize (result != .done) ∧ result.dataLen = 0 := by
  cases result with
  | pending => cases h
  | error => exact ⟨rfl, rfl⟩
  | done => exact ⟨rfl, rfl⟩
  | frame frame => cases h

theorem finalizeTask_snd (streamedBytes : UInt64) (interrupted : Bool) (flow : FlowState S N) :
    (finalizeTask input parts threshold streamedBytes interrupted flow).2
      = { flow with
          elapsed := later flow.elapsed
          writes := later flow.writes
          effects :=
            let capture := streamedCapture input parts threshold streamedBytes interrupted (flow.elapsed 0)
            flow.effects ++ .commitResponse capture (flow.writes 0)
              :: if flow.writes 0 then [.responseCommitted (capture.committed [])] else [] } := by
  cases hstored : flow.writes 0 with
  | false => simp [finalizeTask, hstored]
  | true => simp [finalizeTask, hstored]

/-! ## The phases of a run -/

/-- One more poll takes one more result of the inner body. -/
theorem results_take_succ {inner : Body} {polls : Nat} (h : polls ≤ inner.length) :
    inner.results.take (polls + 1) = inner.results.take polls ++ [Body.poll (inner.drop polls) |>.1]
    ∧ (Body.poll (inner.drop polls)).2 = inner.drop (polls + 1) := by
  induction inner generalizing polls with
  | nil =>
      rw [Nat.le_zero.mp h]
      exact ⟨rfl, rfl⟩
  | cons next inner ih =>
      cases polls with
      | zero => exact ⟨rfl, rfl⟩
      | succ polls =>
          obtain ⟨hseen, hrest⟩ := ih (Nat.le_of_succ_le_succ h)
          refine ⟨?_, hrest⟩
          rw [Body.results_cons, List.take_succ_cons, hseen]
          rfl

/-- A poll that is not final is not the last. -/
theorem lt_length_of_not_final {inner : Body} {polls : Nat} (h : polls ≤ inner.length)
    (hfinal : (Body.poll (inner.drop polls)).1.isFinal = false) : polls < inner.length := by
  rcases Nat.lt_or_eq_of_le h with hlt | heq
  · exact hlt
  · rw [heq, List.drop_length] at hfinal
    cases hfinal

/-- Whether the body was left before its end. -/
def interruptedAfter (seen : List Polled) : Bool := !seen.contains .done

/-- What a streamed body and the flow look like in a run. Before it is closed nothing was committed; when it is closed,
    one task was spawned, which runs once. -/
inductive StreamingRun (inner : Body) (input : ResponseDispatchInput N) (parts : ResponseParts) (threshold : Nat)
    (flow : FlowState S N) : ClientRun S N → Prop
  | opened (polls : Nat) (hpolls : polls ≤ inner.length)
      (hopen : (inner.results.take polls).any Polled.isFinal = false) :
      StreamingRun inner input parts threshold flow
        ⟨.streaming ⟨inner.drop polls, ⟨UInt64.ofNat (dataBytes (inner.results.take polls)), false, [], 0⟩⟩ input parts
            threshold,
          inner.results.take polls, false, flow⟩
  | waiting (polls : Nat) (dropped : Bool)
      (hclosed : (dropped || (inner.results.take polls).any Polled.isFinal) = true) :
      StreamingRun inner input parts threshold flow
        ⟨.streaming ⟨inner.drop polls, ⟨UInt64.ofNat (dataBytes (inner.results.take polls)), true,
            [interruptedAfter (inner.results.take polls)], 0⟩⟩ input parts threshold,
          inner.results.take polls, dropped, flow⟩
  | committed (polls : Nat) (dropped : Bool)
      (hclosed : (dropped || (inner.results.take polls).any Polled.isFinal) = true) :
      StreamingRun inner input parts threshold flow
        ⟨.streaming ⟨inner.drop polls, ⟨UInt64.ofNat (dataBytes (inner.results.take polls)), true,
            [interruptedAfter (inner.results.take polls)], 1⟩⟩ input parts threshold,
          inner.results.take polls, dropped,
          (finalizeTask input parts threshold (UInt64.ofNat (dataBytes (inner.results.take polls)))
            (interruptedAfter (inner.results.take polls)) flow).2⟩

theorem streamingRun_start :
    StreamingRun inner input parts threshold flow
      (ClientRun.start (.streaming ⟨inner, StreamingResponseFinalize.new⟩ input parts threshold) flow) :=
  .opened 0 (Nat.zero_le _) rfl

/-- The results before the end do not hold it. -/
theorem not_contains_done_of_not_final {seen : List Polled} (h : seen.any Polled.isFinal = false) :
    seen.contains .done = false := by
  by_contra hdone
  have hmem : Polled.done ∈ seen := List.contains_iff_mem.mp (eq_true_of_ne_false hdone)
  have hfinal := List.any_eq_false.mp h _ hmem
  exact hfinal rfl

/-- **Polling an open body** counts data, and finalises at the end or at an error. -/
theorem streamingRun_poll {polls : Nat} (hpolls : polls ≤ inner.length)
    (hopen : (inner.results.take polls).any Polled.isFinal = false) :
    StreamingRun inner input parts threshold flow
      ⟨.streaming
          ⟨(Body.poll (inner.drop polls)).2,
            finalizeAfter ⟨UInt64.ofNat (dataBytes (inner.results.take polls)), false, [], 0⟩
              (Body.poll (inner.drop polls)).1⟩ input parts threshold,
        inner.results.take polls ++ [(Body.poll (inner.drop polls)).1], false, flow⟩ := by
  obtain ⟨hseen, hrest⟩ := results_take_succ hpolls
  have hcount := dataBytes_append (inner.results.take polls) (Body.poll (inner.drop polls)).1
  rw [← hseen] at hcount ⊢
  rw [hrest]
  -- a frame leaves the body open; an end or an error closes it, and the task waits
  cases hfinal : (Body.poll (inner.drop polls)).1.isFinal with
  | false =>
      rw [finalizeAfter_of_not_final _ hfinal]
      dsimp only
      rw [← UInt64.ofNat_add, ← hcount]
      refine .opened (polls + 1) (lt_length_of_not_final hpolls hfinal) ?_
      rw [hseen, List.any_append, hopen, List.any_cons, hfinal]
      rfl
  | true =>
      obtain ⟨hfinalize, hlen⟩ := finalizeAfter_of_final
        ⟨UInt64.ofNat (dataBytes (inner.results.take polls)), false, [], 0⟩ hfinal
      have hinterrupted : interruptedAfter (inner.results.take (polls + 1))
          = ((Body.poll (inner.drop polls)).1 != .done) := by
        have hdone := not_contains_done_of_not_final hopen
        rw [List.contains_eq_mem, decide_eq_false_iff_not] at hdone
        simp only [interruptedAfter, hseen, List.contains_eq_mem, List.mem_append, hdone, false_or,
          List.mem_singleton, bne, eq_comm, beq_eq_decide]
      have hsame : dataBytes (inner.results.take (polls + 1)) = dataBytes (inner.results.take polls) := by
        rw [hcount, hlen, Nat.add_zero]
      rw [hfinalize, ← hinterrupted, ← hsame]
      refine .waiting (polls + 1) false ?_
      rw [hseen, List.any_append, List.any_cons, hfinal]
      simp

/-- **Every step keeps the phases**: the end, an error and a drop all finalise, but only the first of them spawns the
    task, and no byte is counted after it. -/
theorem streamingRun_step {run run' : ClientRun S N} {event : ClientEvent}
    (h : StreamingRun inner input parts threshold flow run) (hstep : run.step event = some run') :
    StreamingRun inner input parts threshold flow run' := by
  obtain ⟨-, hopened, rfl⟩ | ⟨-, hkept, rfl⟩ | ⟨-, body, flow', htask, rfl⟩ := ClientRun.step_cases hstep
  · -- a poll: the body is open
    cases h with
    | opened polls hpolls hopen =>
        have hnext : StreamingRun inner input parts threshold flow _ := streamingRun_poll hpolls hopen
        simpa only [ClientBody.poll, StreamingCaptureBody.poll_eq] using hnext
    | waiting polls dropped hclosed => exact absurd hclosed (ne_true_of_eq_false hopened)
    | committed polls dropped hclosed => exact absurd hclosed (ne_true_of_eq_false hopened)
  · -- a drop: it finalises only an open body
    cases h with
    | opened polls hpolls hopen =>
        have hinterrupted : interruptedAfter (inner.results.take polls) = true := by
          rw [interruptedAfter, not_contains_done_of_not_final hopen, Bool.not_false]
        have hnext : StreamingRun inner input parts threshold flow _ := .waiting polls true (Bool.true_or _)
        rw [hinterrupted] at hnext
        exact hnext
    | waiting polls dropped hclosed => exact .waiting polls true (Bool.true_or _)
    | committed polls dropped hclosed => exact .committed polls true (Bool.true_or _)
  · -- the task: it waits, or there is none
    cases h with
    | opened polls hpolls hopen => cases htask
    | waiting polls dropped hclosed =>
        cases htask
        exact .committed polls dropped hclosed
    | committed polls dropped hclosed => cases htask

/-- **Every run keeps the phases.** -/
theorem streamingRun_steps {events : List ClientEvent} {run : ClientRun S N}
    (h : ClientRun.steps events
      (ClientRun.start (.streaming ⟨inner, StreamingResponseFinalize.new⟩ input parts threshold) flow) = some run) :
    StreamingRun inner input parts threshold flow run :=
  ClientRun.steps_invariant streamingRun_step streamingRun_start h

/-- A poll is seen once. -/
theorem length_seen_step {run run' : ClientRun S N} {event : ClientEvent} (h : run.step event = some run') :
    run'.seen.length = run.seen.length + [event].count .poll := by
  obtain ⟨rfl, -, rfl⟩ | ⟨rfl, -, rfl⟩ | ⟨rfl, body, flow, -, rfl⟩ := ClientRun.step_cases h
  · exact List.length_append
  · rfl
  · rfl

theorem length_seen_steps {events : List ClientEvent} {run run' : ClientRun S N}
    (h : ClientRun.steps events run = some run') : run'.seen.length = run.seen.length + events.count .poll := by
  induction events generalizing run with
  | nil =>
      cases h
      rfl
  | cons event events ih =>
      obtain ⟨next, hnext, hrest⟩ := Option.bind_eq_some_iff.mp h
      rw [ih hrest, length_seen_step hnext, Nat.add_assoc, ← List.count_append]
      rfl

/-- The end is seen by the poll behind the last one that yields something. -/
theorem done_mem_take_iff {inner : Body} {polls : Nat} :
    Polled.done ∈ inner.results.take polls ↔ inner.length < polls := by
  induction inner generalizing polls with
  | nil => cases polls with
    | zero => simp
    | succ polls => simp [Body.results]
  | cons next inner ih => cases polls with
    | zero => simp
    | succ polls =>
        have hnext : Polled.done ≠ next.polled := by cases next <;> exact Polled.noConfusion
        rw [Body.results_cons, List.take_succ_cons, List.mem_cons, ih, List.length_cons]
        constructor
        · rintro (hdone | hlt)
          · exact absurd hdone hnext
          · exact Nat.succ_lt_succ hlt
        · intro hlt
          exact Or.inr (Nat.lt_of_succ_lt_succ hlt)

/-- All data is in the results before the end. -/
theorem dataBytes_take_of_length_le {inner : Body} {polls : Nat} (h : inner.length ≤ polls) :
    dataBytes (inner.results.take polls) = dataBytes inner.results := by
  induction inner generalizing polls with
  | nil => cases polls with
    | zero => rfl
    | succ polls => simp [Body.results]
  | cons next inner ih => cases polls with
    | zero => cases h
    | succ polls =>
        have hrest := ih (Nat.le_of_succ_le_succ h)
        unfold dataBytes at hrest ⊢
        rw [Body.results_cons, List.take_succ_cons, List.map_cons, List.sum_cons, hrest, List.map_cons, List.sum_cons]

/-! ## A download -/

/-- The request of a download. -/
def downloadRequest : RequestParts :=
  ⟨"GET".toList, ⟨none, none, "/file".toList, none⟩, .http11, []⟩

/-- What is known of the download when its response arrives. -/
def downloadInput : ResponseDispatchInput Int where
  id := ⟨1⟩
  seq := 1
  flowKey := flowKeyOf 1 ⟨1⟩
  flowDir := [flowKeyOf 1 ⟨1⟩]
  tlsSni := none
  reqHost := "example.com".toList
  reqPath := downloadRequest.uri.path
  reqMethod := downloadRequest.method
  filterRequest := buildFilterRequest (fun _ _ => none) [] 1 (flowKeyOf 1 ⟨1⟩) downloadRequest "https".toList
    "example.com".toList [] none
  origin := .upstream
  upstreamStatus := some 200
  upstreamRemoteAddr := none
  tlsUpstream := none
  upstreamErrorMessage := none

/-- Its response announces two bytes. -/
def downloadParts : ResponseParts := ⟨.ok, .http11, [(contentLength, ⟨[50], by decide⟩)]⟩

/-- The two bytes. -/
def downloadBody : Body := [.frame (.data [104, 105])]

/-- A world in which all writes succeed. -/
def idleFlow {S : Type} (filters : S) : FlowState S Int :=
  ⟨0, fun _ => ⟨1⟩, fun _ => 0, fun _ => 0, fun _ => true, fun _ => true, filters, []⟩

/-- The client has the response, which is streamed above one byte. -/
def downloadStart : ClientRun Unit Int :=
  ClientRun.start (.streaming ⟨downloadBody, StreamingResponseFinalize.new⟩ downloadInput downloadParts 1)
    (idleFlow ())

/-! ## Main results -/

/-- **A streamed body is finalised exactly once.** Whatever the inner body yields, however often the client polls, and
    whenever the task runs: the client sees the frames of the inner body in their order, one response is committed, and
    its size is the number of bytes that the client was given. -/
theorem streamed_committed_once (inner : Body) (input : ResponseDispatchInput N) (parts : ResponseParts)
    (threshold : Nat) (flow : FlowState S N) (events : List ClientEvent) (run : ClientRun S N)
    (hrun : ClientRun.steps events
      (ClientRun.start (.streaming ⟨inner, StreamingResponseFinalize.new⟩ input parts threshold) flow) = some run)
    (hsettled : run.Settled) :
    run.seen = inner.results.take (events.count .poll)
    ∧ ∃ capture : EffectiveResponseCapture N,
        run.flow.effects = flow.effects ++ .commitResponse capture (flow.writes 0)
          :: (if flow.writes 0 then [.responseCommitted (capture.committed [])] else [])
        ∧ capture.bodySizeOverride = some (Int64.ofNat (dataBytes run.seen)) := by
  have hlength : run.seen.length = events.count .poll := by
    rw [length_seen_steps hrun]
    exact Nat.zero_add _
  obtain ⟨hclosed, htasks⟩ := hsettled
  cases streamingRun_steps hrun with
  | opened polls hpolls hopen =>
      have hopened : (false || (inner.results.take polls).any Polled.isFinal) = true := hclosed
      rw [hopen] at hopened
      cases hopened
  | waiting polls dropped _ => cases htasks
  | committed polls dropped _ =>
      refine ⟨?_, streamedCapture input parts threshold (UInt64.ofNat (dataBytes (inner.results.take polls)))
        (interruptedAfter (inner.results.take polls)) (flow.elapsed 0), ?_, rfl⟩
      · rw [← hlength]
        show inner.results.take polls = inner.results.take (inner.results.take polls).length
        rw [List.length_take]
        exact List.take_eq_take_min
      · dsimp only
        rw [finalizeTask_snd]

theorem streamed_committed_once_download :
    ∃ run, ClientRun.steps [.poll, .poll, .drop, .runTask] downloadStart = some run
    ∧ run.Settled ∧ run.seen = [.frame (.data [104, 105]), .done]
    ∧ ∃ capture, run.flow.effects = [.commitResponse capture true, .responseCommitted (capture.committed [])]
        ∧ capture.bodySizeOverride = some 2 := by
  refine ⟨_, rfl, ⟨rfl, rfl⟩, ?_⟩
  obtain ⟨hseen, capture, heffects, hsize⟩ := streamed_committed_once downloadBody downloadInput downloadParts 1 (idleFlow ())
    [.poll, .poll, .drop, .runTask] _ rfl ⟨rfl, rfl⟩
  exact ⟨hseen, capture, heffects, hsize⟩

/-- **A download is recorded as complete exactly when the client polled its end.** A client may also stop as soon as
    `is_end_stream` says that nothing follows: it has all the data then, but the body that it drops is finalised as
    interrupted. -/
theorem finalized_normally_iff_end_polled (isEndStream : Body → Bool)
    (hend : ∀ body, isEndStream body = true → body = []) (inner : Body) (input : ResponseDispatchInput N)
    (parts : ResponseParts) (threshold : Nat) (flow : FlowState S N) (events : List ClientEvent)
    (run : ClientRun S N)
    (hrun : ClientRun.steps events
      (ClientRun.start (.streaming ⟨inner, StreamingResponseFinalize.new⟩ input parts threshold) flow) = some run)
    (hdropped : run.dropped = true)
    (hcomplete : Polled.done ∈ run.seen ∨ run.body.isEndStream isEndStream = true) :
    dataBytes run.seen = dataBytes inner.results
    ∧ (run.body.finalizations = [false] ↔ inner.length < events.count .poll) := by
  have hlength : run.seen.length = events.count .poll := by
    rw [length_seen_steps hrun]
    exact Nat.zero_add _
  have hphase := streamingRun_steps hrun
  -- in every phase the client has seen the results of some number of polls, and the rest of the body is left
  obtain ⟨polls, hseen, hrest, hfinal⟩ : ∃ polls, run.seen = inner.results.take polls
      ∧ run.body.isEndStream isEndStream = isEndStream (inner.drop polls)
      ∧ run.body.finalizations = [interruptedAfter (inner.results.take polls)] := by
    cases hphase with
    | opened polls hpolls hopen => cases hdropped
    | waiting polls dropped hclosed => exact ⟨polls, rfl, rfl, rfl⟩
    | committed polls dropped hclosed => exact ⟨polls, rfl, rfl, rfl⟩
  rw [hseen] at hcomplete hlength ⊢
  rw [hrest] at hcomplete
  constructor
  · apply dataBytes_take_of_length_le
    rcases hcomplete with hdone | hstopped
    · exact Nat.le_of_lt (done_mem_take_iff.mp hdone)
    · exact List.drop_eq_nil_iff.mp (hend _ hstopped)
  · have hpolled : inner.length < events.count .poll ↔ inner.length < polls := by
      rw [← hlength, List.length_take, Body.results, List.length_append, List.length_map, List.length_singleton]
      omega
    rw [hfinal, hpolled, ← done_mem_take_iff]
    simp [interruptedAfter]

theorem finalized_normally_download :
    ∃ run, ClientRun.steps [.poll, .poll, .drop] downloadStart = some run
    ∧ dataBytes run.seen = dataBytes downloadBody.results ∧ run.body.finalizations = [false] := by
  refine ⟨_, rfl, ?_⟩
  obtain ⟨hbytes, hiff⟩ := finalized_normally_iff_end_polled List.isEmpty (fun _ => List.isEmpty_iff.mp) downloadBody
    downloadInput downloadParts 1 (idleFlow ()) [.poll, .poll, .drop] _ rfl rfl (Or.inl (by decide))
  exact ⟨hbytes, hiff.mpr (by decide)⟩

/-- The client gets all of the download, sees by `is_end_stream` that nothing follows, and drops the body: it is
    finalised as interrupted. -/
theorem download_recorded_as_interrupted :
    ∃ run, ClientRun.steps [.poll, .drop] downloadStart = some run
    ∧ run.dropped = true ∧ run.body.isEndStream List.isEmpty = true ∧ Polled.error ∉ run.seen
    ∧ dataBytes run.seen = dataBytes downloadBody.results ∧ run.body.finalizations = [true] := by
  refine ⟨_, rfl, rfl, rfl, ?_, rfl, rfl⟩
  show Polled.error ∉ [Polled.frame (.data [104, 105])]
  decide

end Inspect.Flow
