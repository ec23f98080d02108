import Inspect.Flow.Dispatcher

/-!
# `Flow.Client` — what a client does with a response

The side of the client of `src/mitm/flow/dispatcher.rs`: it polls the body it was given, at most until it has ended or
failed, and drops it at some time. Dropping a body, or polling its end, can spawn a task that commits the response;
the task runs at any time after that. A run is any order of these steps.
-/

namespace Inspect.Flow

open Http

/-! ## Finalisation -/

section Finalize

variable {S N : Type}

/-- The capture of a streamed response. -/
def streamedCapture (input : ResponseDispatchInput N) (parts : ResponseParts) (threshold : Nat)
    (streamedBytes : UInt64) (interrupted : Bool) (elapsedMs : Int64) : EffectiveResponseCapture N :=
  FlowDispatcher.responseCapture input parts
    (streamingResponseCaptureNotice parts.headers threshold streamedBytes interrupted)
    (some streamedBytes.toInt64) (some true) elapsedMs

/-- The task that `StreamingResponseFinalize::finalize` spawns: a failed commit is only logged. -/
def finalizeTask (input : ResponseDispatchInput N) (parts : ResponseParts) (threshold : Nat)
    (streamedBytes : UInt64) (interrupted : Bool) : FlowM S N Unit := do
  let elapsedMs ← nextElapsedMs
  let capture := streamedCapture input parts threshold streamedBytes interrupted elapsedMs
  let stored ← nextWrite
  emit (.commitResponse capture stored)
  if stored then emit (.responseCommitted (capture.committed []))

end Finalize

/-! ## Bodies -/

namespace ClientBody

variable {S N : Type}

/-- `poll_frame` of the body of a response. -/
def poll : ClientBody N → Polled × ClientBody N
  | .full body => (body.poll.1, .full body.poll.2)
  | .sse body => (body.poll.1, .sse body.poll.2)
  | .streaming body input parts threshold => (body.poll.1, .streaming body.poll.2 input parts threshold)

/-- Dropping the body of a response. -/
def drop : ClientBody N → ClientBody N
  | .full body => .full body
  | .sse body => .sse body.drop
  | .streaming body input parts threshold => .streaming body.drop input parts threshold

/-- `is_end_stream`, which every body asks its inner body; that one's answer is `isEndStream`. -/
def isEndStream (isEndStream : Body → Bool) : ClientBody N → Bool
  | .full body => isEndStream body
  | .sse body => isEndStream body.inner
  | .streaming body .. => isEndStream body.inner

/-- Whether a finalisation commits the response. -/
def isStreaming : ClientBody N → Bool
  | .full _ | .sse _ => false
  | .streaming .. => true

/-- The finalisations that took effect, each with its `interrupted`. -/
def finalizations : ClientBody N → List Bool
  | .full _ | .sse _ => []
  | .streaming body .. => body.finalize.spawned

/-- The tasks that were spawned and have not run, each with its `interrupted`. -/
def pendingTasks : ClientBody N → List Bool
  | .full _ | .sse _ => []
  | .streaming body .. => body.finalize.spawned.drop body.finalize.ran

/-- The first of these tasks runs. -/
def runTask (body : ClientBody N) (flow : FlowState S N) : Option (ClientBody N × FlowState S N) :=
  match body with
  | .full _ | .sse _ => none
  | .streaming body input parts threshold =>
      match body.finalize.spawned.drop body.finalize.ran with
      | [] => none
      | interrupted :: _ =>
          some (.streaming { body with finalize := { body.finalize with ran := body.finalize.ran + 1 } } input parts
              threshold,
            (finalizeTask input parts threshold body.finalize.streamedBytes interrupted flow).2)

end ClientBody

/-! ## Runs -/

inductive ClientEvent
  | poll
  | drop
  | runTask
deriving DecidableEq, Repr

structure ClientRun (S N : Type) where
  body : ClientBody N
  /-- the results of the polls so far -/
  seen : List Polled
  dropped : Bool
  flow : FlowState S N

namespace ClientRun

variable {S N : Type}

def start (body : ClientBody N) (flow : FlowState S N) : ClientRun S N := ⟨body, [], false, flow⟩

/-- Whether the client has reached the end of the body, or has dropped it. -/
def closed (run : ClientRun S N) : Bool := run.dropped || run.seen.any Polled.isFinal

/-- One step, if it is possible: a client does not poll a body that has ended, or that it has dropped. -/
def step (run : ClientRun S N) : ClientEvent → Option (ClientRun S N)
  | .poll =>
      if run.closed then none
      else some { run with body := run.body.poll.2, seen := run.seen ++ [run.body.poll.1] }
  | .drop => if run.dropped then none else some { run with body := run.body.drop, dropped := true }
  | .runTask => (run.body.runTask run.flow).map fun (body, flow) => { run with body, flow }

/-- The steps of a run, one after the other. -/
def steps : List ClientEvent → ClientRun S N → Option (ClientRun S N)
  | [], run => some run
  | event :: events, run => (run.step event).bind (steps events)

/-- The body was consumed or dropped, and all tasks have run. -/
def Settled (run : ClientRun S N) : Prop := run.closed = true ∧ run.body.pendingTasks = []

/-- All that a step can do. -/
theorem step_cases {run run' : ClientRun S N} {event : ClientEvent} (h : run.step event = some run') :
    (event = .poll ∧ run.closed = false
      ∧ run' = { run with body := run.body.poll.2, seen := run.seen ++ [run.body.poll.1] })
    ∨ (event = .drop ∧ run.dropped = false ∧ run' = { run with body := run.body.drop, dropped := true })
    ∨ (event = .runTask ∧ ∃ body flow, run.body.runTask run.flow = some (body, flow)
      ∧ run' = { run with body, flow }) := by
  cases event with
  | poll =>
      cases hclosed : run.closed with
      | true => simp [step, hclosed] at h
      | false =>
          refine Or.inl ⟨rfl, rfl, ?_⟩
          simpa [step, hclosed] using h.symm
  | drop =>
      cases hdropped : run.dropped with
      | true => simp [step, hdropped] at h
      | false =>
          refine Or.inr (Or.inl ⟨rfl, rfl, ?_⟩)
          simpa [step, hdropped] using h.symm
  | runTask =>
      obtain ⟨⟨body, flow⟩, htask, rfl⟩ := Option.map_eq_some_iff.mp h
      exact Or.inr (Or.inr ⟨rfl, body, flow, htask, rfl⟩)

/-- What every step keeps, every run keeps. -/
theorem steps_invariant {P : ClientRun S N → Prop} (hstep : ∀ {run run' event}, P run → run.step event = some run' →
    P run') {events : List ClientEvent} {run run' : ClientRun S N} (h : P run) (hrun : steps events run = some run') :
    P run' := by
  induction events generalizing run with
  | nil =>
      cases hrun
      exact h
  | cons event events ih =>
      obtain ⟨next, hnext, hrest⟩ := Option.bind_eq_some_iff.mp hrun
      exact ih (hstep h hnext) hrest

/-- A body that is not streamed does nothing to the flow. -/
theorem flow_of_not_streaming {events : List ClientEvent} {body : ClientBody N} {flow : FlowState S N}
    {run : ClientRun S N} (hbody : body.isStreaming = false) (hrun : steps events (start body flow) = some run) :
    run.flow = flow := by
  have hinv : run.body.isStreaming = false ∧ run.flow = flow := by
    refine steps_invariant (P := fun run => run.body.isStreaming = false ∧ run.flow = flow) ?_ ⟨hbody, rfl⟩ hrun
    rintro run run' event ⟨hplain, hflow⟩ hstep
    obtain ⟨body, seen, dropped, flow'⟩ := run
    obtain ⟨-, -, rfl⟩ | ⟨-, -, rfl⟩ | ⟨-, body', flow'', htask, rfl⟩ := step_cases hstep
    · cases body with
      | full body => exact ⟨rfl, hflow⟩
      | sse body => exact ⟨rfl, hflow⟩
      | streaming => cases hplain
    · cases body with
      | full body => exact ⟨rfl, hflow⟩
      | sse body => exact ⟨rfl, hflow⟩
      | streaming => cases hplain
    · cases body with
      | full body => cases htask
      | sse body => cases htask
      | streaming => cases hplain
  exact hinv.2

end ClientRun

end Inspect.Flow
