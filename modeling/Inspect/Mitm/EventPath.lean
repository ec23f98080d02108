import Inspect.Lib.Channel
import Inspect.Mitm.Proxy
import Inspect.Tui.PacketList

/-!
# `Mitm.EventPath` — the way of an event from a flow to the packet list

The embedding of `src/mitm/flow/flow_event.rs`, `event_bridge.rs` and `tui_sink.rs`, with the channels of
`src/main.rs`: a flow publishes an event, the dispatcher of the events takes it out of a bounded channel and gives it
to the sink of the user interface, and the sink sends packet events into a second bounded channel, from which the
packet list polls. Every send drops what finds no room.

The text of a time stands beside an event. Sends, receives and what the user does come in any order.
-/

namespace Inspect.Mitm

open Inspect.Flow Inspect.Tui

/-- `TUI_EVENT_BUFFER`. -/
def tuiEventBuffer : Nat := 4096

inductive FlowEvent
  | requestCommitted (time : Str) (event : RequestCommitted)
  | responseCommitted (event : ResponseCommitted)
  | tunnelFailed (time : Str) (event : TunnelFailed)

/-! ## The sink -/

def packetEventMark (mark : FlowMark) : RowMark := ⟨mark.label, mark.color⟩

/-- `TuiSink::send_mark`. -/
def markEvent (id flowKey : Str) (mark : FlowMark) : PacketEvent := .marked ⟨id, flowKey, mark.label, mark.color⟩

/-- What `TuiSink::publish` tells of a request. -/
def packetStarted (time : Str) (event : RequestCommitted) : PacketStarted where
  id := event.id
  seq := event.seq.toNat
  flowKey := event.flowKey
  time
  epochMs := event.epochMs.toInt
  method := event.method
  protocol := event.protocol
  host := event.host
  uri := event.uri
  queryStr := event.queryStr

/-- What `TuiSink::publish` tells of a response. -/
def packetCompleted (event : ResponseCommitted) : PacketCompleted where
  id := event.id
  status := event.status
  elapsedMs := event.elapsedMs.toInt

/-- What `TuiSink::publish` tells of a tunnel. -/
def packetTunnelFailed (time : Str) (event : TunnelFailed) : PacketTunnelFailed where
  id := event.id
  seq := event.seq.toNat
  flowKey := event.flowKey
  time
  epochMs := event.epochMs.toInt
  host := event.host
  port := event.port
  stage := event.stage
  error := event.error
  marks := event.marks.map packetEventMark

/-- The packet events that `TuiSink::publish` sends for an event, one after the other. -/
def sinkEvents : FlowEvent → List PacketEvent
  | .tunnelFailed time event => [.tunnelFailed (packetTunnelFailed time event)]
  | .requestCommitted time event =>
      .started (packetStarted time event) :: event.marks.map (markEvent event.id event.flowKey)
  | .responseCommitted event =>
      .completed (packetCompleted event) :: event.marks.map (markEvent event.id event.flowKey)

/-! ## The path -/

structure EventPath (T : Type) where
  flowEvents : Channel FlowEvent
  /-- what `TuiSink::publish` has still to send of the event that it is given -/
  sending : List PacketEvent
  packetEvents : Channel PacketEvent
  list : PacketListDelegate T

/-- What can happen on the path, each in one step. -/
inductive PathStep
  /-- `FlowEventPublisher::publish` -/
  | publish (event : FlowEvent)
  /-- `FlowEventDispatcher::run` receives an event -/
  | dispatch
  /-- `TuiSink::publish` sends a packet event -/
  | send
  /-- `poll_incoming` receives a packet event -/
  | receive
  /-- anything else that happens to the packet list -/
  | view (next : { next : PacketListDelegate.Step // ∀ event, next ≠ .event event })

namespace EventPath

variable {T : Type} (env : TuiEnv T)

/-- The path as the program starts it. -/
def start (list : PacketListDelegate T) : EventPath T :=
  ⟨.ofCapacity tuiEventBuffer, [], .ofCapacity tuiEventBuffer, list⟩

/-- One step; a receiver without an event waits. -/
def step (path : EventPath T) : PathStep → EventPath T
  | .publish event => { path with flowEvents := path.flowEvents.trySend event }
  | .dispatch =>
      match path.sending, path.flowEvents.tryRecv with
      | [], some (event, flowEvents) => { path with flowEvents, sending := sinkEvents event }
      | _, _ => path
  | .send =>
      match path.sending with
      | [] => path
      | event :: sending => { path with sending, packetEvents := path.packetEvents.trySend event }
  | .receive =>
      match path.packetEvents.tryRecv with
      | none => path
      | some (event, packetEvents) => { path with packetEvents, list := path.list.onEvent env event }
  | .view next => { path with list := PacketListDelegate.step env path.list next.1 }

/-- A whole run. -/
def runFrom (path : EventPath T) (steps : List PathStep) : EventPath T := steps.foldl (step env) path

end EventPath

end Inspect.Mitm
