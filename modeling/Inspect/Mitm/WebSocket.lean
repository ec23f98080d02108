import Inspect.Flow.HttpTypes

/-!
# `Mitm.WebSocket` — the relay between two WebSockets

The embedding of `src/mitm/websocket.rs`. A handshake is made with the upstream first; the client gets its response, and
when the connection of the client is upgraded as well, a task relays messages in both directions. Neither side is
offered a compression.

The task is either waiting in its `select!` or in the middle of a send; a message that arrives waits in its socket, and so
does the end of the guard. What a socket yields, whether a send succeeds, and which of the branches that are ready is
taken is up to the run.
-/

namespace Inspect.Mitm

open Http Inspect.Flow

/-! ## The handshake -/

/-- `SecWebSocketExtensions::name`. -/
def secWebsocketExtensions : HeaderName := ⟨"sec-websocket-extensions".toList, by decide⟩

/-- The client of the WebSocket library. -/
structure WebSocketClient (H : Type) where
  initiateHandshake : Request → Except Str H
  /-- `handshake.extensions = None` -/
  withoutExtensions : H → H
  /-- the parts of the response, once the socket is there -/
  complete : H → Except Str ResponseParts

/-- `mitm_websocket`: the response of the client, and the request whose connection is upgraded for the relay. -/
def mitmWebsocket {H : Type} (client : WebSocketClient H) (req : Request) : Response × Option Request :=
  let parts := { req.parts with headers := HeaderMap.remove req.parts.headers secWebsocketExtensions }
  match client.initiateHandshake { req with parts } with
  | .error _ => (intoResponse .badGateway, none)
  | .ok handshake =>
      match client.complete (client.withoutExtensions handshake) with
      | .error _ => (intoResponse .badGateway, none)
      | .ok responseParts =>
          (⟨{ responseParts with headers := HeaderMap.remove responseParts.headers secWebsocketExtensions }, []⟩,
            some { req with parts, body := [] })

/-! ## The relay -/

inductive Side
  | ingress
  | egress
deriving DecidableEq

def Side.other : Side → Side
  | .ingress => .egress
  | .egress => .ingress

@[simp] theorem Side.other_other (side : Side) : side.other.other = side := by cases side <;> rfl

/-- Why a relay has ended. -/
inductive RelayEnd (M E : Type)
  | notUpgraded
  | failed (side : Side) (err : E)
  | unsent (target : Side) (msg : M)
  | cancelled

inductive RelayPhase (M E : Type)
  | upgrading
  | selecting
  | sending (target : Side) (msg : M)
  | ended (cause : RelayEnd M E)

structure Relay (M E : Type) where
  phase : RelayPhase M E
  /-- what `recv_message` of a socket is going to yield -/
  waiting : Side → List (Except E M)
  /-- what was sent to a side -/
  delivered : Side → List M
  cancelled : Bool

/-- What can happen, each in one step. -/
inductive RelayStep (M E : Type)
  | arrive (side : Side) (result : Except E M)
  | cancel
  | upgrade (succeeds : Bool)
  /-- the branch of a socket -/
  | recv (side : Side)
  /-- the branch of the guard -/
  | shutdown
  | send (succeeds : Bool)
deriving DecidableEq

namespace Relay

variable {M E : Type}

/-- The task before its connection is upgraded. -/
def start : Relay M E := ⟨.upgrading, fun _ => [], fun _ => [], false⟩

/-- One step of `relay_websockets` or of what is around it; a branch that is not ready is not taken. -/
def step (relay : Relay M E) : RelayStep M E → Relay M E
  | .arrive side result =>
      { relay with waiting := Function.update relay.waiting side (relay.waiting side ++ [result]) }
  | .cancel => { relay with cancelled := true }
  | .upgrade succeeds =>
      match relay.phase with
      | .upgrading => { relay with phase := if succeeds then .selecting else .ended .notUpgraded }
      | _ => relay
  | .recv side =>
      match relay.phase, relay.waiting side with
      | .selecting, .ok msg :: rest =>
          { relay with phase := .sending side.other msg, waiting := Function.update relay.waiting side rest }
      | .selecting, .error err :: rest =>
          { relay with phase := .ended (.failed side err), waiting := Function.update relay.waiting side rest }
      | _, _ => relay
  | .shutdown =>
      match relay.phase, relay.cancelled with
      | .selecting, true => { relay with phase := .ended .cancelled }
      | _, _ => relay
  | .send succeeds =>
      match relay.phase with
      | .sending target msg =>
          if succeeds then
            { relay with
              phase := .selecting
              delivered := Function.update relay.delivered target (relay.delivered target ++ [msg]) }
          else { relay with phase := .ended (.unsent target msg) }
      | _ => relay

/-- A whole run. -/
def runFrom (relay : Relay M E) (steps : List (RelayStep M E)) : Relay M E := steps.foldl step relay

end Relay

end Inspect.Mitm
