import Inspect.Mitm.Proxy

/-!
# `Mitm.FlowKeys` — the keys of flows that run side by side

Four places of `src/mitm` draw a number from the counter of the proxy and make the key of a flow of it: an HTTP flow, a
WebSocket handshake, a `CONNECT` that is denied and a tunnel that fails. Each is a party of its own, and the parties take
their steps in any order: a draw is one `fetch_add`, and what a party makes of its number is its own business.

A state also keeps the order of the draws, which no step looks at.
-/

namespace Inspect.Mitm

open Inspect.Flow

/-- The places that draw a number. -/
inductive Site
  /-- `new_request_context` -/
  | httpFlow
  /-- `dispatch_websocket_handshake` -/
  | websocketHandshake
  /-- `http_connect_accept` -/
  | deniedConnect
  /-- `http_connect_proxy` -/
  | failedTunnel
deriving DecidableEq, Repr

namespace Site

/-- The text of an id that a key has the start of: without hyphens at the first two places, with hyphens at the others. -/
def idText : Site → Uuid → Str
  | .httpFlow, id | .websocketHandshake, id => id.simple
  | .deniedConnect, id | .failedTunnel, id => id.toText

/-- The key of a flow: its number in at least six digits, and the start of the text of its id. -/
def flowKey (site : Site) (seq : UInt64) (id : Uuid) : Str :=
  Text.padStart 6 '0' (Nat.toDigits 10 seq.toNat) ++ '-' :: (site.idText id).take 8

/-- Whether a party can end with a number and no key: the context of a request may not be found. -/
def canRefuse : Site → Bool
  | .httpFlow | .websocketHandshake => true
  | .deniedConnect | .failedTunnel => false

end Site

/-- How far a party is. -/
inductive Progress
  | arrived
  | drawn (seq : UInt64)
  | refused (seq : UInt64)
  | named (seq : UInt64) (flowKey : Str)
deriving DecidableEq

/-- The number of a party that has drawn one. -/
def Progress.seq? : Progress → Option UInt64
  | .arrived => none
  | .drawn seq | .refused seq | .named seq _ => some seq

structure Party where
  site : Site
  progress : Progress
deriving DecidableEq

structure KeyState where
  /-- the counter -/
  seq : UInt64
  parties : List Party
  /-- the parties in the order in which they drew -/
  draws : List Nat
deriving DecidableEq

inductive KeyAction
  | arrive (site : Site)
  | draw (party : Nat)
  | refuse (party : Nat)
  | name (party : Nat) (id : Uuid)
deriving DecidableEq

namespace KeyState

/-- `AtomicU64::new(0)`. -/
def initial : KeyState := ⟨0, [], []⟩

/-- One step of a party; nothing happens where it cannot take this step. -/
def step (state : KeyState) : KeyAction → KeyState
  | .arrive site => { state with parties := state.parties ++ [⟨site, .arrived⟩] }
  | .draw i =>
      match state.parties[i]? with
      | some ⟨site, .arrived⟩ =>
          let seq := state.seq + 1
          { seq, parties := state.parties.set i ⟨site, .drawn seq⟩, draws := state.draws ++ [i] }
      | _ => state
  | .refuse i =>
      match state.parties[i]? with
      | some ⟨site, .drawn seq⟩ =>
          if site.canRefuse then { state with parties := state.parties.set i ⟨site, .refused seq⟩ } else state
      | _ => state
  | .name i id =>
      match state.parties[i]? with
      | some ⟨site, .drawn seq⟩ =>
          { state with parties := state.parties.set i ⟨site, .named seq (site.flowKey seq id)⟩ }
      | _ => state

def run (actions : List KeyAction) (state : KeyState) : KeyState := actions.foldl step state

/-- A party has drawn a number and made a key of it. -/
def Named (state : KeyState) (i : Nat) (seq : UInt64) (flowKey : Str) : Prop :=
  ∃ site, state.parties[i]? = some ⟨site, .named seq flowKey⟩

/-- A party has drawn its number before another one, or is the other one. -/
def NotLater (state : KeyState) (i j : Nat) : Prop :=
  ∃ n m : Nat, n ≤ m ∧ state.draws[n]? = some i ∧ state.draws[m]? = some j

end KeyState

end Inspect.Mitm
