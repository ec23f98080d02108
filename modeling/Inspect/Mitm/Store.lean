import Inspect.Flow.CaptureCommit
import Inspect.Lib.KeyedTable
import Inspect.Tui.PacketList

/-!
# `Mitm.Store` — the tables of a capture

The tables of requests and responses of `src/mitm/store_metadata.rs`: rows come through a queue and are inserted in
its order, and a row whose id is there already is refused by the primary key. The packet list reads them with
`select_packet_summaries` of `src/tui/read_metadata.rs`. `rfc3999z` is the text of a time; nothing of the database
itself fails.
-/

namespace Inspect.Mitm

open Inspect.Flow Inspect.Tui

/-- `RequestResponseEvent`, without the tables of the filters. -/
inductive RequestResponseEvent (N : Type)
  | request (metadata : Flow.RequestMetadata N)
  | response (metadata : Flow.ResponseMetadata N)

/-- The tables, each with its primary key. -/
structure CaptureTables (N : Type) where
  requests : KeyedTable (Flow.RequestMetadata.id (N := N))
  responses : KeyedTable (Flow.ResponseMetadata.id (N := N))

namespace RequestResponseEvent

variable {N : Type}

def request? : RequestResponseEvent N → Option (Flow.RequestMetadata N)
  | .request metadata => some metadata
  | .response _ => none

def response? : RequestResponseEvent N → Option (Flow.ResponseMetadata N)
  | .request _ => none
  | .response metadata => some metadata

end RequestResponseEvent

namespace CaptureTables

variable {N : Type}

def empty : CaptureTables N := ⟨.empty, .empty⟩

/-- `insert_request` and `insert_response`. -/
def store (tables : CaptureTables N) : RequestResponseEvent N → CaptureTables N
  | .request metadata => { tables with requests := tables.requests.insert metadata }
  | .response metadata => { tables with responses := tables.responses.insert metadata }

/-- The writer of the database, with the events of its queue. -/
def storeAll (tables : CaptureTables N) (events : List (RequestResponseEvent N)) : CaptureTables N :=
  events.foldl store tables

/-- Each event goes to its table. -/
theorem storeAll_eq (tables : CaptureTables N) (events : List (RequestResponseEvent N)) :
    tables.storeAll events
      = ⟨(events.filterMap RequestResponseEvent.request?).foldl KeyedTable.insert tables.requests,
        (events.filterMap RequestResponseEvent.response?).foldl KeyedTable.insert tables.responses⟩ := by
  induction events generalizing tables with
  | nil => rfl
  | cons event events ih =>
      refine (ih (tables.store event)).trans ?_
      cases event <;> rfl

variable (rfc3999z : Int64 → Str)

/-- A row of the join. -/
def packetSummary (request : Flow.RequestMetadata N) (response : Option (Flow.ResponseMetadata N)) :
    PacketSummary where
  id := request.id
  seq := request.seq.toInt
  flowKey := request.flowKey
  flowDir := some (['/'].intercalate request.flowDir)
  time := some (rfc3999z request.epochMs)
  epochMs := some request.epochMs.toInt
  method := some request.method
  protocol := some request.protocol
  host := some request.host
  uri := some request.uri
  queryStr := some request.queryStr
  -- COALESCE(upstream_status, status)
  status := response.map fun response => (response.upstreamStatus.getD response.status).toNat
  elapsed := response.map fun response => response.elapsed.toInt

/-- `select_packet_summaries`. -/
def selectPacketSummaries (tables : CaptureTables N) : List PacketSummary :=
  (tables.requests.rows.map fun request => packetSummary rfc3999z request (tables.responses.find? request.id)).mergeSort
    fun a b => a.seq ≤ b.seq

end CaptureTables

end Inspect.Mitm
