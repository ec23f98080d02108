import Inspect.Flow.Correctness.FlowRecords
import Inspect.Lib.Interleaving
import Inspect.Mitm.Correctness.EventPath
import Inspect.Mitm.Store

/-!
# `Mitm.Correctness.StoredPackets` — the packets that are shown and the packets that are stored

Any number of flows run at the same time, and what they store and publish is interleaved. The list shows what was
published, on its way through the queues; the tables hold what was stored. Of each flow, and so of all of them, the
list shows nothing that is not stored; and when all that is stored was published and has arrived, a list that is made
from the tables shows the same packets.
-/

namespace Inspect.Mitm

open Inspect.Flow Inspect.Tui Inspect.Interleaving
open Inspect.Tui.PacketListDelegate (packetRows)

/-! ## What a row shows -/

/-- What a row shows of its packet, besides the text of its time and its marks. -/
structure ShownPacket where
  id : Str
  seq : Nat
  flowKey : Str
  method : Str
  protocol : Str
  host : Str
  uri : Str
  queryStr : Str
  status : Option UInt16
  elapsedMs : Option Int
deriving DecidableEq

def shownRow (row : PacketRow) : ShownPacket where
  id := row.id
  seq := row.seq
  flowKey := row.flowKey
  method := row.method
  protocol := row.protocol
  host := row.host
  uri := row.uri
  queryStr := row.queryStr
  status := row.status
  elapsedMs := row.elapsedMs

/-- A packet as its flow has published it. -/
def shownPublished (request : RequestCommitted) (response : Option ResponseCommitted) : ShownPacket where
  id := request.id
  seq := request.seq.toNat
  flowKey := request.flowKey
  method := request.method
  protocol := request.protocol
  host := request.host
  uri := request.uri
  queryStr := request.queryStr
  status := response.map fun response => response.status
  elapsedMs := response.map fun response => response.elapsedMs.toInt

/-- A packet as its flow has stored it. -/
def shownStored {N : Type} (request : EffectiveRequestCapture) (response : Option (EffectiveResponseCapture N)) :
    ShownPacket :=
  shownPublished (request.committed []) (response.map fun response => response.committed [])

/-! ## Records of flows -/

variable {N : Type}

namespace FlowRecord

/-- The event that a record publishes. -/
def event? (rfc3999z : Int64 → Str) : FlowRecord N → Option FlowEvent
  | .requestPublished event => some (.requestCommitted (rfc3999z event.epochMs) event)
  | .responsePublished event => some (.responseCommitted event)
  | _ => none

end FlowRecord

open FlowRecord

section Tables

variable {S : Type} (dispatcher : FlowDispatcher S N) (service : CaptureService)

/-- The row of a request. -/
def requestRow (capture : EffectiveRequestCapture) : Flow.RequestMetadata N :=
  (service.commitRequest dispatcher.codecs capture).row

/-- The row of a response. -/
def responseRow (capture : EffectiveResponseCapture N) : Flow.ResponseMetadata N :=
  (service.commitResponse dispatcher.codecs dispatcher.serde dispatcher.canonicalReason capture).row

/-- What a record sends to the writer of the database. -/
def storeEvent? : FlowRecord N → Option (RequestResponseEvent N)
  | .requestStored capture => some (.request (requestRow dispatcher service capture))
  | .responseStored capture => some (.response (responseRow dispatcher service capture))
  | _ => none

end Tables

/-! ## Flows side by side -/

/-- What some flows have stored and published at some time, in any order, each under its own name. -/
structure SideBySide {P : Type} [DecidableEq P] (names : P → FlowName) (trace : List (P × FlowRecord N)) : Prop where
  traces : ∀ party, FlowTrace (names party) (own party trace)
  ids : Function.Injective fun party => (names party).id.toText
  flowKeys : Function.Injective fun party => (names party).flowKey

namespace SideBySide

variable {P : Type} [DecidableEq P] {names : P → FlowName} {trace : List (P × FlowRecord N)}

theorem init {step : P × FlowRecord N} (h : SideBySide names (trace ++ [step])) : SideBySide names trace where
  traces := by
    intro party
    have htrace := h.traces party
    obtain ⟨other, record⟩ := step
    rw [own_append] at htrace
    by_cases hparty : other = party
    · subst hparty
      rw [own_cons_self, own_nil] at htrace
      have hfront := htrace.dropLast
      rwa [List.dropLast_concat] at hfront
    · rwa [own_cons_ne hparty, own_nil, List.append_nil] at htrace
  ids := h.ids
  flowKeys := h.flowKeys

/-! ### The values of a flow have its name -/

theorem requestStored (h : SideBySide names trace) :
    Keyed requestStored? (fun capture : EffectiveRequestCapture => capture.id.toText)
      (fun party => (names party).id.toText) trace where
  keyed := by
    intro party capture hmem
    rw [← ((h.traces party).values.requestStored capture hmem)]
    rfl
  injective := h.ids

theorem requestPublished (h : SideBySide names trace) :
    Keyed requestPublished? RequestCommitted.id (fun party => (names party).id.toText) trace where
  keyed := by
    intro party event hmem
    obtain ⟨capture, hcapture, marks, rfl⟩ := (h.traces party).values.requestPublished event hmem
    rw [← (h.traces party).values.requestStored capture hcapture]
    rfl
  injective := h.ids

theorem responseStored (h : SideBySide names trace) :
    Keyed responseStored? (fun capture : EffectiveResponseCapture N => capture.id.toText)
      (fun party => (names party).id.toText) trace where
  keyed := by
    intro party capture hmem
    rw [← ((h.traces party).values.responseStored capture hmem)]
    rfl
  injective := h.ids

theorem responsePublished (h : SideBySide names trace) :
    Keyed responsePublished? ResponseCommitted.id (fun party => (names party).id.toText) trace where
  keyed := by
    intro party event hmem
    obtain ⟨response, hresponse, marks, rfl⟩ := (h.traces party).values.responsePublished event hmem
    rw [← (h.traces party).values.responseStored response hresponse]
    rfl
  injective := h.ids

end SideBySide

/-! ## What the list shows -/

section Live

variable {T P : Type} [DecidableEq P] (env : TuiEnv T) (captureFlowsDir : Str) (rfc3999z : Int64 → Str)
  {names : P → FlowName} {trace : List (P × FlowRecord N)}

/-- What the flows have published. -/
def publishedBy (trace : List (P × FlowRecord N)) : List FlowEvent := values (event? rfc3999z) trace

/-- The packets that were published, with what was published of their ends. -/
def shownLive (trace : List (P × FlowRecord N)) : List ShownPacket :=
  (values requestPublished? trace).map fun request =>
    shownPublished request ((values responsePublished? trace).find? fun response => response.id = request.id)

/-- What the end of a packet does to what is shown. -/
def shownCompleted (response : ResponseCommitted) (packet : ShownPacket) : ShownPacket :=
  if response.id = packet.id then
    { packet with status := some response.status, elapsedMs := some response.elapsedMs.toInt }
  else packet

theorem shownRow_completed (response : ResponseCommitted) (row : PacketRow) :
    shownRow (row.told (.completed (packetCompleted response))) = shownCompleted response (shownRow row) := by
  unfold PacketRow.told shownCompleted
  show shownRow (if response.id = row.id then _ else row) = if response.id = row.id then _ else shownRow row
  split <;> rfl

/-- Marks are not among what is compared. -/
theorem shownRow_marked (pkt : PacketMarked) (row : PacketRow) : shownRow (row.told (.marked pkt)) = shownRow row := by
  show shownRow (if pkt.id = row.id then PacketListDelegate.markedRow pkt row else row) = shownRow row
  split
  · unfold PacketListDelegate.markedRow
    dsimp only
    split <;> rfl
  · rfl

theorem tellAll_marks_shown (ledger : Ledger T) (id flowKey : Str) (marks : List FlowMark) :
    (ledger.tellAll env captureFlowsDir (marks.map (markEvent id flowKey))).rows.map shownRow
      = ledger.rows.map shownRow := by
  induction marks generalizing ledger with
  | nil => rfl
  | cons mark marks ih =>
      refine (ih (ledger.tell env captureFlowsDir (markEvent id flowKey mark))).trans ?_
      show (ledger.rows.map fun row => row.told (markEvent id flowKey mark)).map shownRow = _
      rw [List.map_map]
      exact List.map_congr_left fun row _ => shownRow_marked _ row

/-- A request that is published is shown behind the others. -/
theorem tellAll_request_shown (ledger : Ledger T) (request : RequestCommitted) (time : Str) :
    (ledger.tellAll env captureFlowsDir (sinkEvents (.requestCommitted time request))).rows.map shownRow
      = ledger.rows.map shownRow ++ [shownPublished request none] := by
  refine (tellAll_marks_shown env captureFlowsDir
    (ledger.tell env captureFlowsDir (.started (packetStarted time request))) request.id request.flowKey
      request.marks).trans ?_
  exact List.map_append

/-- A response that is published is shown with its request. -/
theorem tellAll_response_shown (ledger : Ledger T) (response : ResponseCommitted) :
    (ledger.tellAll env captureFlowsDir (sinkEvents (.responseCommitted response))).rows.map shownRow
      = (ledger.rows.map shownRow).map (shownCompleted response) := by
  refine (tellAll_marks_shown env captureFlowsDir
    (ledger.tell env captureFlowsDir (.completed (packetCompleted response))) response.id response.flowKey
      response.marks).trans ?_
  show (ledger.rows.map fun row => row.told (.completed (packetCompleted response))).map shownRow = _
  rw [List.map_map, List.map_map]
  exact List.map_congr_left fun row _ => shownRow_completed response row

/-- **The ledger shows every packet as its flow has published it**, however the flows are interleaved. -/
theorem ledger_shown (timeFormatter : T) (h : SideBySide names trace) :
    ((⟨[], timeFormatter⟩ : Ledger T).tellAll env captureFlowsDir (toldBy (publishedBy rfc3999z trace))).rows.map
      shownRow = shownLive trace := by
  induction trace using List.reverseRecOn with
  | nil => rfl
  | append_singleton trace step ih =>
      have hinit := h.init
      obtain ⟨party, record⟩ := step
      have htrace := h.traces party
      rw [own_append, own_cons_self, own_nil] at htrace
      unfold publishedBy shownLive at ih ⊢
      rw [values_append, values_append, values_append, toldBy_append, Ledger.tellAll_append]
      cases record with
      | requestStored capture => simpa [values, toldBy, event?, Ledger.tellAll] using ih hinit
      | responseStored capture => simpa [values, toldBy, event?, Ledger.tellAll] using ih hinit
      | requestPublished request =>
          -- nothing was published of the flow before
          obtain ⟨capture, hown, hname⟩ := htrace.before_requestPublished
          have hid : request.id = (names party).id.toText := by
            apply h.requestPublished.keyed party request
            rw [own_append, own_cons_self, hown]
            simp
          have hnone : (values responsePublished? trace).find? (fun response => response.id = request.id) = none := by
            rw [hid, hinit.responsePublished.find?_values party, hown]
            rfl
          have htold : toldBy (values (event? rfc3999z) [(party, .requestPublished (N := N) request)])
              = sinkEvents (.requestCommitted (rfc3999z request.epochMs) request) := List.append_nil _
          have hrequest : values requestPublished? [(party, .requestPublished (N := N) request)] = [request] := rfl
          have hresponse : values responsePublished? [(party, .requestPublished (N := N) request)] = [] := rfl
          rw [htold, hrequest, hresponse, List.append_nil, tellAll_request_shown, ih hinit, List.map_append,
            List.map_singleton, hnone]
      | responsePublished response =>
          obtain ⟨capture, marks, stored, hown, hname, hid⟩ := htrace.before_responsePublished
          have hnone : (values responsePublished? trace).find? (fun other => other.id = response.id) = none := by
            rw [hid, hinit.responsePublished.find?_values party, hown]
            rfl
          have htold : toldBy (values (event? rfc3999z) [(party, .responsePublished (N := N) response)])
              = sinkEvents (.responseCommitted response) := List.append_nil _
          have hrequest : values requestPublished? [(party, .responsePublished (N := N) response)] = [] := rfl
          have hresponse : values responsePublished? [(party, .responsePublished (N := N) response)] = [response] := rfl
          rw [htold, hrequest, hresponse, List.append_nil, tellAll_response_shown, ih hinit, List.map_map]
          refine List.map_congr_left fun request _ => ?_
          show shownCompleted response (shownPublished request _) = _
          rw [List.find?_append]
          by_cases heq : response.id = request.id
          · rw [← heq, hnone]
            simp [shownCompleted, shownPublished, heq]
          · simp [shownCompleted, shownPublished, heq]

end Live

/-! ## What the tables hold -/

section Stored

variable {S P : Type} [DecidableEq P] (dispatcher : FlowDispatcher S N) (service : CaptureService)
  (rfc3999z : Int64 → Str) {names : P → FlowName} {trace : List (P × FlowRecord N)}

/-- The tables when the writer of the database has done all that the flows sent to it. -/
def tablesOf (trace : List (P × FlowRecord N)) : CaptureTables N :=
  CaptureTables.empty.storeAll (values (storeEvent? dispatcher service) trace)

/-- The packets that were stored, with what was stored of their ends. -/
def shownInTables (trace : List (P × FlowRecord N)) : List ShownPacket :=
  (values requestStored? trace).map fun request =>
    shownStored request ((values responseStored? trace).find? fun response => response.id.toText = request.id.toText)

/-- **Every row that is sent to the tables is in them**, since no id comes twice. -/
theorem tablesOf_rows (h : SideBySide names trace) :
    (tablesOf dispatcher service trace).requests.rows
        = (values requestStored? trace).map (requestRow dispatcher service)
      ∧ (tablesOf dispatcher service trace).responses.rows
        = (values responseStored? trace).map (responseRow dispatcher service) := by
  have hrequests : (values (storeEvent? dispatcher service) trace).filterMap RequestResponseEvent.request?
      = (values requestStored? trace).map (requestRow dispatcher service) := by
    unfold values
    rw [List.filterMap_filterMap, List.map_filterMap]
    congr 1
    funext ⟨party, record⟩
    cases record <;> rfl
  have hresponses : (values (storeEvent? dispatcher service) trace).filterMap RequestResponseEvent.response?
      = (values responseStored? trace).map (responseRow dispatcher service) := by
    unfold values
    rw [List.filterMap_filterMap, List.map_filterMap]
    congr 1
    funext ⟨party, record⟩
    cases record <;> rfl
  unfold tablesOf
  rw [CaptureTables.storeAll_eq, hrequests, hresponses]
  constructor
  · refine (KeyedTable.insertAll_rows ?_).trans (List.nil_append _)
    show (([] ++ _).map _).Nodup
    rw [List.nil_append, List.map_map]
    exact h.requestStored.nodup_values fun party => (h.traces party).values.requestsStored
  · refine (KeyedTable.insertAll_rows ?_).trans (List.nil_append _)
    show (([] ++ _).map _).Nodup
    rw [List.nil_append, List.map_map]
    exact h.responseStored.nodup_values fun party => (h.traces party).values.responsesStored

/-- What a row that is made of a summary shows. -/
def shownSummary (summary : PacketSummary) : ShownPacket where
  id := summary.id
  seq := summary.seq.toNat
  flowKey := summary.flowKey
  method := summary.method.getD []
  protocol := summary.protocol.getD []
  host := summary.host.getD []
  uri := summary.uri.getD []
  queryStr := summary.queryStr.getD []
  status := summary.status.map fun status => .ofBitVec (.ofInt 16 status)
  elapsedMs := summary.elapsed

theorem rowsFromSummaries_shown {T : Type} (env : TuiEnv T) (timeFormatter : T) (summaries : List PacketSummary) :
    (rowsFromSummaries env timeFormatter summaries).1.map shownRow = summaries.map shownSummary := by
  induction summaries generalizing timeFormatter with
  | nil => rfl
  | cons summary summaries ih => exact congrArg (shownSummary summary :: ·) (ih _)

theorem ofInt_toNat (status : UInt16) : (UInt16.ofBitVec (.ofInt 16 (status.toNat : Int))) = status := by
  apply UInt16.toBitVec_inj.mp
  simp

/-- The number of a flow fits into its column. -/
theorem toInt64_toNat {seq : UInt64} (h : seq.toNat < 2 ^ 63) : seq.toInt64.toInt.toNat = seq.toNat := by
  have hsmall : 2 * seq.toBitVec.toNat < 2 ^ 64 := by
    rw [UInt64.toNat_toBitVec]
    omega
  rw [← Int64.toInt_toBitVec, UInt64.toBitVec_toInt64, BitVec.toInt_eq_toNat_of_lt hsmall, UInt64.toNat_toBitVec]
  exact Int.toNat_natCast _

/-- A row of the join shows the packet as it was stored. -/
theorem shownSummary_packetSummary (request : EffectiveRequestCapture) (response : Option (EffectiveResponseCapture N))
    (hseq : request.seq.toNat < 2 ^ 63) :
    shownSummary (CaptureTables.packetSummary rfc3999z (requestRow dispatcher service request)
      (response.map (responseRow dispatcher service))) = shownStored request response := by
  have hstatus : ∀ response : EffectiveResponseCapture N,
      (UInt16.ofBitVec (.ofInt 16 (((responseRow dispatcher service response).upstreamStatus.getD
        (responseRow dispatcher service response).status).toNat : Int))) = (response.committed []).status :=
    fun response => ofInt_toNat _
  show (⟨_, request.seq.toInt64.toInt.toNat, _, _, _, _, _, _, _, _⟩ : ShownPacket) = _
  rw [toInt64_toNat hseq]
  cases response with
  | none => rfl
  | some response =>
      show (⟨_, _, _, _, _, _, _, _, some (UInt16.ofBitVec (.ofInt 16 _)), _⟩ : ShownPacket) = _
      rw [hstatus response]
      rfl

theorem toText_ne_nil (id : Uuid) : id.toText ≠ [] := by
  unfold Uuid.toText
  simp

/-- **A list that is made from the tables shows all packets that were stored.** -/
theorem viewer_shown {T : Type} (env : TuiEnv T) (captureFlowsDir : Str) (timeFormatter : T)
    (h : SideBySide names trace) (hseq : ∀ party, (names party).seq.toNat < 2 ^ 63) :
    ((packetRows (PacketListDelegate.new env .viewer captureFlowsDir timeFormatter
      ((tablesOf dispatcher service trace).selectPacketSummaries rfc3999z)).rows).map shownRow).Perm
      (shownInTables trace) := by
  obtain ⟨hrequests, hresponses⟩ := tablesOf_rows dispatcher service h
  have hperm : (((tablesOf dispatcher service trace).selectPacketSummaries rfc3999z).map shownSummary).Perm
      (shownInTables trace) := by
    refine ((List.mergeSort_perm _ _).map shownSummary).trans ?_
    rw [hrequests, List.map_map, List.map_map]
    refine List.Perm.of_eq (List.map_congr_left fun request hmem => ?_)
    obtain ⟨party, hown⟩ := mem_values.mp hmem
    have hname := (h.traces party).values.requestStored request hown
    have hfound : (tablesOf dispatcher service trace).responses.find? request.id.toText
        = ((values responseStored? trace).find? fun response => response.id.toText = request.id.toText).map
          (responseRow dispatcher service) := by
      unfold KeyedTable.find?
      rw [hresponses, List.find?_map]
      rfl
    show shownSummary (CaptureTables.packetSummary rfc3999z (requestRow dispatcher service request)
      ((tablesOf dispatcher service trace).responses.find? request.id.toText)) = _
    rw [hfound]
    apply shownSummary_packetSummary
    have hseqs := hseq party
    rwa [← hname] at hseqs
  have hids : [] ∉ ((tablesOf dispatcher service trace).selectPacketSummaries rfc3999z).map PacketSummary.id := by
    intro hmem
    obtain ⟨summary, hsummary, hid⟩ := List.mem_map.mp hmem
    have hshown : shownSummary summary ∈ shownInTables trace := hperm.subset (List.mem_map_of_mem hsummary)
    obtain ⟨request, -, heq⟩ := List.mem_map.mp hshown
    have hid' : request.id.toText = summary.id := congrArg ShownPacket.id heq
    exact toText_ne_nil request.id (hid'.trans hid)
  rw [PacketListDelegate.packetRows_new env .viewer captureFlowsDir timeFormatter hids, rowsFromSummaries_shown]
  exact hperm

end Stored

/-! ## Flow by flow -/

section FlowByFlow

variable {P : Type} [DecidableEq P] {names : P → FlowName} {trace : List (P × FlowRecord N)} {packet : ShownPacket}

theorem mem_shownInTables (h : SideBySide names trace) :
    packet ∈ shownInTables trace ↔ ∃ party, ∃ request ∈ (own party trace).filterMap requestStored?,
      packet = shownStored request ((own party trace).filterMap responseStored?).head? := by
  have hresponse : ∀ party, ∀ request ∈ (own party trace).filterMap requestStored?,
      ((values responseStored? trace).find? fun response => response.id.toText = request.id.toText)
        = ((own party trace).filterMap responseStored?).head? := by
    intro party request hown
    rw [← h.responseStored.find?_values party, ← (h.traces party).values.requestStored request hown]
    rfl
  unfold shownInTables
  rw [List.mem_map]
  constructor
  · rintro ⟨request, hmem, rfl⟩
    obtain ⟨party, hown⟩ := mem_values.mp hmem
    exact ⟨party, request, hown, by rw [hresponse party request hown]⟩
  · rintro ⟨party, request, hown, rfl⟩
    exact ⟨request, mem_values.mpr ⟨party, hown⟩, by rw [hresponse party request hown]⟩

theorem mem_shownLive (h : SideBySide names trace) :
    packet ∈ shownLive trace ↔ ∃ party, ∃ request ∈ (own party trace).filterMap requestPublished?,
      packet = shownPublished request ((own party trace).filterMap responsePublished?).head? := by
  have hresponse : ∀ party, ∀ request ∈ (own party trace).filterMap requestPublished?,
      ((values responsePublished? trace).find? fun response => response.id = request.id)
        = ((own party trace).filterMap responsePublished?).head? := by
    intro party request hown
    rw [← h.responsePublished.find?_values party, h.requestPublished.keyed party request hown]
  unfold shownLive
  rw [List.mem_map]
  constructor
  · rintro ⟨request, hmem, rfl⟩
    obtain ⟨party, hown⟩ := mem_values.mp hmem
    exact ⟨party, request, hown, by rw [hresponse party request hown]⟩
  · rintro ⟨party, request, hown, rfl⟩
    exact ⟨request, mem_values.mpr ⟨party, hown⟩, by rw [hresponse party request hown]⟩

/-- No packet is shown twice. -/
theorem nodup_shownInTables (h : SideBySide names trace) : (shownInTables trace).Nodup := by
  apply List.Nodup.of_map ShownPacket.id
  unfold shownInTables
  rw [List.map_map]
  exact h.requestStored.nodup_values fun party => (h.traces party).values.requestsStored

theorem nodup_shownLive (h : SideBySide names trace) : (shownLive trace).Nodup := by
  apply List.Nodup.of_map ShownPacket.id
  unfold shownLive
  rw [List.map_map]
  exact h.requestPublished.nodup_values fun party => (h.traces party).values.requestsPublished

/-- A flow that has published what it stored shows the same of both. -/
theorem FlowTrace.shown_iff {name : FlowName} {records : List (FlowRecord N)} (h : FlowTrace name records)
    (hall : AllPublished records) :
    (∃ request ∈ records.filterMap requestPublished?,
      packet = shownPublished request (records.filterMap responsePublished?).head?)
    ↔ ∃ request ∈ records.filterMap requestStored?,
      packet = shownStored request (records.filterMap responseStored?).head? := by
  have hone : ¬Even 1 := by decide
  have hthree : ¬Even 3 := by decide
  cases h with
  | start => simp
  | requestStored capture hname => exact absurd hall hone
  | requestPublished capture marks hname =>
      simp only [List.filterMap_cons, requestPublished?, requestStored?, responsePublished?, responseStored?,
        List.filterMap_nil, List.mem_singleton, exists_eq_left, List.head?_nil]
      exact Iff.rfl
  | responseStored capture marks hname response hresponse => exact absurd hall hthree
  | responsePublished capture marks hname response responseMarks hresponse =>
      simp only [List.filterMap_cons, requestPublished?, requestStored?, responsePublished?, responseStored?,
        List.filterMap_nil, List.mem_singleton, exists_eq_left, List.head?_cons]
      exact Iff.rfl

/-- **What is shown is what is stored**, when all flows have published what they stored. -/
theorem shownLive_perm (h : SideBySide names trace) (hall : ∀ party, AllPublished (own party trace)) :
    (shownLive trace).Perm (shownInTables trace) := by
  rw [List.perm_ext_iff_of_nodup (nodup_shownLive h) (nodup_shownInTables h)]
  intro packet
  rw [mem_shownLive h, mem_shownInTables h]
  exact exists_congr fun party => FlowTrace.shown_iff (h.traces party) (hall party)

/-! ### What is published -/

variable {rfc3999z : Int64 → Str}

/-- A published event is one of a flow. -/
theorem mem_publishedBy {event : FlowEvent} (hmem : event ∈ publishedBy rfc3999z trace) :
    (∃ party, ∃ request ∈ (own party trace).filterMap requestPublished?,
        event = .requestCommitted (rfc3999z request.epochMs) request)
      ∨ ∃ party, ∃ response ∈ (own party trace).filterMap responsePublished?, event = .responseCommitted response := by
  obtain ⟨party, hown⟩ := mem_values.mp hmem
  obtain ⟨record, hrecord, hevent⟩ := List.mem_filterMap.mp hown
  cases record with
  | requestStored capture => cases hevent
  | responseStored capture => cases hevent
  | requestPublished request =>
      cases hevent
      exact Or.inl ⟨party, request, List.mem_filterMap.mpr ⟨_, hrecord, rfl⟩, rfl⟩
  | responsePublished response =>
      cases hevent
      exact Or.inr ⟨party, response, List.mem_filterMap.mpr ⟨_, hrecord, rfl⟩, rfl⟩

/-- An event has the id and the flow key of its flow. -/
theorem name_of_mem_publishedBy (h : SideBySide names trace) {event : FlowEvent}
    (hmem : event ∈ publishedBy rfc3999z trace) :
    ∃ party, event.id = (names party).id.toText ∧ event.flowKey = (names party).flowKey := by
  rcases mem_publishedBy hmem with ⟨party, request, hown, rfl⟩ | ⟨party, response, hown, rfl⟩
  · obtain ⟨capture, hcapture, marks, rfl⟩ := (h.traces party).values.requestPublished request hown
    have hname := (h.traces party).values.requestStored capture hcapture
    exact ⟨party, by rw [← hname]; rfl, by rw [← hname]; rfl⟩
  · obtain ⟨capture, hcapture, marks, rfl⟩ := (h.traces party).values.responsePublished response hown
    have hname := (h.traces party).values.responseStored capture hcapture
    exact ⟨party, by rw [← hname]; rfl, by rw [← hname]; rfl⟩

/-- What flows publish is well named. -/
theorem wellNamed_publishedBy (h : SideBySide names trace) : WellNamed (publishedBy rfc3999z trace) where
  fresh := by
    have hids : (publishedBy rfc3999z trace).filterMap FlowEvent.newId
        = (values requestPublished? trace).map RequestCommitted.id := by
      unfold publishedBy values
      rw [List.filterMap_filterMap, List.map_filterMap]
      congr 1
      funext ⟨party, record⟩
      cases record <;> rfl
    rw [hids]
    refine ⟨?_, h.requestPublished.nodup_values fun party => (h.traces party).values.requestsPublished, ?_⟩
    · intro hmem
      obtain ⟨request, hrequest, hid⟩ := List.mem_map.mp hmem
      obtain ⟨party, hown⟩ := mem_values.mp hrequest
      rw [h.requestPublished.keyed party request hown] at hid
      exact toText_ne_nil _ hid
    · intro id _ hused
      cases hused
  keys := by
    intro event hmem event' hmem' hkey
    obtain ⟨party, hid, hflow⟩ := name_of_mem_publishedBy h hmem
    obtain ⟨party', hid', hflow'⟩ := name_of_mem_publishedBy h hmem'
    have hparty : party = party' := h.flowKeys (hflow.symm.trans (hkey.trans hflow'))
    rw [hid, hid', hparty]

/-- The packet, when its flow had not ended yet. -/
def ShownPacket.pending (packet : ShownPacket) : ShownPacket := { packet with status := none, elapsedMs := none }

/-- **A row that shows what was published shows what is stored**, or the packet before its end. -/
theorem shown_of_showsPublished (h : SideBySide names trace) {row : PacketRow}
    (hrow : ShowsPublished (publishedBy rfc3999z trace) row) :
    ∃ packet ∈ shownInTables trace, shownRow row = packet ∨ shownRow row = packet.pending := by
  rcases hrow.came with ⟨time, request, hmem, hsame⟩ | ⟨time, tunnel, hmem, -⟩
  · rcases mem_publishedBy hmem with ⟨party, request', hown, heq⟩ | ⟨_, _, _, heq⟩
    · cases heq
      obtain ⟨capture, hcapture, marks, rfl⟩ := (h.traces party).values.requestPublished request hown
      refine ⟨_, (mem_shownInTables h).mpr ⟨party, capture, hcapture, rfl⟩, ?_⟩
      have hfields : ∀ status elapsedMs, (row.status = status) → (row.elapsedMs = elapsedMs) →
          shownRow row = { shownStored (N := N) capture none with status, elapsedMs } := by
        rintro _ _ rfl rfl
        unfold shownRow
        rw [hsame.id, hsame.seq, hsame.flowKey, hsame.method, hsame.protocol, hsame.host, hsame.uri, hsame.queryStr]
        rfl
      rcases hrow.ended with ⟨hstatus, helapsed⟩ | ⟨pkt, ⟨response, hresponse, rfl⟩, hid, hstatus, helapsed⟩
      · exact Or.inr (hfields none none hstatus helapsed)
      · -- the end is that of the same flow, which has stored one response only
        rcases mem_publishedBy hresponse with ⟨_, _, _, heq⟩ | ⟨party', response', hown', heq⟩
        · cases heq
        · cases heq
          obtain ⟨stored, hstored, responseMarks, rfl⟩ := (h.traces party').values.responsePublished response hown'
          have hparty : party' = party := by
            apply h.ids
            show (names party').id.toText = (names party).id.toText
            rw [← h.responsePublished.keyed party' _ hown', ← h.requestPublished.keyed party _ hown]
            exact hid.trans hsame.id
          subst hparty
          have hhead : ((own party' trace).filterMap responseStored?).head? = some stored :=
            head?_of_mem (h.traces party').values.responsesStored hstored
          rw [hhead]
          exact Or.inl (hfields _ _ hstatus helapsed)
    · cases heq
  · rcases mem_publishedBy hmem with ⟨_, _, _, heq⟩ | ⟨_, _, _, heq⟩
    · cases heq
    · cases heq

end FlowByFlow

/-! ## Main result -/

section Main

variable {S T P : Type} [DecidableEq P] (dispatcher : FlowDispatcher S N) (service : CaptureService)
  (rfc3999z : Int64 → Str) (env : TuiEnv T) (captureFlowsDir : Str) (timeFormatter : T)

/-- Flows that run at the same time, at some time. -/
theorem sideBySide_of_runs {runs : P → FlowRun S N} {trace : List (P × FlowRecord N)}
    (hruns : ∀ party, own party trace <+: (runs party).records)
    (hids : Function.Injective fun party => (runs party).name.id.toText)
    (hkeys : Function.Injective fun party => (runs party).name.flowKey) :
    SideBySide (fun party => (runs party).name) trace where
  traces party := (runs party).flowTrace.1.front_of (hruns party)
  ids := hids
  flowKeys := hkeys

/-- **The list shows what is stored**, however flows, queues and user are interleaved: a row of the list is a packet of
    the tables, at most its end is missing. If the flows are through, every send found room and all events have arrived
    at a list that is not full, then a list made from the tables shows the same packets. -/
theorem list_agrees_with_tables (runs : P → FlowRun S N) (trace : List (P × FlowRecord N))
    (hruns : ∀ party, own party trace <+: (runs party).records)
    (hids : Function.Injective fun party => (runs party).name.id.toText)
    (hkeys : Function.Injective fun party => (runs party).name.flowKey)
    (hseq : ∀ party, (runs party).name.seq.toNat < 2 ^ 63) (steps : List PathStep)
    (hsteps : steps.flatMap PathStep.published = publishedBy rfc3999z trace) :
    let start := EventPath.start (emptyList env captureFlowsDir timeFormatter)
    let path := start.runFrom env steps
    let summaries := (tablesOf dispatcher service trace).selectPacketSummaries rfc3999z
    let viewer := PacketListDelegate.new env .viewer captureFlowsDir timeFormatter summaries
    (∀ row ∈ packetRows path.list.rows, ∃ row' ∈ packetRows viewer.rows,
      shownRow row = shownRow row' ∨ shownRow row = (shownRow row').pending)
    ∧ ((∀ party, own party trace = (runs party).records) →
        (∀ front next rest, steps = front ++ next :: rest → (start.runFrom env front).FindsRoom next) →
        path.inTransit = [] → path.list.rows.length ≤ PacketListDelegate.rowsLeft →
        ((packetRows path.list.rows).map shownRow).Perm ((packetRows viewer.rows).map shownRow)) := by
  intro start path summaries viewer
  have h := sideBySide_of_runs hruns hids hkeys
  have hviewer := viewer_shown dispatcher service rfc3999z env captureFlowsDir timeFormatter h hseq
  have hnamed : WellNamed (steps.flatMap PathStep.published) := hsteps ▸ wellNamed_publishedBy h
  constructor
  · intro row hmem
    have hshows := row_showsPublished env captureFlowsDir timeFormatter hnamed hmem
    rw [hsteps] at hshows
    obtain ⟨packet, hpacket, hshown⟩ := shown_of_showsPublished h hshows
    obtain ⟨row', hrow', rfl⟩ := List.mem_map.mp (hviewer.symm.subset hpacket)
    exact ⟨row', hrow', hshown⟩
  · intro hthrough hroom harrived hlength
    have hall : ∀ party, AllPublished (own party trace) := by
      intro party
      rw [hthrough party]
      exact (runs party).flowTrace.2
    have hrows := packetRows_of_arrived env captureFlowsDir timeFormatter hnamed hroom harrived hlength
    rw [hsteps] at hrows
    rw [hrows, ledger_shown env captureFlowsDir rfc3999z timeFormatter h]
    exact (shownLive_perm h hall).trans hviewer.symm

end Main

/-- The flow of the download, whose client reads it to its end. -/
def downloadFlow : FlowRun FilterRuntimeState Int where
  dispatcher := plainDispatcher
  req := hostedRequest
  state := idleFlow idleFilters
  fresh := rfl
  events := [.poll, .poll, .drop, .runTask]
  run := _
  reaches := rfl

/-- A second download, whose client has not polled yet. -/
def waitingFlow : FlowRun FilterRuntimeState Int where
  dispatcher := plainDispatcher
  req := hostedRequest
  state := { idleFlow idleFilters with seq := 1, uuids := fun _ => ⟨2⟩ }
  fresh := rfl
  events := []
  run := _
  reaches := rfl

/-- Both at the same time: the second one comes when the request of the first one is stored and not yet published. -/
def downloadTrace : List (Bool × FlowRecord Int) :=
  (downloadFlow.records.take 1).map (Prod.mk false) ++ waitingFlow.records.map (Prod.mk true)
    ++ (downloadFlow.records.drop 1).map (Prod.mk false)

/-- The list polls the second request before the first one is published. -/
def downloadSteps : List PathStep :=
  ((publishedBy (fun _ => []) downloadTrace).take 1).map PathStep.publish ++ [.dispatch, .send, .receive]
    ++ ((publishedBy (fun _ => []) downloadTrace).drop 1).map PathStep.publish
    ++ [.dispatch, .send, .dispatch, .receive, .send, .receive]

/-- The list has both requests and the end of the first one, and so have the tables. -/
theorem list_agrees_with_tables_download :
    let path := (EventPath.start (emptyList PacketListDelegate.rawTimes [] ())).runFrom PacketListDelegate.rawTimes
      downloadSteps
    let viewer := PacketListDelegate.new PacketListDelegate.rawTimes .viewer [] ()
      ((tablesOf plainDispatcher ⟨none, []⟩ downloadTrace).selectPacketSummaries fun _ => [])
    (packetRows path.list.rows).map (fun row => (row.seq, row.status)) = [(2, none), (1, some 200)]
    ∧ ((packetRows path.list.rows).map shownRow).Perm ((packetRows viewer.rows).map shownRow) := by
  intro path viewer
  have hown : ∀ party, own party downloadTrace = (bif party then waitingFlow else downloadFlow).records := by
    intro party
    rw [downloadTrace, own_append, own_append, own_map_mk, own_map_mk, own_map_mk]
    cases party with
    | false => exact (congrArg (· ++ _) (List.append_nil _)).trans (List.take_append_drop 1 _)
    | true => exact List.append_nil _
  have hsteps : downloadSteps.flatMap PathStep.published = publishedBy (fun _ => []) downloadTrace := by
    have hpublish : ∀ events : List FlowEvent, (events.map PathStep.publish).flatMap PathStep.published = events := by
      intro events
      simp [List.flatMap_map, PathStep.published]
    rw [downloadSteps, List.flatMap_append, List.flatMap_append, List.flatMap_append, hpublish, hpublish]
    show List.take 1 _ ++ [] ++ List.drop 1 _ ++ [] = _
    rw [List.append_nil, List.append_nil, List.take_append_drop]
  have hagrees := (list_agrees_with_tables plainDispatcher ⟨none, []⟩ (fun _ => []) PacketListDelegate.rawTimes [] ()
    (fun party => bif party then waitingFlow else downloadFlow) downloadTrace
    (fun party => hown party ▸ List.prefix_rfl) (by decide +kernel) (by decide +kernel) (by decide +kernel) downloadSteps hsteps).2 hown
  have hfew : (toldBy (downloadSteps.flatMap PathStep.published)).length ≤ tuiEventBuffer := by decide +kernel
  have harrived : path.inTransit = [] := List.length_eq_zero_iff.mp (by decide +kernel)
  exact ⟨by decide +kernel,
    hagrees (findsRoom_of_few PacketListDelegate.rawTimes _ hfew) harrived (by decide +kernel)⟩

end Inspect.Mitm
