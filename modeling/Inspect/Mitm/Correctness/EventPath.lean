import Inspect.Lib.Run
import Inspect.Mitm.EventPath
import Inspect.Tui.Correctness.PacketHistory

/-!
# `Mitm.Correctness.EventPath` — what of the events of the flows reaches the packet list

Between a flow and the list an event is in a queue, in the hands of the sink, or in the next queue. What a step takes
from one place it puts in the next one, unless there is no room; so what the list was told and what is on the way are
together, in this order, a subsequence of what was published, and nothing is missing exactly if every send found room.
-/

namespace Inspect.Mitm

open Inspect.Flow Inspect.Tui
open Inspect.Tui.PacketListDelegate (Step WindowOn packetRows MarksNamed FreshIds)

/-- The packet events of published events. -/
def toldBy (published : List FlowEvent) : List PacketEvent := published.flatMap sinkEvents

theorem sinkEvents_ne_nil (event : FlowEvent) : sinkEvents event ≠ [] := by
  cases event <;> exact List.cons_ne_nil _ _

/-- Every event is told of. -/
theorem length_le_toldBy (published : List FlowEvent) : published.length ≤ (toldBy published).length := by
  induction published with
  | nil => exact Nat.le_refl 0
  | cons event published ih =>
      have hpos := List.length_pos_iff.mpr (sinkEvents_ne_nil event)
      rw [toldBy, List.flatMap_cons, List.length_append, ← toldBy, List.length_cons]
      omega

theorem toldBy_append (front rest : List FlowEvent) : toldBy (front ++ rest) = toldBy front ++ toldBy rest :=
  List.flatMap_append

/-- The event that a step publishes. -/
def PathStep.published : PathStep → List FlowEvent
  | .publish event => [event]
  | _ => []

namespace EventPath

variable {T : Type} {env : TuiEnv T} {path : EventPath T}

/-- What happens to the list in a step of the path. -/
def listSteps (path : EventPath T) : PathStep → List Step
  | .receive => path.packetEvents.tryRecv.toList.map fun received => .event received.1
  | .view next => [next.1]
  | _ => []

/-- The packet events on the way, the next one first. -/
def inTransit (path : EventPath T) : List PacketEvent :=
  path.packetEvents.queue ++ path.sending ++ toldBy path.flowEvents.queue

/-- A step that sends something finds room for it. -/
def FindsRoom (path : EventPath T) : PathStep → Prop
  | .publish _ => path.flowEvents.HasRoom
  | .send => path.sending = [] ∨ path.packetEvents.HasRoom
  | _ => True

/-! ## One step -/

theorem step_list (next : PathStep) :
    (path.step env next).list = PacketListDelegate.runFrom env path.list (path.listSteps next) := by
  cases next with
  | publish event => rfl
  | dispatch =>
      show (step env path .dispatch).list = path.list
      unfold step
      dsimp only
      split <;> rfl
  | send =>
      show (step env path .send).list = path.list
      unfold step
      dsimp only
      split <;> rfl
  | receive =>
      unfold step listSteps
      cases path.packetEvents.tryRecv <;> rfl
  | view next => rfl

variable (env) in
/-- **What a step of the path does to the events**: they go on in their order, and nothing is lost exactly if the step
    finds room. -/
theorem step_carries (next : PathStep) :
    ((path.listSteps next).filterMap Step.packetEvent ++ (path.step env next).inTransit).Sublist
        (path.inTransit ++ toldBy next.published)
    ∧ ((path.listSteps next).filterMap Step.packetEvent ++ (path.step env next).inTransit
        = path.inTransit ++ toldBy next.published ↔ path.FindsRoom next) := by
  have hsame : ∀ {told told' : List PacketEvent}, told = told' → told.Sublist told' ∧ (told = told' ↔ True) := by
    rintro told _ rfl
    exact ⟨List.Sublist.refl _, iff_of_true rfl trivial⟩
  cases next with
  | publish event =>
      show (path.packetEvents.queue ++ path.sending ++ toldBy (path.flowEvents.trySend event).queue).Sublist _
        ∧ (path.packetEvents.queue ++ path.sending ++ toldBy (path.flowEvents.trySend event).queue = _ ↔ _)
      have htold : path.inTransit ++ toldBy (PathStep.publish event).published
          = path.packetEvents.queue ++ path.sending ++ toldBy (path.flowEvents.queue ++ [event]) := by
        rw [toldBy_append, ← List.append_assoc]
        rfl
      rw [htold]
      constructor
      · apply List.Sublist.append_left
        exact (path.flowEvents.trySend_sublist event).flatMap sinkEvents
      · show _ ↔ path.flowEvents.HasRoom
        rw [List.append_cancel_left_eq, ← path.flowEvents.trySend_eq_iff event, Channel.trySend_queue]
        split
        · simp
        · -- an event without packet events would not be missed
          simp [toldBy, sinkEvents_ne_nil]
  | dispatch =>
      apply hsame
      show (step env path .dispatch).inTransit = path.inTransit ++ []
      rw [List.append_nil]
      unfold step
      dsimp only
      split
      · rename_i event flowEvents hsending hrecv
        obtain ⟨hqueue, -⟩ := Channel.tryRecv_eq_some hrecv
        unfold inTransit
        rw [hsending, hqueue, toldBy, toldBy, List.flatMap_cons, List.append_nil, List.append_assoc]
      · rfl
  | send =>
      show (step env path .send).inTransit.Sublist (path.inTransit ++ []) ∧ ((step env path .send).inTransit
        = path.inTransit ++ [] ↔ (path.sending = [] ∨ path.packetEvents.HasRoom))
      rw [List.append_nil]
      unfold step inTransit
      cases hsending : path.sending with
      | nil => simp [hsending]
      | cons event sending =>
          have htransit : path.packetEvents.queue ++ event :: sending ++ toldBy path.flowEvents.queue
              = path.packetEvents.queue ++ [event] ++ (sending ++ toldBy path.flowEvents.queue) := by simp
          dsimp only
          rw [htransit, List.append_assoc]
          constructor
          · exact (path.packetEvents.trySend_sublist event).append_right _
          · rw [List.append_cancel_right_eq, path.packetEvents.trySend_eq_iff event]
            simp
  | receive =>
      apply hsame
      show (path.listSteps .receive).filterMap Step.packetEvent ++ (step env path .receive).inTransit
        = path.inTransit ++ []
      rw [List.append_nil]
      unfold listSteps step
      cases hrecv : path.packetEvents.tryRecv with
      | none => rfl
      | some received =>
          obtain ⟨event, packetEvents⟩ := received
          obtain ⟨hqueue, -⟩ := Channel.tryRecv_eq_some hrecv
          simp [inTransit, hqueue, Step.packetEvent]
  | view next =>
      apply hsame
      show [next.1].filterMap Step.packetEvent ++ path.inTransit = path.inTransit ++ []
      have hnone : next.1.packetEvent = none := by
        obtain ⟨next, huser⟩ := next
        cases next with
        | event event => exact absurd rfl (huser event)
        | _ => rfl
      simp [hnone]

variable (env) in
theorem step_capacity (next : PathStep) :
    (path.step env next).flowEvents.capacity = path.flowEvents.capacity
      ∧ (path.step env next).packetEvents.capacity = path.packetEvents.capacity := by
  cases next with
  | publish event => exact ⟨path.flowEvents.trySend_capacity event, rfl⟩
  | dispatch =>
      show (step env path .dispatch).flowEvents.capacity = _ ∧ (step env path .dispatch).packetEvents.capacity = _
      unfold step
      dsimp only
      split
      · rename_i hrecv
        exact ⟨(Channel.tryRecv_eq_some hrecv).2, rfl⟩
      · exact ⟨rfl, rfl⟩
  | send =>
      show (step env path .send).flowEvents.capacity = _ ∧ (step env path .send).packetEvents.capacity = _
      unfold step
      dsimp only
      split
      · exact ⟨rfl, rfl⟩
      · exact ⟨rfl, path.packetEvents.trySend_capacity _⟩
  | receive =>
      unfold step
      cases hrecv : path.packetEvents.tryRecv with
      | none => exact ⟨rfl, rfl⟩
      | some received => exact ⟨rfl, (Channel.tryRecv_eq_some hrecv).2⟩
  | view next => exact ⟨rfl, rfl⟩

variable (env) in
theorem runFrom_capacity (path : EventPath T) (steps : List PathStep) :
    (path.runFrom env steps).flowEvents.capacity = path.flowEvents.capacity
      ∧ (path.runFrom env steps).packetEvents.capacity = path.packetEvents.capacity := by
  induction steps generalizing path with
  | nil => exact ⟨rfl, rfl⟩
  | cons next steps ih =>
      obtain ⟨hflow, hpacket⟩ := ih (path.step env next)
      exact ⟨hflow.trans (path.step_capacity env next).1, hpacket.trans (path.step_capacity env next).2⟩

end EventPath

/-! ## Runs -/

/-- A path, with what was published on it and what happened to its list. -/
structure PathHistory (T : Type) where
  path : EventPath T
  published : List FlowEvent
  listSteps : List Step

namespace PathHistory

variable {T : Type} (env : TuiEnv T)

def start (list : PacketListDelegate T) : PathHistory T := ⟨EventPath.start list, [], []⟩

def step (history : PathHistory T) (next : PathStep) : PathHistory T where
  path := history.path.step env next
  published := history.published ++ next.published
  listSteps := history.listSteps ++ history.path.listSteps next

def runFrom (history : PathHistory T) (steps : List PathStep) : PathHistory T := steps.foldl (step env) history

/-- The events that the list was told. -/
def received (history : PathHistory T) : List PacketEvent := history.listSteps.filterMap Step.packetEvent

/-- What was published was told to the list, or it is on the way. -/
def NothingLost (history : PathHistory T) : Prop :=
  history.received ++ history.path.inTransit = toldBy history.published

theorem received_step (history : PathHistory T) (next : PathStep) :
    (history.step env next).received
      = history.received ++ (history.path.listSteps next).filterMap Step.packetEvent := List.filterMap_append

/-- **A history is that of the run**: it has the path of the run, and the list of the path has gone through its steps. -/
theorem runFrom_path (history : PathHistory T) (steps : List PathStep) :
    (history.runFrom env steps).path = history.path.runFrom env steps
      ∧ (history.runFrom env steps).published = history.published ++ steps.flatMap PathStep.published := by
  induction steps generalizing history with
  | nil => exact ⟨rfl, (List.append_nil _).symm⟩
  | cons next steps ih =>
      obtain ⟨hpath, hpublished⟩ := ih (history.step env next)
      refine ⟨hpath, hpublished.trans ?_⟩
      rw [List.flatMap_cons, ← List.append_assoc]
      rfl

theorem runFrom_start (list : PacketListDelegate T) (steps : List PathStep) :
    (runFrom env (.start list) steps).path = (EventPath.start list).runFrom env steps
      ∧ (runFrom env (.start list) steps).published = steps.flatMap PathStep.published := runFrom_path env _ steps

/-- The list went through its steps, and of what was published it was told a part, in order. -/
structure Follows (list : PacketListDelegate T) (history : PathHistory T) : Prop where
  list : history.path.list = PacketListDelegate.runFrom env list history.listSteps
  carried : (history.received ++ history.path.inTransit).Sublist (toldBy history.published)

variable {env} {list : PacketListDelegate T} {history : PathHistory T}

theorem Follows.step (h : Follows env list history) (next : PathStep) :
    Follows env list (history.step env next) where
  list := by
    show (history.path.step env next).list = _
    rw [EventPath.step_list, h.list]
    exact (List.foldl_append ..).symm
  carried := by
    rw [received_step, List.append_assoc]
    refine ((EventPath.step_carries env next).1.append_left history.received).trans ?_
    show List.Sublist _ (toldBy (history.published ++ next.published))
    rw [← List.append_assoc, toldBy_append]
    exact h.carried.append_right _

theorem Follows.runFrom (h : Follows env list history) (steps : List PathStep) :
    Follows env list (history.runFrom env steps) := by
  induction steps generalizing history with
  | nil => exact h
  | cons next steps ih => exact ih (h.step next)

variable (env) in
/-- A step loses nothing exactly if it finds room. -/
theorem nothingLost_step_iff (history : PathHistory T) (next : PathStep) (h : history.NothingLost) :
    (history.step env next).NothingLost ↔ history.path.FindsRoom next := by
  rw [← (EventPath.step_carries env next).2]
  show (history.step env next).received ++ (history.path.step env next).inTransit
    = toldBy (history.published ++ next.published) ↔ _
  rw [received_step, toldBy_append, ← show _ = toldBy history.published from h, List.append_assoc, List.append_assoc,
    List.append_cancel_left_eq]

end PathHistory

/-! ## Main results -/

section Main

variable {T : Type} (env : TuiEnv T) (list : PacketListDelegate T)

/-- **What was published reaches the list in its order, and nothing of it is lost exactly if every send found room**,
    whatever order the steps of the flows, the dispatcher, the sink and the user come in. -/
theorem events_reach_list (steps : List PathStep) :
    let history := PathHistory.runFrom env (.start list) steps
    history.path = (EventPath.start list).runFrom env steps
    ∧ history.published = steps.flatMap PathStep.published
    ∧ history.path.list = PacketListDelegate.runFrom env list history.listSteps
    ∧ (history.received ++ history.path.inTransit).Sublist (toldBy history.published)
    ∧ ((∀ front, front <+: steps → (PathHistory.runFrom env (.start list) front).NothingLost)
      ↔ ∀ front next rest, steps = front ++ next :: rest →
          ((EventPath.start list).runFrom env front).FindsRoom next) := by
  intro history
  have hstart : PathHistory.Follows env list (.start list) := ⟨rfl, List.Sublist.refl _⟩
  have hfollows := hstart.runFrom steps
  obtain ⟨hpath, hpublished⟩ := PathHistory.runFrom_start env list steps
  refine ⟨hpath, hpublished, hfollows.list, hfollows.carried, ?_⟩
  have hlost : (PathHistory.start list).NothingLost := rfl
  have hiff := Run.throughout_iff (PathHistory.nothingLost_step_iff env) hlost steps
  refine hiff.trans ?_
  have hroom : ∀ front, (front.foldl (PathHistory.step env) (.start list)).path
      = (EventPath.start list).runFrom env front :=
    fun front => (PathHistory.runFrom_start env list front).1
  simp only [hroom]

/-- **Every send finds room as long as no more was told than a queue holds.** -/
theorem findsRoom_of_few {steps : List PathStep}
    (hfew : (toldBy (steps.flatMap PathStep.published)).length ≤ tuiEventBuffer) :
    ∀ front next rest, steps = front ++ next :: rest →
      ((EventPath.start list).runFrom env front).FindsRoom next := by
  intro front next rest hsplit
  obtain ⟨hpath, hpublished⟩ := PathHistory.runFrom_start env list front
  have hstart : PathHistory.Follows env list (.start list) := ⟨rfl, List.Sublist.refl _⟩
  have hlength := (hstart.runFrom front).carried.length_le
  rw [hpath, hpublished, List.length_append] at hlength
  have htransit : ((EventPath.start list).runFrom env front).packetEvents.queue.length
      + ((EventPath.start list).runFrom env front).sending.length
      + ((EventPath.start list).runFrom env front).flowEvents.queue.length
      ≤ (toldBy (front.flatMap PathStep.published)).length := by
    have hqueue := length_le_toldBy ((EventPath.start list).runFrom env front).flowEvents.queue
    rw [EventPath.inTransit, List.length_append, List.length_append] at hlength
    omega
  rw [hsplit, List.flatMap_append, List.flatMap_cons, toldBy_append, toldBy_append, List.length_append,
    List.length_append] at hfew
  obtain ⟨hflow, hpacket⟩ := EventPath.runFrom_capacity env (EventPath.start list) front
  cases next with
  | publish event =>
      have hpos := length_le_toldBy (PathStep.publish event).published
      show _ < _
      rw [hflow]
      show _ < tuiEventBuffer
      simp only [PathStep.published, List.length_singleton] at hpos hfew
      omega
  | send =>
      cases hsending : ((EventPath.start list).runFrom env front).sending with
      | nil => exact Or.inl hsending
      | cons event sending =>
          right
          show _ < _
          rw [hpacket]
          show _ < tuiEventBuffer
          rw [hsending, List.length_cons] at htransit
          omega
  | dispatch => trivial
  | receive => trivial
  | view next => trivial

end Main

/-! ## What the rows show -/

namespace FlowEvent

def id : FlowEvent → Str
  | .requestCommitted _ event => event.id
  | .responseCommitted event => event.id
  | .tunnelFailed _ event => event.id

def flowKey : FlowEvent → Str
  | .requestCommitted _ event => event.flowKey
  | .responseCommitted event => event.flowKey
  | .tunnelFailed _ event => event.flowKey

def marks : FlowEvent → List FlowMark
  | .requestCommitted _ event => event.marks
  | .responseCommitted event => event.marks
  | .tunnelFailed _ event => event.marks

/-- The id of a packet that comes. -/
def newId : FlowEvent → Option Str
  | .requestCommitted _ event => some event.id
  | .tunnelFailed _ event => some event.id
  | .responseCommitted _ => none

end FlowEvent

/-- The ids and the flow keys of published events belong together. -/
structure WellNamed (published : List FlowEvent) : Prop where
  fresh : FreshIds [] (published.filterMap FlowEvent.newId)
  keys : ∀ event ∈ published, ∀ event' ∈ published, event.flowKey = event'.flowKey → event.id = event'.id

/-- All that a row shows was published of its packet. -/
structure ShowsPublished (published : List FlowEvent) (row : PacketRow) : Prop where
  came : (∃ time event, .requestCommitted time event ∈ published
      ∧ Ledger.SamePacket row (PacketListDelegate.startedRow (packetStarted time event) []))
    ∨ ∃ time event, .tunnelFailed time event ∈ published
      ∧ Ledger.SamePacket row (PacketListDelegate.tunnelFailedRow (packetTunnelFailed time event) [] [])
  ended : Ledger.Ended (fun pkt => ∃ event, .responseCommitted event ∈ published ∧ pkt = packetCompleted event) row
  marks : ∀ mark ∈ row.marks,
    (mark = tlsFailedMark ∧ ∃ time event, .tunnelFailed time event ∈ published ∧ event.id = row.id ∧ event.marks = [])
    ∨ ∃ event ∈ published, event.id = row.id ∧ ∃ flowMark ∈ event.marks, mark = packetEventMark flowMark

section Shows

variable {published : List FlowEvent} {event : PacketEvent}

theorem toldBy_newIds (published : List FlowEvent) :
    (toldBy published).filterMap PacketEvent.newId = published.filterMap FlowEvent.newId := by
  have hmarks : ∀ (id flowKey : Str) (marks : List FlowMark),
      (marks.map (markEvent id flowKey)).filterMap PacketEvent.newId = [] := by
    intro id flowKey marks
    simp [markEvent, PacketEvent.newId]
  induction published with
  | nil => rfl
  | cons first published ih =>
      rw [toldBy, List.flatMap_cons, List.filterMap_append, ← toldBy, ih]
      rw [PacketListDelegate.filterMap_cons_toList FlowEvent.newId]
      congr 1
      cases first with
      | requestCommitted time request => rw [sinkEvents, PacketListDelegate.filterMap_cons_toList, hmarks]; rfl
      | responseCommitted response => rw [sinkEvents, PacketListDelegate.filterMap_cons_toList, hmarks]; rfl
      | tunnelFailed time tunnel => rfl

/-- The event that a packet event was told of. -/
theorem mem_toldBy (h : event ∈ toldBy published) :
    (∃ time request, event = .started (packetStarted time request) ∧ .requestCommitted time request ∈ published)
      ∨ (∃ time tunnel, event = .tunnelFailed (packetTunnelFailed time tunnel)
        ∧ .tunnelFailed time tunnel ∈ published)
      ∨ (∃ response, event = .completed (packetCompleted response) ∧ .responseCommitted response ∈ published)
      ∨ ∃ source ∈ published, ∃ mark ∈ source.marks, event = markEvent source.id source.flowKey mark := by
  obtain ⟨source, hsource, hmem⟩ := List.mem_flatMap.mp h
  cases source with
  | requestCommitted time request =>
      rcases List.mem_cons.mp hmem with rfl | hmark
      · exact Or.inl ⟨time, request, rfl, hsource⟩
      · obtain ⟨flowMark, hflow, rfl⟩ := List.mem_map.mp hmark
        exact Or.inr (Or.inr (Or.inr ⟨_, hsource, flowMark, hflow, rfl⟩))
  | responseCommitted response =>
      rcases List.mem_cons.mp hmem with rfl | hmark
      · exact Or.inr (Or.inr (Or.inl ⟨response, rfl, hsource⟩))
      · obtain ⟨flowMark, hflow, rfl⟩ := List.mem_map.mp hmark
        exact Or.inr (Or.inr (Or.inr ⟨_, hsource, flowMark, hflow, rfl⟩))
  | tunnelFailed time tunnel =>
      exact Or.inr (Or.inl ⟨time, tunnel, List.mem_singleton.mp hmem, hsource⟩)

/-- The name of a packet that is told of was published. -/
theorem newName_toldBy {name : Str × Str} (h : event ∈ toldBy published) (hname : event.newName = some name) :
    ∃ source ∈ published, name = (source.id, source.flowKey) := by
  rcases mem_toldBy h with ⟨time, request, rfl, hmem⟩ | ⟨time, tunnel, rfl, hmem⟩ | ⟨response, rfl, -⟩
    | ⟨source, hmem, mark, -, rfl⟩
  · exact ⟨_, hmem, (Option.some.inj hname).symm⟩
  · exact ⟨_, hmem, (Option.some.inj hname).symm⟩
  · cases hname
  · cases hname

/-- A row that was told a part of what was published shows nothing else. -/
theorem showsPublished {captureFlowsDir : Str} {rest : List PacketEvent} {row₀ : PacketRow}
    (hevent : event ∈ toldBy published) (hrest : ∀ event ∈ rest, event ∈ toldBy published)
    (hnew : Ledger.NewRow captureFlowsDir event row₀) : ShowsPublished published (row₀.toldAll rest) := by
  have hsame := Ledger.samePacket_toldAll row₀ rest
  have hstatus : row₀.status = none ∧ row₀.elapsedMs = none := by
    cases event with
    | started pkt =>
        obtain ⟨displayTime, rfl⟩ := hnew
        exact ⟨rfl, rfl⟩
    | tunnelFailed pkt =>
        obtain ⟨displayTime, rfl⟩ := hnew
        exact ⟨rfl, rfl⟩
    | completed pkt => exact hnew.elim
    | marked pkt => exact hnew.elim
  constructor
  · rcases mem_toldBy hevent with ⟨time, request, rfl, hsource⟩ | ⟨time, tunnel, rfl, hsource⟩ | ⟨response, rfl, -⟩
      | ⟨source, -, mark, -, rfl⟩
    · obtain ⟨displayTime, rfl⟩ := hnew
      exact Or.inl ⟨time, request, hsource, hsame.trans ⟨rfl, rfl, rfl, rfl, rfl, rfl, rfl, rfl⟩⟩
    · obtain ⟨displayTime, rfl⟩ := hnew
      exact Or.inr ⟨time, tunnel, hsource, hsame.trans ⟨rfl, rfl, rfl, rfl, rfl, rfl, rfl, rfl⟩⟩
    · exact hnew.elim
    · exact hnew.elim
  · refine (Ledger.toldAll_ended hstatus.1 hstatus.2).mono fun pkt hpkt => ?_
    rcases mem_toldBy (hrest _ hpkt) with ⟨_, _, hother, -⟩ | ⟨_, _, hother, -⟩ | ⟨response, hresponse, hsource⟩
      | ⟨_, -, _, -, hother⟩
    · cases hother
    · cases hother
    · cases hresponse
      exact ⟨response, hsource, rfl⟩
    · cases hother
  · intro mark hmark
    rcases Ledger.toldAll_marks hmark with hrow | ⟨pkt, hpkt, hid, rfl⟩
    · -- only a tunnel comes with marks
      cases event with
      | started pkt =>
          obtain ⟨displayTime, rfl⟩ := hnew
          cases hrow
      | tunnelFailed pkt =>
          obtain ⟨displayTime, rfl⟩ := hnew
          rcases mem_toldBy hevent with ⟨_, _, hother, -⟩ | ⟨time, tunnel, htunnel, hsource⟩ | ⟨_, hother, -⟩
            | ⟨_, -, _, -, hother⟩
          · cases hother
          · cases htunnel
            have hmarks : mark ∈ if (packetTunnelFailed time tunnel).marks = [] then [tlsFailedMark]
                else (packetTunnelFailed time tunnel).marks := hrow
            split at hmarks
            · rename_i hnone
              refine Or.inl ⟨List.mem_singleton.mp hmarks, time, tunnel, hsource, hsame.id.symm, ?_⟩
              exact List.map_eq_nil_iff.mp hnone
            · obtain ⟨flowMark, hflow, rfl⟩ := List.mem_map.mp hmarks
              exact Or.inr ⟨_, hsource, hsame.id.symm, flowMark, hflow, rfl⟩
          · cases hother
          · cases hother
      | completed pkt => exact hnew.elim
      | marked pkt => exact hnew.elim
    · rcases mem_toldBy (hrest _ hpkt) with ⟨_, _, hother, -⟩ | ⟨_, _, hother, -⟩ | ⟨_, hother, -⟩
        | ⟨source, hsource, flowMark, hflow, hmarked⟩
      · cases hother
      · cases hother
      · cases hother
      · cases hmarked
        exact Or.inr ⟨source, hsource, hid.trans hsame.id.symm, flowMark, hflow, rfl⟩

/-! ### Names -/

theorem FreshIds.sublist {used new new' : List Str} (h : FreshIds used new) (hsub : new'.Sublist new) :
    FreshIds used new' :=
  ⟨fun hmem => h.nonempty (hsub.subset hmem), h.nodup.sublist hsub, fun id hmem => h.fresh id (hsub.subset hmem)⟩

/-- A part of what was told is well named. -/
theorem WellNamed.received {events : List PacketEvent} (h : WellNamed published)
    (hsub : events.Sublist (toldBy published)) :
    FreshIds [] (events.filterMap PacketEvent.newId)
      ∧ MarksNamed (events.filterMap PacketEvent.newName) events := by
  constructor
  · refine FreshIds.sublist h.fresh ?_
    rw [← toldBy_newIds]
    exact hsub.filterMap _
  · intro pkt hmark name hmem hkey
    obtain ⟨event, hevent, hname⟩ := List.mem_filterMap.mp hmem
    obtain ⟨source, hsource, rfl⟩ := newName_toldBy (hsub.subset hevent) hname
    rcases mem_toldBy (hsub.subset hmark) with ⟨_, _, hother, -⟩ | ⟨_, _, hother, -⟩ | ⟨_, hother, -⟩
      | ⟨source', hsource', mark, -, hmarked⟩
    · cases hother
    · cases hother
    · cases hother
    · cases hmarked
      exact h.keys source hsource source' hsource' hkey

end Shows

/-! ### The list at the end of the path -/

section Rows

variable {T : Type} (env : TuiEnv T) (captureFlowsDir : Str) (timeFormatter : T)

/-- The list that the program starts with. -/
def emptyList : PacketListDelegate T := PacketListDelegate.new env .capture captureFlowsDir timeFormatter []

/-- The packets of the list are a window on the ledger of what it was told. -/
theorem windowOn_received {steps : List PathStep} (hnamed : WellNamed (steps.flatMap PathStep.published)) :
    let history := PathHistory.runFrom env (.start (emptyList env captureFlowsDir timeFormatter)) steps
    history.received.Sublist (toldBy (steps.flatMap PathStep.published))
    ∧ WindowOn captureFlowsDir ((⟨[], timeFormatter⟩ : Ledger T).tellAll env captureFlowsDir history.received)
        ((EventPath.start (emptyList env captureFlowsDir timeFormatter)).runFrom env steps).list := by
  intro history
  have hstart : PathHistory.Follows env (emptyList env captureFlowsDir timeFormatter)
      (.start (emptyList env captureFlowsDir timeFormatter)) := ⟨rfl, List.Sublist.refl _⟩
  have hfollows := hstart.runFrom steps
  obtain ⟨hpath, hpublished⟩ :=
    PathHistory.runFrom_start env (emptyList env captureFlowsDir timeFormatter) steps
  have hsub : history.received.Sublist (toldBy (steps.flatMap PathStep.published)) := by
    have hcarried := hfollows.carried
    rw [hpublished] at hcarried
    exact (List.sublist_append_left _ _).trans hcarried
  obtain ⟨hfresh, hmarks⟩ := hnamed.received hsub
  refine ⟨hsub, ?_⟩
  rw [← hpath, hfollows.list]
  refine (PacketListDelegate.windowOn_new env .capture captureFlowsDir timeFormatter List.not_mem_nil).runFrom env
    (PacketListDelegate.wellIndexed_new env .capture captureFlowsDir timeFormatter [] (by simp [UniqueIds]))
    ?_ ?_ ?_ hmarks
  · intro row hmem
    cases hmem
  · have hids : history.listSteps.filterMap Step.newId = history.received.filterMap PacketEvent.newId := by
      unfold PathHistory.received
      rw [List.filterMap_filterMap]
      congr 1
      funext next
      cases next <;> rfl
    exact hids ▸ hfresh
  · intro event hmem name hname
    exact List.mem_filterMap.mpr ⟨event, hmem, hname⟩

/-- A row of the list shows what was published of its packet. -/
theorem row_showsPublished {steps : List PathStep} (hnamed : WellNamed (steps.flatMap PathStep.published))
    {row : PacketRow} (hmem : row ∈ packetRows
      ((EventPath.start (emptyList env captureFlowsDir timeFormatter)).runFrom env steps).list.rows) :
    ShowsPublished (steps.flatMap PathStep.published) row := by
  obtain ⟨hsub, hwindow⟩ := windowOn_received env captureFlowsDir timeFormatter hnamed
  rcases Ledger.mem_tellAll env (hwindow.suffix.subset hmem) with ⟨row₀, hnone, -⟩ | ⟨front, event, rest, row₀, hsplit,
    hnew, rfl⟩
  · cases hnone
  · have htold : ∀ other ∈ event :: rest, other ∈ toldBy (steps.flatMap PathStep.published) := by
      intro other hother
      apply hsub.subset
      rw [hsplit]
      exact List.mem_append_right front hother
    exact showsPublished (htold event List.mem_cons_self)
      (fun other hother => htold other (List.mem_cons_of_mem event hother)) hnew

/-- If nothing is lost or on the way, and the list is not full, its packets are those of a list without limits. -/
theorem packetRows_of_arrived {steps : List PathStep} (hnamed : WellNamed (steps.flatMap PathStep.published))
    (hroom : ∀ front next rest, steps = front ++ next :: rest →
      ((EventPath.start (emptyList env captureFlowsDir timeFormatter)).runFrom env front).FindsRoom next)
    (harrived : ((EventPath.start (emptyList env captureFlowsDir timeFormatter)).runFrom env steps).inTransit = [])
    (hlength : ((EventPath.start (emptyList env captureFlowsDir timeFormatter)).runFrom env steps).list.rows.length
      ≤ PacketListDelegate.rowsLeft) :
    packetRows ((EventPath.start (emptyList env captureFlowsDir timeFormatter)).runFrom env steps).list.rows
      = ((⟨[], timeFormatter⟩ : Ledger T).tellAll env captureFlowsDir
        (toldBy (steps.flatMap PathStep.published))).rows := by
  obtain ⟨-, hwindow⟩ := windowOn_received env captureFlowsDir timeFormatter hnamed
  obtain ⟨hpath, hpublished⟩ :=
    PathHistory.runFrom_start env (emptyList env captureFlowsDir timeFormatter) steps
  have hkept : (PathHistory.runFrom env (.start (emptyList env captureFlowsDir timeFormatter)) steps).NothingLost := by
    refine (Run.throughout_iff (PathHistory.nothingLost_step_iff env) (by rfl) steps).mpr ?_ steps List.prefix_rfl
    intro front next rest hsplit
    have hfront := (PathHistory.runFrom_start env (emptyList env captureFlowsDir timeFormatter) front).1
    show (PathHistory.runFrom env _ front).path.FindsRoom next
    rw [hfront]
    exact hroom front next rest hsplit
  unfold PathHistory.NothingLost at hkept
  rw [hpath, hpublished] at hkept
  have hreceived : (PathHistory.runFrom env (.start (emptyList env captureFlowsDir timeFormatter)) steps).received
      = toldBy (steps.flatMap PathStep.published) := by
    rw [← List.append_nil (PathHistory.received _), ← harrived]
    exact hkept
  rw [hreceived] at hwindow
  exact hwindow.all.resolve_right (Nat.not_lt.mpr hlength)

/-- **The list shows only what was published, and all of it if nothing was lost.** Whatever is dropped on the way, a row
    is that of a published request or tunnel, its end that of a published response of the same flow, and its marks are
    marks of this flow, or the one that a tunnel has that was published without marks; the packets are in the order in
    which they were published. If every send found room, and what was published has arrived at a list that is not full,
    its packets are those of a list without limits. -/
theorem rows_show_published (steps : List PathStep) (hnamed : WellNamed (steps.flatMap PathStep.published)) :
    let published := steps.flatMap PathStep.published
    let start := EventPath.start (emptyList env captureFlowsDir timeFormatter)
    let path := start.runFrom env steps
    (∀ row ∈ packetRows path.list.rows, ShowsPublished published row)
    ∧ ((packetRows path.list.rows).map PacketRow.id).Sublist (published.filterMap FlowEvent.newId)
    ∧ ((∀ front next rest, steps = front ++ next :: rest → (start.runFrom env front).FindsRoom next) →
        path.inTransit = [] → path.list.rows.length ≤ PacketListDelegate.rowsLeft →
        packetRows path.list.rows
          = ((⟨[], timeFormatter⟩ : Ledger T).tellAll env captureFlowsDir (toldBy published)).rows) := by
  intro published start path
  obtain ⟨hsub, hwindow⟩ := windowOn_received env captureFlowsDir timeFormatter hnamed
  refine ⟨fun row hmem => row_showsPublished env captureFlowsDir timeFormatter hnamed hmem, ?_,
    packetRows_of_arrived env captureFlowsDir timeFormatter hnamed⟩
  refine (hwindow.suffix.sublist.map PacketRow.id).trans ?_
  rw [Ledger.tellAll_ids, ← toldBy_newIds]
  exact hsub.filterMap _

end Rows

/-- A request that is published. -/
def homeCommitted : RequestCommitted where
  id := "a".toList
  seq := 1
  flowKey := "000001-a".toList
  epochMs := 0
  method := "GET".toList
  protocol := "http".toList
  host := "example.com".toList
  uri := "/".toList
  queryStr := []
  version := "HTTP/1.1".toList
  marks := [⟨"m".toList, none⟩]

/-- The response to it. -/
def homeAnswered : ResponseCommitted where
  id := "a".toList
  flowKey := "000001-a".toList
  status := 200
  elapsedMs := 5
  version := "HTTP/1.1".toList
  marks := [⟨"n".toList, none⟩]

/-- A tunnel that fails meanwhile. -/
def awayFailed : TunnelFailed where
  id := "b".toList
  seq := 2
  flowKey := "000002-b".toList
  epochMs := 0
  host := "example.org".toList
  port := 443
  stage := "tls".toList
  error := "handshake".toList
  marks := []

/-- The list polls the request before its mark is sent, and the tunnel fails between the request and its response. -/
def homeSteps : List PathStep :=
  [.publish (.requestCommitted [] homeCommitted), .dispatch, .send, .receive, .publish (.tunnelFailed [] awayFailed),
    .send, .publish (.responseCommitted homeAnswered), .dispatch, .receive, .send, .dispatch, .send, .receive, .send,
    .receive, .receive]

theorem rows_show_published_home :
    let path := (EventPath.start (emptyList PacketListDelegate.rawTimes [] ())).runFrom PacketListDelegate.rawTimes homeSteps
    (∀ row ∈ packetRows path.list.rows, ShowsPublished [.requestCommitted [] homeCommitted,
        .tunnelFailed [] awayFailed, .responseCommitted homeAnswered] row)
      ∧ (packetRows path.list.rows).map (fun row => (row.id, row.status, row.marks.map RowMark.label))
        = [("a".toList, some 200, ["m".toList, "n".toList]), ("b".toList, none, ["TLS FAILED".toList])] := by
  have hnamed : WellNamed (homeSteps.flatMap PathStep.published) := by
    refine ⟨⟨by decide, by decide, by decide⟩, ?_⟩
    show ∀ event ∈ [FlowEvent.requestCommitted [] homeCommitted, .tunnelFailed [] awayFailed,
      .responseCommitted homeAnswered], ∀ event' ∈ [FlowEvent.requestCommitted [] homeCommitted,
        .tunnelFailed [] awayFailed, .responseCommitted homeAnswered],
      event.flowKey = event'.flowKey → event.id = event'.id
    decide +kernel
  exact ⟨(rows_show_published PacketListDelegate.rawTimes [] () homeSteps hnamed).1, by decide +kernel⟩

end Inspect.Mitm
