import Inspect.Tui.PacketView

/-!
# `Tui.RootPane` — from the packet list to the detail pane

The way of a detail in `src/tui/mod.rs`: the packet list asks for it, a task of its own loads the packet, what is to be
shown goes through an unbounded channel, and `RootPane` hands it to the detail pane. The editor and the statistics of
the filters are asked for in the same way and open popups; an error of the statistics is shown in the detail pane.

Tasks can finish in any order. What a task reads from the database and the files is a reading, and the JSON text of a
tunnel that failed is a parameter. Of the popups, the command for external views and the statistics are left out.
-/

namespace Inspect.Tui

/-- `UiEvent::ShowDetail`. -/
structure ShowDetail where
  detail : DetailContent
  highlightQuery : Option Str
  tabSelection : Option DetailTabSelection
deriving DecidableEq

inductive UiEvent
  | showDetail (event : ShowDetail)
  | openEdit (row : PacketRowEditContext) (detail : DetailEditState)
  | openFilterStats
deriving DecidableEq

/-- What is for the detail pane. -/
def UiEvent.detail? : UiEvent → Option ShowDetail
  | .showDetail event => some event
  | .openEdit _ _ => none
  | .openFilterStats => none

/-! ## Loading -/

/-- What a task that loads reads of a packet. -/
inductive DetailReading
  /-- the request cannot be read -/
  | failed (err : Str)
  /-- a tunnel that failed, with what `ssl_tls.json` says -/
  | tunnel (sslTlsInfo dir : Str)
  | flow (requestMeta requestBody : Str) (response : Except Str (Str × Str)) (sslTlsInfo dir : Str)

/-- `load_detail_content`, with the answer to its error. -/
def loadDetailContent (id : Str) : DetailReading → DetailContent
  | .failed err => { DetailContent.default with requestMeta := "detail error: ".toList ++ err, id }
  | .tunnel sslTlsInfo dir => { DetailContent.default with sslTlsInfo, tunnelInfo := some [], id, dir }
  | .flow requestMeta requestBody response sslTlsInfo dir =>
      let (responseMeta, responseBody) :=
        match response with
        | .ok texts => texts
        | .error err => ("<no response captured: ".toList ++ err ++ ">".toList, [])
      { requestMeta, requestBody, responseMeta, responseBody, sslTlsInfo, tunnelInfo := none, id, dir }

/-- What the task of `open_edit_for_selected_detail` reads of a packet. -/
inductive EditReading
  | flow (requestMeta requestBody responseMeta responseBody : Str)
  /-- the response cannot be read -/
  | request (requestMeta requestBody err : Str)
  /-- the request cannot be read, and perhaps not the response either -/
  | failed (err : Str) (responseErr : Option Str)

/-- The state that the editor is opened with. -/
def editState (primaryTab : DetailPrimaryTabSelection) : EditReading → DetailEditState
  | .flow requestMeta requestBody responseMeta responseBody =>
      { primaryTab, requestMeta, requestBody, responseMeta, responseBody }
  | .request requestMeta requestBody err =>
      { primaryTab, requestMeta, requestBody, responseMeta := "response error: ".toList ++ err, responseBody := [] }
  | .failed err responseErr =>
      { primaryTab, requestMeta := "request error: ".toList ++ err, requestBody := [],
        responseMeta := responseErr.elim [] fun err => "response error: ".toList ++ err, responseBody := [] }

/-- What `open_filter_stats` sends for an error. -/
def statsErrorEvent (err : Str) : ShowDetail :=
  ⟨{ DetailContent.default with requestMeta := "filter stats error: ".toList ++ err }, none, some ⟨.info, .metadata⟩⟩

/-- What the task of `open_filter_stats` sends. -/
def filterStatsEvent : Option Str → UiEvent
  | none => .openFilterStats
  | some err => .showDetail (statsErrorEvent err)

/-- A task of `on_select_packet_with_highlight`, `open_edit_for_selected_detail` or `open_filter_stats`. -/
inductive DetailTask
  | load (id : Str) (highlightQuery : Option Str) (tabSelection : Option DetailTabSelection)
  | edit (row : PacketRowEditContext) (id : Str) (primaryTab : DetailPrimaryTabSelection)
  | filterStats
deriving DecidableEq

/-- What the database says when a task ends, to each kind of task. -/
structure TaskReading where
  detail : DetailReading
  edit : EditReading
  /-- the error of the statistics of the filters -/
  statsError : Option Str

namespace DetailTask

def request : DetailTask → DetailRequest
  | .load id highlightQuery tabSelection => .load id highlightQuery tabSelection
  | .edit row id primaryTab => .edit row id primaryTab
  | .filterStats => .filterStats

/-- What the task sends at its end. -/
def event (reading : TaskReading) : DetailTask → UiEvent
  | .load id highlightQuery tabSelection =>
      .showDetail ⟨loadDetailContent id reading.detail, highlightQuery, tabSelection⟩
  | .edit row _ primaryTab => .openEdit row (editState primaryTab reading.edit)
  | .filterStats => filterStatsEvent reading.statsError

end DetailTask

/-- What `show_detail_with` sends for a tunnel that failed. -/
def tunnelEvent (sslTlsInfo id dir : Str) (highlightQuery : Option Str) : ShowDetail :=
  ⟨{ DetailContent.default with sslTlsInfo, tunnelInfo := some [], id, dir }, highlightQuery, some ⟨.sslTls, .metadata⟩⟩

/-- What `reset_detail` sends. -/
def resetEvent : ShowDetail := ⟨{ DetailContent.default with requestMeta := detailPlaceholderText }, none, none⟩

/-! ## State -/

/-- The packet list, the tasks that run, all that was sent so far, how much of it was received, and the pane. -/
structure RootState (T : Type) where
  view : PacketView T
  loading : List DetailTask
  sent : List UiEvent
  received : Nat
  pane : DetailPaneState

/-- The step of the detail pane for what is received. -/
def ShowDetail.step (event : ShowDetail) : DetailPaneStep :=
  .setContent event.detail event.highlightQuery event.tabSelection

/-- Whether a step of the detail pane is one of the root pane. -/
def DetailPaneStep.setsContent : DetailPaneStep → Bool
  | .setContent _ _ _ => true
  | _ => false

inductive RootStep
  | view (next : PacketView.Step)
  /-- one of the tasks ends -/
  | loaded (idx : Nat) (reading : TaskReading)
  | pollUiEvents
  | pane (next : DetailPaneStep) (own : next.setsContent = false)

namespace RootState

variable {T : Type} (env : TuiEnv T) (regexNew : Str → Option (Str → List ByteRange))
  (tunnelText : TunnelFailureDetail → Str) (state : RootState T)

/-- What the packet list asks for is read by a task, or sent. -/
def ask (state : RootState T) : DetailRequest → RootState T
  | .load id highlightQuery tabSelection =>
      { state with loading := state.loading ++ [.load id highlightQuery tabSelection] }
  | .tunnel failure id dir highlightQuery =>
      { state with sent := state.sent ++ [.showDetail (tunnelEvent (tunnelText failure) id dir highlightQuery)] }
  | .reset => { state with sent := state.sent ++ [.showDetail resetEvent] }
  | .edit row id primaryTab => { state with loading := state.loading ++ [.edit row id primaryTab] }
  | .filterStats => { state with loading := state.loading ++ [.filterStats] }

/-- A step of the packet list. -/
def onView (next : PacketView.Step) : RootState T :=
  let view := PacketView.step env state.view next
  -- requests are only added, so the new ones are behind the old
  (view.details.drop state.view.details.length).foldl (ask tunnelText) { state with view }

/-- The end of a task. -/
def onLoaded (idx : Nat) (reading : TaskReading) : RootState T :=
  match state.loading[idx]? with
  | none => state
  | some task =>
      { state with loading := state.loading.eraseIdx idx, sent := state.sent ++ [task.event reading] }

/-- `poll_ui_events`. -/
def pollUiEvents : RootState T :=
  { state with
    received := state.sent.length
    pane := DetailPaneState.runFrom regexNew state.pane
      (((state.sent.drop state.received).filterMap UiEvent.detail?).map ShowDetail.step) }

/-- One step. -/
def step (state : RootState T) : RootStep → RootState T
  | .view next => state.onView env tunnelText next
  | .loaded idx reading => state.onLoaded idx reading
  | .pollUiEvents => state.pollUiEvents regexNew
  | .pane next _ => { state with pane := state.pane.step regexNew next }

/-- A whole run. -/
def runFrom (state : RootState T) (steps : List RootStep) : RootState T :=
  steps.foldl (step env regexNew tunnelText) state

/-- What `run_tui` starts with. -/
def new (view : PacketView T) : RootState T := ⟨view, [], [], 0, DetailPaneState.new⟩

end RootState

end Inspect.Tui
