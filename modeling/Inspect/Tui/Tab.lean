import Inspect.Tui.EditorPane
import Inspect.Tui.Highlight
import Inspect.Tui.SegmentedControl

/-!
# `Tui.Tab` — the detail pane

`src/tui/tab.rs`: the pane that shows one of the texts of a flow, the two controls that choose the text, and the bus that
tells the packet list what is asked for in the pane. The private copies of the enumerations of tabs are the public ones
here. How far the text is scrolled is left out.

A control that an input has moved tells the pane so with an event, which can come later than other things happen.
-/

namespace Inspect.Tui

inductive DetailMessagePartSelection
  /-- `Meta` -/
  | metadata
  | body
deriving DecidableEq

structure DetailTabSelection where
  primaryTab : DetailPrimaryTabSelection
  messagePart : DetailMessagePartSelection
deriving DecidableEq

structure DetailContent where
  requestMeta : Str
  requestBody : Str
  responseMeta : Str
  responseBody : Str
  sslTlsInfo : Str
  tunnelInfo : Option Str
  id : Str
  dir : Str
deriving DecidableEq

def DetailContent.default : DetailContent := ⟨[], [], [], [], [], none, [], []⟩

/-! ## The bus -/

structure DetailActionBus where
  selection : DetailTabSelection
  content : DetailContent
  openEditRequests : Nat
  externalDiffRequests : List DetailTabSelection
  externalViewRequests : List DetailTabSelection
deriving DecidableEq

namespace DetailActionBus

def default : DetailActionBus := ⟨⟨.request, .metadata⟩, DetailContent.default, 0, [], []⟩

/-- `request_open_edit_if_supported`, without its answer. -/
def requestOpenEditIfSupported (bus : DetailActionBus) : DetailActionBus :=
  match bus.selection.primaryTab with
  | .request | .response => { bus with openEditRequests := bus.openEditRequests + 1 }
  | .sslTls | .info => bus

/-- `request_external_diff_if_supported`, without its answer. -/
def requestExternalDiffIfSupported (bus : DetailActionBus) : DetailActionBus :=
  match bus.selection.primaryTab with
  | .request | .response | .sslTls => { bus with externalDiffRequests := bus.externalDiffRequests ++ [bus.selection] }
  | .info => bus

/-- `request_external_view_if_supported`, without its answer. -/
def requestExternalViewIfSupported (bus : DetailActionBus) : DetailActionBus :=
  match bus.selection.primaryTab with
  | .request | .response | .sslTls => { bus with externalViewRequests := bus.externalViewRequests ++ [bus.selection] }
  | .info => bus

end DetailActionBus

/-! ## The pane -/

/-- The content of the text widget. -/
inductive DetailText
  | plain (text : Str)
  /-- the spans of a styled text; `none` where a slice panics -/
  | styled (spans : Option (List Span))
deriving DecidableEq

def detailPlaceholderText : Str := "Select row and press Enter".toList

structure DetailPane where
  primaryControl : SegmentedControl
  messagePartControl : SegmentedControl
  messagePartHeight : Nat
  text : DetailText
  content : DetailContent
  primaryTab : DetailPrimaryTabSelection
  messagePart : DetailMessagePartSelection
  highlightQuery : Option Str
  bus : DetailActionBus

/-- The labels of the first control. -/
def primaryLabels (tunnelFailure : Bool) : List Str :=
  if tunnelFailure then ["ssl/tls".toList, "info".toList]
  else ["request".toList, "response".toList, "ssl/tls".toList, "info".toList]

/-- The labels of the second control. -/
def messagePartLabels : List Str := ["meta".toList, "body".toList]

def messagePartIndex : DetailMessagePartSelection → Nat
  | .metadata => 0
  | .body => 1

namespace DetailPane

variable (regexNew : Str → Option (Str → List ByteRange)) (pane : DetailPane)

def isTunnelFailure : Bool := pane.content.tunnelInfo.isSome

def currentSelection : DetailTabSelection := ⟨pane.primaryTab, pane.messagePart⟩

/-- `sync_edit_state`. -/
def syncEditState : DetailPane :=
  { pane with bus := { pane.bus with selection := pane.currentSelection, content := pane.content } }

/-- `sync_primary_tab_labels`. -/
def syncPrimaryTabLabels : DetailPane :=
  { pane with primaryControl := pane.primaryControl.setLabels (primaryLabels pane.isTunnelFailure) }

/-- `primary_tab_index`. -/
def primaryTabIndex : Nat :=
  if pane.isTunnelFailure then
    match pane.primaryTab with
    | .info => 1
    | _ => 0
  else
    match pane.primaryTab with
    | .request => 0
    | .response => 1
    | .sslTls => 2
    | .info => 3

/-- The first control shows the tab. -/
def selectPrimary : DetailPane :=
  { pane with primaryControl := pane.primaryControl.setSelected pane.primaryTabIndex }

/-- `select_tab`. -/
def selectTab (tabSelection : DetailTabSelection) : DetailPane :=
  let pane := { pane with primaryTab := tabSelection.primaryTab, messagePart := tabSelection.messagePart }
  let pane := pane.selectPrimary
  { pane with messagePartControl := pane.messagePartControl.setSelected (messagePartIndex pane.messagePart) }

/-- `selected_text`. -/
def selectedText : Str :=
  match pane.primaryTab with
  | .request =>
      match pane.messagePart with
      | .metadata => pane.content.requestMeta
      | .body => pane.content.requestBody
  | .response =>
      match pane.messagePart with
      | .metadata => pane.content.responseMeta
      | .body => pane.content.responseBody
  | .sslTls => pane.content.sslTlsInfo
  | .info => "id  : ".toList ++ pane.content.id ++ "\ndir : ".toList ++ pane.content.dir

/-- A text as it is shown, with the matches of a query. -/
def shownText (text : Str) : Option Str → DetailText
  | some query => .styled (highlightDetailText regexNew text query)
  | none => .plain text

/-- `refresh_text`. -/
def refreshText : DetailPane := { pane with text := shownText regexNew pane.selectedText pane.highlightQuery }

/-- Whether the tab has a metadata and a body. -/
def showsMessagePart : Bool :=
  match pane.primaryTab with
  | .request | .response => true
  | .sslTls | .info => false

/-- `sync_message_part_visibility`. -/
def syncMessagePartVisibility : DetailPane :=
  let control := pane.messagePartControl.setControlDisabled (!pane.showsMessagePart)
  { pane with
    messagePartHeight := if pane.showsMessagePart then 1 else 0
    messagePartControl :=
      if pane.showsMessagePart then control.setSelected (messagePartIndex pane.messagePart) else control.clearSelected }

/-- `DetailPane::new`. -/
def new : DetailPane :=
  let pane : DetailPane :=
    { primaryControl := SegmentedControl.new (primaryLabels false)
      messagePartControl := SegmentedControl.new messagePartLabels
      messagePartHeight := 1
      text := .styled (some [⟨detailPlaceholderText, .dim⟩])
      content := DetailContent.default
      primaryTab := .request
      messagePart := .metadata
      highlightQuery := none
      bus := DetailActionBus.default }
  pane.syncMessagePartVisibility.syncEditState

/-- The end of `set_content` and of `sync_from_controls`. -/
def showTab : DetailPane := (pane.syncMessagePartVisibility.refreshText regexNew).syncEditState

/-- The tab of a tunnel that failed: the one that is open, if the first control has it. -/
def selectTunnelTab : DetailPane :=
  let primaryTab :=
    match pane.primaryTab with
    | .sslTls | .info => pane.primaryTab
    | .request | .response => .sslTls
  { pane with primaryTab, messagePart := .metadata }.selectPrimary

/-- `set_content`. -/
def setContent (content : DetailContent) (highlightQuery : Option Str) (tabSelection : Option DetailTabSelection) :
    DetailPane :=
  let wasTunnelFailure := pane.isTunnelFailure
  let pane := { pane with content, highlightQuery }
  let pane := pane.syncPrimaryTabLabels
  let pane :=
    if pane.isTunnelFailure then pane.selectTunnelTab
    else
      match tabSelection with
      | some tabSelection => pane.selectTab tabSelection
      | none => if wasTunnelFailure then pane.selectPrimary else pane
  pane.showTab regexNew

/-- The tab of a segment of the first control. -/
def tabOfIndex (tunnelFailure : Bool) (index : Nat) : DetailPrimaryTabSelection :=
  if tunnelFailure then
    match index with
    | 1 => .info
    | _ => .sslTls
  else
    match index with
    | 1 => .response
    | 2 => .sslTls
    | 3 => .info
    | _ => .request

/-- The part of a segment of the second control. -/
def partOfIndex : Nat → DetailMessagePartSelection
  | 1 => .body
  | _ => .metadata

/-- `sync_from_controls`. -/
def syncFromControls : DetailPane :=
  let pane := { pane with
    primaryTab := tabOfIndex pane.isTunnelFailure pane.primaryControl.selected
    messagePart := partOfIndex pane.messagePartControl.selected }
  pane.showTab regexNew

end DetailPane

/-! ## Runs -/

/-- A pane, and the number of events of its controls that have not come yet. -/
structure DetailPaneState where
  pane : DetailPane
  events : Nat

/-- What can happen to a pane. -/
inductive DetailPaneStep
  | setContent (content : DetailContent) (highlightQuery : Option Str) (tabSelection : Option DetailTabSelection)
  | primaryInput (input : ControlInput)
  | messagePartInput (input : ControlInput)
  /-- `after_on_event` -/
  | changeEvent
  /-- the keys of `override_on_input` and of `GlobalChords` -/
  | openEdit
  | externalDiff
  | externalView
  /-- the `take` functions of the bus -/
  | takeRequests

namespace DetailPaneState

def new : DetailPaneState := ⟨DetailPane.new, 0⟩

variable (regexNew : Str → Option (Str → List ByteRange))

/-- One step. -/
def step (state : DetailPaneState) : DetailPaneStep → DetailPaneState
  | .setContent content highlightQuery tabSelection =>
      { state with pane := state.pane.setContent regexNew content highlightQuery tabSelection }
  | .primaryInput input =>
      let (event, control) := state.pane.primaryControl.onInput input
      ⟨{ state.pane with primaryControl := control }, state.events + event.elim 0 fun _ => 1⟩
  | .messagePartInput input =>
      let (event, control) := state.pane.messagePartControl.onInput input
      ⟨{ state.pane with messagePartControl := control }, state.events + event.elim 0 fun _ => 1⟩
  | .changeEvent =>
      match state.events with
      | 0 => state
      | events + 1 => ⟨state.pane.syncFromControls regexNew, events⟩
  | .openEdit => { state with pane := { state.pane with bus := state.pane.bus.requestOpenEditIfSupported } }
  | .externalDiff => { state with pane := { state.pane with bus := state.pane.bus.requestExternalDiffIfSupported } }
  | .externalView => { state with pane := { state.pane with bus := state.pane.bus.requestExternalViewIfSupported } }
  | .takeRequests =>
      { state with pane := { state.pane with bus := { state.pane.bus with
        openEditRequests := 0, externalDiffRequests := [], externalViewRequests := [] } } }

/-- A whole run. -/
def runFrom (state : DetailPaneState) (steps : List DetailPaneStep) : DetailPaneState :=
  steps.foldl (step regexNew) state

end DetailPaneState

end Inspect.Tui
