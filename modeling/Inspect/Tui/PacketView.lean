import Inspect.Tui.PacketList
import Inspect.Tui.Search
import Inspect.Tui.Tab

/-!
# `Tui.PacketView` — what is drawn and asked for of the packet list

The other half of `PacketListDelegate` of `src/tui/mod.rs`: the lines that the list widget was last given, the packets
that are marked as A and B for the external comparison, the results of a full-text search that the keys `n` and `p` step
through, and what is asked for the detail pane, of popups and of external commands. `PacketList` has the rows.

What is asked for is read by a task of its own.
-/

namespace Inspect.Tui

open Filters

/-! ## Lines -/

structure DiffSelection where
  leftId : Option Str
  rightId : Option Str
deriving DecidableEq

/-- `slot_for`. -/
def DiffSelection.slotFor (selection : DiffSelection) (id : Str) : Option Char :=
  if selection.leftId = some id then some 'A'
  else if selection.rightId = some id then some 'B'
  else none

/-- `display_line`. -/
def PacketRow.displayLine (row : PacketRow) : Option Char → Str
  | none => row.line
  | some slot =>
      let status := row.status.elim "----".toList fun status => Nat.toDigits 10 status.toNat
      '#' :: Text.padStart 6 '0' (Nat.toDigits 10 row.seq) ++ ' ' :: row.time ++ ' ' :: Text.padEnd 7 ' ' row.method
        ++ ' ' :: Text.padEnd 4 ' ' status ++ [' ']
        ++ row.elapsedMs.elim (List.replicate 8 ' ')
            (fun ms => Text.padStart 5 ' ' (Text.displayInt ms) ++ "ms ".toList)
        ++ '[' :: slot :: "] ".toList
        ++ row.marks.flatMap (fun mark => '[' :: mark.label ++ "] ".toList)
        ++ row.protocol ++ "://".toList ++ row.host ++ row.uri
        ++ (if row.queryStr = [] then [] else '?' :: row.queryStr)

/-- What the list widget and its title were given. -/
structure DrawnList where
  title : Str
  items : List Str
  selected : Nat
deriving DecidableEq

/-! ## Tabs of search results -/

/-- `is_body_file_name`. -/
def isBodyFileName (fileName : Str) : Bool :=
  [".body", ".body.gz", ".body.br", ".body.zst", ".body.zstd", ".body.deflate"].any
      (fun suffix => suffix.toList.isSuffixOf fileName)
    || fileName == "response.body.sse".toList || fileName == "response.body.partial".toList
    || (Text.stripPrefix "response.body.".toList fileName).any fun suffix =>
      (Text.parseUnsigned (2 ^ 64) suffix).isSome

/-- `Path::file_name` of a path as text. -/
def pathFileName (path : Str) : Option Str :=
  ((path.splitOn '/').filter fun component => component ≠ [] ∧ component ≠ ['.']).getLast?.filter
    fun name => name ≠ "..".toList

/-- `detail_tab_selection_from_search_path`. -/
def detailTabSelectionFromSearchPath (path : Str) : Option DetailTabSelection :=
  let fileName := (pathFileName path).getD path
  if fileName = "ssl_tls.json".toList then some ⟨.sslTls, .metadata⟩
  else
    let primaryTab : Option DetailPrimaryTabSelection :=
      if "request.".toList.isPrefixOf fileName then some .request
      else if "response.".toList.isPrefixOf fileName then some .response
      else none
    primaryTab.map fun primaryTab => ⟨primaryTab, if isBodyFileName fileName then .body else .metadata⟩

/-! ## State -/

/-- What is asked for the detail pane, and of the popups behind the same channel. -/
inductive DetailRequest
  /-- a task loads the packet -/
  | load (id : Str) (highlightQuery : Option Str) (tabSelection : Option DetailTabSelection)
  /-- the failure of a tunnel, in the tab `ssl/tls` -/
  | tunnel (failure : TunnelFailureDetail) (id dir : Str) (highlightQuery : Option Str)
  /-- the placeholder -/
  | reset
  /-- the editor for a message of the packet -/
  | edit (row : PacketRowEditContext) (id : Str) (primaryTab : DetailPrimaryTabSelection)
  /-- the statistics of the filters -/
  | filterStats
deriving DecidableEq

/-- `edit_context`. -/
def PacketRow.editContext (row : PacketRow) : PacketRowEditContext :=
  ⟨row.flowKey, row.method, row.protocol, row.host, row.uri, row.queryStr, row.status⟩

structure PacketView (T : Type) where
  list : PacketListDelegate T
  diffSelection : DiffSelection
  retainedResults : List FullTextSearchResult
  retainedSelected : Option Nat
  retainedQuery : Option Str
  drawn : DrawnList
  details : List DetailRequest
  externalDiffs : List (DetailTabSelection × Str × Str)
  externalViews : List (DetailTabSelection × Str)
  /-- whether the commands are configured -/
  externalDiffCommand : Bool
  externalViewCommand : Bool

namespace PacketView

variable {T : Type} (env : TuiEnv T) (view : PacketView T)

/-- The row of an id of the search list. -/
def rowOfId (list : PacketListDelegate T) (id : Str) : Option PacketRow :=
  (list.idToRowIndex.lookup id).bind fun idx => list.rows[idx]?

/-- The rows that the list shows. -/
def visibleRows (list : PacketListDelegate T) : List PacketRow :=
  match list.mode with
  | .main => list.rows
  | .search => list.searchRowIds.filterMap (rowOfId list)

/-- `list_title`. -/
def listTitle (list : PacketListDelegate T) : Str :=
  match list.mode with
  | .main => "Packets (".toList ++ Nat.toDigits 10 list.rows.length ++ ")".toList
  | .search =>
      "Packets [filter: ".toList ++ list.searchQuery ++ "] ".toList ++ Nat.toDigits 10 list.searchRowIds.length
        ++ '/' :: Nat.toDigits 10 list.rows.length

/-- The line of a row, with its mark. -/
def lineOf (row : PacketRow) : Str := row.displayLine (view.diffSelection.slotFor row.id)

/-- What there is to draw. -/
def drawing : DrawnList := ⟨listTitle view.list, (visibleRows view.list).map view.lineOf, view.list.currentSelected⟩

/-- `sync_list`. -/
def syncList : PacketView T := { view with drawn := view.drawing }

/-- The list changes, and is drawn. -/
def redraw (list : PacketListDelegate T) : PacketView T := { view with list }.syncList

/-- `append_system_line`. -/
def appendSystemLine (line : String) : PacketView T := view.redraw (view.list.appendSystemLine line.toList)

/-! ## Details -/

/-- What is asked for a row. -/
def detailRequest (list : PacketListDelegate T) (highlightQuery : Option Str)
    (tabSelection : Option DetailTabSelection) (row : PacketRow) : Option DetailRequest :=
  match list.tunnelFailures.lookup row.id with
  | some failure => some (.tunnel failure row.id (row.flowDir.getD []) highlightQuery)
  | none => if row.id = [] then none else some (.load row.id highlightQuery tabSelection)

/-- `show_detail_with`. -/
def showDetailWith (highlightQuery : Option Str) (tabSelection : Option DetailTabSelection) : PacketView T :=
  let request := view.list.currentRow.bind (detailRequest view.list highlightQuery tabSelection)
  { view with details := view.details ++ request.toList }

/-- `show_detail`. -/
def showDetail : PacketView T := view.showDetailWith none none

/-- `reset_detail`. -/
def resetDetail : PacketView T := { view with details := view.details ++ [.reset] }

/-! ## Moving -/

/-- A key that moves the selection: the list is drawn if the key does something, and the detail is asked for. -/
def moveIf (moves : Bool) (move : PacketListDelegate T → PacketListDelegate T) : PacketView T :=
  (if moves then view.redraw (move view.list) else view).showDetail

/-- `move_up`. -/
def moveUp : PacketView T := view.moveIf (0 < view.list.currentSelected) .moveUp

/-- `move_down`. -/
def moveDown : PacketView T := view.moveIf (view.list.currentSelected + 1 < view.list.visibleRowsLen) .moveDown

/-- `page_up`. -/
def pageUp : PacketView T := view.moveIf (view.list.currentSelected - 20 ≠ view.list.currentSelected) .pageUp

/-- `page_down`. -/
def pageDown : PacketView T :=
  view.moveIf (view.list.visibleRowsLen ≠ 0
    ∧ min (view.list.currentSelected + 20) (view.list.visibleRowsLen - 1) ≠ view.list.currentSelected) .pageDown

/-- `jump_to_bottom`. -/
def jumpToBottom : PacketView T := view.moveIf (view.list.visibleRowsLen ≠ 0) .jumpToBottom

/-- `select_row`. -/
def selectRow (idx : Nat) : PacketView T :=
  if idx < view.list.visibleRowsLen then (view.redraw (view.list.setCurrentSelected idx)).showDetail else view

/-! ## Searching -/

/-- `search_url`; behind a query that cannot be parsed no detail is reset. -/
def searchUrl (query : Str) : PacketView T :=
  let view' := view.redraw (view.list.searchUrl env query)
  match SearchMatcher.parse env.regexNew query with
  | .ok _ => view'.resetDetail
  | .error _ => view'

/-- `clear_search`. -/
def clearSearch : PacketView T := (view.redraw view.list.clearSearch).resetDetail

/-- `select_flow_key`. -/
def selectFlowKey (flowKey : Str) (highlightQuery : Option Str) (tabSelection : Option DetailTabSelection) :
    PacketView T :=
  let view' := view.redraw (view.list.selectFlowKey flowKey)
  match view.list.rows.findIdx? fun row => row.flowKey = flowKey with
  | none => view'
  | some _ => view'.showDetailWith highlightQuery tabSelection

/-- `select_retained_full_text_result`. -/
def selectRetainedFullTextResult (idx : Nat) : PacketView T :=
  match view.retainedResults[idx]? with
  | none => view
  | some result =>
      { view with retainedSelected := some idx }.selectFlowKey result.flowKey view.retainedQuery
        (detailTabSelectionFromSearchPath result.path)

/-- One request of `poll_full_text_select_requests`. -/
def selectFullTextResult (results : List FullTextSearchResult) (selected : Nat) (query : Str) : PacketView T :=
  { view with
    retainedSelected := some selected
    retainedQuery := some query
    retainedResults := results }.selectRetainedFullTextResult selected

/-- `move_retained_full_text_next`. -/
def moveRetainedFullTextNext : PacketView T :=
  let len := view.retainedResults.length
  if len = 0 then view.appendSystemLine "=== no retained full text search results ==="
  else
    let current := view.retainedSelected.getD 0
    view.selectRetainedFullTextResult (if current + 1 < len then current + 1 else 0)

/-- `move_retained_full_text_previous`. -/
def moveRetainedFullTextPrevious : PacketView T :=
  let len := view.retainedResults.length
  if len = 0 then view.appendSystemLine "=== no retained full text search results ==="
  else
    let current := view.retainedSelected.getD 0
    view.selectRetainedFullTextResult (if current = 0 then len - 1 else current - 1)

/-! ## Comparing -/

/-- `set_diff_left_from_selected`. -/
def setDiffLeftFromSelected : PacketView T :=
  match view.list.selectedPacketId with
  | none => view.appendSystemLine "=== diff A unavailable: select a captured packet ==="
  | some id =>
      if view.diffSelection.rightId = some id then
        view.appendSystemLine "=== diff A unavailable: packet is already marked as B ==="
      else
        { view with diffSelection := { view.diffSelection with leftId := some id } }.syncList.appendSystemLine
          "=== marked selected packet as diff A ==="

/-- `set_diff_right_from_selected`. -/
def setDiffRightFromSelected : PacketView T :=
  match view.list.selectedPacketId with
  | none => view.appendSystemLine "=== diff B unavailable: select a captured packet ==="
  | some id =>
      if view.diffSelection.leftId = some id then
        view.appendSystemLine "=== diff B unavailable: packet is already marked as A ==="
      else
        { view with diffSelection := { view.diffSelection with rightId := some id } }.syncList.appendSystemLine
          "=== marked selected packet as diff B ==="

/-- `clear_diff_selection`. -/
def clearDiffSelection : PacketView T :=
  { view with diffSelection := ⟨none, none⟩ }.syncList.appendSystemLine "=== cleared diff A/B selection ==="

/-- One request of `poll_external_diff_requests`. -/
def externalDiff (selection : DetailTabSelection) : PacketView T :=
  if view.externalDiffCommand then
    match view.diffSelection.leftId, view.diffSelection.rightId with
    | some leftId, some rightId => { view with externalDiffs := view.externalDiffs ++ [(selection, leftId, rightId)] }
    | _, _ => view.appendSystemLine "=== external diff unavailable: mark packets with a and b ==="
  else view.appendSystemLine "=== external diff unavailable: configure external_diff_command ==="

/-- One request of `poll_external_view_requests`. -/
def externalView (selection : DetailTabSelection) : PacketView T :=
  if view.externalViewCommand then
    match view.list.selectedPacketId with
    | some id => { view with externalViews := view.externalViews ++ [(selection, id)] }
    | none => view.appendSystemLine "=== external view unavailable: select a captured packet ==="
  else view.appendSystemLine "=== external view unavailable: configure external_view_command ==="

/-! ## Popups -/

/-- `open_edit_for_selected_detail`, for the tab of the detail pane. -/
def openEditForSelectedDetail (selection : DetailTabSelection) : PacketView T :=
  match view.list.currentRowIndex with
  | none => view.appendSystemLine "=== edit unavailable: no selected flow ==="
  | some rowIndex =>
      match view.list.rows[rowIndex]? with
      | none => view.appendSystemLine "=== edit unavailable: selected row not found ==="
      | some row =>
          if selection.primaryTab = .sslTls ∨ selection.primaryTab = .info then
            view.appendSystemLine "=== edit unavailable: select request or response ==="
          else if row.id = [] then view.appendSystemLine "=== edit unavailable: selected row has no capture id ==="
          else { view with details := view.details ++ [.edit row.editContext row.id selection.primaryTab] }

/-- The editor is asked for, or a line says why it is not. -/
theorem openEditForSelectedDetail_cases (selection : DetailTabSelection) :
    (∃ line, view.openEditForSelectedDetail selection = view.appendSystemLine line)
    ∨ ∃ row : PacketRow, row.id ≠ [] ∧ (selection.primaryTab = .request ∨ selection.primaryTab = .response)
      ∧ view.openEditForSelectedDetail selection
        = { view with details := view.details ++ [.edit row.editContext row.id selection.primaryTab] } := by
  unfold openEditForSelectedDetail
  split
  · exact Or.inl ⟨_, rfl⟩
  · split
    · exact Or.inl ⟨_, rfl⟩
    · rename_i row _
      split_ifs with htab hid
      · exact Or.inl ⟨_, rfl⟩
      · exact Or.inl ⟨_, rfl⟩
      · refine Or.inr ⟨row, hid, ?_, rfl⟩
        cases htab' : selection.primaryTab with
        | request => exact Or.inl rfl
        | response => exact Or.inr rfl
        | sslTls => exact absurd (Or.inl htab') htab
        | info => exact absurd (Or.inr htab') htab

/-- `open_filter_stats`. -/
def openFilterStats : PacketView T := { view with details := view.details ++ [.filterStats] }

/-! ## Runs -/

/-- `poll_incoming`. -/
def pollIncoming (batch : List PacketEvent) : PacketView T :=
  if batch = [] then view else view.redraw (view.list.pollIncoming env batch)

/-- `PacketListDelegate::new`. -/
def new (tuiMode : TuiMode) (captureFlowsDir : Str) (timeFormatter : T) (summaries : List PacketSummary)
    (externalDiffCommand externalViewCommand : Bool) : PacketView T :=
  let list := PacketListDelegate.new env tuiMode captureFlowsDir timeFormatter summaries
  let view : PacketView T :=
    { list
      diffSelection := ⟨none, none⟩
      retainedResults := []
      retainedSelected := none
      retainedQuery := none
      drawn := ⟨"Packets".toList, list.rows.map PacketRow.line, list.selected⟩
      details := []
      externalDiffs := []
      externalViews := []
      externalDiffCommand
      externalViewCommand }
  view.syncList

/-- What can happen, each in one step. -/
inductive Step
  | pollIncoming (batch : List PacketEvent)
  | up
  | down
  | pageUp
  | pageDown
  | bottom
  | enter
  | escape
  | click (idx : Nat)
  | search (query : Str)
  | selectResult (results : List FullTextSearchResult) (selected : Nat) (query : Str)
  | nextResult
  | previousResult
  | markLeft
  | markRight
  | clearMarks
  | externalDiff (selection : DetailTabSelection)
  | externalView (selection : DetailTabSelection)
  | openEdit (selection : DetailTabSelection)
  | openFilterStats

/-- One step. -/
def step (view : PacketView T) : Step → PacketView T
  | .pollIncoming batch => view.pollIncoming env batch
  | .up => view.moveUp
  | .down => view.moveDown
  | .pageUp => view.pageUp
  | .pageDown => view.pageDown
  | .bottom => view.jumpToBottom
  | .enter => view.showDetail
  -- the key ends a search; without one it is the key for the detail
  | .escape => if view.list.mode = .search then view.clearSearch else view.showDetail
  | .click idx => view.selectRow idx
  | .search query => view.searchUrl env query
  | .selectResult results selected query => view.selectFullTextResult results selected query
  | .nextResult => view.moveRetainedFullTextNext
  | .previousResult => view.moveRetainedFullTextPrevious
  | .markLeft => view.setDiffLeftFromSelected
  | .markRight => view.setDiffRightFromSelected
  | .clearMarks => view.clearDiffSelection
  | .externalDiff selection => view.externalDiff selection
  | .externalView selection => view.externalView selection
  | .openEdit selection => view.openEditForSelectedDetail selection
  | .openFilterStats => view.openFilterStats

/-- A whole run. -/
def runFrom (view : PacketView T) (steps : List Step) : PacketView T := steps.foldl (step env) view

end PacketView

end Inspect.Tui
