import Inspect.Lib.HashMap
import Inspect.Tui.PacketRow

/-!
# `Tui.PacketList` — the packet list

`PacketListDelegate` of `src/tui/mod.rs`: the rows, the index from packet ids to rows, the search list and the
selections, with everything that changes them. What is drawn from them and asked for is in `Tui.PacketView`.

The text of a time comes from `TimeFormatter`, which keeps a state of its own, and regular expressions from a library;
both are parameters.
-/

namespace Inspect.Tui

def maxRows : Nat := 10000
def trimRows : Nat := 1000

/-- A list that is too long has as many rows as a trim takes. -/
theorem min_trimRows {length : Nat} (h : ¬length ≤ maxRows) : min trimRows length = trimRows := by
  apply Nat.min_eq_left
  unfold trimRows
  unfold maxRows at h
  omega

inductive TuiMode where
  | capture
  | viewer
deriving DecidableEq

inductive PacketListMode where
  | main
  | search
deriving DecidableEq

structure TunnelFailureDetail where
  stage : Str
  error : Str
  host : Str
  port : UInt16
deriving DecidableEq

/-! ## Events -/

structure PacketStarted where
  id : Str
  seq : Nat
  flowKey : Str
  time : Str
  epochMs : Int
  method : Str
  protocol : Str
  host : Str
  uri : Str
  queryStr : Str

structure PacketTunnelFailed where
  id : Str
  seq : Nat
  flowKey : Str
  time : Str
  epochMs : Int
  host : Str
  port : UInt16
  stage : Str
  error : Str
  marks : List RowMark

structure PacketCompleted where
  id : Str
  status : UInt16
  elapsedMs : Int

structure PacketMarked where
  id : Str
  flowKey : Str
  label : Str
  color : Option Str

inductive PacketEvent where
  | started (pkt : PacketStarted)
  | completed (pkt : PacketCompleted)
  | marked (pkt : PacketMarked)
  | tunnelFailed (pkt : PacketTunnelFailed)

/-- A packet as the database has it. -/
structure PacketSummary where
  id : Str
  seq : Int
  flowKey : Str
  flowDir : Option Str
  time : Option Str
  epochMs : Option Int
  method : Option Str
  protocol : Option Str
  host : Option Str
  uri : Option Str
  queryStr : Option Str
  status : Option Int
  elapsed : Option Int

/-! ## State -/

structure PacketListDelegate (T : Type) where
  rows : List PacketRow
  searchRowIds : List Str
  mode : PacketListMode
  mainSelected : Nat
  searchSelected : Nat
  searchQuery : Str
  searchMatcher : Option SearchMatcher
  searchError : Option Str
  selected : Nat
  tunnelFailures : HashMap Str TunnelFailureDetail
  captureFlowsDir : Str
  timeFormatter : T
  idToRowIndex : HashMap Str Nat

/-- What the list takes from outside: `format_packet_time`, `Regex::new` and `Path::is_file`. -/
structure TuiEnv (T : Type) where
  formatPacketTime : T → Str → Int → Str × T
  regexNew : Str → Except Str (Str → Bool)
  isFile : Str → Bool

/-- `Path::join`. -/
def joinPath (dir path : Str) : Str :=
  if path.head? = some '/' then path
  else if dir = [] ∨ dir.getLast? = some '/' then dir ++ path
  else dir ++ '/' :: path

/-- The index of the rows that have an id. -/
def rowIndex (rows : List PacketRow) : HashMap Str Nat :=
  rows.zipIdx.foldl (fun index (row, idx) => if row.id = [] then index else index.insert row.id idx) ∅

def waitingRowText : Str := "waiting for packets...".toList

/-- The row of an empty list. -/
def waitingRow : PacketRow where
  id := []
  seq := 0
  flowKey := []
  flowDir := none
  time := []
  method := []
  status := none
  elapsedMs := none
  protocol := []
  host := []
  uri := []
  queryStr := []
  marks := []
  line := waitingRowText

def tlsFailedMark : RowMark := ⟨"TLS FAILED".toList, some "red".toList⟩

variable {T : Type} (env : TuiEnv T)

/-- `row_from_summary`. -/
def rowFromSummary (summary : PacketSummary) (timeFormatter : T) : PacketRow × T :=
  let rawTime := summary.time.getD []
  let (displayTime, timeFormatter) :=
    match summary.epochMs with
    | some epochMs => env.formatPacketTime timeFormatter rawTime epochMs
    | none => (rawTime, timeFormatter)
  let isTunnelFailure :=
    summary.method == some "CONNECT".toList
      && summary.flowDir.any fun dir => env.isFile (joinPath dir "ssl_tls.json".toList)
  let row : PacketRow :=
    { id := summary.id
      seq := summary.seq.toNat
      flowKey := summary.flowKey
      flowDir := summary.flowDir
      time := displayTime
      method := summary.method.getD []
      status := summary.status.map fun status => .ofBitVec (.ofInt 16 status)
      elapsedMs := summary.elapsed
      protocol := summary.protocol.getD []
      host := summary.host.getD []
      uri := summary.uri.getD []
      queryStr := summary.queryStr.getD []
      marks := if isTunnelFailure then [tlsFailedMark] else []
      line := [] }
  (row.refreshLine, timeFormatter)

/-- The rows of all summaries. -/
def rowsFromSummaries (timeFormatter : T) : List PacketSummary → List PacketRow × T
  | [] => ([], timeFormatter)
  | summary :: summaries =>
      let (row, timeFormatter) := rowFromSummary env summary timeFormatter
      let (rows, timeFormatter) := rowsFromSummaries timeFormatter summaries
      (row :: rows, timeFormatter)

namespace PacketListDelegate

/-- `PacketListDelegate::new`; a database that cannot be read counts as an empty one. -/
def new (tuiMode : TuiMode) (captureFlowsDir : Str) (timeFormatter : T) (summaries : List PacketSummary) :
    PacketListDelegate T :=
  let (rows, timeFormatter) := rowsFromSummaries env timeFormatter summaries
  let rows := if summaries = [] then [waitingRow] else rows
  let selected := match tuiMode with
    | .capture => rows.length - 1
    | .viewer => 0
  { rows
    searchRowIds := []
    mode := .main
    mainSelected := selected
    searchSelected := 0
    searchQuery := []
    searchMatcher := none
    searchError := none
    selected
    tunnelFailures := ∅
    captureFlowsDir
    timeFormatter
    idToRowIndex := rowIndex rows }

/-! ## Selection -/

/-- `visible_rows_len`. -/
def visibleRowsLen (list : PacketListDelegate T) : Nat :=
  match list.mode with
  | .main => list.rows.length
  | .search => list.searchRowIds.length

/-- `current_selected`. -/
def currentSelected (list : PacketListDelegate T) : Nat :=
  match list.mode with
  | .main => list.mainSelected
  | .search => list.searchSelected

/-- `set_current_selected`. -/
def setCurrentSelected (list : PacketListDelegate T) (selected : Nat) : PacketListDelegate T :=
  match list.mode with
  | .main => { list with mainSelected := selected, selected }
  | .search => { list with searchSelected := selected, selected }

/-- `clamp_current_selected`. -/
def clampCurrentSelected (list : PacketListDelegate T) : PacketListDelegate T :=
  list.setCurrentSelected (min list.currentSelected (list.visibleRowsLen - 1))

/-- `search_row_index_at`. -/
def searchRowIndexAt (list : PacketListDelegate T) (visibleIdx : Nat) : Option Nat :=
  list.searchRowIds[visibleIdx]?.bind list.idToRowIndex.lookup

/-- `current_row_index`. -/
def currentRowIndex (list : PacketListDelegate T) : Option Nat :=
  match list.mode with
  | .main => if list.mainSelected < list.rows.length then some list.mainSelected else none
  | .search => list.searchRowIndexAt list.searchSelected

/-- `current_row`. -/
def currentRow (list : PacketListDelegate T) : Option PacketRow :=
  list.currentRowIndex.bind fun idx => list.rows[idx]?

/-- `selected_packet_id`. -/
def selectedPacketId (list : PacketListDelegate T) : Option Str :=
  list.currentRow.bind fun row => if row.id = [] then none else some row.id

/-- `move_up`. -/
def moveUp (list : PacketListDelegate T) : PacketListDelegate T :=
  if list.currentSelected > 0 then list.setCurrentSelected (list.currentSelected - 1) else list

/-- `move_down`. -/
def moveDown (list : PacketListDelegate T) : PacketListDelegate T :=
  if list.currentSelected + 1 < list.visibleRowsLen then list.setCurrentSelected (list.currentSelected + 1) else list

/-- `page_up`. -/
def pageUp (list : PacketListDelegate T) : PacketListDelegate T :=
  let old := list.currentSelected
  if old - 20 ≠ old then list.setCurrentSelected (old - 20) else list

/-- `page_down`. -/
def pageDown (list : PacketListDelegate T) : PacketListDelegate T :=
  if list.visibleRowsLen = 0 then list
  else
    let old := list.currentSelected
    let selected := min (old + 20) (list.visibleRowsLen - 1)
    if selected ≠ old then list.setCurrentSelected selected else list

/-- `jump_to_bottom`. -/
def jumpToBottom (list : PacketListDelegate T) : PacketListDelegate T :=
  if list.visibleRowsLen = 0 then list else list.setCurrentSelected (list.visibleRowsLen - 1)

/-- `select_row`. -/
def selectRow (idx : Nat) (list : PacketListDelegate T) : PacketListDelegate T :=
  if idx < list.visibleRowsLen then list.setCurrentSelected idx else list

/-! ## Rows that leave -/

/-- The ids of the rows that a matcher selects, in row order. -/
def matchingRowIds (matcher : SearchMatcher) (rows : List PacketRow) : List Str :=
  (rows.filter fun row => row.id ≠ [] && matcher.matches row).map PacketRow.id

/-- `remove_waiting_row_if_needed`; the index keeps what it has. -/
def removeWaitingRowIfNeeded (list : PacketListDelegate T) : PacketListDelegate T :=
  match list.rows with
  | [row] =>
      if row.id = [] ∧ row.line = waitingRowText then
        { list with rows := [], searchRowIds := [], mainSelected := 0, searchSelected := 0, selected := 0 }
      else list
  | _ => list

/-- `rebuild_search_rows_if_needed`. -/
def rebuildSearchRowsIfNeeded (list : PacketListDelegate T) : PacketListDelegate T :=
  match list.mode, list.searchMatcher with
  | .search, some matcher =>
      let searchRowIds := matchingRowIds matcher list.rows
      { list with searchRowIds, searchSelected := min list.searchSelected (searchRowIds.length - 1) }
  | _, _ => list

/-- `trim_rows_if_needed`: once, however long the list is. -/
def trimRowsIfNeeded (list : PacketListDelegate T) : PacketListDelegate T :=
  if list.rows.length ≤ maxRows then list
  else
    let drainCount := min trimRows list.rows.length
    let rows := list.rows.drop drainCount
    let list := { list with
      rows, idToRowIndex := rowIndex rows, mainSelected := list.mainSelected - drainCount }
    let list := match list.mode with
      | .main => list
      | .search =>
          let retained := list.searchRowIds.filter fun id => (list.idToRowIndex.lookup id).isSome
          let searchRowIds := list.searchMatcher.elim retained fun matcher => matchingRowIds matcher rows
          { list with searchRowIds, searchSelected := min list.searchSelected (searchRowIds.length - 1) }
    list.clampCurrentSelected

/-! ## Rows that come -/

/-- A row at the end, with its place in the index. -/
def addRow (list : PacketListDelegate T) (row : PacketRow) : PacketListDelegate T :=
  { list with rows := list.rows ++ [row], idToRowIndex := list.idToRowIndex.insert row.id list.rows.length }

/-- The row of a packet that starts. -/
def startedRow (pkt : PacketStarted) (displayTime : Str) : PacketRow :=
  let row : PacketRow :=
    { id := pkt.id
      seq := pkt.seq
      flowKey := pkt.flowKey
      flowDir := none
      time := displayTime
      method := pkt.method
      status := none
      elapsedMs := none
      protocol := pkt.protocol
      host := pkt.host
      uri := pkt.uri
      queryStr := pkt.queryStr
      marks := []
      line := [] }
  row.refreshLine

/-- `on_packet_started`. -/
def onPacketStarted (pkt : PacketStarted) (list : PacketListDelegate T) : PacketListDelegate T :=
  let displayed := env.formatPacketTime list.timeFormatter pkt.time pkt.epochMs
  let row := startedRow pkt displayed.1
  let listed := list.mode = .search ∧ list.searchMatcher.any (fun matcher => matcher.matches row) = true
  let searchRowIds := if listed then list.searchRowIds ++ [row.id] else list.searchRowIds
  { list with timeFormatter := displayed.2, searchRowIds }.addRow row

/-- The row of a tunnel that could not be set up. -/
def tunnelFailedRow (pkt : PacketTunnelFailed) (captureFlowsDir displayTime : Str) : PacketRow :=
  let row : PacketRow :=
    { id := pkt.id
      seq := pkt.seq
      flowKey := pkt.flowKey
      flowDir := some (joinPath captureFlowsDir pkt.flowKey)
      time := displayTime
      method := "CONNECT".toList
      status := none
      elapsedMs := none
      protocol := "https".toList
      host := pkt.host
      uri := ':' :: Nat.toDigits 10 pkt.port.toNat
      queryStr := []
      marks := if pkt.marks = [] then [tlsFailedMark] else pkt.marks
      line := [] }
  row.refreshLine

/-- `on_tunnel_failed`; the search list is not touched. -/
def onTunnelFailed (pkt : PacketTunnelFailed) (list : PacketListDelegate T) : PacketListDelegate T :=
  let displayed := env.formatPacketTime list.timeFormatter pkt.time pkt.epochMs
  let detail : TunnelFailureDetail := ⟨pkt.stage, pkt.error, pkt.host, pkt.port⟩
  let row := tunnelFailedRow pkt list.captureFlowsDir displayed.1
  let tunnelFailures := list.tunnelFailures.insert pkt.id detail
  { list with timeFormatter := displayed.2, tunnelFailures }.addRow row

/-- The row of a system message; it has no id. -/
def systemRow (line : Str) : PacketRow where
  id := []
  seq := 0
  flowKey := []
  flowDir := none
  time := "test time".toList
  method := "test method".toList
  status := none
  elapsedMs := none
  protocol := "test protocol".toList
  host := "test host".toList
  uri := "test url".toList
  queryStr := []
  marks := []
  line := line

/-- `append_system_line`. -/
def appendSystemLine (line : Str) (list : PacketListDelegate T) : PacketListDelegate T :=
  { list with rows := list.rows ++ [systemRow line] }.trimRowsIfNeeded

/-! ## Rows that change -/

/-- What `on_packet_completed` does to a row. -/
def completedRow (pkt : PacketCompleted) (row : PacketRow) : PacketRow :=
  { row with status := some pkt.status, elapsedMs := some pkt.elapsedMs }.refreshLine

/-- `on_packet_completed`. -/
def onPacketCompleted (pkt : PacketCompleted) (list : PacketListDelegate T) : PacketListDelegate T :=
  match list.idToRowIndex.lookup pkt.id with
  | none => list
  | some idx =>
      match list.rows[idx]? with
      | none => list
      | some row => { list with rows := list.rows.set idx (completedRow pkt row) }.rebuildSearchRowsIfNeeded

/-- What `on_packet_marked` does to a row. -/
def markedRow (pkt : PacketMarked) (row : PacketRow) : PacketRow :=
  let mark : RowMark := ⟨pkt.label, pkt.color⟩
  if mark ∈ row.marks then row else { row with marks := row.marks ++ [mark] }.refreshLine

/-- `on_packet_marked`: the row of the packet, or the first one of the same flow. -/
def onPacketMarked (pkt : PacketMarked) (list : PacketListDelegate T) : PacketListDelegate T :=
  let idx := (list.idToRowIndex.lookup pkt.id).or (list.rows.findIdx? fun row => row.flowKey = pkt.flowKey)
  match idx with
  | none => list
  | some idx =>
      match list.rows[idx]? with
      | none => list
      | some row => { list with rows := list.rows.set idx (markedRow pkt row) }

/-! ## Search -/

/-- `clear_search`. -/
def clearSearch (list : PacketListDelegate T) : PacketListDelegate T :=
  { list with mode := .main, searchQuery := [], searchMatcher := none, searchError := none,
              searchRowIds := [] }.clampCurrentSelected

/-- `search_url`. -/
def searchUrl (query : Str) (list : PacketListDelegate T) : PacketListDelegate T :=
  match SearchMatcher.parse env.regexNew query with
  | .ok (some matcher) =>
      { list with searchQuery := matcher.label, searchRowIds := matchingRowIds matcher list.rows,
                  searchMatcher := some matcher, searchError := none, mode := .search,
                  searchSelected := 0 }.clampCurrentSelected
  | .ok none => list.clearSearch
  | .error err =>
      { list with searchError := some ("invalid regex: ".toList ++ err) }.appendSystemLine
        ("=== invalid regex: ".toList ++ err ++ " ===".toList)

/-- `select_flow_key`. -/
def selectFlowKey (flowKey : Str) (list : PacketListDelegate T) : PacketListDelegate T :=
  match list.rows.findIdx? fun row => row.flowKey = flowKey with
  | none =>
      list.appendSystemLine ("=== search result not found in packet list: ".toList ++ flowKey ++ " ===".toList)
  | some idx =>
      { list with mode := .main, searchRowIds := [], searchQuery := [], searchMatcher := none,
                  searchError := none, mainSelected := idx, selected := idx }

/-! ## Polling -/

/-- One round of the loop of `poll_incoming`. -/
def onEvent (list : PacketListDelegate T) (event : PacketEvent) : PacketListDelegate T :=
  let list := list.removeWaitingRowIfNeeded
  match event with
  | .started pkt => onPacketStarted env pkt list
  | .completed pkt => onPacketCompleted pkt list
  | .marked pkt => onPacketMarked pkt list
  | .tunnelFailed pkt => onTunnelFailed env pkt list

/-- `poll_incoming`, with what the channel delivers during the call. -/
def pollIncoming (batch : List PacketEvent) (list : PacketListDelegate T) : PacketListDelegate T :=
  let polled := batch.foldl (onEvent env) list
  if batch = [] then polled else polled.trimRowsIfNeeded.clampCurrentSelected

/-- What can happen to the list, each in one step. -/
inductive Step where
  | event (event : PacketEvent)
  | trim
  | clamp
  | systemLine (line : Str)
  | moveUp
  | moveDown
  | pageUp
  | pageDown
  | jumpToBottom
  | selectRow (idx : Nat)
  | searchUrl (query : Str)
  | clearSearch
  | selectFlowKey (flowKey : Str)

/-- One step. -/
def step (list : PacketListDelegate T) : Step → PacketListDelegate T
  | .event event => list.onEvent env event
  | .trim => list.trimRowsIfNeeded
  | .clamp => list.clampCurrentSelected
  | .systemLine line => list.appendSystemLine line
  | .moveUp => list.moveUp
  | .moveDown => list.moveDown
  | .pageUp => list.pageUp
  | .pageDown => list.pageDown
  | .jumpToBottom => list.jumpToBottom
  | .selectRow idx => list.selectRow idx
  | .searchUrl query => list.searchUrl env query
  | .clearSearch => list.clearSearch
  | .selectFlowKey flowKey => list.selectFlowKey flowKey

/-- A whole run. -/
def runFrom (list : PacketListDelegate T) (steps : List Step) : PacketListDelegate T := steps.foldl (step env) list

/-- The kinds of steps: a step that only moves the selection is one of them. -/
theorem step_induction {motive : PacketListDelegate T → Prop} {list : PacketListDelegate T} (next : Step)
    (same : motive list) (select : ∀ selected, motive (list.setCurrentSelected selected))
    (event : ∀ event, next = .event event → motive (list.onEvent env event)) (trim : motive list.trimRowsIfNeeded)
    (systemLine : ∀ line, motive (list.appendSystemLine line))
    (searchUrl : ∀ query, motive (list.searchUrl env query)) (clearSearch : motive list.clearSearch)
    (selectFlowKey : ∀ flowKey, motive (list.selectFlowKey flowKey)) : motive (step env list next) := by
  have hmove : ∀ (P : Prop) [Decidable P] (selected : Nat),
      motive (if P then list.setCurrentSelected selected else list) := by
    intro P _ selected
    split
    · exact select selected
    · exact same
  cases next with
  | event packetEvent => exact event packetEvent rfl
  | trim => exact trim
  | clamp => exact select _
  | systemLine line => exact systemLine line
  | moveUp => exact hmove _ _
  | moveDown => exact hmove _ _
  | pageUp => exact hmove _ _
  | pageDown =>
      show motive (if list.visibleRowsLen = 0 then list else _)
      split
      · exact same
      · exact hmove _ _
  | jumpToBottom =>
      show motive (if list.visibleRowsLen = 0 then list else _)
      split
      · exact same
      · exact select _
  | selectRow idx => exact hmove _ _
  | searchUrl query => exact searchUrl query
  | clearSearch => exact clearSearch
  | selectFlowKey flowKey => exact selectFlowKey flowKey

/-- The steps of one call of `poll_incoming`. -/
def pollSteps (batch : List PacketEvent) : List Step :=
  if batch = [] then [] else batch.map .event ++ [.trim, .clamp]

/-- A call of `poll_incoming` is a run. -/
theorem pollIncoming_eq_runFrom (batch : List PacketEvent) (list : PacketListDelegate T) :
    pollIncoming env batch list = runFrom env list (pollSteps batch) := by
  unfold pollIncoming pollSteps runFrom
  by_cases hempty : batch = []
  · subst hempty
    rfl
  · rw [if_neg hempty, if_neg hempty, List.foldl_append, List.foldl_map]
    rfl

end PacketListDelegate

end Inspect.Tui
