import Inspect.Tui.Correctness.Selection

/-!
# `Tui.Correctness.PacketHistory` — the rows of the list and what was told of the packets

A ledger has a row for every packet that was ever told of, in order, and every row has all that was told of its packet.
It knows no index, no limit, no search and no rows of messages. The list keeps a window on it: its packets are the last
rows of the ledger, and as long as it is not full they are all of them.
-/

namespace Inspect.Tui

open PacketListDelegate (completedRow markedRow startedRow tunnelFailedRow)

/-! ## The ledger -/

/-- What an event tells of the packet of a row. -/
def PacketRow.told (row : PacketRow) : PacketEvent → PacketRow
  | .completed pkt => if pkt.id = row.id then completedRow pkt row else row
  | .marked pkt => if pkt.id = row.id then markedRow pkt row else row
  | .started _ | .tunnelFailed _ => row

/-- What some events tell of the packet of a row. -/
def PacketRow.toldAll (row : PacketRow) (events : List PacketEvent) : PacketRow := events.foldl PacketRow.told row

/-- The id and the flow key of a packet that an event brings in. -/
def PacketEvent.newName : PacketEvent → Option (Str × Str)
  | .started pkt => some (pkt.id, pkt.flowKey)
  | .tunnelFailed pkt => some (pkt.id, pkt.flowKey)
  | .completed _ | .marked _ => none

structure Ledger (T : Type) where
  rows : List PacketRow
  timeFormatter : T

namespace Ledger

variable {T : Type} (env : TuiEnv T) (captureFlowsDir : Str)

/-- The packets of the database. -/
def ofSummaries (timeFormatter : T) (summaries : List PacketSummary) : Ledger T :=
  let (rows, timeFormatter) := rowsFromSummaries env timeFormatter summaries
  ⟨rows, timeFormatter⟩

/-- A new packet gets a row, and other events change the row of their packet. -/
def tell (ledger : Ledger T) (event : PacketEvent) : Ledger T :=
  match event with
  | .started pkt =>
      let displayed := env.formatPacketTime ledger.timeFormatter pkt.time pkt.epochMs
      ⟨ledger.rows ++ [startedRow pkt displayed.1], displayed.2⟩
  | .tunnelFailed pkt =>
      let displayed := env.formatPacketTime ledger.timeFormatter pkt.time pkt.epochMs
      ⟨ledger.rows ++ [tunnelFailedRow pkt captureFlowsDir displayed.1], displayed.2⟩
  | .completed _ | .marked _ => { ledger with rows := ledger.rows.map fun row => row.told event }

def tellAll (ledger : Ledger T) (events : List PacketEvent) : Ledger T := events.foldl (tell env captureFlowsDir) ledger

theorem tellAll_append (ledger : Ledger T) (front rest : List PacketEvent) :
    ledger.tellAll env captureFlowsDir (front ++ rest)
      = (ledger.tellAll env captureFlowsDir front).tellAll env captureFlowsDir rest := List.foldl_append ..

/-! ### The row of a packet -/

section Rows

variable {row row₀ : PacketRow} {event : PacketEvent} {events : List PacketEvent}

/-- The two rows stand for the same packet: no event tells of the parts that are the same. -/
structure SamePacket (row row' : PacketRow) : Prop where
  id : row.id = row'.id
  seq : row.seq = row'.seq
  flowKey : row.flowKey = row'.flowKey
  method : row.method = row'.method
  protocol : row.protocol = row'.protocol
  host : row.host = row'.host
  uri : row.uri = row'.uri
  queryStr : row.queryStr = row'.queryStr

theorem SamePacket.refl (row : PacketRow) : SamePacket row row := ⟨rfl, rfl, rfl, rfl, rfl, rfl, rfl, rfl⟩

theorem SamePacket.trans {row'' : PacketRow} (h : SamePacket row₀ row) (h' : SamePacket row row'') :
    SamePacket row₀ row'' :=
  ⟨h.id.trans h'.id, h.seq.trans h'.seq, h.flowKey.trans h'.flowKey, h.method.trans h'.method,
    h.protocol.trans h'.protocol, h.host.trans h'.host, h.uri.trans h'.uri, h.queryStr.trans h'.queryStr⟩

/-- What is told of a row. -/
theorem told_cases (row : PacketRow) (event : PacketEvent) :
    row.told event = row ∨ (∃ pkt, event = .completed pkt ∧ pkt.id = row.id ∧ row.told event = completedRow pkt row)
      ∨ ∃ pkt, event = .marked pkt ∧ pkt.id = row.id ∧ row.told event = markedRow pkt row := by
  unfold PacketRow.told
  cases event with
  | completed pkt =>
      by_cases hid : pkt.id = row.id
      · exact Or.inr (Or.inl ⟨pkt, rfl, hid, if_pos hid⟩)
      · exact Or.inl (if_neg hid)
  | marked pkt =>
      by_cases hid : pkt.id = row.id
      · exact Or.inr (Or.inr ⟨pkt, rfl, hid, if_pos hid⟩)
      · exact Or.inl (if_neg hid)
  | started pkt => exact Or.inl rfl
  | tunnelFailed pkt => exact Or.inl rfl

theorem samePacket_markedRow (pkt : PacketMarked) (row : PacketRow) : SamePacket (markedRow pkt row) row := by
  unfold markedRow
  dsimp only
  split <;> exact ⟨rfl, rfl, rfl, rfl, rfl, rfl, rfl, rfl⟩

theorem samePacket_told (row : PacketRow) (event : PacketEvent) : SamePacket (row.told event) row := by
  rcases told_cases row event with hsame | ⟨pkt, -, -, htold⟩ | ⟨pkt, -, -, htold⟩
  · rw [hsame]
    exact SamePacket.refl row
  · rw [htold]
    exact ⟨rfl, rfl, rfl, rfl, rfl, rfl, rfl, rfl⟩
  · rw [htold]
    exact samePacket_markedRow pkt row

theorem samePacket_toldAll (row : PacketRow) (events : List PacketEvent) : SamePacket (row.toldAll events) row := by
  induction events generalizing row with
  | nil => exact SamePacket.refl row
  | cons event events ih => exact (ih (row.told event)).trans (samePacket_told row event)

@[simp] theorem told_id (row : PacketRow) (event : PacketEvent) : (row.told event).id = row.id :=
  (samePacket_told row event).id

theorem toldAll_append (row : PacketRow) (events : List PacketEvent) (event : PacketEvent) :
    row.toldAll (events ++ [event]) = (row.toldAll events).told event := List.foldl_append ..

/-- The row shows the end of a packet, or none. -/
def Ended (ends : PacketCompleted → Prop) (row : PacketRow) : Prop :=
  (row.status = none ∧ row.elapsedMs = none)
    ∨ ∃ pkt, ends pkt ∧ pkt.id = row.id ∧ row.status = some pkt.status ∧ row.elapsedMs = some pkt.elapsedMs

theorem Ended.mono {ends ends' : PacketCompleted → Prop} (h : Ended ends row) (hends : ∀ pkt, ends pkt → ends' pkt) :
    Ended ends' row := by
  refine h.imp_right ?_
  rintro ⟨pkt, hpkt, hrest⟩
  exact ⟨pkt, hends pkt hpkt, hrest⟩

/-- A row that came without an end shows one that it was told of, or none. -/
theorem toldAll_ended (hstatus : row.status = none) (helapsed : row.elapsedMs = none) :
    Ended (fun pkt => .completed pkt ∈ events) (row.toldAll events) := by
  induction events using List.reverseRecOn with
  | nil => exact Or.inl ⟨hstatus, helapsed⟩
  | append_singleton events event ih =>
      have hbefore := ih.mono fun pkt (hmem : .completed pkt ∈ events) => List.mem_append_left [event] hmem
      rw [toldAll_append]
      rcases told_cases (row.toldAll events) event with hsame | ⟨pkt, rfl, hpkt, htold⟩ | ⟨pkt, rfl, hpkt, htold⟩
      · rwa [hsame]
      · rw [htold]
        exact Or.inr ⟨pkt, by simp, hpkt, rfl, rfl⟩
      · have hmarked : (markedRow pkt (row.toldAll events)).status = (row.toldAll events).status
            ∧ (markedRow pkt (row.toldAll events)).elapsedMs = (row.toldAll events).elapsedMs := by
          unfold markedRow
          dsimp only
          split <;> exact ⟨rfl, rfl⟩
        rw [htold]
        unfold Ended
        rw [hmarked.1, hmarked.2, PacketListDelegate.markedRow_id]
        exact hbefore

/-- A mark that a row has not come with is one of its packet. -/
theorem toldAll_marks {mark : RowMark} (h : mark ∈ (row.toldAll events).marks) :
    mark ∈ row.marks ∨ ∃ pkt, .marked pkt ∈ events ∧ pkt.id = row.id ∧ mark = ⟨pkt.label, pkt.color⟩ := by
  induction events using List.reverseRecOn with
  | nil => exact Or.inl h
  | append_singleton events event ih =>
      rw [toldAll_append] at h
      have hbefore : mark ∈ (row.toldAll events).marks → mark ∈ row.marks
          ∨ ∃ pkt, .marked pkt ∈ events ++ [event] ∧ pkt.id = row.id ∧ mark = ⟨pkt.label, pkt.color⟩ := by
        intro hmem
        rcases ih hmem with hrow | ⟨pkt, hpkt, hid, heq⟩
        · exact Or.inl hrow
        · exact Or.inr ⟨pkt, List.mem_append_left _ hpkt, hid, heq⟩
      rcases told_cases (row.toldAll events) event with hsame | ⟨pkt, rfl, -, htold⟩ | ⟨pkt, rfl, hpkt, htold⟩
      · rw [hsame] at h
        exact hbefore h
      · rw [htold] at h
        exact hbefore h
      · rw [htold] at h
        have hmarks : mark ∈ (row.toldAll events).marks ∨ mark = ⟨pkt.label, pkt.color⟩ := by
          unfold markedRow at h
          dsimp only at h
          split at h
          · exact Or.inl h
          · simpa [PacketRow.refreshLine] using h
        rcases hmarks with hmem | rfl
        · exact hbefore hmem
        · exact Or.inr ⟨pkt, by simp, hpkt.trans (samePacket_toldAll row events).id, rfl⟩

/-- The row that a new packet gets; the text of its time depends on the times before. -/
def NewRow : PacketEvent → PacketRow → Prop
  | .started pkt, row => ∃ displayTime, row = startedRow pkt displayTime
  | .tunnelFailed pkt, row => ∃ displayTime, row = tunnelFailedRow pkt captureFlowsDir displayTime
  | .completed _, _ | .marked _, _ => False

variable {captureFlowsDir}

theorem NewRow.newId (h : NewRow captureFlowsDir event row) : event.newId = some row.id := by
  cases event with
  | started pkt =>
      obtain ⟨displayTime, rfl⟩ := h
      rfl
  | tunnelFailed pkt =>
      obtain ⟨displayTime, rfl⟩ := h
      rfl
  | completed pkt => exact h.elim
  | marked pkt => exact h.elim

/-- A row after an event was there before, or it is new. -/
theorem mem_tell {ledger : Ledger T} (h : row ∈ (ledger.tell env captureFlowsDir event).rows) :
    (∃ row₀ ∈ ledger.rows, row = row₀.told event) ∨ NewRow captureFlowsDir event row := by
  cases event with
  | started pkt =>
      rcases List.mem_append.mp h with hmem | hmem
      · exact Or.inl ⟨row, hmem, rfl⟩
      · exact Or.inr ⟨_, List.mem_singleton.mp hmem⟩
  | tunnelFailed pkt =>
      rcases List.mem_append.mp h with hmem | hmem
      · exact Or.inl ⟨row, hmem, rfl⟩
      · exact Or.inr ⟨_, List.mem_singleton.mp hmem⟩
  | completed pkt =>
      obtain ⟨row₀, hmem, rfl⟩ := List.mem_map.mp h
      exact Or.inl ⟨row₀, hmem, rfl⟩
  | marked pkt =>
      obtain ⟨row₀, hmem, rfl⟩ := List.mem_map.mp h
      exact Or.inl ⟨row₀, hmem, rfl⟩

/-- **A row of the ledger has what was told of its packet since it came.** -/
theorem mem_tellAll {ledger : Ledger T} (h : row ∈ (ledger.tellAll env captureFlowsDir events).rows) :
    (∃ row₀ ∈ ledger.rows, row = row₀.toldAll events)
      ∨ ∃ front event rest row₀, events = front ++ event :: rest ∧ NewRow captureFlowsDir event row₀
        ∧ row = row₀.toldAll rest := by
  induction events using List.reverseRecOn generalizing row with
  | nil => exact Or.inl ⟨row, h, rfl⟩
  | append_singleton events event ih =>
      rw [tellAll_append] at h
      rcases mem_tell env h with ⟨row', hmem, rfl⟩ | hnew
      · rcases ih hmem with ⟨row₀, hmem₀, rfl⟩ | ⟨front, first, rest, row₀, rfl, hnew, rfl⟩
        · refine Or.inl ⟨row₀, hmem₀, ?_⟩
          simp [PacketRow.toldAll]
        · refine Or.inr ⟨front, first, rest ++ [event], row₀, by simp, hnew, ?_⟩
          simp [PacketRow.toldAll]
      · exact Or.inr ⟨events, event, [], row, rfl, hnew, rfl⟩

end Rows

/-- The packets of a ledger are those that came, in order. -/
theorem tellAll_ids (timeFormatter : T) (events : List PacketEvent) :
    ((⟨[], timeFormatter⟩ : Ledger T).tellAll env captureFlowsDir events).rows.map PacketRow.id
      = events.filterMap PacketEvent.newId := by
  induction events using List.reverseRecOn with
  | nil => rfl
  | append_singleton events event ih =>
      rw [tellAll_append, List.filterMap_append, ← ih]
      generalize (⟨[], timeFormatter⟩ : Ledger T).tellAll env captureFlowsDir events = ledger
      have htold : ∀ event, (ledger.rows.map fun row => row.told event).map PacketRow.id
          = ledger.rows.map PacketRow.id ++ [] := by
        intro event
        rw [List.map_map, List.append_nil]
        exact List.map_congr_left fun row _ => told_id row event
      cases event with
      | started pkt => exact List.map_append
      | tunnelFailed pkt => exact List.map_append
      | completed pkt => exact htold _
      | marked pkt => exact htold _

end Ledger

namespace PacketListDelegate

variable {T : Type} {env : TuiEnv T} {list : PacketListDelegate T} {used : List Str}

/-! ## The window -/

/-- The rows that stand for packets. -/
def packetRows (rows : List PacketRow) : List PacketRow := rows.filter fun row => row.id ≠ []

/-- Rows that left the list left it full. -/
def rowsLeft : Nat := maxRows - trimRows

/-- The list has the last packets of a ledger, and all of them unless it is full. -/
structure WindowOn (captureFlowsDir : Str) (ledger : Ledger T) (list : PacketListDelegate T) : Prop where
  suffix : packetRows list.rows <:+ ledger.rows
  all : packetRows list.rows = ledger.rows ∨ rowsLeft < list.rows.length
  timeFormatter : list.timeFormatter = ledger.timeFormatter
  captureFlowsDir : list.captureFlowsDir = captureFlowsDir

@[simp] theorem packetRows_append (rows rows' : List PacketRow) :
    packetRows (rows ++ rows') = packetRows rows ++ packetRows rows' := List.filter_append ..

theorem packetRows_singleton {row : PacketRow} (h : row.id ≠ []) : packetRows [row] = [row] := by
  simp [packetRows, h]

theorem mem_packetRows {rows : List PacketRow} {row : PacketRow} :
    row ∈ packetRows rows ↔ row ∈ rows ∧ row.id ≠ [] := by
  simp [packetRows]

/-- A row without an id can change as it likes. -/
theorem packetRows_set {rows : List PacketRow} {idx : Nat} {row row' : PacketRow} (hrow : rows[idx]? = some row)
    (hid : row.id = []) (hid' : row'.id = []) : packetRows (rows.set idx row') = packetRows rows := by
  induction rows generalizing idx with
  | nil => rfl
  | cons first rows ih =>
      cases idx with
      | zero =>
          cases hrow
          simp [packetRows, hid, hid']
      | succ idx =>
          have hrest := @ih idx hrow
          unfold packetRows at hrest ⊢
          rw [List.set_cons_succ, List.filter_cons, List.filter_cons, hrest]

/-- Where ids are unique, changing the row of an id is changing every row with this id. -/
theorem set_eq_map {rows : List PacketRow} (hunique : UniqueIds (rows.map PacketRow.id)) {idx : Nat} {row : PacketRow}
    (hrow : rows[idx]? = some row) (hid : row.id ≠ []) (change : PacketRow → PacketRow) :
    rows.set idx (change row) = rows.map fun other => if row.id = other.id then change other else other := by
  have hget : ∀ (j : Nat) (other : PacketRow), rows[j]? = some other → (rows.map PacketRow.id)[j]? = some other.id := by
    intro j other hother
    rw [List.getElem?_map, hother, Option.map_some]
  apply List.ext_getElem?
  intro j
  rw [List.getElem?_map, List.getElem?_set]
  by_cases heq : idx = j
  · subst heq
    have hlt : idx < rows.length := (List.getElem?_eq_some_iff.mp hrow).1
    rw [if_pos rfl, if_pos hlt, hrow]
    simp
  · rw [if_neg heq]
    cases hother : rows[j]? with
    | none => rfl
    | some other =>
        have hne : row.id ≠ other.id := by
          intro hsame
          exact heq (hunique row.id hid idx j (hget idx row hrow) (hsame ▸ hget j other hother))
        rw [Option.map_some, if_neg hne]

/-- A row whose packet is not told of stays as it is. -/
theorem map_told_of_not_mem {rows : List PacketRow} {event : PacketEvent}
    (h : ∀ row ∈ rows, row.told event = row) : rows.map (fun row => row.told event) = rows := by
  conv_rhs => rw [← List.map_id rows]
  exact List.map_congr_left h

theorem packetRows_map_told (rows : List PacketRow) (event : PacketEvent) :
    packetRows (rows.map fun row => row.told event) = (packetRows rows).map fun row => row.told event := by
  unfold packetRows
  rw [List.filter_map]
  congr 2
  funext row
  simp

/-! ### One event -/

theorem WellIndexed.lookup_none (h : WellIndexed used list) {id : Str} (hlookup : list.idToRowIndex.lookup id = none)
    {row : PacketRow} (hmem : row ∈ packetRows list.rows) : row.id ≠ id := by
  rintro rfl
  obtain ⟨hrow, hid⟩ := mem_packetRows.mp hmem
  obtain ⟨i, hi⟩ := List.mem_iff_getElem?.mp hrow
  rw [h.lookup hi hid] at hlookup
  cases hlookup

/-- The row that the index has for an id. -/
theorem WellIndexed.lookup_some (h : WellIndexed used list) {id : Str} {idx : Nat}
    (hlookup : list.idToRowIndex.lookup id = some idx) :
    ∃ row, list.rows[idx]? = some row ∧ row.id = id ∧ id ≠ [] := by
  obtain ⟨hid, hplace⟩ := (h.index id idx).mp hlookup
  rw [ids, List.getElem?_map, Option.map_eq_some_iff] at hplace
  obtain ⟨row, hrow, heq⟩ := hplace
  exact ⟨row, hrow, heq, hid⟩

/-- The end of a packet is told to the row of the packet. -/
theorem WellIndexed.completed_packetRows (h : WellIndexed used list) (pkt : PacketCompleted) :
    packetRows (PacketListDelegate.onPacketCompleted pkt list).rows
      = (packetRows list.rows).map fun row => row.told (.completed pkt) := by
  unfold PacketListDelegate.onPacketCompleted
  cases hlookup : list.idToRowIndex.lookup pkt.id with
  | none =>
      refine (map_told_of_not_mem fun row hmem => ?_).symm
      exact if_neg (Ne.symm (h.lookup_none hlookup hmem))
  | some idx =>
      obtain ⟨row, hrow, hid, hne⟩ := h.lookup_some hlookup
      dsimp only
      rw [hrow]
      dsimp only
      rw [rebuildSearchRowsIfNeeded_rows, ← packetRows_map_told, set_eq_map h.index.unique hrow (hid ▸ hne), hid]
      rfl

/-- A mark is told to the row of the packet, if its flow key is that of no other packet. -/
theorem WellIndexed.marked_packetRows (h : WellIndexed used list) (pkt : PacketMarked)
    (hname : ∀ row ∈ packetRows list.rows, row.flowKey = pkt.flowKey → row.id = pkt.id) :
    packetRows (PacketListDelegate.onPacketMarked pkt list).rows
      = (packetRows list.rows).map fun row => row.told (.marked pkt) := by
  unfold PacketListDelegate.onPacketMarked
  cases hlookup : list.idToRowIndex.lookup pkt.id with
  | some idx =>
      obtain ⟨row, hrow, hid, hne⟩ := h.lookup_some hlookup
      rw [Option.some_or]
      dsimp only
      rw [hrow]
      dsimp only
      rw [← packetRows_map_told, set_eq_map h.index.unique hrow (hid ▸ hne), hid]
      rfl
  | none =>
      have hsame : (packetRows list.rows).map (fun row => row.told (.marked pkt)) = packetRows list.rows :=
        map_told_of_not_mem fun row hmem => if_neg (Ne.symm (h.lookup_none hlookup hmem))
      rw [hsame, Option.none_or]
      dsimp only
      cases hfind : list.rows.findIdx? fun row => row.flowKey = pkt.flowKey with
      | none => rfl
      | some idx =>
          dsimp only
          cases hrow : list.rows[idx]? with
          | none => rfl
          | some row =>
              -- a packet with this flow key would have been found by its id
              have hkey : row.flowKey = pkt.flowKey := by
                obtain ⟨hlt, hfound, -⟩ := List.findIdx?_eq_some_iff_getElem.mp hfind
                obtain ⟨_, hget⟩ := List.getElem?_eq_some_iff.mp hrow
                rw [hget] at hfound
                simpa using hfound
              have hid : row.id = [] := by
                by_contra hid
                have hmem : row ∈ packetRows list.rows := mem_packetRows.mpr ⟨List.mem_of_getElem? hrow, hid⟩
                exact h.lookup_none hlookup hmem (hname row hmem hkey)
              exact packetRows_set hrow hid ((markedRow_id pkt row).trans hid)

/-- The end of a packet changes neither the formatter of times nor the directory. -/
theorem onPacketCompleted_frame (pkt : PacketCompleted) (list : PacketListDelegate T) :
    (onPacketCompleted pkt list).timeFormatter = list.timeFormatter
      ∧ (onPacketCompleted pkt list).captureFlowsDir = list.captureFlowsDir := by
  unfold onPacketCompleted rebuildSearchRowsIfNeeded
  split
  · exact ⟨rfl, rfl⟩
  · split
    · exact ⟨rfl, rfl⟩
    · split <;> exact ⟨rfl, rfl⟩

/-- A mark changes neither the formatter of times nor the directory. -/
theorem onPacketMarked_frame (pkt : PacketMarked) (list : PacketListDelegate T) :
    (onPacketMarked pkt list).timeFormatter = list.timeFormatter
      ∧ (onPacketMarked pkt list).captureFlowsDir = list.captureFlowsDir := by
  unfold onPacketMarked
  dsimp only
  split
  · exact ⟨rfl, rfl⟩
  · split <;> exact ⟨rfl, rfl⟩

/-! ### What the operations do to the window -/

namespace WindowOn

variable {captureFlowsDir : Str} {ledger : Ledger T}

theorem of_eq {list' : PacketListDelegate T} (h : WindowOn captureFlowsDir ledger list)
    (hrows : packetRows list'.rows = packetRows list.rows)
    (hlength : rowsLeft < list.rows.length → rowsLeft < list'.rows.length)
    (htime : list'.timeFormatter = list.timeFormatter) (hdir : list'.captureFlowsDir = list.captureFlowsDir) :
    WindowOn captureFlowsDir ledger list' where
  suffix := hrows ▸ h.suffix
  all := h.all.imp (fun hall => hrows.trans hall) hlength
  timeFormatter := htime.trans h.timeFormatter
  captureFlowsDir := hdir.trans h.captureFlowsDir

theorem setCurrentSelected (h : WindowOn captureFlowsDir ledger list) (selected : Nat) :
    WindowOn captureFlowsDir ledger (list.setCurrentSelected selected) := by
  have hrows : (list.setCurrentSelected selected).rows = list.rows := setCurrentSelected_rows selected
  apply h.of_eq
  · rw [hrows]
  · rw [hrows]
    exact id
  · unfold PacketListDelegate.setCurrentSelected
    split <;> rfl
  · unfold PacketListDelegate.setCurrentSelected
    split <;> rfl

theorem clampCurrentSelected (h : WindowOn captureFlowsDir ledger list) :
    WindowOn captureFlowsDir ledger list.clampCurrentSelected := h.setCurrentSelected _

/-- The waiting row is no packet, and it is alone. -/
theorem removeWaitingRowIfNeeded (h : WindowOn captureFlowsDir ledger list) :
    WindowOn captureFlowsDir ledger list.removeWaitingRowIfNeeded := by
  unfold PacketListDelegate.removeWaitingRowIfNeeded
  split
  · rename_i row hrows
    split
    · rename_i hwaiting
      apply h.of_eq
      · simp [packetRows, hrows, hwaiting.1]
      · rw [hrows]
        intro hfull
        have honly : ¬rowsLeft < 1 := by decide
        exact absurd hfull honly
      · rfl
      · rfl
    · exact h
  · exact h

/-- What is trimmed are the first rows. -/
theorem trimRowsIfNeeded (h : WindowOn captureFlowsDir ledger list) :
    WindowOn captureFlowsDir ledger list.trimRowsIfNeeded := by
  have hrows : list.trimRowsIfNeeded.rows = if list.rows.length ≤ maxRows then list.rows
      else list.rows.drop trimRows := trimRowsIfNeeded_rows
  have hother : list.trimRowsIfNeeded.timeFormatter = list.timeFormatter
      ∧ list.trimRowsIfNeeded.captureFlowsDir = list.captureFlowsDir := by
    unfold PacketListDelegate.trimRowsIfNeeded PacketListDelegate.clampCurrentSelected
      PacketListDelegate.setCurrentSelected
    constructor <;> (split <;> [rfl; (dsimp only; split <;> split <;> rfl)])
  refine ⟨?_, ?_, hother.1.trans h.timeFormatter, hother.2.trans h.captureFlowsDir⟩
  · rw [hrows]
    split
    · exact h.suffix
    · exact ((List.drop_suffix trimRows list.rows).filter _).trans h.suffix
  · rw [hrows]
    split
    · exact h.all
    · rename_i hlong
      refine Or.inr ?_
      rw [List.length_drop]
      unfold rowsLeft maxRows trimRows
      unfold maxRows at hlong
      omega

theorem appendSystemLine (h : WindowOn captureFlowsDir ledger list) (line : Str) :
    WindowOn captureFlowsDir ledger (list.appendSystemLine line) := by
  apply trimRowsIfNeeded
  apply h.of_eq
  · simp [packetRows, systemRow]
  · intro hfull
    rw [List.length_append]
    omega
  · rfl
  · rfl

theorem clearSearch (h : WindowOn captureFlowsDir ledger list) : WindowOn captureFlowsDir ledger list.clearSearch := by
  apply clampCurrentSelected
  exact h.of_eq rfl id rfl rfl

theorem searchUrl (h : WindowOn captureFlowsDir ledger list) (query : Str) :
    WindowOn captureFlowsDir ledger (list.searchUrl env query) := by
  unfold PacketListDelegate.searchUrl
  split
  · apply clampCurrentSelected
    exact h.of_eq rfl id rfl rfl
  · exact h.clearSearch
  · apply appendSystemLine
    exact h.of_eq rfl id rfl rfl

theorem selectFlowKey (h : WindowOn captureFlowsDir ledger list) (flowKey : Str) :
    WindowOn captureFlowsDir ledger (list.selectFlowKey flowKey) := by
  unfold PacketListDelegate.selectFlowKey
  split
  · exact h.appendSystemLine _
  · exact h.of_eq rfl id rfl rfl

/-- A packet that comes gets the last row of both. -/
theorem addRow {row : PacketRow} {timeFormatter : T} (h : WindowOn captureFlowsDir ledger list) (hid : row.id ≠ [])
    {list' : PacketListDelegate T} (hrows : list'.rows = list.rows ++ [row])
    (htime : list'.timeFormatter = timeFormatter) (hdir : list'.captureFlowsDir = list.captureFlowsDir) :
    WindowOn captureFlowsDir ⟨ledger.rows ++ [row], timeFormatter⟩ list' := by
  have hpackets : packetRows list'.rows = packetRows list.rows ++ [row] := by
    rw [hrows, packetRows_append, packetRows_singleton hid]
  refine ⟨?_, ?_, htime, hdir.trans h.captureFlowsDir⟩
  · obtain ⟨front, hfront⟩ := h.suffix
    refine ⟨front, ?_⟩
    rw [hpackets, ← List.append_assoc, hfront]
  · refine h.all.imp (fun hall => ?_) (fun hfull => ?_)
    · rw [hpackets, hall]
    · rw [hrows, List.length_append]
      omega

/-- What an event tells of a packet is told to the row that both have of it. -/
theorem map_told {event : PacketEvent} (h : WindowOn captureFlowsDir ledger list) {list' : PacketListDelegate T}
    (hrows : packetRows list'.rows = (packetRows list.rows).map fun row => row.told event)
    (hlength : list'.rows.length = list.rows.length) (htime : list'.timeFormatter = list.timeFormatter)
    (hdir : list'.captureFlowsDir = list.captureFlowsDir) :
    WindowOn captureFlowsDir { ledger with rows := ledger.rows.map fun row => row.told event } list' := by
  refine ⟨?_, ?_, htime.trans h.timeFormatter, hdir.trans h.captureFlowsDir⟩
  · rw [hrows]
    exact h.suffix.map _
  · refine h.all.imp (fun hall => ?_) (fun hfull => ?_)
    · rw [hrows, hall]
    · rwa [hlength]

end WindowOn

/-! ### Runs -/

/-- The packets of a ledger have the names that were given to them. -/
def Named (names : List (Str × Str)) (ledger : Ledger T) : Prop := ∀ row ∈ ledger.rows, (row.id, row.flowKey) ∈ names

/-- A mark with the flow key of a packet has the id of this packet. -/
def MarksNamed (names : List (Str × Str)) (events : List PacketEvent) : Prop :=
  ∀ pkt, .marked pkt ∈ events → ∀ name ∈ names, name.2 = pkt.flowKey → name.1 = pkt.id

/-- The event of a step. -/
def Step.packetEvent : Step → Option PacketEvent
  | .event packetEvent => some packetEvent
  | _ => none

section Runs

variable {names : List (Str × Str)} {captureFlowsDir : Str} {ledger : Ledger T}

variable (env) in
/-- New packets have names, and the others keep theirs. -/
theorem Named.tell {event : PacketEvent} (h : Named names ledger) (hnew : ∀ name ∈ event.newName, name ∈ names) :
    Named names (ledger.tell env captureFlowsDir event) := by
  intro row hmem
  rcases Ledger.mem_tell env hmem with ⟨row₀, hmem₀, rfl⟩ | hrow
  · rw [Ledger.told_id, (Ledger.samePacket_told row₀ event).flowKey]
    exact h row₀ hmem₀
  · apply hnew
    cases event with
    | started pkt =>
        obtain ⟨displayTime, rfl⟩ := hrow
        exact rfl
    | tunnelFailed pkt =>
        obtain ⟨displayTime, rfl⟩ := hrow
        exact rfl
    | completed pkt => exact hrow.elim
    | marked pkt => exact hrow.elim

variable (env) in
/-- **One event is told to the list and to the ledger.** -/
theorem WindowOn.onEvent {event : PacketEvent} (h : WindowOn captureFlowsDir ledger list) (hindexed : WellIndexed used list)
    (hnamed : Named names ledger) (hid : event.newId ≠ some []) (hmarks : MarksNamed names [event]) :
    WindowOn captureFlowsDir (ledger.tell env captureFlowsDir event) (list.onEvent env event) := by
  have hremoved := h.removeWaitingRowIfNeeded
  have hindex := hindexed.removeWaitingRowIfNeeded
  have hlength : (list.onEvent env event).ids.length = _ := congrArg List.length (onEvent_ids list event)
  rw [List.length_append, ← rows_length_eq, ← rows_length_eq] at hlength
  unfold PacketListDelegate.onEvent at hlength ⊢
  generalize list.removeWaitingRowIfNeeded = list at hremoved hindex hlength ⊢
  cases event with
  | started pkt =>
      have hrow : (startedRow pkt (env.formatPacketTime ledger.timeFormatter pkt.time pkt.epochMs).1).id ≠ [] := by
        intro hempty
        exact hid (congrArg some hempty)
      apply hremoved.addRow hrow
      · show list.rows ++ [_] = _
        rw [hremoved.timeFormatter]
      · show (env.formatPacketTime list.timeFormatter pkt.time pkt.epochMs).2 = _
        rw [hremoved.timeFormatter]
      · rfl
  | tunnelFailed pkt =>
      have hrow : (tunnelFailedRow pkt captureFlowsDir
          (env.formatPacketTime ledger.timeFormatter pkt.time pkt.epochMs).1).id ≠ [] := by
        intro hempty
        exact hid (congrArg some hempty)
      apply hremoved.addRow hrow
      · show list.rows ++ [tunnelFailedRow pkt list.captureFlowsDir _] = _
        rw [hremoved.timeFormatter, hremoved.captureFlowsDir]
      · show (env.formatPacketTime list.timeFormatter pkt.time pkt.epochMs).2 = _
        rw [hremoved.timeFormatter]
      · rfl
  | completed pkt =>
      obtain ⟨htime, hdir⟩ := onPacketCompleted_frame pkt list
      exact hremoved.map_told (hindex.completed_packetRows pkt) hlength htime hdir
  | marked pkt =>
      obtain ⟨htime, hdir⟩ := onPacketMarked_frame pkt list
      refine hremoved.map_told (hindex.marked_packetRows pkt ?_) hlength htime hdir
      intro row hmem hkey
      exact hmarks pkt List.mem_cons_self _ (hnamed row (hremoved.suffix.subset hmem)) hkey

variable (env) in
/-- **One step**: only an event is told to the ledger. -/
theorem WindowOn.step (next : Step) (h : WindowOn captureFlowsDir ledger list) (hindexed : WellIndexed used list)
    (hnamed : Named names ledger) (hid : next.newId ≠ some []) (hmarks : MarksNamed names next.packetEvent.toList) :
    WindowOn captureFlowsDir (ledger.tellAll env captureFlowsDir next.packetEvent.toList)
      (PacketListDelegate.step env list next) := by
  cases next with
  | event packetEvent => exact h.onEvent env hindexed hnamed hid hmarks
  | trim => exact h.trimRowsIfNeeded
  | systemLine line => exact h.appendSystemLine line
  | searchUrl query => exact h.searchUrl query
  | clearSearch => exact h.clearSearch
  | selectFlowKey flowKey => exact h.selectFlowKey flowKey
  | clamp | moveUp | moveDown | pageUp | pageDown | jumpToBottom | selectRow idx =>
      -- the selection is moved, or stays
      show WindowOn captureFlowsDir ledger _
      apply step_induction
      · exact h
      · exact h.setCurrentSelected
      · rintro event hevent
        cases hevent
      · exact h.trimRowsIfNeeded
      · exact h.appendSystemLine
      · exact fun query => h.searchUrl query
      · exact h.clearSearch
      · exact h.selectFlowKey

variable (env) in
/-- **A whole run.** -/
theorem WindowOn.runFrom {steps : List Step} (h : WindowOn captureFlowsDir ledger list) (hindexed : WellIndexed used list)
    (hnamed : Named names ledger) (hfresh : FreshIds used (steps.filterMap Step.newId))
    (hnew : ∀ event ∈ steps.filterMap Step.packetEvent, ∀ name ∈ event.newName, name ∈ names)
    (hmarks : MarksNamed names (steps.filterMap Step.packetEvent)) :
    WindowOn captureFlowsDir (ledger.tellAll env captureFlowsDir (steps.filterMap Step.packetEvent))
      (PacketListDelegate.runFrom env list steps) := by
  induction steps generalizing list ledger used with
  | nil => exact h
  | cons next steps ih =>
      rw [filterMap_cons_toList] at hfresh hnew hmarks ⊢
      obtain ⟨hnext, hsteps⟩ := hfresh.append
      rw [Ledger.tellAll_append]
      have hid : next.newId ≠ some [] := by
        intro hempty
        exact hnext.nonempty (hempty ▸ List.mem_cons_self)
      refine ih (h.step env next hindexed hnamed hid ?_) (hindexed.step env next hnext) ?_ hsteps ?_ ?_
      · intro pkt hmem
        exact hmarks pkt (List.mem_append_left _ hmem)
      · cases hevent : next.packetEvent with
        | none => exact hnamed
        | some packetEvent =>
            refine hnamed.tell env ?_
            exact hnew packetEvent (by simp [hevent])
      · intro event hmem
        exact hnew event (List.mem_append_right _ hmem)
      · intro pkt hmem
        exact hmarks pkt (List.mem_append_right _ hmem)

end Runs

/-! ## Main result -/

/-- The packets of the database have their names. -/
theorem named_ofSummaries (env : TuiEnv T) (timeFormatter : T) (summaries : List PacketSummary) :
    Named (summaries.map fun summary => (summary.id, summary.flowKey))
      (Ledger.ofSummaries env timeFormatter summaries) := by
  show ∀ row ∈ (rowsFromSummaries env timeFormatter summaries).1, _
  induction summaries generalizing timeFormatter with
  | nil =>
      intro row hmem
      cases hmem
  | cons summary summaries ih =>
      intro row hmem
      rcases List.mem_cons.mp hmem with rfl | hmem
      · show (summary.id, summary.flowKey) ∈ _
        exact List.mem_cons_self
      · exact List.mem_cons_of_mem _ (ih _ row hmem)

/-- A new list shows all packets of the database. -/
theorem packetRows_new (env : TuiEnv T) (tuiMode : TuiMode) (captureFlowsDir : Str) (timeFormatter : T)
    {summaries : List PacketSummary} (hids : [] ∉ summaries.map PacketSummary.id) :
    packetRows (new env tuiMode captureFlowsDir timeFormatter summaries).rows
      = (rowsFromSummaries env timeFormatter summaries).1 := by
  show packetRows (if summaries = [] then [waitingRow] else (rowsFromSummaries env timeFormatter summaries).1)
    = (rowsFromSummaries env timeFormatter summaries).1
  split
  · rename_i hempty
    subst hempty
    rfl
  · refine List.filter_eq_self.mpr fun row hmem => ?_
    have hmem' : row.id ∈ summaries.map PacketSummary.id := by
      rw [← rowsFromSummaries_ids env timeFormatter summaries]
      exact List.mem_map_of_mem hmem
    have hid : row.id ≠ [] := fun hempty => hids (hempty ▸ hmem')
    simpa using hid

/-- A new list is a window on what is stored. -/
theorem windowOn_new (env : TuiEnv T) (tuiMode : TuiMode) (captureFlowsDir : Str) (timeFormatter : T)
    {summaries : List PacketSummary} (hids : [] ∉ summaries.map PacketSummary.id) :
    WindowOn captureFlowsDir (Ledger.ofSummaries env timeFormatter summaries)
      (new env tuiMode captureFlowsDir timeFormatter summaries) := by
  have hall := packetRows_new env tuiMode captureFlowsDir timeFormatter hids
  exact ⟨hall ▸ List.suffix_rfl, Or.inl hall, rfl, rfl⟩

/-- **The list shows the last packets, each with all that was told of it**, whatever the user does: if no id comes twice
    and flow keys name packets, the packets of the list are the last rows of the ledger, and all of them unless more
    than 9000 rows are left. Such a row is the one its packet came with, changed by the events of the packet since. -/
theorem packets_are_window_on_ledger (env : TuiEnv T) (tuiMode : TuiMode) (captureFlowsDir : Str) (timeFormatter : T)
    (summaries : List PacketSummary) (steps : List Step)
    (hfresh : FreshIds [] (summaries.map PacketSummary.id ++ steps.filterMap Step.newId))
    (hmarks : MarksNamed (summaries.map (fun summary => (summary.id, summary.flowKey))
      ++ (steps.filterMap Step.packetEvent).filterMap PacketEvent.newName) (steps.filterMap Step.packetEvent)) :
    let list := runFrom env (new env tuiMode captureFlowsDir timeFormatter summaries) steps
    let stored := Ledger.ofSummaries env timeFormatter summaries
    let events := steps.filterMap Step.packetEvent
    let ledger := stored.tellAll env captureFlowsDir events
    packetRows list.rows <:+ ledger.rows
    ∧ (packetRows list.rows = ledger.rows ∨ rowsLeft < list.rows.length)
    ∧ ∀ row ∈ packetRows list.rows, (∃ row₀ ∈ stored.rows, row = row₀.toldAll events)
        ∨ ∃ front event rest row₀, events = front ++ event :: rest ∧ Ledger.NewRow captureFlowsDir event row₀
          ∧ row = row₀.toldAll rest := by
  intro list stored events ledger
  obtain ⟨hkeys, hsteps⟩ := hfresh.append
  have hunique : UniqueIds (summaries.map PacketSummary.id) := by
    intro id _ i j hi hj
    obtain ⟨hlt, hget⟩ := List.getElem?_eq_some_iff.mp hi
    obtain ⟨hlt', hget'⟩ := List.getElem?_eq_some_iff.mp hj
    exact hkeys.nodup.getElem_inj_iff.mp (hget.trans hget'.symm)
  have hwindow : WindowOn captureFlowsDir ledger list := by
    refine (windowOn_new env tuiMode captureFlowsDir timeFormatter hkeys.nonempty).runFrom env
      (wellIndexed_new env tuiMode captureFlowsDir timeFormatter summaries hunique) ?_ hsteps ?_ hmarks
    · intro row hmem
      exact List.mem_append_left _ (named_ofSummaries env timeFormatter summaries row hmem)
    · intro event hmem name hname
      exact List.mem_append_right _ (List.mem_filterMap.mpr ⟨event, hmem, hname⟩)
  exact ⟨hwindow.suffix, hwindow.all, fun row hmem => Ledger.mem_tellAll env (hwindow.suffix.subset hmem)⟩

/-- A packet starts, is marked and ends; its row has all of it. -/
theorem packets_are_window_on_ledger_marked :
    let steps : List Step := [.event (.started (plainPacket "a")), .systemLine [],
      .event (.marked ⟨"a".toList, "a".toList, "m".toList, none⟩), .event (.completed ⟨"a".toList, 200, 5⟩)]
    let list := runFrom rawTimes (new rawTimes .capture [] () []) steps
    packetRows list.rows <:+ ((Ledger.ofSummaries rawTimes () []).tellAll rawTimes []
      (steps.filterMap Step.packetEvent)).rows ∧ list.rows.length = 2 := by
  intro steps list
  have hfresh : FreshIds [] ([].map PacketSummary.id ++ steps.filterMap Step.newId) :=
    ⟨by decide, by decide, by decide⟩
  have hmarks : MarksNamed ([].map (fun summary : PacketSummary => (summary.id, summary.flowKey))
      ++ (steps.filterMap Step.packetEvent).filterMap PacketEvent.newName) (steps.filterMap Step.packetEvent) := by
    intro pkt hmem name hname _
    simp [steps, Step.packetEvent] at hmem
    simp [steps, Step.packetEvent, PacketEvent.newName] at hname
    rw [← hmem, hname]
    rfl
  exact ⟨(packets_are_window_on_ledger rawTimes .capture [] () [] steps hfresh hmarks).1, by decide +kernel⟩

end PacketListDelegate

end Inspect.Tui
