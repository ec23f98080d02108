import Inspect.Lib.Run
import Inspect.Tui.Correctness.PacketIndex

/-!
# `Tui.Correctness.RowLimit` — how long the packet list gets

A call of `poll_incoming` takes all events that are there, and then removes `TRIM_ROWS` rows if there are more than
`MAX_ROWS`, once. So it keeps the limit exactly as long as it brings in no more rows than there is room for and one
trim removes.
-/

namespace Inspect.Tui

/-- The number of rows that a batch brings in. -/
def newRowCount (batch : List PacketEvent) : Nat := (batch.filterMap PacketEvent.newId).length

/-- The rows are the waiting row. -/
def Waiting (rows : List PacketRow) : Prop := ∃ row, rows = [row] ∧ row.id = [] ∧ row.line = waitingRowText

/-! ## No row becomes the waiting row -/

theorem refreshLine_line_ne (row : PacketRow) : row.refreshLine.line ≠ waitingRowText := by
  intro heq
  have hhead : row.refreshLine.line.head? = some '#' := rfl
  rw [heq] at hhead
  exact absurd hhead (by decide)

section Rows

variable {rows : List PacketRow}

theorem not_waiting_append (rows : List PacketRow) {row : PacketRow} (hline : row.line ≠ waitingRowText) :
    ¬Waiting (rows ++ [row]) := by
  rintro ⟨only, honly, -, hwaiting⟩
  have hlast := congrArg List.getLast? honly
  rw [List.getLast?_concat, List.getLast?_singleton] at hlast
  cases hlast
  exact hline hwaiting

theorem not_waiting_set (h : ¬Waiting rows) {idx : Nat} {row row' : PacketRow} (hrow : rows[idx]? = some row)
    (hline : row' = row ∨ row'.line ≠ waitingRowText) : ¬Waiting (rows.set idx row') := by
  obtain ⟨hlt, hget⟩ := List.getElem?_eq_some_iff.mp hrow
  rcases hline with rfl | hline
  · rw [← hget, List.set_getElem_self]
    exact h
  · rintro ⟨only, honly, -, hwaiting⟩
    have hmem : row' ∈ rows.set idx row' := List.mem_set hlt row'
    rw [honly, List.mem_singleton] at hmem
    exact hline (hmem ▸ hwaiting)

end Rows

namespace PacketListDelegate

variable {T : Type} {env : TuiEnv T} {list : PacketListDelegate T}

theorem removeWaitingRowIfNeeded_of_not_waiting (h : ¬Waiting list.rows) : list.removeWaitingRowIfNeeded = list := by
  unfold removeWaitingRowIfNeeded
  split
  · rename_i row hrows
    rw [if_neg]
    rintro ⟨hid, hline⟩
    exact h ⟨row, hrows, hid, hline⟩
  · rfl

theorem not_waiting_removeWaitingRowIfNeeded (list : PacketListDelegate T) :
    ¬Waiting list.removeWaitingRowIfNeeded.rows := by
  by_cases h : Waiting list.rows
  · obtain ⟨row, hrows, hid, hline⟩ := h
    unfold removeWaitingRowIfNeeded
    rw [hrows]
    dsimp only
    rw [if_pos ⟨hid, hline⟩]
    rintro ⟨only, honly, -⟩
    cases honly
  · rw [removeWaitingRowIfNeeded_of_not_waiting h]
    exact h

/-- After an event there are rows of packets, or none. -/
theorem not_waiting_onEvent (list : PacketListDelegate T) (event : PacketEvent) :
    ¬Waiting (list.onEvent env event).rows := by
  have hremoved := not_waiting_removeWaitingRowIfNeeded list
  unfold onEvent
  generalize list.removeWaitingRowIfNeeded = list at hremoved ⊢
  cases event with
  | started pkt => exact not_waiting_append _ (refreshLine_line_ne _)
  | tunnelFailed pkt => exact not_waiting_append _ (refreshLine_line_ne _)
  | completed pkt =>
      show ¬Waiting (onPacketCompleted pkt list).rows
      unfold onPacketCompleted
      split
      · exact hremoved
      · split
        · exact hremoved
        · rename_i row hrow
          rw [rebuildSearchRowsIfNeeded_rows]
          exact not_waiting_set hremoved hrow (Or.inr (refreshLine_line_ne _))
  | marked pkt =>
      show ¬Waiting (onPacketMarked pkt list).rows
      unfold onPacketMarked
      dsimp only
      split
      · exact hremoved
      · split
        · exact hremoved
        · rename_i row hrow
          refine not_waiting_set hremoved hrow ?_
          unfold markedRow
          dsimp only
          split
          · exact Or.inl rfl
          · exact Or.inr (refreshLine_line_ne _)

/-! ## How many rows there are -/

theorem rows_length_eq (list : PacketListDelegate T) : list.rows.length = list.ids.length := (List.length_map _).symm

/-- Only new packets bring rows. -/
theorem onEvent_ids (list : PacketListDelegate T) (event : PacketEvent) :
    (list.onEvent env event).ids = list.removeWaitingRowIfNeeded.ids ++ event.newId.toList := by
  unfold onEvent
  generalize list.removeWaitingRowIfNeeded = list
  cases event with
  | started pkt => exact addRow_ids _
  | tunnelFailed pkt => exact addRow_ids _
  | completed pkt =>
      show (onPacketCompleted pkt list).ids = list.ids ++ []
      rw [List.append_nil]
      unfold onPacketCompleted
      split
      · rfl
      · split
        · rfl
        · rename_i row hrow
          rw [ids, rebuildSearchRowsIfNeeded_rows]
          exact map_id_set hrow (completedRow_id pkt row)
  | marked pkt =>
      show (onPacketMarked pkt list).ids = list.ids ++ []
      rw [List.append_nil]
      unfold onPacketMarked
      dsimp only
      split
      · rfl
      · split
        · rfl
        · rename_i row hrow
          exact map_id_set hrow (markedRow_id pkt row)

/-- A batch brings its new packets, in order. -/
theorem foldl_onEvent_ids (batch : List PacketEvent) (h : ¬Waiting list.rows) :
    (batch.foldl (onEvent env) list).ids = list.ids ++ batch.filterMap PacketEvent.newId := by
  induction batch generalizing list with
  | nil => exact (List.append_nil _).symm
  | cons event batch ih =>
      -- the waiting row is gone after the first event
      rw [List.foldl_cons, ih (not_waiting_onEvent list event), onEvent_ids,
        removeWaitingRowIfNeeded_of_not_waiting h, List.append_assoc, filterMap_cons_toList]

variable (env) in
theorem foldl_onEvent_rows_length (batch : List PacketEvent) (h : ¬Waiting list.rows) :
    (batch.foldl (onEvent env) list).rows.length = list.rows.length + newRowCount batch := by
  rw [rows_length_eq, foldl_onEvent_ids batch h, List.length_append, rows_length_eq]
  rfl

theorem removeWaitingRowIfNeeded_rows_length_le (list : PacketListDelegate T) :
    list.removeWaitingRowIfNeeded.rows.length ≤ list.rows.length := by
  by_cases h : Waiting list.rows
  · obtain ⟨row, hrows, hid, hline⟩ := h
    unfold removeWaitingRowIfNeeded
    rw [hrows]
    dsimp only
    rw [if_pos ⟨hid, hline⟩]
    exact Nat.zero_le 1
  · rw [removeWaitingRowIfNeeded_of_not_waiting h]

/-- How many rows there are after a call of `poll_incoming` that has something to do. -/
theorem pollIncoming_rows_length {batch : List PacketEvent} (hne : batch ≠ []) (list : PacketListDelegate T) :
    (pollIncoming env batch list).rows.length
      = if list.removeWaitingRowIfNeeded.rows.length + newRowCount batch ≤ maxRows then
          list.removeWaitingRowIfNeeded.rows.length + newRowCount batch
        else list.removeWaitingRowIfNeeded.rows.length + newRowCount batch - trimRows := by
  have hfold : (batch.foldl (onEvent env) list).rows.length
      = list.removeWaitingRowIfNeeded.rows.length + newRowCount batch := by
    rw [← foldl_onEvent_rows_length env batch (not_waiting_removeWaitingRowIfNeeded list)]
    cases batch with
    | nil => exact absurd rfl hne
    | cons event batch =>
        -- the first event removes the waiting row itself
        rw [List.foldl_cons, List.foldl_cons]
        unfold onEvent
        rw [removeWaitingRowIfNeeded_of_not_waiting (not_waiting_removeWaitingRowIfNeeded list)]
  unfold pollIncoming clampCurrentSelected
  dsimp only
  rw [if_neg hne, setCurrentSelected_rows, trimRowsIfNeeded_rows, hfold]
  split
  · exact hfold
  · rw [List.length_drop, hfold]

/-! ## Main result -/

/-- There is room for the rows of a batch, counting those that one trim removes. -/
def HasRoom (list : PacketListDelegate T) (batch : List PacketEvent) : Prop :=
  list.removeWaitingRowIfNeeded.rows.length + newRowCount batch ≤ maxRows + trimRows

/-- One call of `poll_incoming` keeps the limit exactly if there is room for its batch. -/
theorem pollIncoming_bounded_iff (list : PacketListDelegate T) (batch : List PacketEvent)
    (h : list.rows.length ≤ maxRows) :
    (pollIncoming env batch list).rows.length ≤ maxRows ↔ list.HasRoom batch := by
  unfold HasRoom
  by_cases hempty : batch = []
  · subst hempty
    have hle := removeWaitingRowIfNeeded_rows_length_le list
    refine ⟨fun _ => ?_, fun _ => h⟩
    show list.removeWaitingRowIfNeeded.rows.length + 0 ≤ _
    omega
  · rw [pollIncoming_rows_length hempty]
    split <;> omega

/-- Call after call of `poll_incoming`. -/
def runPolls (env : TuiEnv T) (list : PacketListDelegate T) (batches : List (List PacketEvent)) :
    PacketListDelegate T :=
  batches.foldl (fun list batch => pollIncoming env batch list) list

/-- **When the list stays within its limit**: from a list within the limit, throughout all calls of `poll_incoming`
    exactly if at every call the rows there are (without the waiting row) and the new ones of the batch are at most
    `MAX_ROWS + TRIM_ROWS`. -/
theorem rows_bounded_iff (env : TuiEnv T) (list : PacketListDelegate T) (batches : List (List PacketEvent))
    (h : list.rows.length ≤ maxRows) :
    (∀ front, front <+: batches → (runPolls env list front).rows.length ≤ maxRows)
      ↔ ∀ front batch rest, batches = front ++ batch :: rest → (runPolls env list front).HasRoom batch :=
  Run.throughout_iff (P := fun list : PacketListDelegate T => list.rows.length ≤ maxRows)
    pollIncoming_bounded_iff h batches

/-- Packets with the numbers from `start` on. -/
def numberedPackets (start count : Nat) : List PacketEvent :=
  (List.range' start count).map fun n => .started (plainPacket n.repr)

theorem newRowCount_numberedPackets (start count : Nat) : newRowCount (numberedPackets start count) = count := by
  unfold newRowCount numberedPackets
  rw [List.filterMap_map]
  simp [Function.comp_def, PacketEvent.newId]

theorem numberedPackets_ne_nil {start count : Nat} (h : count ≠ 0) : numberedPackets start count ≠ [] := by
  simpa [numberedPackets] using h

/-- The rows after a batch, in a list that is not waiting. -/
theorem pollIncoming_numberedPackets (list : PacketListDelegate Unit) (start : Nat) {count : Nat} (hcount : count ≠ 0)
    (hlength : list.rows.length ≠ 1) :
    (pollIncoming rawTimes (numberedPackets start count) list).rows.length
      = if list.rows.length + count ≤ maxRows then list.rows.length + count
        else list.rows.length + count - trimRows := by
  have hnot : ¬Waiting list.rows := by
    rintro ⟨row, hrows, -⟩
    exact hlength (congrArg List.length hrows)
  rw [pollIncoming_rows_length (numberedPackets_ne_nil hcount), newRowCount_numberedPackets,
    removeWaitingRowIfNeeded_of_not_waiting hnot]

/-- Three batches, of which the first finds the waiting row and the first two find room. -/
theorem runPolls_numberedPackets {first second third : Nat} (hfirst : 1 < first) (hsecond : second ≠ 0)
    (hthird : third ≠ 0) (hroom : first + second ≤ maxRows) :
    let start := new rawTimes .capture [] () []
    let a := numberedPackets 0 first
    let b := numberedPackets first second
    let c := numberedPackets (first + second) third
    (runPolls rawTimes start [a]).rows.length = first
    ∧ (runPolls rawTimes start [a, b]).rows.length = first + second
    ∧ (runPolls rawTimes start [a, b, c]).rows.length
      = if first + second + third ≤ maxRows then first + second + third else first + second + third - trimRows := by
  intro start a b c
  have hwaiting : start.removeWaitingRowIfNeeded.rows.length = 0 := by decide
  have ha : (runPolls rawTimes start [a]).rows.length = first := by
    show (pollIncoming rawTimes a start).rows.length = first
    rw [pollIncoming_rows_length (numberedPackets_ne_nil (by omega)), newRowCount_numberedPackets, hwaiting,
      Nat.zero_add, if_pos (by omega)]
  have hb : (runPolls rawTimes start [a, b]).rows.length = first + second := by
    show (pollIncoming rawTimes b (runPolls rawTimes start [a])).rows.length = _
    rw [pollIncoming_numberedPackets _ _ hsecond (by omega), ha, if_pos hroom]
  refine ⟨ha, hb, ?_⟩
  show (pollIncoming rawTimes c (runPolls rawTimes start [a, b])).rows.length = _
  rw [pollIncoming_numberedPackets _ _ hthird (by omega), hb]

/-- Three batches, the last of which is trimmed, stay within the limit. -/
theorem rows_bounded_trimmed :
    let batches := [numberedPackets 0 4000, numberedPackets 4000 4000, numberedPackets 8000 2500]
    (∀ front, front <+: batches → (runPolls rawTimes (new rawTimes .capture [] () []) front).rows.length ≤ maxRows)
    ∧ (runPolls rawTimes (new rawTimes .capture [] () []) batches).rows.length = 9500 := by
  intro batches
  obtain ⟨ha, hb, hc⟩ := @runPolls_numberedPackets 4000 4000 2500 (by decide) (by decide) (by decide) (by decide)
  refine ⟨(rows_bounded_iff rawTimes _ batches (by decide)).mpr ?_, hc⟩
  intro front batch rest hsplit
  have hwaiting := removeWaitingRowIfNeeded_rows_length_le (runPolls rawTimes (new rawTimes .capture [] () []) front)
  have hroom : (runPolls rawTimes (new rawTimes .capture [] () []) front).rows.length + newRowCount batch
      ≤ maxRows + trimRows := by
    rcases front with _ | ⟨first, _ | ⟨second, _ | ⟨third, front⟩⟩⟩
    · obtain ⟨rfl, -⟩ := List.cons.inj hsplit
      rw [newRowCount_numberedPackets]
      decide
    · obtain ⟨rfl, htail⟩ := List.cons.inj hsplit
      obtain ⟨rfl, -⟩ := List.cons.inj htail
      rw [ha, newRowCount_numberedPackets]
      decide
    · obtain ⟨rfl, htail⟩ := List.cons.inj hsplit
      obtain ⟨rfl, hlast⟩ := List.cons.inj htail
      obtain ⟨rfl, -⟩ := List.cons.inj hlast
      rw [hb, newRowCount_numberedPackets]
      decide
    · have hlength := congrArg List.length hsplit
      simp [batches] at hlength
  exact (Nat.add_le_add_right hwaiting _).trans hroom

/-- Three batches that the event channel can hold leave more rows than there may be. -/
theorem rows_exceed_limit :
    let batches := [numberedPackets 0 4000, numberedPackets 4000 4000, numberedPackets 8000 3001]
    (new rawTimes .capture [] () []).rows.length ≤ maxRows
    ∧ ¬(runPolls rawTimes (new rawTimes .capture [] () []) batches).rows.length ≤ maxRows := by
  intro batches
  have hc := (@runPolls_numberedPackets 4000 4000 3001 (by decide) (by decide) (by decide) (by decide)).2.2
  refine ⟨by decide, ?_⟩
  rw [hc]
  decide

end PacketListDelegate
end Inspect.Tui
