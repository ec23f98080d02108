import Inspect.Tui.PacketList

/-!
# `Tui.Correctness.PacketIndex` — the index of the packet list

The index maps packet ids to places in a list that loses rows at its front and holds rows without an id. As long as no
id comes twice, it maps an id to a place exactly if the row at this place has the id; so an event for a packet finds
the row of the packet.

The argument only needs the ids of the rows, in order. A row is added at the end with its place in the index; a trim
makes the index again; and when the waiting row is removed, the index has nothing to forget.
-/

namespace Inspect.Tui

/-- No place but one has a given id. -/
def UniqueIds (ids : List Str) : Prop :=
  ∀ id, id ≠ [] → ∀ i j : Nat, ids[i]? = some id → ids[j]? = some id → i = j

/-- The index has the places of the ids. -/
def IndexOf (index : HashMap Str Nat) (ids : List Str) : Prop :=
  ∀ id i, index.lookup id = some i ↔ id ≠ [] ∧ ids[i]? = some id

section Ids

variable {ids : List Str} {index : HashMap Str Nat} {id : Str}

theorem IndexOf.unique (h : IndexOf index ids) : UniqueIds ids := by
  intro id hid i j hi hj
  have hlookup : index.lookup id = some i := (h id i).mpr ⟨hid, hi⟩
  rw [(h id j).mpr ⟨hid, hj⟩] at hlookup
  cases hlookup
  rfl

theorem UniqueIds.drop (h : UniqueIds ids) (count : Nat) : UniqueIds (ids.drop count) := by
  intro id hid i j hi hj
  rw [List.getElem?_drop] at hi hj
  have heq := h id hid _ _ hi hj
  omega

theorem UniqueIds.of_append {back : List Str} (h : UniqueIds (ids ++ back)) : UniqueIds ids := by
  intro id hid i j hi hj
  have hfront : ∀ k : Nat, ids[k]? = some id → (ids ++ back)[k]? = some id := by
    intro k hk
    rw [List.getElem?_append_left (List.getElem?_eq_some_iff.mp hk).1, hk]
  exact h id hid i j (hfront i hi) (hfront j hj)

theorem UniqueIds.not_mem (h : UniqueIds (ids ++ [id])) (hid : id ≠ []) : id ∉ ids := by
  intro hmem
  obtain ⟨i, hi⟩ := List.mem_iff_getElem?.mp hmem
  have hlt : i < ids.length := (List.getElem?_eq_some_iff.mp hi).1
  have heq : i = ids.length := by
    apply h id hid
    · rw [List.getElem?_append_left hlt, hi]
    · exact List.getElem?_concat_length
  omega

/-- A new id gets the place behind the others. -/
theorem IndexOf.push (h : IndexOf index ids) (hid : id ≠ []) (hnew : id ∉ ids) :
    IndexOf (index.insert id ids.length) (ids ++ [id]) := by
  intro id' i
  rw [HashMap.lookup_insert_eq, List.getElem?_append, List.getElem?_singleton]
  by_cases heq : id' = id
  · subst heq
    rw [if_pos rfl]
    by_cases hi : i < ids.length
    · have hne : ids[i]? ≠ some id' := fun hi' => hnew (List.mem_of_getElem? hi')
      simp only [hi, if_true, hne, and_false, iff_false]
      simp only [Option.some.injEq]
      omega
    · by_cases hend : i = ids.length
      · simp [hend, hid]
      · have hsub : i - ids.length ≠ 0 := by omega
        simp [hi, hsub, Ne.symm hend]
  · rw [if_neg heq, h id' i]
    by_cases hi : i < ids.length
    · simp [hi]
    · rw [List.getElem?_eq_none (by omega)]
      by_cases hend : i - ids.length = 0
      · simp [hi, hend, Ne.symm heq]
      · simp [hi, hend]

/-- A row without an id has no place in the index. -/
theorem IndexOf.push_empty (h : IndexOf index ids) : IndexOf index (ids ++ [[]]) := by
  intro id i
  rw [h id i, List.getElem?_append, List.getElem?_singleton]
  by_cases hi : i < ids.length
  · simp [hi]
  · rw [List.getElem?_eq_none (by omega)]
    by_cases hend : i - ids.length = 0
    · simp [hi, hend]
    · simp [hi, hend]

/-- The index of a row without an id is the index of no rows. -/
theorem IndexOf.clear (h : IndexOf index [[]]) : IndexOf index [] := by
  intro id i
  rw [h id i]
  cases i with
  | zero => simp
  | succ i => simp

theorem rowIndex_append (rows : List PacketRow) (row : PacketRow) :
    rowIndex (rows ++ [row])
      = if row.id = [] then rowIndex rows else (rowIndex rows).insert row.id rows.length := by
  unfold rowIndex
  rw [List.zipIdx_append, List.foldl_append]
  simp

/-- `row_index` is an index. -/
theorem indexOf_rowIndex {rows : List PacketRow} (h : UniqueIds (rows.map PacketRow.id)) :
    IndexOf (rowIndex rows) (rows.map PacketRow.id) := by
  induction rows using List.reverseRecOn with
  | nil =>
      intro id i
      simp [rowIndex]
  | append_singleton rows row ih =>
      rw [List.map_append] at h ⊢
      have hrows := ih h.of_append
      rw [rowIndex_append]
      by_cases hrow : row.id = []
      · rw [if_pos hrow, List.map_singleton, hrow]
        exact hrows.push_empty
      · rw [if_neg hrow]
        have hpush := hrows.push hrow (h.not_mem hrow)
        rwa [List.length_map] at hpush

end Ids

/-- The id that an event brings in. -/
def PacketEvent.newId : PacketEvent → Option Str
  | .started pkt => some pkt.id
  | .tunnelFailed pkt => some pkt.id
  | .completed _ => none
  | .marked _ => none

namespace PacketListDelegate

variable {T : Type} {env : TuiEnv T} {list : PacketListDelegate T} {used : List Str}

/-- The ids of the rows. -/
def ids (list : PacketListDelegate T) : List Str := list.rows.map PacketRow.id

/-- The index is right, and the ids of the rows are among those that were used. -/
structure WellIndexed (used : List Str) (list : PacketListDelegate T) : Prop where
  index : IndexOf list.idToRowIndex list.ids
  used : ∀ id ∈ list.ids, id ≠ [] → id ∈ used

/-! ## What the operations do to ids and index -/

@[simp] theorem setCurrentSelected_rows (selected : Nat) : (list.setCurrentSelected selected).rows = list.rows := by
  unfold setCurrentSelected
  split <;> rfl

theorem setCurrentSelected_ids (selected : Nat) : (list.setCurrentSelected selected).ids = list.ids := by
  rw [ids, setCurrentSelected_rows, ids]

@[simp] theorem setCurrentSelected_idToRowIndex (selected : Nat) :
    (list.setCurrentSelected selected).idToRowIndex = list.idToRowIndex := by
  unfold setCurrentSelected
  split <;> rfl

/-- One trim. -/
theorem trimRowsIfNeeded_rows :
    list.trimRowsIfNeeded.rows = if list.rows.length ≤ maxRows then list.rows else list.rows.drop trimRows := by
  unfold trimRowsIfNeeded
  split
  · rfl
  · rename_i hlong
    unfold clampCurrentSelected
    rw [setCurrentSelected_rows, min_trimRows hlong]
    dsimp only
    split <;> rfl

@[simp] theorem addRow_ids (row : PacketRow) : (list.addRow row).ids = list.ids ++ [row.id] := by
  simp [ids, addRow]

theorem startedRow_id (pkt : PacketStarted) (displayTime : Str) : (startedRow pkt displayTime).id = pkt.id := rfl

theorem tunnelFailedRow_id (pkt : PacketTunnelFailed) (captureFlowsDir displayTime : Str) :
    (tunnelFailedRow pkt captureFlowsDir displayTime).id = pkt.id := rfl

@[simp] theorem completedRow_id (pkt : PacketCompleted) (row : PacketRow) : (completedRow pkt row).id = row.id := rfl

@[simp] theorem markedRow_id (pkt : PacketMarked) (row : PacketRow) : (markedRow pkt row).id = row.id := by
  unfold markedRow
  dsimp only
  split <;> rfl

/-- Changing a row without changing its id changes no ids. -/
theorem map_id_set {rows : List PacketRow} {idx : Nat} {row row' : PacketRow} (hrow : rows[idx]? = some row)
    (hid : row'.id = row.id) : (rows.set idx row').map PacketRow.id = rows.map PacketRow.id := by
  rw [List.map_set, hid]
  apply List.ext_getElem?
  intro i
  rw [List.getElem?_set]
  split
  · rename_i heq
    subst heq
    have hlt : idx < rows.length := (List.getElem?_eq_some_iff.mp hrow).1
    rw [List.length_map, if_pos hlt, List.getElem?_map, hrow]
    rfl
  · rfl

namespace WellIndexed

theorem of_eq {list' : PacketListDelegate T} (h : WellIndexed used list) (hids : list'.ids = list.ids)
    (hindex : list'.idToRowIndex = list.idToRowIndex) : WellIndexed used list' := by
  constructor
  · rw [hindex, hids]
    exact h.index
  · rw [hids]
    exact h.used

theorem setCurrentSelected (h : WellIndexed used list) (selected : Nat) :
    WellIndexed used (list.setCurrentSelected selected) :=
  h.of_eq (setCurrentSelected_ids selected) (setCurrentSelected_idToRowIndex selected)

theorem clampCurrentSelected (h : WellIndexed used list) : WellIndexed used list.clampCurrentSelected :=
  h.setCurrentSelected _

theorem removeWaitingRowIfNeeded (h : WellIndexed used list) : WellIndexed used list.removeWaitingRowIfNeeded := by
  unfold PacketListDelegate.removeWaitingRowIfNeeded
  split
  · rename_i row hrows
    split
    · rename_i hwaiting
      have hids : list.ids = [[]] := by rw [ids, hrows, List.map_singleton, hwaiting.1]
      constructor
      · exact (hids ▸ h.index).clear
      · intro id hmem
        cases hmem
    · exact h
  · exact h

/-- A row with a new id. -/
theorem addRow {row : PacketRow} {id : Str} (h : WellIndexed used list) (hrow : row.id = id) (hid : id ≠ [])
    (hnew : id ∉ used) : WellIndexed (used ++ [id]) (list.addRow row) := by
  subst hrow
  constructor
  · rw [addRow_ids]
    show IndexOf (list.idToRowIndex.insert row.id list.rows.length) _
    have hlen : list.rows.length = list.ids.length := (List.length_map _).symm
    rw [hlen]
    exact h.index.push hid fun hmem => hnew (h.used _ hmem hid)
  · intro id hmem hne
    rw [addRow_ids, List.mem_append] at hmem
    rw [List.mem_append]
    exact hmem.imp (fun hmem => h.used id hmem hne) fun hmem => hmem

theorem trimRowsIfNeeded (h : WellIndexed used list) : WellIndexed used list.trimRowsIfNeeded := by
  unfold PacketListDelegate.trimRowsIfNeeded
  split
  · exact h
  · have htrimmed : ∀ count, WellIndexed used
        { list with rows := list.rows.drop count, idToRowIndex := rowIndex (list.rows.drop count) } := by
      intro count
      constructor
      · apply indexOf_rowIndex
        rw [List.map_drop]
        exact h.index.unique.drop count
      · intro id hmem hne
        rw [ids, List.map_drop] at hmem
        exact h.used id (List.mem_of_mem_drop hmem) hne
    -- only the search list and the selections depend on the mode
    apply clampCurrentSelected
    apply (htrimmed (min trimRows list.rows.length)).of_eq <;> (dsimp only; split <;> rfl)

theorem appendSystemLine (h : WellIndexed used list) (line : Str) : WellIndexed used (list.appendSystemLine line) := by
  apply trimRowsIfNeeded
  have hids : ∀ list' : PacketListDelegate T, list'.rows = list.rows ++ [systemRow line] →
      list'.ids = list.ids ++ [[]] := by
    intro list' hrows
    rw [ids, hrows, List.map_append]
    rfl
  constructor
  · rw [hids _ rfl]
    exact h.index.push_empty
  · intro id hmem hne
    rw [hids _ rfl, List.mem_append] at hmem
    rcases hmem with hmem | hmem
    · exact h.used id hmem hne
    · exact absurd (List.mem_singleton.mp hmem) hne

theorem onPacketStarted (h : WellIndexed used list) {pkt : PacketStarted} (hid : pkt.id ≠ []) (hnew : pkt.id ∉ used) :
    WellIndexed (used ++ [pkt.id]) (onPacketStarted env pkt list) := by
  refine addRow ?_ (startedRow_id ..) hid hnew
  exact h.of_eq rfl rfl

theorem onTunnelFailed (h : WellIndexed used list) {pkt : PacketTunnelFailed} (hid : pkt.id ≠ [])
    (hnew : pkt.id ∉ used) : WellIndexed (used ++ [pkt.id]) (onTunnelFailed env pkt list) := by
  refine addRow ?_ (tunnelFailedRow_id ..) hid hnew
  exact h.of_eq rfl rfl

theorem rebuildSearchRowsIfNeeded (h : WellIndexed used list) :
    WellIndexed used list.rebuildSearchRowsIfNeeded := by
  unfold PacketListDelegate.rebuildSearchRowsIfNeeded
  split
  · exact h.of_eq rfl rfl
  · exact h

theorem onPacketCompleted (h : WellIndexed used list) (pkt : PacketCompleted) :
    WellIndexed used (onPacketCompleted pkt list) := by
  unfold PacketListDelegate.onPacketCompleted
  split
  · exact h
  · split
    · exact h
    · rename_i row hrow
      apply rebuildSearchRowsIfNeeded
      exact h.of_eq (map_id_set hrow (completedRow_id pkt row)) rfl

theorem onPacketMarked (h : WellIndexed used list) (pkt : PacketMarked) :
    WellIndexed used (onPacketMarked pkt list) := by
  unfold PacketListDelegate.onPacketMarked
  dsimp only
  split
  · exact h
  · split
    · exact h
    · rename_i row hrow
      exact h.of_eq (map_id_set hrow (markedRow_id pkt row)) rfl

theorem clearSearch (h : WellIndexed used list) : WellIndexed used list.clearSearch := by
  apply clampCurrentSelected
  exact h.of_eq rfl rfl

theorem searchUrl (h : WellIndexed used list) (query : Str) : WellIndexed used (list.searchUrl env query) := by
  unfold PacketListDelegate.searchUrl
  split
  · apply clampCurrentSelected
    exact h.of_eq rfl rfl
  · exact h.clearSearch
  · apply appendSystemLine
    exact h.of_eq rfl rfl

theorem selectFlowKey (h : WellIndexed used list) (flowKey : Str) : WellIndexed used (list.selectFlowKey flowKey) := by
  unfold PacketListDelegate.selectFlowKey
  split
  · exact h.appendSystemLine _
  · exact h.of_eq rfl rfl

end WellIndexed

/-! ## Runs -/

/-- The id that a step brings in. -/
def Step.newId : Step → Option Str
  | .event packetEvent => packetEvent.newId
  | _ => none

/-- The ids that come are not empty, and none comes twice or was used before. -/
structure FreshIds (used : List Str) (new : List Str) : Prop where
  nonempty : [] ∉ new
  nodup : new.Nodup
  fresh : ∀ id ∈ new, id ∉ used

/-- First some, then the others. -/
theorem FreshIds.append {new new' : List Str} (h : FreshIds used (new ++ new')) :
    FreshIds used new ∧ FreshIds (used ++ new) new' := by
  obtain ⟨hnodup, hnodup', hdisjoint⟩ := List.nodup_append.mp h.nodup
  refine ⟨⟨fun hmem => h.nonempty (List.mem_append_left new' hmem), hnodup, fun id hmem => ?_⟩,
    ⟨fun hmem => h.nonempty (List.mem_append_right new hmem), hnodup', fun id hmem hused => ?_⟩⟩
  · exact h.fresh id (List.mem_append_left new' hmem)
  · rcases List.mem_append.mp hused with hused | hnew
    · exact h.fresh id (List.mem_append_right new hmem) hused
    · exact hdisjoint id hnew id hmem rfl

theorem filterMap_cons_toList {A B : Type} (f : A → Option B) (a : A) (as : List A) :
    (a :: as).filterMap f = (f a).toList ++ as.filterMap f := by
  rw [List.filterMap_cons]
  cases f a <;> rfl

variable (env) in
/-- One event. -/
theorem WellIndexed.onEvent {event : PacketEvent} (h : WellIndexed used list)
    (hfresh : FreshIds used event.newId.toList) :
    WellIndexed (used ++ event.newId.toList) (list.onEvent env event) := by
  have hremoved := h.removeWaitingRowIfNeeded
  cases event with
  | started pkt =>
      refine hremoved.onPacketStarted ?_ (hfresh.fresh pkt.id List.mem_cons_self)
      intro hempty
      exact hfresh.nonempty (hempty ▸ List.mem_cons_self)
  | tunnelFailed pkt =>
      refine hremoved.onTunnelFailed ?_ (hfresh.fresh pkt.id List.mem_cons_self)
      intro hempty
      exact hfresh.nonempty (hempty ▸ List.mem_cons_self)
  | completed pkt =>
      show WellIndexed (used ++ []) _
      rw [List.append_nil]
      exact hremoved.onPacketCompleted pkt
  | marked pkt =>
      show WellIndexed (used ++ []) _
      rw [List.append_nil]
      exact hremoved.onPacketMarked pkt

variable (env) in
/-- **One step keeps the index right.** -/
theorem WellIndexed.step (next : Step) (h : WellIndexed used list) (hfresh : FreshIds used next.newId.toList) :
    WellIndexed (used ++ next.newId.toList) (step env list next) := by
  have hgrow : ∀ {list' : PacketListDelegate T}, WellIndexed used list' →
      WellIndexed (used ++ next.newId.toList) list' := by
    intro list' h'
    exact ⟨h'.index, fun id hmem hne => List.mem_append_left _ (h'.used id hmem hne)⟩
  apply step_induction
  · exact hgrow h
  · intro selected
    exact hgrow (h.setCurrentSelected selected)
  · rintro event rfl
    exact h.onEvent env hfresh
  · exact hgrow h.trimRowsIfNeeded
  · intro line
    exact hgrow (h.appendSystemLine line)
  · intro query
    exact hgrow (h.searchUrl query)
  · exact hgrow h.clearSearch
  · intro flowKey
    exact hgrow (h.selectFlowKey flowKey)

variable (env) in
/-- **A run keeps the index right.** -/
theorem WellIndexed.runFrom {steps : List Step} (h : WellIndexed used list)
    (hfresh : FreshIds used (steps.filterMap Step.newId)) :
    WellIndexed (used ++ steps.filterMap Step.newId) (runFrom env list steps) := by
  induction steps generalizing used list with
  | nil => simpa [PacketListDelegate.runFrom] using h
  | cons next steps ih =>
      rw [filterMap_cons_toList] at hfresh ⊢
      obtain ⟨hnext, hsteps⟩ := hfresh.append
      rw [← List.append_assoc]
      exact ih (h.step env next hnext) hsteps

/-! ## Events of known packets -/

section Known

variable {i : Nat} {row : PacketRow}

/-- Where a packet has its row, there is more than the waiting row. -/
theorem removeWaitingRowIfNeeded_of_row (hrow : list.rows[i]? = some row) (hid : row.id ≠ []) :
    list.removeWaitingRowIfNeeded = list := by
  unfold removeWaitingRowIfNeeded
  split
  · rename_i only hrows
    rw [if_neg]
    rintro ⟨hempty, -⟩
    rw [hrows] at hrow
    cases i with
    | zero => exact hid (Option.some.inj hrow ▸ hempty)
    | succ i => cases hrow
  · rfl

theorem WellIndexed.lookup (h : WellIndexed used list) (hrow : list.rows[i]? = some row) (hid : row.id ≠ []) :
    list.idToRowIndex.lookup row.id = some i := by
  refine (h.index row.id i).mpr ⟨hid, ?_⟩
  rw [ids, List.getElem?_map, hrow, Option.map_some]

theorem rebuildSearchRowsIfNeeded_rows : list.rebuildSearchRowsIfNeeded.rows = list.rows := by
  unfold rebuildSearchRowsIfNeeded
  split <;> rfl

/-- The end of a packet changes the row of the packet. -/
theorem WellIndexed.completed_rows (h : WellIndexed used list) (hrow : list.rows[i]? = some row) (hid : row.id ≠ [])
    {pkt : PacketCompleted} (hpkt : pkt.id = row.id) :
    (list.onEvent env (.completed pkt)).rows = list.rows.set i (completedRow pkt row) := by
  unfold PacketListDelegate.onEvent
  dsimp only
  rw [removeWaitingRowIfNeeded_of_row hrow hid, PacketListDelegate.onPacketCompleted, hpkt, h.lookup hrow hid]
  dsimp only
  rw [hrow, rebuildSearchRowsIfNeeded_rows]

/-- A mark changes the row of the packet. -/
theorem WellIndexed.marked_rows (h : WellIndexed used list) (hrow : list.rows[i]? = some row) (hid : row.id ≠ [])
    {pkt : PacketMarked} (hpkt : pkt.id = row.id) :
    (list.onEvent env (.marked pkt)).rows = list.rows.set i (markedRow pkt row) := by
  unfold PacketListDelegate.onEvent
  dsimp only
  rw [removeWaitingRowIfNeeded_of_row hrow hid, PacketListDelegate.onPacketMarked, hpkt, h.lookup hrow hid,
    Option.some_or]
  dsimp only
  rw [hrow]

end Known

/-! ## Main result -/

variable (env) (tuiMode : TuiMode) (captureFlowsDir : Str) (timeFormatter : T)

theorem rowsFromSummaries_ids (summaries : List PacketSummary) :
    (rowsFromSummaries env timeFormatter summaries).1.map PacketRow.id = summaries.map PacketSummary.id := by
  induction summaries generalizing timeFormatter with
  | nil => rfl
  | cons summary summaries ih => exact congrArg (summary.id :: ·) (ih _)

/-- A new list has the packets of the database, or the waiting row. -/
theorem wellIndexed_new (summaries : List PacketSummary) (hkeys : UniqueIds (summaries.map PacketSummary.id)) :
    WellIndexed (summaries.map PacketSummary.id) (new env tuiMode captureFlowsDir timeFormatter summaries) := by
  have hids : (new env tuiMode captureFlowsDir timeFormatter summaries).ids
      = if summaries = [] then [[]] else summaries.map PacketSummary.id := by
    show (if summaries = [] then [waitingRow] else _).map PacketRow.id = _
    split
    · rfl
    · exact rowsFromSummaries_ids env timeFormatter summaries
  constructor
  · apply indexOf_rowIndex
    show UniqueIds (new env tuiMode captureFlowsDir timeFormatter summaries).ids
    rw [hids]
    split
    · intro id hid i j hi
      rw [List.getElem?_singleton] at hi
      split_ifs at hi
      exact absurd (Option.some.inj hi).symm hid
    · exact hkeys
  · intro id hmem hne
    rw [hids] at hmem
    split_ifs at hmem
    · exact absurd (List.mem_singleton.mp hmem) hne
    · exact hmem

/-- **The index is right in every run**: from the list with the waiting row, if the ids of new packets are not empty
    and none comes twice, an id is mapped to a place exactly if the row there has it. So an event for a packet that is
    still in the list changes the row of this packet, and no other row. -/
theorem index_consistent (steps : List Step) (hfresh : FreshIds [] (steps.filterMap Step.newId)) :
    let list := runFrom env (new env tuiMode captureFlowsDir timeFormatter []) steps
    (∀ id i, list.idToRowIndex.lookup id = some i ↔ id ≠ [] ∧ ∃ row, list.rows[i]? = some row ∧ row.id = id)
    ∧ ∀ i row, list.rows[i]? = some row → row.id ≠ [] →
        (∀ pkt : PacketCompleted, pkt.id = row.id →
          (list.onEvent env (.completed pkt)).rows = list.rows.set i (completedRow pkt row))
        ∧ (∀ pkt : PacketMarked, pkt.id = row.id →
          (list.onEvent env (.marked pkt)).rows = list.rows.set i (markedRow pkt row)) := by
  intro list
  have hlist : WellIndexed ([] ++ steps.filterMap Step.newId) list :=
    (wellIndexed_new env tuiMode captureFlowsDir timeFormatter [] (by simp [UniqueIds])).runFrom env hfresh
  refine ⟨?_, ?_⟩
  · intro id i
    rw [hlist.index id i, ids, List.getElem?_map, Option.map_eq_some_iff]
  · intro i row hrow hid
    exact ⟨fun pkt hpkt => hlist.completed_rows hrow hid hpkt, fun pkt hpkt => hlist.marked_rows hrow hid hpkt⟩

/-- Times as they come, and no regular expressions. -/
def rawTimes : TuiEnv Unit where
  formatPacketTime _ time _ := (time, ())
  regexNew _ := .error []
  isFile _ := false

/-- A packet whose path is its id. -/
def plainPacket (id : String) : PacketStarted where
  id := id.toList
  seq := 1
  flowKey := id.toList
  time := []
  epochMs := 0
  method := "GET".toList
  protocol := "http".toList
  host := "example.com".toList
  uri := '/' :: id.toList
  queryStr := []

/-- System lines that find room are put at the end. -/
theorem runFrom_systemLines {T : Type} (env : TuiEnv T) (line : Str) (count : Nat) (list : PacketListDelegate T)
    (h : list.rows.length + count ≤ maxRows) :
    runFrom env list (List.replicate count (.systemLine line))
      = { list with rows := list.rows ++ List.replicate count (systemRow line) } := by
  induction count generalizing list with
  | zero =>
      rw [List.replicate_zero, List.replicate_zero, List.append_nil]
      rfl
  | succ count ih =>
      have hroom : (list.rows ++ [systemRow line]).length ≤ maxRows := by
        rw [List.length_append, List.length_singleton]
        omega
      have hstep : list.appendSystemLine line = { list with rows := list.rows ++ [systemRow line] } := by
        unfold appendSystemLine trimRowsIfNeeded
        exact if_pos hroom
      have hrest := ih (list.appendSystemLine line) (by
        rw [hstep]
        show (list.rows ++ [systemRow line]).length + count ≤ maxRows
        rw [List.length_append, List.length_singleton]
        omega)
      rw [hstep] at hrest
      rw [List.replicate_succ, List.replicate_succ,
        ← List.singleton_append (l := List.replicate count (systemRow line)), ← List.append_assoc]
      show runFrom env (list.appendSystemLine line) _ = _
      rw [hstep, hrest]

/-- A packet, system lines and another packet, and a trim. -/
def trimmedSteps (count : Nat) : List Step :=
  .event (.started (plainPacket "a")) :: (List.replicate count (.systemLine [])
    ++ [.event (.started (plainPacket "b")), .trim])

theorem trimmedSteps_newIds (count : Nat) :
    (trimmedSteps count).filterMap Step.newId = ["a".toList, "b".toList] := by
  have hlines : (List.replicate count (Step.systemLine [])).filterMap Step.newId = [] := by
    rw [List.filterMap_eq_nil_iff]
    intro next hmem
    rw [List.eq_of_mem_replicate hmem]
    rfl
  unfold trimmedSteps
  rw [List.filterMap_cons, List.filterMap_append, hlines]
  rfl

/-- The system lines fill the list, so the trim finds one row too many. -/
theorem trimmedSteps_rows {count : Nat} (hcount : count + 1 = maxRows) :
    (runFrom rawTimes (new rawTimes .capture [] () []) (trimmedSteps count)).rows
      = List.replicate (maxRows - trimRows) (systemRow []) ++ [startedRow (plainPacket "b") []] := by
  have hrun : runFrom rawTimes (new rawTimes .capture [] () []) (trimmedSteps count)
      = ((runFrom rawTimes ((new rawTimes .capture [] () []).onEvent rawTimes (.started (plainPacket "a")))
        (List.replicate count (.systemLine []))).onEvent rawTimes (.started (plainPacket "b"))).trimRowsIfNeeded := by
    unfold runFrom trimmedSteps
    rw [List.foldl_cons, List.foldl_append]
    rfl
  -- the first packet takes the place of the waiting row
  have hfirst : ((new rawTimes .capture [] () []).onEvent rawTimes (.started (plainPacket "a"))).rows
      = [startedRow (plainPacket "a") []] := rfl
  generalize (new rawTimes .capture [] () []).onEvent rawTimes (.started (plainPacket "a")) = list at hrun hfirst
  have hlines := runFrom_systemLines rawTimes [] count list (by rw [hfirst, List.length_singleton]; omega)
  rw [hfirst] at hlines
  have hsecond : ((runFrom rawTimes list (List.replicate count (.systemLine []))).onEvent rawTimes
      (.started (plainPacket "b"))).rows
      = startedRow (plainPacket "a") []
        :: (List.replicate count (systemRow []) ++ [startedRow (plainPacket "b") []]) := by
    unfold onEvent
    rw [hlines, @removeWaitingRowIfNeeded_of_row _ _ 0 (startedRow (plainPacket "a") []) rfl (by decide)]
    rfl
  rw [hrun, trimRowsIfNeeded_rows, hsecond, if_neg]
  · obtain ⟨rest, rfl⟩ : ∃ rest, count = rest + 999 := ⟨count - 999, by simp [maxRows] at hcount; omega⟩
    have hrest : maxRows - trimRows = rest := by
      rw [← hcount]
      simp [trimRows]
    rw [hrest, show trimRows = 999 + 1 from rfl, List.drop_succ_cons, List.drop_append_of_le_length,
      List.drop_replicate, Nat.add_sub_cancel]
    rw [List.length_replicate]
    omega
  · rw [List.length_cons, List.length_append, List.length_replicate, List.length_singleton]
    omega

/-- The first packet is gone with the rows that were trimmed, and the index has the second one where it is now: its
    response changes this row. -/
theorem index_consistent_trimmed :
    let list := runFrom rawTimes (new rawTimes .capture [] () []) (trimmedSteps (maxRows - 1))
    list.idToRowIndex.lookup "a".toList = none
    ∧ list.idToRowIndex.lookup "b".toList = some (maxRows - trimRows)
    ∧ (list.onEvent rawTimes (.completed ⟨"b".toList, 200, 5⟩)).rows
      = list.rows.set (maxRows - trimRows) (completedRow ⟨"b".toList, 200, 5⟩ (startedRow (plainPacket "b") [])) := by
  -- the run stays folded while the number of lines is a variable
  suffices hall : ∀ count, count + 1 = maxRows →
      let list := runFrom rawTimes (new rawTimes .capture [] () []) (trimmedSteps count)
      list.idToRowIndex.lookup "a".toList = none
      ∧ list.idToRowIndex.lookup "b".toList = some (maxRows - trimRows)
      ∧ (list.onEvent rawTimes (.completed ⟨"b".toList, 200, 5⟩)).rows
        = list.rows.set (maxRows - trimRows) (completedRow ⟨"b".toList, 200, 5⟩ (startedRow (plainPacket "b") [])) from
    hall (maxRows - 1) rfl
  intro count hlines list
  have hfresh : FreshIds [] ((trimmedSteps count).filterMap Step.newId) := by
    rw [trimmedSteps_newIds]
    exact ⟨by decide, by decide, by decide⟩
  obtain ⟨hindex, hrows⟩ := index_consistent rawTimes .capture [] () (trimmedSteps count) hfresh
  have hlist : list.rows = _ := trimmedSteps_rows hlines
  have hrow : list.rows[maxRows - trimRows]? = some (startedRow (plainPacket "b") []) := by
    rw [hlist, List.getElem?_append_right List.length_replicate.le, List.length_replicate, Nat.sub_self]
    rfl
  refine ⟨?_, (hindex _ _).mpr ⟨by decide, _, hrow, rfl⟩, (hrows _ _ hrow (by decide)).1 _ rfl⟩
  cases hlookup : list.idToRowIndex.lookup "a".toList with
  | none => rfl
  | some i =>
      obtain ⟨-, row, hrow, hid⟩ := (hindex _ _).mp hlookup
      have hmem := List.mem_of_getElem? hrow
      rw [hlist] at hmem
      rcases List.mem_append.mp hmem with hsystem | hpacket
      · rw [List.eq_of_mem_replicate hsystem] at hid
        cases hid
      · rw [List.mem_singleton.mp hpacket] at hid
        cases hid

end PacketListDelegate
end Inspect.Tui
