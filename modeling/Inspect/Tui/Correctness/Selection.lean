import Inspect.Tui.Correctness.SearchList
import Inspect.Tui.Correctness.RowLimit

/-!
# `Tui.Correctness.Selection` — when the selected packet stays selected

The selection is a place in the list that is shown. In the main list, rows come at the end and leave at the front, and
a trim moves the selection along. In the search list a row can also leave from the middle or come there, whenever the
list is made again, and the selection stays where it is: then it is on another packet.
-/

namespace Inspect.Tui

open PacketListDelegate (completedRow)

/-! ## A row and its events -/

namespace PacketRow

/-- What an event makes of the row of a packet, up to its marks. -/
def afterEvent (row : PacketRow) : PacketEvent → PacketRow
  | .completed pkt => if pkt.id = row.id then completedRow pkt row else row
  | _ => row

/-- What a batch makes of the row of a packet, up to its marks. -/
def after (row : PacketRow) (batch : List PacketEvent) : PacketRow := batch.foldl afterEvent row

end PacketRow

theorem SameKey.refl (row : PacketRow) : SameKey row row := ⟨rfl, rfl, rfl, rfl, rfl, rfl⟩

theorem SameKey.trans {row row' row'' : PacketRow} (h : SameKey row row') (h' : SameKey row' row'') :
    SameKey row row'' :=
  ⟨h.method.trans h'.method, h.status.trans h'.status, h.protocol.trans h'.protocol, h.host.trans h'.host,
    h.uri.trans h'.uri, h.queryStr.trans h'.queryStr⟩

theorem SameKey.completedRow {row row' : PacketRow} (h : SameKey row row') (pkt : PacketCompleted) :
    SameKey (completedRow pkt row) (completedRow pkt row') :=
  ⟨h.method, rfl, h.protocol, h.host, h.uri, h.queryStr⟩

/-- The row is still that of the packet, with what a matcher reads. -/
structure SameRow (row row' : PacketRow) : Prop where
  id : row.id = row'.id
  key : row.id ≠ [] → SameKey row row'

section Row

variable {row row' : PacketRow}

theorem afterEvent_id (row : PacketRow) (event : PacketEvent) : (row.afterEvent event).id = row.id := by
  unfold PacketRow.afterEvent
  split
  · split <;> rfl
  · rfl

theorem SameRow.afterEvent (h : SameRow row row') (event : PacketEvent) :
    SameRow (row.afterEvent event) (row'.afterEvent event) := by
  refine ⟨by rw [afterEvent_id, afterEvent_id, h.id], ?_⟩
  intro hid
  rw [afterEvent_id] at hid
  unfold PacketRow.afterEvent
  rw [h.id]
  split
  · split
    · exact (h.key hid).completedRow _
    · exact h.key hid
  · exact h.key hid

theorem SameRow.after (h : SameRow row row') (batch : List PacketEvent) :
    SameRow (row.after batch) (row'.after batch) := by
  induction batch generalizing row row' with
  | nil => exact h
  | cons event batch ih => exact ih (h.afterEvent event)

theorem SameRow.trans {row'' : PacketRow} (h : SameRow row row') (h' : SameRow row' row'') : SameRow row row'' :=
  ⟨h.id.trans h'.id, fun hid => (h.key hid).trans (h'.key (h.id ▸ hid))⟩

theorem after_append (row : PacketRow) (front : List PacketEvent) (event : PacketEvent) :
    row.after (front ++ [event]) = (row.after front).afterEvent event := List.foldl_append ..

end Row

/-- No end of the packet in the batch changes whether its row matches. -/
def KeepsVerdict (matcher : SearchMatcher) (batch : List PacketEvent) (row : PacketRow) : Prop :=
  ∀ pkt, .completed pkt ∈ batch → pkt.id = row.id → matcher.matches (completedRow pkt row) = matcher.matches row

theorem after_id (row : PacketRow) (batch : List PacketEvent) : (row.after batch).id = row.id := by
  induction batch generalizing row with
  | nil => rfl
  | cons event batch ih => exact (ih _).trans (afterEvent_id row event)

theorem KeepsVerdict.matches_after {matcher : SearchMatcher} {batch front : List PacketEvent} {row : PacketRow}
    (h : KeepsVerdict matcher batch row) (hfront : front <+: batch) :
    matcher.matches (row.after front) = matcher.matches row := by
  have hkey : ∀ done : List PacketEvent, ∀ pkt, SameKey (completedRow pkt (row.after done)) (completedRow pkt row) := by
    intro done pkt
    induction done using List.reverseRecOn with
    | nil => exact SameKey.refl _
    | append_singleton done event ih =>
        rw [after_append]
        unfold PacketRow.afterEvent
        split
        · split
          · exact ⟨ih.method, rfl, ih.protocol, ih.host, ih.uri, ih.queryStr⟩
          · exact ih
        · exact ih
  induction front using List.reverseRecOn with
  | nil => rfl
  | append_singleton front event ih =>
      have hbefore := ih ((List.prefix_append front [event]).trans hfront)
      have hmem : event ∈ batch := hfront.subset (List.mem_append_right front List.mem_cons_self)
      rw [after_append]
      unfold PacketRow.afterEvent
      split
      · rename_i pkt
        split
        · rename_i hid
          rw [after_id] at hid
          rw [SearchMatcher.matches_congr (hkey front pkt)]
          exact h pkt hmem hid
        · exact hbefore
      · exact hbefore

namespace PacketListDelegate

variable {T : Type} {env : TuiEnv T} {list : PacketListDelegate T} {used : List Str}

/-! ## What a batch does to the rows there are -/

theorem WellIndexed.onPacketCompleted_row (h : WellIndexed used list) (pkt : PacketCompleted) {j : Nat} {row : PacketRow}
    (hrow : list.rows[j]? = some row) :
    ∃ row', (PacketListDelegate.onPacketCompleted pkt list).rows[j]? = some row'
      ∧ SameRow row' (row.afterEvent (.completed pkt)) := by
  have hlt : j < list.rows.length := (List.getElem?_eq_some_iff.mp hrow).1
  have hother : (pkt.id = row.id → row.id = []) → SameRow row (row.afterEvent (.completed pkt)) := by
    intro hempty
    refine ⟨(afterEvent_id row _).symm, fun hid => ?_⟩
    unfold PacketRow.afterEvent
    dsimp only
    rw [if_neg fun heq => hid (hempty heq)]
    exact SameKey.refl row
  unfold PacketListDelegate.onPacketCompleted
  cases hlookup : list.idToRowIndex.lookup pkt.id with
  | none =>
      refine ⟨row, hrow, hother fun heq => ?_⟩
      by_contra hid
      rw [heq, h.lookup hrow hid] at hlookup
      cases hlookup
  | some idx =>
      obtain ⟨hpkt, hplace⟩ := (h.index pkt.id idx).mp hlookup
      rw [ids, List.getElem?_map, Option.map_eq_some_iff] at hplace
      obtain ⟨found, hfound, hid⟩ := hplace
      dsimp only
      rw [hfound]
      dsimp only
      rw [rebuildSearchRowsIfNeeded_rows]
      by_cases heq : idx = j
      · subst heq
        rw [hrow] at hfound
        cases hfound
        refine ⟨completedRow pkt row, List.getElem?_set_self hlt, (afterEvent_id row _).symm, fun _ => ?_⟩
        unfold PacketRow.afterEvent
        dsimp only
        rw [if_pos hid.symm]
        exact SameKey.refl _
      · refine ⟨row, ?_, hother fun hsame => ?_⟩
        · rw [← hrow]
          exact List.getElem?_set_ne heq
        · by_contra hne
          rw [hsame, h.lookup hrow hne] at hlookup
          exact heq (Option.some.inj hlookup).symm

theorem onPacketMarked_row (list : PacketListDelegate T) (pkt : PacketMarked) {j : Nat} {row : PacketRow}
    (hrow : list.rows[j]? = some row) :
    ∃ row', (PacketListDelegate.onPacketMarked pkt list).rows[j]? = some row' ∧ SameRow row' row := by
  have hlt : j < list.rows.length := (List.getElem?_eq_some_iff.mp hrow).1
  have hself : SameRow row row := ⟨rfl, fun _ => SameKey.refl row⟩
  unfold PacketListDelegate.onPacketMarked
  dsimp only
  split
  · exact ⟨row, hrow, hself⟩
  · rename_i idx hidx
    split
    · exact ⟨row, hrow, hself⟩
    · rename_i found hfound
      by_cases heq : idx = j
      · subst heq
        rw [hrow] at hfound
        cases hfound
        refine ⟨markedRow pkt row, List.getElem?_set_self hlt, markedRow_id pkt row, fun _ => ?_⟩
        exact sameKey_markedRow pkt row
      · exact ⟨row, by rw [← hrow]; exact List.getElem?_set_ne heq, hself⟩

variable (env) in
/-- An event keeps the rows of other packets, and does to the row of its packet what it says. -/
theorem WellIndexed.onEvent_row (h : WellIndexed used list) (hnot : ¬Waiting list.rows) (event : PacketEvent) {j : Nat}
    {row : PacketRow} (hrow : list.rows[j]? = some row) :
    ∃ row', (list.onEvent env event).rows[j]? = some row' ∧ SameRow row' (row.afterEvent event) := by
  have hlt : j < list.rows.length := (List.getElem?_eq_some_iff.mp hrow).1
  have hself : SameRow row row := ⟨rfl, fun _ => SameKey.refl row⟩
  unfold PacketListDelegate.onEvent
  rw [removeWaitingRowIfNeeded_of_not_waiting hnot]
  cases event with
  | started pkt =>
      refine ⟨row, ?_, hself⟩
      show (list.rows ++ _)[j]? = _
      rw [List.getElem?_append_left hlt, hrow]
  | tunnelFailed pkt =>
      refine ⟨row, ?_, hself⟩
      show (list.rows ++ _)[j]? = _
      rw [List.getElem?_append_left hlt, hrow]
  | completed pkt =>
      exact h.onPacketCompleted_row pkt hrow
  | marked pkt =>
      exact onPacketMarked_row list pkt hrow

variable (env) in
/-- A batch keeps the index right. -/
theorem WellIndexed.foldl_onEvent (h : WellIndexed used list) {batch : List PacketEvent}
    (hfresh : FreshIds used (batch.filterMap PacketEvent.newId)) :
    WellIndexed (used ++ batch.filterMap PacketEvent.newId) (batch.foldl (PacketListDelegate.onEvent env) list) := by
  induction batch generalizing used list with
  | nil => simpa using h
  | cons event batch ih =>
      rw [filterMap_cons_toList] at hfresh ⊢
      obtain ⟨hevent, hbatch⟩ := hfresh.append
      rw [← List.append_assoc]
      exact ih (h.onEvent env hevent) hbatch

variable (env) in
/-- A batch keeps the rows there are in their places, and does to each what its events say. -/
theorem WellIndexed.foldl_onEvent_row (h : WellIndexed used list) (hnot : ¬Waiting list.rows)
    {batch : List PacketEvent} (hfresh : FreshIds used (batch.filterMap PacketEvent.newId)) {j : Nat} {row : PacketRow}
    (hrow : list.rows[j]? = some row) :
    ∃ row', (batch.foldl (PacketListDelegate.onEvent env) list).rows[j]? = some row' ∧ SameRow row' (row.after batch) := by
  induction batch generalizing used list row with
  | nil => exact ⟨row, hrow, rfl, fun _ => SameKey.refl row⟩
  | cons event batch ih =>
      rw [filterMap_cons_toList] at hfresh
      obtain ⟨hevent, hbatch⟩ := hfresh.append
      obtain ⟨row₁, hrow₁, hsame₁⟩ := h.onEvent_row env hnot event hrow
      obtain ⟨row₂, hrow₂, hsame₂⟩ := ih (h.onEvent env hevent) (not_waiting_onEvent list event) hbatch hrow₁
      exact ⟨row₂, hrow₂, hsame₂.trans (hsame₁.after batch)⟩

/-! ## The rows that match, row by row -/

section Matching

variable {matcher : SearchMatcher} {rows rows' : List PacketRow}

theorem mem_matchingRowIds {id : Str} :
    id ∈ matchingRowIds matcher rows ↔ id ≠ [] ∧ ∃ row ∈ rows, row.id = id ∧ matcher.matches row = true := by
  unfold matchingRowIds
  simp only [List.mem_map, List.mem_filter, Bool.and_eq_true, decide_eq_true_eq]
  constructor
  · rintro ⟨row, ⟨hmem, hid, hmatches⟩, rfl⟩
    exact ⟨hid, row, hmem, rfl, hmatches⟩
  · rintro ⟨hid, row, hmem, rfl, hmatches⟩
    exact ⟨row, ⟨hmem, hid, hmatches⟩, rfl⟩

theorem matchingRowIds_take_prefix (count : Nat) :
    matchingRowIds matcher (rows.take count) <+: matchingRowIds matcher rows := by
  refine ⟨matchingRowIds matcher (rows.drop count), ?_⟩
  rw [← matchingRowIds_append, List.take_append_drop]

/-- Rows with the same ids that match alike. -/
theorem matchingRowIds_congr (hlength : rows.length = rows'.length)
    (h : ∀ (i : Nat) (row row' : PacketRow), rows[i]? = some row → rows'[i]? = some row' →
      row.id = row'.id ∧ (row.id ≠ [] → matcher.matches row = matcher.matches row')) :
    matchingRowIds matcher rows = matchingRowIds matcher rows' := by
  induction rows generalizing rows' with
  | nil =>
      rw [List.length_nil] at hlength
      rw [List.eq_nil_of_length_eq_zero hlength.symm]
  | cons row rows ih =>
      cases rows' with
      | nil => cases hlength
      | cons row' rows' =>
          have hhead := h 0 row row' rfl rfl
          have htail := ih (Nat.succ.inj hlength) fun i => h (i + 1)
          show matchingRowIds matcher ([row] ++ rows) = matchingRowIds matcher ([row'] ++ rows')
          rw [matchingRowIds_append, matchingRowIds_append, htail]
          congr 1
          by_cases hid : row.id = []
          · rw [matchingRowIds_singleton_of_not (Or.inl hid),
              matchingRowIds_singleton_of_not (Or.inl (hhead.1 ▸ hid))]
          · have hsame := hhead.2 hid
            cases hmatches : matcher.matches row' with
            | true =>
                rw [matchingRowIds_singleton_of_matches hid (hsame.trans hmatches),
                  matchingRowIds_singleton_of_matches (hhead.1 ▸ hid) hmatches, hhead.1]
            | false =>
                rw [matchingRowIds_singleton_of_not (Or.inr (hsame.trans hmatches)),
                  matchingRowIds_singleton_of_not (Or.inr hmatches)]

end Matching

/-! ## What is shown up to the selected packet -/

/-- In search mode, the selection is at `place`, and the list begins with `shown`. -/
structure Shows (matcher : SearchMatcher) (shown : List Str) (place : Nat) (list : PacketListDelegate T) : Prop where
  mode : list.mode = .search
  matcher : list.searchMatcher = some matcher
  selected : list.searchSelected = place
  listed : shown <+: list.searchRowIds

section Shows

variable {matcher : SearchMatcher} {shown : List Str} {place : Nat}

theorem min_place {ids : List Str} (hlength : shown.length = place + 1) (h : shown <+: ids) :
    min place (ids.length - 1) = place := by
  have hle : shown.length ≤ ids.length := h.length_le
  omega

theorem Shows.clampCurrentSelected (h : Shows matcher shown place list) (hlength : shown.length = place + 1) :
    Shows matcher shown place list.clampCurrentSelected := by
  have hplace : min list.searchSelected (list.searchRowIds.length - 1) = place := by
    rw [h.selected]
    exact min_place hlength h.listed
  unfold PacketListDelegate.clampCurrentSelected setCurrentSelected currentSelected visibleRowsLen
  rw [h.mode]
  exact ⟨rfl, h.matcher, hplace, h.listed⟩

/-- A rebuild that finds the same rows first. -/
theorem Shows.rebuildSearchRowsIfNeeded (hmode : list.mode = .search) (hmatcher : list.searchMatcher = some matcher)
    (hselected : list.searchSelected = place) (hlength : shown.length = place + 1)
    (hfound : shown <+: matchingRowIds matcher list.rows) :
    Shows matcher shown place list.rebuildSearchRowsIfNeeded := by
  unfold PacketListDelegate.rebuildSearchRowsIfNeeded
  rw [hmode, hmatcher]
  refine ⟨rfl, rfl, ?_, hfound⟩
  show min list.searchSelected _ = place
  rw [hselected]
  exact min_place hlength hfound

/-- One event: only the end of a packet that is known makes the list again. -/
theorem Shows.onEvent (h : Shows matcher shown place list) (hnot : ¬Waiting list.rows)
    (hlength : shown.length = place + 1) (event : PacketEvent)
    (hrebuild : ∀ pkt idx, event = .completed pkt → list.idToRowIndex.lookup pkt.id = some idx →
      shown <+: matchingRowIds matcher (list.onEvent env event).rows) :
    Shows matcher shown place (list.onEvent env event) := by
  have hremoved := removeWaitingRowIfNeeded_of_not_waiting hnot
  unfold PacketListDelegate.onEvent at hrebuild ⊢
  rw [hremoved] at hrebuild ⊢
  -- a new packet is listed behind those that are shown, and a mark leaves the list as it is
  cases event with
  | started pkt =>
      refine ⟨h.mode, h.matcher, h.selected, h.listed.trans ?_⟩
      show _ <+: if _ then _ else _
      split
      · exact List.prefix_append _ _
      · exact List.prefix_rfl
  | tunnelFailed pkt => exact ⟨h.mode, h.matcher, h.selected, h.listed⟩
  | completed pkt =>
      show Shows matcher shown place (onPacketCompleted pkt list)
      have hfound : ∀ idx, list.idToRowIndex.lookup pkt.id = some idx →
          shown <+: matchingRowIds matcher (onPacketCompleted pkt list).rows := fun idx => hrebuild pkt idx rfl
      unfold onPacketCompleted at hfound ⊢
      cases hlookup : list.idToRowIndex.lookup pkt.id with
      | none => exact h
      | some idx =>
          have hfound := hfound idx hlookup
          rw [hlookup] at hfound
          dsimp only at hfound ⊢
          cases hrow : list.rows[idx]? with
          | none => exact h
          | some row =>
              rw [hrow] at hfound
              dsimp only at hfound ⊢
              rw [rebuildSearchRowsIfNeeded_rows] at hfound
              exact Shows.rebuildSearchRowsIfNeeded h.mode h.matcher h.selected hlength hfound
  | marked pkt =>
      show Shows matcher shown place (onPacketMarked pkt list)
      unfold onPacketMarked
      dsimp only
      split
      · exact h
      · split
        · exact h
        · exact ⟨h.mode, h.matcher, h.selected, h.listed⟩

/-- A trim that takes no row of those that are shown first. -/
theorem Shows.trimRowsIfNeeded (h : Shows matcher shown place list) (hlength : shown.length = place + 1)
    (hfound : maxRows < list.rows.length → shown <+: matchingRowIds matcher (list.rows.drop trimRows)) :
    Shows matcher shown place list.trimRowsIfNeeded := by
  unfold PacketListDelegate.trimRowsIfNeeded
  split
  · exact h
  · rename_i hlong
    have hmin := min_trimRows hlong
    rw [not_le] at hlong
    refine Shows.clampCurrentSelected ?_ hlength
    dsimp only
    rw [h.mode, hmin, h.matcher]
    refine ⟨rfl, rfl, ?_, hfound hlong⟩
    show min list.searchSelected _ = place
    rw [h.selected]
    exact min_place hlength (hfound hlong)

end Shows

/-! ## The selected packet -/

/-- The ids of the rows that are shown. -/
def visibleIds (list : PacketListDelegate T) : List Str :=
  match list.mode with
  | .main => list.ids
  | .search => list.searchRowIds

theorem selectedPacketId_eq_some_iff {id : Str} :
    list.selectedPacketId = some id
      ↔ id ≠ [] ∧ ∃ idx row, list.currentRowIndex = some idx ∧ list.rows[idx]? = some row ∧ row.id = id := by
  unfold selectedPacketId currentRow
  constructor
  · intro h
    obtain ⟨row, hrow, hid⟩ := Option.bind_eq_some_iff.mp h
    obtain ⟨idx, hidx, hrow⟩ := Option.bind_eq_some_iff.mp hrow
    split_ifs at hid with hempty
    cases hid
    exact ⟨hempty, idx, row, hidx, hrow, rfl⟩
  · rintro ⟨hid, idx, row, hidx, hrow, rfl⟩
    rw [hidx, Option.bind_some, hrow, Option.bind_some, if_neg hid]

/-- The selected packet of a search is where the selection is in the search list. -/
theorem WellIndexed.currentRowIndex_search (h : WellIndexed used list) (hmode : list.mode = .search) {idx : Nat}
    {row : PacketRow} (hrow : list.rows[idx]? = some row) (hid : row.id ≠ []) :
    list.currentRowIndex = some idx ↔ list.searchRowIds[list.searchSelected]? = some row.id := by
  unfold currentRowIndex searchRowIndexAt
  rw [hmode]
  dsimp only
  rw [Option.bind_eq_some_iff]
  constructor
  · rintro ⟨id, hlisted, hlookup⟩
    obtain ⟨-, hplace⟩ := (h.index id idx).mp hlookup
    rw [ids, List.getElem?_map, hrow, Option.map_some, Option.some.injEq] at hplace
    rw [hlisted, hplace]
  · intro hlisted
    exact ⟨row.id, hlisted, h.lookup hrow hid⟩

/-- A packet has its row in one place. -/
theorem WellIndexed.place_unique (h : WellIndexed used list) {i j : Nat} {row row' : PacketRow}
    (hrow : list.rows[i]? = some row) (hrow' : list.rows[j]? = some row') (hid : row.id ≠ [])
    (hsame : row.id = row'.id) : i = j := by
  have hplace := h.lookup hrow hid
  rw [hsame, h.lookup hrow' (hsame ▸ hid)] at hplace
  exact (Option.some.inj hplace).symm

theorem not_waiting_of_row {idx : Nat} {row : PacketRow} (hrow : list.rows[idx]? = some row) (hid : row.id ≠ []) :
    ¬Waiting list.rows := by
  rintro ⟨only, hrows, hempty, -⟩
  rw [hrows] at hrow
  cases idx with
  | zero => exact hid (Option.some.inj hrow ▸ hempty)
  | succ idx => cases hrow

/-! ## Batches that a selection follows -/

/-- The batch makes the list so long that rows are removed. -/
def Trims (list : PacketListDelegate T) (batch : List PacketEvent) : Prop :=
  maxRows < list.rows.length + newRowCount batch

/-- A packet ends in the batch that has a row, or gets one earlier in the batch. -/
def CompletesKnown (list : PacketListDelegate T) (batch : List PacketEvent) : Prop :=
  ∃ front pkt rest, batch = front ++ .completed pkt :: rest ∧ pkt.id ≠ []
    ∧ pkt.id ∈ list.ids ++ front.filterMap PacketEvent.newId

/-- Nothing happens to the rows down to the one at `idx`, as far as the search is concerned: those that match are
    listed, none begins to match or stops to, and no row that matches is removed. -/
structure Undisturbed (matcher : SearchMatcher) (idx : Nat) (list : PacketListDelegate T) (batch : List PacketEvent) :
    Prop where
  above : matchingRowIds matcher (list.rows.take idx) = list.searchRowIds.take list.searchSelected
  verdicts : ∀ row ∈ list.rows.take (idx + 1), row.id ≠ [] → KeepsVerdict matcher batch row
  trimmed : Trims list batch → matchingRowIds matcher (list.rows.take trimRows) = []

/-- The selection of a search follows its packet through the batch: the list is not made again, or the packet leaves the
    list, or nothing happens to the rows down to it. -/
def Follows (list : PacketListDelegate T) (batch : List PacketEvent) : Prop :=
  ∀ matcher idx row, list.searchMatcher = some matcher → list.currentRowIndex = some idx →
    list.rows[idx]? = some row →
    (¬CompletesKnown list batch ∧ ¬Trims list batch) ∨ (Trims list batch ∧ idx < trimRows)
      ∨ matcher.matches (row.after batch) = false ∨ Undisturbed matcher idx list batch

section Batch

variable {batch : List PacketEvent} {matcher : SearchMatcher} {idx : Nat} {row : PacketRow}

theorem FreshIds.of_prefix {front : List PacketEvent} (hfresh : FreshIds used (batch.filterMap PacketEvent.newId))
    (hfront : front <+: batch) : FreshIds used (front.filterMap PacketEvent.newId) := by
  obtain ⟨rest, rfl⟩ := hfront
  rw [List.filterMap_append] at hfresh
  exact hfresh.append.1

/-- The rows of a part whose verdicts are kept match as before. -/
theorem WellIndexed.matchingRowIds_take (h : WellIndexed used list) (hnot : ¬Waiting list.rows)
    (hfresh : FreshIds used (batch.filterMap PacketEvent.newId)) {count : Nat} (hcount : count ≤ list.rows.length)
    (hkeep : ∀ row ∈ list.rows.take count, row.id ≠ [] → KeepsVerdict matcher batch row) {front : List PacketEvent}
    (hfront : front <+: batch) :
    matchingRowIds matcher ((front.foldl (PacketListDelegate.onEvent env) list).rows.take count)
      = matchingRowIds matcher (list.rows.take count) := by
  have hlength : list.rows.length ≤ (front.foldl (PacketListDelegate.onEvent env) list).rows.length := by
    rw [foldl_onEvent_rows_length env front hnot]
    omega
  apply matchingRowIds_congr
  · rw [List.length_take, List.length_take]
    omega
  · intro i row' row hrow' hrow
    rw [List.getElem?_take] at hrow' hrow
    split_ifs at hrow' hrow with hi
    obtain ⟨found, hfound, hsame⟩ := h.foldl_onEvent_row env hnot (FreshIds.of_prefix hfresh hfront) hrow
    rw [hrow'] at hfound
    cases hfound
    have hid : row'.id = row.id := hsame.id.trans (after_id row front)
    refine ⟨hid, fun hne => ?_⟩
    have hmem : row ∈ list.rows.take count := by
      apply List.mem_of_getElem? (i := i)
      rw [List.getElem?_take, if_pos hi, hrow]
    rw [SearchMatcher.matches_congr (hsame.key hne)]
    exact (hkeep row hmem (hid ▸ hne)).matches_after hfront

theorem not_waiting_foldl_onEvent (hnot : ¬Waiting list.rows) (front : List PacketEvent) :
    ¬Waiting (front.foldl (onEvent env) list).rows := by
  induction front using List.reverseRecOn with
  | nil => exact hnot
  | append_singleton front event ih =>
      rw [List.foldl_append]
      exact not_waiting_onEvent _ event

/-- A batch leaves what is shown first alone, if every rebuild finds it there. -/
theorem Shows.foldl_onEvent {shown : List Str} {place : Nat} (hshows : Shows matcher shown place list)
    (h : WellIndexed used list) (hnot : ¬Waiting list.rows)
    (hfresh : FreshIds used (batch.filterMap PacketEvent.newId)) (hlength : shown.length = place + 1)
    (hrebuild : CompletesKnown list batch → ∀ front, front <+: batch →
      shown <+: matchingRowIds matcher (front.foldl (PacketListDelegate.onEvent env) list).rows) :
    Shows matcher shown place (batch.foldl (PacketListDelegate.onEvent env) list) := by
  refine Run.throughout hshows ?_ batch (List.prefix_rfl)
  intro front event rest hsplit hbefore
  have hfront : front <+: batch := ⟨event :: rest, hsplit.symm⟩
  refine hbefore.onEvent (not_waiting_foldl_onEvent hnot front) hlength event ?_
  rintro pkt place' rfl hlookup
  -- the packet that ends has a row by now, so it had one before the batch or got it in the batch
  have hindexed := h.foldl_onEvent env (FreshIds.of_prefix hfresh hfront)
  obtain ⟨hpkt, hplace⟩ := (hindexed.index pkt.id place').mp hlookup
  rw [foldl_onEvent_ids front hnot] at hplace
  have hknown : CompletesKnown list batch :=
    ⟨front, pkt, rest, hsplit, hpkt, List.mem_of_getElem? hplace⟩
  have hfound := hrebuild hknown (front ++ [.completed pkt]) ⟨rest, by rw [hsplit]; simp⟩
  rwa [List.foldl_append] at hfound

/-- What is shown down to the selected packet. -/
theorem WellIndexed.shows (h : WellIndexed used list) (hmode : list.mode = .search)
    (hmatcher : list.searchMatcher = some matcher) (hcurrent : list.currentRowIndex = some idx)
    (hrow : list.rows[idx]? = some row) (hid : row.id ≠ []) :
    ∃ shown, shown = list.searchRowIds.take list.searchSelected ++ [row.id]
      ∧ shown.length = list.searchSelected + 1 ∧ Shows matcher shown list.searchSelected list := by
  have hlisted := (h.currentRowIndex_search hmode hrow hid).mp hcurrent
  obtain ⟨hlt, hget⟩ := List.getElem?_eq_some_iff.mp hlisted
  refine ⟨_, rfl, ?_, hmode, hmatcher, rfl, ?_⟩
  · rw [List.length_append, List.length_take, List.length_singleton]
    omega
  · rw [← hget, List.take_append_getElem hlt]
    exact List.take_prefix _ _

variable (env) in
/-- In a batch that does not disturb the selected packet, the rows that match are first those that are shown. -/
theorem Undisturbed.shown_prefix (hundisturbed : Undisturbed matcher idx list batch) (h : WellIndexed used list)
    (hnot : ¬Waiting list.rows) (hfresh : FreshIds used (batch.filterMap PacketEvent.newId))
    (hrow : list.rows[idx]? = some row) (hid : row.id ≠ []) (hmatches : matcher.matches row = true)
    {front : List PacketEvent} (hfront : front <+: batch) :
    matchingRowIds matcher ((front.foldl (PacketListDelegate.onEvent env) list).rows.take (idx + 1))
      = list.searchRowIds.take list.searchSelected ++ [row.id] := by
  obtain ⟨hlt, hget⟩ := List.getElem?_eq_some_iff.mp hrow
  rw [h.matchingRowIds_take hnot hfresh hlt hundisturbed.verdicts hfront, ← List.take_append_getElem hlt, hget,
    matchingRowIds_append, matchingRowIds_singleton_of_matches hid hmatches, hundisturbed.above]

/-- The rows after a call of `poll_incoming`. -/
theorem pollIncoming_rows (hne : batch ≠ []) :
    (pollIncoming env batch list).rows
      = if (batch.foldl (onEvent env) list).rows.length ≤ maxRows then (batch.foldl (onEvent env) list).rows
        else (batch.foldl (onEvent env) list).rows.drop trimRows := by
  unfold pollIncoming clampCurrentSelected
  dsimp only
  rw [if_neg hne, setCurrentSelected_rows, trimRowsIfNeeded_rows]

end Batch

/-! ## The search list -/

section SearchMode

variable {batch : List PacketEvent} {matcher : SearchMatcher} {idx : Nat} {row : PacketRow}

/-- The selection stays where it is if the packet stays first among what is shown down to it. -/
theorem Shows.pollIncoming {shown : List Str} {place : Nat}
    (hshows : Shows matcher shown place (batch.foldl (PacketListDelegate.onEvent env) list)) (hne : batch ≠ [])
    (hlength : shown.length = place + 1)
    (hfound : maxRows < (batch.foldl (PacketListDelegate.onEvent env) list).rows.length →
      shown <+: matchingRowIds matcher ((batch.foldl (PacketListDelegate.onEvent env) list).rows.drop trimRows)) :
    Shows matcher shown place (PacketListDelegate.pollIncoming env batch list) := by
  unfold PacketListDelegate.pollIncoming
  dsimp only
  rw [if_neg hne]
  exact (hshows.trimRowsIfNeeded hlength hfound).clampCurrentSelected hlength

variable (env) in
theorem WellIndexed.pollIncoming (h : WellIndexed used list)
    (hfresh : FreshIds used (batch.filterMap PacketEvent.newId)) :
    WellIndexed (used ++ batch.filterMap PacketEvent.newId) (PacketListDelegate.pollIncoming env batch list) := by
  unfold PacketListDelegate.pollIncoming
  dsimp only
  split
  · exact h.foldl_onEvent env hfresh
  · exact (h.foldl_onEvent env hfresh).trimRowsIfNeeded.clampCurrentSelected

variable (env) in
theorem foldl_onEvent_search (batch : List PacketEvent) (list : PacketListDelegate T) :
    (batch.foldl (onEvent env) list).mode = list.mode
    ∧ (batch.foldl (onEvent env) list).searchMatcher = list.searchMatcher := by
  induction batch generalizing list with
  | nil => exact ⟨rfl, rfl⟩
  | cons event batch ih =>
      rw [List.foldl_cons, (ih _).1, (ih _).2]
      exact onEvent_search list event

variable (env) in
theorem pollIncoming_search (batch : List PacketEvent) (list : PacketListDelegate T) :
    (pollIncoming env batch list).mode = list.mode
    ∧ (pollIncoming env batch list).searchMatcher = list.searchMatcher := by
  have hbatch := foldl_onEvent_search env batch list
  unfold pollIncoming clampCurrentSelected
  dsimp only
  split
  · exact hbatch
  · rw [setCurrentSelected_mode, setCurrentSelected_searchMatcher, (trimRowsIfNeeded_search _).1,
      (trimRowsIfNeeded_search _).2]
    exact hbatch

variable (env) in
theorem ListedBy.pollIncoming (h : PartlyListed list) (hfresh : FreshIds used (batch.filterMap PacketEvent.newId)) :
    PartlyListed (PacketListDelegate.pollIncoming env batch list) := by
  have hbatch : PartlyListed (batch.foldl (PacketListDelegate.onEvent env) list) := by
    refine Run.throughout h ?_ batch (List.prefix_rfl)
    intro front event rest hsplit hbefore
    refine hbefore.onEvent_sublist ?_
    intro hnew
    have hmem : event ∈ batch := by simp [hsplit]
    exact hfresh.nonempty (List.mem_filterMap.mpr ⟨event, hmem, hnew⟩)
  unfold PacketListDelegate.pollIncoming
  dsimp only
  split
  · exact hbatch
  · exact hbatch.trimRowsIfNeeded.setCurrentSelected _

/-- Where a packet has its row after a call of `poll_incoming`, and which row it is. -/
theorem WellIndexed.pollIncoming_row (h : WellIndexed used list) (hnot : ¬Waiting list.rows)
    (hfresh : FreshIds used (batch.filterMap PacketEvent.newId)) (hne : batch ≠ []) (hrow : list.rows[idx]? = some row)
    (hid : row.id ≠ []) {idx' : Nat} {row' : PacketRow}
    (hrow' : (PacketListDelegate.pollIncoming env batch list).rows[idx']? = some row') (hsame : row'.id = row.id) :
    SameRow row' (row.after batch) ∧ (list.Trims batch → trimRows + idx' = idx) ∧ (¬list.Trims batch → idx' = idx) := by
  obtain ⟨after, hafter, hsameAfter⟩ := h.foldl_onEvent_row env hnot hfresh hrow
  have hlength := foldl_onEvent_rows_length env batch hnot
  have hafterId : after.id = row.id := hsameAfter.id.trans (after_id row batch)
  -- there is only one row of the packet after the events
  have hplace : ∀ place, (batch.foldl (PacketListDelegate.onEvent env) list).rows[place]? = some row' →
      place = idx ∧ row' = after := by
    intro place hat
    have heq := (h.foldl_onEvent env hfresh).place_unique hat hafter (hsame ▸ hid) (hsame.trans hafterId.symm)
    rw [heq, hafter] at hat
    exact ⟨heq, (Option.some.inj hat).symm⟩
  rw [pollIncoming_rows hne, hlength] at hrow'
  unfold Trims
  split_ifs at hrow' with hfits
  · obtain ⟨heq, rfl⟩ := hplace idx' hrow'
    exact ⟨hsameAfter, fun htrims => absurd hfits (not_le.mpr htrims), fun _ => heq⟩
  · rw [List.getElem?_drop] at hrow'
    obtain ⟨heq, rfl⟩ := hplace _ hrow'
    exact ⟨hsameAfter, fun _ => heq, fun hnone => absurd (not_le.mp hfits) hnone⟩

/-- The selected packet stays selected if the list still begins with what it showed down to it. -/
theorem Shows.selectedPacketId {place : Nat} {front : List Str} {id : Str} (h : Shows matcher (front ++ [id]) place list)
    (hlength : (front ++ [id]).length = place + 1) (hindexed : WellIndexed used list) (hrow : list.rows[idx]? = some row)
    (hrowId : row.id = id) (hid : id ≠ []) : list.selectedPacketId = some id := by
  subst hrowId
  refine selectedPacketId_eq_some_iff.mpr ⟨hid, idx, row, ?_, hrow, rfl⟩
  rw [hindexed.currentRowIndex_search h.mode hrow hid, h.selected]
  obtain ⟨rest, hrest⟩ := h.listed
  rw [List.length_append, List.length_singleton] at hlength
  rw [← hrest, List.append_assoc, List.getElem?_append_right (by omega), show place - front.length = 0 by omega]
  rfl

/-- A batch that makes no new list, or does not disturb the selected packet, leaves what is shown down to it. -/
theorem Shows.pollIncoming_of_undisturbed {place : Nat}
    (hshows : Shows matcher (list.searchRowIds.take list.searchSelected ++ [row.id]) place list)
    (hlength : (list.searchRowIds.take list.searchSelected ++ [row.id]).length = place + 1) (h : WellIndexed used list)
    (hnot : ¬Waiting list.rows) (hfresh : FreshIds used (batch.filterMap PacketEvent.newId)) (hne : batch ≠ [])
    (hrow : list.rows[idx]? = some row) (hid : row.id ≠ []) (hmatches : matcher.matches row = true)
    (hundisturbed : Undisturbed matcher idx list batch) :
    Shows matcher (list.searchRowIds.take list.searchSelected ++ [row.id]) place
      (PacketListDelegate.pollIncoming env batch list) := by
  obtain ⟨hlt, -⟩ := List.getElem?_eq_some_iff.mp hrow
  have hprefix : ∀ front, front <+: batch → list.searchRowIds.take list.searchSelected ++ [row.id]
      <+: matchingRowIds matcher (front.foldl (PacketListDelegate.onEvent env) list).rows := by
    intro front hfront
    rw [← hundisturbed.shown_prefix env h hnot hfresh hrow hid hmatches hfront]
    exact matchingRowIds_take_prefix (idx + 1)
  refine Shows.pollIncoming ?_ hne hlength ?_
  · exact hshows.foldl_onEvent h hnot hfresh hlength fun _ => hprefix
  · intro hlong
    rw [foldl_onEvent_rows_length env batch hnot] at hlong
    -- the selected row matches, so it is not among those that are removed
    have hplace : trimRows ≤ idx := by
      by_contra hearly
      have hmem : row.id ∈ matchingRowIds matcher (list.rows.take trimRows) := by
        refine mem_matchingRowIds.mpr ⟨hid, row, ?_, rfl, hmatches⟩
        apply List.mem_of_getElem? (i := idx)
        rw [List.getElem?_take, if_pos (not_le.mp hearly), hrow]
      rw [hundisturbed.trimmed hlong] at hmem
      cases hmem
    have hnone : matchingRowIds matcher ((batch.foldl (PacketListDelegate.onEvent env) list).rows.take trimRows)
        = [] := by
      rw [h.matchingRowIds_take hnot hfresh (by omega) ?_ List.prefix_rfl, hundisturbed.trimmed hlong]
      intro earlier hmem
      exact hundisturbed.verdicts earlier (List.take_subset_take_left _ (by omega) hmem)
    have hall := hprefix batch List.prefix_rfl
    rwa [← List.take_append_drop trimRows (batch.foldl (PacketListDelegate.onEvent env) list).rows,
      matchingRowIds_append, hnone, List.nil_append] at hall

/-- **In search mode**, the selection follows its packet. -/
theorem selection_stable_search (h : WellIndexed used list) (hlisted : PartlyListed list)
    (hmode : list.mode = .search) (hmatcher : list.searchMatcher = some matcher)
    (hfresh : FreshIds used (batch.filterMap PacketEvent.newId)) (hfollows : list.Follows batch) (hne : batch ≠ [])
    {id : Str} (hselected : list.selectedPacketId = some id)
    (hvisible : id ∈ (pollIncoming env batch list).visibleIds) :
    (pollIncoming env batch list).selectedPacketId = some id := by
  obtain ⟨hid, idx, row, hcurrent, hrow, rfl⟩ := selectedPacketId_eq_some_iff.mp hselected
  have hnot := not_waiting_of_row hrow hid
  have hsearch := pollIncoming_search env batch list
  have hmode' := hsearch.1.trans hmode
  -- the packet has a row afterwards, which matches
  have hshown : row.id ∈ (pollIncoming env batch list).searchRowIds := by
    unfold visibleIds at hvisible
    rwa [hmode'] at hvisible
  obtain ⟨-, row', hmem', hid', hmatches'⟩ := mem_matchingRowIds.mp
    ((hlisted.pollIncoming env hfresh matcher hmode' (hsearch.2.trans hmatcher)).subset hshown)
  obtain ⟨idx', hrow'⟩ := List.mem_iff_getElem?.mp hmem'
  obtain ⟨hsame, htrimmed, -⟩ := h.pollIncoming_row hnot hfresh hne hrow hid hrow' hid'
  obtain ⟨shown, rfl, hlength, hshows⟩ := h.shows hmode hmatcher hcurrent hrow hid
  have hstays : Shows matcher (list.searchRowIds.take list.searchSelected ++ [row.id]) list.searchSelected
      (pollIncoming env batch list) → (pollIncoming env batch list).selectedPacketId = some row.id :=
    fun hstays => hstays.selectedPacketId hlength (h.pollIncoming env hfresh) hrow' hid' hid
  rcases hfollows matcher idx row hmatcher hcurrent hrow with
    ⟨hunknown, hfits⟩ | ⟨htrims, hearly⟩ | hleaves | hundisturbed
  · apply hstays
    refine Shows.pollIncoming ?_ hne hlength ?_
    · exact hshows.foldl_onEvent h hnot hfresh hlength fun hknown => absurd hknown hunknown
    · intro hlong
      rw [foldl_onEvent_rows_length env batch hnot] at hlong
      exact absurd hlong hfits
  · have hplace := htrimmed htrims
    omega
  · rw [SearchMatcher.matches_congr (hsame.key (hid' ▸ hid)), hleaves] at hmatches'
    cases hmatches'
  · apply hstays
    have hmatches : matcher.matches row = true := by
      have hlistedNow := (h.currentRowIndex_search hmode hrow hid).mp hcurrent
      obtain ⟨-, found, hfound, hsameId, hmatches⟩ := mem_matchingRowIds.mp
        ((hlisted matcher hmode hmatcher).subset (List.mem_of_getElem? hlistedNow))
      obtain ⟨place, hplace⟩ := List.mem_iff_getElem?.mp hfound
      have heq := h.place_unique hplace hrow (hsameId ▸ hid) hsameId
      rw [heq, hrow] at hplace
      cases hplace
      exact hmatches
    exact hshows.pollIncoming_of_undisturbed hlength h hnot hfresh hne hrow hid hmatches hundisturbed

end SearchMode

/-! ## The main list -/

section MainMode

variable {batch : List PacketEvent} {idx : Nat} {row : PacketRow}

theorem onEvent_mainSelected (hnot : ¬Waiting list.rows) (event : PacketEvent) :
    (list.onEvent env event).mainSelected = list.mainSelected := by
  unfold onEvent
  rw [removeWaitingRowIfNeeded_of_not_waiting hnot]
  cases event with
  | started pkt => rfl
  | tunnelFailed pkt => rfl
  | completed pkt =>
      show (onPacketCompleted pkt list).mainSelected = _
      unfold onPacketCompleted
      split
      · rfl
      · split
        · rfl
        · unfold rebuildSearchRowsIfNeeded
          split <;> rfl
  | marked pkt =>
      show (onPacketMarked pkt list).mainSelected = _
      unfold onPacketMarked
      dsimp only
      split
      · rfl
      · split <;> rfl

variable (env) in
theorem foldl_onEvent_mainSelected (hnot : ¬Waiting list.rows) (batch : List PacketEvent) :
    (batch.foldl (onEvent env) list).mainSelected = list.mainSelected := by
  induction batch generalizing list with
  | nil => rfl
  | cons event batch ih =>
      rw [List.foldl_cons, ih (not_waiting_onEvent list event)]
      exact onEvent_mainSelected hnot event

theorem clampCurrentSelected_main (hmode : list.mode = .main) :
    list.clampCurrentSelected.mainSelected = min list.mainSelected (list.rows.length - 1) := by
  unfold clampCurrentSelected setCurrentSelected currentSelected visibleRowsLen
  rw [hmode]

/-- A trim moves the selection along with the rows. -/
theorem trimRowsIfNeeded_mainSelected (hmode : list.mode = .main) :
    list.trimRowsIfNeeded.mainSelected
      = if list.rows.length ≤ maxRows then list.mainSelected
        else min (list.mainSelected - trimRows) ((list.rows.drop trimRows).length - 1) := by
  unfold trimRowsIfNeeded
  split
  · rfl
  · rename_i hlong
    dsimp only
    rw [hmode, min_trimRows hlong]
    exact clampCurrentSelected_main rfl

/-- **In the main list**, the selection follows its packet through every batch. -/
theorem selection_stable_main (h : WellIndexed used list) (hmode : list.mode = .main)
    (hfresh : FreshIds used (batch.filterMap PacketEvent.newId)) (hne : batch ≠ []) {id : Str}
    (hselected : list.selectedPacketId = some id) (hvisible : id ∈ (pollIncoming env batch list).visibleIds) :
    (pollIncoming env batch list).selectedPacketId = some id := by
  obtain ⟨hid, idx, row, hcurrent, hrow, rfl⟩ := selectedPacketId_eq_some_iff.mp hselected
  have hnot := not_waiting_of_row hrow hid
  have hmode' := (pollIncoming_search env batch list).1.trans hmode
  have hidx : list.mainSelected = idx := by
    unfold currentRowIndex at hcurrent
    rw [hmode] at hcurrent
    dsimp only at hcurrent
    split_ifs at hcurrent
    exact Option.some.inj hcurrent
  -- the row that the packet has afterwards
  unfold visibleIds at hvisible
  rw [hmode'] at hvisible
  obtain ⟨row', hmem', hid'⟩ := List.mem_map.mp hvisible
  obtain ⟨idx', hrow'⟩ := List.mem_iff_getElem?.mp hmem'
  obtain ⟨-, htrims, hfits⟩ := h.pollIncoming_row hnot hfresh hne hrow hid hrow' hid'
  have hlt : idx' < (pollIncoming env batch list).rows.length := (List.getElem?_eq_some_iff.mp hrow').1
  have hselected' : (pollIncoming env batch list).mainSelected = idx' := by
    have hlength := foldl_onEvent_rows_length env batch hnot
    have hbatchMode := (foldl_onEvent_search env batch list).1.trans hmode
    have hbatch := foldl_onEvent_mainSelected env hnot batch
    rw [pollIncoming_rows hne] at hlt
    unfold pollIncoming
    dsimp only
    rw [if_neg hne, clampCurrentSelected_main ((trimRowsIfNeeded_search _).1.trans hbatchMode),
      trimRowsIfNeeded_mainSelected hbatchMode, trimRowsIfNeeded_rows, hbatch, hidx]
    unfold Trims at htrims hfits
    split_ifs at hlt ⊢ with hshort
    · rw [hfits (by omega)]
      omega
    · rw [← htrims (by omega)]
      omega
  refine selectedPacketId_eq_some_iff.mpr ⟨hid, idx', row', ?_, hrow', hid'⟩
  unfold currentRowIndex
  rw [hmode']
  dsimp only
  rw [hselected', if_pos hlt]

end MainMode

/-! ## Main result -/

section Runs

variable (env) (tuiMode : TuiMode) (captureFlowsDir : Str) (timeFormatter : T) (summaries : List PacketSummary)

/-- In every run from the packets of a database, a search has its matcher, and no row too many is listed. -/
theorem searchList_runFrom {steps : List Step} (hnew : [] ∉ steps.filterMap Step.newId) :
    let list := runFrom env (new env tuiMode captureFlowsDir timeFormatter summaries) steps
    HasMatcher list ∧ PartlyListed list := by
  refine ⟨Run.throughout ?_ ?_ steps List.prefix_rfl, Run.throughout (ListedBy.of_main rfl) ?_ steps List.prefix_rfl⟩
  · intro hsearch
    cases hsearch
  · intro front next rest _ hbefore
    exact hbefore.step next
  · intro front next rest hsplit hbefore
    refine ListedBy.step hbefore next ?_
    rintro event rfl
    refine hbefore.onEvent_sublist ?_
    intro hid
    have hmem : Step.event event ∈ steps := by simp [hsplit]
    exact hnew (List.mem_filterMap.mpr ⟨_, hmem, hid⟩)

/-- **When the selected packet stays selected**: in every state that is reached from the packets of a database, with
    ids that do not come twice, and for every batch. In the main list always; in the search list, if the selection
    follows its packet through the batch. -/
theorem selection_stable (hkeys : (summaries.map PacketSummary.id).Nodup) (steps : List Step)
    (batch : List PacketEvent)
    (hfresh : FreshIds (summaries.map PacketSummary.id)
      (steps.filterMap Step.newId ++ batch.filterMap PacketEvent.newId)) :
    let list := runFrom env (new env tuiMode captureFlowsDir timeFormatter summaries) steps
    (list.mode = .search → list.Follows batch) →
      ∀ id, list.selectedPacketId = some id → id ∈ (pollIncoming env batch list).visibleIds →
        (pollIncoming env batch list).selectedPacketId = some id := by
  intro list hfollows id hselected hvisible
  obtain ⟨hsteps, hbatch⟩ := hfresh.append
  have hunique : UniqueIds (summaries.map PacketSummary.id) := by
    intro id _ i j hi hj
    obtain ⟨hi, hget⟩ := List.getElem?_eq_some_iff.mp hi
    obtain ⟨hj, hget'⟩ := List.getElem?_eq_some_iff.mp hj
    exact hkeys.getElem_inj_iff.mp (hget.trans hget'.symm)
  have hindexed : WellIndexed (summaries.map PacketSummary.id ++ steps.filterMap Step.newId) list :=
    (wellIndexed_new env tuiMode captureFlowsDir timeFormatter summaries hunique).runFrom env hsteps
  by_cases hne : batch = []
  · subst hne
    exact hselected
  -- the main list follows its selection by itself; the search list is known by what its matcher has listed
  cases hmode : list.mode with
  | main => exact selection_stable_main hindexed hmode hbatch hne hselected hvisible
  | search =>
      obtain ⟨hmatcher, hlisted⟩ := searchList_runFrom env tuiMode captureFlowsDir timeFormatter summaries
        hsteps.nonempty
      obtain ⟨matcher, hmatcher⟩ := Option.isSome_iff_exists.mp (hmatcher hmode)
      exact selection_stable_search hindexed hlisted hmode hmatcher hbatch (hfollows hmode) hne hselected hvisible

end Runs

/-- Three packets start, and those without a status are searched for. -/
def pendingSearch : List Step :=
  [.event (.started (plainPacket "a")), .event (.started (plainPacket "b")), .event (.started (plainPacket "c")),
    .searchUrl "s:-".toList]

/-- The first packet stays selected when the third one ends. -/
theorem selection_stable_third_ends :
    let list := runFrom rawTimes (new rawTimes .capture [] () []) pendingSearch
    (pollIncoming rawTimes [.completed ⟨"c".toList, 200, 5⟩] list).selectedPacketId = some "a".toList := by
  intro list
  have hselected : list.selectedPacketId = some "a".toList := by decide +kernel
  have hcurrent : list.currentRowIndex = some 0 := by decide +kernel
  have hrows : ∀ row ∈ list.rows.take 1, row.id = "a".toList := by decide +kernel
  have hlength : list.rows.length = 3 := by decide +kernel
  have hplace : list.searchSelected = 0 := by decide +kernel
  have hfresh : FreshIds [] (pendingSearch.filterMap Step.newId
      ++ [PacketEvent.completed ⟨"c".toList, 200, 5⟩].filterMap PacketEvent.newId) :=
    ⟨by decide, by decide, by decide⟩
  refine selection_stable rawTimes .capture [] () [] List.nodup_nil pendingSearch _ hfresh ?_ _ hselected
    (by decide +kernel)
  intro _ matcher idx row _ hidx _
  rw [hcurrent] at hidx
  cases hidx
  refine Or.inr (Or.inr (Or.inr ⟨?_, ?_, ?_⟩))
  · rw [hplace]
    rfl
  · intro row hmem _ pkt hpkt heq
    cases List.mem_singleton.mp hpkt
    rw [hrows row hmem] at heq
    exact absurd heq (by decide)
  · intro htrims
    unfold Trims at htrims
    rw [hlength] at htrims
    exact absurd htrims (by decide)

/-- The second packet is selected; the first one ends and leaves the list; then the third packet is selected. -/
theorem selection_moves_to_third :
    let steps := pendingSearch ++ [.moveDown]
    let list := runFrom rawTimes (new rawTimes .capture [] () []) steps
    let batch : List PacketEvent := [.completed ⟨"a".toList, 200, 5⟩]
    FreshIds [] (steps.filterMap Step.newId ++ batch.filterMap PacketEvent.newId)
    ∧ list.selectedPacketId = some "b".toList
    ∧ "b".toList ∈ (pollIncoming rawTimes batch list).visibleIds
    ∧ (pollIncoming rawTimes batch list).selectedPacketId = some "c".toList :=
  ⟨⟨by decide, by decide, by decide⟩, by decide +kernel, by decide +kernel, by decide +kernel⟩

end PacketListDelegate
end Inspect.Tui
