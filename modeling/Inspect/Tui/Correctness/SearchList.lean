import Inspect.Lib.Run
import Inspect.Tui.Correctness.PacketIndex

/-!
# `Tui.Correctness.SearchList` — what the search list lists

In search mode the list shows the packets whose ids are in `search_row_ids`. A packet that starts is appended there if
it matches, and the end of a packet and a trim make the list again. A failed tunnel does neither: its row is missing
until something else rebuilds the list.
-/

namespace Inspect.Tui

namespace PacketListDelegate

variable {T : Type} {env : TuiEnv T} {list : PacketListDelegate T}

/-- In search mode the search list has the ids of the rows that match. -/
def Listed (list : PacketListDelegate T) : Prop :=
  ∀ matcher, list.mode = .search → list.searchMatcher = some matcher →
    list.searchRowIds = matchingRowIds matcher list.rows

/-- In search mode the search list is related to the ids of the rows that match. -/
def ListedBy (R : List Str → List Str → Prop) (list : PacketListDelegate T) : Prop :=
  ∀ matcher, list.mode = .search → list.searchMatcher = some matcher →
    R list.searchRowIds (matchingRowIds matcher list.rows)

/-! ## The list of the rows that match -/

section Matching

variable {matcher : SearchMatcher} {rows : List PacketRow}

theorem matchingRowIds_append (rows rows' : List PacketRow) :
    matchingRowIds matcher (rows ++ rows') = matchingRowIds matcher rows ++ matchingRowIds matcher rows' := by
  unfold matchingRowIds
  rw [List.filter_append, List.map_append]

theorem matchingRowIds_singleton_of_matches {row : PacketRow} (hid : row.id ≠ []) (h : matcher.matches row = true) :
    matchingRowIds matcher [row] = [row.id] := by
  simp [matchingRowIds, hid, h]

theorem matchingRowIds_singleton_of_not {row : PacketRow} (h : row.id = [] ∨ matcher.matches row = false) :
    matchingRowIds matcher [row] = [] := by
  rcases h with h | h <;> simp [matchingRowIds, h]

/-- A row that changes in what the matcher does not read stays listed, or not. -/
theorem matchingRowIds_set {idx : Nat} {row row' : PacketRow} (hrow : rows[idx]? = some row) (hid : row'.id = row.id)
    (hmatches : matcher.matches row' = matcher.matches row) :
    matchingRowIds matcher (rows.set idx row') = matchingRowIds matcher rows := by
  obtain ⟨hlt, rfl⟩ := List.getElem?_eq_some_iff.mp hrow
  have hsplit : rows = rows.take idx ++ [rows[idx]] ++ rows.drop (idx + 1) := by simp
  have hone : matchingRowIds matcher [row'] = matchingRowIds matcher [rows[idx]] := by
    simp only [matchingRowIds, List.filter_cons, List.filter_nil, hid, hmatches]
    split
    · simp [hid]
    · rfl
  conv_rhs => rw [hsplit]
  rw [List.set_eq_take_append_cons_drop, if_pos hlt, ← List.singleton_append, ← List.append_assoc]
  simp only [matchingRowIds_append, hone]

end Matching

/-- Marks are not read by matchers. -/
theorem sameKey_markedRow (pkt : PacketMarked) (row : PacketRow) : SameKey (markedRow pkt row) row := by
  unfold markedRow
  dsimp only
  split <;> exact ⟨rfl, rfl, rfl, rfl, rfl, rfl⟩

/-! ## Steps that keep the search list -/

namespace ListedBy

variable {R : List Str → List Str → Prop} [Std.Refl R]

omit [Std.Refl R] in
theorem of_main (h : list.mode = .main) : ListedBy R list := by
  intro matcher hmode
  rw [h] at hmode
  cases hmode

/-- Whatever was listed before, a rebuild lists the rows that match. -/
theorem rebuildSearchRowsIfNeeded (list : PacketListDelegate T) : ListedBy R list.rebuildSearchRowsIfNeeded := by
  unfold PacketListDelegate.rebuildSearchRowsIfNeeded
  split
  · rename_i matcher hmode hmatcher
    intro matcher' _ hmatcher'
    rw [hmatcher] at hmatcher'
    cases hmatcher'
    exact refl _
  · rename_i hneither
    intro matcher hmode hmatcher
    exact absurd hmatcher (hneither matcher hmode)

omit [Std.Refl R] in
theorem setCurrentSelected (h : ListedBy R list) (selected : Nat) : ListedBy R (list.setCurrentSelected selected) := by
  unfold PacketListDelegate.setCurrentSelected
  split
  · exact h
  · exact h

theorem removeWaitingRowIfNeeded (h : ListedBy R list) : ListedBy R list.removeWaitingRowIfNeeded := by
  unfold PacketListDelegate.removeWaitingRowIfNeeded
  split
  · split
    · intro matcher _ _
      exact refl (r := R) []
    · exact h
  · exact h

theorem trimRowsIfNeeded (h : ListedBy R list) : ListedBy R list.trimRowsIfNeeded := by
  unfold PacketListDelegate.trimRowsIfNeeded
  split
  · exact h
  · apply setCurrentSelected
    dsimp only
    split
    · rename_i hmode
      exact of_main hmode
    · intro matcher _ hmatcher
      have hmatcher' : list.searchMatcher = some matcher := hmatcher
      show R (list.searchMatcher.elim _ _) _
      rw [hmatcher']
      exact refl _

theorem appendSystemLine (h : ListedBy R list) (line : Str) : ListedBy R (list.appendSystemLine line) := by
  apply trimRowsIfNeeded
  intro matcher hmode hmatcher
  show R list.searchRowIds (matchingRowIds matcher (list.rows ++ [systemRow line]))
  rw [matchingRowIds_append, matchingRowIds_singleton_of_not (Or.inl rfl), List.append_nil]
  exact h matcher hmode hmatcher

omit [Std.Refl R] in
theorem clearSearch (list : PacketListDelegate T) : ListedBy R list.clearSearch := by
  apply setCurrentSelected
  exact of_main rfl

theorem searchUrl (h : ListedBy R list) (query : Str) : ListedBy R (list.searchUrl env query) := by
  unfold PacketListDelegate.searchUrl
  split
  · apply setCurrentSelected
    intro matcher _ hmatcher
    cases hmatcher
    exact refl _
  · exact clearSearch list
  · apply appendSystemLine
    exact h

theorem selectFlowKey (h : ListedBy R list) (flowKey : Str) : ListedBy R (list.selectFlowKey flowKey) := by
  unfold PacketListDelegate.selectFlowKey
  split
  · exact h.appendSystemLine _
  · exact of_main rfl

theorem onPacketCompleted (h : ListedBy R list) (pkt : PacketCompleted) : ListedBy R (onPacketCompleted pkt list) := by
  unfold PacketListDelegate.onPacketCompleted
  split
  · exact h
  · split
    · exact h
    · exact rebuildSearchRowsIfNeeded _

omit [Std.Refl R] in
theorem onPacketMarked (h : ListedBy R list) (pkt : PacketMarked) : ListedBy R (onPacketMarked pkt list) := by
  unfold PacketListDelegate.onPacketMarked
  dsimp only
  split
  · exact h
  · split
    · exact h
    · rename_i row hrow
      intro matcher hmode hmatcher
      show R list.searchRowIds (matchingRowIds matcher (list.rows.set _ (markedRow pkt row)))
      rw [matchingRowIds_set hrow (markedRow_id pkt row) (SearchMatcher.matches_congr (sameKey_markedRow pkt row) matcher)]
      exact h matcher hmode hmatcher

/-- Only events can change how the rows that match are listed. -/
theorem step (h : ListedBy R list) (next : Step)
    (hevent : ∀ event, next = .event event → ListedBy R (list.onEvent env event)) :
    ListedBy R (step env list next) := by
  apply step_induction
  · exact h
  · exact h.setCurrentSelected
  · exact hevent
  · exact h.trimRowsIfNeeded
  · exact h.appendSystemLine
  · exact h.searchUrl
  · exact clearSearch list
  · exact h.selectFlowKey

end ListedBy

/-! ## The search list has no row too many -/

instance : Std.Refl (@List.Sublist Str) := ⟨List.Sublist.refl⟩

/-- In search mode the search list has no ids but those of rows that match, in row order. -/
abbrev PartlyListed (list : PacketListDelegate T) : Prop := ListedBy List.Sublist list

/-- In search mode there is a matcher. -/
def HasMatcher (list : PacketListDelegate T) : Prop := list.mode = .search → list.searchMatcher.isSome = true

section Search

variable {matcher : SearchMatcher}

@[simp] theorem setCurrentSelected_mode (selected : Nat) : (list.setCurrentSelected selected).mode = list.mode := by
  unfold setCurrentSelected
  split <;> simp_all

@[simp] theorem setCurrentSelected_searchMatcher (selected : Nat) :
    (list.setCurrentSelected selected).searchMatcher = list.searchMatcher := by
  unfold setCurrentSelected
  split <;> rfl

theorem trimRowsIfNeeded_search (list : PacketListDelegate T) :
    list.trimRowsIfNeeded.mode = list.mode ∧ list.trimRowsIfNeeded.searchMatcher = list.searchMatcher := by
  unfold trimRowsIfNeeded clampCurrentSelected
  split
  · exact ⟨rfl, rfl⟩
  · rw [setCurrentSelected_mode, setCurrentSelected_searchMatcher]
    dsimp only
    split
    · rename_i hmode
      exact ⟨rfl, rfl⟩
    · rename_i hmode
      exact ⟨rfl, rfl⟩

/-- Events do not change what is searched for. -/
theorem onEvent_search (list : PacketListDelegate T) (event : PacketEvent) :
    (list.onEvent env event).mode = list.mode ∧ (list.onEvent env event).searchMatcher = list.searchMatcher := by
  have hremoved : list.removeWaitingRowIfNeeded.mode = list.mode
      ∧ list.removeWaitingRowIfNeeded.searchMatcher = list.searchMatcher := by
    unfold removeWaitingRowIfNeeded
    split
    · split <;> exact ⟨rfl, rfl⟩
    · exact ⟨rfl, rfl⟩
  rw [← hremoved.1, ← hremoved.2]
  unfold onEvent
  generalize list.removeWaitingRowIfNeeded = list
  cases event with
  | started pkt => exact ⟨rfl, rfl⟩
  | tunnelFailed pkt => exact ⟨rfl, rfl⟩
  | completed pkt =>
      show (onPacketCompleted pkt list).mode = _ ∧ (onPacketCompleted pkt list).searchMatcher = _
      unfold onPacketCompleted
      split
      · exact ⟨rfl, rfl⟩
      · split
        · exact ⟨rfl, rfl⟩
        · unfold rebuildSearchRowsIfNeeded
          split <;> exact ⟨rfl, rfl⟩
  | marked pkt =>
      show (onPacketMarked pkt list).mode = _ ∧ (onPacketMarked pkt list).searchMatcher = _
      unfold onPacketMarked
      dsimp only
      split
      · exact ⟨rfl, rfl⟩
      · split <;> exact ⟨rfl, rfl⟩

theorem HasMatcher.of_search {list' : PacketListDelegate T} (h : HasMatcher list)
    (hsame : list'.mode = list.mode ∧ list'.searchMatcher = list.searchMatcher) : HasMatcher list' := by
  unfold HasMatcher
  rw [hsame.1, hsame.2]
  exact h

theorem HasMatcher.step (h : HasMatcher list) (next : Step) : HasMatcher (step env list next) := by
  have hline : ∀ {list : PacketListDelegate T} (line : Str), HasMatcher list → HasMatcher (list.appendSystemLine line) := by
    intro list line h
    exact HasMatcher.of_search h (trimRowsIfNeeded_search _)
  have hclear : HasMatcher list.clearSearch := by
    intro hmode
    unfold clearSearch clampCurrentSelected at hmode
    rw [setCurrentSelected_mode] at hmode
    cases hmode
  apply step_induction
  · exact h
  · intro selected
    exact h.of_search ⟨setCurrentSelected_mode selected, setCurrentSelected_searchMatcher selected⟩
  · intro event _
    exact h.of_search (onEvent_search list event)
  · exact h.of_search (trimRowsIfNeeded_search list)
  · intro line
    exact hline line h
  · intro query
    unfold searchUrl
    split
    · intro _
      unfold clampCurrentSelected
      rw [setCurrentSelected_searchMatcher]
      rfl
    · exact hclear
    · exact hline _ h
  · exact hclear
  · intro flowKey
    unfold selectFlowKey
    split
    · exact hline _ h
    · intro hmode
      cases hmode

/-- A packet that comes is listed, or not; none is listed that does not match. -/
theorem ListedBy.onEvent_sublist (h : PartlyListed list) {event : PacketEvent} (hnew : event.newId ≠ some []) :
    PartlyListed (list.onEvent env event) := by
  have hremoved : PartlyListed list.removeWaitingRowIfNeeded := h.removeWaitingRowIfNeeded
  unfold onEvent
  generalize list.removeWaitingRowIfNeeded = list at hremoved ⊢
  cases event with
  | started pkt =>
      intro matcher hmode hmatcher
      have hlisted := hremoved matcher hmode hmatcher
      have hid : pkt.id ≠ [] := fun hid => hnew (congrArg some hid)
      show List.Sublist (if _ then _ else _) (matchingRowIds matcher (list.rows ++ [_]))
      rw [matchingRowIds_append]
      split
      · rename_i hboth
        have hmatches := hboth.2
        rw [show list.searchMatcher = some matcher from hmatcher] at hmatches
        rw [matchingRowIds_singleton_of_matches hid hmatches]
        exact hlisted.append (List.Sublist.refl _)
      · exact hlisted.trans (List.sublist_append_left _ _)
  | tunnelFailed pkt =>
      intro matcher hmode hmatcher
      show List.Sublist list.searchRowIds (matchingRowIds matcher (list.rows ++ [_]))
      rw [matchingRowIds_append]
      exact (hremoved matcher hmode hmatcher).trans (List.sublist_append_left _ _)
  | completed pkt => exact hremoved.onPacketCompleted pkt
  | marked pkt => exact hremoved.onPacketMarked pkt

end Search

/-! ## Steps that lose a row -/

/-- The matcher of the search selects the row. -/
def Searched (list : PacketListDelegate T) (row : PacketRow) : Prop :=
  list.mode = .search ∧ ∃ matcher, list.searchMatcher = some matcher ∧ matcher.matches row = true

/-- The search list goes wrong: a tunnel fails whose row matches, or a packet that matches starts without an id. The
    matcher does not read the time of a row and where its flow is stored. -/
def MissesRow (list : PacketListDelegate T) : Step → Prop
  | .event (.tunnelFailed pkt) => pkt.id ≠ [] ∧ list.Searched (tunnelFailedRow pkt [] [])
  | .event (.started pkt) => pkt.id = [] ∧ list.Searched (startedRow pkt [])
  | _ => False

theorem searched_removeWaitingRowIfNeeded {row : PacketRow} :
    list.removeWaitingRowIfNeeded.Searched row ↔ list.Searched row := by
  unfold removeWaitingRowIfNeeded
  split
  · split <;> rfl
  · rfl

/-- A new row with its id in the search list, or without. -/
theorem listed_addRow_iff {list' : PacketListDelegate T} {row : PacketRow} {pushed : List Str} (h : Listed list)
    (hmode : list'.mode = list.mode) (hmatcher : list'.searchMatcher = list.searchMatcher)
    (hrows : list'.rows = list.rows ++ [row]) (hids : list'.searchRowIds = list.searchRowIds ++ pushed) :
    Listed list' ↔ ∀ matcher, list.mode = .search → list.searchMatcher = some matcher →
      pushed = matchingRowIds matcher [row] := by
  unfold Listed
  rw [hmode, hmatcher, hrows, hids]
  constructor
  · intro hlisted matcher hsearch hmatcher
    have heq := hlisted matcher hsearch hmatcher
    rw [h matcher hsearch hmatcher, matchingRowIds_append] at heq
    exact List.append_cancel_left heq
  · intro hpushed matcher hsearch hmatcher
    rw [h matcher hsearch hmatcher, matchingRowIds_append, hpushed matcher hsearch hmatcher]

theorem listed_onTunnelFailed_iff (h : Listed list) (pkt : PacketTunnelFailed) :
    Listed (onTunnelFailed env pkt list) ↔ ¬(pkt.id ≠ [] ∧ list.Searched (tunnelFailedRow pkt [] [])) := by
  have hkey : ∀ dir time, SameKey (tunnelFailedRow pkt dir time) (tunnelFailedRow pkt [] []) :=
    fun _ _ => ⟨rfl, rfl, rfl, rfl, rfl, rfl⟩
  have hlisted : Listed (onTunnelFailed env pkt list) ↔ _ :=
    listed_addRow_iff h rfl rfl rfl (List.append_nil list.searchRowIds).symm
  rw [hlisted]
  constructor
  · rintro hnothing ⟨hid, hsearch, matcher, hmatcher, hmatches⟩
    rw [← SearchMatcher.matches_congr (hkey _ _)] at hmatches
    have hpushed := hnothing matcher hsearch hmatcher
    rw [matchingRowIds_singleton_of_matches hid hmatches] at hpushed
    cases hpushed
  · intro hnot matcher hsearch hmatcher
    refine (matchingRowIds_singleton_of_not ?_).symm
    by_contra hmatches
    rw [not_or, Bool.not_eq_false, SearchMatcher.matches_congr (hkey _ _)] at hmatches
    exact hnot ⟨hmatches.1, hsearch, matcher, hmatcher, hmatches.2⟩

theorem listed_onPacketStarted_iff (h : Listed list) (pkt : PacketStarted) :
    Listed (onPacketStarted env pkt list) ↔ ¬(pkt.id = [] ∧ list.Searched (startedRow pkt [])) := by
  have hkey : ∀ time, SameKey (startedRow pkt time) (startedRow pkt []) := fun _ => ⟨rfl, rfl, rfl, rfl, rfl, rfl⟩
  let row := startedRow pkt (env.formatPacketTime list.timeFormatter pkt.time pkt.epochMs).1
  have hpushed : (onPacketStarted env pkt list).searchRowIds
      = list.searchRowIds ++ if list.mode = .search ∧ list.searchMatcher.any (fun m => m.matches row) = true then
          [row.id] else [] := by
    show (if _ then _ else _) = _
    split
    · rfl
    · rw [List.append_nil]
  have hlisted : Listed (onPacketStarted env pkt list) ↔ _ := listed_addRow_iff h rfl rfl rfl hpushed
  rw [hlisted]
  constructor
  · rintro hright ⟨hid, hsearch, matcher, hmatcher, hmatches⟩
    rw [← SearchMatcher.matches_congr (hkey _)] at hmatches
    have hnil := hright matcher hsearch hmatcher
    rw [matchingRowIds_singleton_of_not (Or.inl hid), if_pos ⟨hsearch, by rw [hmatcher]; exact hmatches⟩] at hnil
    cases hnil
  · intro hnot matcher hsearch hmatcher
    rw [hmatcher]
    by_cases hmatches : matcher.matches row = true
    · rw [if_pos ⟨hsearch, hmatches⟩]
      refine (matchingRowIds_singleton_of_matches ?_ hmatches).symm
      intro hid
      rw [SearchMatcher.matches_congr (hkey _)] at hmatches
      exact hnot ⟨hid, hsearch, matcher, hmatcher, hmatches⟩
    · rw [if_neg (fun hboth => hmatches hboth.2)]
      exact (matchingRowIds_singleton_of_not (Or.inr (Bool.not_eq_true _ ▸ hmatches))).symm

/-! ## Main result -/

/-- **One event keeps the search list right exactly if it loses no row.** -/
theorem listed_onEvent_iff (h : Listed list) (event : PacketEvent) :
    Listed (list.onEvent env event) ↔ ¬list.MissesRow (.event event) := by
  have hremoved : Listed list.removeWaitingRowIfNeeded := ListedBy.removeWaitingRowIfNeeded h
  cases event with
  | started pkt =>
      refine (listed_onPacketStarted_iff hremoved pkt).trans ?_
      rw [searched_removeWaitingRowIfNeeded]
      rfl
  | tunnelFailed pkt =>
      refine (listed_onTunnelFailed_iff hremoved pkt).trans ?_
      rw [searched_removeWaitingRowIfNeeded]
      rfl
  | completed pkt => exact ⟨fun _ hmisses => hmisses, fun _ => ListedBy.onPacketCompleted hremoved pkt⟩
  | marked pkt => exact ⟨fun _ hmisses => hmisses, fun _ => ListedBy.onPacketMarked hremoved pkt⟩

/-- No other step loses a row. -/
theorem listed_step_iff (list : PacketListDelegate T) (next : Step) (h : Listed list) :
    Listed (step env list next) ↔ ¬list.MissesRow next := by
  constructor
  · intro hlisted hmisses
    cases next with
    | event event => exact (listed_onEvent_iff h event).mp hlisted hmisses
    | _ => exact hmisses
  · intro hnot
    apply ListedBy.step h
    rintro event rfl
    exact (listed_onEvent_iff h event).mpr hnot

/-- **When the search list is right throughout a run**: exactly if no step of the run loses a row, that is, if in search
    mode no tunnel fails whose row matches, and no packet that matches starts without an id. -/
theorem search_list_iff (tuiMode : TuiMode) (captureFlowsDir : Str) (timeFormatter : T)
    (summaries : List PacketSummary) (steps : List Step) :
    (∀ front, front <+: steps →
        Listed (runFrom env (new env tuiMode captureFlowsDir timeFormatter summaries) front))
      ↔ ∀ front next rest, steps = front ++ next :: rest →
          ¬(runFrom env (new env tuiMode captureFlowsDir timeFormatter summaries) front).MissesRow next :=
  Run.throughout_iff listed_step_iff (ListedBy.of_main rfl) steps

/-- A tunnel that fails. -/
def plainTunnelFailure (id : String) : PacketTunnelFailed where
  id := id.toList
  seq := 1
  flowKey := id.toList
  time := []
  epochMs := 0
  host := "example.com".toList
  port := 443
  stage := "tls".toList
  error := []
  marks := []

/-- While the packets without a status are shown, a failed tunnel is not. -/
theorem failed_tunnel_not_listed :
    let steps : List Step := [.event (.started (plainPacket "a")), .searchUrl "s:-".toList,
      .event (.tunnelFailed (plainTunnelFailure "b"))]
    FreshIds [] (steps.filterMap Step.newId)
    ∧ ¬Listed (runFrom rawTimes (new rawTimes .capture [] () []) steps) := by
  intro steps
  refine ⟨⟨by decide, by decide, by decide⟩, ?_⟩
  intro hlisted
  have hchecked : (runFrom rawTimes (new rawTimes .capture [] () []) steps).searchMatcher.all (fun matcher =>
      (runFrom rawTimes (new rawTimes .capture [] () []) steps).searchRowIds
        = matchingRowIds matcher (runFrom rawTimes (new rawTimes .capture [] () []) steps).rows) = true := by
    cases hmatcher : (runFrom rawTimes (new rawTimes .capture [] () []) steps).searchMatcher with
    | none => rfl
    | some matcher => exact decide_eq_true (hlisted matcher (by decide +kernel) hmatcher)
  exact absurd hchecked (by decide +kernel)

end PacketListDelegate
end Inspect.Tui
