import Mathlib.Data.List.NodupEquivFin
import Inspect.Tui.PacketView
import Inspect.Tui.Correctness.Selection

/-!
# `Tui.Correctness.PacketView` — what is drawn is what a click selects

The list widget knows lines and places, and the packet list knows rows and ids; a click comes back as a place. In search
mode the lines are those of the ids that still have a row, so a line without a row would move all places behind it. It
takes the index and the search list together to see that there is none.

Every step of the view is a run of the packet list, so what holds in the runs of the list holds here.
-/

namespace Inspect.Tui

theorem UniqueIds.sublist {ids ids' : List Str} (h : UniqueIds ids) (hsub : List.Sublist ids' ids) :
    UniqueIds ids' := by
  obtain ⟨place, hplace⟩ := List.sublist_iff_exists_orderEmbedding_getElem?_eq.mp hsub
  intro id hid i j hi hj
  rw [hplace] at hi hj
  exact place.injective (h id hid _ _ hi hj)

/-- Where nothing is left out, the places stay. -/
theorem getElem?_filterMap_of_isSome {A B : Type} {f : A → Option B} {as : List A}
    (h : ∀ a ∈ as, (f a).isSome = true) (i : Nat) : (as.filterMap f)[i]? = as[i]?.bind f := by
  induction as generalizing i with
  | nil => rfl
  | cons a as ih =>
      obtain ⟨b, hb⟩ := Option.isSome_iff_exists.mp (h a List.mem_cons_self)
      rw [List.filterMap_cons_some hb]
      cases i with
      | zero => exact hb.symm
      | succ i => exact ih (fun a hmem => h a (List.mem_cons_of_mem _ hmem)) i

namespace DiffSelection

/-- A packet is marked at most once, and the marks are on packets. -/
structure Apart (selection : DiffSelection) : Prop where
  left : selection.leftId ≠ some []
  right : selection.rightId ≠ some []
  apart : ∀ id, selection.leftId = some id → selection.rightId ≠ some id

/-- A mark is the mark of one packet. -/
theorem Apart.slotFor_unique {selection : DiffSelection} (h : Apart selection) {id id' : Str}
    {slot : Char} (hslot : selection.slotFor id = some slot) (hslot' : selection.slotFor id' = some slot) :
    id ≠ [] ∧ id = id' := by
  unfold DiffSelection.slotFor at hslot hslot'
  split_ifs at hslot with hleft hright
  · cases hslot
    split_ifs at hslot' with hleft' hright'
    · refine ⟨fun hempty => h.left (hempty ▸ hleft), Option.some.inj (hleft.symm.trans hleft')⟩
    · exact absurd hslot' (by decide)
  · cases hslot
    split_ifs at hslot' with hleft' hright'
    · exact absurd hslot' (by decide)
    · exact ⟨fun hempty => h.right (hempty ▸ hright), Option.some.inj (hright.symm.trans hright')⟩

/-- The mark B is seen. -/
theorem Apart.slotFor_right {selection : DiffSelection} (h : Apart selection) {id : Str}
    (hright : selection.rightId = some id) : selection.slotFor id = some 'B' := by
  unfold DiffSelection.slotFor
  rw [if_neg fun hleft => h.apart id hleft hright, if_pos hright]

end DiffSelection

namespace PacketView

variable {T : Type} {env : TuiEnv T} {view : PacketView T}

/-! ## The rows that are shown -/

section Rows

open PacketListDelegate (WellIndexed HasMatcher PartlyListed)

variable {list : PacketListDelegate T} {used : List Str}

/-- What the packet list keeps. -/
structure Sound (used : List Str) (list : PacketListDelegate T) : Prop where
  indexed : WellIndexed used list
  hasMatcher : HasMatcher list
  listed : PartlyListed list

theorem visibleRows_main (hmode : list.mode = .main) : visibleRows list = list.rows := by
  unfold visibleRows
  rw [hmode]

theorem visibleRows_search (hmode : list.mode = .search) :
    visibleRows list = list.searchRowIds.filterMap (rowOfId list) := by
  unfold visibleRows
  rw [hmode]

/-- The search list has no ids but those of rows, in row order. -/
theorem Sound.searchRowIds_sublist (h : Sound used list) (hmode : list.mode = .search) :
    List.Sublist list.searchRowIds list.ids ∧ [] ∉ list.searchRowIds := by
  obtain ⟨matcher, hmatcher⟩ := Option.isSome_iff_exists.mp (h.hasMatcher hmode)
  have hsub := h.listed matcher hmode hmatcher
  refine ⟨hsub.trans (List.filter_sublist.map PacketRow.id), ?_⟩
  intro hmem
  exact (PacketListDelegate.mem_matchingRowIds.mp (hsub.subset hmem)).1 rfl

/-- An id of the search list has its row. -/
theorem Sound.rowOfId (h : Sound used list) (hmode : list.mode = .search) {id : Str} (hmem : id ∈ list.searchRowIds) :
    ∃ row ∈ list.rows, rowOfId list id = some row ∧ row.id = id := by
  obtain ⟨hsub, hnonempty⟩ := h.searchRowIds_sublist hmode
  obtain ⟨row, hrow, rfl⟩ := List.mem_map.mp (hsub.subset hmem)
  obtain ⟨idx, hidx⟩ := List.mem_iff_getElem?.mp hrow
  have hid : row.id ≠ [] := fun hempty => hnonempty (hempty ▸ hmem)
  refine ⟨row, hrow, ?_, rfl⟩
  unfold PacketView.rowOfId
  rw [h.indexed.lookup hidx hid, Option.bind_some, hidx]

theorem Sound.rowOfId_isSome (h : Sound used list) (hmode : list.mode = .search) :
    ∀ id ∈ list.searchRowIds, (PacketView.rowOfId list id).isSome = true := by
  intro id hmem
  obtain ⟨row, -, hrow, -⟩ := h.rowOfId hmode hmem
  exact Option.isSome_iff_exists.mpr ⟨row, hrow⟩

/-- There are as many rows to see as the list says. -/
theorem Sound.visibleRows_length (h : Sound used list) : (visibleRows list).length = list.visibleRowsLen := by
  unfold PacketListDelegate.visibleRowsLen
  cases hmode : list.mode with
  | main => rw [visibleRows_main hmode]
  | search =>
      rw [visibleRows_search hmode]
      exact List.filterMap_length_eq_length.mpr (h.rowOfId_isSome hmode)

/-- **The row at the place of the selection is the current row.** -/
theorem Sound.currentRow (h : Sound used list) : list.currentRow = (visibleRows list)[list.currentSelected]? := by
  unfold PacketListDelegate.currentRow PacketListDelegate.currentRowIndex PacketListDelegate.currentSelected
  cases hmode : list.mode with
  | main =>
      rw [visibleRows_main hmode]
      dsimp only
      split_ifs with hlt
      · rfl
      · rw [List.getElem?_eq_none (Nat.le_of_not_lt hlt)]
        rfl
  | search =>
      -- every id has its row, so a line stands where its id stands
      rw [visibleRows_search hmode, getElem?_filterMap_of_isSome (h.rowOfId_isSome hmode)]
      exact Option.bind_assoc _ _ _

/-- No two rows to see have an id in common. -/
theorem Sound.visibleRows_unique (h : Sound used list) : UniqueIds ((visibleRows list).map PacketRow.id) := by
  cases hmode : list.mode with
  | main =>
      rw [visibleRows_main hmode]
      exact h.indexed.index.unique
  | search =>
      have hids : (visibleRows list).map PacketRow.id = list.searchRowIds := by
        apply List.ext_getElem?
        intro i
        rw [visibleRows_search hmode, List.getElem?_map, getElem?_filterMap_of_isSome (h.rowOfId_isSome hmode)]
        cases hget : list.searchRowIds[i]? with
        | none => rfl
        | some id =>
            obtain ⟨row, -, hrow, rfl⟩ := h.rowOfId hmode (List.mem_of_getElem? hget)
            rw [Option.bind_some, hrow, Option.map_some]
      rw [hids]
      exact h.indexed.index.unique.sublist (h.searchRowIds_sublist hmode).1

/-- A selection moves nothing. -/
theorem visibleRows_setCurrentSelected (selected : Nat) :
    visibleRows (list.setCurrentSelected selected) = visibleRows list := by
  obtain ⟨_, _, mode⟩ := list
  cases mode <;> rfl

theorem currentSelected_setCurrentSelected (selected : Nat) :
    (list.setCurrentSelected selected).currentSelected = selected := by
  obtain ⟨_, _, mode⟩ := list
  cases mode <;> rfl

theorem Sound.setCurrentSelected (h : Sound used list) (selected : Nat) :
    Sound used (list.setCurrentSelected selected) :=
  ⟨h.indexed.setCurrentSelected selected,
    h.hasMatcher.of_search ⟨PacketListDelegate.setCurrentSelected_mode selected,
      PacketListDelegate.setCurrentSelected_searchMatcher selected⟩,
    h.listed.setCurrentSelected selected⟩

end Rows

/-! ## What a step does -/

/-- What is drawn is what there is to draw. -/
def InSync (view : PacketView T) : Prop := view.drawn = view.drawing

/-- The list runs, with new packets of these ids; what is drawn stays true, and the marks apart. -/
structure Stepped (env : TuiEnv T) (newIds : List Str) (view after : PacketView T) : Prop where
  list : ∃ steps, after.list = PacketListDelegate.runFrom env view.list steps
    ∧ steps.filterMap PacketListDelegate.Step.newId = newIds
  inSync : view.InSync → after.InSync
  apart : view.diffSelection.Apart → after.diffSelection.Apart

namespace Stepped

/-- Neither the list nor what is drawn of it changes. -/
theorem same {after : PacketView T} (hlist : after.list = view.list) (hdrawn : after.drawn = view.drawn)
    (hmarks : after.diffSelection = view.diffSelection) : Stepped env [] view after := by
  refine ⟨⟨[], hlist, rfl⟩, ?_, ?_⟩
  · intro h
    unfold InSync drawing lineOf at h ⊢
    rw [hdrawn, hlist, hmarks]
    exact h
  · rw [hmarks]
    exact id

theorem refl : Stepped env [] view view := same rfl rfl rfl

theorem trans {newIds newIds' : List Str} {after after' : PacketView T} (h : Stepped env newIds view after)
    (h' : Stepped env newIds' after after') : Stepped env (newIds ++ newIds') view after' := by
  obtain ⟨steps, hlist, hids⟩ := h.list
  obtain ⟨steps', hlist', hids'⟩ := h'.list
  refine ⟨⟨steps ++ steps', ?_, ?_⟩, h'.inSync ∘ h.inSync, h'.apart ∘ h.apart⟩
  · rw [hlist', hlist]
    exact List.foldl_append.symm
  · rw [List.filterMap_append, hids, hids']

variable (env view) in
/-- The list runs and is drawn. -/
theorem redraw (steps : List PacketListDelegate.Step) :
    Stepped env (steps.filterMap PacketListDelegate.Step.newId) view
      (view.redraw (PacketListDelegate.runFrom env view.list steps)) :=
  ⟨⟨steps, rfl, rfl⟩, fun _ => rfl, id⟩

theorem appendSystemLine (line : String) : Stepped env [] view (view.appendSystemLine line) :=
  redraw env view [.systemLine line.toList]

theorem showDetailWith (highlightQuery : Option Str) (tabSelection : Option DetailTabSelection) :
    Stepped env [] view (view.showDetailWith highlightQuery tabSelection) := same rfl rfl rfl

theorem resetDetail : Stepped env [] view view.resetDetail := same rfl rfl rfl

/-- A key that moves the selection. -/
theorem moveIf {moves : Bool} {move : PacketListDelegate T → PacketListDelegate T} (next : PacketListDelegate.Step)
    (hmove : move view.list = PacketListDelegate.step env view.list next) (hnext : next.newId = none) :
    Stepped env [] view (view.moveIf moves move) := by
  have hids : [next].filterMap PacketListDelegate.Step.newId = [] := List.filterMap_cons_none hnext
  have hmoved := redraw env view [next]
  rw [hids] at hmoved
  unfold PacketView.moveIf
  cases moves with
  -- a key that moves nothing asks for the detail again
  | false => exact showDetailWith none none
  | true =>
      rw [if_pos rfl, hmove]
      exact hmoved.trans (showDetailWith none none)

theorem selectFlowKey (flowKey : Str) (highlightQuery : Option Str) (tabSelection : Option DetailTabSelection) :
    Stepped env [] view (view.selectFlowKey flowKey highlightQuery tabSelection) := by
  have hselected : Stepped env [] view (view.redraw (view.list.selectFlowKey flowKey)) :=
    redraw env view [.selectFlowKey flowKey]
  unfold PacketView.selectFlowKey
  dsimp only
  split
  · exact hselected
  · exact hselected.trans (showDetailWith highlightQuery tabSelection)

/-- One of the results that are kept. -/
theorem selectRetainedFullTextResult (idx : Nat) : Stepped env [] view (view.selectRetainedFullTextResult idx) := by
  unfold PacketView.selectRetainedFullTextResult
  cases view.retainedResults[idx]? with
  | none => exact refl
  | some result =>
      have hkept : Stepped env [] view { view with retainedSelected := some idx } := same rfl rfl rfl
      exact hkept.trans (selectFlowKey _ _ _)

/-- A key for the results. -/
theorem retainedKey {P Q : Prop} [Decidable P] [Decidable Q] (line : String) (idx idx' : Nat) :
    Stepped env [] view (if P then view.appendSystemLine line
      else view.selectRetainedFullTextResult (if Q then idx else idx')) := by
  split_ifs
  · exact appendSystemLine line
  · exact selectRetainedFullTextResult idx
  · exact selectRetainedFullTextResult idx'

/-- A mark is set and drawn, and a message says so. -/
theorem mark (diffSelection : DiffSelection) (line : String)
    (hapart : view.diffSelection.Apart → diffSelection.Apart) :
    Stepped env [] view ({ view with diffSelection }.syncList.appendSystemLine line) := by
  have hmarked : Stepped env [] view { view with diffSelection }.syncList :=
    ⟨⟨[], rfl, rfl⟩, fun _ => rfl, hapart⟩
  exact hmarked.trans (appendSystemLine line)

theorem setDiffLeftFromSelected : Stepped env [] view view.setDiffLeftFromSelected := by
  unfold PacketView.setDiffLeftFromSelected
  cases hselected : view.list.selectedPacketId with
  | none => exact appendSystemLine _
  | some selectedId =>
      dsimp only
      split_ifs with hright
      · exact appendSystemLine _
      · apply mark
        intro h
        refine ⟨?_, h.right, ?_⟩
        · intro hempty
          exact (PacketListDelegate.selectedPacketId_eq_some_iff.mp hselected).1 (Option.some.inj hempty)
        · rintro id hid
          cases hid
          exact hright

theorem setDiffRightFromSelected : Stepped env [] view view.setDiffRightFromSelected := by
  unfold PacketView.setDiffRightFromSelected
  cases hselected : view.list.selectedPacketId with
  | none => exact appendSystemLine _
  | some selectedId =>
      dsimp only
      split_ifs with hleft
      · exact appendSystemLine _
      · apply mark
        intro h
        refine ⟨h.left, ?_, ?_⟩
        · intro hempty
          exact (PacketListDelegate.selectedPacketId_eq_some_iff.mp hselected).1 (Option.some.inj hempty)
        · intro id hid hsame
          cases hsame
          exact hleft hid

theorem clearDiffSelection : Stepped env [] view view.clearDiffSelection := by
  apply mark
  intro _
  refine ⟨?_, ?_, ?_⟩
  · intro hempty
    cases hempty
  · intro hempty
    cases hempty
  · intro id hid
    cases hid

theorem externalDiff (selection : DetailTabSelection) : Stepped env [] view (view.externalDiff selection) := by
  unfold PacketView.externalDiff
  split_ifs
  · split
    · exact same rfl rfl rfl
    · exact appendSystemLine _
  · exact appendSystemLine _

theorem externalView (selection : DetailTabSelection) : Stepped env [] view (view.externalView selection) := by
  unfold PacketView.externalView
  split_ifs
  · split
    · exact same rfl rfl rfl
    · exact appendSystemLine _
  · exact appendSystemLine _

theorem openEditForSelectedDetail (selection : DetailTabSelection) :
    Stepped env [] view (view.openEditForSelectedDetail selection) := by
  obtain ⟨line, heq⟩ | ⟨row, -, -, heq⟩ := openEditForSelectedDetail_cases view selection
  · rw [heq]
    exact appendSystemLine line
  · rw [heq]
    exact same rfl rfl rfl

theorem searchUrl (query : Str) : Stepped env [] view (view.searchUrl env query) := by
  have hsearched : Stepped env [] view (view.redraw (view.list.searchUrl env query)) :=
    redraw env view [.searchUrl query]
  unfold PacketView.searchUrl
  dsimp only
  split
  · exact hsearched.trans resetDetail
  · exact hsearched

theorem clearSearch : Stepped env [] view view.clearSearch := by
  have hcleared : Stepped env [] view (view.redraw view.list.clearSearch) := redraw env view [.clearSearch]
  exact hcleared.trans resetDetail

theorem selectRow (idx : Nat) : Stepped env [] view (view.selectRow idx) := by
  unfold PacketView.selectRow
  split_ifs with hlt
  · have hselected : Stepped env [] view (view.redraw (view.list.selectRow idx)) := redraw env view [.selectRow idx]
    unfold PacketListDelegate.selectRow at hselected
    rw [if_pos hlt] at hselected
    exact hselected.trans (showDetailWith none none)
  · exact refl

/-- The packets of a batch come in. -/
theorem pollIncoming (batch : List PacketEvent) :
    Stepped env (batch.filterMap PacketEvent.newId) view (view.pollIncoming env batch) := by
  unfold PacketView.pollIncoming
  split_ifs with hempty
  · rw [hempty]
    exact refl
  · have hids : (PacketListDelegate.pollSteps batch).filterMap PacketListDelegate.Step.newId
        = batch.filterMap PacketEvent.newId := by
      unfold PacketListDelegate.pollSteps
      rw [if_neg hempty, List.filterMap_append, List.filterMap_map]
      exact List.append_nil _
    have hpolled := redraw env view (PacketListDelegate.pollSteps batch)
    rw [hids, ← PacketListDelegate.pollIncoming_eq_runFrom] at hpolled
    exact hpolled

end Stepped

/-- The ids of the packets that a step brings in. -/
def Step.newIds : Step → List Str
  | .pollIncoming batch => batch.filterMap PacketEvent.newId
  | _ => []

variable (env) in
/-- **One step is a run of the packet list**, and is drawn. -/
theorem step_stepped (view : PacketView T) (next : Step) : Stepped env next.newIds view (step env view next) := by
  cases next with
  | pollIncoming batch => exact Stepped.pollIncoming batch
  | up => exact Stepped.moveIf .moveUp rfl rfl
  | down => exact Stepped.moveIf .moveDown rfl rfl
  | pageUp => exact Stepped.moveIf .pageUp rfl rfl
  | pageDown => exact Stepped.moveIf .pageDown rfl rfl
  | bottom => exact Stepped.moveIf .jumpToBottom rfl rfl
  | enter => exact Stepped.showDetailWith none none
  | escape =>
      show Stepped env [] view (if view.list.mode = .search then view.clearSearch else view.showDetail)
      split_ifs
      · exact Stepped.clearSearch
      · exact Stepped.showDetailWith none none
  | click idx => exact Stepped.selectRow idx
  | search query => exact Stepped.searchUrl query
  | selectResult results selected query =>
      have hkept : Stepped env [] view { view with
          retainedSelected := some selected
          retainedQuery := some query
          retainedResults := results } := Stepped.same rfl rfl rfl
      exact hkept.trans (Stepped.selectRetainedFullTextResult selected)
  | nextResult => exact Stepped.retainedKey _ _ _
  | previousResult => exact Stepped.retainedKey _ _ _
  | markLeft => exact Stepped.setDiffLeftFromSelected
  | markRight => exact Stepped.setDiffRightFromSelected
  | clearMarks => exact Stepped.clearDiffSelection
  | externalDiff selection => exact Stepped.externalDiff selection
  | externalView selection => exact Stepped.externalView selection
  | openEdit selection => exact Stepped.openEditForSelectedDetail selection
  | openFilterStats => exact Stepped.same rfl rfl rfl

variable (env) in
/-- **A run of the view is a run of the packet list**, and is drawn. -/
theorem runFrom_stepped (view : PacketView T) (steps : List Step) :
    Stepped env (steps.flatMap Step.newIds) view (runFrom env view steps) := by
  induction steps generalizing view with
  | nil => exact Stepped.refl
  | cons next steps ih => exact (step_stepped env view next).trans (ih _)

/-! ## Clicks -/

theorem detailRequest_setCurrentSelected (list : PacketListDelegate T) (selected : Nat) :
    detailRequest (list.setCurrentSelected selected) = detailRequest list := by
  obtain ⟨_, _, mode⟩ := list
  cases mode <;> rfl

/-- **A click on a line selects its row**, and asks for the detail of the row. -/
theorem Sound.click {used : List Str} (h : Sound used view.list) {idx : Nat} {row : PacketRow}
    (hrow : (visibleRows view.list)[idx]? = some row) :
    (view.selectRow idx).list.currentRow = some row
    ∧ (view.selectRow idx).details = view.details ++ (detailRequest view.list none none row).toList := by
  have hcurrent : (view.list.setCurrentSelected idx).currentRow = some row := by
    rw [(h.setCurrentSelected idx).currentRow, visibleRows_setCurrentSelected, currentSelected_setCurrentSelected, hrow]
  have hlt : idx < view.list.visibleRowsLen := by
    rw [← h.visibleRows_length]
    exact (List.getElem?_eq_some_iff.mp hrow).1
  unfold selectRow
  rw [if_pos hlt]
  refine ⟨hcurrent, ?_⟩
  -- the detail is asked for behind the move, from the row that is current then
  show view.details ++ ((view.list.setCurrentSelected idx).currentRow.bind
    (detailRequest (view.list.setCurrentSelected idx) none none)).toList = _
  rw [hcurrent, detailRequest_setCurrentSelected]
  rfl

/-! ## What a step asks for -/

/-- An editor is one for a message of a captured packet. -/
def EditsMessage : DetailRequest → Prop
  | .edit _ id primaryTab => id ≠ [] ∧ (primaryTab = .request ∨ primaryTab = .response)
  | _ => True

/-- At most one detail or popup more is asked for. -/
def AsksOnce (view after : PacketView T) : Prop :=
  ∃ request : Option DetailRequest, after.details = view.details ++ request.toList
    ∧ ∀ asked ∈ request, EditsMessage asked

namespace AsksOnce

theorem nothing {after : PacketView T} (h : after.details = view.details) : AsksOnce view after :=
  ⟨none, h.trans (List.append_nil _).symm, nofun⟩

/-- After something that asks for nothing. -/
theorem after_nothing {mid after : PacketView T} (h : AsksOnce mid after) (hmid : mid.details = view.details) :
    AsksOnce view after := by
  obtain ⟨request, heq, hmessage⟩ := h
  exact ⟨request, hmid ▸ heq, hmessage⟩

theorem showDetailWith (highlightQuery : Option Str) (tabSelection : Option DetailTabSelection) :
    AsksOnce view (view.showDetailWith highlightQuery tabSelection) := by
  refine ⟨_, rfl, fun asked hasked => ?_⟩
  obtain ⟨row, -, hrequest⟩ := Option.bind_eq_some_iff.mp hasked
  unfold detailRequest at hrequest
  split at hrequest
  · cases hrequest
    trivial
  · split_ifs at hrequest
    cases hrequest
    trivial

theorem resetDetail : AsksOnce view view.resetDetail :=
  ⟨some .reset, rfl, fun _ hasked => Option.some.inj hasked ▸ trivial⟩

theorem moveIf (moves : Bool) (move : PacketListDelegate T → PacketListDelegate T) :
    AsksOnce view (view.moveIf moves move) := by
  unfold PacketView.moveIf
  cases moves with
  | false => exact showDetailWith none none
  | true => exact (showDetailWith none none).after_nothing rfl

theorem selectRetainedFullTextResult (idx : Nat) : AsksOnce view (view.selectRetainedFullTextResult idx) := by
  unfold PacketView.selectRetainedFullTextResult
  split
  · exact nothing rfl
  · unfold PacketView.selectFlowKey
    dsimp only
    split
    · exact nothing rfl
    · exact (showDetailWith _ _).after_nothing rfl

/-- A key for the results. -/
theorem retainedKey {P Q : Prop} [Decidable P] [Decidable Q] (line : String) (idx idx' : Nat) :
    AsksOnce view (if P then view.appendSystemLine line
      else view.selectRetainedFullTextResult (if Q then idx else idx')) := by
  split_ifs
  · exact nothing rfl
  · exact selectRetainedFullTextResult idx
  · exact selectRetainedFullTextResult idx'

end AsksOnce

variable (env) in
/-- **One step asks for one detail or popup at most.** -/
theorem step_asksOnce (view : PacketView T) (next : Step) : AsksOnce view (step env view next) := by
  cases next with
  | pollIncoming batch =>
      show AsksOnce view (view.pollIncoming env batch)
      unfold pollIncoming
      split_ifs
      · exact AsksOnce.nothing rfl
      · exact AsksOnce.nothing rfl
  | up => exact AsksOnce.moveIf _ _
  | down => exact AsksOnce.moveIf _ _
  | pageUp => exact AsksOnce.moveIf _ _
  | pageDown => exact AsksOnce.moveIf _ _
  | bottom => exact AsksOnce.moveIf _ _
  | enter => exact AsksOnce.showDetailWith none none
  | escape =>
      show AsksOnce view (if view.list.mode = .search then view.clearSearch else view.showDetail)
      split_ifs
      · exact AsksOnce.resetDetail.after_nothing rfl
      · exact AsksOnce.showDetailWith none none
  | click idx =>
      show AsksOnce view (view.selectRow idx)
      unfold selectRow
      split_ifs
      · exact (AsksOnce.showDetailWith none none).after_nothing rfl
      · exact AsksOnce.nothing rfl
  | search query =>
      show AsksOnce view (view.searchUrl env query)
      unfold searchUrl
      dsimp only
      split
      · exact AsksOnce.resetDetail.after_nothing rfl
      · exact AsksOnce.nothing rfl
  | selectResult results selected query =>
      exact (AsksOnce.selectRetainedFullTextResult selected).after_nothing rfl
  | nextResult => exact AsksOnce.retainedKey _ _ _
  | previousResult => exact AsksOnce.retainedKey _ _ _
  | markLeft =>
      show AsksOnce view view.setDiffLeftFromSelected
      unfold setDiffLeftFromSelected
      split
      · exact AsksOnce.nothing rfl
      · split_ifs
        · exact AsksOnce.nothing rfl
        · exact AsksOnce.nothing rfl
  | markRight =>
      show AsksOnce view view.setDiffRightFromSelected
      unfold setDiffRightFromSelected
      split
      · exact AsksOnce.nothing rfl
      · split_ifs
        · exact AsksOnce.nothing rfl
        · exact AsksOnce.nothing rfl
  | clearMarks => exact AsksOnce.nothing rfl
  | externalDiff selection =>
      show AsksOnce view (view.externalDiff selection)
      unfold externalDiff
      split_ifs
      · split
        · exact AsksOnce.nothing rfl
        · exact AsksOnce.nothing rfl
      · exact AsksOnce.nothing rfl
  | externalView selection =>
      show AsksOnce view (view.externalView selection)
      unfold externalView
      split_ifs
      · split
        · exact AsksOnce.nothing rfl
        · exact AsksOnce.nothing rfl
      · exact AsksOnce.nothing rfl
  | openEdit selection =>
      show AsksOnce view (view.openEditForSelectedDetail selection)
      obtain ⟨line, heq⟩ | ⟨row, hid, htab, heq⟩ := openEditForSelectedDetail_cases view selection
      · rw [heq]
        exact AsksOnce.nothing rfl
      · rw [heq]
        exact ⟨some _, rfl, fun _ hasked => Option.some.inj hasked ▸ ⟨hid, htab⟩⟩
  | openFilterStats => exact ⟨some .filterStats, rfl, fun _ hasked => Option.some.inj hasked ▸ trivial⟩

variable (env) in
/-- No other editor is asked for. -/
theorem step_editsMessage (h : ∀ asked ∈ view.details, EditsMessage asked) (next : Step) :
    ∀ asked ∈ (step env view next).details, EditsMessage asked := by
  obtain ⟨request, heq, hmessage⟩ := step_asksOnce env view next
  intro asked hasked
  rw [heq, List.mem_append, Option.mem_toList] at hasked
  exact hasked.elim (h asked) (hmessage asked)

/-! ## Main result -/

section Runs

variable (env) (tuiMode : TuiMode) (captureFlowsDir : Str) (timeFormatter : T) (summaries : List PacketSummary)

/-- What the packet list keeps in a run of the view. -/
theorem sound_runFrom {view : PacketView T}
    (hview : view.list = PacketListDelegate.new env tuiMode captureFlowsDir timeFormatter summaries) (steps : List Step)
    (hfresh : PacketListDelegate.FreshIds [] (summaries.map PacketSummary.id ++ steps.flatMap Step.newIds)) :
    ∃ used, Sound used (runFrom env view steps).list := by
  obtain ⟨listSteps, hlist, hids⟩ := (runFrom_stepped env view steps).list
  rw [← hids] at hfresh
  obtain ⟨hkeys, hsteps⟩ := hfresh.append
  have hunique : UniqueIds (summaries.map PacketSummary.id) := by
    intro id _ i j hi hj
    obtain ⟨hlt, hget⟩ := List.getElem?_eq_some_iff.mp hi
    obtain ⟨hlt', hget'⟩ := List.getElem?_eq_some_iff.mp hj
    exact hkeys.nodup.getElem_inj_iff.mp (hget.trans hget'.symm)
  have hindexed := (PacketListDelegate.wellIndexed_new env tuiMode captureFlowsDir timeFormatter summaries
    hunique).runFrom env hsteps
  obtain ⟨hmatcher, hlisted⟩ := PacketListDelegate.searchList_runFrom env tuiMode captureFlowsDir timeFormatter
    summaries hsteps.nonempty
  -- the run of the view is one of the list, and the list keeps all three
  rw [hlist, hview]
  exact ⟨_, hindexed, hmatcher, hlisted⟩

/-- **What is drawn is what a click selects.** In every run in which no packet comes twice: the lines that the list
    widget has are those of the rows to see, one for each, with their marks; the line that it shows as the selected one
    is that of the current row; a click on a line selects the row of this line and asks for its detail. A mark is on one
    line at most, and the mark A hides no B. -/
theorem drawn_list_shows_rows (externalDiffCommand externalViewCommand : Bool) (steps : List Step)
    (hfresh : PacketListDelegate.FreshIds [] (summaries.map PacketSummary.id ++ steps.flatMap Step.newIds)) :
    let view := runFrom env (new env tuiMode captureFlowsDir timeFormatter summaries externalDiffCommand
      externalViewCommand) steps
    let rows := visibleRows view.list
    view.drawn.title = listTitle view.list ∧ view.drawn.items = rows.map view.lineOf
    ∧ rows.length = view.list.visibleRowsLen
    ∧ view.drawn.items[view.drawn.selected]? = view.list.currentRow.map view.lineOf
    ∧ (∀ (idx : Nat) row, rows[idx]? = some row → (view.selectRow idx).list.currentRow = some row
      ∧ (view.selectRow idx).details = view.details ++ (detailRequest view.list none none row).toList)
    ∧ (∀ (i j : Nat) row row' slot, rows[i]? = some row → rows[j]? = some row' →
      view.diffSelection.slotFor row.id = some slot → view.diffSelection.slotFor row'.id = some slot → i = j)
    ∧ ∀ id, view.diffSelection.rightId = some id → view.diffSelection.slotFor id = some 'B' := by
  intro view rows
  obtain ⟨used, hsound⟩ : ∃ used, Sound used view.list :=
    sound_runFrom env tuiMode captureFlowsDir timeFormatter summaries rfl steps hfresh
  have hstepped := runFrom_stepped env (new env tuiMode captureFlowsDir timeFormatter summaries externalDiffCommand
    externalViewCommand) steps
  have hdrawn : view.drawn = view.drawing := hstepped.inSync rfl
  have hapart : view.diffSelection.Apart := by
    refine hstepped.apart ⟨?_, ?_, ?_⟩
    · intro hempty
      cases hempty
    · intro hempty
      cases hempty
    · intro id hid
      cases hid
  refine ⟨congrArg DrawnList.title hdrawn, congrArg DrawnList.items hdrawn, hsound.visibleRows_length, ?_,
    fun idx row => hsound.click, ?_, fun id => hapart.slotFor_right⟩
  · rw [hdrawn, hsound.currentRow]
    exact List.getElem?_map
  · intro i j row row' slot hrow hrow' hslot hslot'
    obtain ⟨hid, hsame⟩ := hapart.slotFor_unique hslot hslot'
    apply hsound.visibleRows_unique row.id hid
    · rw [List.getElem?_map, hrow, Option.map_some]
    · rw [List.getElem?_map, hrow', Option.map_some, hsame]

end Runs

/-- Two packets come, the second one is marked as A, and those without a status are searched for; a click on the second
    line selects the second packet. -/
theorem drawn_list_shows_rows_marked :
    let steps : List Step := [.pollIncoming [.started (PacketListDelegate.plainPacket "a"),
      .started (PacketListDelegate.plainPacket "b")], .bottom, .markLeft, .search "s:-".toList]
    let view := runFrom PacketListDelegate.rawTimes (new PacketListDelegate.rawTimes .capture [] () [] false false)
      steps
    ∃ row, (view.selectRow 1).list.currentRow = some row ∧ row.id = "b".toList
      ∧ view.diffSelection.leftId = some row.id ∧ view.drawn.items.length = 2 := by
  intro steps view
  have hfresh : PacketListDelegate.FreshIds [] ([].map PacketSummary.id ++ steps.flatMap Step.newIds) :=
    ⟨by decide, by decide, by decide⟩
  have hline : (visibleRows view.list)[1]?.map PacketRow.id = some "b".toList := by decide +kernel
  obtain ⟨row, hrow, hid⟩ := Option.map_eq_some_iff.mp hline
  obtain ⟨-, -, -, -, hclick, -⟩ :=
    drawn_list_shows_rows PacketListDelegate.rawTimes .capture [] () [] false false steps hfresh
  exact ⟨row, (hclick 1 row hrow).1, hid, hid ▸ (by decide +kernel), by decide +kernel⟩

end PacketView

end Inspect.Tui
