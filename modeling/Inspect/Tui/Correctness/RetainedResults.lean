import Inspect.Tui.PacketView
import Inspect.Tui.Correctness.PacketIndex

/-!
# `Tui.Correctness.RetainedResults` — the keys `n` and `p`

The results of a full-text search stay with the packet list after the popup is closed, and two keys go through them. The
list can change meanwhile; the results and the place among them do not.
-/

namespace Inspect.Tui

namespace PacketView

variable {T : Type} {env : TuiEnv T} {view : PacketView T} {results : List FullTextSearchResult} {query : Str}

/-! ## What is shown -/

/-- A packet of the flow is selected and its detail asked for; or there is none, and nothing is asked for. -/
def ShowsFlow (flowKey : Str) (highlightQuery : Option Str) (tabSelection : Option DetailTabSelection)
    (view after : PacketView T) : Prop :=
  (∃ row ∈ view.list.rows, row.flowKey = flowKey ∧ after.list.currentRow = some row
    ∧ after.details = view.details ++ (detailRequest view.list highlightQuery tabSelection row).toList)
  ∨ (∀ row ∈ view.list.rows, row.flowKey ≠ flowKey) ∧ after.details = view.details

variable (view) in
theorem selectFlowKey_shows (flowKey : Str) (highlightQuery : Option Str) (tabSelection : Option DetailTabSelection) :
    ShowsFlow flowKey highlightQuery tabSelection view (view.selectFlowKey flowKey highlightQuery tabSelection) := by
  cases hidx : view.list.rows.findIdx? fun row => row.flowKey = flowKey with
  | none =>
      right
      refine ⟨?_, ?_⟩
      · intro row hmem
        exact of_decide_eq_false (List.findIdx?_eq_none_iff.mp hidx row hmem)
      · unfold selectFlowKey
        dsimp only
        rw [hidx]
        rfl
  | some idx =>
      left
      obtain ⟨hlt, hflow, -⟩ := List.findIdx?_eq_some_iff_getElem.mp hidx
      have hlist : (view.selectFlowKey flowKey highlightQuery tabSelection).list = view.list.selectFlowKey flowKey := by
        unfold selectFlowKey
        dsimp only
        rw [hidx]
        rfl
      have hcurrent : (view.list.selectFlowKey flowKey).currentRow = some view.list.rows[idx] := by
        unfold PacketListDelegate.selectFlowKey
        rw [hidx]
        show (if idx < view.list.rows.length then some idx else none).bind (fun i => view.list.rows[i]?) = _
        rw [if_pos hlt, Option.bind_some, List.getElem?_eq_getElem hlt]
      refine ⟨view.list.rows[idx], List.getElem_mem hlt, of_decide_eq_true hflow, hlist ▸ hcurrent, ?_⟩
      unfold selectFlowKey
      dsimp only
      rw [hidx]
      show view.details ++ ((view.list.selectFlowKey flowKey).currentRow.bind
        (detailRequest (view.list.selectFlowKey flowKey) highlightQuery tabSelection)).toList = _
      rw [hcurrent, Option.bind_some]
      unfold PacketListDelegate.selectFlowKey
      rw [hidx]
      rfl

/-! ## What stays -/

/-- How far a step goes through the results. -/
def Step.shift : Step → Int
  | .nextResult => 1
  | .previousResult => -1
  | _ => 0

/-- Another result is chosen in the search. -/
def Step.chooses : Step → Bool
  | .selectResult _ _ _ => true
  | _ => false

/-- The results that are kept, the place among them, and their query. -/
def retained (view : PacketView T) : List FullTextSearchResult × Option Nat × Option Str :=
  (view.retainedResults, view.retainedSelected, view.retainedQuery)

theorem selectFlowKey_retained (flowKey : Str) (highlightQuery : Option Str)
    (tabSelection : Option DetailTabSelection) :
    (view.selectFlowKey flowKey highlightQuery tabSelection).retained = view.retained := by
  unfold selectFlowKey
  dsimp only
  split <;> rfl

theorem moveIf_retained (moves : Bool) (move : PacketListDelegate T → PacketListDelegate T) :
    (view.moveIf moves move).retained = view.retained := by
  unfold moveIf
  cases moves <;> rfl

/-- The other steps keep the results and the place. -/
theorem step_retained (next : Step) (hshift : next.shift = 0) (hchooses : next.chooses = false) :
    (step env view next).retained = view.retained := by
  cases next with
  | pollIncoming batch =>
      show (view.pollIncoming env batch).retained = _
      unfold pollIncoming
      split_ifs <;> rfl
  | up => exact moveIf_retained _ _
  | down => exact moveIf_retained _ _
  | pageUp => exact moveIf_retained _ _
  | pageDown => exact moveIf_retained _ _
  | bottom => exact moveIf_retained _ _
  | enter => rfl
  | escape =>
      show (if view.list.mode = .search then view.clearSearch else view.showDetail).retained = _
      split_ifs <;> rfl
  | click idx =>
      show (view.selectRow idx).retained = _
      unfold selectRow
      split_ifs <;> rfl
  | search query =>
      show (view.searchUrl env query).retained = _
      unfold searchUrl
      dsimp only
      split <;> rfl
  | selectResult results selected query => cases hchooses
  | nextResult => cases hshift
  | previousResult => cases hshift
  | markLeft =>
      show view.setDiffLeftFromSelected.retained = _
      unfold setDiffLeftFromSelected
      split
      · rfl
      · split_ifs <;> rfl
  | markRight =>
      show view.setDiffRightFromSelected.retained = _
      unfold setDiffRightFromSelected
      split
      · rfl
      · split_ifs <;> rfl
  | clearMarks => rfl
  | externalDiff selection =>
      show (view.externalDiff selection).retained = _
      unfold externalDiff
      split_ifs
      · split <;> rfl
      · rfl
  | externalView selection =>
      show (view.externalView selection).retained = _
      unfold externalView
      split_ifs
      · split <;> rfl
      · rfl
  | openEdit selection =>
      show (view.openEditForSelectedDetail selection).retained = _
      obtain ⟨line, heq⟩ | ⟨row, -, -, heq⟩ := openEditForSelectedDetail_cases view selection <;> rw [heq] <;> rfl
  | openFilterStats => rfl

/-! ## What moves -/

/-- One place on, around the end. -/
theorem next_place {len : Nat} (hlen : 0 < len) (place : Int) :
    (if (place % len).toNat + 1 < len then (place % len).toNat + 1 else 0) = ((place + 1) % len).toNat := by
  have hnonneg : 0 ≤ place % len := Int.emod_nonneg _ (by omega)
  have hlt : place % len < len := Int.emod_lt_of_pos _ (by omega)
  rw [← Int.emod_add_emod]
  generalize place % (len : Int) = rest at hnonneg hlt ⊢
  split_ifs with hin
  · rw [Int.emod_eq_of_lt (by omega) (by omega)]
    omega
  · have hend : rest + 1 = len := by omega
    rw [hend, Int.emod_self]
    rfl

/-- One place back, around the front. -/
theorem previous_place {len : Nat} (hlen : 0 < len) (place : Int) :
    (if (place % len).toNat = 0 then len - 1 else (place % len).toNat - 1) = ((place + -1) % len).toNat := by
  have hnonneg : 0 ≤ place % len := Int.emod_nonneg _ (by omega)
  have hlt : place % len < len := Int.emod_lt_of_pos _ (by omega)
  rw [← Int.emod_add_emod]
  generalize place % (len : Int) = rest at hnonneg hlt ⊢
  split_ifs with hfront
  · rw [← Int.add_emod_right, Int.emod_eq_of_lt (by omega) (by omega)]
    omega
  · rw [Int.emod_eq_of_lt (by omega) (by omega)]
    omega

/-- The results are kept, and the place is the given one, counted in a circle. -/
structure Retains (results : List FullTextSearchResult) (query : Str) (place : Int) (view : PacketView T) : Prop where
  retained : view.retained = (results, some (place % results.length).toNat, some query)

theorem Retains.retainedResults {place : Int} (h : Retains results query place view) :
    view.retainedResults = results := congrArg Prod.fst h.retained

theorem Retains.retainedSelected {place : Int} (h : Retains results query place view) :
    view.retainedSelected = some (place % results.length).toNat := congrArg (fun kept => kept.2.1) h.retained

theorem Retains.retainedQuery {place : Int} (h : Retains results query place view) :
    view.retainedQuery = some query := congrArg (fun kept => kept.2.2) h.retained

variable (view) in
/-- A result that there is, is shown, and its place kept. -/
theorem selectRetainedFullTextResult_spec {place : Int} {idx : Nat} {result : FullTextSearchResult}
    (hresults : view.retainedResults = results) (hquery : view.retainedQuery = some query)
    (hidx : idx = (place % results.length).toNat) (hresult : results[idx]? = some result) :
    Retains results query place (view.selectRetainedFullTextResult idx)
    ∧ ShowsFlow result.flowKey (some query) (detailTabSelectionFromSearchPath result.path) view
      (view.selectRetainedFullTextResult idx) := by
  have heq : view.selectRetainedFullTextResult idx
      = { view with retainedSelected := some idx }.selectFlowKey result.flowKey (some query)
        (detailTabSelectionFromSearchPath result.path) := by
    unfold selectRetainedFullTextResult
    rw [hresults, hresult, hquery]
  have hshows := selectFlowKey_shows { view with retainedSelected := some idx } result.flowKey (some query)
    (detailTabSelectionFromSearchPath result.path)
  rw [heq]
  -- the list that is shown is the one before: the place is kept elsewhere
  refine ⟨⟨?_⟩, hshows⟩
  rw [selectFlowKey_retained, retained, ← hidx, ← hresults, ← hquery]

/-- **A key goes one result on or back**, around the end, and the result is shown. -/
theorem Retains.turn {place : Int} (h : Retains results query place view) {next : Step}
    (hnext : next = .nextResult ∨ next = .previousResult) {result : FullTextSearchResult}
    (hresult : results[((place + next.shift) % results.length).toNat]? = some result) :
    Retains results query (place + next.shift) (step env view next)
    ∧ ShowsFlow result.flowKey (some query) (detailTabSelectionFromSearchPath result.path) view
      (step env view next) := by
  have hlen : 0 < results.length := Nat.zero_lt_of_lt (List.getElem?_eq_some_iff.mp hresult).1
  have hne : results.length ≠ 0 := Nat.pos_iff_ne_zero.mp hlen
  -- the source compares with the ends, where the place counts around them
  obtain rfl | rfl := hnext
  · have hstep : step env view .nextResult
        = view.selectRetainedFullTextResult ((place + 1) % results.length).toNat := by
      show view.moveRetainedFullTextNext = _
      unfold moveRetainedFullTextNext
      rw [h.retainedResults, h.retainedSelected, if_neg hne, ← next_place hlen]
      rfl
    rw [hstep]
    exact selectRetainedFullTextResult_spec view h.retainedResults h.retainedQuery rfl hresult
  · have hstep : step env view .previousResult
        = view.selectRetainedFullTextResult ((place + -1) % results.length).toNat := by
      show view.moveRetainedFullTextPrevious = _
      unfold moveRetainedFullTextPrevious
      rw [h.retainedResults, h.retainedSelected, if_neg hne, ← previous_place hlen]
      rfl
    rw [hstep]
    exact selectRetainedFullTextResult_spec view h.retainedResults h.retainedQuery rfl hresult

theorem getElem?_emod (hlen : 0 < results.length) (place : Int) :
    ∃ result, results[(place % results.length).toNat]? = some result := by
  have hnonneg : 0 ≤ place % results.length := Int.emod_nonneg _ (by omega)
  have hlt : place % results.length < results.length := Int.emod_lt_of_pos _ (by omega)
  exact ⟨_, List.getElem?_eq_getElem (by omega)⟩

variable (env) in
/-- **One step** goes as far through the results as it says. -/
theorem Retains.step {place : Int} (h : Retains results query place view) (hlen : 0 < results.length) (next : Step)
    (hchooses : next.chooses = false) : Retains results query (place + next.shift) (step env view next) := by
  by_cases hnext : next = .nextResult ∨ next = .previousResult
  · obtain ⟨result, hresult⟩ := getElem?_emod hlen (place + next.shift)
    exact (h.turn hnext hresult).1
  · have hshift : next.shift = 0 := by
      cases next with
      | nextResult => exact absurd (Or.inl rfl) hnext
      | previousResult => exact absurd (Or.inr rfl) hnext
      | _ => rfl
    constructor
    rw [step_retained next hshift hchooses, hshift, Int.add_zero]
    exact h.retained

/-- **A run** goes as far as its steps together. -/
theorem Retains.runFrom {place : Int} (h : Retains results query place view) (hlen : 0 < results.length)
    (steps : List Step) (hchooses : ∀ next ∈ steps, next.chooses = false) :
    Retains results query (place + (steps.map Step.shift).sum) (runFrom env view steps) := by
  induction steps generalizing view place with
  | nil => simpa [PacketView.runFrom] using h
  | cons next steps ih =>
      have hstep := h.step env hlen next (hchooses next List.mem_cons_self)
      have hrun := ih hstep fun next' hmem => hchooses next' (List.mem_cons_of_mem _ hmem)
      rw [List.map_cons, List.sum_cons, ← Int.add_assoc]
      exact hrun

/-! ## Main result -/

variable (env) in
/-- **The keys go through the results in a circle.** A result of a full-text search that is chosen is shown. Then, in
    every run in which none is chosen again, the results stay, the place is the chosen one moved by the keys so far, and
    a further key shows the result that is next or previous: its packet is selected and its detail asked for with the
    query, in the tab of its file, if the list has a packet of the flow. -/
theorem results_in_turn (view : PacketView T) (results : List FullTextSearchResult) (query : Str) (selected : Nat)
    (hselected : selected < results.length) (steps : List Step) (hchooses : ∀ next ∈ steps, next.chooses = false) :
    let after := PacketView.runFrom env (view.selectFullTextResult results selected query) steps
    let place := selected + (steps.map Step.shift).sum
    ShowsFlow results[selected].flowKey (some query) (detailTabSelectionFromSearchPath results[selected].path) view
      (view.selectFullTextResult results selected query)
    ∧ after.retainedResults = results ∧ after.retainedSelected = some (place % results.length).toNat
    ∧ ∀ next : Step, next = .nextResult ∨ next = .previousResult →
      ∃ result, results[((place + next.shift) % results.length).toNat]? = some result
        ∧ ShowsFlow result.flowKey (some query) (detailTabSelectionFromSearchPath result.path) after
          (PacketView.step env after next) := by
  intro after place
  have hlen : 0 < results.length := Nat.zero_lt_of_lt hselected
  have hplace : selected = ((selected : Int) % results.length).toNat := by
    rw [Int.emod_eq_of_lt (by omega) (by omega)]
    rfl
  have hchosen := selectRetainedFullTextResult_spec { view with
      retainedSelected := some selected
      retainedQuery := some query
      retainedResults := results } rfl rfl hplace (List.getElem?_eq_getElem hselected)
  have hafter : Retains results query place after := hchosen.1.runFrom hlen steps hchooses
  refine ⟨hchosen.2, hafter.retainedResults, hafter.retainedSelected, ?_⟩
  intro next hnext
  obtain ⟨result, hresult⟩ := getElem?_emod hlen (place + next.shift)
  exact ⟨result, hresult, (hafter.turn hnext hresult).2⟩

/-- A result in the file of a response. -/
def bodyResult (flowKey : String) : FullTextSearchResult where
  flowKey := flowKey.toList
  path := "response.body".toList
  lineNumber := 1
  preview := []
  displayLine := []

/-- From the first of three results the key for the previous one goes to the last; the packet is not in the list. -/
theorem results_in_turn_around :
    let view := new PacketListDelegate.rawTimes .capture [] () [] false false
    let results := [bodyResult "a", bodyResult "b", bodyResult "c"]
    (runFrom PacketListDelegate.rawTimes (view.selectFullTextResult results 0 "q".toList)
      [.previousResult]).retainedSelected = some 2 := by
  intro view results
  exact (results_in_turn PacketListDelegate.rawTimes view results "q".toList 0 (by decide) [.previousResult]
    (by simp [Step.chooses])).2.2.1

end PacketView

end Inspect.Tui
