import Inspect.Tui.Tab

/-!
# `Tui.Correctness.Tab` — the detail pane shows what its controls say

The pane keeps its tab in fields of its own, and the controls keep a selection each: the labels of the first control
change with the content, and the second control has no selection while its part is hidden. `Wired` holds at all times;
between an input of a control and its event the tab and the control may differ, and every way out of that leads through
`showTab`.
-/

namespace Inspect.Tui

/-- The label of a tab. -/
def tabLabel : DetailPrimaryTabSelection → Str
  | .request => "request".toList
  | .response => "response".toList
  | .sslTls => "ssl/tls".toList
  | .info => "info".toList

/-- The label of a part of a message. -/
def partLabel : DetailMessagePartSelection → Str
  | .metadata => "meta".toList
  | .body => "body".toList

namespace DetailPane

variable {regexNew : Str → Option (Str → List ByteRange)} {pane : DetailPane}

/-! ## Indices -/

theorem primaryTabIndex_lt : pane.primaryTabIndex < (primaryLabels pane.isTunnelFailure).length := by
  unfold primaryTabIndex primaryLabels
  cases pane.isTunnelFailure <;> cases pane.primaryTab <;> simp

/-- The label at the index of the tab is its label. -/
theorem primaryLabels_primaryTabIndex (htab : pane.isTunnelFailure = true → pane.showsMessagePart = false) :
    (primaryLabels pane.isTunnelFailure)[pane.primaryTabIndex]? = some (tabLabel pane.primaryTab) := by
  unfold primaryTabIndex primaryLabels
  unfold showsMessagePart at htab
  cases htunnel : pane.isTunnelFailure with
  | true =>
      have hhidden := htab htunnel
      cases htab' : pane.primaryTab with
      | request => simp [htab'] at hhidden
      | response => simp [htab'] at hhidden
      | sslTls => rfl
      | info => rfl
  | false => cases pane.primaryTab <;> rfl

/-- The tab of a segment has the index of the segment. -/
theorem primaryTabIndex_tabOfIndex {index : Nat} (hlt : index < (primaryLabels pane.isTunnelFailure).length) :
    ({ pane with primaryTab := tabOfIndex pane.isTunnelFailure index } : DetailPane).primaryTabIndex = index := by
  show (if pane.isTunnelFailure then _ else _) = index
  unfold primaryLabels at hlt
  cases htunnel : pane.isTunnelFailure with
  | true =>
      rw [htunnel] at hlt
      match index, hlt with
      | 0, _ => rfl
      | 1, _ => rfl
  | false =>
      rw [htunnel] at hlt
      match index, hlt with
      | 0, _ => rfl
      | 1, _ => rfl
      | 2, _ => rfl
      | 3, _ => rfl

/-- The tabs without a message. -/
theorem tab_of_hidden (h : pane.showsMessagePart = false) : pane.primaryTab = .sslTls ∨ pane.primaryTab = .info := by
  unfold showsMessagePart at h
  cases htab : pane.primaryTab with
  | request => simp [htab] at h
  | response => simp [htab] at h
  | sslTls => exact Or.inl rfl
  | info => exact Or.inr rfl

/-- A tunnel that failed has no tab of a message. -/
theorem tabOfIndex_tunnel (index : Nat) : tabOfIndex true index = .sslTls ∨ tabOfIndex true index = .info := by
  unfold tabOfIndex
  rw [if_pos rfl]
  split
  · exact Or.inr rfl
  · exact Or.inl rfl

theorem messagePartLabels_messagePartIndex (part : DetailMessagePartSelection) :
    messagePartLabels[messagePartIndex part]? = some (partLabel part) := by
  cases part <;> rfl

theorem messagePartIndex_lt (part : DetailMessagePartSelection) : messagePartIndex part < messagePartLabels.length := by
  cases part <;> simp [messagePartIndex, messagePartLabels]

/-! ## The invariant -/

/-- The controls fit the content. -/
structure Fitted (pane : DetailPane) : Prop where
  primaryLabels : pane.primaryControl.labels = primaryLabels pane.isTunnelFailure
  primaryEnabled : pane.primaryControl.disabled = 0
  primarySelected : pane.primaryControl.selected < pane.primaryControl.labels.length
  partLabels : pane.messagePartControl.labels = messagePartLabels
  partEnabled : pane.messagePartControl.disabled = 0

/-- What holds of a pane at all times. -/
structure Wired (regexNew : Str → Option (Str → List ByteRange)) (pane : DetailPane) : Prop extends Fitted pane where
  tunnelTab : pane.isTunnelFailure = true → pane.showsMessagePart = false
  partHidden : pane.messagePartControl.controlDisabled = !pane.showsMessagePart
  partSelected : pane.showsMessagePart = true → pane.messagePartControl.selected < messagePartLabels.length
  partCleared : pane.showsMessagePart = false → pane.messagePartControl.selected = messagePartLabels.length
  height : pane.messagePartHeight = if pane.showsMessagePart then 1 else 0
  text : pane.text = shownText regexNew pane.selectedText pane.highlightQuery
    ∨ pane.text = .styled (some [⟨detailPlaceholderText, .dim⟩]) ∧ pane.content = DetailContent.default
  selection : pane.bus.selection = pane.currentSelection
  content : pane.bus.content = pane.content
  supported : ∀ request, request ∈ pane.bus.externalDiffRequests ++ pane.bus.externalViewRequests →
    request.primaryTab ≠ .info

/-- The controls show the tab. -/
structure Settled (pane : DetailPane) : Prop where
  primary : pane.primaryControl.selected = pane.primaryTabIndex
  part : pane.showsMessagePart = true → pane.messagePartControl.selected = messagePartIndex pane.messagePart

/-- The second control, behind `sync_message_part_visibility`. -/
theorem syncMessagePartVisibility_control (hlabels : pane.messagePartControl.labels = messagePartLabels)
    (henabled : pane.messagePartControl.disabled = 0) :
    pane.syncMessagePartVisibility.messagePartControl.labels = messagePartLabels
    ∧ pane.syncMessagePartVisibility.messagePartControl.disabled = 0
    ∧ pane.syncMessagePartVisibility.messagePartControl.controlDisabled = !pane.showsMessagePart
    ∧ pane.syncMessagePartVisibility.messagePartControl.selected
      = if pane.showsMessagePart then messagePartIndex pane.messagePart else messagePartLabels.length := by
  unfold syncMessagePartVisibility
  cases hshown : pane.showsMessagePart with
  | true =>
      have hlt := messagePartIndex_lt pane.messagePart
      rw [← hlabels, ← SegmentedControl.setControlDisabled_labels pane.messagePartControl (!true)] at hlt
      simp only [if_pos]
      refine ⟨by simp [hlabels], by simp [henabled], by simp, ?_⟩
      exact SegmentedControl.setSelected_selected (by simp [henabled]) hlt
  | false =>
      simp only [Bool.false_eq_true, if_false]
      refine ⟨by simp [hlabels], by simp [henabled], by simp, ?_⟩
      show (pane.messagePartControl.setControlDisabled (!false)).labels.length = _
      rw [SegmentedControl.setControlDisabled_labels, hlabels]

/-- Whatever fits is wired by `showTab`. -/
theorem Fitted.showTab (h : Fitted pane) (htab : pane.isTunnelFailure = true → pane.showsMessagePart = false)
    (hsupported : ∀ request, request ∈ pane.bus.externalDiffRequests ++ pane.bus.externalViewRequests →
      request.primaryTab ≠ .info) :
    Wired regexNew (pane.showTab regexNew) := by
  obtain ⟨hlabels, henabled, hhidden, hselected⟩ := syncMessagePartVisibility_control h.partLabels h.partEnabled
  refine ⟨⟨h.primaryLabels, h.primaryEnabled, h.primarySelected, hlabels, henabled⟩, htab, hhidden, ?_, ?_, rfl,
    Or.inl rfl, rfl, rfl, hsupported⟩
  · intro hshown
    show pane.syncMessagePartVisibility.messagePartControl.selected < _
    rw [hselected, if_pos (show pane.showsMessagePart = true from hshown)]
    exact messagePartIndex_lt _
  · intro hshown
    show pane.syncMessagePartVisibility.messagePartControl.selected = _
    rw [hselected, if_neg (by rw [show pane.showsMessagePart = false from hshown]; exact Bool.false_ne_true)]

/-- And settled, if the first control shows the tab. -/
theorem Fitted.showTab_settled (h : Fitted pane) (hprimary : pane.primaryControl.selected = pane.primaryTabIndex) :
    Settled (pane.showTab regexNew) := by
  obtain ⟨-, -, -, hselected⟩ := syncMessagePartVisibility_control h.partLabels h.partEnabled
  refine ⟨hprimary, ?_⟩
  intro hshown
  show pane.syncMessagePartVisibility.messagePartControl.selected = _
  rw [hselected, if_pos (show pane.showsMessagePart = true from hshown)]
  rfl

/-! ## Steps -/

theorem new_wired : Wired regexNew new := by
  refine ⟨⟨rfl, rfl, ?_, rfl, rfl⟩, ?_, rfl, ?_, ?_, rfl, Or.inr ⟨rfl, rfl⟩, rfl, rfl, ?_⟩
  · show 0 < 4
    exact Nat.zero_lt_succ 3
  · intro h
    cases h
  · intro _
    exact Nat.zero_lt_succ 1
  · intro h
    cases h
  · intro request h
    cases h

theorem new_settled : Settled new := ⟨rfl, fun _ => rfl⟩

/-- New labels leave a selection among them. -/
theorem Fitted.relabel (h : Fitted pane) (content : DetailContent) (highlightQuery : Option Str) :
    Fitted ({ pane with content, highlightQuery } : DetailPane).syncPrimaryTabLabels := by
  refine ⟨rfl, rfl, ?_, h.partLabels, h.partEnabled⟩
  have hlabels : 0 < (Tui.primaryLabels content.tunnelInfo.isSome).length := by
    unfold Tui.primaryLabels
    cases content.tunnelInfo.isSome <;> simp
  show min pane.primaryControl.selected ((Tui.primaryLabels content.tunnelInfo.isSome).length - 1) <
    (Tui.primaryLabels content.tunnelInfo.isSome).length
  omega

/-- The first control can show every tab. -/
theorem Fitted.selectPrimary (h : Fitted pane) :
    Fitted pane.selectPrimary ∧ pane.selectPrimary.primaryControl.selected = pane.selectPrimary.primaryTabIndex := by
  have hlt : pane.primaryTabIndex < pane.primaryControl.labels.length := by
    rw [h.primaryLabels]
    exact primaryTabIndex_lt
  have hselected : (pane.primaryControl.setSelected pane.primaryTabIndex).selected = pane.primaryTabIndex :=
    SegmentedControl.setSelected_selected h.primaryEnabled hlt
  refine ⟨⟨?_, ?_, ?_, h.partLabels, h.partEnabled⟩, hselected⟩
  · show (pane.primaryControl.setSelected pane.primaryTabIndex).labels = _
    rw [SegmentedControl.setSelected_labels]
    exact h.primaryLabels
  · show (pane.primaryControl.setSelected pane.primaryTabIndex).disabled = 0
    rw [SegmentedControl.setSelected_disabled]
    exact h.primaryEnabled
  · show (pane.primaryControl.setSelected pane.primaryTabIndex).selected
      < (pane.primaryControl.setSelected pane.primaryTabIndex).labels.length
    rw [hselected, SegmentedControl.setSelected_labels]
    exact hlt

/-- Another tab fits as well. -/
theorem Fitted.retab (h : Fitted pane) (primaryTab : DetailPrimaryTabSelection)
    (messagePart : DetailMessagePartSelection) : Fitted { pane with primaryTab, messagePart } :=
  ⟨h.primaryLabels, h.primaryEnabled, h.primarySelected, h.partLabels, h.partEnabled⟩

theorem Fitted.selectTab (h : Fitted pane) (tabSelection : DetailTabSelection) :
    Fitted (pane.selectTab tabSelection)
    ∧ (pane.selectTab tabSelection).primaryControl.selected = (pane.selectTab tabSelection).primaryTabIndex := by
  obtain ⟨hfitted, hselected⟩ := (h.retab tabSelection.primaryTab tabSelection.messagePart).selectPrimary
  refine ⟨⟨hfitted.primaryLabels, hfitted.primaryEnabled, hfitted.primarySelected, ?_, ?_⟩, hselected⟩
  · exact (SegmentedControl.setSelected_labels _ _).trans hfitted.partLabels
  · exact (SegmentedControl.setSelected_disabled _ _).trans hfitted.partEnabled

/-- A tunnel that failed has no message to show. -/
theorem Fitted.tunnel (h : Fitted pane) :
    Fitted pane.selectTunnelTab
    ∧ pane.selectTunnelTab.primaryControl.selected = pane.selectTunnelTab.primaryTabIndex
    ∧ pane.selectTunnelTab.showsMessagePart = false := by
  have hplace : ∀ tab, (tab = .sslTls ∨ tab = .info) →
      let shown := ({ pane with primaryTab := tab, messagePart := .metadata } : DetailPane).selectPrimary
      Fitted shown ∧ shown.primaryControl.selected = shown.primaryTabIndex ∧ shown.showsMessagePart = false := by
    intro tab htab
    obtain ⟨hfitted, hselected⟩ := (h.retab tab .metadata).selectPrimary
    refine ⟨hfitted, hselected, ?_⟩
    obtain rfl | rfl := htab
    · rfl
    · rfl
  unfold selectTunnelTab
  cases pane.primaryTab with
  | request => exact hplace .sslTls (Or.inl rfl)
  | response => exact hplace .sslTls (Or.inl rfl)
  | sslTls => exact hplace .sslTls (Or.inl rfl)
  | info => exact hplace .info (Or.inr rfl)

/-- The same labels change nothing. -/
theorem relabel_selected (h : Fitted pane) (hsettled : pane.primaryControl.selected = pane.primaryTabIndex)
    {content : DetailContent} {highlightQuery : Option Str}
    (hsame : content.tunnelInfo.isSome = pane.isTunnelFailure) :
    let shown := ({ pane with content, highlightQuery } : DetailPane).syncPrimaryTabLabels
    shown.primaryControl.selected = shown.primaryTabIndex := by
  have hlt := h.primarySelected
  rw [h.primaryLabels, ← hsame] at hlt
  have hindex : ({ pane with content, highlightQuery } : DetailPane).syncPrimaryTabLabels.primaryTabIndex
      = pane.primaryTabIndex := by
    unfold primaryTabIndex
    rw [← hsame]
    rfl
  dsimp only
  rw [hindex, ← hsettled]
  show min pane.primaryControl.selected ((Tui.primaryLabels content.tunnelInfo.isSome).length - 1) = _
  omega

/-- The pane of `set_content`, before it shows its tab. -/
theorem setContent_cases (h : Wired regexNew pane) (content : DetailContent) (highlightQuery : Option Str)
    (tabSelection : Option DetailTabSelection) :
    ∃ shown : DetailPane, pane.setContent regexNew content highlightQuery tabSelection = shown.showTab regexNew
      ∧ Fitted shown ∧ shown.content = content ∧ shown.highlightQuery = highlightQuery ∧ shown.bus = pane.bus
      ∧ (shown.isTunnelFailure = true → shown.showsMessagePart = false)
      ∧ (Settled pane → shown.primaryControl.selected = shown.primaryTabIndex) := by
  have hfitted := h.toFitted.relabel content highlightQuery
  unfold setContent
  dsimp only
  split_ifs with htunnel hwas
  · obtain ⟨hshown, hselected, hhidden⟩ := hfitted.tunnel
    exact ⟨_, rfl, hshown, rfl, rfl, rfl, fun _ => hhidden, fun _ => hselected⟩
  · cases tabSelection with
    | some tabSelection =>
        obtain ⟨hshown, hselected⟩ := hfitted.selectTab tabSelection
        exact ⟨_, rfl, hshown, rfl, rfl, rfl, fun hfailed => absurd hfailed htunnel, fun _ => hselected⟩
    | none =>
        -- the labels are others than before
        obtain ⟨hshown, hselected⟩ := hfitted.selectPrimary
        exact ⟨_, rfl, hshown, rfl, rfl, rfl, fun hfailed => absurd hfailed htunnel, fun _ => hselected⟩
  · cases tabSelection with
    | some tabSelection =>
        obtain ⟨hshown, hselected⟩ := hfitted.selectTab tabSelection
        exact ⟨_, rfl, hshown, rfl, rfl, rfl, fun hfailed => absurd hfailed htunnel, fun _ => hselected⟩
    | none =>
        have hsame : content.tunnelInfo.isSome = pane.isTunnelFailure :=
          (Bool.eq_false_iff.mpr htunnel).trans (Bool.eq_false_iff.mpr hwas).symm
        exact ⟨_, rfl, hfitted, rfl, rfl, rfl, fun hfailed => absurd hfailed htunnel, fun hsettled =>
          relabel_selected h.toFitted hsettled.primary hsame⟩

/-- **New content keeps the pane wired**, and settled if it was. -/
theorem setContent_wired (h : Wired regexNew pane) (content : DetailContent) (highlightQuery : Option Str)
    (tabSelection : Option DetailTabSelection) :
    let after := pane.setContent regexNew content highlightQuery tabSelection
    Wired regexNew after ∧ (Settled pane → Settled after) ∧ after.content = content
      ∧ after.highlightQuery = highlightQuery := by
  obtain ⟨shown, heq, hfitted, hcontent, hquery, hbus, htab, hselected⟩ :=
    setContent_cases h content highlightQuery tabSelection
  intro after
  rw [show after = shown.showTab regexNew from heq]
  refine ⟨hfitted.showTab htab ?_, fun hsettled => hfitted.showTab_settled (hselected hsettled), hcontent, hquery⟩
  rw [hbus]
  exact h.supported

/-- **What the controls say is shown.** -/
theorem syncFromControls_wired (h : Wired regexNew pane) :
    let after := pane.syncFromControls regexNew
    Wired regexNew after ∧ Settled after ∧ after.content = pane.content
      ∧ after.highlightQuery = pane.highlightQuery := by
  have hfitted := h.toFitted.retab (tabOfIndex pane.isTunnelFailure pane.primaryControl.selected)
    (partOfIndex pane.messagePartControl.selected)
  have hlt : pane.primaryControl.selected < (Tui.primaryLabels pane.isTunnelFailure).length := by
    rw [← h.primaryLabels]
    exact h.primarySelected
  have htab : pane.isTunnelFailure = true →
      ({ pane with primaryTab := tabOfIndex pane.isTunnelFailure pane.primaryControl.selected } :
        DetailPane).showsMessagePart = false := by
    intro htunnel
    rw [htunnel]
    obtain hsslTls | hinfo := tabOfIndex_tunnel pane.primaryControl.selected
    · rw [hsslTls]
      rfl
    · rw [hinfo]
      rfl
  refine ⟨hfitted.showTab htab h.supported, hfitted.showTab_settled ?_, rfl, rfl⟩
  exact (primaryTabIndex_tabOfIndex hlt).symm

/-! ## Inputs and requests -/

/-- An input of the first control. -/
theorem primaryInput_wired (h : Wired regexNew pane) (input : ControlInput) :
    Wired regexNew { pane with primaryControl := (pane.primaryControl.onInput input).2 }
    ∧ ((pane.primaryControl.onInput input).1 = none → Settled pane →
      Settled { pane with primaryControl := (pane.primaryControl.onInput input).2 }) := by
  have hmoved := SegmentedControl.onInput_moved pane.primaryControl input
  have hlt : (pane.primaryControl.onInput input).2.selected < (pane.primaryControl.onInput input).2.labels.length := by
    rw [hmoved.selected, hmoved.labels]
    cases hevent : (pane.primaryControl.onInput input).1 with
    | none => exact h.primarySelected
    | some index => exact hmoved.inLabels index hevent
  refine ⟨⟨⟨hmoved.labels.trans h.primaryLabels, hmoved.disabled.trans h.primaryEnabled, hlt, h.partLabels,
    h.partEnabled⟩, h.tunnelTab, h.partHidden, h.partSelected, h.partCleared, h.height, h.text, h.selection, h.content,
    h.supported⟩, ?_⟩
  intro hnone hsettled
  refine ⟨?_, hsettled.part⟩
  show (pane.primaryControl.onInput input).2.selected = pane.primaryTabIndex
  rw [hmoved.selected, hnone]
  exact hsettled.primary

/-- An input of the second control; while it is hidden it takes none. -/
theorem messagePartInput_wired (h : Wired regexNew pane) (input : ControlInput) :
    Wired regexNew { pane with messagePartControl := (pane.messagePartControl.onInput input).2 }
    ∧ ((pane.messagePartControl.onInput input).1 = none → Settled pane →
      Settled { pane with messagePartControl := (pane.messagePartControl.onInput input).2 }) := by
  have hmoved := SegmentedControl.onInput_moved pane.messagePartControl input
  have hselected : pane.showsMessagePart = true →
      (pane.messagePartControl.onInput input).2.selected < messagePartLabels.length := by
    intro hshown
    rw [hmoved.selected]
    cases hevent : (pane.messagePartControl.onInput input).1 with
    | none => exact h.partSelected hshown
    | some index => exact h.partLabels ▸ hmoved.inLabels index hevent
  have hcleared : pane.showsMessagePart = false →
      (pane.messagePartControl.onInput input).2.selected = messagePartLabels.length := by
    intro hhidden
    have hdisabled : pane.messagePartControl.controlDisabled = true := by
      rw [h.partHidden, hhidden]
      rfl
    rw [SegmentedControl.onInput_of_disabled hdisabled]
    exact h.partCleared hhidden
  refine ⟨⟨⟨h.primaryLabels, h.primaryEnabled, h.primarySelected, hmoved.labels.trans h.partLabels,
    hmoved.disabled.trans h.partEnabled⟩, h.tunnelTab, hmoved.controlDisabled.trans h.partHidden, hselected, hcleared,
    h.height, h.text, h.selection, h.content, h.supported⟩, ?_⟩
  intro hnone hsettled
  refine ⟨hsettled.primary, ?_⟩
  intro hshown
  show (pane.messagePartControl.onInput input).2.selected = _
  rw [hmoved.selected, hnone]
  exact hsettled.part hshown

/-- A bus that only takes requests on or gives them away. -/
theorem Wired.bus (h : Wired regexNew pane) {bus : DetailActionBus} (hselection : bus.selection = pane.bus.selection)
    (hcontent : bus.content = pane.bus.content)
    (hsupported : ∀ request, request ∈ bus.externalDiffRequests ++ bus.externalViewRequests →
      request.primaryTab ≠ .info) :
    Wired regexNew { pane with bus } :=
  ⟨⟨h.primaryLabels, h.primaryEnabled, h.primarySelected, h.partLabels, h.partEnabled⟩, h.tunnelTab, h.partHidden,
    h.partSelected, h.partCleared, h.height, h.text, hselection.trans h.selection, hcontent.trans h.content,
    hsupported⟩

theorem Settled.bus (h : Settled pane) (bus : DetailActionBus) : Settled { pane with bus } := ⟨h.primary, h.part⟩

end DetailPane

namespace DetailActionBus

variable (bus : DetailActionBus)

/-- What a request leaves as it is; a new one names the open tab, which is not `info`. -/
structure Asked (bus after : DetailActionBus) : Prop where
  selection : after.selection = bus.selection
  content : after.content = bus.content
  supported : ∀ request, request ∈ after.externalDiffRequests ++ after.externalViewRequests →
    request ∈ bus.externalDiffRequests ++ bus.externalViewRequests ∨ request.primaryTab ≠ .info

theorem Asked.refl : Asked bus bus := ⟨rfl, rfl, fun _ => Or.inl⟩

theorem requestOpenEdit_asked : Asked bus bus.requestOpenEditIfSupported := by
  unfold requestOpenEditIfSupported
  cases bus.selection.primaryTab <;> exact ⟨rfl, rfl, fun _ => Or.inl⟩

theorem requestExternalDiff_asked : Asked bus bus.requestExternalDiffIfSupported := by
  have hasked : bus.selection.primaryTab ≠ .info →
      Asked bus { bus with externalDiffRequests := bus.externalDiffRequests ++ [bus.selection] } := by
    intro htab
    refine ⟨rfl, rfl, ?_⟩
    intro request hmem
    simp only [List.mem_append, List.mem_singleton] at hmem ⊢
    obtain (hmem | rfl) | hmem := hmem
    · exact Or.inl (Or.inl hmem)
    · exact Or.inr htab
    · exact Or.inl (Or.inr hmem)
  unfold requestExternalDiffIfSupported
  cases htab : bus.selection.primaryTab with
  | request => exact hasked (by simp [htab])
  | response => exact hasked (by simp [htab])
  | sslTls => exact hasked (by simp [htab])
  | info => exact Asked.refl bus

theorem requestExternalView_asked : Asked bus bus.requestExternalViewIfSupported := by
  have hasked : bus.selection.primaryTab ≠ .info →
      Asked bus { bus with externalViewRequests := bus.externalViewRequests ++ [bus.selection] } := by
    intro htab
    refine ⟨rfl, rfl, ?_⟩
    intro request hmem
    simp only [List.mem_append, List.mem_singleton] at hmem ⊢
    obtain hmem | hmem | rfl := hmem
    · exact Or.inl (Or.inl hmem)
    · exact Or.inl (Or.inr hmem)
    · exact Or.inr htab
  unfold requestExternalViewIfSupported
  cases htab : bus.selection.primaryTab with
  | request => exact hasked (by simp [htab])
  | response => exact hasked (by simp [htab])
  | sslTls => exact hasked (by simp [htab])
  | info => exact Asked.refl bus

end DetailActionBus

namespace DetailPaneState

variable (regexNew : Str → Option (Str → List ByteRange))

/-- The content and the query that the last step with a content has. -/
def lastContent (shown : DetailContent × Option Str) : DetailPaneStep → DetailContent × Option Str
  | .setContent content highlightQuery _ => (content, highlightQuery)
  | _ => shown

/-- What holds of a pane and its events. -/
structure InStep (regexNew : Str → Option (Str → List ByteRange)) (shown : DetailContent × Option Str)
    (state : DetailPaneState) : Prop where
  wired : state.pane.Wired regexNew
  settled : state.events = 0 → state.pane.Settled
  content : state.pane.content = shown.1
  highlightQuery : state.pane.highlightQuery = shown.2

theorem new_inStep : InStep regexNew (DetailContent.default, none) new :=
  ⟨DetailPane.new_wired, fun _ => DetailPane.new_settled, rfl, rfl⟩

/-- A request changes nothing but the bus. -/
theorem InStep.asked {shown : DetailContent × Option Str} {state : DetailPaneState}
    (h : InStep regexNew shown state) {bus : DetailActionBus} (hasked : DetailActionBus.Asked state.pane.bus bus) :
    InStep regexNew shown { state with pane := { state.pane with bus } } := by
  refine ⟨h.wired.bus hasked.selection hasked.content ?_, fun hevents => (h.settled hevents).bus bus, h.content,
    h.highlightQuery⟩
  intro request hmem
  obtain hold | hnew := hasked.supported request hmem
  · exact h.wired.supported request hold
  · exact hnew

/-- An event that was emitted is under way. -/
theorem events_of_input {events : Nat} {event : Option Nat} (h : (events + event.elim 0 fun _ => 1) = 0) :
    events = 0 ∧ event = none := by
  cases event with
  | none => exact ⟨h, rfl⟩
  | some index => exact absurd h (Nat.succ_ne_zero events)

theorem step_inStep {shown : DetailContent × Option Str} {state : DetailPaneState} (h : InStep regexNew shown state)
    (next : DetailPaneStep) : InStep regexNew (lastContent shown next) (state.step regexNew next) := by
  cases next with
  | setContent content highlightQuery tabSelection =>
      obtain ⟨hwired, hsettled, hcontent, hquery⟩ :=
        DetailPane.setContent_wired h.wired content highlightQuery tabSelection
      exact ⟨hwired, fun hevents => hsettled (h.settled hevents), hcontent, hquery⟩
  | primaryInput input =>
      obtain ⟨hwired, hsettled⟩ := DetailPane.primaryInput_wired h.wired input
      refine ⟨hwired, ?_, h.content, h.highlightQuery⟩
      intro hevents
      obtain ⟨hbefore, hnone⟩ := events_of_input hevents
      exact hsettled hnone (h.settled hbefore)
  | messagePartInput input =>
      obtain ⟨hwired, hsettled⟩ := DetailPane.messagePartInput_wired h.wired input
      refine ⟨hwired, ?_, h.content, h.highlightQuery⟩
      intro hevents
      obtain ⟨hbefore, hnone⟩ := events_of_input hevents
      exact hsettled hnone (h.settled hbefore)
  | changeEvent =>
      obtain ⟨pane, events⟩ := state
      cases events with
      | zero => exact h
      | succ events =>
          obtain ⟨hwired, hsettled, hcontent, hquery⟩ := DetailPane.syncFromControls_wired h.wired
          exact ⟨hwired, fun _ => hsettled, hcontent.trans h.content, hquery.trans h.highlightQuery⟩
  | openEdit => exact h.asked regexNew (DetailActionBus.requestOpenEdit_asked _)
  | externalDiff => exact h.asked regexNew (DetailActionBus.requestExternalDiff_asked _)
  | externalView => exact h.asked regexNew (DetailActionBus.requestExternalView_asked _)
  | takeRequests =>
      refine ⟨h.wired.bus rfl rfl ?_, fun hevents => (h.settled hevents).bus _, h.content, h.highlightQuery⟩
      intro request hmem
      cases hmem

theorem runFrom_inStep (steps : List DetailPaneStep) {shown : DetailContent × Option Str} {state : DetailPaneState}
    (h : InStep regexNew shown state) :
    InStep regexNew (steps.foldl lastContent shown) (runFrom regexNew state steps) := by
  induction steps generalizing shown state with
  | nil => exact h
  | cons next steps ih => exact ih (step_inStep regexNew h next)

/-- **The pane shows what its controls say, of the content that came last.** In every run, with the events of the
    controls as late as they may be: the pane has the content and the query of the last `set_content`, and shows their
    text of its tab; the bus has the same tab and content; a tunnel that failed has none of the tabs of a message, and
    nothing asks for a file of the tab `info`. When no event is under way, the labels that are selected are those of the
    tab and, if it has parts, of the part. -/
theorem pane_shows_selected_tab (steps : List DetailPaneStep) :
    let state := runFrom regexNew new steps
    let pane := state.pane
    (pane.content, pane.highlightQuery) = steps.foldl lastContent (DetailContent.default, none)
    ∧ (pane.text = DetailPane.shownText regexNew pane.selectedText pane.highlightQuery
      ∨ pane.text = .styled (some [⟨detailPlaceholderText, .dim⟩]) ∧ pane.content = DetailContent.default)
    ∧ pane.bus.selection = pane.currentSelection ∧ pane.bus.content = pane.content
    ∧ (pane.isTunnelFailure = true → pane.primaryTab = .sslTls ∨ pane.primaryTab = .info)
    ∧ (∀ request, request ∈ pane.bus.externalDiffRequests ++ pane.bus.externalViewRequests →
      request.primaryTab ≠ .info)
    ∧ (state.events = 0 →
      pane.primaryControl.selectedLabel = some (tabLabel pane.primaryTab)
      ∧ pane.messagePartControl.selectedLabel
        = if pane.showsMessagePart then some (partLabel pane.messagePart) else none) := by
  intro state pane
  have h : InStep regexNew (steps.foldl lastContent (DetailContent.default, none)) state :=
    runFrom_inStep regexNew steps (new_inStep regexNew)
  refine ⟨Prod.ext h.content h.highlightQuery, h.wired.text, h.wired.selection, h.wired.content, ?_,
    h.wired.supported, ?_⟩
  · intro htunnel
    exact DetailPane.tab_of_hidden (h.wired.tunnelTab htunnel)
  · intro hevents
    have hsettled := h.settled hevents
    refine ⟨?_, ?_⟩
    · show pane.primaryControl.labels[pane.primaryControl.selected]? = _
      rw [h.wired.primaryLabels, hsettled.primary]
      exact DetailPane.primaryLabels_primaryTabIndex h.wired.tunnelTab
    · show pane.messagePartControl.labels[pane.messagePartControl.selected]? = _
      rw [h.wired.partLabels]
      cases hshown : pane.showsMessagePart with
      | true =>
          rw [hsettled.part hshown, if_pos rfl]
          exact DetailPane.messagePartLabels_messagePartIndex pane.messagePart
      | false =>
          rw [h.wired.partCleared hshown]
          rfl

end DetailPaneState

end Inspect.Tui
