import Inspect.Lib.Fields

/-!
# `Tui.SegmentedControl` — a row of labels, one of which is selected

`SegmentedControl` of `src/tui/segmented_control.rs`, without its drawing. What a control tells its owner is a
`ChangeEvent` with an index; here an input returns it.
-/

namespace Inspect.Tui

structure SegmentedControl where
  labels : List Str
  selected : Nat
  pressed : Option Nat
  /-- one bit for each segment -/
  disabled : UInt32
  controlDisabled : Bool
deriving DecidableEq

/-- A cell of the terminal, from the corner of the control. -/
structure Cell where
  x : Int
  y : Int
deriving DecidableEq

/-- What a control is told; `height` is that of its rectangle. -/
inductive ControlInput
  | left
  | right
  | leftClick (pos : Cell) (height : Nat)
  | leftRelease (pos : Cell) (height : Nat)
  | other
deriving DecidableEq

namespace SegmentedControl

/-- `SegmentedControl::new`. -/
def new (labels : List Str) : SegmentedControl := ⟨labels, 0, none, 0, false⟩

/-- The loop of `hit_segment`, from the segment `i` on, which starts at `x`. -/
def hitLoop (posX : Int) : (x : Int) → (i : Nat) → List Str → Option Nat
  | _, _, [] => none
  | x, i, label :: labels =>
      let width : Int := Text.len label + 2
      if x ≤ posX ∧ posX < x + width then some i else hitLoop posX (x + width) (i + 1) labels

/-- `hit_segment`. -/
def hitSegment (control : SegmentedControl) (pos : Cell) (height : Nat) : Option Nat :=
  if pos.y < 0 ∨ (height : Int) ≤ pos.y then none else hitLoop pos.x 0 0 control.labels

/-- `is_disabled`. -/
def isDisabled (control : SegmentedControl) (index : Nat) : Bool :=
  control.disabled &&& (1 <<< UInt32.ofNat index) != 0

/-- `select_index`, with the event. -/
def selectIndex (control : SegmentedControl) (index : Nat) : Option Nat × SegmentedControl :=
  if control.labels.length ≤ index || control.isDisabled index then (none, control)
  else (some index, { control with selected := index })

/-- The loop of `step`; it ends when it leaves the labels. -/
def stepLoop (control : SegmentedControl) (dir : Int) : (fuel : Nat) → (i : Int) → Option Nat
  | 0, _ => none
  | fuel + 1, i =>
      if 0 ≤ i ∧ i < control.labels.length then
        if control.isDisabled i.toNat then control.stepLoop dir fuel (i + dir) else some i.toNat
      else none

/-- `step`: the next segment in a direction that is not disabled. -/
def step (control : SegmentedControl) (start : Nat) (dir : Int) : Option Nat :=
  control.stepLoop dir (control.labels.length + 1) (start + dir)

/-- `on_input`, with the event. -/
def onInput (control : SegmentedControl) (input : ControlInput) : Option Nat × SegmentedControl :=
  if control.controlDisabled then (none, control)
  else
    match input with
    | .left => (control.step control.selected (-1)).elim (none, control) control.selectIndex
    | .right => (control.step control.selected 1).elim (none, control) control.selectIndex
    | .leftClick pos height =>
        match control.hitSegment pos height with
        | some i => if control.isDisabled i then (none, control) else (none, { control with pressed := some i })
        | none => (none, control)
    | .leftRelease pos height =>
        let pressed := control.pressed
        let control := { control with pressed := none }
        match control.hitSegment pos height with
        | some i => if pressed = some i then control.selectIndex i else (none, control)
        | none => (none, control)
    | .other => (none, control)

/-- `set_control_disabled`. -/
def setControlDisabled (control : SegmentedControl) (disabled : Bool) : SegmentedControl :=
  if control.controlDisabled ≠ disabled then { control with controlDisabled := disabled, pressed := none } else control

/-- `set_selected`. -/
def setSelected (control : SegmentedControl) (index : Nat) : SegmentedControl :=
  if control.labels.length ≤ index || control.isDisabled index then control else { control with selected := index }

/-- `set_labels`. -/
def setLabels (control : SegmentedControl) (labels : List Str) : SegmentedControl :=
  { control with labels, disabled := 0, selected := min control.selected (labels.length - 1), pressed := none }

/-- `clear_selected`: no label has the index. -/
def clearSelected (control : SegmentedControl) : SegmentedControl := { control with selected := control.labels.length }

/-- The label that is shown as the selected one. -/
def selectedLabel (control : SegmentedControl) : Option Str := control.labels[control.selected]?

/-! ## What the operations keep -/

section Basic

variable (control : SegmentedControl)

@[simp] theorem clearSelected_labels : control.clearSelected.labels = control.labels := rfl
@[simp] theorem clearSelected_disabled : control.clearSelected.disabled = control.disabled := rfl
@[simp] theorem clearSelected_controlDisabled : control.clearSelected.controlDisabled = control.controlDisabled := rfl

@[simp] theorem setControlDisabled_labels (disabled : Bool) :
    (control.setControlDisabled disabled).labels = control.labels := by
  unfold setControlDisabled
  split_ifs <;> rfl

@[simp] theorem setControlDisabled_disabled (disabled : Bool) :
    (control.setControlDisabled disabled).disabled = control.disabled := by
  unfold setControlDisabled
  split_ifs <;> rfl

@[simp] theorem setControlDisabled_controlDisabled (disabled : Bool) :
    (control.setControlDisabled disabled).controlDisabled = disabled := by
  unfold setControlDisabled
  split_ifs with h
  · rfl
  · exact not_not.mp h

@[simp] theorem setSelected_labels (index : Nat) : (control.setSelected index).labels = control.labels := by
  unfold setSelected
  split_ifs <;> rfl

@[simp] theorem setSelected_disabled (index : Nat) : (control.setSelected index).disabled = control.disabled := by
  unfold setSelected
  split_ifs <;> rfl

@[simp] theorem setSelected_controlDisabled (index : Nat) :
    (control.setSelected index).controlDisabled = control.controlDisabled := by
  unfold setSelected
  split_ifs <;> rfl

@[simp] theorem isDisabled_of_zero {control : SegmentedControl} (h : control.disabled = 0) (index : Nat) :
    control.isDisabled index = false := by
  unfold isDisabled
  simp [h]

/-- In a control without disabled segments, every label can be selected. -/
theorem setSelected_selected {control : SegmentedControl} (h : control.disabled = 0) {index : Nat}
    (hlt : index < control.labels.length) : (control.setSelected index).selected = index := by
  unfold setSelected
  simp [isDisabled_of_zero h, Nat.not_le.mpr hlt]

end Basic

/-! ## What an input does -/

/-- The labels stay, and only an event can say that the selection has moved. -/
structure Moved (before : SegmentedControl) (event : Option Nat) (after : SegmentedControl) : Prop where
  labels : after.labels = before.labels
  disabled : after.disabled = before.disabled
  controlDisabled : after.controlDisabled = before.controlDisabled
  selected : after.selected = event.getD before.selected
  inLabels : ∀ index, event = some index → index < before.labels.length

theorem Moved.stays (control : SegmentedControl) (pressed : Option Nat) :
    Moved control none { control with pressed } := by
  refine ⟨rfl, rfl, rfl, rfl, ?_⟩
  intro index h
  cases h

theorem selectIndex_moved (control : SegmentedControl) (index : Nat) :
    Moved control (control.selectIndex index).1 (control.selectIndex index).2 := by
  unfold selectIndex
  split_ifs with h
  · exact Moved.stays control control.pressed
  · simp only [Bool.or_eq_true, decide_eq_true_eq, not_or, not_le] at h
    refine ⟨rfl, rfl, rfl, rfl, ?_⟩
    intro i hi
    exact Option.some.inj hi ▸ h.1

/-- **What an input does to a control.** -/
theorem onInput_moved (control : SegmentedControl) (input : ControlInput) :
    Moved control (control.onInput input).1 (control.onInput input).2 := by
  have hstep : ∀ next : Option Nat, Moved control (next.elim (none, control) control.selectIndex).1
      (next.elim (none, control) control.selectIndex).2 := by
    intro next
    cases next with
    | none => exact Moved.stays control control.pressed
    | some index => exact selectIndex_moved control index
  unfold onInput
  split_ifs with hdisabled
  · exact Moved.stays control control.pressed
  · cases input with
    | left => exact hstep _
    | right => exact hstep _
    | leftClick pos height =>
        dsimp only
        cases control.hitSegment pos height with
        | none => exact Moved.stays control control.pressed
        | some i =>
            dsimp only
            split_ifs
            · exact Moved.stays control control.pressed
            · exact Moved.stays control (some i)
    | leftRelease pos height =>
        -- the button comes up before the segment is selected
        have hup : Moved control none { control with pressed := none } := Moved.stays control none
        dsimp only
        cases SegmentedControl.hitSegment { control with pressed := none } pos height with
        | none => exact hup
        | some i =>
            dsimp only
            split_ifs
            · have hselect := selectIndex_moved { control with pressed := none } i
              exact ⟨hselect.labels, hselect.disabled, hselect.controlDisabled, hselect.selected, hselect.inLabels⟩
            · exact hup
    | other => exact Moved.stays control control.pressed

/-- An input of a control that is disabled does nothing. -/
theorem onInput_of_disabled {control : SegmentedControl} (h : control.controlDisabled = true) (input : ControlInput) :
    control.onInput input = (none, control) := by
  unfold onInput
  rw [if_pos h]

end SegmentedControl

end Inspect.Tui
