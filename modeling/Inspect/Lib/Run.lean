import Mathlib.Tactic

/-!
# `Lib.Run` — properties of all states of a run

A run is a fold of steps. If a step keeps a property exactly under a condition on the state before it, then the
property holds in all states of a run exactly if the condition holds at all its steps.
-/

namespace Inspect.Run

variable {S A : Type} {step : S → A → S} {P : S → Prop} {Ok : S → A → Prop}

/-- A property that every step keeps holds throughout a run. -/
theorem throughout {actions : List A} {state : S} (hstart : P state)
    (hstep : ∀ front action rest, actions = front ++ action :: rest → P (front.foldl step state) →
      P (step (front.foldl step state) action)) (front : List A) (hfront : front <+: actions) :
    P (front.foldl step state) := by
  -- every prefix of the run is a run of its own, with the same steps
  induction front using List.reverseRecOn with
  | nil => exact hstart
  | append_singleton front action ih =>
      obtain ⟨rest, rfl⟩ := hfront
      rw [List.foldl_append]
      exact hstep front action rest (by simp) (ih ⟨action :: rest, by simp⟩)

/-- **A property holds throughout a run exactly if every step of the run keeps it.** -/
theorem throughout_iff (hstep : ∀ state action, P state → (P (step state action) ↔ Ok state action)) {state : S}
    (hstart : P state) (actions : List A) :
    (∀ front, front <+: actions → P (front.foldl step state))
      ↔ ∀ front action rest, actions = front ++ action :: rest → Ok (front.foldl step state) action := by
  constructor
  · rintro h front action rest rfl
    have hbefore : P (front.foldl step state) := h front (List.prefix_append front _)
    have hafter : P ((front ++ [action]).foldl step state) := h (front ++ [action]) ⟨rest, by simp⟩
    rw [List.foldl_append] at hafter
    exact (hstep _ action hbefore).mp hafter
  · intro h
    apply throughout hstart
    intro front action rest hsplit hbefore
    exact (hstep _ action hbefore).mpr (h front action rest hsplit)

end Inspect.Run
