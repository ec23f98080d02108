import Mathlib.Tactic

/-!
# `Lib.Chain` — a fold that can stop

Actors are run one after another over a state. Each has an outcome or none; outcomes are merged, and the first one
that stops the chain is the last one that counts. What is left is a fold over a prefix of the outcomes.
-/

namespace Inspect.Chain

variable {F A S : Type}

/-- Run the actors in order until a merged outcome does not continue. -/
@[grind =]
def runUntil (merge : A → A → A) (continues : A → Bool) (run : F → S → Option A × S) : List F → A → S → A × S
  | [], combined, state => (combined, state)
  | actor :: actors, combined, state =>
      match run actor state with
      | (none, state) => runUntil merge continues run actors combined state
      | (some outcome, state) =>
          if continues (merge combined outcome) then
            runUntil merge continues run actors (merge combined outcome) state
          else (merge combined outcome, state)

/-- The outcomes of all actors, run in order without stopping. -/
@[grind =]
def outcomes (run : F → S → Option A × S) : List F → S → List A
  | [], _ => []
  | actor :: actors, state => (run actor state).1.toList ++ outcomes run actors (run actor state).2

/-- The items up to the first that stops, which is included. -/
@[grind =]
def upTo (stops : A → Bool) : List A → List A
  | [] => []
  | item :: items => if stops item then [item] else item :: upTo stops items

/-- **The chain is a fold over the outcomes up to the first that stops it**, if whether it goes on is decided by the
    last outcome alone. -/
theorem runUntil_eq {merge : A → A → A} {continues stops : A → Bool} {run : F → S → Option A × S}
    (hstops : ∀ combined outcome, continues (merge combined outcome) = !stops outcome) (actors : List F)
    (combined : A) (state : S) :
    (runUntil merge continues run actors combined state).1
      = (upTo stops (outcomes run actors state)).foldl merge combined := by
  induction actors generalizing combined state with
  | nil => rfl
  | cons actor actors ih =>
      unfold runUntil outcomes
      cases hrun : run actor state with
      | mk outcome state' =>
          cases outcome with
          | none => exact ih combined state'
          | some outcome =>
              dsimp only
              rw [hstops, Option.toList_some, List.singleton_append, upTo]
              cases stops outcome with
              | true => rfl
              | false => exact ih (merge combined outcome) state'

/-- What an actor after the first that stops does is not looked at. -/
theorem upTo_append {stops : A → Bool} {items : List A} (h : items.any stops = true) (rest : List A) :
    upTo stops (items ++ rest) = upTo stops items := by
  induction items with
  | nil => cases h
  | cons item items ih =>
      rw [List.cons_append, upTo, upTo]
      cases hitem : stops item with
      | true => rfl
      | false =>
          rw [List.any_cons, hitem, Bool.false_or] at h
          rw [ih h]

theorem mem_of_mem_upTo {stops : A → Bool} {items : List A} {item : A}
    (h : item ∈ upTo stops items) : item ∈ items := by
  induction items with
  | nil => cases h
  | cons head items ih =>
      unfold upTo at h
      split_ifs at h
      · exact List.mem_cons.mpr (Or.inl (List.mem_singleton.mp h))
      · rcases List.mem_cons.mp h with rfl | htail
        · exact List.mem_cons_self
        · exact List.mem_cons_of_mem _ (ih htail)

/-- Whether a chain went on to its end. -/
theorem continues_foldl_upTo {merge : A → A → A} {continues stops : A → Bool}
    (hstops : ∀ combined outcome, continues (merge combined outcome) = !stops outcome) (items : List A) (init : A)
    (hinit : continues init = true) :
    continues ((upTo stops items).foldl merge init) = !(upTo stops items).any stops := by
  induction items generalizing init with
  | nil => exact hinit
  | cons item items ih =>
      rw [upTo]
      cases hitem : stops item with
      | true => simp [hstops, hitem]
      | false =>
          have hnext : continues (merge init item) = true := by rw [hstops, hitem, Bool.not_false]
          rw [if_neg Bool.false_ne_true, List.foldl_cons, ih _ hnext, List.any_cons, hitem, Bool.false_or]

/-- The outcomes of a chain of actors, one part after the other. -/
theorem outcomes_append (run : F → S → Option A × S) (front rest : List F) (state : S) :
    ∃ later, outcomes run (front ++ rest) state = outcomes run front state ++ later := by
  induction front generalizing state with
  | nil => exact ⟨_, rfl⟩
  | cons actor front ih =>
      obtain ⟨later, hlater⟩ := ih (run actor state).2
      exact ⟨later, by rw [List.cons_append, outcomes, outcomes, hlater, List.append_assoc]⟩

/-- Actors that do not use the state. -/
theorem outcomes_stateless (answer : F → Option A) (actors : List F) (state : S) :
    outcomes (fun actor state => (answer actor, state)) actors state = actors.filterMap answer := by
  induction actors with
  | nil => rfl
  | cons actor actors ih =>
      rw [outcomes, ih, List.filterMap_cons]
      cases answer actor with
      | none => rfl
      | some outcome => rfl

/-! ## The actors that are run -/

section Visits

variable (merge : A → A → A) (continues : A → Bool) (run : F → S → Option A × S)

/-- The actors that `runUntil` runs, each with the state it finds. -/
@[grind =]
def visits : List F → A → S → List (F × S)
  | [], _, _ => []
  | actor :: actors, combined, state =>
      (actor, state) ::
        match run actor state with
        | (none, state) => visits actors combined state
        | (some outcome, state) =>
            if continues (merge combined outcome) then visits actors (merge combined outcome) state else []

/-- **A log** to which every actor adds one entry has one entry for each visit afterwards. -/
theorem runUntil_log {E : Type} (log : S → List E) (entry : F → S → E)
    (h : ∀ actor state, log (run actor state).2 = log state ++ [entry actor state]) (actors : List F) (combined : A)
    (state : S) :
    log (runUntil merge continues run actors combined state).2
      = log state ++ (visits merge continues run actors combined state).map fun visit => entry visit.1 visit.2 := by
  induction actors generalizing combined state with
  | nil => exact (List.append_nil _).symm
  | cons actor actors ih =>
      have hentry := h actor state
      unfold runUntil visits
      rw [List.map_cons, List.append_cons, ← hentry]
      cases hrun : run actor state with
      | mk outcome state' =>
          cases outcome with
          | none => exact ih combined state'
          | some outcome =>
              dsimp only
              by_cases hcontinues : continues (merge combined outcome) = true
              · rw [if_pos hcontinues, if_pos hcontinues]
                exact ih (merge combined outcome) state'
              · rw [if_neg hcontinues, if_neg hcontinues]
                exact (List.append_nil _).symm

end Visits

/-! ## Chains over other states -/

section States

variable {S' : Type} {merge : A → A → A} {continues : A → Bool} {run : F → S → Option A × S}

/-- **A chain whose actors do the same on a part of the state does the same on it.** -/
theorem runUntil_project {run' : F → S' → Option A × S'} (part : S' → S)
    (h : ∀ actor state, (run' actor state).1 = (run actor (part state)).1
      ∧ part (run' actor state).2 = (run actor (part state)).2) (actors : List F) (combined : A) (state : S') :
    (runUntil merge continues run' actors combined state).1
      = (runUntil merge continues run actors combined (part state)).1
    ∧ part (runUntil merge continues run' actors combined state).2
      = (runUntil merge continues run actors combined (part state)).2 := by
  induction actors generalizing combined state with
  | nil => exact ⟨rfl, rfl⟩
  | cons actor actors ih =>
      obtain ⟨houtcome, hpart⟩ := h actor state
      unfold runUntil
      cases hrun' : run' actor state with
      | mk outcome' state' =>
          cases hrun : run actor (part state) with
          | mk outcome after =>
              rw [hrun', hrun] at houtcome hpart
              obtain rfl : outcome' = outcome := houtcome
              obtain rfl : part state' = after := hpart
              cases outcome' with
              | none => exact ih combined state'
              | some outcome =>
                  dsimp only
                  by_cases hcontinues : continues (merge combined outcome) = true
                  · rw [if_pos hcontinues, if_pos hcontinues]
                    exact ih (merge combined outcome) state'
                  · rw [if_neg hcontinues, if_neg hcontinues]
                    exact ⟨rfl, rfl⟩

/-- What every actor keeps is kept by the chain. -/
theorem runUntil_keeps {P : S → Prop} (h : ∀ actor state, P state → P (run actor state).2) (actors : List F)
    (combined : A) {state : S} (hstate : P state) : P (runUntil merge continues run actors combined state).2 := by
  induction actors generalizing combined state with
  | nil => exact hstate
  | cons actor actors ih =>
      have hnext := h actor state hstate
      unfold runUntil
      cases hrun : run actor state with
      | mk outcome state' =>
          rw [hrun] at hnext
          cases outcome with
          | none => exact ih combined hnext
          | some outcome =>
              dsimp only
              by_cases hcontinues : continues (merge combined outcome) = true
              · rw [if_pos hcontinues]
                exact ih (merge combined outcome) hnext
              · rw [if_neg hcontinues]
                exact hnext

end States

/-! ## Folds of single fields -/

section Fields

variable {merge : A → A → A} {B : Type}

/-- A field that is appended is the concatenation. -/
theorem foldl_append {field : A → List B} (h : ∀ a b, field (merge a b) = field a ++ field b) (items : List A)
    (init : A) : field (items.foldl merge init) = field init ++ items.flatMap field := by
  induction items generalizing init with
  | nil => simp
  | cons item items ih => rw [List.foldl_cons, ih, h, List.flatMap_cons, List.append_assoc]

/-- A flag that is only ever set is the disjunction. -/
theorem foldl_or {field : A → Bool} (h : ∀ a b, field (merge a b) = (field a || field b)) (items : List A)
    (init : A) : field (items.foldl merge init) = (field init || items.any field) := by
  induction items generalizing init with
  | nil => simp
  | cons item items ih => rw [List.foldl_cons, ih, h, List.any_cons, Bool.or_assoc]

/-- A field that is overwritten where there is a value is the last value. -/
theorem foldl_last {field : A → Option B} (h : ∀ a b, field (merge a b) = (field b).or (field a)) (items : List A)
    (init : A) : field (items.foldl merge init) = (items.filterMap field).getLast?.or (field init) := by
  induction items generalizing init with
  | nil => rfl
  | cons item items ih =>
      rw [List.foldl_cons, ih, h, List.filterMap_cons, ← Option.or_assoc]
      cases field item with
      | none => rw [Option.or_none]
      | some value => rw [List.getLast?_cons, ← Option.or_some]

end Fields

end Inspect.Chain
