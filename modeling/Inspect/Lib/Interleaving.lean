import Mathlib.Tactic

/-!
# `Lib.Interleaving` — what parties do in any order

A trace holds the steps of several parties, each with the party that took it. What one party did is a list of its own,
and nothing else relates the steps of different parties. Some steps have a value; if the values of a party have a key
that is that of no other party, then a lookup by the key of a party in the whole trace finds what the party did.
-/

namespace Inspect.Interleaving

variable {P A B K : Type} [DecidableEq P] {f : A → Option B} {key : B → K} {keys : P → K} {trace : List (P × A)}

/-- The steps of one party, in order. -/
def own (party : P) (trace : List (P × A)) : List A := (trace.filter fun step => step.1 = party).map Prod.snd

@[simp] theorem own_nil (party : P) : own party ([] : List (P × A)) = [] := rfl

theorem own_append (party : P) (front rest : List (P × A)) :
    own party (front ++ rest) = own party front ++ own party rest := by
  unfold own
  rw [List.filter_append, List.map_append]

@[simp] theorem own_cons_self (party : P) (action : A) (trace : List (P × A)) :
    own party ((party, action) :: trace) = action :: own party trace := by
  simp [own]

theorem own_cons_ne {party other : P} (h : other ≠ party) (action : A) (trace : List (P × A)) :
    own party ((other, action) :: trace) = own party trace := by
  simp [own, h]

/-- Steps that are all taken by one party. -/
theorem own_map_mk (party other : P) (actions : List A) :
    own party (actions.map (Prod.mk other)) = if other = party then actions else [] := by
  induction actions with
  | nil => simp
  | cons action actions ih =>
      rw [List.map_cons]
      by_cases h : other = party
      · rw [if_pos h] at ih ⊢
        rw [← h] at ih ⊢
        rw [own_cons_self, ih]
      · rw [own_cons_ne h, ih, if_neg h, if_neg h]

theorem mem_own {party : P} {action : A} : action ∈ own party trace ↔ (party, action) ∈ trace := by
  simp [own]

/-- The only item of a list is its first. -/
theorem head?_of_mem {items : List A} {item : A} (hone : items.length ≤ 1) (hmem : item ∈ items) :
    items.head? = some item := by
  match items with
  | [] => cases hmem
  | [only] => rw [List.mem_singleton.mp hmem, List.head?_cons]
  | _ :: _ :: _ => simp at hone

/-- The values of the steps that have one. -/
def values (f : A → Option B) (trace : List (P × A)) : List B := trace.filterMap fun step => f step.2

omit [DecidableEq P] in
theorem values_append (front rest : List (P × A)) : values f (front ++ rest) = values f front ++ values f rest :=
  List.filterMap_append

/-- Every value is that of a party. -/
theorem mem_values {b : B} : b ∈ values f trace ↔ ∃ party, b ∈ (own party trace).filterMap f := by
  unfold values
  simp only [List.mem_filterMap]
  constructor
  · rintro ⟨⟨party, action⟩, hmem, hvalue⟩
    exact ⟨party, action, mem_own.mpr hmem, hvalue⟩
  · rintro ⟨party, action, hmem, hvalue⟩
    exact ⟨(party, action), mem_own.mp hmem, hvalue⟩

/-- The values of a party have its key, which no other party has. -/
structure Keyed (f : A → Option B) (key : B → K) (keys : P → K) (trace : List (P × A)) : Prop where
  keyed : ∀ party, ∀ b ∈ (own party trace).filterMap f, key b = keys party
  injective : Function.Injective keys

theorem Keyed.tail {step : P × A} (h : Keyed f key keys (step :: trace)) : Keyed f key keys trace where
  keyed := by
    intro party b hmem
    apply h.keyed party b
    obtain ⟨other, action⟩ := step
    by_cases hparty : other = party
    · subst hparty
      rw [own_cons_self, List.filterMap_cons]
      split
      · exact hmem
      · exact List.mem_cons_of_mem _ hmem
    · rwa [own_cons_ne hparty]
  injective := h.injective

/-- **A lookup by the key of a party finds the first value of the party.** -/
theorem Keyed.find?_values [DecidableEq K] (h : Keyed f key keys trace) (party : P) :
    (values f trace).find? (fun b => key b = keys party) = ((own party trace).filterMap f).head? := by
  induction trace with
  | nil => rfl
  | cons step trace ih =>
      have htail := ih h.tail
      obtain ⟨other, action⟩ := step
      unfold values at htail ⊢
      rw [List.filterMap_cons]
      cases hvalue : f action with
      | none =>
          dsimp only
          rw [htail]
          by_cases hparty : other = party
          · subst hparty
            rw [own_cons_self, List.filterMap_cons_none hvalue]
          · rw [own_cons_ne hparty]
      | some b =>
          have hkey : key b = keys other := by
            apply h.keyed other b
            rw [own_cons_self, List.filterMap_cons_some hvalue]
            exact List.mem_cons_self
          dsimp only
          by_cases hparty : other = party
          · subst hparty
            rw [List.find?_cons_of_pos (by simpa using hkey), own_cons_self, List.filterMap_cons_some hvalue,
              List.head?_cons]
          · have hne : keys other ≠ keys party := fun heq => hparty (h.injective heq)
            rw [List.find?_cons_of_neg (by simpa [hkey] using hne), own_cons_ne hparty, htail]

/-- **Where a party has at most one value, no key comes twice.** -/
theorem Keyed.nodup_values (h : Keyed f key keys trace) (hone : ∀ party, ((own party trace).filterMap f).length ≤ 1) :
    ((values f trace).map key).Nodup := by
  induction trace with
  | nil => exact List.nodup_nil
  | cons step trace ih =>
      obtain ⟨other, action⟩ := step
      have hless : ∀ party, ((own party trace).filterMap f).length ≤ 1 := by
        intro party
        refine le_trans ?_ (hone party)
        by_cases hparty : other = party
        · subst hparty
          rw [own_cons_self, List.filterMap_cons]
          split
          · exact le_rfl
          · exact Nat.le_succ _
        · rw [own_cons_ne hparty]
      have htail := ih h.tail hless
      unfold values at htail ⊢
      rw [List.filterMap_cons]
      cases hvalue : f action with
      | none => exact htail
      | some b =>
          dsimp only
          rw [List.map_cons, List.nodup_cons]
          refine ⟨?_, htail⟩
          intro hmem
          obtain ⟨b', hb', heq⟩ := List.mem_map.mp hmem
          obtain ⟨party, hown⟩ := mem_values.mp hb'
          -- the other value is one of the same party, which has only one
          have hkey : key b = keys other := by
            apply h.keyed other b
            rw [own_cons_self, List.filterMap_cons_some hvalue]
            exact List.mem_cons_self
          have hparty : party = other := by
            apply h.injective
            rw [← h.tail.keyed party b' hown, heq, hkey]
          subst hparty
          have hlength := hone party
          rw [own_cons_self, List.filterMap_cons_some hvalue, List.length_cons] at hlength
          have hnone : (own party trace).filterMap f = [] := List.eq_nil_of_length_eq_zero (by omega)
          rw [hnone] at hown
          cases hown

end Inspect.Interleaving
