import Mathlib.Tactic

/-!
# `Lib.Edit` — the one place where two lists differ

Two lists share a longest common prefix, and what is left of them a longest common suffix; between the two lies the
edit that turns one list into the other. `replace_at_iff` says when the same replacement made at an earlier place
has the same result.
-/

namespace Inspect

/-- An edit: `old` between `before` and `after` becomes `new`. -/
structure Edit (α : Type) where
  before : List α
  old : List α
  new : List α
  after : List α
deriving DecidableEq, Repr

namespace Edit

variable {α : Type} [DecidableEq α]

/-- The longest common prefix. -/
def commonPrefix : List α → List α → List α
  | a :: left, b :: right => if a = b then a :: commonPrefix left right else []
  | _, _ => []

/-- The edit that turns `original` into `edited`. -/
def between (original edited : List α) : Edit α :=
  let before := commonPrefix original edited
  let original := original.drop before.length
  let edited := edited.drop before.length
  let after := (commonPrefix original.reverse edited.reverse).reverse
  ⟨before, original.take (original.length - after.length), edited.take (edited.length - after.length), after⟩

/-! ## Common prefixes -/

theorem commonPrefix_isPrefix (left right : List α) :
    commonPrefix left right <+: left ∧ commonPrefix left right <+: right := by
  induction left, right using commonPrefix.induct with
  | case1 left b right ih =>
      rw [commonPrefix, if_pos rfl]
      exact ⟨List.cons_prefix_cons.mpr ⟨rfl, ih.1⟩, List.cons_prefix_cons.mpr ⟨rfl, ih.2⟩⟩
  | case2 a left b right hne =>
      rw [commonPrefix, if_neg hne]
      exact ⟨List.nil_prefix, List.nil_prefix⟩
  | case3 left right hnot =>
      rw [commonPrefix]
      · exact ⟨List.nil_prefix, List.nil_prefix⟩
      · exact hnot

/-- After the longest common prefix the lists differ, unless one of them ends there. -/
theorem commonPrefix_maximal {left right left' right' : List α} {a b : α}
    (hleft : left.drop (commonPrefix left right).length = a :: left')
    (hright : right.drop (commonPrefix left right).length = b :: right') : a ≠ b := by
  induction left, right using commonPrefix.induct with
  | case1 left c right ih =>
      rw [commonPrefix, if_pos rfl, List.length_cons, List.drop_succ_cons] at hleft hright
      exact ih hleft hright
  | case2 c left d right hne =>
      rw [commonPrefix, if_neg hne] at hleft hright
      cases hleft
      cases hright
      exact hne
  | case3 left right hnot =>
      cases left with
      | nil => cases hleft
      | cons c left =>
          cases right with
          | nil => cases hright
          | cons d right => exact (hnot c left d right rfl rfl).elim

/-- Every common prefix is one of the longest. -/
theorem isPrefix_commonPrefix {front left right : List α} (hleft : front <+: left) (hright : front <+: right) :
    front <+: commonPrefix left right := by
  induction front generalizing left right with
  | nil => exact List.nil_prefix
  | cons a front ih =>
      obtain ⟨left', rfl⟩ := hleft
      obtain ⟨right', rfl⟩ := hright
      rw [List.cons_append, List.cons_append, commonPrefix, if_pos rfl]
      exact List.cons_prefix_cons.mpr ⟨rfl, ih (List.prefix_append _ _) (List.prefix_append _ _)⟩

/-! ## The edit between two lists -/

omit [DecidableEq α] in
/-- A suffix, and what comes before it. -/
theorem take_append_suffix {list suffix : List α} (h : suffix <:+ list) :
    list.take (list.length - suffix.length) ++ suffix = list := by
  obtain ⟨front, rfl⟩ := h
  simp

/-- The reversed longest common prefix of the reversed lists is a suffix of both. -/
theorem commonSuffix_isSuffix (left right : List α) :
    (commonPrefix left.reverse right.reverse).reverse <:+ left
      ∧ (commonPrefix left.reverse right.reverse).reverse <:+ right := by
  obtain ⟨hleft, hright⟩ := commonPrefix_isPrefix left.reverse right.reverse
  exact ⟨List.reverse_prefix.mp (by rwa [List.reverse_reverse]),
    List.reverse_prefix.mp (by rwa [List.reverse_reverse])⟩

section Between

variable (original edited : List α)

theorem between_original :
    (between original edited).before ++ (between original edited).old ++ (between original edited).after
      = original := by
  unfold between
  dsimp only
  rw [List.append_assoc, take_append_suffix (commonSuffix_isSuffix _ _).1]
  exact List.prefix_append_drop (commonPrefix_isPrefix original edited).1 |>.symm

theorem between_edited :
    (between original edited).before ++ (between original edited).new ++ (between original edited).after
      = edited := by
  unfold between
  dsimp only
  rw [List.append_assoc, take_append_suffix (commonSuffix_isSuffix _ _).2]
  exact List.prefix_append_drop (commonPrefix_isPrefix original edited).2 |>.symm

/-- What an edit between two lists is: around it is the longest common prefix, and of what is left the longest common
    suffix. -/
structure IsBetween (edit : Edit α) (original edited : List α) : Prop where
  original_eq : edit.before ++ edit.old ++ edit.after = original
  edited_eq : edit.before ++ edit.new ++ edit.after = edited
  before_longest : ∀ front, front <+: original → front <+: edited → front <+: edit.before
  after_longest : ∀ rest, rest <:+ edit.old ++ edit.after → rest <:+ edit.new ++ edit.after → rest <:+ edit.after

theorem isBetween_between : (between original edited).IsBetween original edited where
  original_eq := between_original original edited
  edited_eq := between_edited original edited
  before_longest _ horiginal hedited := isPrefix_commonPrefix horiginal hedited
  after_longest := by
    intro rest hold hnew
    unfold between at hold hnew ⊢
    dsimp only at hold hnew ⊢
    rw [take_append_suffix (commonSuffix_isSuffix _ _).1] at hold
    rw [take_append_suffix (commonSuffix_isSuffix _ _).2] at hnew
    rw [← List.reverse_prefix, List.reverse_reverse]
    exact isPrefix_commonPrefix (List.reverse_prefix.mpr hold) (List.reverse_prefix.mpr hnew)

omit [DecidableEq α] in
/-- Between a list and itself there is nothing. -/
theorem IsBetween.of_same {edit : Edit α} {list : List α} (h : edit.IsBetween list list) :
    edit.old = [] ∧ edit.new = [] := by
  obtain ⟨rest, hrest⟩ := h.before_longest list List.prefix_rfl List.prefix_rfl
  have hlength := congrArg List.length hrest
  have hold := congrArg List.length h.original_eq
  have hnew := congrArg List.length h.edited_eq
  simp only [List.length_append] at hlength hold hnew
  exact ⟨List.eq_nil_of_length_eq_zero (by omega), List.eq_nil_of_length_eq_zero (by omega)⟩

/-- Between two lists that differ, the two sides of the edit differ. -/
theorem between_sides_ne (h : original ≠ edited) :
    (between original edited).old ≠ (between original edited).new := by
  intro heq
  have hedited := between_edited original edited
  rw [← heq, between_original] at hedited
  exact h hedited

/-- The two sides of an edit do not start alike. -/
theorem between_heads {a b : α} {old new : List α} (hold : (between original edited).old = a :: old)
    (hnew : (between original edited).new = b :: new) : a ≠ b := by
  have hhead : ∀ {list list' : List α} {n : Nat} {c : α}, list.take n = c :: list' → ∃ rest, list = c :: rest := by
    intro list list' n c h
    cases list with
    | nil => simp at h
    | cons d list =>
        cases n with
        | zero => simp at h
        | succ n =>
            rw [List.take_succ_cons] at h
            cases h
            exact ⟨list, rfl⟩
  obtain ⟨_, horiginal⟩ := hhead hold
  obtain ⟨_, hedited⟩ := hhead hnew
  exact commonPrefix_maximal horiginal hedited

end Between

/-! ## The same replacement elsewhere -/

omit [DecidableEq α] in
/-- **Replacing too early.** In a list that has `old` both behind `front` and, further on, behind `front ++ gap`,
    the first occurrence is replaced instead of the second. The result is the same only if there is no gap, or
    nothing is put in and taking `old` out commutes with the gap, or nothing is taken out and putting `new` in
    does. -/
theorem replace_at_iff {front gap old new rest after : List α}
    (hlist : front ++ old ++ rest = front ++ gap ++ old ++ after)
    (hheads : ∀ {a b : α} {old' new' : List α}, old = a :: old' → new = b :: new' → a ≠ b) :
    front ++ new ++ rest = front ++ gap ++ new ++ after
      ↔ gap = [] ∨ (new = [] ∧ old ++ gap = gap ++ old) ∨ (old = [] ∧ new ++ gap = gap ++ new) := by
  -- what comes after the first occurrence ends in `after`: only the gap has moved past `old`
  have hrest : ∃ moved, rest = moved ++ after ∧ old ++ moved = gap ++ old := by
    have hcancelled : old ++ rest = (gap ++ old) ++ after := by
      simpa only [List.append_assoc, List.append_cancel_left_eq] using hlist
    rcases List.append_eq_append_iff.mp hcancelled with ⟨moved, hold, hrest⟩ | ⟨extra, hold, hafter⟩
    · exact ⟨moved, hrest, hold.symm⟩
    · have hlength := congrArg List.length hold
      simp only [List.length_append] at hlength
      obtain rfl : gap = [] := List.eq_nil_of_length_eq_zero (by omega)
      obtain rfl : extra = [] := List.eq_nil_of_length_eq_zero (by omega)
      exact ⟨[], hafter.symm, by simp⟩
  obtain ⟨moved, rfl, hmoved⟩ := hrest
  have hcancel : front ++ new ++ (moved ++ after) = front ++ gap ++ new ++ after ↔ new ++ moved = gap ++ new := by
    simp only [List.append_assoc, List.append_cancel_left_eq]
    rw [← List.append_assoc, ← List.append_assoc, List.append_cancel_right_eq]
  rw [hcancel]
  constructor
  · intro hnew
    cases gap with
    | nil => exact Or.inl rfl
    | cons c gap =>
        cases new with
        | nil =>
            obtain rfl : moved = c :: gap := by simpa using hnew
            exact Or.inr (Or.inl ⟨rfl, hmoved⟩)
        | cons b new =>
            cases old with
            | nil =>
                obtain rfl : moved = c :: gap := by simpa using hmoved
                exact Or.inr (Or.inr ⟨rfl, hnew⟩)
            | cons a old =>
                -- both sides would start with the gap's first element
                rw [List.cons_append, List.cons_append, List.cons.injEq] at hmoved hnew
                exact (hheads rfl rfl (hmoved.1.trans hnew.1.symm)).elim
  · rintro (rfl | ⟨rfl, hcommute⟩ | ⟨rfl, hcommute⟩)
    · obtain rfl : moved = [] := by simpa using hmoved
      simp
    · rw [← hcommute, List.append_cancel_left_eq] at hmoved
      simp [hmoved]
    · obtain rfl : moved = gap := by simpa using hmoved
      exact hcommute

end Edit
end Inspect
