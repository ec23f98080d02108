import Mathlib.Tactic

/-!
# `Lib.Windows` — counting where a list stands in another

The windows of a list are its parts of one length, one for each place where such a part starts. Between two items that
the needle does not have in it, it can only be found on either side.
-/

namespace Inspect.Windows

variable {α : Type} [DecidableEq α]

/-- `slice::windows`, for a size that is not zero. -/
def windows (size : Nat) : List α → List (List α)
  | [] => []
  | item :: items => if size ≤ items.length + 1 then (item :: items).take size :: windows size items else []

/-- How many windows are equal to `needle`. -/
def occurrences (needle items : List α) : Nat := ((windows needle.length items).filter fun window => window = needle).length

theorem occurrences_nil (needle : List α) : occurrences needle [] = 0 := rfl

theorem occurrences_of_short {needle items : List α} (h : items.length < needle.length) : occurrences needle items = 0 := by
  unfold occurrences
  cases items with
  | nil => rfl
  | cons item items =>
      rw [List.length_cons] at h
      rw [windows, if_neg (Nat.not_le.mpr h)]
      rfl

/-- The needle is found at the start, or in what follows. -/
theorem occurrences_cons {needle : List α} (item : α) (items : List α) :
    occurrences needle (item :: items) = (if needle <+: item :: items then 1 else 0) + occurrences needle items := by
  by_cases hlong : needle.length ≤ items.length + 1
  · have hwindow : (item :: items).take needle.length = needle ↔ needle <+: item :: items := by
      rw [List.prefix_iff_eq_take]
      exact eq_comm
    unfold occurrences
    rw [windows, if_pos hlong, List.filter_cons]
    by_cases hstarts : needle <+: item :: items
    · rw [if_pos hstarts, if_pos (decide_eq_true (hwindow.mpr hstarts)), List.length_cons, Nat.add_comm]
    · rw [if_neg hstarts, if_neg (by rw [decide_eq_true_eq, hwindow]; exact hstarts), Nat.zero_add]
  · have hshort : (item :: items).length < needle.length := Nat.not_le.mp hlong
    rw [occurrences_of_short hshort, occurrences_of_short (Nat.lt_of_succ_lt hshort), if_neg]
    exact fun hstarts => absurd hstarts.length_le (Nat.not_le.mpr hshort)

theorem occurrences_eq_zero_iff {needle items : List α} (hne : needle ≠ []) :
    occurrences needle items = 0 ↔ ¬needle <:+: items := by
  induction items with
  | nil =>
      rw [List.infix_nil]
      exact ⟨fun _ => hne, fun _ => rfl⟩
  | cons item items ih =>
      rw [occurrences_cons, List.infix_cons_iff, not_or, ← ih, Nat.add_eq_zero_iff]
      refine and_congr_left' ?_
      split_ifs with hstarts
      · exact ⟨False.elim, fun hnot => absurd hstarts hnot⟩
      · exact ⟨fun _ => hstarts, fun _ => rfl⟩

omit [DecidableEq α] in
/-- Behind an item that the needle does not have it makes no difference what follows. -/
theorem prefix_append_sep_iff {needle : List α} {sep : α} (hsep : sep ∉ needle) (front rest : List α) :
    needle <+: front ++ sep :: rest ↔ needle <+: front := by
  refine ⟨fun hstarts => ?_, fun hstarts => hstarts.trans (List.prefix_append _ _)⟩
  rcases Nat.lt_or_ge front.length needle.length with hlong | hshort
  · obtain ⟨more, rfl⟩ := List.prefix_of_prefix_length_le (List.prefix_append front (sep :: rest)) hstarts
      (Nat.le_of_lt hlong)
    have hmore := (List.prefix_append_right_inj front).mp hstarts
    cases more with
    | nil => simp at hlong
    | cons item more =>
        obtain ⟨rfl, -⟩ := List.cons_prefix_cons.mp hmore
        exact absurd (List.mem_append_right _ List.mem_cons_self) hsep
  · exact List.prefix_of_prefix_length_le hstarts (List.prefix_append front (sep :: rest)) hshort

/-- **A needle is never found across an item that it does not have.** -/
theorem occurrences_append_sep {needle : List α} {sep : α} (hne : needle ≠ []) (hsep : sep ∉ needle)
    (front rest : List α) :
    occurrences needle (front ++ sep :: rest) = occurrences needle front + occurrences needle rest := by
  induction front with
  | nil =>
      have hnot : ¬needle <+: sep :: rest := by
        intro hstarts
        exact hne (List.prefix_nil.mp ((prefix_append_sep_iff hsep [] rest).mp hstarts))
      rw [List.nil_append, occurrences_cons, if_neg hnot, occurrences_nil]
  | cons item front ih =>
      have hstarts := prefix_append_sep_iff hsep (item :: front) rest
      rw [List.cons_append] at hstarts
      rw [List.cons_append, occurrences_cons, occurrences_cons, ih, if_congr hstarts rfl rfl, Nat.add_assoc]

end Inspect.Windows
