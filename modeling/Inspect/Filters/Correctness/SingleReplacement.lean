import Inspect.Filters.Correctness.LiteralExpansion

/-!
# `Filters.Correctness.SingleReplacement` — the one replacement between two texts

`single_text_replacement` cuts both texts behind their longest common prefix and before the longest common suffix of
the rest. All cuts are at characters, what it returns turns the original into the edited text, and it returns nothing
only for equal texts and for edits that are too long.
-/

namespace Inspect.Filters

/-- The replacement that stands for an edit makes the edit. -/
theorem keepsEdit_replacementOf {original edited : Str} {edit : Edit Char} (h : edit.IsBetween original edited) :
    KeepsEdit original edited (replacementOf edit) := by
  rw [← h.original_eq]
  refine ⟨Text.get_append edit.before edit.old edit.after, edit.before, edit.after, ?_, ?_, h.edited_eq⟩
  · rw [List.append_assoc]
    exact Text.sliceTo_append edit.before (edit.old ++ edit.after)
  · have hfrom := Text.sliceFrom_append (edit.before ++ edit.old) edit.after
    rw [Text.len_append] at hfrom
    exact hfrom

/-- There is no replacement for equal texts, or if a side of the edit is too long. -/
theorem replacementFor_eq_none_iff {original edited : Str} {edit : Edit Char} (h : edit.IsBetween original edited) :
    replacementFor edit = none ↔ original = edited ∨ Oversized edit := by
  unfold replacementFor
  constructor
  · intro hnone
    split_ifs at hnone with hsame hlong
    · refine Or.inl ?_
      rw [← h.original_eq, ← h.edited_eq, hsame.1, hsame.2]
    · exact Or.inr hlong
  · rintro (rfl | hlong)
    · rw [if_pos h.of_same]
    · rw [if_pos hlong, ite_self]

/-- **The replacement between two texts**: no slice is out of range or off a character. It is missing if and only if the
    texts are equal, or what is between their longest common prefix and the longest common suffix of the rest is longer
    than 4096 bytes in one of them. What is returned is read out of the original, and makes it the edited text. -/
theorem singleTextReplacement_splice (original edited : Str) :
    checkedSingleTextReplacement original edited = some (singleTextReplacement original edited)
    ∧ (∃ edit : Edit Char, edit.IsBetween original edited
        ∧ (singleTextReplacement original edited = none
          ↔ original = edited ∨ 4096 < Text.len edit.old ∨ 4096 < Text.len edit.new))
    ∧ ∀ replacement ∈ singleTextReplacement original edited, KeepsEdit original edited replacement := by
  have hcut := cutAt_between original edited
  have hbetween := Edit.isBetween_between original edited
  rw [checkedSingleTextReplacement_of_cutAt hcut, singleTextReplacement_of_cutAt hcut]
  refine ⟨rfl, ⟨_, hbetween, replacementFor_eq_none_iff hbetween⟩, ?_⟩
  intro replacement hreplacement
  unfold replacementFor at hreplacement
  split_ifs at hreplacement
  · cases hreplacement
  · cases hreplacement
  · obtain rfl := Option.some.inj hreplacement
    exact keepsEdit_replacementOf hbetween

end Inspect.Filters
