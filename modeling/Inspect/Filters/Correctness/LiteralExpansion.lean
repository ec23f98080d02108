import Inspect.Filters.Correctness.BodyEdit

/-!
# `Filters.Correctness.LiteralExpansion` — an edit widened to a string literal

`expand_replacement_to_ancestor_kinds` takes the literal around an edit and replaces in it the first occurrence of the
old text, although it knows where in the literal the edit is. The two are the same place in the text only if nothing is
between them, or if the edit commutes with what is.
-/

namespace Inspect.Filters

/-- The nearest node of one of the kinds, if it covers the place. -/
def nodeAround (changed : NodeCursor) (kinds : List Str) (start stop : Nat) : Option SyntaxNode :=
  climb (fun node _ =>
    if kinds.contains node.kind then
      some (if node.startByte > start ∨ node.endByte < stop then none else some node)
    else none) changed.node changed.ancestors

/-- What is done with what a walk finds can be done at its last step. -/
theorem climb_bind {A B : Type} (step : SyntaxNode → List SyntaxNode → Option (Option A)) (f : A → Option B)
    (node : SyntaxNode) (ancestors : List SyntaxNode) :
    climb (fun node ancestors => (step node ancestors).map fun found => found.bind f) node ancestors
      = (climb step node ancestors).bind f := by
  induction ancestors generalizing node with
  | nil =>
      unfold climb
      cases step node [] with
      | none => rfl
      | some found => rfl
  | cons parent ancestors ih =>
      unfold climb
      cases step node (parent :: ancestors) with
      | none => exact ih parent
      | some found => rfl

/-- A covering node is a step of the walk. -/
theorem covers_of_nodeAround {changed : NodeCursor} {kinds : List Str} {start stop : Nat} {node : SyntaxNode}
    (h : nodeAround changed kinds start stop = some node) : node.startByte ≤ start ∧ stop ≤ node.endByte := by
  obtain ⟨node', _, hstep⟩ := climb_cases _ _ _ h
  split_ifs at hstep with _ hcovers
  · cases hstep
  · cases hstep
    exact ⟨not_lt.mp (not_or.mp hcovers).1, not_lt.mp (not_or.mp hcovers).2⟩

/-- The expansion of a replacement, at the node that is found. -/
theorem expandReplacement_bind (changed : NodeCursor) (original : Str) (replacement : TextReplacement)
    (kinds : List Str) :
    expandReplacementToAncestorKinds changed original replacement kinds
      = (nodeAround changed kinds replacement.start replacement.stop).bind fun node =>
          (Text.get node.startByte node.endByte original).bind fun old =>
            if old = Text.replaceOnce replacement.old replacement.new old then none
            else some ⟨node.startByte, node.endByte, old, Text.replaceOnce replacement.old replacement.new old⟩ := by
  unfold nodeAround expandReplacementToAncestorKinds
  rw [← climb_bind]
  congr 1
  funext node _
  split_ifs
  · rfl
  · rfl
  · rfl

/-! ## Keeping the edit -/

/-- The replacement made in the original is the edit. -/
def KeepsEdit (original edited : Str) (replacement : TextReplacement) : Prop :=
  Text.get replacement.start replacement.stop original = some replacement.old
    ∧ ∃ front rest, Text.sliceTo replacement.start original = some front
        ∧ Text.sliceFrom replacement.stop original = some rest ∧ front ++ replacement.new ++ rest = edited

/-- Between two places, the replacement can be moved from one to the other. -/
def Movable (replacement : TextReplacement) (gap : Str) : Prop :=
  gap = [] ∨ (replacement.new = [] ∧ replacement.old ++ gap = gap ++ replacement.old)
    ∨ (replacement.old = [] ∧ replacement.new ++ gap = gap ++ replacement.new)

/-- The first occurrence of the old text in the node is the place of the replacement, or as good. -/
def FoundInPlace (original : Str) (replacement : TextReplacement) (node : SyntaxNode) : Prop :=
  ∀ literal ∈ Text.get node.startByte node.endByte original,
    ∀ inner ∈ Text.get node.startByte replacement.start original,
      ∀ index ∈ Text.find replacement.old literal, Movable replacement (inner.drop index)

/-- There is nothing to replace in a text to make it itself. -/
theorem singleTextReplacement_self (text : Str) : singleTextReplacement text text = none := by
  rw [singleTextReplacement_of_cutAt (cutAt_between text text), replacementFor,
    if_pos (Edit.isBetween_between text text).of_same]

/-- The expansion at one node: what is replaced is the first occurrence of the old text. -/
theorem keepsEdit_literal_iff {edit : Edit Char} {front inner inner' rest : Str} {index : Nat}
    (hbefore : edit.before = front ++ inner) (hafter : edit.after = inner' ++ rest)
    (hfind : Text.find edit.old (inner ++ edit.old ++ inner') = some index)
    (hheads : ∀ {a b : Char} {old new : Str}, edit.old = a :: old → edit.new = b :: new → a ≠ b) :
    KeepsEdit (edit.before ++ edit.old ++ edit.after) (edit.before ++ edit.new ++ edit.after)
        ⟨Text.len front, Text.len front + Text.len (inner ++ edit.old ++ inner'), inner ++ edit.old ++ inner',
          Text.replaceOnce edit.old edit.new (inner ++ edit.old ++ inner')⟩
      ↔ Movable (replacementOf edit) (inner.drop index) := by
  have htext : edit.before ++ edit.old ++ edit.after = front ++ (inner ++ edit.old ++ inner') ++ rest := by
    rw [hbefore, hafter]
    simp only [List.append_assoc]
  obtain ⟨index', hfind', hle⟩ := Text.find_append inner edit.old inner'
  obtain rfl : index' = index := Option.some.inj (hfind'.symm.trans hfind)
  have hliteral := Text.eq_of_find hfind
  have hinner : (inner ++ edit.old ++ inner').take index' = inner.take index' := by
    rw [List.append_assoc, List.take_append_of_le_length hle]
  rw [hinner] at hliteral
  have hsplit := List.take_append_drop index' inner
  -- a replacement at the first occurrence is one at the place of the edit if the gap between them can be moved
  have hmoved : inner.take index' ++ edit.new ++ (inner ++ edit.old ++ inner').drop (index' + edit.old.length)
        = inner ++ edit.new ++ inner' ↔ Movable (replacementOf edit) (inner.drop index') := by
    have hiff := @Edit.replace_at_iff Char (inner.take index') (inner.drop index') edit.old edit.new
      ((inner ++ edit.old ++ inner').drop (index' + edit.old.length)) inner'
      (by rw [hsplit]; exact hliteral.symm) hheads
    rw [hsplit] at hiff
    exact hiff
  rw [← hmoved, KeepsEdit, htext]
  dsimp only
  rw [Text.get_append, List.append_assoc front, Text.sliceTo_append, ← List.append_assoc front, ← Text.len_append,
    Text.sliceFrom_append, Text.replaceOnce_of_find hfind, hinner]
  have hedited : edit.before ++ edit.new ++ edit.after = front ++ (inner ++ edit.new ++ inner') ++ rest := by
    rw [hbefore, hafter]
    simp only [List.append_assoc]
  constructor
  · rintro ⟨-, _, _, ⟨⟩, ⟨⟩, heq⟩
    rw [hedited, List.append_cancel_right_eq, List.append_cancel_left_eq] at heq
    exact heq
  · intro heq
    exact ⟨rfl, front, rest, rfl, rfl, by rw [heq, hedited]⟩

/-- What is before the place of the edit, in a text that starts at an offset. -/
theorem get_before {edit : Edit Char} {front inner : Str} (hbefore : edit.before = front ++ inner) :
    Text.get (Text.len front) (replacementOf edit).start (edit.before ++ edit.old ++ edit.after) = some inner := by
  have happend := Text.get_append front inner (edit.old ++ edit.after)
  rw [← List.append_assoc, ← hbefore, ← Text.len_append, ← hbefore] at happend
  exact happend

/-- Once the literal and the occurrence are known, it is known whether the occurrence is in place. -/
theorem foundInPlace_iff_movable {original literal inner : Str} {replacement : TextReplacement} {node : SyntaxNode}
    {index : Nat} (hget : Text.get node.startByte node.endByte original = some literal)
    (hinner : Text.get node.startByte replacement.start original = some inner)
    (hfind : Text.find replacement.old literal = some index) :
    FoundInPlace original replacement node ↔ Movable replacement (inner.drop index) := by
  constructor
  · exact fun hfound => hfound _ hget _ hinner _ hfind
  · rintro hmovable literal' hliteral inner' hinner' index' hindex'
    obtain rfl := Option.some.inj (hget.symm.trans hliteral)
    obtain rfl := Option.some.inj (hinner.symm.trans hinner')
    obtain rfl := Option.some.inj (hfind.symm.trans hindex')
    exact hmovable

/-- **When widening a replacement keeps the edit**: the old text does not occur in the literal before the place of the
    edit, or the edit only puts in, or only takes out, what commutes with the text between the two places. -/
theorem expandReplacement_keepsEdit_iff {original edited : Str} {replacement : TextReplacement}
    (h : singleTextReplacement original edited = some replacement) (changed : NodeCursor) (kinds : List Str) :
    (∀ expanded ∈ expandReplacementToAncestorKinds changed original replacement kinds,
        KeepsEdit original edited expanded)
      ↔ ∀ node ∈ nodeAround changed kinds replacement.start replacement.stop,
          FoundInPlace original replacement node := by
  have hne : original ≠ edited := by
    rintro rfl
    rw [singleTextReplacement_self] at h
    cases h
  -- from here on the two texts are given by their common ends and what is between them
  rw [singleTextReplacement_eq hne] at h
  split_ifs at h
  obtain rfl := Option.some.inj h
  have hsides := Edit.between_sides_ne original edited hne
  have hheads := @Edit.between_heads Char _ original edited
  have horiginal := Edit.between_original original edited
  have hedited := Edit.between_edited original edited
  generalize Edit.between original edited = edit at horiginal hedited hsides hheads
  subst horiginal hedited
  rw [expandReplacement_bind]
  cases hnode : nodeAround changed kinds (replacementOf edit).start (replacementOf edit).stop with
  | none => exact iff_of_true (fun _ hmem => by cases hmem) fun _ hmem => by cases hmem
  | some node =>
      obtain ⟨hstart, hstop⟩ := covers_of_nodeAround hnode
      have hone : (∀ node' ∈ some node, FoundInPlace (edit.before ++ edit.old ++ edit.after) (replacementOf edit) node')
          ↔ FoundInPlace (edit.before ++ edit.old ++ edit.after) (replacementOf edit) node := by simp
      rw [hone]
      simp only [Option.bind_some]
      cases hget : Text.get node.startByte node.endByte (edit.before ++ edit.old ++ edit.after) with
      | none =>
          refine iff_of_true (fun _ hmem => by cases hmem) fun literal hliteral => ?_
          rw [hget] at hliteral
          cases hliteral
      | some literal =>
          -- the literal covers the edit: it cuts what is before and behind the edit in two parts each
          obtain ⟨front, inner, inner', rest, rfl, hbefore, hafter, hfront⟩ := split_of_get hget hstart hstop
          obtain ⟨_, _, -, -, hlen⟩ := Text.eq_of_get hget
          obtain ⟨index, hfind, -⟩ := Text.find_append inner edit.old inner'
          have hinner := get_before hbefore
          rw [hfront] at hinner
          have hfound := foundInPlace_iff_movable hget hinner hfind
          have hchanges : inner ++ edit.old ++ inner' ≠ Text.replaceOnce (replacementOf edit).old
              (replacementOf edit).new (inner ++ edit.old ++ inner') :=
            (Text.replaceOnce_ne inner inner' hsides).symm
          rw [hfound, ← keepsEdit_literal_iff hbefore hafter hfind hheads, hfront, hlen, Option.bind_some,
            if_neg hchanges]
          exact ⟨fun h => h _ rfl, fun h expanded hmem => Option.some.inj hmem ▸ h⟩

/-- The last letter of a literal is another one than its first. -/
theorem expandReplacement_keepsEdit_quoted :
    (∀ expanded ∈ expandReplacementToAncestorKinds ⟨.mk "string".toList 0 4 [], []⟩ "'xy'".toList
        ⟨2, 3, ['y'], ['z']⟩ ["string".toList], KeepsEdit "'xy'".toList "'xz'".toList expanded)
      ↔ ∀ node ∈ nodeAround ⟨.mk "string".toList 0 4 [], []⟩ ["string".toList] 2 3,
          FoundInPlace "'xy'".toList ⟨2, 3, ['y'], ['z']⟩ node :=
  expandReplacement_keepsEdit_iff (by decide +kernel) _ _

/-- A letter is put behind the first one of a literal: the expansion puts it before the quote. -/
theorem insertion_moves_before_quote :
    singleTextReplacement "'x'".toList "'xy'".toList = some ⟨2, 2, [], ['y']⟩
      ∧ ¬ ∀ expanded ∈ expandReplacementToAncestorKinds ⟨.mk "string".toList 0 3 [], []⟩ "'x'".toList
          ⟨2, 2, [], ['y']⟩ ["string".toList], KeepsEdit "'x'".toList "'xy'".toList expanded := by
  refine ⟨by decide +kernel, fun h => ?_⟩
  obtain ⟨-, front, rest, hfront, hrest, hedited⟩ := h ⟨0, 3, "'x'".toList, "y'x'".toList⟩ (by decide +kernel)
  obtain rfl : front = [] := by
    have hnothing : Text.sliceTo 0 "'x'".toList = some [] := rfl
    exact Option.some.inj (hfront.symm.trans hnothing)
  obtain rfl : rest = [] := by
    have hnothing : Text.sliceFrom 3 "'x'".toList = some [] := by decide +kernel
    exact Option.some.inj (hrest.symm.trans hnothing)
  revert hedited
  decide +kernel

end Inspect.Filters
