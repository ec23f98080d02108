import Inspect.Filters.Engine.BodyTreeSitter
import Inspect.Lib.Edit

/-!
# `Filters.Correctness.BodyEdit` — the place of an edit

What `single_text_replacement` finds is the edit between the two texts, at its byte offsets. Around that place the
syntax tree offers names to anchor a rewrite to, and, for a JavaScript property, the string literal to replace as a
whole: `placeOf` collects both.
-/

namespace Inspect.Filters

/-! ## The one replacement -/

theorem commonPrefixLen_eq (left right : Str) :
    commonPrefixLen left right = Text.len (Edit.commonPrefix left right) := by
  unfold commonPrefixLen
  congr 1
  induction left, right using Edit.commonPrefix.induct with
  | case1 left c right ih =>
      rw [Edit.commonPrefix, if_pos rfl, List.zip_cons_cons, List.takeWhile_cons_of_pos (by simp), List.map_cons, ih]
  | case2 a left b right hne =>
      rw [Edit.commonPrefix, if_neg hne, List.zip_cons_cons, List.takeWhile_cons_of_neg (by simpa using hne)]
      rfl
  | case3 left right hnot =>
      cases left with
      | nil => rw [Edit.commonPrefix] <;> simp
      | cons c left =>
          cases right with
          | nil => rw [Edit.commonPrefix] <;> simp
          | cons d right => exact (hnot c left d right rfl rfl).elim

/-- The replacement that stands for an edit. -/
def replacementOf (edit : Edit Char) : TextReplacement :=
  ⟨Text.len edit.before, Text.len edit.before + Text.len edit.old, edit.old, edit.new⟩

/-- A fragment of more than 4096 bytes is not replaced. -/
def Oversized (edit : Edit Char) : Prop := 4096 < Text.len edit.old ∨ 4096 < Text.len edit.new

instance (edit : Edit Char) : Decidable (Oversized edit) := inferInstanceAs (Decidable (_ ∨ _))

/-- Where the edit is, in bytes: both texts can be cut there, and the pieces are the sides of the edit. -/
structure CutAt (original edited : Str) (edit : Edit Char) : Prop where
  start : commonPrefixLen original edited = Text.len edit.before
  originalRest : Text.sliceFrom (Text.len edit.before) original = some (edit.old ++ edit.after)
  editedRest : Text.sliceFrom (Text.len edit.before) edited = some (edit.new ++ edit.after)
  suffixLen : commonSuffixLen (edit.old ++ edit.after) (edit.new ++ edit.after) = Text.len edit.after
  originalLen : Text.len original = Text.len edit.before + Text.len edit.old + Text.len edit.after
  editedLen : Text.len edited = Text.len edit.before + Text.len edit.new + Text.len edit.after
  old : Text.get (Text.len edit.before) (Text.len edit.before + Text.len edit.old) original = some edit.old
  new : Text.get (Text.len edit.before) (Text.len edit.before + Text.len edit.new) edited = some edit.new

theorem cutAt_between (original edited : Str) : CutAt original edited (Edit.between original edited) := by
  have horiginal := Edit.between_original original edited
  have hedited := Edit.between_edited original edited
  have hstart : commonPrefixLen original edited = Text.len (Edit.between original edited).before :=
    commonPrefixLen_eq original edited
  have hsuffix : commonSuffixLen (original.drop (Edit.between original edited).before.length)
      (edited.drop (Edit.between original edited).before.length) = Text.len (Edit.between original edited).after := by
    unfold commonSuffixLen
    rw [commonPrefixLen_eq]
    unfold Edit.between
    dsimp only
    rw [Text.len, Text.len, List.map_reverse, List.sum_reverse]
  revert horiginal hedited hstart hsuffix
  generalize Edit.between original edited = edit
  obtain ⟨before, old, new, after⟩ := edit
  dsimp only
  intro horiginal hedited hstart hsuffix
  subst horiginal hedited
  simp only [List.append_assoc, List.drop_left] at hsuffix
  refine ⟨hstart, ?_, ?_, hsuffix, ?_, ?_, Text.get_append before old after, Text.get_append before new after⟩
  · rw [List.append_assoc, Text.sliceFrom_append]
  · rw [List.append_assoc, Text.sliceFrom_append]
  · rw [Text.len_append, Text.len_append]
  · rw [Text.len_append, Text.len_append]

/-- What is returned for the edit. -/
def replacementFor (edit : Edit Char) : Option TextReplacement :=
  if edit.old = [] ∧ edit.new = [] then none else if Oversized edit then none else some (replacementOf edit)

/-- The common suffix is in both texts, and does not overlap the common prefix. -/
theorem CutAt.ends {original edited : Str} {edit : Edit Char} (h : CutAt original edited edit) :
    ¬ (Text.len edit.after > Text.len original ∨ Text.len edit.after > Text.len edited)
      ∧ Text.len original - Text.len edit.after = Text.len edit.before + Text.len edit.old
      ∧ Text.len edited - Text.len edit.after = Text.len edit.before + Text.len edit.new
      ∧ ¬ (Text.len edit.before > Text.len edit.before + Text.len edit.old
        ∨ Text.len edit.before > Text.len edit.before + Text.len edit.new) := by
  rw [h.originalLen, h.editedLen]
  omega

theorem singleTextReplacement_of_cutAt {original edited : Str} {edit : Edit Char} (h : CutAt original edited edit) :
    singleTextReplacement original edited = replacementFor edit := by
  obtain ⟨hsuffix, horiginalEnd, heditedEnd, hinside⟩ := h.ends
  unfold singleTextReplacement
  simp only [h.start, h.originalRest, h.editedRest, h.suffixLen, Option.getD_some, if_neg hsuffix,
    horiginalEnd, heditedEnd, if_neg hinside, h.old, h.new]
  rfl

/-- No slice panics. -/
theorem checkedSingleTextReplacement_of_cutAt {original edited : Str} {edit : Edit Char}
    (h : CutAt original edited edit) :
    checkedSingleTextReplacement original edited = some (replacementFor edit) := by
  obtain ⟨hsuffix, horiginalEnd, heditedEnd, hinside⟩ := h.ends
  unfold checkedSingleTextReplacement
  simp only [h.start, h.originalRest, h.editedRest, h.suffixLen, Option.bind_eq_bind, Option.bind_some, if_neg hsuffix,
    horiginalEnd, heditedEnd, if_neg hinside, h.old, h.new]
  unfold replacementFor
  by_cases hsame : edit.old = [] ∧ edit.new = []
  · rw [if_pos hsame, if_pos hsame]
    rfl
  rw [if_neg hsame, if_neg hsame]
  by_cases hlong : Oversized edit
  · rw [if_pos hlong]
    exact if_pos hlong
  · rw [if_neg hlong]
    exact if_neg hlong

/-- **`single_text_replacement` finds the edit**, unless it is too long. -/
theorem singleTextReplacement_eq {original edited : Str} (hne : original ≠ edited) :
    singleTextReplacement original edited
      = if Oversized (Edit.between original edited) then none
        else some (replacementOf (Edit.between original edited)) := by
  rw [singleTextReplacement_of_cutAt (cutAt_between original edited), replacementFor, if_neg]
  rintro ⟨hold, hnew⟩
  exact Edit.between_sides_ne original edited hne (hold.trans hnew.symm)

/-! ## Literals around an edit -/

/-- The text of the nearest node of one of the `kinds` around a place, if the node covers the place and the text of
    the node can be cut out. -/
def literalAround (changed : NodeCursor) (original : Str) (start stop : Nat) (kinds : List Str) : Option Str :=
  climb (fun node _ =>
    if kinds.contains node.kind then
      some (if node.startByte > start ∨ node.endByte < stop then none
        else Text.get node.startByte node.endByte original)
    else none) changed.node changed.ancestors

/-- A walk to the root that returns nothing, or what its last step returned. -/
theorem climb_cases {A : Type} (step : SyntaxNode → List SyntaxNode → Option (Option A)) (node : SyntaxNode)
    (ancestors : List SyntaxNode) {result : A} (h : climb step node ancestors = some result) :
    ∃ node ancestors, step node ancestors = some (some result) := by
  induction ancestors generalizing node with
  | nil =>
      unfold climb at h
      split at h
      · rename_i found hstep
        exact ⟨node, [], by rw [hstep, h]⟩
      · cases h
  | cons parent ancestors ih =>
      unfold climb at h
      split at h
      · rename_i found hstep
        exact ⟨node, parent :: ancestors, by rw [hstep, h]⟩
      · exact ih parent h

/-- Two walks whose steps return the same up to `f` and `f'` return the same up to `f` and `f'`. -/
theorem climb_map {A B C : Type} {step : SyntaxNode → List SyntaxNode → Option (Option A)}
    {step' : SyntaxNode → List SyntaxNode → Option (Option B)} {f : A → C} {f' : B → C}
    (h : ∀ node ancestors, (step node ancestors).map (Option.map f) = (step' node ancestors).map (Option.map f'))
    (node : SyntaxNode) (ancestors : List SyntaxNode) :
    (climb step node ancestors).map f = (climb step' node ancestors).map f' := by
  induction ancestors generalizing node with
  | nil =>
      have hstep := h node []
      unfold climb
      cases hs : step node [] <;> cases hs' : step' node [] <;> rw [hs, hs'] at hstep
      · rfl
      · cases hstep
      · cases hstep
      · exact Option.some.inj hstep
  | cons parent ancestors ih =>
      have hstep := h node (parent :: ancestors)
      unfold climb
      cases hs : step node (parent :: ancestors) <;> cases hs' : step' node (parent :: ancestors) <;>
        rw [hs, hs'] at hstep
      · exact ih parent
      · cases hstep
      · cases hstep
      · exact Option.some.inj hstep

/-- The edit lies in the literal, and the literal in the text. -/
def Surrounds (edit : Edit Char) (literal : Str) : Prop :=
  ∃ front inner inner' rest, literal = inner ++ edit.old ++ inner' ∧ edit.before = front ++ inner
    ∧ edit.after = inner' ++ rest

/-- A piece of the text that covers the place of the edit: what it has before and behind the place. -/
theorem split_of_get {edit : Edit Char} {start stop : Nat} {literal : Str}
    (h : Text.get start stop (edit.before ++ edit.old ++ edit.after) = some literal)
    (hstart : start ≤ Text.len edit.before) (hstop : Text.len edit.before + Text.len edit.old ≤ stop) :
    ∃ front inner inner' rest, literal = inner ++ edit.old ++ inner' ∧ edit.before = front ++ inner
      ∧ edit.after = inner' ++ rest ∧ Text.len front = start := by
  obtain ⟨front, rest, htext, hfront, hliteral⟩ := Text.eq_of_get h
  rw [List.append_assoc, List.append_assoc] at htext
  obtain ⟨inner, hbefore, hinner⟩ := Text.isPrefix_of_len_le htext.symm (by omega)
  rw [← List.append_assoc] at hinner
  obtain ⟨inner', hsplit, hafter⟩ := Text.isPrefix_of_len_le hinner.symm (by
    rw [hbefore, Text.len_append] at hstop
    rw [Text.len_append]
    omega)
  exact ⟨front, inner, inner', rest, hsplit, hbefore, hafter, hfront⟩

/-- A piece of the text that covers the place of the edit surrounds it. -/
theorem surrounds_of_get {edit : Edit Char} {start stop : Nat} {literal : Str}
    (h : Text.get start stop (edit.before ++ edit.old ++ edit.after) = some literal)
    (hstart : start ≤ Text.len edit.before) (hstop : Text.len edit.before + Text.len edit.old ≤ stop) :
    Surrounds edit literal := by
  obtain ⟨front, inner, inner', rest, hsplit, hbefore, hafter, -⟩ := split_of_get h hstart hstop
  exact ⟨front, inner, inner', rest, hsplit, hbefore, hafter⟩

/-- The literal around an edit surrounds it. -/
theorem surrounds_literalAround {edit : Edit Char} {original : Str}
    (htext : edit.before ++ edit.old ++ edit.after = original) {changed : NodeCursor} {kinds : List Str}
    {literal : Str}
    (h : literalAround changed original (replacementOf edit).start (replacementOf edit).stop kinds
      = some literal) : Surrounds edit literal := by
  subst htext
  obtain ⟨node, _, hstep⟩ := climb_cases _ _ _ h
  split_ifs at hstep with _ hcovers
  · cases hstep
  · obtain ⟨hstart, hstop⟩ := not_or.mp hcovers
    exact surrounds_of_get (Option.some.inj hstep) (not_lt.mp hstart) (not_lt.mp hstop)

/-- The replacement is widened to the literal around it: the widened text always changes. -/
theorem expandReplacement_eq {edit : Edit Char} (hne : edit.old ≠ edit.new) (changed : NodeCursor)
    (kinds : List Str) :
    (expandReplacementToAncestorKinds changed (edit.before ++ edit.old ++ edit.after) (replacementOf edit)
        kinds).map (fun replacement => (replacement.old, replacement.new))
      = (literalAround changed (edit.before ++ edit.old ++ edit.after) (replacementOf edit).start
          (replacementOf edit).stop kinds).map
          fun literal => (literal, Text.replaceOnce edit.old edit.new literal) := by
  unfold expandReplacementToAncestorKinds literalAround
  apply climb_map
  intro node _
  split_ifs with hkind hcovers
  · rfl
  · obtain ⟨hstart, hstop⟩ := not_or.mp hcovers
    rw [Option.map_some, Option.map_some]
    congr 1
    cases hget : Text.get node.startByte node.endByte (edit.before ++ edit.old ++ edit.after) with
    | none => rfl
    | some literal =>
        obtain ⟨_, inner, inner', _, rfl, -, -⟩ := surrounds_of_get hget (not_lt.mp hstart) (not_lt.mp hstop)
        have hchanges := Text.replaceOnce_ne inner inner' hne
        rw [Option.bind_some]
        dsimp only [replacementOf]
        rw [if_neg hchanges.symm]
        rfl
  · rfl

/-! ## Places -/

/-- What a rewrite is anchored to: names that must be in the text, and the fragment to look for. -/
structure Place where
  names : List Str
  fragment : Str
deriving DecidableEq, Repr

/-- The place of an edit in a text whose tree has the node `changed` around it. -/
def placeAt (language : BodyLanguage) (changed : NodeCursor) (original : Str) (edit : Edit Char) : Place :=
  match language with
  | .javaScript =>
      match javascriptPropertyAnchor changed original with
      | some property =>
          ⟨[property], (literalAround changed original (replacementOf edit).start (replacementOf edit).stop
            ["string".toList]).getD edit.old⟩
      | none => ⟨[], edit.old⟩
  | .css => ⟨(cssDeclarationPropertyAnchor changed original).toList, edit.old⟩
  | .html =>
      match htmlAttributeAnchor changed original with
      | some (element, attr) => ⟨[element.getD "*".toList, attr], edit.old⟩
      | none => ⟨[], edit.old⟩
  | .json | .xml | .plainText => ⟨[], edit.old⟩

/-- The place of an edit: without a tree, or without a node around it, the old text alone. -/
def placeOf (treeSitter : BodyLanguage → Str → Option SyntaxNode) (language : BodyLanguage) (original : Str)
    (edit : Edit Char) : Place :=
  match (parseTree treeSitter language original).bind
      (smallestNodeCoveringRange (replacementOf edit).start (replacementOf edit).stop []) with
  | some changed => placeAt language changed original edit
  | none => ⟨[], edit.old⟩

/-- The names, the old and the new text of an operation that replaces one occurrence. -/
def operationPlace : BodyRewriteOperation → Option (List Str × Str × Str)
  | .replaceTextOnce old new => some ([], old, new)
  | .replaceJsProperty property old new => some ([property], old, new)
  | .replaceCssDeclaration property old new => some ([property], old, new)
  | .replaceHtmlAttribute selector attr old new => some ([selector, attr], old, new)
  | _ => none

section Intents

variable {treeSitter : BodyLanguage → Str → Option SyntaxNode} {original edited : Str}
  {contentType : Option Str}

/-- An intent that replaces `fragment`, anchored to `names`. -/
def Intends (intent : BodyRewriteIntent) (place : Place) (edit : Edit Char) : Prop :=
  operationPlace intent.operation
    = some (place.names, place.fragment, Text.replaceOnce edit.old edit.new place.fragment)

/-- The three tree walkers find the place of the edit. -/
theorem extractNamedAnchor_intends {language : BodyLanguage} {edit : Edit Char}
    {named : NodeCursor → Option (BodyAnchor × BodyRewriteOperation)} {changed : NodeCursor}
    (hchanged : (parseTree treeSitter language original).bind
      (smallestNodeCoveringRange (replacementOf edit).start (replacementOf edit).stop []) = some changed)
    {place : Place}
    (hnamed : ∀ anchor operation, named changed = some (anchor, operation) → operationPlace operation
      = some (place.names, place.fragment, Text.replaceOnce edit.old edit.new place.fragment))
    (hnone : named changed = none → place = ⟨[], edit.old⟩) :
    ∃ intent, extractNamedAnchor treeSitter language original (replacementOf edit) named = some intent
      ∧ Intends intent place edit := by
  obtain ⟨root, hroot, hchanged⟩ := Option.bind_eq_some_iff.mp hchanged
  unfold extractNamedAnchor
  rw [hroot, Option.bind_some, hchanged, Option.map_some]
  refine ⟨_, rfl, ?_⟩
  cases hcase : named changed with
  | none =>
      rw [hnone hcase]
      dsimp only [Intends, operationPlace, replacementOf]
      rw [Text.replaceOnce_self]
  | some found => exact hnamed found.1 found.2 hcase

variable {edit : Edit Char} {changed : NodeCursor}

theorem extractJavascript_intends (htext : original = edit.before ++ edit.old ++ edit.after)
    (hne : edit.old ≠ edit.new)
    (hchanged : (parseTree treeSitter .javaScript original).bind
      (smallestNodeCoveringRange (replacementOf edit).start (replacementOf edit).stop []) = some changed) :
    ∃ intent, extractJavascriptTreeSitterAnchor treeSitter original (replacementOf edit) = some intent
      ∧ Intends intent (placeAt .javaScript changed original edit) edit := by
  apply extractNamedAnchor_intends hchanged
  · intro anchor operation hnamed
    obtain ⟨property, hproperty, hoperation⟩ := Option.map_eq_some_iff.mp hnamed
    have hexpand := expandReplacement_eq hne changed ["string".toList]
    rw [← htext] at hexpand
    unfold placeAt
    dsimp only
    rw [hproperty]
    obtain ⟨-, rfl⟩ := Prod.mk.inj hoperation
    cases hliteral : literalAround changed original (replacementOf edit).start (replacementOf edit).stop
        ["string".toList] with
    | none =>
        rw [hliteral, Option.map_none, Option.map_eq_none_iff] at hexpand
        rw [hexpand]
        dsimp only [Option.getD_none, operationPlace, replacementOf]
        rw [Text.replaceOnce_self]
    | some literal =>
        rw [hliteral, Option.map_some] at hexpand
        obtain ⟨replacement, hreplacement, hpair⟩ := Option.map_eq_some_iff.mp hexpand
        obtain ⟨hold, hnew⟩ := Prod.mk.inj hpair
        rw [hreplacement]
        dsimp only [Option.getD_some, operationPlace]
        rw [hold, hnew]
  · intro hnone
    unfold placeAt
    dsimp only
    rw [Option.map_eq_none_iff.mp hnone]

theorem extractCss_intends
    (hchanged : (parseTree treeSitter .css original).bind
      (smallestNodeCoveringRange (replacementOf edit).start (replacementOf edit).stop []) = some changed) :
    ∃ intent, extractCssTreeSitterAnchor treeSitter original (replacementOf edit) = some intent
      ∧ Intends intent (placeAt .css changed original edit) edit := by
  apply extractNamedAnchor_intends hchanged
  · intro anchor operation hnamed
    obtain ⟨property, hproperty, hoperation⟩ := Option.map_eq_some_iff.mp hnamed
    obtain ⟨-, rfl⟩ := Prod.mk.inj hoperation
    dsimp only [placeAt, operationPlace, replacementOf]
    rw [hproperty, Text.replaceOnce_self]
    rfl
  · intro hnone
    dsimp only [placeAt]
    rw [Option.map_eq_none_iff.mp hnone]
    rfl

theorem extractHtml_intends
    (hchanged : (parseTree treeSitter .html original).bind
      (smallestNodeCoveringRange (replacementOf edit).start (replacementOf edit).stop []) = some changed) :
    ∃ intent, extractHtmlTreeSitterAnchor treeSitter original (replacementOf edit) = some intent
      ∧ Intends intent (placeAt .html changed original edit) edit := by
  apply extractNamedAnchor_intends hchanged
  · intro anchor operation hnamed
    obtain ⟨⟨element, attr⟩, hattribute, hoperation⟩ := Option.map_eq_some_iff.mp hnamed
    obtain ⟨-, rfl⟩ := Prod.mk.inj hoperation
    dsimp only [placeAt, operationPlace, replacementOf]
    rw [hattribute, Text.replaceOnce_self]
  · intro hnone
    dsimp only [placeAt]
    rw [Option.map_eq_none_iff.mp hnone]

/-- Without a node around the place there is no named anchor. -/
theorem extractTreeSitterAnchor_eq_none {language : BodyLanguage} {replacement : TextReplacement}
    (hreplacement : singleTextReplacement original edited = some replacement)
    (hchanged : (parseTree treeSitter language original).bind
      (smallestNodeCoveringRange replacement.start replacement.stop []) = none) :
    extractTreeSitterAnchor treeSitter language original edited = none := by
  have hnamed : ∀ named, extractNamedAnchor treeSitter language original replacement named = none := by
    intro named
    unfold extractNamedAnchor
    cases hroot : parseTree treeSitter language original with
    | none => rfl
    | some root =>
        rw [hroot, Option.bind_some] at hchanged
        rw [Option.bind_some, hchanged, Option.map_none]
  unfold extractTreeSitterAnchor
  rw [hreplacement, Option.bind_some]
  cases language with
  | javaScript => exact hnamed _
  | css => exact hnamed _
  | html => exact hnamed _
  | json => rfl
  | xml => rfl
  | plainText => rfl

/-- **The intent of an edit that is not too long**: to replace the fragment at its place. -/
theorem extractBodyRewriteIntent_intends (hne : original ≠ edited)
    (hsize : ¬ Oversized (Edit.between original edited)) :
    ∃ intent, extractBodyRewriteIntent treeSitter original edited contentType = some intent
      ∧ Intends intent (placeOf treeSitter (BodyLanguage.fromContentType contentType) original
          (Edit.between original edited)) (Edit.between original edited) := by
  have hreplacement := singleTextReplacement_eq hne
  rw [if_neg hsize] at hreplacement
  have hsides := Edit.between_sides_ne original edited hne
  have htext := (Edit.between_original original edited).symm
  -- the rewrite of the plain text, where no tree helps
  have hplain : ∀ language, ∃ intent, extractTextRewriteIntent language original edited = some intent
      ∧ Intends intent ⟨[], (Edit.between original edited).old⟩ (Edit.between original edited) := by
    intro language
    unfold extractTextRewriteIntent
    rw [hreplacement]
    refine ⟨_, rfl, ?_⟩
    dsimp only [Intends, operationPlace, replacementOf]
    rw [Text.replaceOnce_self]
  unfold extractBodyRewriteIntent
  rw [if_neg hne]
  dsimp only
  generalize BodyLanguage.fromContentType contentType = language
  cases hchanged : (parseTree treeSitter language original).bind (smallestNodeCoveringRange
      (replacementOf (Edit.between original edited)).start
      (replacementOf (Edit.between original edited)).stop []) with
  | none =>
      rw [extractTreeSitterAnchor_eq_none hreplacement hchanged, ite_self, placeOf, hchanged]
      exact hplain language
  | some changed =>
      rw [placeOf, hchanged]
      cases language with
      | javaScript =>
          obtain ⟨intent, hintent, hplace⟩ := extractJavascript_intends htext hsides hchanged
          refine ⟨intent, ?_, hplace⟩
          rw [extractTreeSitterAnchor, hreplacement, Option.bind_some]
          simp only [BodyLanguage.isAstLike, ↓reduceIte, hintent]
      | css =>
          obtain ⟨intent, hintent, hplace⟩ := extractCss_intends hchanged
          refine ⟨intent, ?_, hplace⟩
          rw [extractTreeSitterAnchor, hreplacement, Option.bind_some]
          simp only [BodyLanguage.isAstLike, ↓reduceIte, hintent]
      | html =>
          obtain ⟨intent, hintent, hplace⟩ := extractHtml_intends hchanged
          refine ⟨intent, ?_, hplace⟩
          rw [extractTreeSitterAnchor, hreplacement, Option.bind_some]
          simp only [BodyLanguage.isAstLike, ↓reduceIte, hintent]
      | json => exact hplain .json
      | xml => exact hplain .xml
      | plainText => exact hplain .plainText

/-- The intent of an edit that is too long, if it has one: to replace the whole body. -/
theorem extractBodyRewriteIntent_oversized (hne : original ≠ edited)
    (hsize : Oversized (Edit.between original edited)) {intent : BodyRewriteIntent}
    (h : extractBodyRewriteIntent treeSitter original edited contentType = some intent) :
    ∃ body contentType, intent.operation = .replaceWholeBody body contentType := by
  have hreplacement := singleTextReplacement_eq hne
  rw [if_pos hsize] at hreplacement
  unfold extractBodyRewriteIntent at h
  rw [if_neg hne] at h
  dsimp only at h
  rw [extractTreeSitterAnchor, hreplacement, Option.bind_none, ite_self, extractTextRewriteIntent,
    hreplacement] at h
  obtain ⟨anchor, -, rfl⟩ := Option.map_eq_some_iff.mp h
  exact ⟨_, _, rfl⟩

end Intents

end Inspect.Filters
