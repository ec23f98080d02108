import Inspect.Filters.Correctness.BodyEdit
import Inspect.Filters.Correctness.EditorJsonPatch
import Inspect.Filters.Runtime.Action

/-!
# `Filters.Correctness.BodyRewrite` — running the rewrite of an edited text

A filter describes an edit of a text by what was there; the runtime looks for it again and replaces the first
occurrence it finds. `Reproduces` says when that is the edit: the names the rewrite is anchored to are there, there is
something to look for, and looking for it leads to the place of the edit, or to one where the same change has the same
result.
-/

namespace Inspect.Filters

/-! ## Finding the place again -/

/-- The gap between the place where `fragment` leads to and the place of the edit. -/
def gapBefore (edit : Edit Char) (original fragment : Str) : Str :=
  edit.before.drop ((Text.find fragment original).getD 0 + (Text.find edit.old fragment).getD 0)

/-- Replacing at the place where `fragment` leads to is replacing at the place of the edit: there is no gap between
    the two, or the edit only takes out, or only puts in, a text that commutes with the gap. -/
def SamePlace (edit : Edit Char) (original fragment : Str) : Prop :=
  let gap := gapBefore edit original fragment
  gap = [] ∨ (edit.new = [] ∧ edit.old ++ gap = gap ++ edit.old)
    ∨ (edit.old = [] ∧ edit.new ++ gap = gap ++ edit.new)

/-- The old text surrounds the edit. -/
theorem surrounds_old (edit : Edit Char) : Surrounds edit edit.old :=
  ⟨edit.before, [], [], edit.after, by simp, by simp, by simp⟩

/-- A text in a fragment in a text: the first occurrence of the fragment, and the first of the inner text in it. -/
theorem replaceOnce_nested (front inner old inner' rest : Str) :
    ∃ front' rest', front ++ (inner ++ old ++ inner') ++ rest = front' ++ old ++ rest'
      ∧ front'.length = (Text.find (inner ++ old ++ inner') (front ++ (inner ++ old ++ inner') ++ rest)).getD 0
          + (Text.find old (inner ++ old ++ inner')).getD 0
      ∧ front'.length ≤ (front ++ inner).length
      ∧ ∀ new, Text.replaceOnce (inner ++ old ++ inner') (Text.replaceOnce old new (inner ++ old ++ inner'))
          (front ++ (inner ++ old ++ inner') ++ rest) = front' ++ new ++ rest' := by
  obtain ⟨offset, hoffset, hoffsetLe⟩ := Text.find_append inner old inner'
  have hfragment := Text.eq_of_find hoffset
  have hoffsetLen : ((inner ++ old ++ inner').take offset).length = offset := by
    rw [List.length_take, List.append_assoc, List.length_append]
    omega
  simp only [Text.replaceOnce_of_find hoffset, hoffset, Option.getD_some]
  generalize inner ++ old ++ inner' = fragment at hoffset hfragment hoffsetLen ⊢
  obtain ⟨start, hstart, hstartLe⟩ := Text.find_append front fragment rest
  have htext := Text.eq_of_find hstart
  have hstartLen : ((front ++ fragment ++ rest).take start).length = start := by
    rw [List.length_take, List.append_assoc, List.length_append]
    omega
  simp only [Text.replaceOnce_of_find hstart, hstart, Option.getD_some]
  refine ⟨(front ++ fragment ++ rest).take start ++ fragment.take offset,
    fragment.drop (offset + old.length) ++ (front ++ fragment ++ rest).drop (start + fragment.length), ?_, ?_, ?_, ?_⟩
  · calc front ++ fragment ++ rest
        = (front ++ fragment ++ rest).take start ++ fragment
            ++ (front ++ fragment ++ rest).drop (start + fragment.length) := htext
      _ = (front ++ fragment ++ rest).take start
            ++ (fragment.take offset ++ old ++ fragment.drop (offset + old.length))
            ++ (front ++ fragment ++ rest).drop (start + fragment.length) := by rw [← hfragment]
      _ = _ := by simp only [List.append_assoc]
  · rw [List.length_append, hstartLen, hoffsetLen]
  · rw [List.length_append, List.length_append, hstartLen, hoffsetLen]
    omega
  · intro new
    simp only [List.append_assoc]

/-- **Replacing a fragment found again is the edit** on exactly the texts where it leads to the same place. -/
theorem replaceOnce_eq_iff_samePlace {original edited fragment : Str}
    (h : Surrounds (Edit.between original edited) fragment) :
    Text.replaceOnce fragment
        (Text.replaceOnce (Edit.between original edited).old (Edit.between original edited).new fragment) original
      = edited ↔ SamePlace (Edit.between original edited) original fragment := by
  have horiginal := Edit.between_original original edited
  have hedited := Edit.between_edited original edited
  have hheads := @Edit.between_heads Char _ original edited
  revert h horiginal hedited hheads
  generalize Edit.between original edited = edit
  obtain ⟨before, old, new, after⟩ := edit
  rintro ⟨front, inner, inner', rest, rfl, rfl, rfl⟩ rfl rfl hheads
  dsimp only at hheads ⊢
  obtain ⟨front', rest', htext, hlength, hle, hreplace⟩ := replaceOnce_nested front inner old inner' rest
  have hassoc : front ++ inner ++ old ++ (inner' ++ rest) = front ++ (inner ++ old ++ inner') ++ rest := by
    simp only [List.append_assoc]
  unfold SamePlace gapBefore
  dsimp only
  rw [hassoc, hreplace, ← hlength]
  -- what was found comes before the place of the edit, `gap` before it
  obtain ⟨gap, hgap⟩ : ∃ gap, front ++ inner = front' ++ gap := by
    have hsplit : front' ++ (old ++ rest') = (front ++ inner) ++ (old ++ (inner' ++ rest)) := by
      rw [← List.append_assoc, ← List.append_assoc, ← htext, ← hassoc]
    obtain ⟨gap, hgap⟩ := List.prefix_of_prefix_length_le ⟨_, hsplit⟩ (List.prefix_append _ _) hle
    exact ⟨gap, hgap.symm⟩
  rw [hgap, List.drop_left]
  apply Edit.replace_at_iff
  · rw [← htext, ← hassoc, hgap]
  · exact hheads

/-! ## Running an action -/

section Run

variable {N : Type} [BEq N] (serde : SerdeJson N) (regex : Str → Option (Str → Str → Str))

/-- What a rewrite needs to find in a body. -/
def Present (names : List Str) (text : Str) : Prop := ∀ name ∈ names, name ≠ [] ∧ Text.contains name text = true

instance (names : List Str) (text : Str) : Decidable (Present names text) :=
  inferInstanceAs (Decidable (∀ name ∈ names, _))

/-- A rewrite with anchors replaces one occurrence, or does nothing. -/
theorem applyBodyRewriteOps_anchored {op : RotoBodyRewriteOp} {names : List Str} {old new : Str}
    (hop : ∀ rewrite, applyBodyRewriteOp serde regex rewrite op = rewrite.replaceAnchored names old new)
    (body : Str) :
    (applyBodyRewriteOps serde regex (some body) [op]).map AppliedBodyRewrite.body
      = if Present (old :: names) body then some (Text.replaceOnce old new body) else none := by
  unfold applyBodyRewriteOps
  rw [if_neg (List.cons_ne_nil _ _), Option.bind_some, List.foldl_cons, List.foldl_nil, hop]
  unfold BodyRewrite.replaceAnchored
  have hpresent : ((old :: names).all fun text => text ≠ [] && Text.contains text body) = true
      ↔ Present (old :: names) body := by
    simp [Present, List.all_eq_true]
  by_cases h : Present (old :: names) body
  · rw [if_pos (hpresent.mpr h), if_pos h]
    rfl
  · rw [if_neg (fun hall => h (hpresent.mp hall)), if_neg h]
    rfl

/-- **An intent that replaces one occurrence** becomes, for requests and for responses, an action that runs as a
    rewrite with the anchors of the intent. -/
theorem action_of_operationPlace {intent : BodyRewriteIntent} {names : List Str} {old new : Str}
    (h : operationPlace intent.operation = some (names, old, new)) :
    ∃ op, (∀ rewrite, applyBodyRewriteOp serde regex rewrite op = rewrite.replaceAnchored names old new)
      ∧ (∃ action, requestBodyActionFromIntent intent = some action
          ∧ ∀ data, action.runRequest serde data = data.pushRewrite op)
      ∧ ∃ action, responseBodyActionFromIntent intent = some action
          ∧ ∀ data, action.runResponse serde data = some (data.pushRewrite op) := by
  unfold requestBodyActionFromIntent responseBodyActionFromIntent bodyActionFromIntent
  unfold operationPlace at h
  split at h <;> cases h <;> rename_i hoperation <;> rw [hoperation]
  · exact ⟨.replaceTextOnce old new, fun _ => rfl, ⟨_, rfl, fun _ => rfl⟩, _, rfl, fun _ => rfl⟩
  · exact ⟨.replaceJsProperty _ old new, fun _ => rfl, ⟨_, rfl, fun _ => rfl⟩, _, rfl, fun _ => rfl⟩
  · exact ⟨.replaceCssDeclaration _ old new, fun _ => rfl, ⟨_, rfl, fun _ => rfl⟩, _, rfl, fun _ => rfl⟩
  · exact ⟨.replaceHtmlAttribute _ _ old new, fun _ => rfl, ⟨_, rfl, fun _ => rfl⟩, _, rfl, fun _ => rfl⟩

end Run

/-! ## The body part of an action -/

section Part

/-- A run that reads and writes the `part` of its state only in relevant steps is, for that part, a run of these. -/
theorem foldlM_filter {S A B : Type} {step : S → A → Option S} {part : S → B} {relevant : A → Bool}
    (hskip : ∀ state action, relevant action = false → (step state action).map part = some (part state))
    (hcongr : ∀ state state' action, part state = part state' →
      (step state action).map part = (step state' action).map part)
    (actions : List A) (state state' : S) (h : part state = part state') :
    (actions.foldlM step state).map part = ((actions.filter relevant).foldlM step state').map part := by
  induction actions generalizing state state' with
  | nil => exact congrArg some h
  | cons action actions ih =>
      rw [List.foldlM_cons]
      cases hrelevant : relevant action with
      | false =>
          obtain ⟨next, hnext, hpart⟩ := Option.map_eq_some_iff.mp (hskip state action hrelevant)
          rw [List.filter_cons_of_neg (by simp [hrelevant]), hnext]
          exact ih next state' (hpart.trans h)
      | true =>
          rw [List.filter_cons_of_pos hrelevant, List.foldlM_cons]
          have hsteps := hcongr state state' action h
          cases hnext : step state action with
          | none =>
              rw [hnext, Option.map_none, eq_comm, Option.map_eq_none_iff] at hsteps
              rw [hsteps]
              rfl
          | some next =>
              rw [hnext, Option.map_some, eq_comm] at hsteps
              obtain ⟨next', hnext', hpart⟩ := Option.map_eq_some_iff.mp hsteps
              rw [hnext']
              exact ih next next' hpart.symm

open GeneratedFilterAction

variable {N : Type} (serde : SerdeJson N)

/-- What of an action decides the body: the text set as a whole, and the rewrites. -/
def RotoRequestActionData.bodyPart (data : RotoRequestActionData) : Option Str × List RotoBodyRewriteOp :=
  (data.bodyText, data.bodyRewriteOps)

/-- What of an action decides the body: the text set as a whole, and the rewrites. -/
def RotoResponseActionData.bodyPart (data : RotoResponseActionData) : Option Str × List RotoBodyRewriteOp :=
  (data.bodyText, data.bodyRewriteOps)

/-- **The body part of a request action is that of its body actions.** -/
theorem requestActionData_bodyPart (actions : List GeneratedFilterAction) :
    (requestActionData serde actions).bodyPart
      = (requestActionData serde (actions.filter isRequestBodyRewrite)).bodyPart := by
  have hrun := @foldlM_filter _ _ _ (fun data action => some (runRequest serde data action))
    RotoRequestActionData.bodyPart isRequestBodyRewrite
    (by
      intro data action h
      cases action <;> first | rfl | cases h)
    (by
      intro data data' action h
      obtain ⟨htext, hops⟩ := Prod.mk.inj h
      apply congrArg some
      cases action <;> first
        | exact h
        | exact congrArg₂ Prod.mk htext (congrArg (· ++ _) hops)
        | exact congrArg (Prod.mk _) hops)
    actions RotoRequestActionData.pass RotoRequestActionData.pass rfl
  have hfold : ∀ actions, List.foldlM (fun data action => some (runRequest serde data action))
      RotoRequestActionData.pass actions = some (requestActionData serde actions) :=
    fun actions => List.foldlM_pure
  rw [hfold, hfold] at hrun
  exact Option.some.inj hrun

/-- **The body part of a response action is that of its body actions.** -/
theorem responseActionData_bodyPart (actions : List GeneratedFilterAction) :
    (responseActionData serde actions).map RotoResponseActionData.bodyPart
      = (responseActionData serde (actions.filter isResponseBodyRewrite)).map
          RotoResponseActionData.bodyPart := by
  apply foldlM_filter
  · intro data action h
    cases action <;> first | rfl | cases h
  · intro data data' action h
    obtain ⟨htext, hops⟩ := Prod.mk.inj h
    cases action <;> first
      | rfl
      | exact congrArg some h
      | exact congrArg some (congrArg₂ Prod.mk htext (congrArg (· ++ _) hops))
      | exact congrArg some (congrArg (Prod.mk _) hops)
  · rfl

end Part

/-! ## The body a filter leaves behind -/

section Written

variable {N : Type} [BEq N] (serde : SerdeJson N) (regex : Str → Option (Str → Str → Str))

/-- The body text that an action with the given body part writes. -/
def writtenBody (part : Option Str × List RotoBodyRewriteOp) (original : Str) : Option Str :=
  part.1.or ((applyBodyRewriteOps serde regex (some original) part.2).map AppliedBodyRewrite.body)

theorem bodyPatch_bytes (bodyText contentType : Option Str) (rewritten : Option AppliedBodyRewrite) :
    (bodyPatch bodyText contentType rewritten).map FilterBodyPatch.bytes
      = (bodyText.or (rewritten.map AppliedBodyRewrite.body)).map Text.bytes := by
  cases bodyText with
  | some bodyText => rfl
  | none => cases rewritten <;> rfl

/-- The bytes of the body that a request filter, run on a request with the body text `original`, puts in. -/
def requestBodyAfter (filter : GeneratedFilter) (original : Str) : Option (List UInt8) :=
  (((requestActionData serde filter.actions).intoRequestAction serde regex (some original)).request.bind
    FilterRequestPatch.body).map FilterBodyPatch.bytes

/-- The bytes of the body that a response filter, run on a response with the body text `original`, puts in. -/
def responseBodyAfter (filter : GeneratedFilter) (original : Str) : Option (List UInt8) :=
  ((responseActionData serde filter.actions).bind fun data =>
    (data.intoResponseAction serde regex (some original)).response.bind FilterResponsePatch.body).map
      FilterBodyPatch.bytes

/-- A request action writes the body its body part says. -/
theorem requestBodyAfter_eq (filter : GeneratedFilter) (original : Str) :
    requestBodyAfter serde regex filter original
      = (writtenBody serde regex (requestActionData serde filter.actions).bodyPart original).map Text.bytes := by
  unfold requestBodyAfter RotoRequestActionData.intoRequestAction writtenBody
  dsimp only
  generalize requestActionData serde filter.actions = data
  have hbytes := bodyPatch_bytes data.bodyText data.bodyContentType
    (applyBodyRewriteOps serde regex (some original) data.bodyRewriteOps)
  split_ifs with hpatch
  · exact hbytes
  · -- without a patch there is neither a text nor a rewrite
    simp only [not_or, Option.not_isSome_iff_eq_none] at hpatch
    rw [show data.bodyPart = (data.bodyText, data.bodyRewriteOps) from rfl, hpatch.2.2.1, hpatch.2.2.2]
    rfl

/-- A response action writes the body its body part says. -/
theorem responseBodyAfter_eq {filter : GeneratedFilter} {part : Option Str × List RotoBodyRewriteOp}
    (hpart : (responseActionData serde filter.actions).map RotoResponseActionData.bodyPart = some part)
    (original : Str) :
    responseBodyAfter serde regex filter original = (writtenBody serde regex part original).map Text.bytes := by
  obtain ⟨data, hdata, rfl⟩ := Option.map_eq_some_iff.mp hpart
  unfold responseBodyAfter RotoResponseActionData.intoResponseAction writtenBody
  rw [hdata, Option.bind_some]
  dsimp only
  have hbytes := bodyPatch_bytes data.bodyText data.bodyContentType
    (applyBodyRewriteOps serde regex (some original) data.bodyRewriteOps)
  split_ifs with hpatch
  · exact hbytes
  · simp only [not_or, Option.not_isSome_iff_eq_none] at hpatch
    rw [show data.bodyPart = (data.bodyText, data.bodyRewriteOps) from rfl, hpatch.2.2.2.1, hpatch.2.2.2.2]
    rfl

/-! ## When the edit is reproduced -/

/-- The condition for an edit of a text to be reproduced: it is so long that the body is set as a whole; or there is a
    fragment to look for, the names it is anchored to are there and not empty, and the fragment leads to the place of
    the edit. -/
def Reproduces (treeSitter : BodyLanguage → Str → Option SyntaxNode) (contentType : Option Str)
    (original edited : Str) : Prop :=
  let edit := Edit.between original edited
  let place := placeOf treeSitter (BodyLanguage.fromContentType contentType) original edit
  Oversized edit
    ∨ (place.fragment ≠ [] ∧ Present place.names original ∧ SamePlace edit original place.fragment)

variable {treeSitter : BodyLanguage → Str → Option SyntaxNode}

/-- The fragment of a place surrounds the edit. -/
theorem surrounds_placeOf (language : BodyLanguage) (original edited : Str) :
    Surrounds (Edit.between original edited)
      (placeOf treeSitter language original (Edit.between original edited)).fragment := by
  have hold := surrounds_old (Edit.between original edited)
  have htext := Edit.between_original original edited
  unfold placeOf placeAt
  split
  · rename_i changed _
    split
    · split
      · dsimp only
        cases hliteral : literalAround changed original (replacementOf (Edit.between original edited)).start
            (replacementOf (Edit.between original edited)).stop ["string".toList] with
        | none => exact hold
        | some literal => exact surrounds_literalAround htext hliteral
      · exact hold
    · exact hold
    · split <;> exact hold
    all_goals exact hold
  · exact hold

/-- A fragment that surrounds an edit is in the text. -/
theorem contains_of_surrounds {original edited fragment : Str}
    (h : Surrounds (Edit.between original edited) fragment) : Text.contains fragment original = true := by
  obtain ⟨front, inner, inner', rest, hfragment, hbefore, hafter⟩ := h
  have htext : original = front ++ fragment ++ rest := by
    rw [← Edit.between_original original edited, hfragment, hbefore, hafter]
    simp only [List.append_assoc]
  obtain ⟨index, hindex, -⟩ := Text.find_append front fragment rest
  rw [htext, Text.contains, hindex]
  rfl

variable {original edited : Str} {contentType : Option Str}

/-- A rewrite of the place of an edit that is not too long writes the edited text on exactly the condition. -/
theorem writtenBody_rewrite_iff (hsize : ¬ Oversized (Edit.between original edited)) {place : Place}
    (hplace : placeOf treeSitter (BodyLanguage.fromContentType contentType) original
      (Edit.between original edited) = place) {op : RotoBodyRewriteOp}
    (hop : ∀ rewrite, applyBodyRewriteOp serde regex rewrite op
      = rewrite.replaceAnchored place.names place.fragment
        (Text.replaceOnce (Edit.between original edited).old (Edit.between original edited).new place.fragment)) :
    writtenBody serde regex (none, [op]) original = some edited
      ↔ Reproduces treeSitter contentType original edited := by
  have hsurrounds := @surrounds_placeOf treeSitter (BodyLanguage.fromContentType contentType) original edited
  rw [hplace] at hsurrounds
  have hcontains := contains_of_surrounds hsurrounds
  unfold writtenBody Reproduces
  dsimp only
  rw [Option.none_or, applyBodyRewriteOps_anchored serde regex hop, hplace,
    ← replaceOnce_eq_iff_samePlace hsurrounds]
  constructor
  · intro h
    split_ifs at h with hpresent
    obtain ⟨⟨hfragment, -⟩, hnames⟩ := List.forall_mem_cons.mp hpresent
    exact Or.inr ⟨hfragment, hnames, Option.some.inj h⟩
  · rintro (hlong | ⟨hfragment, hnames, hresult⟩)
    · exact absurd hlong hsize
    · have hpresent : Present (place.fragment :: place.names) original :=
        List.forall_mem_cons.mpr ⟨⟨hfragment, hcontains⟩, hnames⟩
      rw [if_pos hpresent, hresult]

/-! ## The extracted filter -/

variable {message message' : EditableHttpMessage}

/-- **The action for an edited text**: it runs as a body part that writes the edited text on exactly the condition,
    in a request filter and in a response filter. -/
theorem bodyAction_writes_iff (hne : original ≠ edited) (horiginal : message.bodyText = some original)
    (hedited : message'.bodyText = some edited) (hoperations : editOperations serde message message' = []) :
    ∃ part, (writtenBody serde regex part original = some edited
        ↔ Reproduces treeSitter (message.bodyContentType.or message'.bodyContentType) original edited)
      ∧ (∃ action, bodyAction serde treeSitter .request setRequestBody message message' = some action
          ∧ (requestActionData serde [action]).bodyPart = part)
      ∧ ∃ action, bodyAction serde treeSitter .response (setResponseBody message message') message message'
            = some action
          ∧ (responseActionData serde [action]).map RotoResponseActionData.bodyPart = some part := by
  have hbody : ∀ target setBodyText, bodyAction serde treeSitter target setBodyText message message'
      = ((extractBodyRewriteIntent treeSitter original edited
          (message.bodyContentType.or message'.bodyContentType)).bind target.actionFromIntent).or
          (some (setBodyText edited)) := by
    intro target setBodyText
    rw [bodyAction, hedited, Option.bind_some, if_neg (not_not.mpr hoperations), textBodyAction, horiginal, hedited,
      Option.bind_some, Option.bind_some, draftBodyAction,
      if_pos (fun heq => hne (Option.some.inj heq)), Option.map_some]
  -- an edit that is too large for a rewrite is set as a whole; every other one has an intent
  by_cases hsize : Oversized (Edit.between original edited)
  · -- the text is set as a whole
    have hnone : ∀ actions, (extractBodyRewriteIntent treeSitter original edited
        (message.bodyContentType.or message'.bodyContentType)).bind (bodyActionFromIntent actions) = none := by
      intro actions
      cases hintent : extractBodyRewriteIntent treeSitter original edited
          (message.bodyContentType.or message'.bodyContentType) with
      | none => rfl
      | some intent =>
          obtain ⟨body, contentType, hoperation⟩ := extractBodyRewriteIntent_oversized hne hsize hintent
          rw [Option.bind_some, bodyActionFromIntent, hoperation]
    refine ⟨(some edited, []), ⟨fun _ => Or.inl hsize, fun _ => rfl⟩, ⟨setRequestBody edited, ?_, rfl⟩,
      setResponseBody message message' edited, ?_, rfl⟩
    · rw [hbody, show BodyTarget.request.actionFromIntent = bodyActionFromIntent _ from rfl, hnone]
      rfl
    · rw [hbody, show BodyTarget.response.actionFromIntent = bodyActionFromIntent _ from rfl, hnone]
      rfl
  · obtain ⟨intent, hintent, hplace⟩ := @extractBodyRewriteIntent_intends treeSitter original edited
      (message.bodyContentType.or message'.bodyContentType) hne hsize
    obtain ⟨op, hop, ⟨action, haction, hrun⟩, action', haction', hrun'⟩ :=
      action_of_operationPlace serde regex hplace
    refine ⟨(none, [op]), writtenBody_rewrite_iff serde regex hsize rfl hop, ⟨action, ?_, ?_⟩, action', ?_, ?_⟩
    · rw [hbody, hintent, Option.bind_some, show BodyTarget.request.actionFromIntent intent = some action from haction]
      rfl
    · rw [requestActionData, List.foldl_cons, List.foldl_nil, hrun]
      rfl
    · rw [hbody, hintent, Option.bind_some,
        show BodyTarget.response.actionFromIntent intent = some action' from haction']
      rfl
    · rw [responseActionData, List.foldlM_cons, hrun']
      rfl

/-- Texts that differ are a change. -/
theorem hasChanges_of_bodyText_ne (h : message.bodyText ≠ message'.bodyText) :
    (message.diff message').hasChanges = true := by
  have hbody : (message.diff message').bodyChanged = true := by
    simpa [EditableHttpMessage.diff] using h
  simp [EditableHttpMessageDiff.hasChanges, hbody]

variable {debug : Str → Str} {uuid name : Str} {requestContext : EditableHttpMessage}

/-- **An edit of a text that is not diffed as JSON is reproduced on exactly the condition**: a request edit and a
    response edit give a filter, and run on the original text it writes the edited text if and only if
    `Reproduces`. -/
theorem bodyAfter_eq_edited_iff_reproduces {contentType contentType' : Option Str} (hne : original ≠ edited)
    (horiginal : message.body = .text original contentType) (hedited : message'.body = .text edited contentType')
    (hjson : pushJsonBodyDiffEvents serde original edited (contentType.or contentType') = none) :
    (message.kind = .request → message'.kind = .request →
      ∃ filter, extractRequestFilterFromEdit serde treeSitter debug uuid name message message' = some filter
        ∧ (requestBodyAfter serde regex filter original = some (Text.bytes edited)
          ↔ Reproduces treeSitter (contentType.or contentType') original edited))
    ∧ (message.kind = .response → message'.kind = .response → message.status.isSome → message'.status.isSome →
      ∃ filter, extractResponseFilterFromEdit serde treeSitter debug uuid name requestContext message message'
          = some filter
        ∧ (responseBodyAfter serde regex filter original = some (Text.bytes edited)
          ↔ Reproduces treeSitter (contentType.or contentType') original edited)) := by
  have htext : message.bodyText = some original := by rw [EditableHttpMessage.bodyText, horiginal]; rfl
  have htext' : message'.bodyText = some edited := by rw [EditableHttpMessage.bodyText, hedited]; rfl
  have htype : message.bodyContentType.or message'.bodyContentType = contentType.or contentType' := by
    rw [EditableHttpMessage.bodyContentType, EditableHttpMessage.bodyContentType, horiginal, hedited]
    rfl
  have hoperations : editOperations serde message message' = [] := by
    rw [editOperations_eq, horiginal, hedited, bodyOperations_not_json hjson]
  have hchanges : (message.diff message').hasChanges = true := by
    apply hasChanges_of_bodyText_ne
    rw [htext, htext']
    exact fun heq => hne (Option.some.inj heq)
  obtain ⟨part, hwrites, ⟨action, haction, hpart⟩, action', haction', hpart'⟩ :=
    @bodyAction_writes_iff N _ serde regex treeSitter original edited message message' hne htext htext' hoperations
  rw [htype] at hwrites
  -- bytes that are the same are the bytes of the same text
  have hbytes : (writtenBody serde regex part original).map Text.bytes = some (Text.bytes edited)
      ↔ writtenBody serde regex part original = some edited := by
    constructor
    · intro h
      obtain ⟨written, hwritten, hsame⟩ := Option.map_eq_some_iff.mp h
      rw [hwritten, Text.bytes_injective hsame]
    · intro h
      rw [h]
      rfl
  constructor
  · intro hkind hkind'
    obtain ⟨filter, hfilter⟩ : ∃ filter, extractRequestFilterFromEdit serde treeSitter debug uuid name message
        message' = some filter := by
      unfold extractRequestFilterFromEdit
      rw [if_neg (by simp [hkind, hkind'])]
      dsimp only
      rw [if_neg (by simp [hchanges])]
      exact ⟨_, rfl⟩
    refine ⟨filter, hfilter, ?_⟩
    have hactions := extractRequestFilter_bodyActions serde treeSitter debug uuid hfilter
    rw [requestBodyAfter_eq, requestActionData_bodyPart, hactions, haction, Option.toList_some, hpart, hbytes,
      hwrites]
  · intro hkind hkind' hstatus hstatus'
    obtain ⟨filter, hfilter⟩ : ∃ filter, extractResponseFilterFromEdit serde treeSitter debug uuid name
        requestContext message message' = some filter := by
      obtain ⟨status, hstatus⟩ := Option.isSome_iff_exists.mp hstatus
      obtain ⟨status', hstatus'⟩ := Option.isSome_iff_exists.mp hstatus'
      unfold extractResponseFilterFromEdit EditableHttpMessage.toResponseInput
      rw [if_neg (by simp [hkind, hkind']), hstatus, hstatus']
      dsimp only
      rw [if_neg (by simp [hchanges])]
      exact ⟨_, rfl⟩
    refine ⟨filter, hfilter, ?_⟩
    have hactions := extractResponseFilter_bodyActions serde treeSitter debug uuid hfilter
    have hfilterPart : (responseActionData serde filter.actions).map RotoResponseActionData.bodyPart
        = some part := by
      rw [responseActionData_bodyPart, hactions, haction', Option.toList_some, hpart']
    rw [responseBodyAfter_eq serde regex hfilterPart, hbytes, hwrites]

end Written

/-- A request to `/` with a text body. -/
def textRequest (contentType body : String) : EditableHttpMessage :=
  ⟨.request, some "POST".toList, some "http".toList, "h".toList, "/".toList, [], none, [],
    .text body.toList (some contentType.toList)⟩

/-- The tree of `body \x7b color: red; \x7d`. -/
def cssTree : SyntaxNode :=
  .mk "stylesheet".toList 0 20 [(none, .mk "rule_set".toList 0 20
    [(none, .mk "selectors".toList 0 4 [(none, .mk "tag_name".toList 0 4 [])]),
     (none, .mk "block".toList 5 20
      [(none, .mk "\x7b".toList 5 6 []),
       (none, .mk "declaration".toList 7 18
        [(none, .mk "property_name".toList 7 12 []), (none, .mk ":".toList 12 13 []),
         (none, .mk "plain_value".toList 14 17 []), (none, .mk ";".toList 17 18 [])]),
       (none, .mk "\x7d".toList 19 20 [])])])]

/-- The colour of a declaration is changed, and the filter changes it. -/
theorem bodyAfter_css_color :
    ∃ filter, extractRequestFilterFromEdit JsonCodec.codec (fun _ _ => some cssTree) id "1".toList "n".toList
        (textRequest "text/css" "body \x7b color: red; \x7d")
        (textRequest "text/css" "body \x7b color: blue; \x7d") = some filter
      ∧ requestBodyAfter JsonCodec.codec (fun _ => none) filter "body \x7b color: red; \x7d".toList
        = some (Text.bytes "body \x7b color: blue; \x7d".toList) := by
  have hreproduces : Reproduces (fun _ _ => some cssTree) (some "text/css".toList)
      "body \x7b color: red; \x7d".toList "body \x7b color: blue; \x7d".toList := by
    refine Or.inr ⟨?_, ?_, Or.inl ?_⟩
    · decide +kernel
    · decide +kernel
    · decide +kernel
  have hboth := @bodyAfter_eq_edited_iff_reproduces Int _ JsonCodec.codec (fun _ => none)
    (fun _ _ => some cssTree) "body \x7b color: red; \x7d".toList "body \x7b color: blue; \x7d".toList
    (textRequest "text/css" "body \x7b color: red; \x7d")
    (textRequest "text/css" "body \x7b color: blue; \x7d") id "1".toList "n".toList
    (textRequest "text/css" "") (some "text/css".toList) (some "text/css".toList) (by decide +kernel) rfl rfl
    (by decide +kernel)
  obtain ⟨filter, hfilter, hiff⟩ := hboth.1 rfl rfl
  exact ⟨filter, hfilter, hiff.mpr hreproduces⟩

/-- The second of two equal words is changed, and the filter changes the first. -/
theorem first_occurrence_is_replaced :
    ∃ filter, extractRequestFilterFromEdit JsonCodec.codec (fun _ _ => none) id "1".toList "n".toList
        (textRequest "text/plain" "a a") (textRequest "text/plain" "a b") = some filter
      ∧ requestBodyAfter JsonCodec.codec (fun _ => none) filter "a a".toList = some (Text.bytes "b a".toList)
      ∧ requestBodyAfter JsonCodec.codec (fun _ => none) filter "a a".toList ≠ some (Text.bytes "a b".toList) := by
  obtain ⟨filter, hfilter, hbody⟩ := Option.map_eq_some_iff.mp (show (extractRequestFilterFromEdit JsonCodec.codec
    (fun _ _ => none) id "1".toList "n".toList (textRequest "text/plain" "a a")
      (textRequest "text/plain" "a b")).map (fun filter => requestBodyAfter JsonCodec.codec (fun _ => none) filter
        "a a".toList) = some (some (Text.bytes "b a".toList)) by decide +kernel)
  refine ⟨filter, hfilter, hbody, ?_⟩
  rw [hbody]
  decide

end Inspect.Filters
