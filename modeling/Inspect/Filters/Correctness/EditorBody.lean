import Inspect.Filters.Editor

/-!
# `Filters.Correctness.EditorBody` — the one body action of an extracted filter

A filter extracted from an edit has at most one action that rewrites the body, and `bodyAction` says which: the JSON
patch if the diff has JSON operations, else the rewrite found in the text, else the edited text as a whole.
-/

namespace Inspect.Filters

open GeneratedFilterAction

/-! ## The drafts -/

namespace GeneratedFilterBuilder

variable (builder : GeneratedFilterBuilder)

/-- A condition leaves the actions alone. -/
theorem actions_ite_condition (needed : Prop) [Decidable needed] (condition : GeneratedFilterCondition) :
    (if needed then builder.condition condition else builder).actions = builder.actions := by
  split
  · rfl
  · rfl

/-- An action that is only taken if something has changed. -/
theorem actions_ite_action (changed : Prop) [Decidable changed] (action : GeneratedFilterAction) :
    (if changed then builder.action action else builder).actions
      = builder.actions ++ if changed then [action] else [] := by
  split
  · rfl
  · rw [List.append_nil]

variable {builder} in
/-- A filter has the actions of its builder, if there are any. -/
theorem actions_build {uuid : Str} {action : GeneratedFilterAction} {actions : List GeneratedFilterAction}
    (h : builder.actions = action :: actions) : (builder.build uuid).actions = action :: actions := by
  unfold build
  rw [h, if_neg (List.cons_ne_nil _ _)]

end GeneratedFilterBuilder

/-- A note leaves the actions alone. -/
@[simp] theorem GeneratedFilter.addRewriteNote_actions (filter : GeneratedFilter) (note : Str) :
    (filter.addRewriteNote note).actions = filter.actions := rfl

theorem GeneratedFilter.actions_ite_addRewriteNote (filter : GeneratedFilter) (noted : Prop) [Decidable noted]
    (note : Str) : (if noted then filter.addRewriteNote note else filter).actions = filter.actions := by
  split
  · rfl
  · rfl

section Drafts

variable (debug : Str → Str) (uuid name : Str)

/-- The body action of a draft: the edited text, if it is new. -/
def draftBodyAction (setBodyText : Str → GeneratedFilterAction) (original edited : Option Str) :
    Option GeneratedFilterAction :=
  if original ≠ edited then edited.map setBodyText else none

theorem requestFilter_actions (original edited : GeneratedRewriteRequestInput) :
    (requestFilter debug uuid name original edited).actions
      = .mark (generatedMarkLabel name)
        :: (draftBodyAction (fun body => .setRequestBodyText body "text/plain; charset=utf-8".toList)
            original.bodyText edited.bodyText).toList := by
  unfold requestFilter draftBodyAction
  dsimp only
  rw [GeneratedFilter.actions_ite_addRewriteNote, GeneratedFilter.actions_ite_addRewriteNote,
    GeneratedFilter.actions_ite_addRewriteNote, GeneratedFilter.addRewriteNote_actions]
  apply GeneratedFilterBuilder.actions_build
  cases hedited : edited.bodyText with
  | none =>
      dsimp only
      rw [GeneratedFilterBuilder.actions_ite_condition, GeneratedFilterBuilder.actions_ite_condition, Option.map_none,
        ite_self]
      rfl
  | some body =>
      dsimp only
      rw [GeneratedFilterBuilder.actions_ite_action, GeneratedFilterBuilder.actions_ite_condition,
        GeneratedFilterBuilder.actions_ite_condition, Option.map_some]
      split_ifs <;> rfl

theorem responseFilter_actions (request : GeneratedRewriteRequestInput)
    (original edited : GeneratedRewriteResponseInput) :
    (responseFilter debug uuid name request original edited).actions
      = .mark (generatedMarkLabel name)
        :: (if original.status ≠ edited.status then [.setResponseStatus edited.status] else [])
        ++ (draftBodyAction (fun body => .setResponseBodyText body
              ((edited.contentType.or original.contentType).getD "text/plain; charset=utf-8".toList))
            original.bodyText edited.bodyText).toList := by
  unfold responseFilter draftBodyAction
  cases hedited : edited.bodyText with
  | none =>
      dsimp only
      split_ifs <;> split <;> split <;> first | rfl | (split_ifs <;> rfl)
  | some body =>
      dsimp only
      split_ifs <;> split <;> split <;> first | rfl | (split_ifs <;> rfl)

end Drafts

/-- The body action of a draft is one. -/
theorem filter_draftBodyAction {isBody : GeneratedFilterAction → Bool} {setBodyText : Str → GeneratedFilterAction}
    (h : ∀ body, isBody (setBodyText body) = true) (original edited : Option Str) :
    (draftBodyAction setBodyText original edited).toList.filter isBody
      = (draftBodyAction setBodyText original edited).toList := by
  unfold draftBodyAction
  split_ifs
  · cases edited with
    | none => rfl
    | some body => exact List.filter_cons_of_pos (h body)
  · rfl

/-- Header actions leave the body alone. -/
theorem headerActions_not_bodyRewrite (diff : EditableHttpMessageDiff) :
    diff.headerActions.filter isRequestBodyRewrite = []
      ∧ diff.headerActions.filter isResponseBodyRewrite = [] := by
  unfold EditableHttpMessageDiff.headerActions EditableHttpMessageDiff.headerActionsWith
  constructor
  · split <;> simp [List.filter_map, Function.comp_def, isRequestBodyRewrite]
  · split <;> simp [List.filter_map, Function.comp_def, isResponseBodyRewrite]

/-! ## Replacing the body action -/

@[simp] theorem GeneratedFilter.extendActions_actions (filter : GeneratedFilter)
    (actions : List GeneratedFilterAction) :
    (filter.extendActions actions).actions = filter.actions ++ actions := rfl

@[simp] theorem GeneratedFilter.addIntentNotes_actions (debug : Str → Str) (filter : GeneratedFilter)
    (intent : BodyRewriteIntent) : (filter.addIntentNotes debug intent).actions = filter.actions := by
  unfold GeneratedFilter.addIntentNotes
  dsimp only
  split <;> rfl

/-- `target` replaces the actions that `isBody` picks out. -/
structure BodyTarget.Rewrites (target : BodyTarget) (isBody : GeneratedFilterAction → Bool) : Prop where
  replace : ∀ (filter : GeneratedFilter) {action : GeneratedFilterAction}, isBody action = true →
    (target.replaceAction filter action).actions.filter isBody = [action]
  patch : ∀ operations body contentType, isBody (target.applyJsonPatch operations body contentType) = true
  patch_inj : ∀ {operations operations' body body' contentType contentType'},
    target.applyJsonPatch operations body contentType = target.applyJsonPatch operations' body' contentType' →
      operations = operations'
  intent : ∀ {intent : BodyRewriteIntent} {action : GeneratedFilterAction},
    target.actionFromIntent intent = some action → isBody action = true
  intent_ne_patch : ∀ intent operations body contentType,
    target.actionFromIntent intent ≠ some (target.applyJsonPatch operations body contentType)

/-- Putting one body action in place of all others leaves that one. -/
theorem filter_replaced {isBody : GeneratedFilterAction → Bool} (actions : List GeneratedFilterAction)
    {action : GeneratedFilterAction} (h : isBody action = true) :
    ((actions.filter fun existing => !isBody existing) ++ [action]).filter isBody = [action] := by
  have hnone : (actions.filter fun existing => !isBody existing).filter isBody = [] := by
    rw [List.filter_filter, List.filter_eq_nil_iff]
    intro existing _
    cases isBody existing <;> simp
  rw [List.filter_append, hnone, List.nil_append, List.filter_cons_of_pos h, List.filter_nil]

/-- An intent that becomes an action becomes one of the seven that rewrite a body. -/
theorem bodyActionFromIntent_isBody {actions : BodyActions} {isBody : GeneratedFilterAction → Bool}
    (hbinary : ∀ old new, isBody (actions.replaceBodyTextOnce old new) = true
      ∧ isBody (actions.replaceBodyTextAll old new) = true ∧ isBody (actions.replaceBodyRegex old new) = true)
    (hternary : ∀ anchor old new, isBody (actions.replaceBodyTextWhenContains anchor old new) = true
      ∧ isBody (actions.replaceJsProperty anchor old new) = true
      ∧ isBody (actions.replaceCssDeclaration anchor old new) = true)
    (hattribute : ∀ selector attr old new, isBody (actions.replaceHtmlAttribute selector attr old new) = true)
    {intent : BodyRewriteIntent} {action : GeneratedFilterAction}
    (h : bodyActionFromIntent actions intent = some action) : isBody action = true := by
  unfold bodyActionFromIntent at h
  split at h <;> cases h
  · exact (hbinary _ _).1
  · exact (hbinary _ _).1
  · exact (hbinary _ _).2.1
  · exact (hbinary _ _).2.2
  · exact (hternary _ _ _).1
  · exact (hternary _ _ _).2.1
  · exact (hternary _ _ _).2.2
  · exact hattribute _ _ _ _

theorem BodyTarget.request_rewrites : BodyTarget.request.Rewrites isRequestBodyRewrite where
  replace := fun filter _ h => filter_replaced filter.actions h
  patch := fun _ _ _ => rfl
  patch_inj := fun h => by cases h; rfl
  intent := bodyActionFromIntent_isBody (fun _ _ => ⟨rfl, rfl, rfl⟩) (fun _ _ _ => ⟨rfl, rfl, rfl⟩)
    fun _ _ _ _ => rfl
  intent_ne_patch := by
    intro intent operations body contentType h
    change bodyActionFromIntent _ intent = _ at h
    unfold bodyActionFromIntent at h
    split at h <;> cases h

theorem BodyTarget.response_rewrites : BodyTarget.response.Rewrites isResponseBodyRewrite where
  replace := fun filter _ h => filter_replaced filter.actions h
  patch := fun _ _ _ => rfl
  patch_inj := fun h => by cases h; rfl
  intent := bodyActionFromIntent_isBody (fun _ _ => ⟨rfl, rfl, rfl⟩) (fun _ _ _ => ⟨rfl, rfl, rfl⟩)
    fun _ _ _ _ => rfl
  intent_ne_patch := by
    intro intent operations body contentType h
    change bodyActionFromIntent _ intent = _ at h
    unfold bodyActionFromIntent at h
    split at h <;> cases h

/-! ## The extracted filter -/

section Extracted

variable {N : Type} [BEq N] (serde : SerdeJson N) (treeSitter : BodyLanguage → Str → Option SyntaxNode)
  (debug : Str → Str) (uuid : Str)

/-- The action for two texts, where one is found. -/
def textBodyAction (target : BodyTarget) (original edited : EditableHttpMessage) :
    Option GeneratedFilterAction :=
  original.bodyText.bind fun originalBody => edited.bodyText.bind fun editedBody =>
    (extractBodyRewriteIntent treeSitter originalBody editedBody
      (original.bodyContentType.or edited.bodyContentType)).bind target.actionFromIntent

/-- The body action of an extracted filter. -/
def bodyAction (target : BodyTarget) (setBodyText : Str → GeneratedFilterAction)
    (original edited : EditableHttpMessage) : Option GeneratedFilterAction :=
  edited.bodyText.bind fun editedBody =>
    if editOperations serde original edited ≠ [] then
      some (target.applyJsonPatch (editOperations serde original edited) editedBody
        (edited.bodyContentType.getD "application/json; charset=utf-8".toList))
    else
      (textBodyAction treeSitter target original edited).or
        (draftBodyAction setBodyText original.bodyText edited.bodyText)

variable {target : BodyTarget} {isBody : GeneratedFilterAction → Bool} {filter : GeneratedFilter}
  (original edited : EditableHttpMessage)

theorem rewriteTextBody_bodyActions (htarget : target.Rewrites isBody) {draft : Option GeneratedFilterAction}
    (hdraft : filter.actions.filter isBody = draft.toList) :
    (rewriteTextBody treeSitter debug target original edited filter).actions.filter isBody
      = ((textBodyAction treeSitter target original edited).or draft).toList := by
  unfold rewriteTextBody textBodyAction
  split
  · rename_i originalBody editedBody horiginal hedited
    rw [horiginal, hedited, Option.bind_some, Option.bind_some]
    cases extractBodyRewriteIntent treeSitter originalBody editedBody
        (original.bodyContentType.or edited.bodyContentType) with
    | none => exact hdraft
    | some intent =>
        rw [Option.bind_some]
        dsimp only
        cases haction : target.actionFromIntent intent with
        | none => exact hdraft
        | some action =>
            dsimp only
            rw [GeneratedFilter.addIntentNotes_actions, htarget.replace filter (htarget.intent haction)]
            rfl
  · rename_i hnot
    have hnone : (original.bodyText.bind fun originalBody => edited.bodyText.bind fun editedBody =>
        (extractBodyRewriteIntent treeSitter originalBody editedBody
          (original.bodyContentType.or edited.bodyContentType)).bind target.actionFromIntent) = none := by
      cases horiginal : original.bodyText with
      | none => rfl
      | some originalBody =>
          cases hedited : edited.bodyText with
          | none => rfl
          | some editedBody => exact absurd hedited (hnot originalBody editedBody horiginal)
    rw [hnone, Option.none_or]
    exact hdraft

/-- **What becomes of the body action of the draft.** -/
theorem rewriteBody_bodyActions (htarget : target.Rewrites isBody) {setBodyText : Str → GeneratedFilterAction}
    (hdraft : filter.actions.filter isBody
      = (draftBodyAction setBodyText original.bodyText edited.bodyText).toList) :
    (rewriteBody serde treeSitter debug target original edited filter).actions.filter isBody
      = (bodyAction serde treeSitter target setBodyText original edited).toList := by
  unfold rewriteBody bodyAction
  cases hedited : edited.bodyText with
  | none =>
      have htext := rewriteTextBody_bodyActions treeSitter debug original edited htarget hdraft
      have hnone : textBodyAction treeSitter target original edited = none := by
        unfold textBodyAction
        rw [hedited]
        cases original.bodyText <;> rfl
      dsimp only
      rw [htext, hnone, Option.none_or, draftBodyAction, hedited]
      split_ifs <;> rfl
  | some editedBody =>
      rw [Option.bind_some]
      dsimp only
      split_ifs with hoperations
      · -- the two branches on the validation differ in the note only
        unfold rewriteJsonBody
        dsimp only
        split_ifs
        · rw [GeneratedFilter.addRewriteNote_actions, htarget.replace filter (htarget.patch _ _ _)]
          rfl
        · rw [GeneratedFilter.addRewriteNote_actions, htarget.replace filter (htarget.patch _ _ _)]
          rfl
      · rw [← hedited]
        exact rewriteTextBody_bodyActions treeSitter debug original edited htarget hdraft

/-- The body text a request filter sets as a whole. -/
def setRequestBody (body : Str) : GeneratedFilterAction :=
  .setRequestBodyText body "text/plain; charset=utf-8".toList

/-- The body text a response filter sets as a whole. -/
def setResponseBody (original edited : EditableHttpMessage) (body : Str) : GeneratedFilterAction :=
  .setResponseBodyText body
    ((edited.bodyContentType.or original.bodyContentType).getD "text/plain; charset=utf-8".toList)

variable {original edited} {name : Str}

/-- **The body action of an extracted request filter.** -/
theorem extractRequestFilter_bodyActions
    (h : extractRequestFilterFromEdit serde treeSitter debug uuid name original edited = some filter) :
    filter.actions.filter isRequestBodyRewrite
      = (bodyAction serde treeSitter .request setRequestBody original edited).toList := by
  have hdraft := @filter_draftBodyAction isRequestBodyRewrite setRequestBody (fun _ => rfl) original.bodyText
    edited.bodyText
  unfold extractRequestFilterFromEdit at h
  dsimp only at h
  split_ifs at h <;> cases h <;>
    apply rewriteBody_bodyActions serde treeSitter debug original edited BodyTarget.request_rewrites
  · -- the host header was removed: the filter also drops the request
    rw [GeneratedFilter.addRewriteNote_actions, GeneratedFilter.extendActions_actions,
      GeneratedFilter.extendActions_actions, requestFilter_actions, List.filter_append, List.filter_append,
      (headerActions_not_bodyRewrite _).1, List.append_nil]
    exact (List.append_nil _).trans hdraft
  · rw [GeneratedFilter.extendActions_actions, requestFilter_actions, List.filter_append,
      (headerActions_not_bodyRewrite _).1, List.append_nil]
    exact hdraft

/-- **The body action of an extracted response filter.** -/
theorem extractResponseFilter_bodyActions {requestContext : EditableHttpMessage}
    (h : extractResponseFilterFromEdit serde treeSitter debug uuid name requestContext original edited
      = some filter) :
    filter.actions.filter isResponseBodyRewrite
      = (bodyAction serde treeSitter .response (setResponseBody original edited) original edited).toList := by
  have hdraft := @filter_draftBodyAction isResponseBodyRewrite (setResponseBody original edited) (fun _ => rfl)
    original.bodyText edited.bodyText
  unfold extractResponseFilterFromEdit EditableHttpMessage.toResponseInput at h
  dsimp only at h
  split_ifs at h
  obtain ⟨originalResponse, horiginal, h⟩ := Option.bind_eq_some_iff.mp h
  obtain ⟨editedResponse, hedited, rfl⟩ := Option.map_eq_some_iff.mp h
  obtain ⟨originalStatus, -, rfl⟩ := Option.map_eq_some_iff.mp horiginal
  obtain ⟨editedStatus, -, rfl⟩ := Option.map_eq_some_iff.mp hedited
  apply rewriteBody_bodyActions serde treeSitter debug original edited BodyTarget.response_rewrites
  rw [GeneratedFilter.extendActions_actions, responseFilter_actions, List.filter_append, List.filter_append,
    (headerActions_not_bodyRewrite _).2, List.append_nil]
  refine Eq.trans ?_ hdraft
  dsimp only
  split_ifs <;> rfl

end Extracted

end Inspect.Filters
