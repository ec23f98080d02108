import Inspect.Filters.Correctness.FrontMatter
import Inspect.Filters.Correctness.Glob
import Inspect.Filters.EditorText
import Inspect.Filters.Runtime.Compiled

/-!
# `Filters.Correctness.GeneratedMatch` — a generated filter matches the message it is generated from

A generated filter acts on a message if its trigger matches and its conditions hold; the two together are its
`guard`. The drafts set the guard, from the captured message alone, and everything `extract_request_filter_from_edit`
and `extract_response_filter_from_edit` do afterwards leaves it as it is. What is left are facts about the texts in
it: a host matches itself as a pattern, the path matches the pattern made of its directory, and the anchors are parts
of the texts they are taken from.
-/

namespace Inspect.Filters

open Glob

/-! ## When a generated filter acts -/

/-- The condition, as Roto evaluates it in a function that is shown a request. -/
def GeneratedFilterCondition.holdsRequest (req : RotoRequestData) : GeneratedFilterCondition → Bool
  | .requestHostEq value => req.host == value
  | .requestHostContains value => Text.contains value req.host
  | .requestPathEq value => req.path == value
  | .requestPathContains value => Text.contains value req.path
  | .requestMethodEq value => req.method == value
  | .requestQueryContains value => Text.contains value req.query
  -- there is no `res` in such a function
  | .responseStatusEq _ | .responseStatusAtLeast _ | .responseContentTypeContains _ | .responseBodyContains _
  | .responseBodyContainsAll _ => false

/-- The condition, as Roto evaluates it in a function that is shown a response. -/
def GeneratedFilterCondition.holdsResponse (res : RotoResponseData) : GeneratedFilterCondition → Bool
  | .responseStatusEq value => res.status == value
  | .responseStatusAtLeast value => value ≤ res.status
  | .responseContentTypeContains value => Text.contains value res.contentType
  | .responseBodyContains value => Text.contains value res.bodyText
  | .responseBodyContainsAll values => values.all fun value => Text.contains value res.bodyText
  -- there is no `req` in such a function
  | .requestHostEq _ | .requestHostContains _ | .requestPathEq _ | .requestPathContains _ | .requestMethodEq _
  | .requestQueryContains _ => false

/-- What the filters of a request look at. -/
def FilterRequest.view (request : FilterRequest) : FilterRequestView := ⟨request.host, request.path, request.method⟩

/-- What decides whether a filter acts on a message. -/
structure FilterGuard where
  trigger : FilterTrigger
  conditions : List GeneratedFilterCondition

def GeneratedFilter.guard (filter : GeneratedFilter) : FilterGuard :=
  ⟨(expectedMetadata filter).trigger, filter.conditions⟩

/-- The request passes the guard. -/
structure FilterGuard.MatchesRequest (guard : FilterGuard) (request : FilterRequest) : Prop where
  trigger : guard.trigger.matchesRequest request.view = true
  conditions : ∀ condition ∈ guard.conditions,
    condition.holdsRequest (RotoRequestData.fromFilterRequest request) = true

/-- The response to the request passes the guard. -/
structure FilterGuard.MatchesResponse (guard : FilterGuard) (request : FilterRequest) (response : FilterResponse) :
    Prop where
  trigger : guard.trigger.matchesResponse request.view = true
  conditions : ∀ condition ∈ guard.conditions,
    condition.holdsResponse (RotoResponseData.fromFilterResponse response) = true

/-! ## What leaves the guard as it is -/

namespace GeneratedFilter

@[simp] theorem guard_addRewriteNote (filter : GeneratedFilter) (note : Str) :
    (filter.addRewriteNote note).guard = filter.guard := rfl

@[simp] theorem guard_extendActions (filter : GeneratedFilter) (actions : List GeneratedFilterAction) :
    (filter.extendActions actions).guard = filter.guard := rfl

theorem guard_ite_addRewriteNote (changed : Prop) [Decidable changed] (filter : GeneratedFilter) (note : Str) :
    (if changed then filter.addRewriteNote note else filter).guard = filter.guard := by
  split
  · rfl
  · rfl

@[simp] theorem guard_addIntentNotes (debug : Str → Str) (filter : GeneratedFilter) (intent : BodyRewriteIntent) :
    (filter.addIntentNotes debug intent).guard = filter.guard := by
  unfold addIntentNotes
  cases anchorNote debug intent.anchor with
  | none => rfl
  | some note => rfl

end GeneratedFilter

/-- The target replaces actions only. -/
def BodyTarget.KeepsGuard (target : BodyTarget) : Prop :=
  ∀ filter action, (target.replaceAction filter action).guard = filter.guard

theorem BodyTarget.request_keepsGuard : BodyTarget.request.KeepsGuard := fun _ _ => rfl

theorem BodyTarget.response_keepsGuard : BodyTarget.response.KeepsGuard := fun _ _ => rfl

section Extract

variable {N : Type} [BEq N] (serde : SerdeJson N) (treeSitter : BodyLanguage → Str → Option SyntaxNode)
  (debug : Str → Str) (uuid : Str)

theorem guard_rewriteJsonBody {target : BodyTarget} (htarget : target.KeepsGuard)
    (original edited : EditableHttpMessage) (editedBody : Str) (filter : GeneratedFilter) :
    (rewriteJsonBody serde target original edited editedBody filter).guard = filter.guard := by
  unfold rewriteJsonBody
  dsimp only
  split
  · exact htarget filter _
  · exact htarget filter _

theorem guard_rewriteTextBody {target : BodyTarget} (htarget : target.KeepsGuard)
    (original edited : EditableHttpMessage) (filter : GeneratedFilter) :
    (rewriteTextBody treeSitter debug target original edited filter).guard = filter.guard := by
  unfold rewriteTextBody
  split
  · split
    · rfl
    · split
      · rfl
      · rw [GeneratedFilter.guard_addIntentNotes, htarget]
  · rfl

/-- **The body action has no part in the guard.** -/
theorem guard_rewriteBody {target : BodyTarget} (htarget : target.KeepsGuard)
    (original edited : EditableHttpMessage) (filter : GeneratedFilter) :
    (rewriteBody serde treeSitter debug target original edited filter).guard = filter.guard := by
  unfold rewriteBody
  split
  · split
    · exact guard_rewriteJsonBody serde htarget original edited _ filter
    · exact guard_rewriteTextBody treeSitter debug htarget original edited filter
  · exact guard_rewriteTextBody treeSitter debug htarget original edited filter

/-- The guard of an extracted request filter is the guard of its draft. -/
theorem guard_extractRequestFilterFromEdit {name : Str} {original edited : EditableHttpMessage}
    {filter : GeneratedFilter}
    (h : extractRequestFilterFromEdit serde treeSitter debug uuid name original edited = some filter) :
    filter.guard = (requestFilter debug uuid name original.toRequestInput edited.toRequestInput).guard := by
  unfold extractRequestFilterFromEdit at h
  split at h
  · cases h
  dsimp only at h
  split at h
  · cases h
  rw [← Option.some.inj h, guard_rewriteBody serde treeSitter debug BodyTarget.request_keepsGuard]
  split
  · rw [GeneratedFilter.guard_addRewriteNote, GeneratedFilter.guard_extendActions,
      GeneratedFilter.guard_extendActions]
  · rw [GeneratedFilter.guard_extendActions]

/-- The guard of an extracted response filter is the guard of its draft. -/
theorem guard_extractResponseFilterFromEdit {name : Str} {requestContext original edited : EditableHttpMessage}
    {filter : GeneratedFilter}
    (h : extractResponseFilterFromEdit serde treeSitter debug uuid name requestContext original edited
      = some filter) :
    ∃ originalResponse editedResponse, original.toResponseInput = some originalResponse
      ∧ filter.guard
        = (responseFilter debug uuid name requestContext.toRequestInput originalResponse editedResponse).guard := by
  unfold extractResponseFilterFromEdit at h
  split at h
  · cases h
  dsimp only at h
  split at h
  · cases h
  obtain ⟨originalResponse, horiginal, hfilter⟩ := Option.bind_eq_some_iff.mp h
  obtain ⟨editedResponse, -, rfl⟩ := Option.map_eq_some_iff.mp hfilter
  refine ⟨originalResponse, editedResponse, horiginal, ?_⟩
  rw [guard_rewriteBody serde treeSitter debug BodyTarget.response_keepsGuard, GeneratedFilter.guard_extendActions]

end Extract

/-! ## The trigger -/

/-- A text matches itself as a pattern, whatever wildcards are in it. -/
theorem globMatch_self (text : Str) : globMatch text (Text.toAsciiLowercase text) = true := by
  rw [globMatch_iff, Text.toAsciiLowercase_toAsciiLowercase]
  refine ⟨matches_self _, ?_⟩
  by_cases hopen : (Text.toAsciiLowercase text).getLast? = some '*'
  · exact Or.inl hopen
  · exact Or.inr fun front hprefix hne => not_matches_proper_prefix hopen hprefix hne

/-- Whatever a text goes on with, it matches the pattern of the text and a wildcard. -/
theorem globMatch_append_star (front rest : Str) : globMatch (front ++ ['*']) (front ++ rest) = true := by
  have hlower : Text.toAsciiLowercase (front ++ ['*']) = Text.toAsciiLowercase front ++ ['*'] := by
    unfold Text.toAsciiLowercase
    rw [List.map_append]
    rfl
  have hvalue : Text.toAsciiLowercase (front ++ rest) = Text.toAsciiLowercase front ++ Text.toAsciiLowercase rest :=
    List.map_append
  rw [globMatch_iff, hlower, hvalue]
  exact ⟨(matches_self _).append_star _, Or.inl List.getLast?_concat⟩

/-- **A path matches its trigger.** -/
theorem globMatch_pathTriggerForOriginalPath (path : Str) : globMatch (pathTriggerForOriginalPath path) path = true := by
  have hall : globMatch "*".toList path = true := globMatch_append_star [] path
  unfold pathTriggerForOriginalPath
  split
  · exact hall
  split
  · -- the directory itself
    have hself := globMatch_append_star path []
    rwa [List.append_nil] at hself
  split
  · rename_i hslash
    obtain ⟨rest, hpath⟩ := List.rdropWhile_prefix (fun c => decide (c ≠ '/')) path
    dsimp only
    split
    · -- the only slash is the first character
      rename_i hfirst
      have hbefore : path.rdropWhile (fun c => decide (c ≠ '/')) = ['/'] := by
        have hne : path.rdropWhile (fun c => decide (c ≠ '/')) ≠ [] := by
          intro hnil
          have hall := List.rdropWhile_eq_nil_iff.mp hnil '/' hslash
          simp at hall
        have hlast := List.rdropWhile_last_not _ path hne
        have hconcat := List.dropLast_append_getLast hne
        rw [hfirst, List.nil_append] at hconcat
        rw [← hconcat]
        exact congrArg ([·]) (by simpa using hlast)
      have hmatch := globMatch_append_star ['/'] rest
      rw [← hbefore, hpath] at hmatch
      rwa [hbefore] at hmatch
    · have hmatch := globMatch_append_star (path.rdropWhile fun c => decide (c ≠ '/')) rest
      rwa [hpath] at hmatch
  · exact hall

/-! ## The anchors -/

theorem contentTypePrefix_isInfix (contentType : Str) : contentTypePrefix contentType <:+: contentType :=
  (Text.trim_infix _).trans (List.takeWhile_prefix _).isInfix

/-- An anchor is a part of the original. -/
theorem isInfix_of_commonTextAnchor {original edited anchor : Str} (h : commonTextAnchor original edited = some anchor) :
    anchor <:+: original := by
  unfold commonTextAnchor at h
  dsimp only at h
  split at h
  · -- the start of a line, without the blanks around it
    rename_i hfind
    obtain ⟨line, hline, hanchor⟩ := List.mem_map.mp (List.mem_of_find?_eq_some hfind)
    obtain ⟨source, hsource, rfl⟩ := List.mem_map.mp (List.mem_of_mem_filter hline)
    rw [← Option.some.inj h, ← hanchor]
    exact ((List.take_prefix _ _).isInfix.trans (Text.trim_infix _)).trans (Text.infix_of_mem_lines hsource)
  · split at h
    · rw [← Option.some.inj h]
      exact (List.take_prefix _ _).isInfix
    · cases h

/-- The anchor of a body is a part of it. -/
theorem responseBodyRewriteAnchor_holds {originalBodyText editedBodyText : Option Str}
    {condition : GeneratedFilterCondition}
    (h : responseBodyRewriteAnchor originalBodyText editedBodyText = some condition) :
    ∃ anchor, condition = .responseBodyContains anchor ∧ anchor <:+: originalBodyText.getD [] := by
  obtain ⟨original, rfl, hedited⟩ := Option.bind_eq_some_iff.mp h
  obtain ⟨edited, rfl, hanchor⟩ := Option.bind_eq_some_iff.mp hedited
  split at hanchor
  · cases hanchor
  · obtain ⟨anchor, hcommon, rfl⟩ := Option.map_eq_some_iff.mp hanchor
    exact ⟨anchor, rfl, (isInfix_of_commonTextAnchor hcommon).trans (Text.trim_infix original)⟩

/-! ## The drafts -/

/-- The guard that a builder has put together so far. -/
def GeneratedFilterBuilder.guard (builder : GeneratedFilterBuilder) : FilterGuard where
  trigger := ⟨builder.trigger.normalized.host, builder.trigger.normalized.path, builder.trigger.normalized.method,
    [filterPhase builder.phase]⟩
  conditions := builder.conditions

namespace GeneratedFilterBuilder

variable (builder : GeneratedFilterBuilder)

@[simp] theorem guard_condition (condition : GeneratedFilterCondition) :
    (builder.condition condition).guard
      = ⟨builder.guard.trigger, builder.guard.conditions ++ [condition]⟩ := rfl

@[simp] theorem guard_action (action : GeneratedFilterAction) : (builder.action action).guard = builder.guard := rfl

@[simp] theorem guard_build (uuid : Str) : (builder.build uuid).guard = builder.guard := rfl

/-- An action that is only taken if something has changed. -/
theorem guard_ite_action (changed : Prop) [Decidable changed] (action : GeneratedFilterAction) :
    (if changed then builder.action action else builder).guard = builder.guard := by
  split
  · rfl
  · rfl

/-- A condition that is only put in if it is needed. -/
theorem guard_ite_condition (needed : Prop) [Decidable needed] (condition : GeneratedFilterCondition) :
    (if needed then builder.condition condition else builder).guard
      = ⟨builder.guard.trigger, builder.guard.conditions ++ if needed then [condition] else []⟩ := by
  split
  · rfl
  · rw [List.append_nil]

end GeneratedFilterBuilder

section Drafts

variable (debug : Str → Str) (uuid : Str)

/-- The guard of a request draft. -/
theorem guard_requestFilter (name : Str) (original edited : GeneratedRewriteRequestInput) :
    (requestFilter debug uuid name original edited).guard
      = ⟨⟨[chooseOriginalHost original.host edited.host], [pathTriggerForOriginalPath original.path],
          [original.method], [.request]⟩,
        [.requestPathEq original.path]
          ++ (if original.query ≠ [] then [.requestQueryContains original.query] else [])
          ++ (if original.method ≠ edited.method then [.requestMethodEq original.method] else [])⟩ := by
  unfold requestFilter
  dsimp only
  rw [GeneratedFilter.guard_ite_addRewriteNote, GeneratedFilter.guard_ite_addRewriteNote,
    GeneratedFilter.guard_ite_addRewriteNote, GeneratedFilter.guard_addRewriteNote,
    GeneratedFilterBuilder.guard_build]
  cases hbody : edited.bodyText with
  | none =>
      dsimp only
      rw [GeneratedFilterBuilder.guard_ite_condition, GeneratedFilterBuilder.guard_ite_condition,
        GeneratedFilterBuilder.guard_action, GeneratedFilterBuilder.guard_condition]
      rfl
  | some body =>
      dsimp only
      rw [GeneratedFilterBuilder.guard_ite_action, GeneratedFilterBuilder.guard_ite_condition,
        GeneratedFilterBuilder.guard_ite_condition, GeneratedFilterBuilder.guard_action,
        GeneratedFilterBuilder.guard_condition]
      rfl

/-- The condition on the content type of a response draft. -/
def contentTypeConditions (contentType : Option Str) : List GeneratedFilterCondition :=
  match contentType with
  | some contentType =>
      if Text.trim contentType ≠ [] then [.responseContentTypeContains (contentTypePrefix contentType)] else []
  | none => []

/-- The guard of a response draft. -/
theorem guard_responseFilter (name : Str) (request : GeneratedRewriteRequestInput)
    (original edited : GeneratedRewriteResponseInput) :
    (responseFilter debug uuid name request original edited).guard
      = ⟨⟨[request.host], [pathTriggerForOriginalPath request.path], [request.method], [.response]⟩,
        [.responseStatusEq original.status] ++ contentTypeConditions original.contentType
          ++ (responseBodyRewriteAnchor original.bodyText edited.bodyText).toList⟩ := by
  unfold responseFilter
  dsimp only
  rw [GeneratedFilter.guard_addRewriteNote, GeneratedFilterBuilder.guard_build]
  generalize responseBodyRewriteAnchor original.bodyText edited.bodyText = anchor
  generalize original.contentType = contentType
  -- the body only adds actions, so the guard is decided by the anchor and the content type
  cases edited.bodyText <;> cases anchor <;> cases contentType <;>
    simp only [GeneratedFilterBuilder.guard_ite_action, GeneratedFilterBuilder.guard_ite_condition,
      GeneratedFilterBuilder.guard_condition, contentTypeConditions, Option.toList, List.append_nil] <;>
    rfl

end Drafts

/-! ## A filter matches the message it is generated from -/

/-- What is the same for requests and responses. -/
theorem matchesIn_draft {phase : FilterPhase} (request : FilterRequest) :
    FilterTrigger.matchesIn ⟨[request.host], [pathTriggerForOriginalPath request.path], [request.method], [phase]⟩
      phase request.view = true := by
  unfold FilterTrigger.matchesIn FilterTrigger.matchesPhase FilterTrigger.matchesHost FilterTrigger.matchesPath
    FilterTrigger.matchesMethod matchesAnyGlob FilterRequest.view
  have hphase : List.contains [phase] phase = true := by
    rw [List.contains_eq_mem]
    exact decide_eq_true List.mem_cons_self
  have hmethod : Text.eqIgnoreAsciiCase request.method request.method = true := beq_self_eq_true _
  simp only [List.any_cons, List.any_nil, List.isEmpty_cons, Bool.or_false, Bool.false_or,
    globMatch_self, globMatch_pathTriggerForOriginalPath, hphase, hmethod, Bool.and_self]

/-- The request passes the guard of a draft made from it. -/
theorem matchesRequest_requestFilter (debug : Str → Str) (uuid name : Str) (request : FilterRequest)
    (edited : GeneratedRewriteRequestInput) (hhost : Text.trim request.host ≠ []) :
    (requestFilter debug uuid name (EditableHttpMessage.fromFilterRequest request).toRequestInput
      edited).guard.MatchesRequest request := by
  have hchosen : chooseOriginalHost request.host edited.host = request.host := if_pos hhost
  rw [guard_requestFilter]
  refine ⟨?_, ?_⟩
  · show FilterTrigger.matchesIn ⟨[chooseOriginalHost request.host edited.host], _, _, _⟩ .request _ = true
    rw [hchosen]
    exact matchesIn_draft request
  · intro condition hcondition
    rw [List.mem_append, List.mem_append, List.mem_singleton] at hcondition
    rcases hcondition with (rfl | hquery) | hmethod
    · exact beq_self_eq_true request.path
    · split at hquery
      · rw [List.mem_singleton.mp hquery]
        exact Text.contains_of_infix List.infix_rfl
      · cases hquery
    · split at hmethod
      · rw [List.mem_singleton.mp hmethod]
        exact beq_self_eq_true request.method
      · cases hmethod

/-- What an editable body keeps of a captured one. -/
theorem editableBodyFromFilterBody_bodyText (body : FilterBody) :
    (editableBodyFromFilterBody body).bodyText = body.text := by
  unfold editableBodyFromFilterBody
  cases body.text with
  | some text => rfl
  | none =>
      dsimp only
      split
      · rfl
      · rfl

theorem editableBodyFromFilterBody_bodyContentType (body : FilterBody) :
    (editableBodyFromFilterBody body).bodyContentType = body.contentType
      ∨ (editableBodyFromFilterBody body).bodyContentType = none := by
  unfold editableBodyFromFilterBody
  cases body.text with
  | some text => exact Or.inl rfl
  | none =>
      dsimp only
      split
      · exact Or.inr rfl
      · exact Or.inl rfl

/-- The start of a content type is a part of it. -/
theorem contentTypeConditions_holds {res : RotoResponseData} {contentType : Option Str}
    {condition : GeneratedFilterCondition} (h : condition ∈ contentTypeConditions contentType)
    (hres : res.contentType = contentType.getD []) : condition.holdsResponse res = true := by
  unfold contentTypeConditions at h
  cases contentType with
  | none => cases h
  | some contentType =>
      dsimp only at h
      split at h
      · rw [List.mem_singleton.mp h]
        refine Text.contains_of_infix ?_
        rw [hres]
        exact contentTypePrefix_isInfix contentType
      · cases h

/-- The response passes the guard of a draft made from it. -/
theorem matchesResponse_responseFilter (debug : Str → Str) (uuid name : Str) (request : FilterRequest)
    (response : FilterResponse) (original edited : GeneratedRewriteResponseInput)
    (horiginal : (EditableHttpMessage.fromFilterResponse request response).toResponseInput = some original) :
    (responseFilter debug uuid name (EditableHttpMessage.fromFilterRequest request).toRequestInput original
      edited).guard.MatchesResponse request response := by
  rw [guard_responseFilter]
  cases horiginal
  refine ⟨matchesIn_draft request, ?_⟩
  intro condition hcondition
  rw [List.mem_append, List.mem_append, List.mem_singleton] at hcondition
  rcases hcondition with (rfl | hcontentType) | hanchor
  · exact beq_self_eq_true response.status
  · have hmem : condition ∈ contentTypeConditions (editableBodyFromFilterBody response.body).bodyContentType :=
      hcontentType
    rcases editableBodyFromFilterBody_bodyContentType response.body with hsame | hnone
    · rw [hsame] at hmem
      exact contentTypeConditions_holds hmem rfl
    · rw [hnone] at hmem
      cases hmem
  · obtain ⟨anchor, rfl, hinfix⟩ := responseBodyRewriteAnchor_holds (Option.mem_toList.mp hanchor)
    have hbody : anchor <:+: ((editableBodyFromFilterBody response.body).bodyText).getD [] := hinfix
    rw [editableBodyFromFilterBody_bodyText] at hbody
    exact Text.contains_of_infix hbody

section Generate

variable {N : Type} [BEq N] (serde : SerdeJson N) (treeSitter : BodyLanguage → Str → Option SyntaxNode)
  (debug : Str → Str) (uuid : Str)

/-- A generated request filter matches the request it was generated from, whatever the edited text is. -/
theorem generateRequestFilterFromEditedText_matches (name : Str) (request : FilterRequest) (editedText : Str)
    (filter : GeneratedFilter) (hhost : Text.trim request.host ≠ [])
    (h : generateRequestFilterFromEditedText serde treeSitter debug uuid name request editedText = .ok filter) :
    filter.guard.MatchesRequest request := by
  unfold generateRequestFilterFromEditedText at h
  dsimp only at h
  split at h
  · cases h
  split at h
  · cases h
  split at h
  · rename_i hextract
    cases h
    rw [guard_extractRequestFilterFromEdit serde treeSitter debug uuid hextract]
    exact matchesRequest_requestFilter debug uuid name request _ hhost
  · cases h

/-- A generated response filter matches the response it was generated from, and the request of it. -/
theorem generateResponseFilterFromEditedText_matches (name : Str) (request : FilterRequest)
    (response : FilterResponse) (editedText : Str) (filter : GeneratedFilter)
    (h : generateResponseFilterFromEditedText serde treeSitter debug uuid name request response editedText
      = .ok filter) :
    filter.guard.MatchesResponse request response := by
  unfold generateResponseFilterFromEditedText at h
  dsimp only at h
  split at h
  · cases h
  split at h
  · cases h
  split at h
  · cases h
  split at h
  · rename_i hextract
    cases h
    obtain ⟨original, edited, horiginal, hguard⟩ :=
      guard_extractResponseFilterFromEdit serde treeSitter debug uuid hextract
    rw [hguard]
    exact matchesResponse_responseFilter debug uuid name request response original edited horiginal
  · cases h

/-- **A generated filter matches the message it was generated from**, whatever the edited text is: its trigger the
    request, and its conditions the request or the response it is for. -/
theorem generatedFilter_matches_original (name : Str) (request : FilterRequest) (editedText : Str) :
    (∀ filter, Text.trim request.host ≠ []
        → generateRequestFilterFromEditedText serde treeSitter debug uuid name request editedText = .ok filter
        → filter.guard.MatchesRequest request)
      ∧ ∀ response filter,
          generateResponseFilterFromEditedText serde treeSitter debug uuid name request response editedText
            = .ok filter
          → filter.guard.MatchesResponse request response := by
  refine ⟨?_, ?_⟩
  · intro filter hhost h
    exact generateRequestFilterFromEditedText_matches serde treeSitter debug uuid name request editedText filter
      hhost h
  · intro response filter h
    exact generateResponseFilterFromEditedText_matches serde treeSitter debug uuid name request response editedText
      filter h

end Generate

/-- A request with wildcards in its host and its path. -/
def wildcardRequest : FilterRequest where
  id := "1".toList
  seq := 1
  flowKey := "flow".toList
  method := "POST".toList
  scheme := "https".toList
  host := "*.Example.com".toList
  path := "/a*/b".toList
  query := "q=1".toList
  version := "HTTP/1.1".toList
  headers := []
  body := ⟨[97], some "a".toList, some "text/plain".toList, none, false⟩
  tlsSni := none

/-- The text of an editor in which the body of the request has been changed. -/
def wildcardRequestEdited : Str := "\nheaders:\n\nbody:\nb".toList

/-- Its filter matches it. -/
theorem generatedFilter_matches_wildcardRequest :
    ∃ filter, generateRequestFilterFromEditedText JsonCodec.codec (fun _ _ => none) id "u".toList "n".toList
        wildcardRequest wildcardRequestEdited = .ok filter
      ∧ filter.guard.MatchesRequest wildcardRequest := by
  cases hfilter : generateRequestFilterFromEditedText JsonCodec.codec (fun _ _ => none) id "u".toList "n".toList
      wildcardRequest wildcardRequestEdited with
  | error error =>
      have hok : (generateRequestFilterFromEditedText JsonCodec.codec (fun _ _ => none) id "u".toList "n".toList
          wildcardRequest wildcardRequestEdited).toOption.isSome = true := by decide +kernel
      rw [hfilter] at hok
      cases hok
  | ok filter =>
      exact ⟨filter, rfl, (generatedFilter_matches_original JsonCodec.codec (fun _ _ => none) id "u".toList
        "n".toList wildcardRequest wildcardRequestEdited).1 filter (by decide +kernel) hfilter⟩

end Inspect.Filters
