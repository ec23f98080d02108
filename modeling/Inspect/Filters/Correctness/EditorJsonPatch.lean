import Inspect.Filters.Correctness.EditorBody
import Inspect.Filters.Correctness.JsonPatchValidation

/-!
# `Filters.Correctness.EditorJsonPatch` — the patch of an extracted filter

A filter extracted from an edit of a JSON body holds the patch of the diff, whether it validates or not. The edits
whose patch does not validate are `PatchFails`: a body that was empty before, and a change of a JSON body of which the
patched body misses something.
-/

namespace Inspect.Filters

/-! ## The operations of an edit -/

section Operations

variable {N : Type} {serde : SerdeJson N}

/-- Only the events of a JSON body become operations. -/
theorem operationsFromDiffEvents_eq_nil {events : List DiffEvent}
    (h : ∀ event ∈ events, event.source ≠ .body .json) : jsonPatchOperationsFromDiffEvents serde events = [] := by
  unfold jsonPatchOperationsFromDiffEvents
  rw [List.filterMap_eq_nil_iff]
  intro event hmem
  unfold jsonPatchOperationFromDiffEvent
  rw [if_pos (h event hmem)]

theorem source_of_mem_pushOptionalReplace {A : Type} [DecidableEq A] {path : DiffPath} {node : A → DiffNode}
    {old new : Option A} {source : DiffSource} {event : DiffEvent}
    (h : event ∈ pushOptionalReplace path node old new source) : event.source = source := by
  unfold pushOptionalReplace at h
  split_ifs at h
  · cases h
  · split at h <;> simp only [List.mem_singleton, List.not_mem_nil] at h <;> rw [h] <;> rfl

theorem source_of_mem_pushStringReplace {path : DiffPath} {old new : Str} {source : DiffSource}
    {event : DiffEvent} (h : event ∈ pushStringReplace path old new source) : event.source = source := by
  unfold pushStringReplace at h
  split_ifs at h
  · cases h
  · rw [List.mem_singleton.mp h]
    rfl

theorem source_of_mem_pushHeaderDiffEvents {original edited : List EditableHttpHeader} {event : DiffEvent}
    (h : event ∈ pushHeaderDiffEvents original edited) : event.source = .header := by
  unfold pushHeaderDiffEvents at h
  rcases List.mem_append.mp h with h | h
  · obtain ⟨header, -, h⟩ := List.mem_flatMap.mp h
    dsimp only at h
    split at h
    · split_ifs at h
      · rw [List.mem_singleton.mp h]
        rfl
      · cases h
    · rw [List.mem_singleton.mp h]
      rfl
  · obtain ⟨header, -, h⟩ := List.mem_flatMap.mp h
    split_ifs at h
    · rw [List.mem_singleton.mp h]
      rfl
    · cases h

variable [BEq N]

/-- The operations of an edit come from the bodies alone. -/
theorem editOperations_eq (original edited : EditableHttpMessage) :
    editOperations serde original edited
      = jsonPatchOperationsFromDiffEvents serde (pushBodyDiffEvents serde original.body edited.body) := by
  have hrest : ∀ event ∈ pushOptionalReplace DiffPath.method .string original.method edited.method .httpMeta
      ++ pushOptionalReplace DiffPath.scheme .string original.scheme edited.scheme .httpMeta
      ++ pushStringReplace DiffPath.host original.host edited.host .url
      ++ pushStringReplace DiffPath.path original.path edited.path .url
      ++ pushStringReplace DiffPath.query original.query edited.query .url
      ++ pushOptionalReplace DiffPath.status (fun status => .number (Nat.toDigits 10 status.toNat))
          original.status edited.status .httpMeta
      ++ pushHeaderDiffEvents original.headers edited.headers, event.source ≠ .body .json := by
    intro event hmem
    simp only [List.mem_append] at hmem
    rcases hmem with ((((((h | h) | h) | h) | h) | h) | h)
    · rw [source_of_mem_pushOptionalReplace h]; decide
    · rw [source_of_mem_pushOptionalReplace h]; decide
    · rw [source_of_mem_pushStringReplace h]; decide
    · rw [source_of_mem_pushStringReplace h]; decide
    · rw [source_of_mem_pushStringReplace h]; decide
    · rw [source_of_mem_pushOptionalReplace h]; decide
    · rw [source_of_mem_pushHeaderDiffEvents h]; decide
  unfold editOperations EditableHttpMessage.semanticDiff
  have happend : ∀ events events', jsonPatchOperationsFromDiffEvents serde (events ++ events')
      = jsonPatchOperationsFromDiffEvents serde events ++ jsonPatchOperationsFromDiffEvents serde events' :=
    fun _ _ => List.filterMap_append
  rw [happend, operationsFromDiffEvents_eq_nil hrest, List.nil_append]

/-! ## Validation -/

variable {original edited : Str} {originalJson editedJson : Json N}

/-- Bodies that differ have a patch. -/
theorem jsonDiffOperations_ne_nil (hlaws : serde.Laws) (horiginal : originalJson.WellFormed)
    (hedited : editedJson.WellFormed) (h : originalJson.beq editedJson = false) :
    jsonDiffOperations serde originalJson editedJson ≠ [] := by
  intro hnil
  have hdecode := mapM_jsonDiffOperations serde originalJson editedJson
  rw [hnil, List.map_nil] at hdecode
  have hpatch : patchOf originalJson editedJson = [] := List.map_eq_nil_iff.mp (Option.some.inj hdecode).symm
  rw [(patchOf_eq_nil_iff hlaws.number_refl horiginal hedited).mp hpatch] at h
  cases h

/-- The diff of equal values is empty. -/
theorem jsonDiffOperations_of_beq (h : originalJson.beq editedJson = true) :
    jsonDiffOperations serde originalJson editedJson = [] := by
  unfold jsonDiffOperations diffJsonValue
  rw [if_pos h]
  rfl

/-- The diff of two texts is taken as JSON: one looks like it, and both are. -/
def DiffedAsJson (serde : SerdeJson N) (original edited : Str) (contentType : Option Str)
    (originalJson editedJson : Json N) : Prop :=
  (looksLikeJson contentType original = true ∨ looksLikeJson contentType edited = true)
    ∧ serde.fromStr original = some originalJson ∧ serde.fromStr edited = some editedJson

/-- The recursion limit of `serde_json`: it reads so many arrays and objects in one another. -/
def recursionLimit : Nat := 127

/-- The edits whose patch does not validate: a JSON body where there was none, and JSON bodies that differ and of which
    the patched body misses something. -/
def PatchFails (serde : SerdeJson N) : EditableHttpBody → EditableHttpBody → Prop
  | .empty, .text edited contentType =>
      looksLikeJson contentType edited = true ∧ ∃ editedJson, serde.fromStr edited = some editedJson
  | .text original contentType, .text edited contentType' =>
      ∃ originalJson editedJson,
        DiffedAsJson serde original edited (contentType.or contentType') originalJson editedJson
          ∧ originalJson.beq editedJson = false ∧ Misses serde recursionLimit originalJson editedJson
  | _, _ => False

theorem pushJsonBodyDiffEvents_eq_some_iff {contentType : Option Str} {events : List DiffEvent} :
    pushJsonBodyDiffEvents serde original edited contentType = some events
      ↔ ∃ originalJson editedJson, DiffedAsJson serde original edited contentType originalJson editedJson
          ∧ diffJsonValue serde [] originalJson editedJson = events := by
  unfold pushJsonBodyDiffEvents DiffedAsJson
  split_ifs with hlooks
  · simp only [Bool.and_eq_true, Bool.not_eq_true'] at hlooks
    simp [hlooks.1, hlooks.2]
  · have hlooks' : looksLikeJson contentType original = true ∨ looksLikeJson contentType edited = true := by
      revert hlooks
      cases looksLikeJson contentType original <;> cases looksLikeJson contentType edited <;> simp
    constructor
    · intro h
      obtain ⟨originalJson, horiginal, h⟩ := Option.bind_eq_some_iff.mp h
      obtain ⟨editedJson, hedited, h⟩ := Option.map_eq_some_iff.mp h
      exact ⟨originalJson, editedJson, ⟨hlooks', horiginal, hedited⟩, h⟩
    · rintro ⟨originalJson, editedJson, ⟨-, horiginal, hedited⟩, rfl⟩
      rw [horiginal, hedited]
      rfl

/-- Two texts that are diffed as JSON give the operations of the diff of their values. -/
theorem bodyOperations_text (hlaws : serde.Laws) {contentType contentType' : Option Str}
    (h : DiffedAsJson serde original edited (contentType.or contentType') originalJson editedJson) :
    jsonPatchOperationsFromDiffEvents serde
        (pushBodyDiffEvents serde (.text original contentType) (.text edited contentType'))
      = jsonDiffOperations serde originalJson editedJson := by
  unfold pushBodyDiffEvents
  split_ifs with heq
  · -- bodies that are equal are equal as JSON
    cases heq
    obtain rfl := Option.some.inj (h.2.1.symm.trans h.2.2)
    rw [jsonDiffOperations_of_beq (Json.beq_refl hlaws.number_refl (hlaws.fromStr_wellFormed h.2.1))]
    rfl
  · dsimp only
    rw [pushJsonBodyDiffEvents_eq_some_iff.mpr ⟨originalJson, editedJson, h, rfl⟩]
    rfl

/-- A text that is not diffed as JSON gives no operations. -/
theorem bodyOperations_not_json {contentType contentType' : Option Str}
    (h : pushJsonBodyDiffEvents serde original edited (contentType.or contentType') = none) :
    jsonPatchOperationsFromDiffEvents serde
        (pushBodyDiffEvents serde (.text original contentType) (.text edited contentType')) = [] := by
  apply operationsFromDiffEvents_eq_nil
  unfold pushBodyDiffEvents
  dsimp only
  rw [h]
  split_ifs
  · simp
  · simp [DiffEvent.source]

/-- **Which edits have operations.** -/
theorem bodyOperations_ne_nil {body : EditableHttpBody} {editedText : Str}
    {contentType : Option Str}
    (h : jsonPatchOperationsFromDiffEvents serde (pushBodyDiffEvents serde body (.text editedText contentType))
      ≠ []) :
    (body = .empty ∧ looksLikeJson contentType editedText = true
        ∧ ∃ editedJson, serde.fromStr editedText = some editedJson)
      ∨ ∃ originalText originalType originalJson editedJson, body = .text originalText originalType
          ∧ DiffedAsJson serde originalText editedText (originalType.or contentType) originalJson editedJson := by
  cases body with
  | empty =>
      left
      cases hinsert : pushJsonBodyInsertEvent serde editedText contentType with
      | none =>
          refine absurd (operationsFromDiffEvents_eq_nil ?_) h
          unfold pushBodyDiffEvents
          dsimp only
          rw [hinsert]
          simp [DiffEvent.source]
      | some event =>
          unfold pushJsonBodyInsertEvent at hinsert
          split_ifs at hinsert with hlooks
          obtain ⟨editedJson, hparse, -⟩ := Option.map_eq_some_iff.mp hinsert
          exact ⟨rfl, by simpa using hlooks, editedJson, hparse⟩
  | binary bytesLen originalType =>
      refine absurd (operationsFromDiffEvents_eq_nil ?_) h
      unfold pushBodyDiffEvents
      simp [DiffEvent.source]
  | text originalText originalType =>
      right
      cases hdiff : pushJsonBodyDiffEvents serde originalText editedText (originalType.or contentType) with
      | none => exact absurd (bodyOperations_not_json hdiff) h
      | some events =>
          obtain ⟨originalJson, editedJson, hjson, -⟩ := pushJsonBodyDiffEvents_eq_some_iff.mp hdiff
          exact ⟨originalText, originalType, originalJson, editedJson, rfl, hjson⟩

/-! ## The edit -/

/-- `validate_json_patch_operations` of the two body texts of an edit. -/
def Validates (serde : SerdeJson N) (original edited : EditableHttpMessage)
    (operations : List GeneratedJsonPatchOperation) : Prop :=
  ∃ originalBody editedBody, original.bodyText = some originalBody ∧ edited.bodyText = some editedBody
    ∧ validateJsonPatchOperations serde originalBody editedBody operations = true

variable {message message' : EditableHttpMessage}

/-- The operations of an edit validate unless it is one of `PatchFails`. -/
theorem validates_iff_not_patchFails (hlaws : serde.Laws) (hlimit : serde.RecursionLimit recursionLimit)
    {editedBody : Str}
    (hedited : message'.bodyText = some editedBody) (hoperations : editOperations serde message message' ≠ []) :
    Validates serde message message' (editOperations serde message message')
      ↔ ¬ PatchFails serde message.body message'.body := by
  obtain ⟨contentType, hbody'⟩ : ∃ contentType, message'.body = .text editedBody contentType := by
    unfold EditableHttpMessage.bodyText EditableHttpBody.bodyText at hedited
    split at hedited
    · rename_i contentType hbody'
      cases hedited
      exact ⟨contentType, hbody'⟩
    · cases hedited
    · cases hedited
  rw [editOperations_eq, hbody'] at hoperations
  rw [editOperations_eq, hbody']
  unfold Validates EditableHttpMessage.bodyText
  rcases bodyOperations_ne_nil hoperations with ⟨hbody, hlooks, hjson⟩
    | ⟨originalBody, originalType, originalJson, editedJson, hbody, hjson⟩
  · -- there is no original text to validate against
    rw [hbody]
    constructor
    · rintro ⟨originalBody, _, horiginal, -, -⟩
      cases horiginal
    · intro hnot
      exact absurd ⟨hlooks, hjson⟩ hnot
  · rw [hbody, bodyOperations_text hlaws hjson] at hoperations
    rw [hbody, hbody', bodyOperations_text hlaws hjson]
    have hvalidate := validate_diff_iff hlaws hlimit hjson.2.1 hjson.2.2 (by decide)
    have hdiffers : originalJson.beq editedJson = false := by
      rw [← Bool.not_eq_true]
      exact fun hbeq => hoperations (jsonDiffOperations_of_beq hbeq)
    constructor
    · rintro ⟨_, _, horiginal, hedited', hvalid⟩ ⟨_, _, hjson', -, hfails⟩
      cases horiginal
      cases hedited'
      cases hjson.2.1.symm.trans hjson'.2.1
      cases hjson.2.2.symm.trans hjson'.2.2
      exact hvalidate.mp hvalid hfails
    · intro hnot
      refine ⟨originalBody, editedBody, rfl, rfl, hvalidate.mpr ?_⟩
      exact fun hfails => hnot ⟨originalJson, editedJson, hjson, hdiffers, hfails⟩

/-- An edit of `PatchFails` has a text and operations. -/
theorem operations_of_patchFails (hlaws : serde.Laws) (h : PatchFails serde message.body message'.body) :
    (∃ editedBody, message'.bodyText = some editedBody) ∧ editOperations serde message message' ≠ [] := by
  rw [editOperations_eq]
  unfold EditableHttpMessage.bodyText
  unfold PatchFails at h
  split at h
  · rename_i edited contentType hbody hbody'
    obtain ⟨hlooks, editedJson, hparse⟩ := h
    rw [hbody, hbody']
    refine ⟨⟨edited, rfl⟩, ?_⟩
    unfold pushBodyDiffEvents
    dsimp only
    rw [if_neg (by simp), show pushJsonBodyInsertEvent serde edited contentType
        = some (.insert .body (jsonValueToDiffNode serde editedJson) (.body .json)) by
      rw [pushJsonBodyInsertEvent, hlooks, hparse]; rfl]
    intro hnil
    cases hnil
  · rename_i original contentType edited contentType' hbody hbody'
    obtain ⟨originalJson, editedJson, hjson, hdiffers, -⟩ := h
    rw [hbody, hbody', bodyOperations_text hlaws hjson]
    exact ⟨⟨edited, rfl⟩, jsonDiffOperations_ne_nil hlaws (hlaws.fromStr_wellFormed hjson.2.1)
      (hlaws.fromStr_wellFormed hjson.2.2) hdiffers⟩
  · exact h.elim

end Operations

/-! ## The filter -/

section Filter

variable {N : Type} [BEq N] (serde : SerdeJson N)

/-- What the rewrite notes promise of a filter: a patch in it validates, and where the operations of the edit do not
    validate, the edited body is set as a text instead. -/
structure PatchActionSound (applyJsonPatch : List GeneratedJsonPatchOperation → Str → Str → GeneratedFilterAction)
    (setBodyText : Str → Str → GeneratedFilterAction) (original edited : EditableHttpMessage)
    (filter : GeneratedFilter) : Prop where
  validates : ∀ operations body contentType, applyJsonPatch operations body contentType ∈ filter.actions →
    Validates serde original edited operations
  fallback : ∀ editedBody, edited.bodyText = some editedBody → editOperations serde original edited ≠ [] →
    ¬ Validates serde original edited (editOperations serde original edited) →
    ∃ contentType, setBodyText editedBody contentType ∈ filter.actions

variable {serde} {treeSitter : BodyLanguage → Str → Option SyntaxNode} {original edited : EditableHttpMessage}

/-- A filter whose body action is `bodyAction` is sound on exactly the edits whose patch does not fail. -/
theorem patchActionSound_iff_of_bodyActions (hlaws : serde.Laws) (hlimit : serde.RecursionLimit recursionLimit)
    {target : BodyTarget}
    {isBody : GeneratedFilterAction → Bool} {setBody : Str → GeneratedFilterAction}
    {setBodyText : Str → Str → GeneratedFilterAction} {filter : GeneratedFilter} (htarget : target.Rewrites isBody)
    (hset : ∀ body operations body' contentType, setBody body ≠ target.applyJsonPatch operations body' contentType)
    (hactions : filter.actions.filter isBody
      = (bodyAction serde treeSitter target setBody original edited).toList) :
    PatchActionSound serde target.applyJsonPatch setBodyText original edited filter
      ↔ ¬ PatchFails serde original.body edited.body := by
  have hmem : ∀ operations body contentType, target.applyJsonPatch operations body contentType ∈ filter.actions
      ↔ bodyAction serde treeSitter target setBody original edited
        = some (target.applyJsonPatch operations body contentType) := by
    intro operations body contentType
    rw [← Option.mem_toList, ← hactions, List.mem_filter]
    exact (and_iff_left (htarget.patch operations body contentType)).symm
  -- the only patch among the actions is the one of the editor, so validating it is all there is to do
  constructor
  · intro hsound hfails
    obtain ⟨⟨editedBody, hedited⟩, hoperations⟩ := operations_of_patchFails hlaws hfails
    have haction : bodyAction serde treeSitter target setBody original edited
        = some (target.applyJsonPatch (editOperations serde original edited) editedBody
          (edited.bodyContentType.getD "application/json; charset=utf-8".toList)) := by
      rw [bodyAction, hedited, Option.bind_some, if_pos hoperations]
    have hvalid := hsound.validates _ _ _ ((hmem _ _ _).mpr haction)
    exact (validates_iff_not_patchFails hlaws hlimit hedited hoperations).mp hvalid hfails
  · intro hnot
    constructor
    · intro operations body contentType hpatch
      obtain ⟨editedBody, hedited, haction⟩ := Option.bind_eq_some_iff.mp ((hmem _ _ _).mp hpatch)
      split_ifs at haction with hoperations
      · rw [← htarget.patch_inj (Option.some.inj haction)]
        exact (validates_iff_not_patchFails hlaws hlimit hedited hoperations).mpr hnot
      · -- neither a text rewrite nor the draft is a patch
        exfalso
        rcases Option.or_eq_some_iff.mp haction with htext | ⟨-, hdraft⟩
        · obtain ⟨_, -, htext⟩ := Option.bind_eq_some_iff.mp htext
          obtain ⟨_, -, htext⟩ := Option.bind_eq_some_iff.mp htext
          obtain ⟨intent, -, hintent⟩ := Option.bind_eq_some_iff.mp htext
          exact htarget.intent_ne_patch intent operations body contentType hintent
        · unfold draftBodyAction at hdraft
          split_ifs at hdraft
          obtain ⟨text, -, hdraft⟩ := Option.map_eq_some_iff.mp hdraft
          exact hset text operations body contentType hdraft
    · intro editedBody hedited hoperations hinvalid
      exact absurd ((validates_iff_not_patchFails hlaws hlimit hedited hoperations).mpr hnot) hinvalid

variable {debug : Str → Str} {uuid name : Str} {requestContext : EditableHttpMessage} {filter : GeneratedFilter}

/-- **The notes on JSON patches are true of exactly the edits whose patch does not fail**, for requests and for
    responses. -/
theorem patchActionSound_iff_not_patchFails (hlaws : serde.Laws) (hlimit : serde.RecursionLimit recursionLimit) :
    (extractRequestFilterFromEdit serde treeSitter debug uuid name original edited = some filter →
      (PatchActionSound serde .applyRequestJsonPatch .setRequestBodyText original edited filter
        ↔ ¬ PatchFails serde original.body edited.body))
    ∧ (extractResponseFilterFromEdit serde treeSitter debug uuid name requestContext original edited
        = some filter →
      (PatchActionSound serde .applyResponseJsonPatch .setResponseBodyText original edited filter
        ↔ ¬ PatchFails serde original.body edited.body)) := by
  constructor
  · intro h
    exact patchActionSound_iff_of_bodyActions hlaws hlimit BodyTarget.request_rewrites (fun _ _ _ _ h => by cases h)
      (extractRequestFilter_bodyActions serde treeSitter debug uuid h)
  · intro h
    exact patchActionSound_iff_of_bodyActions hlaws hlimit BodyTarget.response_rewrites (fun _ _ _ _ h => by cases h)
      (extractResponseFilter_bodyActions serde treeSitter debug uuid h)

/-- A request to `/` with a JSON body. -/
def jsonRequest (body : String) : EditableHttpMessage :=
  ⟨.request, some "POST".toList, some "http".toList, "h".toList, "/".toList, [], none, [],
    .text body.toList (some "application/json".toList)⟩

/-- A JSON codec with the limit. -/
def deepCodec : SerdeJson Int := JsonCodec.limitedCodec recursionLimit

/-- An edit that takes one item out of an array: the patch in the filter validates. -/
theorem patchActionSound_one_item_less :
    ∃ filter, extractRequestFilterFromEdit deepCodec (fun _ _ => none) id "1".toList "n".toList
        (jsonRequest "[1,2]") (jsonRequest "[1]") = some filter
      ∧ PatchActionSound deepCodec .applyRequestJsonPatch .setRequestBodyText (jsonRequest "[1,2]")
        (jsonRequest "[1]") filter := by
  have hitem : ∀ {index : Nat} {value : Json Int}, ([.number 1] : List (Json Int))[index]? = some value →
      value = .number 1 := fun h => List.mem_singleton.mp (List.mem_of_getElem? h)
  -- nothing comes in, and what stays is read exactly
  have hbrings : ∀ p, ¬ BringsIn p (.array [.number 1, .number 2] : Json Int) (.array [.number 1]) := by
    intro p h
    cases h with
    | replaced hitems => exact hitems _ _ ⟨rfl, rfl⟩
    | newItem hnew h => simp at hnew
    | @item _ _ index value _ hvalue hvalue' h =>
        obtain rfl := hitem hvalue'
        cases index with
        | succ index => simp at hvalue'
        | zero =>
            obtain rfl : Json.number 1 = value := Option.some.inj hvalue
            cases h with
            | replaced _ _ hdiffers => simp [Json.beq] at hdiffers
  have hnot : ¬ PatchFails deepCodec (jsonRequest "[1,2]").body (jsonRequest "[1]").body := by
    rintro ⟨originalJson, editedJson, ⟨-, horiginal, hedited⟩, -, hmisses⟩
    obtain rfl : Json.array [.number 1, .number 2] = originalJson := Option.some.inj horiginal
    obtain rfl : Json.array [.number 1] = editedJson := Option.some.inj hedited
    rcases hmisses with hshrinks | hdeep | hdrifts | hkept
    · cases hshrinks with
      | here h => simp at h
      | item _ hvalue' h =>
          obtain rfl := hitem hvalue'
          cases h
    · exact hbrings _ hdeep
    · exact hbrings _ hdrifts
    · cases hkept with
      | item _ hvalue' h =>
          obtain rfl := hitem hvalue'
          cases h with
          | number hequal h =>
              rw [SerdeJson.Drifts, deepCodec, JsonCodec.limitedCodec_reread, Option.any_some, hequal] at h
              cases h
  obtain ⟨filter, hfilter⟩ := Option.isSome_iff_exists.mp (show (extractRequestFilterFromEdit deepCodec
    (fun _ _ => none) id "1".toList "n".toList (jsonRequest "[1,2]") (jsonRequest "[1]")).isSome = true
      by decide +kernel)
  have hsound := @patchActionSound_iff_not_patchFails Int _ deepCodec (fun _ _ => none)
    (jsonRequest "[1,2]") (jsonRequest "[1]") id "1".toList "n".toList (jsonRequest "[1]") filter
    (JsonCodec.limitedCodec_laws recursionLimit) (JsonCodec.limitedCodec_recursionLimit recursionLimit)
  exact ⟨filter, hfilter, (hsound.1 hfilter).mpr hnot⟩

/-- An edit that takes two items out of an array: the patch does not validate and is in the filter all the same. -/
theorem failed_patch_is_kept :
    ∃ filter, extractRequestFilterFromEdit deepCodec (fun _ _ => none) id "1".toList "n".toList
        (jsonRequest "[1,2]") (jsonRequest "[]") = some filter
      ∧ ¬ PatchActionSound deepCodec .applyRequestJsonPatch .setRequestBodyText (jsonRequest "[1,2]")
        (jsonRequest "[]") filter := by
  obtain ⟨filter, hfilter, hactions⟩ := Option.map_eq_some_iff.mp (show (extractRequestFilterFromEdit
    deepCodec (fun _ _ => none) id "1".toList "n".toList (jsonRequest "[1,2]") (jsonRequest "[]")).map
      GeneratedFilter.actions = some [.mark "generated-n".toList, .applyRequestJsonPatch [.remove "/0".toList,
        .remove "/1".toList] "[]".toList "application/json".toList] by decide +kernel)
  refine ⟨filter, hfilter, fun hsound => ?_⟩
  obtain ⟨_, _, horiginal, hedited, hvalid⟩ := hsound.validates [.remove "/0".toList, .remove "/1".toList]
    "[]".toList "application/json".toList (by rw [hactions]; simp)
  cases horiginal
  cases hedited
  exact absurd hvalid (by decide +kernel)

end Filter

end Inspect.Filters
