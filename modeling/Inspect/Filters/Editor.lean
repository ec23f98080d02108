import Inspect.Filters.Engine.BodyTreeSitter
import Inspect.Filters.Engine.JsonCapture
import Inspect.Filters.Generator

/-!
# `Filters.Editor` — from an edited message to a filter

The embedding of the extraction half of `src/filters/editor.rs`: a captured message and its edited version are
compared, and a filter is drafted that makes the same changes to later messages.

The functions that write a message as text for the editor pane and read it back are in `Filters.EditorText`. As in
`Filters.Generator`, `debug` is `format!("{:?}")` of a text and `uuid` the identifier made for the filter; both
end up in notes and in the filter's id only.
-/

namespace Inspect.Filters

inductive EditableHttpMessageKind
  | request
  | response
deriving DecidableEq, Repr

structure EditableHttpHeader where
  name : Str
  value : Str
deriving DecidableEq, Repr

inductive EditableHttpBody
  | text (text : Str) (contentType : Option Str)
  | binary (bytesLen : Nat) (contentType : Option Str)
  | empty
deriving DecidableEq, Repr

structure EditableHttpMessage where
  kind : EditableHttpMessageKind
  method : Option Str
  scheme : Option Str
  host : Str
  path : Str
  query : Str
  status : Option UInt16
  headers : List EditableHttpHeader
  body : EditableHttpBody
deriving DecidableEq

structure EditableHeaderChange where
  name : Str
  originalValue : Str
  editedValue : Str
deriving DecidableEq, Repr

structure EditableHttpMessageDiff where
  kind : EditableHttpMessageKind
  methodChanged : Bool
  hostChanged : Bool
  pathChanged : Bool
  queryChanged : Bool
  statusChanged : Bool
  addedHeaders : List EditableHttpHeader
  removedHeaders : List EditableHttpHeader
  changedHeaders : List EditableHeaderChange
  bodyChanged : Bool
deriving DecidableEq

/-! ## Messages -/

namespace EditableHttpBody

/-- `body_text`. -/
def bodyText : EditableHttpBody → Option Str
  | .text body _ => some body
  | .binary _ _ | .empty => none

/-- `body_content_type`. -/
def bodyContentType : EditableHttpBody → Option Str
  | .text _ contentType => contentType
  | .binary _ contentType => contentType
  | .empty => none

/-- `body_to_diff_node`. -/
def toDiffNode : EditableHttpBody → DiffNode
  | .text body _ => .text body
  | .binary bytesLen contentType => .binary bytesLen contentType
  | .empty => .null

end EditableHttpBody

/-- `find_header`. -/
def findHeader (headers : List EditableHttpHeader) (name : Str) : Option EditableHttpHeader :=
  headers.find? fun header => Text.eqIgnoreAsciiCase header.name name

namespace EditableHttpMessage

variable (message : EditableHttpMessage)

def bodyText : Option Str := message.body.bodyText

def bodyContentType : Option Str := message.body.bodyContentType

/-- `header_value`. -/
def headerValue (name : Str) : Option Str := (findHeader message.headers name).map EditableHttpHeader.value

/-- `to_request_input`. -/
def toRequestInput : GeneratedRewriteRequestInput :=
  ⟨message.host, message.method.getD "GET".toList, message.path, message.query, message.bodyText⟩

/-- `to_response_input`. -/
def toResponseInput : Option GeneratedRewriteResponseInput :=
  message.status.map fun status => ⟨status, message.bodyContentType, message.bodyText⟩

/-- `EditableHttpMessage::diff`. -/
def diff (original edited : EditableHttpMessage) : EditableHttpMessageDiff where
  kind := original.kind
  methodChanged := original.method != edited.method
  hostChanged := original.host != edited.host
  pathChanged := original.path != edited.path
  queryChanged := original.query != edited.query
  statusChanged := original.status != edited.status
  addedHeaders := edited.headers.filter fun header => (original.headerValue header.name).isNone
  removedHeaders := original.headers.filter fun header => (edited.headerValue header.name).isNone
  changedHeaders := original.headers.filterMap fun header =>
    (edited.headerValue header.name).bind fun editedValue =>
      if header.value = editedValue then none else some ⟨header.name, header.value, editedValue⟩
  bodyChanged := original.bodyText != edited.bodyText

end EditableHttpMessage

namespace EditableHttpMessageDiff

variable (diff : EditableHttpMessageDiff)

/-- `has_changes`. -/
def hasChanges : Bool :=
  diff.methodChanged || diff.hostChanged || diff.pathChanged || diff.queryChanged || diff.statusChanged
    || !diff.addedHeaders.isEmpty || !diff.removedHeaders.isEmpty || !diff.changedHeaders.isEmpty
    || diff.bodyChanged

/-- The header actions of one kind of message. -/
def headerActionsWith (remove : Str → GeneratedFilterAction) (set : Str → Str → GeneratedFilterAction) :
    List GeneratedFilterAction :=
  diff.removedHeaders.map (fun header => remove header.name)
    ++ diff.changedHeaders.map (fun header => set header.name header.editedValue)
    ++ diff.addedHeaders.map (fun header => set header.name header.value)

/-- `header_actions`. -/
def headerActions : List GeneratedFilterAction :=
  match diff.kind with
  | .request => diff.headerActionsWith .removeRequestHeader .setRequestHeader
  | .response => diff.headerActionsWith .removeResponseHeader .setResponseHeader

end EditableHttpMessageDiff

/-! ## The semantic diff -/

/-- What `push_optional_string_replace` and the comparison of the status push; `node` is the node of a value. -/
def pushOptionalReplace {A : Type} [DecidableEq A] (path : DiffPath) (node : A → DiffNode) (old new : Option A)
    (source : DiffSource) : List DiffEvent :=
  if old = new then []
  else
    match old, new with
    | some old, some new => [.replace path (node old) (node new) source]
    | some old, none => [.delete path (node old) source]
    | none, some new => [.insert path (node new) source]
    | none, none => []

/-- `push_string_replace`. -/
def pushStringReplace (path : DiffPath) (old new : Str) (source : DiffSource) : List DiffEvent :=
  if old = new then [] else [.replace path (.string old) (.string new) source]

/-- `push_header_diff_events`. -/
def pushHeaderDiffEvents (original edited : List EditableHttpHeader) : List DiffEvent :=
  original.flatMap (fun header =>
    let path := DiffPath.header (Text.toAsciiLowercase header.name)
    match findHeader edited header.name with
    | some editedHeader =>
        if editedHeader.value ≠ header.value then
          [.replace path (.header header.name header.value) (.header editedHeader.name editedHeader.value) .header]
        else []
    | none => [.delete path (.header header.name header.value) .header])
  ++ edited.flatMap fun header =>
    if (findHeader original header.name).isNone then
      [.insert (DiffPath.header (Text.toAsciiLowercase header.name)) (.header header.name header.value) .header]
    else []

section SemanticDiff

variable {N : Type} [BEq N] (serde : SerdeJson N)

/-- `push_body_diff_events`: a body that is not diffed as JSON is one event. -/
def pushBodyDiffEvents (original edited : EditableHttpBody) : List DiffEvent :=
  if original = edited then []
  else
    match original, edited with
    | .text old oldContentType, .text new newContentType =>
        match pushJsonBodyDiffEvents serde old new (oldContentType.or newContentType) with
        | some events => events
        | none => [.replace DiffPath.body (.text old) (.text new) (.body .text)]
    | .empty, .text text contentType =>
        match pushJsonBodyInsertEvent serde text contentType with
        | some event => [event]
        | none => [.insert DiffPath.body (.text text) (.body .text)]
    | .text text contentType, .empty =>
        match pushJsonBodyDeleteEvent serde text contentType with
        | some event => [event]
        | none => [.delete DiffPath.body (.text text) (.body .text)]
    | .binary bytesLen contentType, .empty =>
        [.delete DiffPath.body (.binary bytesLen contentType) (.body .binary)]
    | .empty, .binary bytesLen contentType =>
        [.insert DiffPath.body (.binary bytesLen contentType) (.body .binary)]
    | .empty, .empty => []
    | original, .binary bytesLen contentType =>
        [.replace DiffPath.body original.toDiffNode (.binary bytesLen contentType) (.body .binary)]
    | .binary bytesLen contentType, edited =>
        [.replace DiffPath.body (.binary bytesLen contentType) edited.toDiffNode (.body .binary)]

/-- `EditableHttpMessage::semantic_diff`. -/
def EditableHttpMessage.semanticDiff (original edited : EditableHttpMessage) : List DiffEvent :=
  pushOptionalReplace DiffPath.method .string original.method edited.method .httpMeta
    ++ pushOptionalReplace DiffPath.scheme .string original.scheme edited.scheme .httpMeta
    ++ pushStringReplace DiffPath.host original.host edited.host .url
    ++ pushStringReplace DiffPath.path original.path edited.path .url
    ++ pushStringReplace DiffPath.query original.query edited.query .url
    ++ pushOptionalReplace DiffPath.status (fun status => .number (Nat.toDigits 10 status.toNat)) original.status
        edited.status .httpMeta
    ++ pushHeaderDiffEvents original.headers edited.headers
    ++ pushBodyDiffEvents serde original.body edited.body

end SemanticDiff

/-! ## Body actions -/

/-- The actions that `request_body_action_from_intent` and `response_body_action_from_intent` choose from. -/
structure BodyActions where
  replaceBodyTextOnce : Str → Str → GeneratedFilterAction
  replaceBodyTextAll : Str → Str → GeneratedFilterAction
  replaceBodyRegex : Str → Str → GeneratedFilterAction
  replaceBodyTextWhenContains : Str → Str → Str → GeneratedFilterAction
  replaceJsProperty : Str → Str → Str → GeneratedFilterAction
  replaceCssDeclaration : Str → Str → Str → GeneratedFilterAction
  replaceHtmlAttribute : Str → Str → Str → Str → GeneratedFilterAction

/-- The shape the two functions share. -/
def bodyActionFromIntent (actions : BodyActions) (intent : BodyRewriteIntent) : Option GeneratedFilterAction :=
  match intent.operation with
  | .replaceText old new | .replaceTextOnce old new => some (actions.replaceBodyTextOnce old new)
  | .replaceTextAll old new => some (actions.replaceBodyTextAll old new)
  | .replaceRegex pattern replacement => some (actions.replaceBodyRegex pattern replacement)
  | .replaceTextWhenContains anchor old new => some (actions.replaceBodyTextWhenContains anchor old new)
  | .replaceJsProperty property old new => some (actions.replaceJsProperty property old new)
  | .replaceCssDeclaration property old new => some (actions.replaceCssDeclaration property old new)
  | .replaceHtmlAttribute selector attr old new => some (actions.replaceHtmlAttribute selector attr old new)
  | .replaceWholeBody _ _ | .insertText _ _ | .deleteText _ | .jsonPatch _ _ _ => none

/-- `request_body_action_from_intent`. -/
def requestBodyActionFromIntent : BodyRewriteIntent → Option GeneratedFilterAction :=
  bodyActionFromIntent
    { replaceBodyTextOnce := .replaceRequestBodyTextOnce
      replaceBodyTextAll := .replaceRequestBodyTextAll
      replaceBodyRegex := .replaceRequestBodyRegex
      replaceBodyTextWhenContains := .replaceRequestBodyTextWhenContains
      replaceJsProperty := .replaceRequestJsProperty
      replaceCssDeclaration := .replaceRequestCssDeclaration
      replaceHtmlAttribute := .replaceRequestHtmlAttribute }

/-- `response_body_action_from_intent`. -/
def responseBodyActionFromIntent : BodyRewriteIntent → Option GeneratedFilterAction :=
  bodyActionFromIntent
    { replaceBodyTextOnce := .replaceResponseBodyTextOnce
      replaceBodyTextAll := .replaceResponseBodyTextAll
      replaceBodyRegex := .replaceResponseBodyRegex
      replaceBodyTextWhenContains := .replaceResponseBodyTextWhenContains
      replaceJsProperty := .replaceResponseJsProperty
      replaceCssDeclaration := .replaceResponseCssDeclaration
      replaceHtmlAttribute := .replaceResponseHtmlAttribute }

/-! ## Extraction -/

/-- `{:?}` of a confidence. -/
def RewriteConfidence.debug : RewriteConfidence → Str
  | .low => "Low".toList
  | .medium => "Medium".toList
  | .high => "High".toList

section Extract

variable {N : Type} [BEq N] (serde : SerdeJson N) (treeSitter : BodyLanguage → Str → Option SyntaxNode)
  (debug : Str → Str) (uuid : Str)

/-- The note on the anchor of an intent, if it has one. -/
def anchorNote : BodyAnchor → Option Str
  | .containsAll values =>
      some ("semantic anchor: contains all [".toList ++ ", ".toList.intercalate (values.map debug) ++ "]".toList)
  | .jsProperty property => some ("semantic anchor: javascript property ".toList ++ debug property)
  | .cssDeclaration property => some ("semantic anchor: css declaration ".toList ++ debug property)
  | .htmlAttribute element attr =>
      some ("semantic anchor: html attribute ".toList ++ debug attr ++ " on ".toList ++ debugOption debug element)
  | _ => none

/-- The notes on an intent. -/
def GeneratedFilter.addIntentNotes (filter : GeneratedFilter) (intent : BodyRewriteIntent) : GeneratedFilter :=
  let filter := filter.addRewriteNote
    ("semantic body rewrite: language=".toList ++ intent.language.asLabel ++ ", confidence=".toList
      ++ intent.confidence.debug)
  match anchorNote debug intent.anchor with
  | some note => filter.addRewriteNote note
  | none => filter

/-- What the two extractions do differently to a body. -/
structure BodyTarget where
  applyJsonPatch : List GeneratedJsonPatchOperation → Str → Str → GeneratedFilterAction
  actionFromIntent : BodyRewriteIntent → Option GeneratedFilterAction
  replaceAction : GeneratedFilter → GeneratedFilterAction → GeneratedFilter
  validatesNote : Str

def BodyTarget.request : BodyTarget where
  applyJsonPatch := .applyRequestJsonPatch
  actionFromIntent := requestBodyActionFromIntent
  replaceAction := GeneratedFilter.replaceRequestBodyRewriteAction
  validatesNote := "generated JSON patch validates against edited request body".toList

def BodyTarget.response : BodyTarget where
  applyJsonPatch := .applyResponseJsonPatch
  actionFromIntent := responseBodyActionFromIntent
  replaceAction := GeneratedFilter.replaceResponseBodyRewriteAction
  validatesNote := "generated JSON patch validates against edited response body".toList

/-- The operations that the two extractions find in the diff. -/
def editOperations (original edited : EditableHttpMessage) : List GeneratedJsonPatchOperation :=
  jsonPatchOperationsFromDiffEvents serde (original.semanticDiff serde edited)

/-- `validation_ok`. -/
def validationOk (original : EditableHttpMessage) (editedBody : Str)
    (operations : List GeneratedJsonPatchOperation) : Bool :=
  original.bodyText.any fun originalBody => validateJsonPatchOperations serde originalBody editedBody operations

/-- The branch for a body diffed as JSON. The patch is put in whether it validates or not; only the note says
    which. -/
def rewriteJsonBody (target : BodyTarget) (original edited : EditableHttpMessage) (editedBody : Str)
    (filter : GeneratedFilter) : GeneratedFilter :=
  let operations := editOperations serde original edited
  let contentType := edited.bodyContentType.getD "application/json; charset=utf-8".toList
  let filter := target.replaceAction filter (target.applyJsonPatch operations editedBody contentType)
  if validationOk serde original editedBody operations then filter.addRewriteNote target.validatesNote
  else filter.addRewriteNote "generated JSON patch did not validate; falling back to set_body_text output".toList

/-- The branch for a body diffed as text. -/
def rewriteTextBody (target : BodyTarget) (original edited : EditableHttpMessage) (filter : GeneratedFilter) :
    GeneratedFilter :=
  match original.bodyText, edited.bodyText with
  | some originalBody, some editedBody =>
      match extractBodyRewriteIntent treeSitter originalBody editedBody
          (original.bodyContentType.or edited.bodyContentType) with
      | none => filter
      | some intent =>
          match target.actionFromIntent intent with
          | none => filter
          | some action => (target.replaceAction filter action).addIntentNotes debug intent
  | _, _ => filter

/-- What the two extractions do to the body action of the draft. -/
def rewriteBody (target : BodyTarget) (original edited : EditableHttpMessage) (filter : GeneratedFilter) :
    GeneratedFilter :=
  match edited.bodyText with
  | some editedBody =>
      if editOperations serde original edited ≠ [] then
        rewriteJsonBody serde target original edited editedBody filter
      else rewriteTextBody treeSitter debug target original edited filter
  | none => rewriteTextBody treeSitter debug target original edited filter

/-- `extract_request_filter_from_edit`. -/
def extractRequestFilterFromEdit (name : Str) (original edited : EditableHttpMessage) : Option GeneratedFilter :=
  if original.kind ≠ .request ∨ edited.kind ≠ .request then none
  else
    let diff := original.diff edited
    if diff.hasChanges = false then none
    else
      let filter := (requestFilter debug uuid name original.toRequestInput edited.toRequestInput).extendActions
        diff.headerActions
      let filter :=
        if diff.removedHeaders.any fun header => Text.eqIgnoreAsciiCase header.name "host".toList then
          (filter.extendActions [.drop]).addRewriteNote
            "host header removed; auto-added drop() to suppress client response".toList
        else filter
      some (rewriteBody serde treeSitter debug .request original edited filter)

/-- `extract_response_filter_from_edit`. -/
def extractResponseFilterFromEdit (name : Str) (requestContext original edited : EditableHttpMessage) :
    Option GeneratedFilter :=
  if original.kind ≠ .response ∨ edited.kind ≠ .response then none
  else
    let diff := original.diff edited
    if diff.hasChanges = false then none
    else
      original.toResponseInput.bind fun originalResponse =>
        edited.toResponseInput.map fun editedResponse =>
          let filter := (responseFilter debug uuid name requestContext.toRequestInput originalResponse
            editedResponse).extendActions diff.headerActions
          rewriteBody serde treeSitter debug .response original edited filter

end Extract

end Inspect.Filters
