import Inspect.Filters.Engine.JsonPatch

/-!
# `Filters.Generator` — generated filters

The embedding of `src/filters/generator.rs`: a filter as the tool generates it, the drafts it is made from, and
the Roto source written for it. `String`s that are built with `write!` are the texts appended.

`format!("{:?}")` of a text is the parameter `debug`; it appears in notes only. The identifier that `uuid` makes
is the parameter `uuid`. The builder methods that push one given condition or action are `condition` and `action`.
-/

namespace Inspect.Filters

inductive GeneratedFilterPhase
  | request
  | response
deriving DecidableEq, Repr

structure GeneratedFilterTrigger where
  host : List Str
  path : List Str
  method : List Str
deriving DecidableEq, Repr

inductive GeneratedFilterCondition
  | requestHostEq (value : Str)
  | requestHostContains (value : Str)
  | requestPathEq (value : Str)
  | requestPathContains (value : Str)
  | requestMethodEq (value : Str)
  | requestQueryContains (value : Str)
  | responseStatusEq (value : UInt16)
  | responseStatusAtLeast (value : UInt16)
  | responseContentTypeContains (value : Str)
  | responseBodyContains (value : Str)
  | responseBodyContainsAll (values : List Str)
deriving DecidableEq, Repr

inductive GeneratedFilterAction
  | mark (label : Str)
  | setRequestHeader (name value : Str)
  | removeRequestHeader (name : Str)
  | setRequestBodyText (body contentType : Str)
  | replaceRequestBodyText (old new : Str)
  | replaceRequestBodyTextOnce (old new : Str)
  | replaceRequestBodyTextAll (old new : Str)
  | replaceRequestBodyRegex (pattern replacement : Str)
  | replaceRequestBodyTextWhenContains (anchor old new : Str)
  | replaceRequestJsProperty (property old new : Str)
  | replaceRequestCssDeclaration (property old new : Str)
  | replaceRequestHtmlAttribute (selector attr old new : Str)
  | applyRequestJsonPatch (operations : List GeneratedJsonPatchOperation) (resultingBody contentType : Str)
  | syntheticResponse (status : UInt16) (body contentType : Str)
  | setResponseStatus (status : UInt16)
  | setResponseHeader (name value : Str)
  | removeResponseHeader (name : Str)
  | setResponseBodyText (body contentType : Str)
  | replaceResponseBodyText (old new : Str)
  | replaceResponseBodyTextOnce (old new : Str)
  | replaceResponseBodyTextAll (old new : Str)
  | replaceResponseBodyRegex (pattern replacement : Str)
  | replaceResponseBodyTextWhenContains (anchor old new : Str)
  | replaceResponseJsProperty (property old new : Str)
  | replaceResponseCssDeclaration (property old new : Str)
  | replaceResponseHtmlAttribute (selector attr old new : Str)
  | applyResponseJsonPatch (operations : List GeneratedJsonPatchOperation) (resultingBody contentType : Str)
  | stop
  | drop
deriving DecidableEq, Repr

structure GeneratedFilter where
  id : Option Str
  name : Str
  priority : Int32
  enabled : Bool
  phase : GeneratedFilterPhase
  trigger : GeneratedFilterTrigger
  conditions : List GeneratedFilterCondition
  actions : List GeneratedFilterAction
  notes : List Str

/-! ## Texts -/

/-- One character of `quoted_string`. -/
def quotedChar (ch : Char) : Str :=
  if ch = '\\' then "\\\\".toList
  else if ch = '"' then "\\\"".toList
  else if ch = '\n' then "\\n".toList
  else if ch = '\r' then "\\r".toList
  else if ch = '\t' then "\\t".toList
  else if Text.isControl ch then "\\u\x7b".toList ++ Nat.toDigits 16 ch.toNat ++ "\x7d".toList
  else [ch]

/-- `quoted_string`. -/
def quotedString (value : Str) : Str := '"' :: value.flatMap quotedChar ++ ['"']

/-- `toml_string`. -/
def tomlString (value : Str) : Str := quotedString value

/-- `roto_string`. -/
def rotoString (value : Str) : Str := quotedString value

/-- `toml_string_array`. -/
def tomlStringArray (values : List Str) : Str :=
  '[' :: ", ".toList.intercalate (values.map tomlString) ++ [']']

/-- `char::to_lowercase`, as far as `slugify_label` can tell: of the characters outside ASCII, only these two have
    an ASCII letter in their lower case. -/
def toLowercase (ch : Char) : Str :=
  if ch = '\u0130' then ['i', '\u0307'] else if ch = '\u212a' then ['k'] else [ch.toLower]

/-- The loop of `slugify_label`. -/
def slugifyLoop : Bool → Str → Str
  | _, [] => []
  | lastWasDash, ch :: rest =>
      if ch.isAlphanum then ch :: slugifyLoop false rest
      else if lastWasDash then slugifyLoop true rest
      else '-' :: slugifyLoop true rest

/-- `slugify_label`. -/
def slugifyLabel (name : Str) : Str :=
  ((slugifyLoop false (name.flatMap toLowercase)).dropWhile (· == '-')).rdropWhile (· == '-')

/-- `generated_mark_label`. -/
def generatedMarkLabel (name : Str) : Str :=
  if slugifyLabel name = [] then "generated".toList else "generated-".toList ++ slugifyLabel name

/-- `choose_original_host`. -/
def chooseOriginalHost (originalHost editedHost : Str) : Str :=
  if Text.trim originalHost ≠ [] then originalHost else editedHost

/-- `path_trigger_for_original_path`. -/
def pathTriggerForOriginalPath (path : Str) : Str :=
  if path = "/".toList ∨ path = [] then "*".toList
  else if path.getLast? = some '/' then path ++ ['*']
  else if '/' ∈ path then
    -- `rsplit_once`: what is before the last slash
    let before := path.rdropWhile (· ≠ '/')
    if before.dropLast = [] then "/*".toList else before ++ ['*']
  else "*".toList

/-- `content_type_prefix`. -/
def contentTypePrefix (contentType : Str) : Str := Text.trim (contentType.takeWhile (· ≠ ';'))

/-- `common_text_anchor`: the first line of the original that the edited text still has, or the start of it. -/
def commonTextAnchor (original edited : Str) : Option Str :=
  let anchors := ((Text.lines original).map Text.trim).filter fun line => 8 ≤ line.length
  match (anchors.map (·.take 96)).find? fun anchor => Text.contains anchor edited with
  | some anchor => some anchor
  | none => if 8 ≤ (original.take 96).length then some (original.take 96) else none

/-- `response_body_rewrite_anchor`, with the one diff strategy there is. -/
def responseBodyRewriteAnchor (originalBodyText editedBodyText : Option Str) :
    Option GeneratedFilterCondition :=
  originalBodyText.bind fun original => editedBodyText.bind fun edited =>
    if Text.trim original = [] ∨ Text.trim original = Text.trim edited then none
    else (commonTextAnchor (Text.trim original) (Text.trim edited)).map .responseBodyContains

/-! ## The builder -/

/-- `GeneratedFilterTrigger::default`. -/
def GeneratedFilterTrigger.default : GeneratedFilterTrigger := ⟨["*".toList], ["*".toList], []⟩

/-- `GeneratedFilterTrigger::normalized`. -/
def GeneratedFilterTrigger.normalized (trigger : GeneratedFilterTrigger) : GeneratedFilterTrigger :=
  { trigger with
    host := if trigger.host = [] then ["*".toList] else trigger.host
    path := if trigger.path = [] then ["*".toList] else trigger.path }

structure GeneratedFilterBuilder where
  name : Str
  priority : Int32
  enabled : Bool
  phase : GeneratedFilterPhase
  trigger : GeneratedFilterTrigger
  conditions : List GeneratedFilterCondition
  actions : List GeneratedFilterAction

namespace GeneratedFilterBuilder

def new (name : Str) (phase : GeneratedFilterPhase) : GeneratedFilterBuilder :=
  ⟨name, 9000, true, phase, GeneratedFilterTrigger.default, [], []⟩

variable (builder : GeneratedFilterBuilder)

/-- `request_context`, and the three trigger methods one after another. -/
def requestContext (host path method : Str) : GeneratedFilterBuilder :=
  { builder with trigger := ⟨[host], [path], [method]⟩ }

def condition (condition : GeneratedFilterCondition) : GeneratedFilterBuilder :=
  { builder with conditions := builder.conditions ++ [condition] }

def action (action : GeneratedFilterAction) : GeneratedFilterBuilder :=
  { builder with actions := builder.actions ++ [action] }

/-- `build`: a filter without actions gets a mark. -/
def build (uuid : Str) : GeneratedFilter where
  id := some ("inspect-generated:".toList ++ uuid)
  name := builder.name
  priority := builder.priority
  enabled := builder.enabled
  phase := builder.phase
  trigger := builder.trigger.normalized
  conditions := builder.conditions
  actions := if builder.actions = [] then [.mark (generatedMarkLabel builder.name)] else builder.actions
  notes := []

end GeneratedFilterBuilder

namespace GeneratedFilter

variable (filter : GeneratedFilter)

/-- `add_rewrite_note`. -/
def addRewriteNote (note : Str) : GeneratedFilter := { filter with notes := filter.notes ++ [note] }

/-- `extend_actions`; `add_action` is the case of one action. -/
def extendActions (actions : List GeneratedFilterAction) : GeneratedFilter :=
  { filter with actions := filter.actions ++ actions }

end GeneratedFilter

namespace GeneratedFilterAction

/-- The actions that rewrite the body of a request. -/
def isRequestBodyRewrite : GeneratedFilterAction → Bool
  | .setRequestBodyText .. | .replaceRequestBodyText .. | .replaceRequestBodyTextOnce ..
  | .replaceRequestBodyTextAll .. | .replaceRequestBodyRegex ..
  | .replaceRequestBodyTextWhenContains .. | .replaceRequestJsProperty ..
  | .replaceRequestCssDeclaration .. | .replaceRequestHtmlAttribute .. | .applyRequestJsonPatch .. => true
  | _ => false

/-- The actions that rewrite the body of a response. -/
def isResponseBodyRewrite : GeneratedFilterAction → Bool
  | .setResponseBodyText .. | .replaceResponseBodyText .. | .replaceResponseBodyTextOnce ..
  | .replaceResponseBodyTextAll .. | .replaceResponseBodyRegex ..
  | .replaceResponseBodyTextWhenContains .. | .replaceResponseJsProperty ..
  | .replaceResponseCssDeclaration .. | .replaceResponseHtmlAttribute .. | .applyResponseJsonPatch .. => true
  | _ => false

end GeneratedFilterAction

/-- `replace_request_body_rewrite_action`. -/
def GeneratedFilter.replaceRequestBodyRewriteAction (filter : GeneratedFilter)
    (action : GeneratedFilterAction) : GeneratedFilter :=
  { filter with actions := (filter.actions.filter fun existing => !existing.isRequestBodyRewrite) ++ [action] }

/-- `replace_response_body_rewrite_action`. -/
def GeneratedFilter.replaceResponseBodyRewriteAction (filter : GeneratedFilter)
    (action : GeneratedFilterAction) : GeneratedFilter :=
  { filter with actions := (filter.actions.filter fun existing => !existing.isResponseBodyRewrite) ++ [action] }

/-! ## Rewrite drafts -/

structure GeneratedRewriteRequestInput where
  host : Str
  method : Str
  path : Str
  query : Str
  bodyText : Option Str

structure GeneratedRewriteResponseInput where
  status : UInt16
  contentType : Option Str
  bodyText : Option Str

section Drafts

variable (debug : Str → Str) (uuid : Str)

/-- `format!("{:?}")` of an optional text. -/
def debugOption : Option Str → Str
  | none => "None".toList
  | some text => "Some(".toList ++ debug text ++ ")".toList

/-- `GeneratedRewriteExtractor::request_filter`: the draft of `extract_request`, and the filter that `into_filter`
    makes of it. -/
def requestFilter (name : Str) (original edited : GeneratedRewriteRequestInput) : GeneratedFilter :=
  let builder := (GeneratedFilterBuilder.new name .request).requestContext
    (chooseOriginalHost original.host edited.host) (pathTriggerForOriginalPath original.path) original.method
  let builder := (builder.condition (.requestPathEq original.path)).action (.mark (generatedMarkLabel name))
  let builder := if original.query ≠ [] then builder.condition (.requestQueryContains original.query) else builder
  let builder := if original.method ≠ edited.method then builder.condition (.requestMethodEq original.method)
    else builder
  let bodyChanged := original.bodyText ≠ edited.bodyText
  let builder := match edited.bodyText with
    | some body =>
        if bodyChanged then builder.action (.setRequestBodyText body "text/plain; charset=utf-8".toList)
        else builder
    | none => builder
  let filter := (builder.build uuid).addRewriteNote
    ("request rewrite draft: method ".toList ++ debug original.method ++ " -> ".toList ++ debug edited.method
      ++ ", path ".toList ++ debug original.path ++ " -> ".toList ++ debug edited.path
      ++ ", query ".toList ++ debug original.query ++ " -> ".toList ++ debug edited.query)
  let filter := if original.path ≠ edited.path then filter.addRewriteNote
      "request path changed, but set_path() is not exposed in the current Roto API".toList
    else filter
  let filter := if original.query ≠ edited.query then filter.addRewriteNote
      "request query changed, but set_query() is not exposed in the current Roto API".toList
    else filter
  if bodyChanged then filter.addRewriteNote
    ("request body changed; generated set_body_text() uses path/method/query conditions as the match "
      ++ "anchor").toList
  else filter

/-- `GeneratedRewriteExtractor::response_filter`: the draft of `extract_response`, and the filter that
    `into_filter` makes of it. -/
def responseFilter (name : Str) (request : GeneratedRewriteRequestInput)
    (original edited : GeneratedRewriteResponseInput) : GeneratedFilter :=
  let builder := (GeneratedFilterBuilder.new name .response).requestContext request.host
    (pathTriggerForOriginalPath request.path) request.method
  let builder := (builder.condition (.responseStatusEq original.status)).action (.mark (generatedMarkLabel name))
  let builder := match original.contentType with
    | some contentType =>
        if Text.trim contentType ≠ [] then
          builder.condition (.responseContentTypeContains (contentTypePrefix contentType))
        else builder
    | none => builder
  let builder := match responseBodyRewriteAnchor original.bodyText edited.bodyText with
    | some anchor => builder.condition anchor
    | none => builder
  let builder := if original.status ≠ edited.status then builder.action (.setResponseStatus edited.status)
    else builder
  let builder := match edited.bodyText with
    | some body =>
        if original.bodyText ≠ edited.bodyText then
          builder.action (.setResponseBodyText body
            ((edited.contentType.or original.contentType).getD "text/plain; charset=utf-8".toList))
        else builder
    | none => builder
  (builder.build uuid).addRewriteNote
    ("response rewrite draft: status ".toList ++ Nat.toDigits 10 original.status.toNat ++ " -> ".toList
      ++ Nat.toDigits 10 edited.status.toNat ++ ", content-type ".toList
      ++ debugOption debug original.contentType ++ " -> ".toList ++ debugOption debug edited.contentType)

end Drafts

/-! ## The Roto source -/

/-- A method call in the chain of an action. -/
def rotoCall (method : String) (arguments : List Str) : Str :=
  "\n            .".toList ++ method.toList ++ "(".toList ++ ", ".toList.intercalate arguments ++ ")".toList

/-- `GeneratedFilterCondition::write_roto`. -/
def GeneratedFilterCondition.writeRoto : GeneratedFilterCondition → Str
  | .requestHostEq value => "req.host() == ".toList ++ rotoString value
  | .requestHostContains value => "req.host().contains(".toList ++ rotoString value ++ ")".toList
  | .requestPathEq value => "req.path() == ".toList ++ rotoString value
  | .requestPathContains value => "req.path().contains(".toList ++ rotoString value ++ ")".toList
  | .requestMethodEq value => "req.method() == ".toList ++ rotoString value
  | .requestQueryContains value => "req.query().contains(".toList ++ rotoString value ++ ")".toList
  | .responseStatusEq value => "res.status() == ".toList ++ Nat.toDigits 10 value.toNat
  | .responseStatusAtLeast value => "res.status() >= ".toList ++ Nat.toDigits 10 value.toNat
  | .responseContentTypeContains value => "res.content_type().contains(".toList ++ rotoString value ++ ")".toList
  | .responseBodyContains value => "res.body_text().contains(".toList ++ rotoString value ++ ")".toList
  | .responseBodyContainsAll values =>
      if values = [] then "true".toList
      else "\n        && ".toList.intercalate
        (values.map fun value => "res.body_text().contains(".toList ++ rotoString value ++ ")".toList)

namespace GeneratedFilterAction

variable {N : Type} (serde : SerdeJson N)

/-- The lines of a JSON patch: its comments, then the call. -/
def writeJsonPatch (operations : List GeneratedJsonPatchOperation) (contentType : Str) : Str :=
  writeJsonPatchComments serde operations
    ++ rotoCall "apply_json_patch"
      [rotoString (jsonPatchOperationsToRfc6902Json serde operations), rotoString contentType]

/-- `write_request_roto`. -/
def writeRequestRoto : GeneratedFilterAction → Str
  | .mark label => rotoCall "mark" [rotoString label]
  | .setRequestHeader name value => rotoCall "set_header" [rotoString name, rotoString value]
  | .removeRequestHeader name => rotoCall "remove_header" [rotoString name]
  | .setRequestBodyText body contentType => rotoCall "set_body_text" [rotoString body, rotoString contentType]
  | .replaceRequestBodyText old new => rotoCall "replace_body_text" [rotoString old, rotoString new]
  | .replaceRequestBodyTextOnce old new => rotoCall "replace_body_text_once" [rotoString old, rotoString new]
  | .replaceRequestBodyTextAll old new => rotoCall "replace_body_text_all" [rotoString old, rotoString new]
  | .replaceRequestBodyRegex pattern replacement =>
      rotoCall "replace_body_regex" [rotoString pattern, rotoString replacement]
  | .replaceRequestBodyTextWhenContains anchor old new =>
      rotoCall "replace_body_text_when_contains" [rotoString anchor, rotoString old, rotoString new]
  | .replaceRequestJsProperty property old new =>
      rotoCall "replace_js_property" [rotoString property, rotoString old, rotoString new]
  | .replaceRequestCssDeclaration property old new =>
      rotoCall "replace_css_declaration" [rotoString property, rotoString old, rotoString new]
  | .replaceRequestHtmlAttribute selector attr old new =>
      rotoCall "replace_html_attribute" [rotoString selector, rotoString attr, rotoString old, rotoString new]
  | .applyRequestJsonPatch operations _ contentType => writeJsonPatch serde operations contentType
  | .syntheticResponse status body contentType =>
      rotoCall "synthetic_response" [Nat.toDigits 10 status.toNat, rotoString body, rotoString contentType]
  | .stop => rotoCall "stop" []
  | .drop => rotoCall "drop" []
  | _ => "\n            // unsupported response action in request filter".toList

/-- `write_response_roto`. -/
def writeResponseRoto : GeneratedFilterAction → Str
  | .mark label => rotoCall "mark" [rotoString label]
  | .setResponseStatus status => rotoCall "set_status" [Nat.toDigits 10 status.toNat]
  | .setResponseHeader name value => rotoCall "set_header" [rotoString name, rotoString value]
  | .removeResponseHeader name => rotoCall "remove_header" [rotoString name]
  | .setResponseBodyText body contentType => rotoCall "set_body_text" [rotoString body, rotoString contentType]
  | .replaceResponseBodyText old new => rotoCall "replace_body_text" [rotoString old, rotoString new]
  | .replaceResponseBodyTextOnce old new => rotoCall "replace_body_text_once" [rotoString old, rotoString new]
  | .replaceResponseBodyTextAll old new => rotoCall "replace_body_text_all" [rotoString old, rotoString new]
  | .replaceResponseBodyRegex pattern replacement =>
      rotoCall "replace_body_regex" [rotoString pattern, rotoString replacement]
  | .replaceResponseBodyTextWhenContains anchor old new =>
      rotoCall "replace_body_text_when_contains" [rotoString anchor, rotoString old, rotoString new]
  | .replaceResponseJsProperty property old new =>
      rotoCall "replace_js_property" [rotoString property, rotoString old, rotoString new]
  | .replaceResponseCssDeclaration property old new =>
      rotoCall "replace_css_declaration" [rotoString property, rotoString old, rotoString new]
  | .replaceResponseHtmlAttribute selector attr old new =>
      rotoCall "replace_html_attribute" [rotoString selector, rotoString attr, rotoString old, rotoString new]
  | .applyResponseJsonPatch operations _ contentType => writeJsonPatch serde operations contentType
  | .stop => rotoCall "stop" []
  | .drop => rotoCall "drop" []
  | _ => "\n            // unsupported request action in response filter".toList

end GeneratedFilterAction

namespace GeneratedFilter

variable {N : Type} (serde : SerdeJson N) (filter : GeneratedFilter)

/-- `GeneratedFilterPhase::as_roto_phase`. -/
def asRotoPhase : GeneratedFilterPhase → Str
  | .request => "request".toList
  | .response => "response".toList

/-- One line of the front matter. -/
def frontMatterLine (key : String) (value : Str) : Str := "//! ".toList ++ key.toList ++ " = ".toList ++ value

/-- `write_front_matter`: the lines it writes. -/
def frontMatterLines : List Str :=
  ["//! +++".toList]
    ++ (match filter.id with
        | some id => [frontMatterLine "id" (tomlString id)]
        | none => [])
    ++ [frontMatterLine "name" (tomlString filter.name),
      frontMatterLine "enabled" (if filter.enabled then "true".toList else "false".toList),
      frontMatterLine "priority" (Text.displayInt filter.priority.toInt),
      "//!".toList,
      "//! [trigger]".toList,
      frontMatterLine "host" (tomlStringArray filter.trigger.host),
      frontMatterLine "path" (tomlStringArray filter.trigger.path),
      frontMatterLine "method" (tomlStringArray filter.trigger.method),
      frontMatterLine "phase" (tomlStringArray [asRotoPhase filter.phase]),
      "//! +++".toList]

/-- `write_front_matter`. -/
def writeFrontMatter : Str := filter.frontMatterLines.flatMap fun line => line ++ ['\n']

/-- `write_conditions`. -/
def writeConditions : Str :=
  "\n        && ".toList.intercalate (filter.conditions.map GeneratedFilterCondition.writeRoto)

/-- `write_request_action` and `write_response_action`: the function `signature`, with the chain that starts with
    `pass` and holds the actions. -/
def writeAction (signature pass : String) (writeRoto : GeneratedFilterAction → Str) : Str :=
  let chain := pass.toList ++ filter.actions.flatMap writeRoto
  if filter.conditions = [] then
    signature.toList ++ " \x7b\n    ".toList ++ chain ++ "\n\x7d\n".toList
  else
    signature.toList ++ " \x7b\n    if ".toList ++ filter.writeConditions ++ " \x7b\n        ".toList ++ chain
      ++ "\n    \x7d else \x7b\n        ".toList ++ pass.toList ++ "\n    \x7d\n\x7d\n".toList

def writeRequestAction : Str :=
  filter.writeAction "fn request_action(req: Request) -> RequestAction" "RequestAction.pass()"
    (GeneratedFilterAction.writeRequestRoto serde)

def writeResponseAction : Str :=
  filter.writeAction "fn response_action(res: Response) -> ResponseAction" "ResponseAction.pass()"
    (GeneratedFilterAction.writeResponseRoto serde)

/-- What `to_roto_source` writes after the front matter. -/
def writeScript : Str :=
  "\n// Generated by inspect pattern extractor.\n".toList
    ++ "// Move this file to ./filters/ if you want to promote it to a normal filter.\n".toList
    ++ filter.notes.flatMap (fun note => "// ".toList ++ note ++ ['\n'])
    ++ (if filter.notes = [] then []
        else ("// TODO: convert this draft into concrete rewrite actions when the required Roto APIs are "
          ++ "available.\n").toList)
    ++ "\nfn ping() -> bool \x7b\n    true\n\x7d\n\n".toList
    ++ (match filter.phase with
        | .request => filter.writeRequestAction serde
        | .response => filter.writeResponseAction serde)

/-- `to_roto_source`. -/
def toRotoSource : Str := filter.writeFrontMatter ++ filter.writeScript serde

end GeneratedFilter

end Inspect.Filters
