import Inspect.Filters.Generator
import Inspect.Filters.Types

/-!
# `Filters.Runtime.Action` — the actions a Roto script builds

The embedding of the action half of `src/filters/runtime.rs`: what a script collects by calling methods on an
action, and the action the proxy makes of it. A `RotoString` is a text.

The `regex` crate is the parameter `regex`: a pattern that compiles gives the function `replace_all`.
-/

namespace Inspect.Filters

inductive RotoBodyRewriteOp
  | replaceTextOnce (old new : Str)
  | replaceTextAll (old new : Str)
  | replaceRegex (pattern replacement : Str)
  | replaceTextWhenContains (anchor old new : Str)
  | replaceJsProperty (property old new : Str)
  | replaceCssDeclaration (property old new : Str)
  | replaceHtmlAttribute (selector attr old new : Str)
  | applyJsonPatch (patchJson contentType : Str)
deriving DecidableEq, Repr

/-! ## Rewriting a body -/

/-- The variables of the loop of `apply_body_rewrite_ops`. -/
structure BodyRewrite where
  body : Str
  contentType : Option Str
  changed : Bool
deriving DecidableEq, Repr

/-- The branches that replace the first occurrence of `old`: skipped if `old` or one of the `anchors` is empty or
    not in the body. -/
def BodyRewrite.replaceAnchored (rewrite : BodyRewrite) (anchors : List Str) (old new : Str) : BodyRewrite :=
  if (old :: anchors).all fun text => text ≠ [] && Text.contains text rewrite.body then
    { rewrite with body := Text.replaceOnce old new rewrite.body, changed := true }
  else rewrite

section Apply

variable {N : Type} [BEq N] (serde : SerdeJson N) (regex : Str → Option (Str → Str → Str))

/-- One round of the loop of `apply_body_rewrite_ops`. -/
def applyBodyRewriteOp (rewrite : BodyRewrite) : RotoBodyRewriteOp → BodyRewrite
  | .replaceTextOnce old new => rewrite.replaceAnchored [] old new
  | .replaceTextAll old new =>
      if old = [] ∨ Text.contains old rewrite.body = false then rewrite
      else { rewrite with body := Text.replaceAll old new 0 rewrite.body, changed := true }
  | .replaceRegex pattern replacement =>
      match regex pattern with
      | none => rewrite
      | some replaceAll =>
          let next := replaceAll replacement rewrite.body
          if next ≠ rewrite.body then { rewrite with body := next, changed := true } else rewrite
  | .replaceTextWhenContains anchor old new => rewrite.replaceAnchored [anchor] old new
  | .replaceJsProperty property old new => rewrite.replaceAnchored [property] old new
  | .replaceCssDeclaration property old new => rewrite.replaceAnchored [property] old new
  | .replaceHtmlAttribute selector attr old new => rewrite.replaceAnchored [selector, attr] old new
  | .applyJsonPatch patchJson contentType =>
      match applyJsonPatchRfc6902Json serde rewrite.body patchJson with
      | none => rewrite
      | some next =>
          if next ≠ rewrite.body then
            { body := next
              changed := true
              contentType := if Text.trim contentType ≠ [] then some contentType else rewrite.contentType }
          else rewrite

structure AppliedBodyRewrite where
  body : Str
  contentType : Option Str
deriving DecidableEq, Repr

/-- `apply_body_rewrite_ops`. -/
def applyBodyRewriteOps (originalBodyText : Option Str) (ops : List RotoBodyRewriteOp) :
    Option AppliedBodyRewrite :=
  if ops = [] then none
  else
    originalBodyText.bind fun body =>
      let rewrite := ops.foldl (applyBodyRewriteOp serde regex) ⟨body, none, false⟩
      if rewrite.changed then some ⟨rewrite.body, rewrite.contentType⟩ else none

/-- The body of a patch: a text set as a whole comes before rewritten text. -/
def bodyPatch (bodyText bodyContentType : Option Str) (rewritten : Option AppliedBodyRewrite) :
    Option FilterBodyPatch :=
  match bodyText with
  | some bodyText => some ⟨Text.bytes bodyText, bodyContentType⟩
  | none => rewritten.map fun rewrite => ⟨Text.bytes rewrite.body, rewrite.contentType.or bodyContentType⟩

end Apply

/-- The headers that were set, as the proxy has them. -/
def filterHeaders (headers : List (Str × Str)) : List FilterHeader := headers.map fun (name, value) => ⟨name, value⟩

/-- The marks that were put, as the proxy has them. -/
def filterMarks (labels : List Str) : List FilterMark := labels.map fun label => ⟨label, some "green".toList⟩

/-! ## Request actions -/

structure RotoRequestActionData where
  setHeaders : List (Str × Str)
  removeHeaders : List Str
  marks : List Str
  bodyText : Option Str
  bodyContentType : Option Str
  bodyRewriteOps : List RotoBodyRewriteOp
  syntheticStatus : Option UInt16
  syntheticBody : Option Str
  syntheticContentType : Option Str
  stop : Bool
  drop : Bool
deriving DecidableEq

namespace RotoRequestActionData

/-- `RequestAction.pass()`. -/
def pass : RotoRequestActionData := ⟨[], [], [], none, none, [], none, none, none, false, false⟩

variable (action : RotoRequestActionData)

/-- The methods that push a rewrite. -/
def pushRewrite (op : RotoBodyRewriteOp) : RotoRequestActionData :=
  { action with bodyRewriteOps := action.bodyRewriteOps ++ [op] }

/-- `set_body_text`. -/
def setBodyText (body contentType : Str) : RotoRequestActionData :=
  { action with
    bodyText := some body
    bodyContentType := if contentType ≠ [] then some contentType else action.bodyContentType }

/-- `synthetic_response`. -/
def syntheticResponse (status : UInt16) (body contentType : Str) : RotoRequestActionData :=
  { action with
    syntheticStatus := some status
    syntheticBody := some body
    syntheticContentType := if contentType ≠ [] then some contentType else action.syntheticContentType
    stop := true }

variable {N : Type} [BEq N] (serde : SerdeJson N) (regex : Str → Option (Str → Str → Str))

/-- The synthetic response of `into_request_action`. -/
def intoSyntheticResponse : Option FilterSyntheticResponse :=
  action.syntheticStatus.map fun status =>
    { status := status
      headers :=
        match action.syntheticContentType with
        | some contentType =>
            if Text.trim contentType ≠ [] then [⟨"content-type".toList, contentType⟩] else []
        | none => []
      body := (action.syntheticBody.map Text.bytes).getD [] }

/-- `into_request_action`. -/
def intoRequestAction (originalBodyText : Option Str) : RequestAction :=
  let rewritten := applyBodyRewriteOps serde regex originalBodyText action.bodyRewriteOps
  { RequestAction.pass with
    continueFilters := !action.stop && action.syntheticStatus.isNone
    dropClientResponse := action.drop
    syntheticResponse := action.intoSyntheticResponse
    request :=
      if action.setHeaders ≠ [] ∨ action.removeHeaders ≠ [] ∨ action.bodyText.isSome ∨ rewritten.isSome then
        some { FilterRequestPatch.default with
          setHeaders := filterHeaders action.setHeaders
          removeHeaders := action.removeHeaders
          body := bodyPatch action.bodyText action.bodyContentType rewritten }
      else none
    marks := filterMarks action.marks }

end RotoRequestActionData

/-! ## Response actions -/

inductive RotoOutboundHttpBodyData
  | text (body contentType : Str)
  | capturedRequest
  | capturedResponse
  | capturedRequestJson
  | capturedResponseJson
  | capturedFlowJson
deriving DecidableEq

structure RotoOutboundHttpData where
  client : Str
  method : Str
  path : Str
  body : RotoOutboundHttpBodyData
deriving DecidableEq

structure RotoResponseActionData where
  status : Option UInt16
  setHeaders : List (Str × Str)
  removeHeaders : List Str
  marks : List Str
  bodyText : Option Str
  bodyContentType : Option Str
  bodyRewriteOps : List RotoBodyRewriteOp
  outboundHttp : List RotoOutboundHttpData
  stop : Bool
  drop : Bool
deriving DecidableEq

/-- The content type that goes with a body, and the body itself. -/
def RotoOutboundHttpBodyData.resolve : RotoOutboundHttpBodyData → Str × OutboundHttpBodySource
  | .text body contentType => (contentType, .bytes (Text.bytes body))
  | .capturedRequest => ("application/octet-stream".toList, .capturedRequest)
  | .capturedResponse => ("application/octet-stream".toList, .capturedResponse)
  | .capturedRequestJson => ("application/json".toList, .capturedRequestJson)
  | .capturedResponseJson => ("application/json".toList, .capturedResponseJson)
  | .capturedFlowJson => ("application/json".toList, .capturedFlowJson)

/-- The job made of what a script posted. -/
def RotoOutboundHttpData.intoJob (job : RotoOutboundHttpData) : OutboundHttpJob :=
  ⟨job.client, job.method, job.path, [⟨"content-type".toList, job.body.resolve.1⟩], job.body.resolve.2⟩

namespace RotoResponseActionData

/-- `ResponseAction.pass()`. -/
def pass : RotoResponseActionData := ⟨none, [], [], [], none, none, [], [], false, false⟩

variable (action : RotoResponseActionData)

/-- The methods that push a rewrite. -/
def pushRewrite (op : RotoBodyRewriteOp) : RotoResponseActionData :=
  { action with bodyRewriteOps := action.bodyRewriteOps ++ [op] }

/-- `set_body_text`. -/
def setBodyText (body contentType : Str) : RotoResponseActionData :=
  { action with
    bodyText := some body
    bodyContentType := if contentType ≠ [] then some contentType else action.bodyContentType }

variable {N : Type} [BEq N] (serde : SerdeJson N) (regex : Str → Option (Str → Str → Str))

/-- `into_response_action`. -/
def intoResponseAction (originalBodyText : Option Str) : ResponseAction :=
  let rewritten := applyBodyRewriteOps serde regex originalBodyText action.bodyRewriteOps
  { ResponseAction.pass with
    continueFilters := !action.stop
    dropClientResponse := action.drop
    response :=
      if action.status.isSome ∨ action.setHeaders ≠ [] ∨ action.removeHeaders ≠ [] ∨ action.bodyText.isSome
          ∨ rewritten.isSome then
        some
          { status := action.status
            setHeaders := filterHeaders action.setHeaders
            removeHeaders := action.removeHeaders
            body := bodyPatch action.bodyText action.bodyContentType rewritten }
      else none
    marks := filterMarks action.marks
    outboundHttp := action.outboundHttp.map RotoOutboundHttpData.intoJob }

end RotoResponseActionData

/-! ## The actions of a generated filter -/

section Generated

variable {N : Type} (serde : SerdeJson N)

/-- The call that `write_request_roto` writes for an action, run. What has no call in a request filter is a comment
    there. `replace_body_text` replaces every occurrence. -/
def GeneratedFilterAction.runRequest (data : RotoRequestActionData) :
    GeneratedFilterAction → RotoRequestActionData
  | .mark label => { data with marks := data.marks ++ [label] }
  | .setRequestHeader name value => { data with setHeaders := data.setHeaders ++ [(name, value)] }
  | .removeRequestHeader name => { data with removeHeaders := data.removeHeaders ++ [name] }
  | .setRequestBodyText body contentType => data.setBodyText body contentType
  | .replaceRequestBodyText old new => data.pushRewrite (.replaceTextAll old new)
  | .replaceRequestBodyTextOnce old new => data.pushRewrite (.replaceTextOnce old new)
  | .replaceRequestBodyTextAll old new => data.pushRewrite (.replaceTextAll old new)
  | .replaceRequestBodyRegex pattern replacement => data.pushRewrite (.replaceRegex pattern replacement)
  | .replaceRequestBodyTextWhenContains anchor old new =>
      data.pushRewrite (.replaceTextWhenContains anchor old new)
  | .replaceRequestJsProperty property old new => data.pushRewrite (.replaceJsProperty property old new)
  | .replaceRequestCssDeclaration property old new => data.pushRewrite (.replaceCssDeclaration property old new)
  | .replaceRequestHtmlAttribute selector attr old new =>
      data.pushRewrite (.replaceHtmlAttribute selector attr old new)
  | .applyRequestJsonPatch operations _ contentType =>
      data.pushRewrite (.applyJsonPatch (jsonPatchOperationsToRfc6902Json serde operations) contentType)
  | .syntheticResponse status body contentType => data.syntheticResponse status body contentType
  | .stop => { data with stop := true }
  | .drop => { data with stop := true, drop := true }
  | _ => data

/-- The call that `write_response_roto` writes for an action, run. A response action has no method
    `replace_body_text`: a filter that calls it does not compile. -/
def GeneratedFilterAction.runResponse (data : RotoResponseActionData) :
    GeneratedFilterAction → Option RotoResponseActionData
  | .mark label => some { data with marks := data.marks ++ [label] }
  | .setResponseStatus status => some { data with status := some status }
  | .setResponseHeader name value => some { data with setHeaders := data.setHeaders ++ [(name, value)] }
  | .removeResponseHeader name => some { data with removeHeaders := data.removeHeaders ++ [name] }
  | .setResponseBodyText body contentType => some (data.setBodyText body contentType)
  | .replaceResponseBodyText _ _ => none
  | .replaceResponseBodyTextOnce old new => some (data.pushRewrite (.replaceTextOnce old new))
  | .replaceResponseBodyTextAll old new => some (data.pushRewrite (.replaceTextAll old new))
  | .replaceResponseBodyRegex pattern replacement => some (data.pushRewrite (.replaceRegex pattern replacement))
  | .replaceResponseBodyTextWhenContains anchor old new =>
      some (data.pushRewrite (.replaceTextWhenContains anchor old new))
  | .replaceResponseJsProperty property old new => some (data.pushRewrite (.replaceJsProperty property old new))
  | .replaceResponseCssDeclaration property old new =>
      some (data.pushRewrite (.replaceCssDeclaration property old new))
  | .replaceResponseHtmlAttribute selector attr old new =>
      some (data.pushRewrite (.replaceHtmlAttribute selector attr old new))
  | .applyResponseJsonPatch operations _ contentType =>
      some (data.pushRewrite (.applyJsonPatch (jsonPatchOperationsToRfc6902Json serde operations) contentType))
  | .stop => some { data with stop := true }
  | .drop => some { data with stop := true, drop := true }
  | _ => some data

/-- What the `request_action` of a generated filter returns where its conditions hold. -/
def requestActionData (actions : List GeneratedFilterAction) : RotoRequestActionData :=
  actions.foldl (GeneratedFilterAction.runRequest serde) RotoRequestActionData.pass

/-- What the `response_action` of a generated filter returns where its conditions hold, if it compiles. -/
def responseActionData (actions : List GeneratedFilterAction) : Option RotoResponseActionData :=
  actions.foldlM (GeneratedFilterAction.runResponse serde) RotoResponseActionData.pass

end Generated

end Inspect.Filters
