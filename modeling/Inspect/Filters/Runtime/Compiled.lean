import Inspect.Filters.Manager.Load
import Inspect.Filters.Runtime.Action
import Inspect.Filters.Runtime.State

/-!
# `Filters.Runtime.Compiled` — running one filter

The embedding of `CompiledFilter` and `CompiledFilterSet` of `src/filters/runtime.rs`: which functions a compiled
script exports, and the action that is made of what they return. A script can call the state store while it handles a
request or a response, but not while it handles a tunnel: a `Connect` has no state methods.
-/

namespace Inspect.Filters

/-! ## What a script sees -/

structure RotoConnectData where
  id : Str
  host : Str
  port : UInt16
deriving DecidableEq

/-- `From<FilterConnect>`. -/
def RotoConnectData.fromFilterConnect (conn : FilterConnect) : RotoConnectData := ⟨conn.id, conn.host, conn.port⟩

structure RotoRequestData where
  method : Str
  scheme : Str
  host : Str
  path : Str
  query : Str
  contentType : Str
  bodyText : Str
deriving DecidableEq

/-- `from_filter_request`. -/
def RotoRequestData.fromFilterRequest (req : FilterRequest) : RotoRequestData :=
  ⟨req.method, req.scheme, req.host, req.path, req.query, req.body.contentType.getD [], req.body.text.getD []⟩

structure RotoResponseData where
  status : UInt16
  version : Str
  contentType : Str
  bodyText : Str
deriving DecidableEq

/-- `from_filter_response`. -/
def RotoResponseData.fromFilterResponse (res : FilterResponse) : RotoResponseData :=
  ⟨res.status, res.version, res.body.contentType.getD [], res.body.text.getD []⟩

/-! ## Tunnels -/

structure RotoConnectActionData where
  stop : Bool
  drop : Bool
  rejectStatus : Option UInt16
  marks : List Str
deriving DecidableEq

/-- `From<RotoConnectActionData>`. -/
def RotoConnectActionData.intoConnectAction (action : RotoConnectActionData) : ConnectAction where
  marks := action.marks.map fun label => ⟨label, none⟩
  continueFilters := !action.stop
  dropTunnel := action.drop || action.rejectStatus.isSome
  rejectStatus := action.rejectStatus

/-! ## Compiled filters -/

structure CompiledRotoFilter where
  onRequest : Option (RotoRequestData → RotoScript Bool)
  onResponse : Option (RotoResponseData → RotoScript Bool)
  connectAction : Option (RotoConnectData → RotoConnectActionData)
  requestAction : Option (RotoRequestData → RotoScript RotoRequestActionData)
  responseAction : Option (RotoResponseData → RotoScript RotoResponseActionData)
  requestMark : Option (RotoRequestData → RotoScript Str)
  responseMark : Option (RotoResponseData → RotoScript Str)
  requestHeaderName : Option (RotoRequestData → RotoScript Str)
  requestHeaderValue : Option (RotoRequestData → RotoScript Str)
  responseHeaderName : Option (RotoResponseData → RotoScript Str)
  responseHeaderValue : Option (RotoResponseData → RotoScript Str)
  requestBody : Option (RotoRequestData → RotoScript Str)
  requestBodyContentType : Option (RotoRequestData → RotoScript Str)
  responseBody : Option (RotoResponseData → RotoScript Str)
  responseBodyContentType : Option (RotoResponseData → RotoScript Str)

/-- `CompiledRotoFilter::default`: a script that exports nothing but `ping`. -/
def CompiledRotoFilter.default : CompiledRotoFilter :=
  ⟨none, none, none, none, none, none, none, none, none, none, none, none, none, none, none⟩

/-- `non_empty_roto_string`. -/
def nonEmptyRotoString (value : Str) : Option Str := if Text.trim value = [] then none else some (Text.trim value)

/-- `CompiledFilter::name`. -/
def CompiledFilter.name {P : Type} (filter : CompiledFilter P) : Str :=
  filter.definition.metadata.name.getD (defaultFilterName filter.definition.path)

/-- The optional functions of a script that make a mark, a header and a body, for one kind of message. -/
structure LabelFunctions (D : Type) where
  mark : Option (D → RotoScript Str)
  headerName : Option (D → RotoScript Str)
  headerValue : Option (D → RotoScript Str)
  body : Option (D → RotoScript Str)
  bodyContentType : Option (D → RotoScript Str)

/-- What they made. -/
structure LabelResult where
  label : Str
  headers : List FilterHeader
  body : Option FilterBodyPatch
deriving DecidableEq

section Labels

variable {D : Type} (functions : LabelFunctions D) (context : RuntimeStateContext) (data : D)

/-- A call of an optional function that returns a text; a blank text is none. -/
def callNonEmpty : Option (D → RotoScript Str) → StateM RuntimeState (Option Str)
  | none => pure none
  | some function => do
      let value ← (function data).call context
      return nonEmptyRotoString value

/-- The header, if both functions are there and the name is not blank. -/
def callHeader : StateM RuntimeState (List FilterHeader) :=
  match functions.headerName, functions.headerValue with
  | some nameFn, some valueFn => do
      let name ← (nameFn data).call context
      match nonEmptyRotoString name with
      | none => return []
      | some name =>
          let value ← (valueFn data).call context
          return [⟨name, value⟩]
  | _, _ => pure []

/-- The body, if its function is there. -/
def callBody : StateM RuntimeState (Option FilterBodyPatch) :=
  match functions.body with
  | none => pure none
  | some bodyFn => do
      let body ← (bodyFn data).call context
      let contentType ← callNonEmpty context data functions.bodyContentType
      return some ⟨Text.bytes body, contentType⟩

/-- What the source does after `on_request` or `on_response` returned true. -/
def callLabels (defaultLabel marker name : Str) : StateM RuntimeState LabelResult := do
  let label ← callNonEmpty context data functions.mark
  let headers ← callHeader functions context data
  let body ← callBody functions context data
  return ⟨label.getD defaultLabel, ⟨marker, name⟩ :: headers, body⟩

end Labels

def CompiledRotoFilter.requestLabels (filter : CompiledRotoFilter) : LabelFunctions RotoRequestData :=
  ⟨filter.requestMark, filter.requestHeaderName, filter.requestHeaderValue, filter.requestBody,
    filter.requestBodyContentType⟩

def CompiledRotoFilter.responseLabels (filter : CompiledRotoFilter) : LabelFunctions RotoResponseData :=
  ⟨filter.responseMark, filter.responseHeaderName, filter.responseHeaderValue, filter.responseBody,
    filter.responseBodyContentType⟩

/-- A request action that sets headers and a body and puts a mark. -/
def LabelResult.requestAction (result : LabelResult) : RequestAction :=
  { RequestAction.pass with
    request := some { FilterRequestPatch.default with setHeaders := result.headers, body := result.body }
    marks := [⟨result.label, some "green".toList⟩] }

/-- A response action that sets headers and a body and puts a mark. -/
def LabelResult.responseAction (result : LabelResult) : ResponseAction :=
  { ResponseAction.pass with
    response := some ⟨none, result.headers, [], result.body⟩
    marks := [⟨result.label, some "green".toList⟩] }

namespace CompiledFilter

variable (filter : CompiledFilter CompiledRotoFilter)

/-- `CompiledFilter::run_connect_action`. -/
def runConnectAction (conn : FilterConnect) : Option ConnectAction :=
  match filter.program with
  | .metadataOnly => none
  | .compiled script =>
      script.connectAction.map fun function =>
        (function (RotoConnectData.fromFilterConnect conn)).intoConnectAction

variable {N : Type} [BEq N] (serde : SerdeJson N) (regex : Str → Option (Str → Str → Str))

/-- `CompiledFilter::on_request`. -/
def onRequest (context : RuntimeStateContext) (req : FilterRequest) : StateM RuntimeState RequestAction :=
  match filter.program with
  | .metadataOnly =>
      pure (LabelResult.requestAction ⟨filter.name, [⟨"x-inspect-request-filter".toList, filter.name⟩], none⟩)
  | .compiled script =>
      let data := RotoRequestData.fromFilterRequest req
      match script.requestAction with
      | some requestAction => do
          let action ← (requestAction data).call context
          return action.intoRequestAction serde regex req.body.text
      | none =>
          match script.onRequest with
          | none => pure RequestAction.pass
          | some onRequest => do
              let matched ← (onRequest data).call context
              if matched then
                let result ← callLabels script.requestLabels context data ("roto:".toList ++ filter.name)
                  "x-inspect-roto-request-filter".toList filter.name
                return result.requestAction
              else return RequestAction.pass

/-- `CompiledFilter::on_response`. -/
def onResponse (context : RuntimeStateContext) (res : FilterResponse) : StateM RuntimeState ResponseAction :=
  match filter.program with
  | .metadataOnly =>
      pure (LabelResult.responseAction
        ⟨"filtered:".toList ++ filter.name, [⟨"x-inspect-filter".toList, filter.name⟩], none⟩)
  | .compiled script =>
      let data := RotoResponseData.fromFilterResponse res
      match script.responseAction with
      | some responseAction => do
          let action ← (responseAction data).call context
          return action.intoResponseAction serde regex res.body.text
      | none =>
          match script.onResponse with
          | none => pure ResponseAction.pass
          | some onResponse => do
              let matched ← (onResponse data).call context
              if matched then
                let result ← callLabels script.responseLabels context data ("roto-res:".toList ++ filter.name)
                  "x-inspect-roto-response-filter".toList filter.name
                return result.responseAction
              else return ResponseAction.pass

end CompiledFilter

/-! ## Filter sets -/

namespace CompiledFilterSet

variable {P : Type} (filters : CompiledFilterSet P)

/-- `matching_connect`. -/
def matchingConnect (host : Str) : List (CompiledFilter P) :=
  filters.filter fun filter => filter.definition.metadata.trigger.matchesConnect host

/-- `matching_request`. -/
def matchingRequest (view : FilterRequestView) : List (CompiledFilter P) :=
  filters.filter fun filter => filter.definition.metadata.trigger.matchesRequest view

/-- `matching_response`. -/
def matchingResponse (view : FilterRequestView) : List (CompiledFilter P) :=
  filters.filter fun filter => filter.definition.metadata.trigger.matchesResponse view

/-- `matching_completed`. -/
def matchingCompleted (view : FilterRequestView) : List (CompiledFilter P) :=
  filters.filter fun filter => filter.definition.metadata.trigger.matchesCompleted view

end CompiledFilterSet

end Inspect.Filters
