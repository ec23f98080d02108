import Inspect.Lib.Path

/-!
# `Filters.Types` — what a filter declares, sees and does

The data of `src/filters/types.rs`: what a filter file declares about itself and when its trigger matches, the
messages a filter is shown, and the actions it answers with. A path of the file system is the list of its
components: of bytes for the files of filters, which may have any name, and of texts for the files of a capture.
-/

namespace Inspect.Filters

/-! ## Paths -/

/-- The absolute path of a filter file or a directory of them. -/
abbrev FilterPath := List Bytes

namespace FilterPath

/-- `Path::file_name`. -/
def fileName (path : FilterPath) : Option Bytes := path.getLast?.filter fun name => name ≠ [OsPath.dot, OsPath.dot]

/-- `Path::file_stem`. -/
def fileStem (path : FilterPath) : Option Bytes := path.fileName.bind OsPath.fileStem

/-- `to_string_lossy`. -/
def toStringLossy (path : FilterPath) : Str := path.flatMap fun component => '/' :: Bytes.fromUtf8Lossy component

end FilterPath

/-- The absolute path of a file of a capture. -/
abbrev FilePath := List Str

/-- `Path::file_name`. -/
def fileName (path : FilePath) : Option Str := path.getLast?.filter fun name => name ≠ "..".toList

/-! ## Filters -/

inductive FilterSourceKind
  | persistent
  | generated
deriving DecidableEq, Repr

inductive FilterPhase
  | connect
  | request
  | response
  | completed
deriving DecidableEq, Repr

structure FilterTrigger where
  host : List Str
  path : List Str
  method : List Str
  phase : List FilterPhase
deriving DecidableEq, Repr

/-- `FilterTrigger::default`. -/
def FilterTrigger.default : FilterTrigger := ⟨["*".toList], ["*".toList], [], []⟩

structure FilterMetadata where
  id : Option Str
  name : Option Str
  enabled : Bool
  priority : Option Int32
  trigger : FilterTrigger
deriving DecidableEq

/-- `FilterMetadata::default`. -/
def FilterMetadata.default : FilterMetadata := ⟨none, none, true, none, FilterTrigger.default⟩

structure FilterDefinition where
  id : Str
  sourceKind : FilterSourceKind
  fileName : Str
  scriptHash : Str
  path : FilterPath
  source : Str
  metadata : FilterMetadata
  script : Str
deriving DecidableEq

/-! ## Globs -/

/-- The loop of `glob_match` over the parts of the pattern: what is left of the value behind them. The first part
    is `anchored` to the start unless the pattern starts with a wildcard. -/
def globParts : Bool → List Str → Str → Option Str
  | _, [], rest => some rest
  | anchored, part :: parts, rest =>
      (if anchored then Text.stripPrefix part rest
        else (Text.find part rest).map fun foundIdx => rest.drop (foundIdx + part.length)).bind
        (globParts false parts)

/-- `glob_match`. -/
def globMatch (pattern value : Str) : Bool :=
  if pattern = "*".toList then true
  else
    let pattern := Text.toAsciiLowercase pattern
    let value := Text.toAsciiLowercase value
    if '*' ∉ pattern then pattern == value
    else
      let startsWithWildcard := pattern.head? == some '*'
      let endsWithWildcard := pattern.getLast? == some '*'
      let parts := (pattern.splitOn '*').filter (· ≠ [])
      if parts = [] then true
      else
        match globParts (!startsWithWildcard) parts value with
        | none => false
        | some rest => endsWithWildcard || rest.isEmpty

/-- `matches_any_glob`. -/
def matchesAnyGlob (patterns : List Str) (value : Str) : Bool :=
  patterns.isEmpty || patterns.any fun pattern => globMatch pattern value

/-! ## Triggers -/

structure FilterRequestView where
  host : Str
  path : Str
  method : Str
deriving DecidableEq

namespace FilterTrigger

variable (trigger : FilterTrigger)

def matchesPhase (phase : FilterPhase) : Bool := trigger.phase.isEmpty || trigger.phase.contains phase

def matchesHost (host : Str) : Bool := matchesAnyGlob trigger.host (Text.toAsciiLowercase host)

def matchesPath (path : Str) : Bool := matchesAnyGlob trigger.path path

def matchesMethod (method : Str) : Bool :=
  trigger.method.isEmpty || trigger.method.any fun candidate => Text.eqIgnoreAsciiCase candidate method

/-- `matches_connect`: only the host of the tunnel is looked at. -/
def matchesConnect (host : Str) : Bool := trigger.matchesPhase .connect && trigger.matchesHost host

/-- The part `matches_request`, `matches_response` and `matches_completed` share. -/
def matchesIn (phase : FilterPhase) (view : FilterRequestView) : Bool :=
  trigger.matchesPhase phase && trigger.matchesHost view.host && trigger.matchesPath view.path
    && trigger.matchesMethod view.method

def matchesRequest (view : FilterRequestView) : Bool := trigger.matchesIn .request view

/-- `matches_response`: the request decides, not the response. -/
def matchesResponse (view : FilterRequestView) : Bool := trigger.matchesIn .response view

def matchesCompleted (view : FilterRequestView) : Bool := trigger.matchesIn .completed view

end FilterTrigger

/-! ## Messages -/

structure FilterHeader where
  name : Str
  value : Str
deriving DecidableEq, Repr

structure FilterBody where
  bytes : List UInt8
  text : Option Str
  contentType : Option Str
  encoding : Option Str
  truncated : Bool
deriving DecidableEq, Repr

structure FilterConnect where
  id : Str
  host : Str
  port : UInt16
deriving DecidableEq

structure FilterRequest where
  id : Str
  seq : UInt64
  flowKey : Str
  method : Str
  scheme : Str
  host : Str
  path : Str
  query : Str
  version : Str
  headers : List FilterHeader
  body : FilterBody
  tlsSni : Option Str
deriving DecidableEq

structure FilterResponse where
  status : UInt16
  version : Str
  headers : List FilterHeader
  body : FilterBody
  upstreamStatus : Option UInt16
  elapsedMs : Option Int64
deriving DecidableEq

/-! ## Actions -/

structure FilterMark where
  label : Str
  color : Option Str
deriving DecidableEq, Repr

structure FilterBodyPatch where
  bytes : List UInt8
  contentType : Option Str
deriving DecidableEq, Repr

structure FilterRequestPatch where
  method : Option Str
  path : Option Str
  query : Option Str
  setHeaders : List FilterHeader
  removeHeaders : List Str
  body : Option FilterBodyPatch
deriving DecidableEq

/-- `FilterRequestPatch::default`. -/
def FilterRequestPatch.default : FilterRequestPatch := ⟨none, none, none, [], [], none⟩

structure FilterResponsePatch where
  status : Option UInt16
  setHeaders : List FilterHeader
  removeHeaders : List Str
  body : Option FilterBodyPatch
deriving DecidableEq

structure FilterSyntheticResponse where
  status : UInt16
  headers : List FilterHeader
  body : List UInt8
deriving DecidableEq

inductive OutboundHttpBodySource
  | bytes (bytes : List UInt8)
  | capturedRequest
  | capturedResponse
  | capturedRequestJson
  | capturedResponseJson
  | capturedFlowJson
deriving DecidableEq

structure OutboundHttpJob where
  client : Str
  method : Str
  path : Str
  headers : List FilterHeader
  body : OutboundHttpBodySource
deriving DecidableEq

structure ConnectAction where
  marks : List FilterMark
  continueFilters : Bool
  dropTunnel : Bool
  rejectStatus : Option UInt16
deriving DecidableEq

/-- `ConnectAction::pass`. -/
def ConnectAction.pass : ConnectAction := ⟨[], true, false, none⟩

structure RequestAction where
  request : Option FilterRequestPatch
  syntheticResponse : Option FilterSyntheticResponse
  marks : List FilterMark
  tags : List Str
  notes : List Str
  outboundHttp : List OutboundHttpJob
  continueFilters : Bool
  dropClientResponse : Bool
  bypassUpstreamProxy : Bool
deriving DecidableEq

/-- `RequestAction::pass`. -/
def RequestAction.pass : RequestAction := ⟨none, none, [], [], [], [], true, false, false⟩

structure ResponseAction where
  response : Option FilterResponsePatch
  marks : List FilterMark
  tags : List Str
  notes : List Str
  outboundHttp : List OutboundHttpJob
  continueFilters : Bool
  dropClientResponse : Bool
deriving DecidableEq

/-- `ResponseAction::pass`. -/
def ResponseAction.pass : ResponseAction := ⟨none, [], [], [], [], true, false⟩

end Inspect.Filters
