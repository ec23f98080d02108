import Inspect.Filters.Editor
import Inspect.Filters.Types
import Inspect.Lib.Fields

/-!
# `Filters.EditorText` — a message as text in the editor pane

The other half of `src/filters/editor.rs`: the message that is made of a captured one, the text it is written as,
the reading of the edited text, and the session that holds both. `debug` is `format!("{:?}")` of a text; it is
used in the messages of errors.
-/

namespace Inspect.Filters

/-! ## Captured messages -/

/-- `editable_headers_from_filter_headers`. -/
def editableHeadersFromFilterHeaders (headers : List FilterHeader) : List EditableHttpHeader :=
  headers.map fun header => ⟨header.name, header.value⟩

/-- `editable_body_from_filter_body`. -/
def editableBodyFromFilterBody (body : FilterBody) : EditableHttpBody :=
  match body.text with
  | some text => .text text body.contentType
  | none => if body.bytes = [] then .empty else .binary body.bytes.length body.contentType

namespace EditableHttpMessage

/-- `from_filter_request`. -/
def fromFilterRequest (request : FilterRequest) : EditableHttpMessage where
  kind := .request
  method := some request.method
  scheme := some request.scheme
  host := request.host
  path := request.path
  query := request.query
  status := none
  headers := editableHeadersFromFilterHeaders request.headers
  body := editableBodyFromFilterBody request.body

/-- `from_filter_response`. -/
def fromFilterResponse (request : FilterRequest) (response : FilterResponse) : EditableHttpMessage where
  kind := .response
  method := none
  scheme := some request.scheme
  host := request.host
  path := request.path
  query := request.query
  status := some response.status
  headers := editableHeadersFromFilterHeaders response.headers
  body := editableBodyFromFilterBody response.body

/-- `from_filter_response_without_request_context`. -/
def fromFilterResponseWithoutRequestContext (response : FilterResponse) : EditableHttpMessage where
  kind := .response
  method := none
  scheme := none
  host := []
  path := "/".toList
  query := []
  status := some response.status
  headers := editableHeadersFromFilterHeaders response.headers
  body := editableBodyFromFilterBody response.body

end EditableHttpMessage

/-! ## Writing -/

/-- A line `key: value`. -/
def fieldLine (key value : Str) : Str := key ++ ": ".toList ++ value

/-- Lines, each with its line feed. -/
def writeLines (lines : List Str) : Str := lines.flatMap fun line => line ++ ['\n']

namespace EditableHttpMessage

variable (message : EditableHttpMessage)

/-- The lines above the headers. -/
def metaLines : List Str :=
  (match message.kind with
    | .request =>
        [fieldLine "kind".toList "request".toList,
          fieldLine "method".toList (message.method.getD []),
          fieldLine "scheme".toList (message.scheme.getD [])]
    | .response =>
        [fieldLine "kind".toList "response".toList,
          fieldLine "status".toList ((message.status.map fun status => Nat.toDigits 10 status.toNat).getD [])])
  ++ [fieldLine "host".toList message.host, fieldLine "path".toList message.path,
      fieldLine "query".toList message.query]

/-- The header lines. -/
def headerLines : List Str := message.headers.map fun header => fieldLine header.name header.value

/-- What follows the line `body:`. -/
def writeBody : EditableHttpBody → Str
  | .text text _ => if text.getLast? = some '\n' then text else text ++ ['\n']
  | .binary bytesLen contentType =>
      writeLines (["# binary body is not editable".toList,
          "# bytes_len: ".toList ++ Nat.toDigits 10 bytesLen]
        ++ (contentType.map fun contentType => "# content_type: ".toList ++ contentType).toList)
  | .empty => []

/-- `to_edit_text`. -/
def toEditText : Str :=
  writeLines message.metaLines ++ "\nheaders:\n".toList ++ writeLines message.headerLines
    ++ "\nbody:\n".toList ++ writeBody message.body

end EditableHttpMessage

/-! ## Reading -/

structure EditTextSections where
  metadata : Str
  headers : Str
  body : Str
deriving DecidableEq

/-- `split_edit_text_sections`. -/
def splitEditTextSections (text : Str) : EditTextSections :=
  match Text.splitOnce "\nheaders:\n".toList text with
  | none => ⟨text, [], []⟩
  | some (metadata, afterMeta) =>
      match Text.splitOnce "\nbody:\n".toList afterMeta with
      | none => ⟨metadata, afterMeta, []⟩
      | some (headers, body) => ⟨metadata, headers, body⟩

/-- `empty_to_none`. -/
def emptyToNone (value : Str) : Option Str := if value = [] then none else some value

/-- Lines that the two loops skip. -/
def isBlankOrComment (line : Str) : Bool := line.isEmpty || line.head? == some '#'

/-- The variables of `parse_edit_text` that the metadata lines set. -/
structure EditVars where
  kind : EditableHttpMessageKind
  method : Option Str
  scheme : Option Str
  host : Str
  path : Str
  query : Str
  status : Option UInt16
  bodyContentType : Option Str
deriving DecidableEq

/-- Their values before the loop. -/
def EditVars.initial : Option EditableHttpMessage → EditVars
  | some original =>
      ⟨original.kind, original.method, original.scheme, original.host, original.path, original.query,
        original.status, original.bodyContentType⟩
  | none => ⟨.request, none, none, [], "/".toList, [], none, none⟩

/-- An `EditableHttpMessageParseError` is its message. -/
abbrev EditableHttpMessageParseError := Str

section Parse

variable (debug : Str → Str)

/-- The value of a status line. -/
def parseStatus (value : Str) : Except EditableHttpMessageParseError (Option UInt16) :=
  if value = [] then .ok none
  else
    match Text.parseUnsigned (2 ^ 16) value with
    | some status => .ok (some (UInt16.ofNat status))
    | none => .error ("invalid status: ".toList ++ debug value)

/-- The `match` of the loop over the metadata lines. -/
def EditVars.set (vars : EditVars) (key value : Str) : Except EditableHttpMessageParseError EditVars :=
  if key = "kind".toList then
    if value = "request".toList then .ok { vars with kind := .request }
    else if value = "response".toList then .ok { vars with kind := .response }
    else .error ("invalid kind: ".toList ++ debug value)
  else if key = "method".toList then .ok { vars with method := emptyToNone value }
  else if key = "scheme".toList then .ok { vars with scheme := emptyToNone value }
  else if key = "host".toList then .ok { vars with host := value }
  else if key = "path".toList then .ok { vars with path := value }
  else if key = "query".toList then .ok { vars with query := value }
  else if key = "status".toList then (parseStatus debug value).map fun status => { vars with status }
  else if key = "content-type".toList ∨ key = "content_type".toList then
    .ok { vars with bodyContentType := emptyToNone value }
  else .error ("unknown meta key: ".toList ++ debug key)

/-- One round of the loop over the metadata lines. -/
def parseMetaLine (vars : EditVars) (line : Str) : Except EditableHttpMessageParseError EditVars :=
  let line := Text.trim line
  if isBlankOrComment line then .ok vars
  else
    match Text.splitOnce [':'] line with
    | none => .error ("invalid meta line: ".toList ++ debug line)
    | some (key, value) => vars.set debug (Text.toAsciiLowercase (Text.trim key)) (Text.trim value)

/-- One round of the loop of `parse_edit_headers`. -/
def parseHeaderLine (headers : List EditableHttpHeader) (line : Str) :
    Except EditableHttpMessageParseError (List EditableHttpHeader) :=
  let line := Text.trim line
  if isBlankOrComment line then .ok headers
  else
    match Text.splitOnce [':'] line with
    | none => .error ("invalid header line: ".toList ++ debug line)
    | some (name, value) =>
        if Text.trim name = [] then .error "header name must not be empty".toList
        else .ok (headers ++ [⟨Text.trim name, Text.trim value⟩])

/-- `parse_edit_headers`. -/
def parseEditHeaders (text : Str) : Except EditableHttpMessageParseError (List EditableHttpHeader) :=
  (Text.lines text).foldlM (parseHeaderLine debug) []

/-- A body where there was none before. -/
def newBody (body : Str) (bodyContentType : Option Str) : EditableHttpBody :=
  if body = [] then .empty else .text body bodyContentType

/-- The body of the message that is read: a binary one stays as it was, and a line feed that was only written to
    end the text is taken off again. -/
def parseBody (original : Option EditableHttpMessage) (body : Str) (bodyContentType : Option Str) :
    EditableHttpBody :=
  match original.map EditableHttpMessage.body with
  | some (.binary bytesLen contentType) => .binary bytesLen contentType
  | some (.text originalText contentType) =>
      let normalizedBodyText :=
        if originalText.getLast? ≠ some '\n' ∧ Text.len body = Text.len originalText + 1
            ∧ originalText.isPrefixOf body = true ∧ body.getLast? = some '\n' then originalText
        else body
      .text normalizedBodyText (bodyContentType.or contentType)
  | some .empty | none => newBody body bodyContentType

/-- `parse_edit_text`. -/
def parseEditText (text : Str) (original : Option EditableHttpMessage) :
    Except EditableHttpMessageParseError EditableHttpMessage := do
  let sections := splitEditTextSections text
  let vars ← (Text.lines sections.metadata).foldlM (parseMetaLine debug) (EditVars.initial original)
  let headers ← parseEditHeaders debug sections.headers
  return {
    kind := vars.kind
    method := vars.method
    scheme := vars.scheme
    host := vars.host
    path := vars.path
    query := vars.query
    status := vars.status
    headers
    body := parseBody original sections.body vars.bodyContentType }

end Parse

/-! ## From the edited text to a filter -/

inductive EditedFilterGenerationError
  | parse (error : EditableHttpMessageParseError)
  | noChanges
  | wrongMessageKind (expected actual : EditableHttpMessageKind)
  | missingResponseStatus
deriving DecidableEq

section Generate

variable {N : Type} [BEq N] (serde : SerdeJson N) (treeSitter : BodyLanguage → Str → Option SyntaxNode)
  (debug : Str → Str) (uuid : Str)

/-- `generate_request_filter_from_edited_text`. -/
def generateRequestFilterFromEditedText (name : Str) (request : FilterRequest) (editedText : Str) :
    Except EditedFilterGenerationError GeneratedFilter :=
  let original := EditableHttpMessage.fromFilterRequest request
  match parseEditText debug editedText (some original) with
  | .error error => .error (.parse error)
  | .ok edited =>
      if edited.kind ≠ .request then .error (.wrongMessageKind .request edited.kind)
      else
        match extractRequestFilterFromEdit serde treeSitter debug uuid name original edited with
        | some filter => .ok filter
        | none => .error .noChanges

/-- `generate_response_filter_from_edited_text`. -/
def generateResponseFilterFromEditedText (name : Str) (request : FilterRequest) (response : FilterResponse)
    (editedText : Str) : Except EditedFilterGenerationError GeneratedFilter :=
  let requestContext := EditableHttpMessage.fromFilterRequest request
  let original := EditableHttpMessage.fromFilterResponse request response
  match parseEditText debug editedText (some original) with
  | .error error => .error (.parse error)
  | .ok edited =>
      if edited.kind ≠ .response then .error (.wrongMessageKind .response edited.kind)
      else if edited.status.isNone then .error .missingResponseStatus
      else
        match extractResponseFilterFromEdit serde treeSitter debug uuid name requestContext original edited with
        | some filter => .ok filter
        | none => .error .noChanges

end Generate

/-! ## Sessions -/

inductive EditableFilterSession
  | request (name : Str) (original : EditableHttpMessage) (editedText : Str)
  | response (name : Str) (requestContext original : EditableHttpMessage) (editedText : Str)
deriving DecidableEq

inductive EditableFilterSessionError
  | parse (error : EditableHttpMessageParseError)
  | noChanges
  | wrongMessageKind (expected actual : EditableHttpMessageKind)
  | missingResponseStatus
deriving DecidableEq

namespace EditableFilterSession

/-- `EditableFilterSession::request`. -/
def ofRequest (name : Str) (request : FilterRequest) : EditableFilterSession :=
  let original := EditableHttpMessage.fromFilterRequest request
  .request name original original.toEditText

/-- `EditableFilterSession::response`. -/
def ofResponse (name : Str) (request : FilterRequest) (response : FilterResponse) : EditableFilterSession :=
  let original := EditableHttpMessage.fromFilterResponse request response
  .response name (EditableHttpMessage.fromFilterRequest request) original original.toEditText

variable {N : Type} [BEq N] (serde : SerdeJson N) (treeSitter : BodyLanguage → Str → Option SyntaxNode)
  (debug : Str → Str) (uuid : Str)

/-- `generate_filter`. -/
def generateFilter : EditableFilterSession → Except EditableFilterSessionError GeneratedFilter
  | .request name original editedText =>
      match parseEditText debug editedText (some original) with
      | .error error => .error (.parse error)
      | .ok edited =>
          if edited.kind ≠ .request then .error (.wrongMessageKind .request edited.kind)
          else
            match extractRequestFilterFromEdit serde treeSitter debug uuid name original edited with
            | some filter => .ok filter
            | none => .error .noChanges
  | .response name requestContext original editedText =>
      match parseEditText debug editedText (some original) with
      | .error error => .error (.parse error)
      | .ok edited =>
          if edited.kind ≠ .response then .error (.wrongMessageKind .response edited.kind)
          else if edited.status.isNone then .error .missingResponseStatus
          else
            match extractResponseFilterFromEdit serde treeSitter debug uuid name requestContext original edited with
            | some filter => .ok filter
            | none => .error .noChanges

end EditableFilterSession

end Inspect.Filters
