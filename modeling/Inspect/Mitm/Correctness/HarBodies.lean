import Inspect.Flow.Correctness.CapturedFlow
import Inspect.Mitm.Correctness.HarHeaders

/-!
# `Mitm.Correctness.HarBodies` — the bodies in a HAR file

Whoever commits a message writes a body file, and not always the body: the message of an error, a notice, nothing at
all. The export cannot tell; it looks at two columns of the row. A writer of something else than the body has to set
them so that its file is passed over. Those that omit or stream a body do, the others do not.
-/

namespace Inspect.Flow

open Http

/-! ## The decoded body of a message -/

/-- The codings of a message, under all the names they go by. -/
def bodyCodings (headers : HeaderMap) : List ContentCoding :=
  (HeaderMap.getAll headers contentEncoding).flatMap fun value =>
    match value.toStr with
    | some text => (encodingParts text).filterMap ContentCoding.ofName
    | none => []

/-- The body of a message without its codings, or as it is if it cannot be decoded. -/
def decodedBody (codecs : Codecs) (headers : HeaderMap) (body : Bytes) : Bytes :=
  (undoCodings codecs (bodyCodings headers) body).getD body

/-- The codings that go by one name everywhere, in the values as they are shown. -/
def namedCodings (headers : HeaderMap) : List ContentCoding :=
  (HeaderMap.getAll headers contentEncoding).flatMap fun value =>
    (encodingParts value.display).filterMap ContentCoding.named

/-- All codings of a message go by the one name, and nothing else looks like one when it is shown. -/
def CodingsKnown (headers : HeaderMap) : Prop := namedCodings headers = bodyCodings headers

instance (headers : HeaderMap) : Decidable (CodingsKnown headers) := inferInstanceAs (Decidable (_ = _))

theorem encodingParts_space (text : Str) : encodingParts (' ' :: text) = encodingParts text := by
  unfold encodingParts
  rw [List.splitOn_cons_eq_if_modifyHead, if_neg (by decide)]
  cases text.splitOn ',' with
  | nil => rfl
  | cons piece pieces => rfl

/-- The parts of several values, joined. -/
theorem encodingParts_intercalate (value : Str) (values : List Str) :
    encodingParts (", ".toList.intercalate (value :: values)) = (value :: values).flatMap encodingParts := by
  induction values generalizing value with
  | nil => simp
  | cons next values ih =>
      have hjoin : ", ".toList.intercalate (value :: next :: values)
          = value ++ ',' :: ' ' :: ", ".toList.intercalate (next :: values) := by
        rw [List.intercalate_cons_cons]
        exact List.append_assoc ..
      have hsplit : encodingParts (value ++ ',' :: ' ' :: ", ".toList.intercalate (next :: values))
          = encodingParts value ++ encodingParts (' ' :: ", ".toList.intercalate (next :: values)) := by
        unfold encodingParts
        rw [List.splitOn_append_cons_self, List.map_append]
      rw [hjoin, hsplit, encodingParts_space, ih]
      exact List.flatMap_cons.symm

/-- The user interface reads the values one by one. -/
theorem tuiCodings_eq_namedCodings (headers : HeaderMap) : tuiCodings headers = namedCodings headers := by
  unfold tuiCodings namedCodings
  rw [shownValues_text]
  cases HeaderMap.getAll headers contentEncoding with
  | nil => rfl
  | cons value values =>
      rw [List.map_cons, encodingParts_intercalate, List.filterMap_flatMap, ← List.map_cons, List.flatMap_map]

/-- A byte for each coding. -/
def ContentCoding.tag : ContentCoding → UInt8
  | .gzip => 0
  | .deflate => 1
  | .br => 2
  | .zstd => 3

/-- Decompressors that tell by their result which of them ran. -/
def loggingCodecs : Codecs := fun coding body => some (body ++ [coding.tag])

theorem undoCodings_logging (codings : List ContentCoding) (body : Bytes) :
    undoCodings loggingCodecs codings body = some (body ++ codings.reverse.map ContentCoding.tag) := by
  induction codings using List.reverseRecOn generalizing body with
  | nil => simp [undoCodings]
  | append_singleton codings coding ih =>
      have hlog : loggingCodecs coding body = some (body ++ [coding.tag]) := rfl
      rw [undoCodings_concat, hlog, Option.bind_some, ih]
      simp

theorem undoCodings_none_getD (codings : List ContentCoding) (body : Bytes) :
    (undoCodings (fun _ _ => none) codings body).getD body = body := by
  cases codings using List.reverseRecOn with
  | nil => rfl
  | append_singleton codings coding =>
      rw [undoCodings_concat]
      rfl

/-- **What is read of a file is the decoded body**, whatever the decompressors do, if the file holds the body and no
    coding goes by another name. -/
theorem readsDecoded_iff (headers : HeaderMap) (file body : Bytes) :
    (∀ codecs : Codecs, (undoCodings codecs (tuiCodings headers) file).getD file = decodedBody codecs headers body)
      ↔ file = body ∧ CodingsKnown headers := by
  unfold decodedBody CodingsKnown
  rw [tuiCodings_eq_namedCodings]
  constructor
  · intro h
    have hbody := h fun _ _ => none
    rw [undoCodings_none_getD, undoCodings_none_getD] at hbody
    subst hbody
    refine ⟨rfl, ?_⟩
    have hlog := h loggingCodecs
    rw [undoCodings_logging, undoCodings_logging, Option.getD_some, Option.getD_some] at hlog
    have htags := List.append_cancel_left hlog
    have hinjective : Function.Injective ContentCoding.tag := by
      intro coding coding'
      cases coding <;> cases coding' <;> decide
    exact List.reverse_injective (hinjective.list_map htags)
  · rintro ⟨rfl, hcodings⟩ codecs
    rw [hcodings]

end Inspect.Flow

namespace Inspect.Mitm

open Http Filters Inspect.Flow

/-! ## The text of a content -/

section Content

variable {N : Type}

/-- The member `postData` of the request of an entry. -/
def postData (entry : Json N) : Option (Json N) :=
  (Rfc6902.field entry "request".toList).bind fun request => Rfc6902.field request "postData".toList

/-- The member `content` of the response of an entry. -/
def responseContent (entry : Json N) : Option (Json N) :=
  (Rfc6902.field entry "response".toList).bind fun response => Rfc6902.field response "content".toList

/-- The bytes that the text of a content stands for. -/
def contentBytes (content : Json N) : Option Bytes :=
  ((Rfc6902.field content "text".toList).bind Rfc6902.asStr).bind fun text =>
    match Rfc6902.field content "encoding".toList with
    | none => some (Text.bytes text)
    | some (.string encoding) => if encoding = "base64".toList then Bytes.fromBase64 text else none
    | some _ => none

variable (codecs : Codecs) (serde : SerdeJson N) (jsonNumber : Int → N)

/-- A body in a HAR file is a text, and stands for the decoded bytes. -/
theorem formatBodyForHar_text (headers : Json N) (body : Bytes) :
    ∃ text, Rfc6902.field (Tui.formatBodyForHar codecs serde jsonNumber headers body) "text".toList
        = some (.string text)
      ∧ contentBytes (Tui.formatBodyForHar codecs serde jsonNumber headers body)
        = some (Tui.decodeBodyByHeaders codecs serde headers body).bytes := by
  unfold Tui.formatBodyForHar Tui.harText
  dsimp only
  cases hutf8 : if Tui.isTextualContentType serde headers then
      Bytes.fromUtf8 (Tui.decodeBodyByHeaders codecs serde headers body).bytes else none with
  | none =>
      refine ⟨_, rfl, ?_⟩
      exact Bytes.fromBase64_base64 _
  | some text =>
      refine ⟨text, rfl, ?_⟩
      split_ifs at hutf8
      exact congrArg some (Bytes.bytes_of_fromUtf8 hutf8)

/-- What `postData` takes of a content keeps its text. -/
theorem contentBytes_postDataOf {content : Json N} {text : Str}
    (h : Rfc6902.field content "text".toList = some (.string text)) :
    Rfc6902.field (postDataOf content) "text".toList = some (.string text)
      ∧ contentBytes (postDataOf content) = contentBytes content := by
  have htext : memberText content "text" = text := by
    unfold memberText
    rw [h]
    rfl
  unfold contentBytes postDataOf
  rw [htext, h]
  cases Rfc6902.field content "encoding".toList with
  | none => exact ⟨rfl, rfl⟩
  | some encoding => exact ⟨rfl, rfl⟩

variable (canonicalReason : StatusCode → Option Str) (parseSocketAddr : Str → Option (Str × Str)) (disk : Disk)

/-- The content of a request in an entry comes from the file that is included. -/
theorem postData_buildEntry (row : HarRow) :
    postData (buildEntry codecs serde jsonNumber canonicalReason parseSocketAddr disk row)
      = (includedBody disk row.requestBodySaveUnlimited row.requestBodyTruncated row.requestBodyPath).map fun body =>
          postDataOf (Tui.formatBodyForHar codecs serde jsonNumber (parseHeaders serde row.requestHeaders) body) := by
  have hrequest : Rfc6902.field (buildEntry codecs serde jsonNumber canonicalReason parseSocketAddr disk row)
      "request".toList = some (harRequest codecs serde jsonNumber disk row) := rfl
  unfold postData
  rw [hrequest, Option.bind_some]
  unfold harRequest
  cases includedBody disk row.requestBodySaveUnlimited row.requestBodyTruncated row.requestBodyPath with
  | none => rfl
  | some body => rfl

theorem responseContent_buildEntry (row : HarRow) :
    responseContent (buildEntry codecs serde jsonNumber canonicalReason parseSocketAddr disk row)
      = some (harResponseContent codecs serde jsonNumber disk row) := rfl

/-- A content of a response that is made of a file. -/
theorem harResponseContent_some {row : HarRow} {headers : Json N} {body : Bytes}
    (hheaders : parseHeaders serde row.responseHeaders = headers)
    (h : includedBody disk row.responseBodySaveUnlimited row.responseBodyTruncated row.responseBodyPath = some body) :
    harResponseContent codecs serde jsonNumber disk row = Tui.formatBodyForHar codecs serde jsonNumber headers body := by
  unfold harResponseContent
  rw [h, hheaders]

/-- A content of a response that is not made of a file has no text. -/
theorem harResponseContent_none {row : HarRow}
    (h : includedBody disk row.responseBodySaveUnlimited row.responseBodyTruncated row.responseBodyPath = none) :
    Rfc6902.field (harResponseContent codecs serde jsonNumber disk row) "text".toList = none := by
  unfold harResponseContent
  rw [h]
  rfl

/-- The entries of a document. -/
def documentEntries (document : Json N) : List (Json N) :=
  match (Rfc6902.field document "log".toList).bind fun log => Rfc6902.field log "entries".toList with
  | some (.array entries) => entries
  | _ => []

/-- A document has one entry for each request that is stored, with its response, and they stand in the order of their
    numbers. -/
theorem documentEntries_selectHarRows (rfc3999z : Int64 → Str) (requests : List (RequestMetadata N))
    (responses : List (ResponseMetadata N)) :
    ∃ ordered : List (RequestMetadata N), ordered.Perm requests
      ∧ ordered.Pairwise (fun request request' => request.seq ≤ request'.seq)
      ∧ documentEntries (buildHar codecs serde jsonNumber canonicalReason parseSocketAddr disk
          (selectHarRows serde rfc3999z requests responses))
        = ordered.map fun request => buildEntry codecs serde jsonNumber canonicalReason parseSocketAddr disk
            (harRow serde rfc3999z request (responses.find? fun response => response.id = request.id)) := by
  refine ⟨requests.mergeSort fun request request' => request.seq ≤ request'.seq, List.mergeSort_perm _ _, ?_, ?_⟩
  · refine (List.pairwise_mergeSort ?_ ?_ requests).imp fun h => of_decide_eq_true h
    · intro request request' request'' hle hle'
      exact decide_eq_true (Int64.le_trans (of_decide_eq_true hle) (of_decide_eq_true hle'))
    · intro request request'
      rw [Bool.or_eq_true, decide_eq_true_eq, decide_eq_true_eq]
      exact Int64.le_total _ _
  · show (selectHarRows serde rfc3999z requests responses).map _ = _
    unfold selectHarRows
    rw [List.map_map]
    rfl

end Content

/-! ## Entries -/

section Flow

variable {S N : Type} (dispatcher : FlowDispatcher S N) (service : CaptureService) (rfc3999z : Int64 → Str)
  (parseSocketAddr : Str → Option (Str × Str))

/-- The entry of a flow whose request, and response if there is one, are committed. -/
def flowEntry (request : CapturedRequest) (response : Option (CapturedResponse N)) (disk : Disk) : Json N :=
  let request := request.commit dispatcher service rfc3999z
  let response := response.map fun response => response.commit dispatcher service
  buildEntry dispatcher.codecs dispatcher.serde dispatcher.jsonNumber dispatcher.canonicalReason parseSocketAddr
    (disk.writeAll (request.files ++ (response.map Commit.files).getD []))
    (harRow dispatcher.serde rfc3999z request.row (response.map Commit.row))

/-- If a content has a text, it is the decoded body of the message. -/
def TextIsBody (codecs : Codecs) (message : Option ExchangedMessage) (content : Json N) : Prop :=
  Rfc6902.field content "text".toList ≠ none →
    ∃ exchanged ∈ message, contentBytes content = some (decodedBody codecs exchanged.headers exchanged.body)

/-- The texts in an entry are the decoded bodies of the messages that were exchanged. -/
structure BodiesFaithful (codecs : Codecs) (request : CapturedRequest) (response : Option (CapturedResponse N))
    (entry : Json N) : Prop where
  request : ∀ content, postData entry = some content → TextIsBody codecs request.message content
  response : ∀ content, responseContent entry = some content →
    TextIsBody codecs (response.map CapturedResponse.message) content

/-! ## The files of a flow -/

/-- The third character of the name tells the files of a request from those of a response. -/
def RequestFile (path : FilePath) : Prop := ∃ dir name, path = dir ++ [name] ∧ name[2]? = some 'q'

theorem requestFile_append {dir : FilePath} {name : Str} : RequestFile (dir ++ [name]) ↔ name[2]? = some 'q' := by
  constructor
  · rintro ⟨dir', name', heq, hname⟩
    obtain ⟨-, hlast⟩ := List.append_inj' heq rfl
    rwa [List.singleton_inj.mp hlast]
  · intro hname
    exact ⟨dir, name, rfl, hname⟩

theorem bodyFileName_getElem {base : Str} {index : Nat} (h : index < base.length) (headers : HeaderMap) :
    (bodyFileName base headers)[index]? = base[index]? := by
  unfold bodyFileName
  dsimp only
  split_ifs
  · rfl
  · exact List.getElem?_append_left h

theorem storeBody_fileName (codecs : Codecs) (base : Str) (headers : HeaderMap) (body : Bytes) :
    (service.storeBody codecs base headers body).fileName = bodyFileName base headers := by
  unfold CaptureService.storeBody
  cases bodyOmitReasonByContentType headers service.bodyOmitContentTypes with
  | none => rfl
  | some reason => rfl

theorem storeResponseBody_fileName (codecs : Codecs) (headers : HeaderMap) (body : Bytes)
    (bodyTruncatedOverride : Option Bool) (upstreamErrorMessage : Option Str) :
    (service.storeResponseBody codecs headers body bodyTruncatedOverride upstreamErrorMessage).fileName
      = bodyFileName "response.body".toList headers := by
  unfold CaptureService.storeResponseBody
  cases upstreamErrorMessage with
  | none => exact storeBody_fileName service codecs _ headers body
  | some message => rfl

/-- The files of a response are not among those of a request. -/
theorem not_requestFile_of_response (captured : CapturedResponse N) :
    ∀ file ∈ (captured.commit dispatcher service).files, ¬ RequestFile file.1 := by
  have hcommit : ∀ capture : EffectiveResponseCapture N, ∀ file ∈ (service.commitResponse dispatcher.codecs
      dispatcher.serde dispatcher.canonicalReason capture).files, ¬ RequestFile file.1 := by
    intro capture file hmem
    unfold CaptureService.commitResponse at hmem
    simp only [List.mem_cons, List.not_mem_nil, or_false] at hmem
    rcases hmem with rfl | rfl | rfl
    · rw [requestFile_append]
      decide
    · rw [requestFile_append]
      decide
    · rw [requestFile_append, storeResponseBody_fileName, bodyFileName_getElem (by decide)]
      decide
  cases captured with
  | collected input parts body elapsedMs => exact hcommit _
  | sse input parts body elapsedMs => exact hcommit _
  | streamed input parts body threshold streamedBytes interrupted elapsedMs => exact hcommit _
  | handshake ctx response elapsedMs =>
      intro file hmem
      obtain rfl | rfl : file = _ ∨ file = _ := by
        simpa [CapturedResponse.commit, handshakeResponseCommit, websocketResponseEffects, HandshakeEffect.file?]
          using hmem
      · rw [requestFile_append]
        decide
      · rw [requestFile_append]
        decide

/-! ## What the export takes -/

/-- The export takes a body if the columns say that there is no limit and that it is not cut. -/
theorem shouldIncludeBody_sqlBool (unlimited truncated : Bool) :
    shouldIncludeBody (some (sqlBool unlimited)) (some (sqlBool truncated)) = (unlimited && !truncated) := by
  cases unlimited <;> cases truncated <;> decide

/-- Whether a body is omitted by its content type. -/
def omits (headers : HeaderMap) : Bool := (bodyOmitReasonByContentType headers service.bodyOmitContentTypes).isSome

/-- The file of a body, if the export takes it. -/
def exportedBody (stored : StoredBody) : Option Bytes :=
  if stored.saveLimit.isNone && !stored.truncated then some stored.file else none

/-- The file that the export takes, of a body that is committed without a limit. -/
def unlimitedFile (headers : HeaderMap) (body : Bytes) : Option Bytes :=
  if service.bodySaveLimitBytes.isNone && !omits service headers then some body else none

/-- The file that the export takes, of a response that is committed: the message of an upstream error is never
    omitted. -/
def responseFile (input : ResponseDispatchInput N) (parts : ResponseParts) (body : Bytes) : Option Bytes :=
  match input.upstreamErrorMessage with
  | some message => if service.bodySaveLimitBytes.isNone then some (Text.bytes message) else none
  | none => unlimitedFile service parts.headers body

/-- The file that the export takes, of a handshake. -/
def handshakeFile (text : Str) : Option Bytes :=
  if service.bodySaveLimitBytes.isNone then some (Text.bytes text) else none

/-- The file of a request that the export takes. -/
def exportedRequest : CapturedRequest → Option Bytes
  | .http capture => unlimitedFile service capture.headers capture.bodyBytes
  | .handshake _ _ => handshakeFile service "<empty>\n".toList
  | .tunnelFailure _ => none

/-- The file of a response that the export takes. -/
def exportedResponse : CapturedResponse N → Option Bytes
  | .collected input parts body _ => responseFile service input parts body
  | .sse input parts _ _ => responseFile service input parts []
  | .streamed .. => none
  | .handshake .. => handshakeFile service websocketNotCapturedMessage

theorem exportedBody_storeBody (codecs : Codecs) (base : Str) (headers : HeaderMap) (body : Bytes) :
    exportedBody (service.storeBody codecs base headers body) = unlimitedFile service headers body := by
  unfold exportedBody unlimitedFile omits CaptureService.storeBody
  cases bodyOmitReasonByContentType headers service.bodyOmitContentTypes with
  | some reason => simp
  | none =>
      cases hlimit : service.bodySaveLimitBytes with
      | some limit => simp
      | none => simp [CaptureService.storedBodyBytes, hlimit, bodyStorageInfo, writeBodyForStorage]

theorem exportedBody_storeResponseBody (codecs : Codecs) (input : ResponseDispatchInput N) (parts : ResponseParts)
    (body : Bytes) :
    exportedBody (service.storeResponseBody codecs parts.headers body none input.upstreamErrorMessage)
      = responseFile service input parts body := by
  unfold responseFile
  cases hmessage : input.upstreamErrorMessage with
  | none => exact exportedBody_storeBody service codecs _ parts.headers body
  | some message =>
      unfold exportedBody CaptureService.storeResponseBody
      cases service.bodySaveLimitBytes with
      | some limit => simp
      | none => simp [bodyStorageInfo, writeBodyForStorage]

/-- A body that is marked as cut is not exported. -/
theorem exportedBody_truncated (codecs : Codecs) (headers : HeaderMap) (body : Bytes) (message : Option Str) :
    exportedBody (service.storeResponseBody codecs headers body (some true) message) = none := by
  unfold exportedBody CaptureService.storeResponseBody
  simp

/-- The export takes the file of a stored body from the path that it was written to. -/
theorem includedBody_stored {stored : StoredBody} {path : FilePath} (hpath : path ≠ []) {disk : Disk}
    (hfile : disk path = some stored.file) :
    includedBody disk (some (sqlBool (stored.saveLimit.map Int64.ofNat).isNone)) (some (sqlBool stored.truncated))
      (some path) = exportedBody stored := by
  unfold includedBody exportedBody readFile
  rw [shouldIncludeBody_sqlBool, Option.isNone_map, Option.bind_some, if_neg hpath, hfile]

/-- The export takes the file of a handshake if no limit is set. -/
theorem includedBody_handshake {text : Str} {path : FilePath} (hpath : path ≠ []) {disk : Disk}
    (hfile : disk path = some (Text.bytes text)) :
    includedBody disk (some (sqlBool (service.bodySaveLimitBytes.map Int64.ofNat).isNone)) (some (sqlBool false))
      (some path) = handshakeFile service text := by
  unfold includedBody handshakeFile readFile
  rw [shouldIncludeBody_sqlBool, Option.isNone_map, Option.bind_some, if_neg hpath, hfile, Bool.not_false,
    Bool.and_true]

/-- **What the export takes of a request**, whatever is written of the response. -/
theorem includedBody_request (captured : CapturedRequest) {rest : List (FilePath × Bytes)}
    (hrest : ∀ file ∈ rest, ¬ RequestFile file.1) (disk : Disk) :
    let commit := captured.commit dispatcher service rfc3999z
    includedBody (disk.writeAll (commit.files ++ rest)) (some (sqlBool commit.row.bodySaveLimit.isNone))
      (some (sqlBool commit.row.bodyTruncated)) (some commit.row.requestBodyPath)
      = exportedRequest service captured := by
  have hother : ∀ path, RequestFile path → ∀ file ∈ rest, path ≠ file.1 := by
    intro path hpath file hmem heq
    exact hrest file hmem (heq ▸ hpath)
  cases captured with
  | http capture =>
      have hname : RequestFile (capture.flowDir
          ++ [(service.storeRequestBody dispatcher.codecs capture.headers capture.bodyBytes).fileName]) := by
        rw [requestFile_append]
        unfold CaptureService.storeRequestBody
        rw [storeBody_fileName, bodyFileName_getElem (by decide)]
        decide
      have hfile := writeAll_of_mem [(capture.flowDir ++ ["request.head".toList], Text.bytes
          (buildRequestHeadText ⟨capture.method, capture.uri, capture.version, capture.headers⟩ capture.tlsSni))] _
        (service.storeRequestBody dispatcher.codecs capture.headers capture.bodyBytes).file (hother _ hname) disk
      have hbody := includedBody_stored (List.append_ne_nil_of_right_ne_nil _ (List.cons_ne_nil _ _)) hfile
      exact hbody.trans (exportedBody_storeBody service _ _ _ _)
  | handshake ctx req =>
      have hname : RequestFile (ctx.flowDir ++ ["request.body".toList]) := requestFile_append.mpr (by decide)
      have hrest' : ∀ file ∈ (ctx.flowDir ++ ["ssl_tls.json".toList],
          Text.bytes (websocketTlsText dispatcher ctx.tlsSni)) :: rest,
          ctx.flowDir ++ ["request.body".toList] ≠ file.1 := by
        rintro file (_ | ⟨_, hmem⟩)
        · simp
        · exact hother _ hname file hmem
      have hfile := writeAll_of_mem [(ctx.flowDir ++ ["request.head".toList],
        Text.bytes (buildRequestHeadText req.parts ctx.tlsSni))] _ (Text.bytes "<empty>\n".toList) hrest' disk
      exact includedBody_handshake service (List.append_ne_nil_of_right_ne_nil _ (List.cons_ne_nil _ _)) hfile
  | tunnelFailure capture => rfl

/-- **What the export takes of a response.** -/
theorem includedBody_response (captured : CapturedResponse N) (files : List (FilePath × Bytes)) (disk : Disk) :
    let commit := captured.commit dispatcher service
    includedBody (disk.writeAll (files ++ commit.files)) (some (sqlBool commit.row.bodySaveLimit.isNone))
      (some (sqlBool commit.row.bodyTruncated)) (some commit.row.responseBodyPath)
      = exportedResponse service captured := by
  -- the body is written last
  have hcommit : ∀ capture : EffectiveResponseCapture N,
      let commit := service.commitResponse dispatcher.codecs dispatcher.serde dispatcher.canonicalReason capture
      includedBody (disk.writeAll (files ++ commit.files)) (some (sqlBool commit.row.bodySaveLimit.isNone))
        (some (sqlBool commit.row.bodyTruncated)) (some commit.row.responseBodyPath)
        = exportedBody (service.storeResponseBody dispatcher.codecs capture.headers capture.bodyBytes
          capture.bodyTruncatedOverride capture.upstreamErrorMessage) := by
    intro capture
    have hfile := writeAll_of_mem (files ++ [
        (capture.flowDir ++ ["ssl_tls.json".toList], Text.bytes (sslTlsText dispatcher.serde capture)),
        (capture.flowDir ++ ["response.head".toList], Text.bytes (buildResponseHeadText dispatcher.canonicalReason
          ⟨capture.status, capture.version, capture.headers⟩))])
      (capture.flowDir ++ [(service.storeResponseBody dispatcher.codecs capture.headers capture.bodyBytes
        capture.bodyTruncatedOverride capture.upstreamErrorMessage).fileName])
      (service.storeResponseBody dispatcher.codecs capture.headers capture.bodyBytes
        capture.bodyTruncatedOverride capture.upstreamErrorMessage).file
      (List.forall_mem_nil _) disk
    rw [List.append_assoc] at hfile
    exact includedBody_stored (List.append_ne_nil_of_right_ne_nil _ (List.cons_ne_nil _ _)) hfile
  cases captured with
  | collected input parts body elapsedMs =>
      exact (hcommit _).trans (exportedBody_storeResponseBody service _ input parts body)
  | sse input parts body elapsedMs =>
      exact (hcommit _).trans (exportedBody_storeResponseBody service _ input parts [])
  | streamed input parts body threshold streamedBytes interrupted elapsedMs =>
      exact (hcommit _).trans (exportedBody_truncated service _ _ _ _)
  | handshake ctx response elapsedMs =>
      have hfile := writeAll_of_mem (files ++ [(ctx.flowDir ++ ["response.head".toList],
          Text.bytes (buildResponseHeadText dispatcher.canonicalReason response.parts))])
        (ctx.flowDir ++ ["response.body".toList]) (Text.bytes websocketNotCapturedMessage) (List.forall_mem_nil _) disk
      rw [List.append_assoc] at hfile
      exact includedBody_handshake service (List.append_ne_nil_of_right_ne_nil _ (List.cons_ne_nil _ _)) hfile

/-! ## The texts of an entry -/

/-- A content of these headers, made of some file, is the body of a message with the headers for all decompressors
    if the file holds the body and the codings are known. -/
theorem textIsBody_iff {serde : SerdeJson N} (message : ExchangedMessage) (file : Bytes)
    {content : Codecs → Json N}
    (hcontent : ∀ codecs, ∃ text, Rfc6902.field (content codecs) "text".toList = some (.string text)
      ∧ contentBytes (content codecs)
        = some (Tui.decodeBodyByHeaders codecs serde (headersToJson message.headers) file).bytes) :
    (∀ codecs, TextIsBody codecs (some message) (content codecs))
      ↔ file = message.body ∧ CodingsKnown message.headers := by
  rw [← readsDecoded_iff]
  refine forall_congr' fun codecs => ?_
  obtain ⟨text, htext, hbytes⟩ := hcontent codecs
  rw [decodeBodyByHeaders_bytes] at hbytes
  unfold TextIsBody
  rw [htext, hbytes]
  simp

/-- A flow whose bodies are decompressed by `codecs`. -/
abbrev withCodecs (codecs : Codecs) : FlowDispatcher S N := { dispatcher with codecs }

/-- Where the export takes a file, there is a message, and its headers are in the row. -/
theorem message_of_exportedFile {captured : CapturedRequest} {file : Bytes}
    (h : exportedRequest service captured = some file) :
    ∃ message, captured.message = some message
      ∧ (captured.commit dispatcher service rfc3999z).row.headers = headersToJson message.headers := by
  cases captured with
  | http capture => exact ⟨_, rfl, rfl⟩
  | handshake ctx req => exact ⟨_, rfl, rfl⟩
  | tunnelFailure capture => cases h

theorem headers_response (captured : CapturedResponse N) :
    (captured.commit dispatcher service).row.headers = headersToJson captured.message.headers := by
  cases captured with
  | collected => rfl
  | sse => rfl
  | streamed => rfl
  | handshake => rfl

theorem request_faithful_iff (hreads : dispatcher.serde.ReadsBack 2) (request : CapturedRequest)
    (response : Option (CapturedResponse N)) (disk : Disk) :
    (∀ codecs, ∀ content, postData (flowEntry (withCodecs dispatcher codecs) service rfc3999z parseSocketAddr request
        response disk) = some content → TextIsBody codecs request.message content)
      ↔ ∀ file ∈ exportedRequest service request, ∃ message ∈ request.message,
        file = message.body ∧ CodingsKnown message.headers := by
  have hdata : ∀ codecs, postData (flowEntry (withCodecs dispatcher codecs) service rfc3999z parseSocketAddr request
      response disk) = (exportedRequest service request).map fun body => postDataOf (Tui.formatBodyForHar codecs
        dispatcher.serde dispatcher.jsonNumber (parseHeaders dispatcher.serde (some (dispatcher.serde.toString
          (request.commit (withCodecs dispatcher codecs) service rfc3999z).row.headers))) body) := by
    intro codecs
    have hrest : ∀ file ∈ ((response.map fun response =>
        response.commit (withCodecs dispatcher codecs) service).map Commit.files).getD [], ¬ RequestFile file.1 := by
      cases response with
      | none => simp
      | some response => exact not_requestFile_of_response (withCodecs dispatcher codecs) service response
    unfold flowEntry
    dsimp only
    rw [postData_buildEntry, ← includedBody_request (withCodecs dispatcher codecs) service rfc3999z request hrest disk]
    rfl
  -- the entry reads the file back with the headers of its row, whatever the codecs are
  simp only [hdata]
  cases hfile : exportedRequest service request with
  | none => simp
  | some file =>
      obtain ⟨message, hmessage, -⟩ := message_of_exportedFile dispatcher service rfc3999z hfile
      have hiff := @textIsBody_iff N dispatcher.serde message file (fun codecs => postDataOf (Tui.formatBodyForHar
        codecs dispatcher.serde dispatcher.jsonNumber (headersToJson message.headers) file)) (by
          intro codecs
          obtain ⟨text, htext, hbytes⟩ := formatBodyForHar_text codecs dispatcher.serde dispatcher.jsonNumber
            (headersToJson message.headers) file
          obtain ⟨htext', hbytes'⟩ := contentBytes_postDataOf htext
          exact ⟨text, htext', hbytes'.trans hbytes⟩)
      have hheaders : ∀ codecs, parseHeaders dispatcher.serde (some (dispatcher.serde.toString
          (request.commit (withCodecs dispatcher codecs) service rfc3999z).row.headers))
          = headersToJson message.headers := by
        intro codecs
        obtain ⟨message', hmessage', hrow⟩ :=
          message_of_exportedFile (withCodecs dispatcher codecs) service rfc3999z hfile
        obtain rfl := Option.some.inj (hmessage.symm.trans hmessage')
        rw [hrow]
        exact parseHeaders_column hreads message.headers
      rw [hmessage]
      simp only [Option.map_some, Option.some.injEq, forall_eq', hheaders, Option.mem_def, exists_eq_left']
      exact hiff

theorem response_faithful_iff (hreads : dispatcher.serde.ReadsBack 2) (request : CapturedRequest)
    (response : Option (CapturedResponse N)) (disk : Disk) :
    (∀ codecs, ∀ content, responseContent (flowEntry (withCodecs dispatcher codecs) service rfc3999z parseSocketAddr
        request response disk) = some content → TextIsBody codecs (response.map CapturedResponse.message) content)
      ↔ ∀ captured ∈ response, ∀ file ∈ exportedResponse service captured,
        file = captured.message.body ∧ CodingsKnown captured.message.headers := by
  unfold flowEntry
  simp only [responseContent_buildEntry, Option.some.injEq, forall_eq']
  cases response with
  | none =>
      refine iff_of_true (fun codecs htext => absurd ?_ htext) (by simp)
      exact harResponseContent_none _ _ _ _ rfl
  | some captured =>
      have hincluded := fun codecs => includedBody_response (withCodecs dispatcher codecs) service captured
        (request.commit (withCodecs dispatcher codecs) service rfc3999z).files disk
      simp only [Option.map_some, Option.getD_some, Option.mem_def, Option.some.injEq, forall_eq']
      cases hfile : exportedResponse service captured with
      | none =>
          refine iff_of_true (fun codecs htext => absurd ?_ htext) (by simp)
          exact harResponseContent_none _ _ _ _ ((hincluded codecs).trans hfile)
      | some file =>
          simp only [Option.some.injEq, forall_eq']
          refine @textIsBody_iff N dispatcher.serde captured.message file _ fun codecs => ?_
          have hheaders := parseHeaders_column hreads captured.message.headers
          rw [← headers_response (withCodecs dispatcher codecs) service captured] at hheaders
          rw [harResponseContent_some _ _ _ _ hheaders ((hincluded codecs).trans hfile), headers_response]
          exact formatBodyForHar_text codecs dispatcher.serde dispatcher.jsonNumber _ file

/-! ## Main result -/

/-- What is committed of a response in place of a body is the body, or the export passes over it. -/
def CommitsBody (input : ResponseDispatchInput N) (parts : ResponseParts) (committed exchanged : Bytes) : Prop :=
  match input.upstreamErrorMessage with
  | some message => Text.bytes message = exchanged ∧ CodingsKnown parts.headers
  | none => omits service parts.headers = true ∨ committed = exchanged ∧ CodingsKnown parts.headers

/-- What is written of a request is its body, or the export passes over it. -/
def RequestWritesBody : CapturedRequest → Prop
  | .http capture => omits service capture.headers = true ∨ CodingsKnown capture.headers
  | .handshake _ req => Text.bytes "<empty>\n".toList = req.body.data ∧ CodingsKnown req.parts.headers
  | .tunnelFailure _ => True

/-- What is written of a response is its body, or the export passes over it. -/
def ResponseWritesBody : CapturedResponse N → Prop
  | .collected input parts body _ => CommitsBody service input parts body body
  | .sse input parts body _ => CommitsBody service input parts [] body.data
  | .streamed .. => True
  | .handshake _ response _ =>
      Text.bytes websocketNotCapturedMessage = response.body.data ∧ CodingsKnown response.parts.headers

theorem unlimitedFile_iff (headers : HeaderMap) (committed exchanged : Bytes) :
    (∀ file ∈ unlimitedFile service headers committed, file = exchanged ∧ CodingsKnown headers)
      ↔ service.bodySaveLimitBytes ≠ none
        ∨ omits service headers = true ∨ committed = exchanged ∧ CodingsKnown headers := by
  unfold unlimitedFile
  cases service.bodySaveLimitBytes with
  | some limit => simp
  | none => cases omits service headers <;> simp

theorem handshakeFile_iff (text : Str) (message : ExchangedMessage) :
    (∀ file ∈ handshakeFile service text, file = message.body ∧ CodingsKnown message.headers)
      ↔ service.bodySaveLimitBytes ≠ none ∨ Text.bytes text = message.body ∧ CodingsKnown message.headers := by
  unfold handshakeFile
  cases service.bodySaveLimitBytes with
  | some limit => simp
  | none => simp

theorem responseFile_iff (input : ResponseDispatchInput N) (parts : ResponseParts) (committed exchanged : Bytes) :
    (∀ file ∈ responseFile service input parts committed, file = exchanged ∧ CodingsKnown parts.headers)
      ↔ service.bodySaveLimitBytes ≠ none ∨ CommitsBody service input parts committed exchanged := by
  unfold responseFile CommitsBody
  cases input.upstreamErrorMessage with
  | none => exact unlimitedFile_iff service parts.headers committed exchanged
  | some message =>
      cases service.bodySaveLimitBytes with
      | some limit => simp
      | none => simp

/-- What the export takes of a request is its body if that was written. -/
theorem exportedRequest_iff (captured : CapturedRequest) :
    (∀ file ∈ exportedRequest service captured, ∃ message ∈ captured.message,
        file = message.body ∧ CodingsKnown message.headers)
      ↔ service.bodySaveLimitBytes ≠ none ∨ RequestWritesBody service captured := by
  cases captured with
  | http capture =>
      have h := unlimitedFile_iff service capture.headers capture.bodyBytes capture.bodyBytes
      simpa [exportedRequest, CapturedRequest.message, RequestWritesBody] using h
  | handshake ctx req =>
      have h := handshakeFile_iff service "<empty>\n".toList ⟨req.parts.headers, req.body.data⟩
      simpa [exportedRequest, CapturedRequest.message, RequestWritesBody] using h
  | tunnelFailure capture => simp [exportedRequest, RequestWritesBody]

/-- What the export takes of a response is its body if that was written. -/
theorem exportedResponse_iff (captured : CapturedResponse N) :
    (∀ file ∈ exportedResponse service captured, file = captured.message.body ∧ CodingsKnown captured.message.headers)
      ↔ service.bodySaveLimitBytes ≠ none ∨ ResponseWritesBody service captured := by
  cases captured with
  | collected input parts body elapsedMs => exact responseFile_iff service input parts body body
  | sse input parts body elapsedMs => exact responseFile_iff service input parts [] body.data
  | streamed => simp [exportedResponse, ResponseWritesBody]
  | handshake ctx response elapsedMs =>
      exact handshakeFile_iff service websocketNotCapturedMessage ⟨response.parts.headers, response.body.data⟩

/-- **When the texts of an entry are the bodies that were exchanged**, whatever the decompressors do: under a save
    limit, where the entry has none; or if whatever is written in place of a body is either marked or the body, and the
    content codings go by the names that the export knows. -/
theorem bodiesFaithful_iff (hreads : dispatcher.serde.ReadsBack 2) (request : CapturedRequest)
    (response : Option (CapturedResponse N)) (disk : Disk) :
    (∀ codecs, BodiesFaithful codecs request response
        (flowEntry (withCodecs dispatcher codecs) service rfc3999z parseSocketAddr request response disk))
      ↔ service.bodySaveLimitBytes ≠ none
        ∨ RequestWritesBody service request ∧ ∀ captured ∈ response, ResponseWritesBody service captured := by
  have hsplit : (∀ codecs, BodiesFaithful codecs request response
      (flowEntry (withCodecs dispatcher codecs) service rfc3999z parseSocketAddr request response disk))
      ↔ (∀ file ∈ exportedRequest service request, ∃ message ∈ request.message,
          file = message.body ∧ CodingsKnown message.headers)
        ∧ ∀ captured ∈ response, ∀ file ∈ exportedResponse service captured,
          file = captured.message.body ∧ CodingsKnown captured.message.headers := by
    rw [← request_faithful_iff dispatcher service rfc3999z parseSocketAddr hreads request response disk,
      ← response_faithful_iff dispatcher service rfc3999z parseSocketAddr hreads request response disk]
    exact ⟨fun h => ⟨fun codecs => (h codecs).request, fun codecs => (h codecs).response⟩,
      fun h codecs => ⟨h.1 codecs, h.2 codecs⟩⟩
  rw [hsplit, exportedRequest_iff]
  simp only [exportedResponse_iff]
  by_cases hlimit : service.bodySaveLimitBytes = none
  · simp [hlimit]
  · simp [hlimit]

end Flow

/-! ## A flow that fails at the upstream -/

/-- The capture of the request of a download. -/
def downloadCapture : EffectiveRequestCapture :=
  FlowDispatcher.requestCapture ⟨downloadInput.id, downloadInput.seq, downloadInput.flowKey, downloadInput.flowDir, 0,
    none, "https".toList, downloadInput.reqHost, downloadRequest.uri, downloadRequest.method⟩ downloadRequest []

/-- The download, when its body is read. -/
def downloadCaptured : CapturedResponse Int := .collected downloadInput downloadParts [104, 105] 0

/-- The answer to the client, when the upstream does not answer: it has no body. -/
def timeoutCaptured : CapturedResponse Int :=
  .collected { downloadInput with upstreamErrorMessage := some "upstream error: timeout".toList }
    ⟨.internalServerError, .http11, []⟩ [] 0

theorem bodiesFaithful_download :
    BodiesFaithful loggingCodecs (.http downloadCapture) (some downloadCaptured)
      (flowEntry (withCodecs plainDispatcher loggingCodecs) (CaptureService.new none []) (fun _ => []) (fun _ => none)
        (.http downloadCapture) (some downloadCaptured) fun _ => none) := by
  have hrequest : RequestWritesBody (CaptureService.new none []) (.http downloadCapture) :=
    Or.inr (by decide +kernel)
  have hresponse : ResponseWritesBody (CaptureService.new none []) downloadCaptured :=
    Or.inr ⟨rfl, by decide +kernel⟩
  exact (bodiesFaithful_iff plainDispatcher (CaptureService.new none []) (fun _ => []) (fun _ => none)
    (JsonCodec.codec_faithful.readsBack 2) (.http downloadCapture) (some downloadCaptured) fun _ => none).mpr
    (Or.inr ⟨hrequest, fun captured hmem => Option.some.inj hmem ▸ hresponse⟩) loggingCodecs

/-- Without a save limit, the message of an upstream error is exported as the body of the response. -/
theorem error_message_exported :
    ¬ BodiesFaithful plainDispatcher.codecs (.http downloadCapture) (some timeoutCaptured)
      (flowEntry plainDispatcher (CaptureService.new none []) (fun _ => []) (fun _ => none) (.http downloadCapture)
        (some timeoutCaptured) fun _ => none) := by
  intro h
  obtain ⟨message, hmessage, hbytes⟩ :=
    h.response _ (responseContent_buildEntry _ _ _ _ (fun _ => none) _ _) (by decide +kernel)
  cases hmessage
  revert hbytes
  decide +kernel

end Inspect.Mitm
