import Inspect.Filters.EditorText

/-!
# `Filters.Correctness.EditText` — what is written into the editor pane is read back

The text of a message has its sections behind marker lines and its fields one to a line. If the fields of a message
fit on a line, reading the text with the message as the original gives the message back, whatever its body is. Then:
when an edit that changes nothing is recognised as one.
-/

namespace Inspect.Filters

/-- A text that a field holds: on one line, and without white space around it. -/
structure Inline (text : Str) : Prop where
  newline : '\n' ∉ text
  carriageReturn : '\r' ∉ text
  trimmed : Text.trim text = text

/-- A header that a line holds. -/
structure EditableHttpHeader.Writable (header : EditableHttpHeader) : Prop where
  name : Inline header.name
  value : Inline header.value
  ne : header.name ≠ []
  colon : ':' ∉ header.name
  comment : header.name.head? ≠ some '#'

/-- A message whose fields can be written one to a line. -/
structure EditableHttpMessage.Writable (message : EditableHttpMessage) : Prop where
  host : Inline message.host
  path : Inline message.path
  query : Inline message.query
  method : ∀ method ∈ message.method, Inline method ∧ method ≠ []
  scheme : ∀ scheme ∈ message.scheme, Inline scheme ∧ scheme ≠ []
  headers : ∀ header ∈ message.headers, header.Writable

/-! ## Lines -/

theorem inline_nil : Inline [] := ⟨List.not_mem_nil, List.not_mem_nil, rfl⟩

theorem inline_getD {text : Option Str} (h : ∀ value ∈ text, Inline value ∧ value ≠ []) : Inline (text.getD []) := by
  cases text with
  | none => exact inline_nil
  | some value => exact (h value rfl).1

/-- The digits of a number fit on a line. -/
theorem inline_toDigits (n : Nat) : Inline (Nat.toDigits 10 n) := by
  refine ⟨Text.not_mem_decimal (by decide) n, Text.not_mem_decimal (by decide) n, Text.trim_of_isAlphanum fun c hmem => ?_⟩
  simp [Char.isAlphanum, Text.isDigit_of_mem_decimal c hmem]

/-- A line that stands for a field: on one line, and no marker. -/
structure IsFieldLine (line : Str) : Prop where
  newline : '\n' ∉ line
  carriageReturn : '\r' ∉ line
  space : ' ' ∈ line

theorem isFieldLine_fieldLine {key value : Str} (hnewline : '\n' ∉ key) (hreturn : '\r' ∉ key)
    (hvalue : Inline value) : IsFieldLine (fieldLine key value) := by
  unfold fieldLine
  refine ⟨?_, ?_, ?_⟩
  · rw [List.mem_append, List.mem_append, not_or, not_or]
    exact ⟨⟨hnewline, by decide⟩, hvalue.newline⟩
  · rw [List.mem_append, List.mem_append, not_or, not_or]
    exact ⟨⟨hreturn, by decide⟩, hvalue.carriageReturn⟩
  · rw [List.mem_append, List.mem_append]
    exact .inl (.inr (by decide))

/-- Field lines are read back. -/
theorem lines_writeLines {written : List Str} (h : ∀ line ∈ written, IsFieldLine line) :
    Text.lines (writeLines written) = written := by
  have hends : ∀ line ∈ written, '\n' ∉ line ∧ line.getLast? ≠ some '\r' := by
    intro line hmem
    exact ⟨(h line hmem).newline, fun hlast => (h line hmem).carriageReturn (List.mem_of_getLast? hlast)⟩
  have hlines := Text.lines_flatMap hends []
  rw [List.append_nil] at hlines
  rw [writeLines, hlines]
  exact List.append_nil written

/-! ## Fields -/

section Read

variable (debug : Str → Str)

/-- What the two loops see of a field line. -/
theorem splitOnce_trim_fieldLine {key value : Str} (hkey : Text.trim key = key) (hne : key ≠ [])
    (hcolon : ':' ∉ key) :
    Text.splitOnce [':'] (Text.trim (fieldLine key value)) = some (key, Text.trimEnd (' ' :: value)) := by
  rw [fieldLine, Text.trim_field hkey hne, Text.splitOnce_of_not_mem hcolon]

/-- A field line is neither blank nor a comment. -/
theorem isBlankOrComment_fieldLine {key : Str} (hkey : Text.trim key = key) (hne : key ≠ [])
    (hcomment : key.head? ≠ some '#') (value : Str) :
    isBlankOrComment (Text.trim (fieldLine key value)) = false := by
  rw [fieldLine, Text.trim_field hkey hne]
  obtain ⟨c, key, rfl⟩ := List.exists_cons_of_ne_nil hne
  simpa [isBlankOrComment] using hcomment

/-- A key as `to_edit_text` writes it. -/
def IsMetaKey (key : Str) : Prop :=
  Text.trim key = key ∧ key ≠ [] ∧ ':' ∉ key ∧ key.head? ≠ some '#' ∧ Text.toAsciiLowercase key = key

instance (key : Str) : Decidable (IsMetaKey key) := inferInstanceAs (Decidable (_ ∧ _))

/-- A metadata line sets the variable it names. -/
theorem parseMetaLine_fieldLine {key value : Str} (hkey : IsMetaKey key) (hvalue : Inline value) (vars : EditVars) :
    parseMetaLine debug vars (fieldLine key value) = vars.set debug key value := by
  obtain ⟨htrim, hne, hcolon, hcomment, hlower⟩ := hkey
  simp only [parseMetaLine, isBlankOrComment_fieldLine htrim hne hcomment,
    splitOnce_trim_fieldLine htrim hne hcolon, htrim, hlower, Text.trim_trimEnd_field hvalue.trimmed]
  rfl

/-- A header line adds its header. -/
theorem parseHeaderLine_fieldLine {header : EditableHttpHeader} (h : header.Writable)
    (headers : List EditableHttpHeader) :
    parseHeaderLine debug headers (fieldLine header.name header.value) = .ok (headers ++ [header]) := by
  simp only [parseHeaderLine, isBlankOrComment_fieldLine h.name.trimmed h.ne h.comment,
    splitOnce_trim_fieldLine h.name.trimmed h.ne h.colon, h.name.trimmed, h.ne,
    Text.trim_trimEnd_field h.value.trimmed]
  rfl

/-- The header lines are read back. -/
theorem foldlM_headerLines {headers : List EditableHttpHeader} (h : ∀ header ∈ headers, header.Writable)
    (front : List EditableHttpHeader) :
    (headers.map fun header => fieldLine header.name header.value).foldlM (parseHeaderLine debug) front
      = .ok (front ++ headers) := by
  induction headers generalizing front with
  | nil => simp [pure, Except.pure]
  | cons header headers ih =>
      obtain ⟨hheader, hheaders⟩ := List.forall_mem_cons.mp h
      rw [List.map_cons, List.foldlM_cons, parseHeaderLine_fieldLine debug hheader]
      have hrest := ih hheaders (front ++ [header])
      rw [List.append_assoc] at hrest
      exact hrest

/-- An optional field is read back if it is not empty. -/
theorem emptyToNone_getD {text : Option Str} (h : ∀ value ∈ text, Inline value ∧ value ≠ []) :
    emptyToNone (text.getD []) = text := by
  cases text with
  | none => rfl
  | some value => exact if_neg (h value rfl).2

/-- The status as it is written. -/
def statusText (status : Option UInt16) : Str := (status.map fun status => Nat.toDigits 10 status.toNat).getD []

theorem inline_statusText (status : Option UInt16) : Inline (statusText status) := by
  cases status with
  | none => exact inline_nil
  | some status => exact inline_toDigits status.toNat

/-- The status is read back. -/
theorem parseStatus_statusText (status : Option UInt16) : parseStatus debug (statusText status) = .ok status := by
  cases status with
  | none => rfl
  | some status =>
      have hread : Text.parseUnsigned (2 ^ 16) (Nat.toDigits 10 status.toNat) = some status.toNat :=
        Text.parseUnsigned_toDigits status.toNat_lt
      show parseStatus debug (Nat.toDigits 10 status.toNat) = _
      rw [parseStatus, if_neg Nat.toDigits_ne_nil, hread]
      simp

/-- The metadata lines set every variable to the value it has. -/
theorem foldlM_metaLines {message : EditableHttpMessage} (h : message.Writable) :
    message.metaLines.foldlM (parseMetaLine debug) (EditVars.initial (some message))
      = .ok (EditVars.initial (some message)) := by
  obtain ⟨kind, method, scheme, host, path, query, status, headers, body⟩ := message
  have hhost := parseMetaLine_fieldLine debug (by decide : IsMetaKey "host".toList) h.host
  have hpath := parseMetaLine_fieldLine debug (by decide : IsMetaKey "path".toList) h.path
  have hquery := parseMetaLine_fieldLine debug (by decide : IsMetaKey "query".toList) h.query
  cases kind with
  | request =>
      have hkind := parseMetaLine_fieldLine debug (by decide : IsMetaKey "kind".toList)
        (⟨by decide, by decide, rfl⟩ : Inline "request".toList)
      have hmethod := parseMetaLine_fieldLine debug (by decide : IsMetaKey "method".toList) (inline_getD h.method)
      have hscheme := parseMetaLine_fieldLine debug (by decide : IsMetaKey "scheme".toList) (inline_getD h.scheme)
      simp only [EditableHttpMessage.metaLines, List.cons_append, List.nil_append, List.foldlM_cons, List.foldlM_nil,
        hkind, hmethod, hscheme, hhost, hpath, hquery]
      show Except.ok (EditVars.mk .request (emptyToNone (method.getD [])) (emptyToNone (scheme.getD [])) host path
        query status _) = _
      rw [emptyToNone_getD h.method, emptyToNone_getD h.scheme]
      rfl
  | response =>
      have hkind := parseMetaLine_fieldLine debug (by decide : IsMetaKey "kind".toList)
        (⟨by decide, by decide, rfl⟩ : Inline "response".toList)
      have hstatus := parseMetaLine_fieldLine debug (by decide : IsMetaKey "status".toList) (inline_statusText status)
      have hlines : EditableHttpMessage.metaLines ⟨.response, method, scheme, host, path, query, status, headers, body⟩
          = [fieldLine "kind".toList "response".toList, fieldLine "status".toList (statusText status),
            fieldLine "host".toList host, fieldLine "path".toList path, fieldLine "query".toList query] := rfl
      have hset : ∀ vars : EditVars, vars.set debug "status".toList (statusText status)
          = .ok { vars with status } := by
        intro vars
        show (parseStatus debug (statusText status)).map (fun status => { vars with status }) = _
        rw [parseStatus_statusText]
        rfl
      simp only [hlines, List.foldlM_cons, List.foldlM_nil, hkind, hstatus, hset, hhost, hpath, hquery]
      rfl

end Read

/-! ## Sections -/

section Sections

variable {message : EditableHttpMessage} (h : message.Writable)

include h

theorem isFieldLine_metaLines : ∀ line ∈ message.metaLines, IsFieldLine line := by
  intro line hmem
  have hrest : line ∈ [fieldLine "host".toList message.host, fieldLine "path".toList message.path,
      fieldLine "query".toList message.query] → IsFieldLine line := by
    intro hmem
    fin_cases hmem
    · exact isFieldLine_fieldLine (by decide) (by decide) h.host
    · exact isFieldLine_fieldLine (by decide) (by decide) h.path
    · exact isFieldLine_fieldLine (by decide) (by decide) h.query
  rcases List.mem_append.mp hmem with hmem | hmem
  · cases hkind : message.kind with
    | request =>
        rw [hkind] at hmem
        fin_cases hmem
        · exact ⟨by decide, by decide, by decide⟩
        · exact isFieldLine_fieldLine (by decide) (by decide) (inline_getD h.method)
        · exact isFieldLine_fieldLine (by decide) (by decide) (inline_getD h.scheme)
    | response =>
        rw [hkind] at hmem
        fin_cases hmem
        · exact ⟨by decide, by decide, by decide⟩
        · exact isFieldLine_fieldLine (by decide) (by decide) (inline_statusText message.status)
  · exact hrest hmem

theorem isFieldLine_headerLines : ∀ line ∈ message.headerLines, IsFieldLine line := by
  intro line hmem
  obtain ⟨header, hheader, rfl⟩ := List.mem_map.mp hmem
  have hwritable := h.headers header hheader
  exact isFieldLine_fieldLine hwritable.name.newline hwritable.name.carriageReturn hwritable.value

/-- **The sections are found again**: no field line is a marker, and the body comes last. -/
theorem splitEditTextSections_toEditText :
    splitEditTextSections message.toEditText
      = ⟨writeLines message.metaLines, writeLines message.headerLines, EditableHttpMessage.writeBody message.body⟩ := by
  have hnotMarker : ∀ {marker : Str}, ' ' ∉ marker → ∀ {written : List Str}, (∀ line ∈ written, IsFieldLine line) →
      ∀ line ∈ written, '\n' ∉ line ∧ line ≠ marker := by
    intro marker hmarker written hwritten line hmem
    refine ⟨(hwritten line hmem).newline, ?_⟩
    rintro rfl
    exact hmarker (hwritten _ hmem).space
  have hheaders : ∀ rest, Text.splitOnce "\nheaders:\n".toList
      (writeLines message.metaLines ++ '\n' :: ("headers:".toList ++ '\n' :: rest))
      = some (writeLines message.metaLines, rest) :=
    Text.splitOnce_lines (by decide) (by decide) (hnotMarker (by decide) (isFieldLine_metaLines h))
  have hbody : ∀ rest, Text.splitOnce "\nbody:\n".toList
      (writeLines message.headerLines ++ '\n' :: ("body:".toList ++ '\n' :: rest))
      = some (writeLines message.headerLines, rest) :=
    Text.splitOnce_lines (by decide) (by decide) (hnotMarker (by decide) (isFieldLine_headerLines h))
  have htext : message.toEditText = writeLines message.metaLines ++ '\n' :: ("headers:".toList ++ '\n' ::
      (writeLines message.headerLines ++ '\n' :: ("body:".toList
        ++ '\n' :: EditableHttpMessage.writeBody message.body))) := by
    simp [EditableHttpMessage.toEditText]
  rw [htext, splitEditTextSections, hheaders]
  dsimp only
  rw [hbody]

end Sections

/-- The body is read back, with or without a line feed at its end. -/
theorem parseBody_writeBody (message : EditableHttpMessage) :
    parseBody (some message) (EditableHttpMessage.writeBody message.body) message.bodyContentType = message.body := by
  unfold parseBody EditableHttpMessage.bodyContentType
  rw [Option.map_some]
  cases message.body with
  | binary bytesLen contentType => rfl
  | empty => rfl
  | text text contentType =>
      show EditableHttpBody.text _ (contentType.or contentType) = _
      rw [Option.or_self]
      congr 1
      by_cases hend : text.getLast? = some '\n'
      · have hwritten : EditableHttpMessage.writeBody (.text text contentType) = text := if_pos hend
        rw [hwritten, if_neg fun hadded => hadded.1 hend]
      · have hwritten : EditableHttpMessage.writeBody (.text text contentType) = text ++ ['\n'] := if_neg hend
        rw [hwritten, if_pos]
        refine ⟨hend, ?_, List.isPrefixOf_iff_prefix.mpr (List.prefix_append _ _), List.getLast?_concat⟩
        rw [Text.len_append]
        rfl

/-- **What is written is read back**: the fields that the text shows, the fields that it leaves to the original, and
    any body. -/
theorem parseEditText_toEditText (debug : Str → Str) {message : EditableHttpMessage} (h : message.Writable) :
    parseEditText debug message.toEditText (some message) = .ok message := by
  have hmeta := foldlM_metaLines debug h
  have hheaders : parseEditHeaders debug (writeLines message.headerLines) = .ok message.headers := by
    rw [parseEditHeaders, lines_writeLines (isFieldLine_headerLines h)]
    exact foldlM_headerLines debug h.headers []
  rw [parseEditText, splitEditTextSections_toEditText h]
  dsimp only
  rw [lines_writeLines (isFieldLine_metaLines h), hmeta]
  show (parseEditHeaders debug (writeLines message.headerLines)).bind _ = _
  rw [hheaders]
  show Except.ok { message with body := parseBody (some message) _ message.bodyContentType } = _
  rw [parseBody_writeBody]

theorem parseEditText_marker_body :
    parseEditText (fun text => text)
        (EditableHttpMessage.toEditText ⟨.response, none, some "https".toList, "a.example".toList, "/".toList, [],
          some 200, [⟨"set-cookie".toList, "a=1".toList⟩, ⟨"set-cookie".toList, []⟩],
          .text "\nheaders:\n\nbody:\nx".toList none⟩)
        (some ⟨.response, none, some "https".toList, "a.example".toList, "/".toList, [], some 200,
          [⟨"set-cookie".toList, "a=1".toList⟩, ⟨"set-cookie".toList, []⟩],
          .text "\nheaders:\n\nbody:\nx".toList none⟩)
      = .ok ⟨.response, none, some "https".toList, "a.example".toList, "/".toList, [], some 200,
          [⟨"set-cookie".toList, "a=1".toList⟩, ⟨"set-cookie".toList, []⟩],
          .text "\nheaders:\n\nbody:\nx".toList none⟩ := by
  refine parseEditText_toEditText (fun text => text)
    ⟨⟨by decide, by decide, by decide⟩, ⟨by decide, by decide, by decide⟩, inline_nil, ?_, ?_, ?_⟩
  · intro method hmethod
    cases hmethod
  · intro scheme hscheme
    cases hscheme
    exact ⟨⟨by decide, by decide, by decide⟩, by decide⟩
  · intro header hheader
    fin_cases hheader
    · exact ⟨⟨by decide, by decide, by decide⟩, ⟨by decide, by decide, by decide⟩, by decide, by decide, by decide⟩
    · exact ⟨⟨by decide, by decide, by decide⟩, inline_nil, by decide, by decide, by decide⟩

/-! ## Edits that change nothing -/

/-- Headers of one name, up to the case of letters, have one value. -/
def RepeatsAgree (headers : List FilterHeader) : Prop :=
  ∀ header ∈ headers, ∀ header' ∈ headers, Text.eqIgnoreAsciiCase header.name header'.name = true →
    header.value = header'.value

/-- The first header of a name is the one that is looked up, on both sides of the diff. -/
theorem headerValue_eq_some_iff {message : EditableHttpMessage} {headers : List FilterHeader}
    (hheaders : message.headers = editableHeadersFromFilterHeaders headers) :
    (∀ header ∈ message.headers, message.headerValue header.name = some header.value) ↔ RepeatsAgree headers := by
  have hmem : ∀ {name value : Str}, ⟨name, value⟩ ∈ message.headers ↔ ⟨name, value⟩ ∈ headers := by
    intro name value
    rw [hheaders, editableHeadersFromFilterHeaders, List.mem_map]
    constructor
    · rintro ⟨⟨name', value'⟩, hheader, heq⟩
      cases heq
      exact hheader
    · intro hheader
      exact ⟨_, hheader, rfl⟩
  constructor
  · intro hfirst header hheader header' hheader' hname
    have hvalue := hfirst ⟨header.name, header.value⟩ (hmem.mpr hheader)
    have hvalue' := hfirst ⟨header'.name, header'.value⟩ (hmem.mpr hheader')
    -- names that are equal up to case are looked up alike
    have hlookup : message.headerValue header.name = message.headerValue header'.name := by
      simp only [Text.eqIgnoreAsciiCase, beq_iff_eq] at hname
      simp only [EditableHttpMessage.headerValue, findHeader, Text.eqIgnoreAsciiCase, hname]
    rw [hlookup, hvalue'] at hvalue
    exact (Option.some.inj hvalue).symm
  · intro hagree header hheader
    have hsome : (findHeader message.headers header.name).isSome = true := by
      rw [findHeader, List.find?_isSome]
      exact ⟨header, hheader, beq_self_eq_true _⟩
    obtain ⟨found, hfound⟩ := Option.isSome_iff_exists.mp hsome
    have hname := List.find?_some hfound
    have hvalue := hagree ⟨found.name, found.value⟩ (hmem.mp (List.mem_of_find?_eq_some hfound))
      ⟨header.name, header.value⟩ (hmem.mp hheader) hname
    rw [EditableHttpMessage.headerValue, hfound, Option.map_some]
    exact congrArg some hvalue

/-- A diff of a message with itself can only report headers as changed. -/
theorem hasChanges_self_iff (message : EditableHttpMessage) :
    (message.diff message).hasChanges = false ↔
      ∀ header ∈ message.headers, message.headerValue header.name = some header.value := by
  have hfound : ∀ header ∈ message.headers, (message.headerValue header.name).isNone = false := by
    intro header hheader
    rw [EditableHttpMessage.headerValue, Option.isNone_map, ← Option.not_isSome, findHeader, Bool.not_eq_false',
      List.find?_isSome]
    exact ⟨header, hheader, beq_self_eq_true _⟩
  have hnone : (message.headers.filter fun header => (message.headerValue header.name).isNone) = [] := by
    rw [List.filter_eq_nil_iff]
    intro header hheader
    simp [hfound header hheader]
  simp only [EditableHttpMessageDiff.hasChanges, EditableHttpMessage.diff, hnone, bne_self_eq_false, Bool.false_or,
    Bool.or_false, List.isEmpty_nil, Bool.not_true, Bool.not_eq_false', List.isEmpty_iff, List.filterMap_eq_nil_iff]
  refine forall₂_congr fun header hheader => ?_
  have hvalue := hfound header hheader
  cases hlookup : message.headerValue header.name with
  | none =>
      rw [hlookup] at hvalue
      cases hvalue
  | some value =>
      rw [Option.bind_some, Option.some.injEq]
      split
      · rename_i heq
        exact iff_of_true rfl heq.symm
      · rename_i hne
        exact iff_of_false (by simp) fun heq => hne heq.symm

section Unmodified

variable {N : Type} [BEq N] (serde : SerdeJson N) (treeSitter : BodyLanguage → Str → Option SyntaxNode)
  (debug : Str → Str) (uuid : Str)

/-- No filter is extracted from a request that did not change. -/
theorem extractRequestFilter_of_hasChanges {original edited : EditableHttpMessage}
    (h : (original.diff edited).hasChanges = false) (name : Str) :
    extractRequestFilterFromEdit serde treeSitter debug uuid name original edited = none := by
  unfold extractRequestFilterFromEdit
  split
  · rfl
  · exact if_pos h

/-- No filter is extracted from a response that did not change. -/
theorem extractResponseFilter_of_hasChanges {original edited : EditableHttpMessage}
    (h : (original.diff edited).hasChanges = false) (name : Str) (requestContext : EditableHttpMessage) :
    extractResponseFilterFromEdit serde treeSitter debug uuid name requestContext original edited = none := by
  unfold extractResponseFilterFromEdit
  split
  · rfl
  · exact if_pos h

/-- A session over a message that reads back unchanged. -/
theorem generateFilter_noChanges :
    ∀ (name : Str) {original : EditableHttpMessage}, (original.diff original).hasChanges = false →
      parseEditText debug original.toEditText (some original) = .ok original →
        (original.kind = .request →
          (EditableFilterSession.request name original original.toEditText).generateFilter serde treeSitter debug uuid
            = .error .noChanges)
        ∧ (original.kind = .response → original.status.isSome = true → ∀ requestContext,
          (EditableFilterSession.response name requestContext original original.toEditText).generateFilter serde
            treeSitter debug uuid = .error .noChanges) := by
  intro name original hchanges hread
  constructor
  · intro hkind
    simp only [EditableFilterSession.generateFilter, hread, hkind, ne_eq, not_true_eq_false, if_false,
      extractRequestFilter_of_hasChanges serde treeSitter debug uuid hchanges]
  · intro hkind hstatus requestContext
    have hsome : original.status.isNone = false := by rw [← Option.not_isSome, hstatus]; rfl
    simp only [EditableFilterSession.generateFilter, hread, hkind, hsome, ne_eq, not_true_eq_false, if_false,
      Bool.false_eq_true, extractResponseFilter_of_hasChanges serde treeSitter debug uuid hchanges]

/-- **When an unmodified edit is recognised**: a message is found equal to itself, gives no filter and ends the
    session with `NoChanges` if and only if its headers of one name have one value. The session is over a message that
    is read back from its text, as every writable one is. -/
theorem unmodified_iff_repeatsAgree :
    (∀ request : FilterRequest,
      let original := EditableHttpMessage.fromFilterRequest request
      ((original.diff original).hasChanges = false
        ∧ (∀ name, extractRequestFilterFromEdit serde treeSitter debug uuid name original original = none)
        ∧ (parseEditText debug original.toEditText (some original) = .ok original → ∀ name,
            (EditableFilterSession.ofRequest name request).generateFilter serde treeSitter debug uuid
              = .error .noChanges)
        ∧ (original.Writable → ∀ name,
            (EditableFilterSession.ofRequest name request).generateFilter serde treeSitter debug uuid
              = .error .noChanges))
        ↔ RepeatsAgree request.headers)
    ∧ (∀ (request : FilterRequest) (response : FilterResponse),
      let original := EditableHttpMessage.fromFilterResponse request response
      ((original.diff original).hasChanges = false
        ∧ (∀ name requestContext, extractResponseFilterFromEdit serde treeSitter debug uuid name requestContext original
            original = none)
        ∧ (parseEditText debug original.toEditText (some original) = .ok original → ∀ name,
            (EditableFilterSession.ofResponse name request response).generateFilter serde treeSitter debug uuid
              = .error .noChanges)
        ∧ (original.Writable → ∀ name,
            (EditableFilterSession.ofResponse name request response).generateFilter serde treeSitter debug uuid
              = .error .noChanges))
        ↔ RepeatsAgree response.headers)
    ∧ (∀ response : FilterResponse,
      let original := EditableHttpMessage.fromFilterResponseWithoutRequestContext response
      ((original.diff original).hasChanges = false
        ∧ ∀ name requestContext, extractResponseFilterFromEdit serde treeSitter debug uuid name requestContext original
            original = none)
        ↔ RepeatsAgree response.headers) := by
  refine ⟨fun request => ?_, fun request response => ?_, fun response => ?_⟩
  all_goals
    intro original
    have hagree := (hasChanges_self_iff original).trans (headerValue_eq_some_iff rfl)
    rw [← hagree]
    refine ⟨fun h => h.1, fun hchanges => ?_⟩
  · have hsession : parseEditText debug original.toEditText (some original) = .ok original → ∀ name,
        (EditableFilterSession.ofRequest name request).generateFilter serde treeSitter debug uuid
          = .error .noChanges := by
      intro hread name
      exact (generateFilter_noChanges serde treeSitter debug uuid name hchanges hread).1 rfl
    exact ⟨hchanges, extractRequestFilter_of_hasChanges serde treeSitter debug uuid hchanges, hsession,
      fun hwritable => hsession (parseEditText_toEditText debug hwritable)⟩
  · have hsession : parseEditText debug original.toEditText (some original) = .ok original → ∀ name,
        (EditableFilterSession.ofResponse name request response).generateFilter serde treeSitter debug uuid
          = .error .noChanges := by
      intro hread name
      exact (generateFilter_noChanges serde treeSitter debug uuid name hchanges hread).2 rfl rfl _
    exact ⟨hchanges, extractResponseFilter_of_hasChanges serde treeSitter debug uuid hchanges, hsession,
      fun hwritable => hsession (parseEditText_toEditText debug hwritable)⟩
  · exact ⟨hchanges, extractResponseFilter_of_hasChanges serde treeSitter debug uuid hchanges⟩

end Unmodified

/-- Two cookies are reported as changed where nothing was edited. -/
theorem unmodified_cookies_changed :
    let response : FilterResponse :=
      ⟨200, "HTTP/1.1".toList, [⟨"set-cookie".toList, "a=1".toList⟩, ⟨"set-cookie".toList, "b=2".toList⟩],
        ⟨[], none, none, none, false⟩, some 200, some 1⟩
    let original := EditableHttpMessage.fromFilterResponseWithoutRequestContext response
    (original.diff original).hasChanges = true := by
  decide

end Inspect.Filters
