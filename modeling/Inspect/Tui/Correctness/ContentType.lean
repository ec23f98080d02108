import Inspect.Filters.Correctness.GeneratedMatch
import Inspect.Flow.Correctness.StoredHeaders
import Inspect.Lib.Sorting
import Inspect.Tui.EditorPane
import Inspect.Tui.ReadMetadata

/-!
# `Tui.Correctness.ContentType` — the content type of an edited response

The content type of a response reaches a generated filter on a long way: as JSON into a row, as indented JSON into the
text of the metadata, out of that text by its brackets, and into the condition as the part before the parameters. The
first half of this module says that the way is lossless: the editor has the headers as they were stored
(`contentTypeFromHeaders_display`). The runtime normalises the header in another way, and the second half says when
the two agree.
-/

namespace Inspect.Tui

open Filters Http JsonCodec

/-! ## Brackets -/

/-- The loop passes over the text without a change of its depth. -/
def Skips (text : Str) : Prop :=
  ∀ depth rest, matchBrackets '{' '}' depth false false (text ++ rest)
    = (matchBrackets '{' '}' depth false false rest).map (text ++ ·)

namespace Skips

theorem nil : Skips [] := by
  intro depth rest
  exact Option.map_id'.symm

theorem append {front rest : Str} (hfront : Skips front) (hrest : Skips rest) : Skips (front ++ rest) := by
  intro depth tail
  rw [List.append_assoc, hfront, hrest, Option.map_map]
  congr 1
  funext text
  exact (List.append_assoc front rest text).symm

/-- A character outside of strings that is no quote and no brace. -/
theorem char {c : Char} (hquote : c ≠ '"') (hopening : c ≠ '{') (hclosing : c ≠ '}') : Skips [c] := by
  intro depth rest
  show matchBrackets '{' '}' depth false false (c :: rest) = _
  rw [matchBrackets, if_neg hquote, if_neg hopening, if_neg hclosing]
  rfl

theorem of_forall {text : Str} (h : ∀ c ∈ text, c ≠ '"' ∧ c ≠ '{' ∧ c ≠ '}') : Skips text := by
  induction text with
  | nil => exact nil
  | cons c text ih =>
      obtain ⟨⟨hquote, hopening, hclosing⟩, htext⟩ := List.forall_mem_cons.mp h
      exact (char hquote hopening hclosing).append (ih htext)

end Skips

/-- A character of a string literal does not end it. -/
theorem matchBrackets_escapeChar (depth : Nat) (c : Char) (rest : Str) :
    matchBrackets '{' '}' depth true false (escapeChar c ++ rest)
      = (matchBrackets '{' '}' depth true false rest).map (escapeChar c ++ ·) := by
  have hplain : ∀ {c : Char}, c ≠ '\\' → c ≠ '"' → ∀ rest, matchBrackets '{' '}' depth true false (c :: rest)
      = (matchBrackets '{' '}' depth true false rest).map (c :: ·) := by
    intro c hback hquote rest
    rw [matchBrackets, if_neg hback, decide_eq_true hquote]
  have hescaped : ∀ (letter : Char) rest, matchBrackets '{' '}' depth true false ('\\' :: letter :: rest)
      = (matchBrackets '{' '}' depth true false rest).map ('\\' :: letter :: ·) := by
    intro letter rest
    rw [matchBrackets, if_pos rfl, matchBrackets, Option.map_map]
    rfl
  unfold escapeChar
  cases hletter : escapeLetter c with
  | some letter => exact hescaped letter rest
  | none =>
      obtain ⟨hquote, hback⟩ := escapeLetter_none hletter
      dsimp only
      split
      · rename_i hcontrol
        -- four hexadecimal digits behind the letter of the escape
        have hdigit : ∀ d, d < 16 → Nat.digitChar d ≠ '\\' ∧ Nat.digitChar d ≠ '"' := by decide
        obtain ⟨hhigh, hhigh'⟩ := hdigit (c.toNat / 16) (by omega)
        obtain ⟨hlow, hlow'⟩ := hdigit (c.toNat % 16) (by omega)
        simp only [List.cons_append, List.nil_append]
        rw [hescaped, hplain (by decide) (by decide), hplain (by decide) (by decide), hplain hhigh hhigh',
          hplain hlow hlow']
        simp only [Option.map_map]
        rfl
      · exact hplain hback hquote rest

theorem Skips.quote (text : Str) : Skips (quote text) := by
  intro depth rest
  have hbody : ∀ text : Str, matchBrackets '{' '}' depth true false (text.flatMap escapeChar ++ '"' :: rest)
      = (matchBrackets '{' '}' depth false false rest).map (text.flatMap escapeChar ++ '"' :: ·) := by
    intro text
    induction text with
    | nil => rfl
    | cons c text ih =>
        rw [List.flatMap_cons, List.append_assoc, matchBrackets_escapeChar, ih, Option.map_map]
        congr 1
        funext tail
        exact (List.append_assoc _ _ _).symm
  have hquote : JsonCodec.quote text ++ rest = '"' :: (text.flatMap escapeChar ++ '"' :: rest) := by
    simp [JsonCodec.quote]
  rw [hquote, matchBrackets, if_pos rfl, hbody, Option.map_map]
  congr 1
  funext tail
  simp [JsonCodec.quote]

/-! ## Indentation -/

/-- The text with two more blanks at the start of every further line. -/
def indentTail (text : Str) : Str := Text.replaceChar '\n' "\n  ".toList text

theorem indentTail_append (front rest : Str) : indentTail (front ++ rest) = indentTail front ++ indentTail rest :=
  List.flatMap_append

theorem indentTail_of_not_mem {text : Str} (h : '\n' ∉ text) : indentTail text = text := by
  unfold indentTail Text.replaceChar
  induction text with
  | nil => rfl
  | cons c text ih =>
      rw [List.mem_cons, not_or] at h
      rw [List.flatMap_cons, if_neg (Ne.symm h.1), ih h.2]
      rfl

/-- The lines of a text, each with two blanks in front. -/
theorem indentLines_eq {text : Str} (hreturn : '\r' ∉ text) (hlast : text.getLast? ≠ some '\n') (hne : text ≠ []) :
    indentLines text "  ".toList = "  ".toList ++ indentTail text := by
  have hpieces : ∀ pieces : List Str, pieces ≠ [] → (∀ piece ∈ pieces, '\n' ∉ piece) →
      ['\n'].intercalate (pieces.map fun piece => "  ".toList ++ piece)
        = "  ".toList ++ indentTail (['\n'].intercalate pieces) := by
    intro pieces hne hpieces
    induction pieces with
    | nil => exact absurd rfl hne
    | cons piece pieces ih =>
        obtain ⟨hpiece, hrest⟩ := List.forall_mem_cons.mp hpieces
        cases pieces with
        | nil =>
            rw [List.map_singleton, List.intercalate_singleton, List.intercalate_singleton,
              indentTail_of_not_mem hpiece]
        | cons next pieces =>
            have ih := ih (List.cons_ne_nil _ _) hrest
            rw [List.map_cons] at ih
            rw [List.map_cons, List.map_cons, List.intercalate_cons_cons, List.intercalate_cons_cons, ih,
              indentTail_append, indentTail_append, indentTail_of_not_mem hpiece]
            simp only [List.append_assoc]
            rfl
  unfold indentLines
  rw [Text.lines_eq_splitOn hreturn hlast hne, hpieces _ (List.splitOn_ne_nil _ _)
    (Text.sep_not_mem_splitOn '\n' text), List.intercalate_splitOn]

/-! ## The text of the metadata -/

/-- The text of a socket address. -/
structure RemoteAddr where
  ip : Str
  port : UInt16
  ipChars : ∀ c ∈ ip, c.isAlphanum = true ∨ c = '.' ∨ c = ':'

def RemoteAddr.text (remote : RemoteAddr) : Str := remote.ip ++ ':' :: Nat.toDigits 10 remote.port.toNat

/-- A text on one line. -/
def OneLine (text : Str) : Prop := '\n' ∉ text ∧ '\r' ∉ text

theorem OneLine.append {front rest : Str} (hfront : OneLine front) (hrest : OneLine rest) : OneLine (front ++ rest) :=
  ⟨fun h => (List.mem_append.mp h).elim hfront.1 hrest.1, fun h => (List.mem_append.mp h).elim hfront.2 hrest.2⟩

theorem OneLine.digits (n : Nat) : OneLine (Nat.toDigits 10 n) :=
  ⟨Text.not_mem_decimal (by decide) n, Text.not_mem_decimal (by decide) n⟩

theorem OneLine.displayInt (n : Int) : OneLine (Text.displayInt n) :=
  ⟨Text.not_mem_displayInt (by decide) (by decide) n, Text.not_mem_displayInt (by decide) (by decide) n⟩

theorem OneLine.remote (remote : RemoteAddr) : OneLine remote.text := by
  have hip : OneLine remote.ip := by
    refine ⟨?_, ?_⟩
    · intro hmem
      exact absurd (remote.ipChars _ hmem) (by decide)
    · intro hmem
      exact absurd (remote.ipChars _ hmem) (by decide)
  exact hip.append (@OneLine.append [':'] _ ⟨by decide, by decide⟩ (OneLine.digits _))

/-- The row has the response that was captured. -/
structure StoresResponse {N : Type} (row : Flow.ResponseMetadata N) (parts : ResponseParts)
    (remote : Option RemoteAddr) : Prop where
  version : row.version = Flow.versionToString parts.version
  upstreamRemoteAddr : row.upstreamRemoteAddr = remote.map RemoteAddr.text
  headers : row.headers = Flow.headersToJson parts.headers

theorem OneLine.metaLine {key : String} {value : Str} (hkey : OneLine (keyColumn key)) (hvalue : OneLine value) :
    OneLine (metaLine key value) :=
  (hkey.append ⟨by decide, by decide⟩).append hvalue

theorem lineKey_metaLine {key : String} {value : Str} (hkey : ':' ∉ keyColumn key)
    (htrim : Text.trim (keyColumn key) = key.toList) : lineKey (metaLine key value) = key.toList := by
  have hline : metaLine key value = keyColumn key ++ ':' :: (' ' :: value) := List.append_assoc _ _ _
  unfold lineKey
  rw [hline, Text.splitOnce_of_not_mem hkey]
  exact htrim

/-- Where the headers start: behind the lines above them, each with its line feed. -/
theorem headersLineIdx_append {front : List Str} (hfront : ∀ line ∈ front, lineKey line ≠ "headers".toList)
    {line : Str} (hline : lineKey line = "headers".toList) (rest : List Str) (start : Nat) :
    headersLineIdx start (front ++ line :: rest)
      = some (start + Text.len (front.flatMap fun line => line ++ ['\n'])) := by
  induction front generalizing start with
  | nil => exact if_pos hline
  | cons first front ih =>
      obtain ⟨hfirst, hfront⟩ := List.forall_mem_cons.mp hfront
      rw [List.cons_append, headersLineIdx, if_neg hfirst, ih hfront, List.flatMap_cons, Text.len_append,
        Text.len_append]
      have hnewline : Text.len ['\n'] = 1 := rfl
      rw [hnewline]
      congr 1
      omega

section Display

variable {N : Type} {serde : SerdeJson N} {canonicalReason : StatusCode → Option Str}

/-- The lines above the headers are lines, and none of them is the line of the headers. -/
theorem headLines_spec {metadata : ResponseMetadata N}
    (hreason : ∀ status reason, canonicalReason status = some reason → OneLine reason)
    (hversion : ∀ version ∈ metadata.version, OneLine version)
    (hremote : ∀ remote ∈ metadata.upstreamRemoteAddr, OneLine remote) :
    ∀ line ∈ metadata.headLines canonicalReason, OneLine line ∧ lineKey line ≠ "headers".toList := by
  have hoptStr : ∀ value : Option Str, (∀ text ∈ value, OneLine text) → OneLine (optStr value) := by
    intro value hvalue
    cases value with
    | none => exact ⟨by decide, by decide⟩
    | some text => exact hvalue text rfl
  have hstatus : ∀ status, OneLine (formatStatusForDisplay canonicalReason status) := by
    intro status
    cases status with
    | none => exact (⟨by decide, by decide⟩ : OneLine "-".toList)
    | some status =>
        unfold formatStatusForDisplay
        dsimp only
        split
        · split
          · rename_i reason hfound
            obtain ⟨code, -, hcode⟩ := Option.bind_eq_some_iff.mp hfound
            exact (OneLine.digits _).append (@OneLine.append [' '] _ ⟨by decide, by decide⟩ (hreason code reason hcode))
          · exact OneLine.digits _
        · exact OneLine.displayInt _
  have helapsed : OneLine (metadata.elapsed.elim "-".toList fun elapsed => Text.displayInt elapsed.toInt) := by
    cases metadata.elapsed with
    | none => exact ⟨by decide, by decide⟩
    | some elapsed => exact OneLine.displayInt _
  intro line hline
  simp only [ResponseMetadata.headLines, List.mem_cons, List.not_mem_nil, or_false] at hline
  rcases hline with rfl | rfl | rfl | rfl
  · refine ⟨OneLine.metaLine ⟨by decide, by decide⟩ (hstatus _), ?_⟩
    rw [lineKey_metaLine (by decide) (by decide)]
    decide
  · refine ⟨OneLine.metaLine ⟨by decide, by decide⟩ (helapsed.append ⟨by decide, by decide⟩), ?_⟩
    rw [lineKey_metaLine (by decide) (by decide)]
    decide
  · refine ⟨OneLine.metaLine ⟨by decide, by decide⟩ (hoptStr _ hversion), ?_⟩
    rw [lineKey_metaLine (by decide) (by decide)]
    decide
  · refine ⟨OneLine.metaLine ⟨by decide, by decide⟩ (hoptStr _ hremote), ?_⟩
    rw [lineKey_metaLine (by decide) (by decide)]
    decide

/-- The white space of the indented layout, with two more blanks. -/
def indentedWs (depth : Nat) : Str := indentTail ('\n' :: List.replicate (2 * depth) ' ')

theorem isWs_indentedWs (depth : Nat) : ∀ c ∈ indentedWs depth, isWs c = true := by
  intro c hc
  obtain ⟨source, hsource, hc⟩ := List.mem_flatMap.mp hc
  have hblank : ∀ c ∈ "\n  ".toList, isWs c = true := by decide
  rcases List.mem_cons.mp hsource with rfl | hblanks
  · exact hblank c hc
  · rw [List.eq_of_mem_replicate hblanks] at hc
    exact hblank c (by simpa using Or.inr hc)

/-- What the pretty layout and the indented one have to do with each other, piece by piece. -/
structure Indented (text text' : Str) : Prop where
  indent : indentTail text = text'
  skips : Skips text'
  noReturn : '\r' ∉ text

theorem indented_layoutRel :
    LayoutRel Indented (fun depth => '\n' :: List.replicate (2 * depth) ' ') indentedWs [' '] [' '] where
  nil := ⟨rfl, Skips.nil, List.not_mem_nil⟩
  append hfront hrest := by
    refine ⟨?_, hfront.skips.append hrest.skips, ?_⟩
    · rw [indentTail_append, hfront.indent, hrest.indent]
    · rw [List.mem_append, not_or]
      exact ⟨hfront.noReturn, hrest.noReturn⟩
  quote text := ⟨indentTail_of_not_mem (newline_not_mem_quote text), Skips.quote text,
    control_not_mem_quote (by decide) text⟩
  punctuation c hc := by
    simp only [List.mem_cons, List.not_mem_nil, or_false] at hc
    rcases hc with rfl | rfl | rfl | rfl
    · exact ⟨rfl, Skips.char (by decide) (by decide) (by decide), by decide⟩
    · exact ⟨rfl, Skips.char (by decide) (by decide) (by decide), by decide⟩
    · exact ⟨rfl, Skips.char (by decide) (by decide) (by decide), by decide⟩
    · exact ⟨rfl, Skips.char (by decide) (by decide) (by decide), by decide⟩
  white depth := by
    refine ⟨rfl, Skips.of_forall ?_, ?_⟩
    · intro c hc
      have hws := isWs_indentedWs depth c hc
      refine ⟨?_, ?_, ?_⟩
      · rintro rfl
        cases hws
      · rintro rfl
        cases hws
      · rintro rfl
        cases hws
    · rw [List.mem_cons, not_or]
      refine ⟨by decide, ?_⟩
      intro hmem
      exact absurd (List.eq_of_mem_replicate hmem) (by decide)
  separator := ⟨rfl, Skips.char (by decide) (by decide) (by decide), by decide⟩

/-- **The headers are found again in the text of the metadata**, with two more blanks on every line. -/
theorem extractHeadersJson_display {metadata : ResponseMetadata N} {fields : List (Str × List Str)}
    (hserde : serde.StandardLayout) (hplain : PlainFields fields)
    (hheaders : normalizeHeadersForDisplay serde metadata.headers = Json.ofFields fields)
    (hlines : ∀ line ∈ metadata.headLines canonicalReason, OneLine line ∧ lineKey line ≠ "headers".toList) :
    extractHeadersJson (metadata.display serde canonicalReason)
      = some (print indentedWs [' '] 0 (Json.ofFields fields)) := by
  obtain ⟨inner, inner', hindented, hpretty, hprint⟩ := indented_layoutRel.print_ofFields fields
  have htext : serde.toStringPretty (normalizeHeadersForDisplay serde metadata.headers)
      = '{' :: (inner ++ ['}']) := by
    rw [hheaders, hserde.toStringPretty_fields hplain]
    exact hpretty
  have hindent : indentLines ('{' :: (inner ++ ['}'])) "  ".toList = "  ".toList ++ '{' :: (inner' ++ ['}']) := by
    rw [indentLines_eq ?_ ?_ (List.cons_ne_nil _ _), ← hindented.indent]
    · show "  ".toList ++ indentTail (['{'] ++ (inner ++ ['}'])) = _
      rw [indentTail_append, indentTail_append]
      rfl
    · simp [hindented.noReturn]
    · rw [← List.cons_append, List.getLast?_concat]
      decide
  have hkey : lineKey (keyColumn "headers" ++ [':']) = "headers".toList := by decide
  -- the lines above the headers, and the line of the headers, as the loop sees them
  have hwritten : ∀ line ∈ metadata.headLines canonicalReason ++ [keyColumn "headers" ++ [':']],
      '\n' ∉ line ∧ line.getLast? ≠ some '\r' := by
    intro line hline
    rcases List.mem_append.mp hline with hhead | hlast
    · have honeLine := (hlines line hhead).1
      exact ⟨honeLine.1, fun hget => honeLine.2 (List.mem_of_getLast? hget)⟩
    · rw [List.mem_singleton.mp hlast]
      decide
  have hdisplay : metadata.display serde canonicalReason
      = (metadata.headLines canonicalReason ++ [keyColumn "headers" ++ [':']]).flatMap (fun line => line ++ ['\n'])
        ++ ("  ".toList ++ '{' :: (inner' ++ ['}'])) := by
    unfold ResponseMetadata.display
    dsimp only
    rw [htext, hindent]
  unfold extractHeadersJson
  rw [hdisplay, Text.lines_flatMap hwritten, List.append_assoc, List.singleton_append,
    headersLineIdx_append (fun line hline => (hlines line hline).2) hkey, Option.bind_some, Nat.zero_add,
    List.flatMap_append, List.append_assoc, Text.sliceFrom_append, Option.bind_some]
  have hdrop : (([keyColumn "headers" ++ [':']].flatMap fun line => line ++ ['\n'])
      ++ ("  ".toList ++ '{' :: (inner' ++ ['}']))).dropWhile (fun ch => ch ≠ '[' && ch ≠ '{')
      = '{' :: (inner' ++ ['}']) := rfl
  rw [hdrop, hprint]
  show matchBrackets '{' '}' 0 false false ('{' :: (inner' ++ ['}'])) = _
  rw [matchBrackets, if_neg (by decide), if_pos rfl, hindented.skips]
  rfl

variable (serde canonicalReason)

/-- The content type that the editor is shown: the value of the header, or the JSON of several values. -/
def shownContentType (headers : HeaderMap) : Option Str :=
  if Flow.shownValues headers contentType.text = [] then none
  else some (headerJsonText serde (Json.ofTexts (Flow.shownValues headers contentType.text)))

/-- The headers that are edited, as they are read of the fields of a message. -/
theorem headersFromJson_ofFields (fields : List (Str × List Str)) :
    headersFromJson serde (Json.ofFields fields)
      = fields.map fun field => ⟨field.1, headerJsonText serde (Json.ofTexts field.2)⟩ := by
  show List.map _ (List.map _ fields) = _
  rw [List.map_map]
  rfl

/-- Of the fields of a message, the one of the content type is found. -/
theorem contentTypeFromHeaders_fields {headers : HeaderMap} {fields : List (Str × List Str)}
    (h : Flow.FieldsOf headers fields) :
    contentTypeFromHeaders ((headersFromJson serde (Json.ofFields fields)).mergeSort
      fun left right => (compare left.name right.name).isLE) = shownContentType serde headers := by
  have hlist := headersFromJson_ofFields serde fields
  -- a field with the name of the header in any case has its very name
  have hname : ∀ field ∈ fields, Text.eqIgnoreAsciiCase field.1 contentType.text = true
      → field.1 = contentType.text := by
    intro field hfield hmatch
    obtain ⟨header, -, hkey⟩ := h.exists_header hfield
    rw [← hkey] at hmatch ⊢
    exact Flow.text_eq_of_eqIgnoreAsciiCase header.1 contentType hmatch
  have hvalue : ∀ header ∈ headersFromJson serde (Json.ofFields fields),
      Text.eqIgnoreAsciiCase header.name contentType.text = true →
      header = ⟨contentType.text, headerJsonText serde (Json.ofTexts (Flow.shownValues headers contentType.text))⟩
        ∧ Flow.shownValues headers contentType.text ≠ [] := by
    intro header hheader hmatch
    rw [hlist] at hheader
    obtain ⟨field, hfield, rfl⟩ := List.mem_map.mp hheader
    have hkey := hname field hfield hmatch
    obtain ⟨hvalues, hne⟩ := h.values field hfield
    rw [hkey] at hvalues
    rw [hvalues] at hne
    exact ⟨by rw [hkey, hvalues], hne⟩
  unfold contentTypeFromHeaders shownContentType
  rw [← Sorting.find?_eq_of_perm (List.mergeSort_perm _ _).symm]
  rotate_left
  · intro a ha b hb hmatch hmatch'
    rw [(hvalue a ha hmatch).1, (hvalue b hb hmatch').1]
  cases hfound : (headersFromJson serde (Json.ofFields fields)).find?
      (fun header => Text.eqIgnoreAsciiCase header.name contentType.text) with
  | some header =>
      have hmatch := List.find?_some hfound
      obtain ⟨rfl, hne⟩ := hvalue header (List.mem_of_find?_eq_some hfound) hmatch
      rw [if_neg hne]
      exact congrArg (Option.map EditableHttpHeader.value) hfound
  | none =>
      rw [if_pos]
      · exact congrArg (Option.map EditableHttpHeader.value) hfound
      by_contra hne
      obtain ⟨field, hfield, hkey⟩ := List.mem_map.mp (h.all _ hne)
      have hmem : ⟨field.1, headerJsonText serde (Json.ofTexts field.2)⟩
          ∈ headersFromJson serde (Json.ofFields fields) := by
        rw [hlist]
        exact List.mem_map_of_mem hfield
      refine List.find?_eq_none.mp hfound _ hmem ?_
      rw [hkey]
      exact beq_self_eq_true _

/-- **The editor has the fields of the response as they were stored**, sorted by their names. -/
theorem parseHeadersFromMeta_display (hserde : serde.StandardLayout)
    (hreason : ∀ status reason, canonicalReason status = some reason → OneLine reason)
    {row : Flow.ResponseMetadata N} {parts : ResponseParts} {remote : Option RemoteAddr}
    (hrow : StoresResponse row parts remote) :
    ∃ fields, Flow.FieldsOf parts.headers fields
      ∧ parseHeadersFromMeta serde ((selectResponse serde row).display serde canonicalReason)
          = (headersFromJson serde (Json.ofFields fields)).mergeSort
              fun left right => (compare left.name right.name).isLE := by
  obtain ⟨fields, hjson, hfields⟩ := @Flow.headersToJson_eq_ofFields N parts.headers
  have hplain := hfields.plain
  have hstored : normalizeHeadersForDisplay serde (selectResponse serde row).headers = Json.ofFields fields := by
    show (serde.fromStr (serde.toString row.headers)).getD _ = _
    rw [hrow.headers, hjson, hserde.toString_fields hplain]
    have hparse := @SerdeJson.StandardLayout.fromStr_fields N serde hserde fields (fun _ => []) [] hplain hfields.keys
      (by simp) (by simp)
    exact congrArg (Option.getD · _) hparse
  have hversion : ∀ version ∈ (selectResponse serde row).version, OneLine version := by
    intro version hmem
    rw [← Option.some.inj hmem, hrow.version]
    cases parts.version with
    | http09 => exact ⟨by decide, by decide⟩
    | http10 => exact ⟨by decide, by decide⟩
    | http11 => exact ⟨by decide, by decide⟩
    | http2 => exact ⟨by decide, by decide⟩
    | http3 => exact ⟨by decide, by decide⟩
  have hremote : ∀ text ∈ (selectResponse serde row).upstreamRemoteAddr, OneLine text := by
    intro text hmem
    have haddr : row.upstreamRemoteAddr = some text := hmem
    rw [hrow.upstreamRemoteAddr] at haddr
    obtain ⟨addr, -, rfl⟩ := Option.map_eq_some_iff.mp haddr
    exact OneLine.remote addr
  refine ⟨fields, hfields, ?_⟩
  unfold parseHeadersFromMeta
  rw [extractHeadersJson_display hserde hplain hstored (headLines_spec hreason hversion hremote), Option.bind_some,
    hserde.fromStr_fields hplain hfields.keys isWs_indentedWs (by decide)]

/-- **The editor has the content type as it was stored.** -/
theorem contentTypeFromHeaders_display (hserde : serde.StandardLayout)
    (hreason : ∀ status reason, canonicalReason status = some reason → OneLine reason)
    {row : Flow.ResponseMetadata N} {parts : ResponseParts} {remote : Option RemoteAddr}
    (hrow : StoresResponse row parts remote) :
    contentTypeFromHeaders (parseHeadersFromMeta serde ((selectResponse serde row).display serde canonicalReason))
      = shownContentType serde parts.headers := by
  obtain ⟨fields, hfields, hparse⟩ := parseHeadersFromMeta_display serde canonicalReason hserde hreason hrow
  rw [hparse]
  exact contentTypeFromHeaders_fields serde hfields

end Display

/-! ## Visible characters -/

/-- The number of characters that are no white space. -/
def ink (text : Str) : Nat := text.countP fun c => !Text.isWhitespace c

theorem ink_append (front rest : Str) : ink (front ++ rest) = ink front + ink rest := List.countP_append

theorem ink_le_of_infix {part text : Str} (h : part <:+: text) : ink part ≤ ink text := h.sublist.countP_le

theorem ink_dropWhile (text : Str) : ink (text.dropWhile Text.isWhitespace) = ink text := by
  induction text with
  | nil => rfl
  | cons c text ih =>
      cases hc : Text.isWhitespace c with
      | true =>
          rw [List.dropWhile_cons_of_pos hc, ih]
          exact (List.countP_cons_of_neg (by simp [hc])).symm
      | false => rw [List.dropWhile_cons_of_neg (by simp [hc])]

theorem ink_trim (text : Str) : ink (Text.trim text) = ink text := by
  have hreverse : ∀ text : Str, ink text.reverse = ink text := fun text => List.countP_reverse
  unfold Text.trim Text.trimEnd Text.trimStart List.rdropWhile
  rw [hreverse, ink_dropWhile, hreverse, ink_dropWhile]

theorem trim_eq_nil_iff_ink (text : Str) : Text.trim text = [] ↔ ink text = 0 := by
  rw [Text.trim_eq_nil_iff]
  simp [ink]

theorem ink_toAsciiLowercase (text : Str) : ink (Text.toAsciiLowercase text) = ink text := by
  unfold ink Text.toAsciiLowercase
  rw [List.countP_map]
  congr 1
  funext c
  exact congrArg (! ·) (Text.isWhitespace_toLower c)

/-- A string literal has at least the visible characters of its text. -/
theorem ink_le_escape (text : Str) : ink text ≤ ink (text.flatMap escapeChar) := by
  induction text with
  | nil => exact Nat.le_refl _
  | cons c text ih =>
      have hchar : ink [c] ≤ ink (escapeChar c) := by
        have hone : ink [c] ≤ 1 := List.countP_le_length
        unfold escapeChar
        cases hletter : escapeLetter c with
        | some letter =>
            have hback : ink ['\\', letter] = ink ['\\'] + ink [letter] := ink_append ['\\'] [letter]
            have hvisible : ink ['\\'] = 1 := by decide
            dsimp only
            omega
        | none =>
            dsimp only
            split
            · have hback := ink_append ['\\', 'u', '0', '0'] [Nat.digitChar (c.toNat / 16), Nat.digitChar (c.toNat % 16)]
              have hvisible : ink ['\\', 'u', '0', '0'] = 4 := by decide
              rw [List.cons_append, List.cons_append, List.cons_append, List.cons_append, List.nil_append] at hback
              omega
            · exact Nat.le_refl _
      rw [List.flatMap_cons, ink_append, ← List.singleton_append, ink_append]
      omega

/-! ## The runtime -/

theorem headD_splitOn (sep : Char) (text : Str) : (text.splitOn sep).headD [] = text.takeWhile (· ≠ sep) := by
  induction text with
  | nil => rfl
  | cons c text ih =>
      rw [List.splitOn_cons_eq_if_modifyHead]
      by_cases hc : c = sep
      · simp [hc]
      · cases hpieces : text.splitOn sep with
        | nil => exact absurd hpieces (List.splitOn_ne_nil _ _)
        | cons first pieces =>
            rw [hpieces] at ih
            simp only [List.headD_cons] at ih
            simp [hc, ih]

/-- What the runtime makes of the first value. -/
theorem normalizedContentType_getD {headers : HeaderMap} {value : HeaderValue} {values : List HeaderValue}
    (h : HeaderMap.getAll headers contentType = value :: values) :
    (Flow.normalizedContentType headers).getD []
      = value.toStr.elim [] fun text => Text.toAsciiLowercase (contentTypePrefix text) := by
  unfold Flow.normalizedContentType HeaderMap.getStr HeaderMap.get
  rw [h, List.head?_cons, Option.bind_some]
  cases value.toStr with
  | none => rfl
  | some text =>
      rw [Option.bind_some, headD_splitOn]
      dsimp only
      show (if contentTypePrefix text = [] then none else some (Text.toAsciiLowercase (contentTypePrefix text))).getD []
        = Text.toAsciiLowercase (contentTypePrefix text)
      split
      · rename_i hnil
        rw [hnil]
        rfl
      · rfl

/-- No needle with more visible characters is found. -/
theorem contains_eq_false_of_ink {needle text : Str} (h : ink text < ink needle) :
    Text.contains needle text = false := by
  cases hcontains : Text.contains needle text with
  | false => rfl
  | true =>
      have hle := ink_le_of_infix (Text.infix_of_contains hcontains)
      omega

/-- A text contains a text of its length only if it is the text. -/
theorem contains_iff_eq_of_length {needle text : Str} (h : needle.length = text.length) :
    Text.contains needle text = true ↔ text = needle := by
  constructor
  · intro hcontains
    exact ((Text.infix_of_contains hcontains).eq_of_length h).symm
  · rintro rfl
    exact Text.contains_of_infix List.infix_rfl

/-- The headers have no content type, or one that is a text whose media type is written in lower case. -/
def PlainContentType (headers : HeaderMap) : Prop :=
  HeaderMap.getAll headers contentType = []
    ∨ ∃ value text, HeaderMap.getAll headers contentType = [value] ∧ value.toStr = some text
        ∧ Text.toAsciiLowercase (contentTypePrefix text) = contentTypePrefix text

/-- The condition on a content type holds at the runtime. -/
def ContentTypeHolds (shown : Option Str) (contentType : Str) : Prop :=
  ∀ value, .responseContentTypeContains value ∈ contentTypeConditions shown → Text.contains value contentType = true

theorem contentTypeHolds_none (contentType : Str) : ContentTypeHolds none contentType := by
  intro value hmem
  cases hmem

theorem contentTypeHolds_some_iff (shown contentType : Str) :
    ContentTypeHolds (some shown) contentType
      ↔ (ink shown = 0 ∨ Text.contains (contentTypePrefix shown) contentType = true) := by
  unfold ContentTypeHolds contentTypeConditions
  dsimp only
  by_cases hblank : Text.trim shown = []
  · rw [if_neg (not_not.mpr hblank)]
    exact ⟨fun _ => Or.inl ((trim_eq_nil_iff_ink shown).mp hblank), fun _ value hmem => by cases hmem⟩
  · rw [if_pos hblank]
    constructor
    · intro h
      exact Or.inr (h _ (List.mem_singleton.mpr rfl))
    · rintro (hink | hcontains) value hmem
      · exact absurd ((trim_eq_nil_iff_ink shown).mpr hink) hblank
      · cases List.mem_singleton.mp hmem
        exact hcontains

theorem ink_contentTypePrefix (contentType : Str) :
    ink (contentTypePrefix contentType) = ink (contentType.takeWhile (· ≠ ';')) :=
  ink_trim _

theorem ink_contentTypePrefix_le (contentType : Str) : ink (contentTypePrefix contentType) ≤ ink contentType :=
  ink_le_of_infix (contentTypePrefix_isInfix contentType)

/-- One value that is text: its media type has to be in lower case. -/
theorem contentTypeHolds_text_iff (text : Str) :
    ContentTypeHolds (some text) (Text.toAsciiLowercase (contentTypePrefix text))
      ↔ Text.toAsciiLowercase (contentTypePrefix text) = contentTypePrefix text := by
  have hlength : (contentTypePrefix text).length = (Text.toAsciiLowercase (contentTypePrefix text)).length :=
    (List.length_map _).symm
  rw [contentTypeHolds_some_iff, contains_iff_eq_of_length hlength]
  constructor
  · rintro (hink | heq)
    · -- nothing is left of a blank value
      have hle := ink_le_of_infix (List.takeWhile_prefix (l := text) fun c => decide (c ≠ ';')).isInfix
      have hnil : contentTypePrefix text = [] := (trim_eq_nil_iff_ink _).mpr (by omega)
      rw [hnil]
      rfl
    · exact heq
  · intro heq
    exact Or.inr heq

/-- A value that is no text is shown in base 64, and the runtime has none. -/
theorem not_contentTypeHolds_base64 {value : HeaderValue} (h : value.toStr = none) :
    ¬ContentTypeHolds (some value.display) [] := by
  have hdisplay := HeaderValue.display_of_none h
  have hbytes : value.bytes ≠ [] := by
    intro hnil
    unfold HeaderValue.toStr at h
    rw [hnil] at h
    cases h
  have halphabet : ∀ c ∈ '=' :: Bytes.base64Alphabet, c ≠ ';' ∧ Text.isWhitespace c = false := by decide
  have hchars : ∀ c ∈ value.display, c ≠ ';' ∧ Text.isWhitespace c = false := by
    intro c hc
    rw [hdisplay] at hc
    exact halphabet c (List.mem_cons.mpr (Bytes.mem_base64 hc))
  have hink : 0 < ink value.display := by
    obtain ⟨c, rest, hcons⟩ := List.exists_cons_of_ne_nil (Bytes.base64_ne_nil hbytes)
    rw [← hdisplay] at hcons
    have hc := (hchars c (by rw [hcons]; exact List.mem_cons_self)).2
    rw [hcons, ← List.singleton_append, ink_append]
    have hone : ink [c] = 1 := by simp [ink, hc]
    omega
  have hwhole : value.display.takeWhile (fun c => decide (c ≠ ';')) = value.display := by
    rw [List.takeWhile_eq_self_iff]
    exact fun c hc => decide_eq_true (hchars c hc).1
  rw [contentTypeHolds_some_iff, contains_eq_false_of_ink]
  · rintro (hzero | hfalse)
    · omega
    · cases hfalse
  · rw [ink_contentTypePrefix, hwhole]
    exact hink

theorem semicolon_of_mem_escapeChar {c : Char} (h : ';' ∈ escapeChar c) : c = ';' := by
  unfold escapeChar at h
  cases hletter : escapeLetter c with
  | some letter =>
      rw [hletter] at h
      have hback := (unescapeLetter_escapeLetter hletter).1
      simp only [List.mem_cons, List.not_mem_nil, or_false] at h
      rcases h with h | rfl
      · exact absurd h (by decide)
      · have hnone : unescapeLetter ';' = none := by decide
        rw [hnone] at hback
        cases hback
  | none =>
      rw [hletter] at h
      dsimp only at h
      have hdigit : ∀ d, d < 16 → Nat.digitChar d ≠ ';' := by decide
      split at h
      · simp only [List.mem_cons, List.not_mem_nil, or_false] at h
        rcases h with h | h | h | h | h | h
        · exact absurd h (by decide)
        · exact absurd h (by decide)
        · exact absurd h (by decide)
        · exact absurd h (by decide)
        · exact absurd h.symm (hdigit _ (by omega))
        · exact absurd h.symm (hdigit _ (by omega))
      · exact (List.mem_singleton.mp h).symm

/-- The JSON of several values has a bracket and a quote more than the first of them, in the part that a condition
    takes of it. -/
theorem ink_of_several {N : Type} {serde : SerdeJson N} (hserde : serde.StandardLayout) {text text' : Str}
    {texts : List Str} (hplain : ∀ shown ∈ text :: text' :: texts, PlainText shown) :
    ink (text.takeWhile (· ≠ ';')) + 2
      ≤ ink (contentTypePrefix (headerJsonText serde (Json.ofTexts (text :: text' :: texts)))) := by
  obtain ⟨rest, hshown⟩ : ∃ rest, headerJsonText serde (Json.ofTexts (text :: text' :: texts))
      = '[' :: '"' :: (text.flatMap escapeChar ++ rest) := by
    have hlayout := hserde.toString_texts hplain
    refine ⟨'"' :: (printItems (fun _ => []) [] 1 ((text' :: texts).map .string) ++ [']']), ?_⟩
    show serde.toString (Json.ofTexts (text :: text' :: texts)) = _
    rw [hlayout]
    show '[' :: (quote text ++ _) = _
    simp [quote]
  have hsplit : text.flatMap escapeChar = (text.takeWhile (· ≠ ';')).flatMap escapeChar
      ++ (text.dropWhile (· ≠ ';')).flatMap escapeChar := by
    rw [← List.flatMap_append, List.takeWhile_append_dropWhile]
  have hkept : ∀ c ∈ '[' :: '"' :: (text.takeWhile (· ≠ ';')).flatMap escapeChar, decide (c ≠ ';') = true := by
    intro c hc
    refine decide_eq_true ?_
    rintro rfl
    simp only [List.mem_cons, List.mem_flatMap] at hc
    rcases hc with hc | hc | ⟨source, hsource, hc⟩
    · exact absurd hc (by decide)
    · exact absurd hc (by decide)
    · rw [semicolon_of_mem_escapeChar hc] at hsource
      exact absurd (List.mem_takeWhile_imp hsource) (by decide)
  have hfront : '[' :: '"' :: (text.takeWhile (· ≠ ';')).flatMap escapeChar
      <+: (headerJsonText serde (Json.ofTexts (text :: text' :: texts))).takeWhile (· ≠ ';') := by
    rw [hshown, hsplit, List.append_assoc, ← List.cons_append, ← List.cons_append,
      List.takeWhile_append_of_pos hkept]
    exact List.prefix_append _ _
  have hfrontInk : ink ('[' :: '"' :: (text.takeWhile (· ≠ ';')).flatMap escapeChar)
      = 2 + ink ((text.takeWhile (· ≠ ';')).flatMap escapeChar) := ink_append ['[', '"'] _
  have hescape := ink_le_escape (text.takeWhile (· ≠ ';'))
  have hle := ink_le_of_infix hfront.isInfix
  rw [ink_contentTypePrefix]
  omega

/-- Several values: the condition asks for the start of their JSON, which is not in the first of them. -/
theorem not_contentTypeHolds_several {N : Type} {serde : SerdeJson N} (hserde : serde.StandardLayout)
    (value value' : HeaderValue) (values : List HeaderValue) :
    ¬ContentTypeHolds
      (some (headerJsonText serde (Json.ofTexts ((value :: value' :: values).map HeaderValue.display))))
      (value.toStr.elim [] fun text => Text.toAsciiLowercase (contentTypePrefix text)) := by
  have hplain : ∀ shown ∈ (value :: value' :: values).map HeaderValue.display, PlainText shown := by
    intro shown hshown
    obtain ⟨value, -, rfl⟩ := List.mem_map.mp hshown
    exact Flow.plainText_display value
  have hmore := ink_of_several hserde hplain
  have hruntime : ink (value.toStr.elim [] fun text => Text.toAsciiLowercase (contentTypePrefix text))
      ≤ ink (value.display.takeWhile (· ≠ ';')) := by
    cases htext : value.toStr with
    | none => exact Nat.zero_le _
    | some text =>
        rw [HeaderValue.display_of_some htext]
        show ink (Text.toAsciiLowercase (contentTypePrefix text)) ≤ _
        rw [ink_toAsciiLowercase, ink_contentTypePrefix]
  have hless : ink (value.toStr.elim [] fun text => Text.toAsciiLowercase (contentTypePrefix text))
      < ink (contentTypePrefix
          (headerJsonText serde (Json.ofTexts ((value :: value' :: values).map HeaderValue.display)))) := by
    rw [List.map_cons, List.map_cons]
    omega
  rw [contentTypeHolds_some_iff, contains_eq_false_of_ink hless]
  rintro (hzero | hfalse)
  · have hle := ink_contentTypePrefix_le
      (headerJsonText serde (Json.ofTexts ((value :: value' :: values).map HeaderValue.display)))
    omega
  · cases hfalse

/-- **When the condition on the shown content type holds at the runtime.** -/
theorem contentTypeHolds_iff {N : Type} {serde : SerdeJson N} (hserde : serde.StandardLayout) (headers : HeaderMap) :
    ContentTypeHolds (shownContentType serde headers) ((Flow.normalizedContentType headers).getD [])
      ↔ PlainContentType headers := by
  unfold shownContentType PlainContentType
  rw [Flow.shownValues_text]
  match hvalues : HeaderMap.getAll headers contentType with
  | [] => exact ⟨fun _ => Or.inl rfl, fun _ => contentTypeHolds_none _⟩
  | [value] =>
      rw [normalizedContentType_getD hvalues, if_neg (by simp)]
      show ContentTypeHolds (some value.display) _ ↔ _
      cases htext : value.toStr with
      | none =>
          refine ⟨fun h => absurd h (not_contentTypeHolds_base64 htext), ?_⟩
          rintro (hnil | ⟨value', text, hvalue, htext', -⟩)
          · cases hnil
          · cases hvalue
            rw [htext] at htext'
            cases htext'
      | some text =>
          rw [HeaderValue.display_of_some htext]
          refine (contentTypeHolds_text_iff text).trans ⟨fun h => Or.inr ⟨value, text, rfl, htext, h⟩, ?_⟩
          rintro (hnil | ⟨value', text', hvalue, htext', h⟩)
          · cases hnil
          · cases hvalue
            rw [htext] at htext'
            cases htext'
            exact h
  | value :: value' :: values =>
      rw [normalizedContentType_getD hvalues, if_neg (by simp)]
      refine ⟨fun h => absurd h (not_contentTypeHolds_several hserde value value' values), ?_⟩
      rintro (hnil | ⟨value'', text, hvalue, -⟩)
      · cases hnil
      · cases hvalue

/-! ## Generated filters -/

/-- A body that is shown as one that is not there has no content type. -/
theorem editableBodyFromText_bodyContentType (codecs : Flow.Codecs) (text : Str) (contentType : Option Str) :
    (editableBodyFromText codecs text contentType).bodyContentType
      = if isEmptyBodyText (Text.trim text) then none else contentType := by
  unfold editableBodyFromText
  dsimp only
  split
  · rfl
  split
  · rfl
  split
  · rfl
  · rfl

section Generated

variable {N : Type} [BEq N] {serde : SerdeJson N} {canonicalReason : StatusCode → Option Str}

/-- The conditions on the content type of a filter that the editor makes of a response. -/
theorem contentTypeConditions_of_generateFilter {treeSitter : BodyLanguage → Str → Option SyntaxNode}
    {debug : Str → Str} {uuid name editedText : Str} {requestContext original : EditableHttpMessage}
    {filter : GeneratedFilter}
    (h : EditableFilterSession.generateFilter serde treeSitter debug uuid
      (.response name requestContext original editedText) = .ok filter) (value : Str) :
    .responseContentTypeContains value ∈ filter.conditions
      ↔ .responseContentTypeContains value ∈ contentTypeConditions original.bodyContentType := by
  have hextract : ∃ edited, extractResponseFilterFromEdit serde treeSitter debug uuid name requestContext original
      edited = some filter := by
    unfold EditableFilterSession.generateFilter at h
    dsimp only at h
    split at h
    · cases h
    split at h
    · cases h
    split at h
    · cases h
    split at h
    · rename_i hextract
      cases h
      exact ⟨_, hextract⟩
    · cases h
  obtain ⟨edited, hextract⟩ := hextract
  obtain ⟨originalResponse, editedResponse, horiginal, hguard⟩ :=
    guard_extractResponseFilterFromEdit serde treeSitter debug uuid hextract
  obtain ⟨status, -, rfl⟩ := Option.map_eq_some_iff.mp horiginal
  have hconditions : filter.conditions = filter.guard.conditions := rfl
  rw [hconditions, hguard, guard_responseFilter]
  simp only [List.mem_append, List.mem_singleton, reduceCtorEq, false_or]
  constructor
  · rintro (hmem | hanchor)
    · exact hmem
    · obtain ⟨anchor, hcondition, -⟩ := responseBodyRewriteAnchor_holds (Option.mem_toList.mp hanchor)
      cases hcondition
  · exact Or.inl

variable (codecs : Flow.Codecs) (treeSitter : BodyLanguage → Str → Option SyntaxNode) (debug : Str → Str) (uuid : Str)

/-- **When a filter made of a response in the editor accepts the content type of that response**: if no body is
    shown, or if the headers have no content type but one that is a text with its media type in lower case. -/
theorem generatedContentType_matches_iff (hserde : serde.StandardLayout)
    (hreason : ∀ status reason, canonicalReason status = some reason → OneLine reason)
    (stored : Flow.ResponseMetadata N) (parts : ResponseParts) (remote : Option RemoteAddr)
    (hstored : StoresResponse stored parts remote) (row : PacketRowEditContext) (detail : DetailEditState)
    (hdetail : detail.responseMeta = (selectResponse serde stored).display serde canonicalReason)
    (editedText : Str) (filter : GeneratedFilter)
    (hfilter : EditableFilterSession.generateFilter serde treeSitter debug uuid
      (.response (generatedEditName row "response") (editableRequestFromDetail codecs serde row detail)
        (editableResponseFromDetail codecs serde row detail) editedText) = .ok filter)
    (resBodyBytes : Bytes) (upstreamStatus : Option UInt16) (elapsedMs : Int64) :
    (∀ value, .responseContentTypeContains value ∈ filter.conditions →
        (GeneratedFilterCondition.responseContentTypeContains value).holdsResponse
          (RotoResponseData.fromFilterResponse
            (Flow.buildFilterResponse codecs parts resBodyBytes upstreamStatus elapsedMs)) = true)
      ↔ (isEmptyBodyText (Text.trim (stripBodySizeHeader detail.responseBody)) = true
        ∨ PlainContentType parts.headers) := by
  have hshown : contentTypeFromHeaders (parseHeadersFromMeta serde detail.responseMeta)
      = shownContentType serde parts.headers := by
    rw [hdetail]
    exact contentTypeFromHeaders_display serde canonicalReason hserde hreason hstored
  have hcontentType : (editableResponseFromDetail codecs serde row detail).bodyContentType
      = if isEmptyBodyText (Text.trim (stripBodySizeHeader detail.responseBody)) then none
        else shownContentType serde parts.headers := by
    rw [← hshown]
    exact editableBodyFromText_bodyContentType codecs _ _
  have hholds : (∀ value, .responseContentTypeContains value ∈ filter.conditions →
      (GeneratedFilterCondition.responseContentTypeContains value).holdsResponse
        (RotoResponseData.fromFilterResponse
          (Flow.buildFilterResponse codecs parts resBodyBytes upstreamStatus elapsedMs)) = true)
      ↔ ContentTypeHolds (editableResponseFromDetail codecs serde row detail).bodyContentType
        ((Flow.normalizedContentType parts.headers).getD []) := by
    refine forall_congr' ?_
    intro value
    exact imp_congr (contentTypeConditions_of_generateFilter hfilter value) Iff.rfl
  rw [hholds, hcontentType]
  cases hempty : isEmptyBodyText (Text.trim (stripBodySizeHeader detail.responseBody)) with
  | true => exact ⟨fun _ => Or.inl rfl, fun _ => contentTypeHolds_none _⟩
  | false =>
      rw [if_neg Bool.false_ne_true, contentTypeHolds_iff hserde]
      constructor
      · exact Or.inr
      · rintro (hfalse | hplain)
        · cases hfalse
        · exact hplain

end Generated

/-! ## An example -/

/-- A page, with its media type written as given. -/
def page (mediaType : HeaderValue) : ResponseParts := ⟨StatusCode.ok, .http11, [(contentType, mediaType)]⟩

/-- The row of the page. -/
def pageRow (mediaType : HeaderValue) : Flow.ResponseMetadata Int where
  id := "1".toList
  seq := 1
  flowKey := "1".toList
  flowDir := []
  responseHeadPath := []
  responseBodyPath := []
  elapsed := 7
  status := 200
  upstreamStatus := none
  version := Flow.versionToString (page mediaType).version
  tlsUpstream := none
  upstreamRemoteAddr := none
  headers := Flow.headersToJson (page mediaType).headers
  bodySize := 5
  bodySavedSize := 5
  bodyTruncated := false
  bodySaveLimit := none

/-- The page as the detail pane shows it. -/
def pageDetail (mediaType : HeaderValue) : DetailEditState where
  primaryTab := .response
  requestMeta := []
  requestBody := []
  responseMeta := (selectResponse codec (pageRow mediaType)).display codec fun _ => none
  responseBody := "body size : 5 bytes\n\nhello".toList

def pageContext : PacketRowEditContext :=
  ⟨"1".toList, "GET".toList, "https".toList, "example.com".toList, "/".toList, [], some 200⟩

def lowerCaseHtml : HeaderValue := ⟨Text.bytes "text/html; charset=utf-8".toList, by decide⟩

def mixedCaseHtml : HeaderValue := ⟨Text.bytes "Text/HTML; charset=utf-8".toList, by decide⟩

/-- The filter that an edit of the status generates. -/
def pageFilter (mediaType : HeaderValue) : Except EditableFilterSessionError GeneratedFilter :=
  EditableFilterSession.generateFilter codec (fun _ _ => none) id "u".toList
    (.response (generatedEditName pageContext "response")
      (editableRequestFromDetail (fun _ _ => none) codec pageContext (pageDetail mediaType))
      (editableResponseFromDetail (fun _ _ => none) codec pageContext (pageDetail mediaType))
      "status: 404\n\nheaders:\n\nbody:\nhello".toList)

/-- The content type of the page, as a script sees it. -/
def pageResponseData (mediaType : HeaderValue) : RotoResponseData :=
  RotoResponseData.fromFilterResponse
    (Flow.buildFilterResponse (fun _ _ => none) (page mediaType) (Text.bytes "hello".toList) none 7)

/-- A media type in lower case is found. -/
theorem generatedContentType_matches_lowerCase :
    ∃ filter, pageFilter lowerCaseHtml = .ok filter
      ∧ ∀ value, .responseContentTypeContains value ∈ filter.conditions →
        (GeneratedFilterCondition.responseContentTypeContains value).holdsResponse (pageResponseData lowerCaseHtml)
          = true := by
  cases hfilter : pageFilter lowerCaseHtml with
  | error error =>
      have hok : (pageFilter lowerCaseHtml).toOption.isSome = true := by decide +kernel
      rw [hfilter] at hok
      cases hok
  | ok filter =>
      have hplain : PlainContentType (page lowerCaseHtml).headers :=
        Or.inr ⟨lowerCaseHtml, "text/html; charset=utf-8".toList, by decide +kernel, by decide +kernel,
          by decide +kernel⟩
      exact ⟨filter, rfl, (generatedContentType_matches_iff (fun _ _ => none) (fun _ _ => none) id "u".toList
        codec_standardLayout (fun _ _ h => by cases h) (pageRow lowerCaseHtml) (page lowerCaseHtml) none
        ⟨rfl, rfl, rfl⟩ pageContext (pageDetail lowerCaseHtml) rfl _ filter hfilter (Text.bytes "hello".toList) none
        7).mpr (Or.inr hplain)⟩

/-- A media type in mixed case is not. -/
theorem mixed_case_content_type_not_matched :
    ∃ filter, pageFilter mixedCaseHtml = .ok filter
      ∧ ¬∀ value, .responseContentTypeContains value ∈ filter.conditions →
        (GeneratedFilterCondition.responseContentTypeContains value).holdsResponse (pageResponseData mixedCaseHtml)
          = true := by
  have hconditions : (pageFilter mixedCaseHtml).toOption.map (fun filter =>
      filter.conditions.contains (.responseContentTypeContains "Text/HTML".toList)) = some true := by decide +kernel
  cases hfilter : pageFilter mixedCaseHtml with
  | error error =>
      rw [hfilter] at hconditions
      cases hconditions
  | ok filter =>
      rw [hfilter] at hconditions
      refine ⟨filter, rfl, ?_⟩
      intro h
      have hmem := List.contains_iff_mem.mp (Option.some.inj hconditions)
      exact absurd (h _ hmem) (by decide +kernel)

end Inspect.Tui
