import Inspect.Flow.CaptureService
import Inspect.Tui.Body
import Inspect.Tui.Search

/-!
# `Flow.Correctness.ContentEncoding` — three readers of one header

`Content-Encoding` is read in three places: by the proxy, which undoes the first encoding only and then looks at the
first bytes of the body; by the user interface, which undoes all of them from the last to the first; and by the name
of the file that a body is stored in. Here is exactly when they agree.
-/

namespace Inspect.Flow

open Http

/-! ## Layers -/

/-- Undo codings, the last one first. -/
def undoCodings (codecs : Codecs) (codings : List ContentCoding) (body : Bytes) : Option Bytes :=
  codings.reverse.foldlM (fun current coding => codecs coding current) body

theorem undoCodings_concat (codecs : Codecs) (codings : List ContentCoding) (coding : ContentCoding) (body : Bytes) :
    undoCodings codecs (codings ++ [coding]) body = (codecs coding body).bind (undoCodings codecs codings) := by
  rw [undoCodings, List.reverse_concat, List.foldlM_cons]
  rfl

/-! ## Headers through JSON -/

section Json

variable {N : Type} (serde : SerdeJson N)

/-- The values of a name as `headers_to_json` has them. -/
def jsonOfValues : List Str → Option (Json N)
  | [] => none
  | [value] => some (.string value)
  | values => some (.array (values.map Json.string))

/-- The shown values of the headers with a name. -/
def shownValues (headers : HeaderMap) (key : Str) : List Str :=
  (headers.filter fun header => header.1.text = key).map fun header => header.2.display

/-- The values that are shown of a header are all its values. -/
theorem shownValues_text (headers : HeaderMap) (name : HeaderName) :
    shownValues headers name.text = (HeaderMap.getAll headers name).map HeaderValue.display := by
  unfold shownValues HeaderMap.getAll
  rw [List.map_map]
  congr 1
  refine List.filter_congr ?_
  intro header _
  refine decide_eq_decide.mpr ⟨?_, fun h => by rw [h]⟩
  intro htext
  cases hname : header.1 with
  | mk text valid =>
      rw [hname] at htext
      cases htext
      rfl

theorem shownValues_concat (headers : HeaderMap) (header : HeaderName × HeaderValue) (key : Str) :
    shownValues (headers ++ [header]) key
      = shownValues headers key ++ if header.1.text = key then [header.2.display] else [] := by
  rw [shownValues, List.filter_append, List.map_append]
  congr 1
  by_cases hkey : header.1.text = key
  · simp [hkey]
  · simp [hkey]

/-- **`headers_to_json` keeps all values of a name, in their order.** -/
theorem lookup_headersToJson (headers : HeaderMap) (key : Str) :
    ((headers.foldl pushHeaderJson [] : List (Str × Json N))).lookup key = jsonOfValues (shownValues headers key) := by
  induction headers using List.reverseRecOn with
  | nil => rfl
  | append_singleton headers header ih =>
      rw [List.foldl_concat, shownValues_concat]
      by_cases hkey : header.1.text = key
      · subst hkey
        rw [if_pos rfl, pushHeaderJson, ih]
        match hvalues : shownValues headers header.1.text with
        | [] => simp [jsonOfValues, Members.lookup_insert]
        | [value] => simp [jsonOfValues, Members.lookup_insert]
        | value :: value' :: values => simp [jsonOfValues, Members.lookup_insert]
      · have hother : (pushHeaderJson (headers.foldl pushHeaderJson []) header).lookup key
            = ((headers.foldl pushHeaderJson [] : List (Str × Json N))).lookup key := by
          unfold pushHeaderJson
          dsimp only
          split <;> rw [Members.lookup_insert, if_neg (Ne.symm hkey)]
        rw [hother, ih, if_neg hkey, List.append_nil]

/-- Header names that are equal up to case are equal. -/
theorem text_eq_of_eqIgnoreAsciiCase (name name' : HeaderName)
    (h : Text.eqIgnoreAsciiCase name.text name'.text = true) : name.text = name'.text := by
  rw [Text.eqIgnoreAsciiCase, name.toAsciiLowercase_text, name'.toAsciiLowercase_text, beq_iff_eq] at h
  exact h

/-- A member of the JSON object whose key is a name up to case is under that name. -/
theorem find_headersToJson {headers : HeaderMap} {name : HeaderName} (h : shownValues headers name.text = []) :
    (headers.foldl pushHeaderJson [] : List (Str × Json N)).find?
      (fun member => Text.eqIgnoreAsciiCase member.1 name.text) = none := by
  rw [List.find?_eq_none]
  intro member hmember hname
  obtain ⟨value, hvalue⟩ := Members.mem_keys_iff.mp (List.mem_map_of_mem hmember)
  rw [lookup_headersToJson] at hvalue
  -- the key comes from a header, and header names are in lower case
  have hne : shownValues headers member.1 ≠ [] := by
    intro hnil
    rw [hnil] at hvalue
    cases hvalue
  obtain ⟨shown, hshown⟩ := List.exists_mem_of_ne_nil _ hne
  obtain ⟨header, hheader, -⟩ := List.mem_map.mp hshown
  have hkey : header.1.text = member.1 := by simpa using (List.mem_filter.mp hheader).2
  rw [← hkey] at hname hne
  rw [text_eq_of_eqIgnoreAsciiCase _ _ hname] at hne
  exact hne h

theorem headerText_strings (texts : List Str) :
    Tui.headerText serde (.array (texts.map Json.string)) = ", ".toList.intercalate texts := by
  unfold Tui.headerText
  dsimp only
  rw [List.filterMap_map]
  congr 1
  exact List.filterMap_some

/-- **What the user interface reads of a header**: its values, joined. -/
theorem headerValue_headersToJson (headers : HeaderMap) (name : HeaderName) :
    Tui.headerValue serde (headersToJson headers) name.text
      = if shownValues headers name.text = [] then none
        else some (", ".toList.intercalate (shownValues headers name.text)) := by
  unfold Tui.headerValue headersToJson Tui.normalizeHeaders
  dsimp only
  rw [name.toAsciiLowercase_text, lookup_headersToJson]
  match hvalues : shownValues headers name.text with
  | [] =>
      rw [find_headersToJson hvalues]
      rfl
  | [value] => simp [jsonOfValues, Tui.headerText]
  | value :: value' :: values =>
      rw [if_neg (List.cons_ne_nil _ _), ← headerText_strings serde]
      rfl

end Json

/-! ## The two decoders -/

/-- The codings that the user interface undoes. -/
def tuiCodings (headers : HeaderMap) : List ContentCoding :=
  (encodingParts (", ".toList.intercalate (shownValues headers contentEncoding.text))).filterMap ContentCoding.named

/-- What the proxy makes of the header: no coding, one coding, or nothing that it knows. -/
def proxyCoding (headers : HeaderMap) : Option (Option ContentCoding) :=
  (HeaderMap.getStr headers contentEncoding).bind fun value =>
    let encoding := (encodingParts value).headD []
    if encoding = [] ∨ encoding = "identity".toList then some none
    else (ContentCoding.ofName encoding).map some

section Decoders

variable (codecs : Codecs)

theorem foldlM_undoEncoding (encodings : List Str) (body : Bytes) :
    encodings.foldlM (Tui.undoEncoding codecs) body
      = (encodings.filterMap ContentCoding.named).foldlM (fun current coding => codecs coding current) body := by
  induction encodings generalizing body with
  | nil => rfl
  | cons encoding encodings ih =>
      rw [List.foldlM_cons, Tui.undoEncoding, List.filterMap_cons]
      cases ContentCoding.named encoding with
      | none => exact ih body
      | some coding =>
          rw [List.foldlM_cons]
          exact bind_congr ih

/-- The user interface undoes the codings it knows, and shows the body as it is if one of them fails. -/
theorem decodeBodyByHeaders_bytes {N : Type} (serde : SerdeJson N) (headers : HeaderMap) (body : Bytes) :
    (Tui.decodeBodyByHeaders codecs serde (headersToJson headers) body).bytes
      = (undoCodings codecs (tuiCodings headers) body).getD body := by
  have hdecode : ∀ value, Tui.decodeByContentEncoding codecs value body
      = undoCodings codecs ((encodingParts value).filterMap ContentCoding.named) body := by
    intro value
    rw [Tui.decodeByContentEncoding, foldlM_undoEncoding, undoCodings, List.filterMap_reverse, List.filterMap_filter]
    congr 2
    refine List.filterMap_congr fun encoding _ => ?_
    by_cases hencoding : encoding = []
    · subst hencoding
      rfl
    · simp [hencoding]
  have hvalue := headerValue_headersToJson serde headers contentEncoding
  unfold Tui.decodeBodyByHeaders
  rw [show "content-encoding".toList = contentEncoding.text from rfl, hvalue]
  split
  · rename_i hnone
    split_ifs at hnone with hnil
    rw [tuiCodings, hnil]
    rfl
  · rename_i value hsome
    split_ifs at hsome with hnil
    cases hsome
    rw [hdecode, ← tuiCodings]
    cases undoCodings codecs (tuiCodings headers) body with
    | none => rfl
    | some bytes => rfl

theorem decodeContentEncodedBody_eq (headers : HeaderMap) (body : Bytes) :
    decodeContentEncodedBody codecs headers body = (proxyCoding headers).bind fun coding =>
      match coding with
      | none => some body
      | some coding => codecs coding body := by
  unfold decodeContentEncodedBody proxyCoding HeaderMap.getStr decodeByContentEncodingHeader
  rw [Option.bind_assoc, Option.bind_assoc]
  refine Option.bind_congr fun value _ => ?_
  refine Option.bind_congr fun text _ => ?_
  dsimp only
  split
  · rfl
  · cases ContentCoding.ofName ((encodingParts text).headD []) with
    | none => rfl
    | some coding => rfl

/-- What the proxy reads of a body. -/
theorem decodedBodyOrRaw_eq (headers : HeaderMap) (body : Bytes) :
    decodedBodyOrRaw codecs headers body =
      match proxyCoding headers with
      | some none => body
      | some (some coding) => (codecs coding body).getD ((decodeBodyByMagicNumber codecs body).getD body)
      | none => (decodeBodyByMagicNumber codecs body).getD body := by
  rw [decodedBodyOrRaw, decodeContentEncodedBody_eq]
  match proxyCoding headers with
  | some none => rfl
  | some (some coding) => rfl
  | none => rfl

end Decoders

/-- The user interface undoes exactly what the proxy undoes: nothing; the one coding that the first part names,
    where the proxy must not fall back on gzip if that fails; or gzip if the body looks like it. -/
def SameCodings (headers : HeaderMap) (body : Bytes) : Prop :=
  match proxyCoding headers with
  | some none => tuiCodings headers = []
  | some (some coding) => tuiCodings headers = [coding] ∧ (hasGzipMagic body = true → coding = .gzip)
  | none => tuiCodings headers = if hasGzipMagic body then [.gzip] else []

section Agree

variable (body : Bytes)

/-- Decompressors that tell by their result how many of them ran. -/
def countingCodecs : Codecs := fun _ current => some (body ++ if current = body then [0] else [1])

/-- Decompressors that tell by their result whether `coding` ran. -/
def markingCodecs (coding : ContentCoding) : Codecs := fun coding' _ =>
  some (body ++ if coding' = coding then [0] else [1])

/-- Decompressors of which only `coding` works. -/
def onlyCodec (coding : ContentCoding) : Codecs := fun coding' _ =>
  if coding' = coding then some (body ++ [0]) else none

theorem foldlM_countingCodecs (codings : List ContentCoding) :
    codings.foldlM (fun current coding => countingCodecs body coding current) (body ++ [1]) = some (body ++ [1]) := by
  induction codings with
  | nil => rfl
  | cons coding codings ih =>
      rw [List.foldlM_cons]
      have hstep : countingCodecs body coding (body ++ [1]) = some (body ++ [1]) := by
        simp [countingCodecs]
      rw [hstep]
      exact ih

/-- None, one or several of the counting decompressors. -/
theorem undoCodings_counting (codings : List ContentCoding) :
    (undoCodings (countingCodecs body) codings body).getD body
      = match codings with
        | [] => body
        | [_] => body ++ [0]
        | _ => body ++ [1] := by
  match codings with
  | [] => rfl
  | [coding] => simp [undoCodings, countingCodecs]
  | coding :: coding' :: codings =>
      unfold undoCodings
      obtain ⟨first, second, rest, hrest⟩ : ∃ first second rest,
          (coding :: coding' :: codings).reverse = first :: second :: rest := by
        match hreverse : (coding :: coding' :: codings).reverse with
        | [] => simp at hreverse
        | [_] =>
            have hlength := congrArg List.length hreverse
            simp at hlength
        | first :: second :: rest => exact ⟨first, second, rest, rfl⟩
      have hfirst : countingCodecs body first body = some (body ++ [0]) := by simp [countingCodecs]
      have hsecond : countingCodecs body second (body ++ [0]) = some (body ++ [1]) := by simp [countingCodecs]
      rw [hrest, List.foldlM_cons, hfirst, Option.bind_eq_bind, Option.bind_some, List.foldlM_cons, hsecond,
        Option.bind_eq_bind, Option.bind_some, foldlM_countingCodecs]
      rfl

variable {body}

/-- How many codings the user interface undoes, told by the counting decompressors. -/
theorem codings_of_counting {codings : List ContentCoding} :
    ((undoCodings (countingCodecs body) codings body).getD body = body → codings = [])
      ∧ ((undoCodings (countingCodecs body) codings body).getD body = body ++ [0] → ∃ coding, codings = [coding]) := by
  rw [undoCodings_counting]
  match codings with
  | [] => simp
  | [coding] => simp
  | coding :: coding' :: codings => simp

theorem undoCodings_single (codecs : Codecs) (coding : ContentCoding) :
    undoCodings codecs [coding] body = codecs coding body := by
  simp [undoCodings]

/-- Codings that give the same marked bytes are the same. -/
theorem eq_of_marking {coding coding' : ContentCoding}
    (h : (undoCodings (markingCodecs body coding) [coding'] body).getD body = body ++ [0]) : coding' = coding := by
  rw [undoCodings_single] at h
  by_contra hne
  simp [markingCodecs, hne] at h

/-- To undo one coding is to undo some codings only if they are that one, whatever comes where it fails. -/
theorem codings_eq_singleton {coding : ContentCoding} {codings : List ContentCoding} (fallback : Codecs → Bytes)
    (hagree : ∀ codecs : Codecs, (codecs coding body).getD (fallback codecs)
      = (undoCodings codecs codings body).getD body) : codings = [coding] := by
  have hcount := hagree (countingCodecs body)
  have hone : countingCodecs body coding body = some (body ++ [0]) := by simp [countingCodecs]
  rw [hone, Option.getD_some] at hcount
  obtain ⟨coding', hcodings⟩ := codings_of_counting.2 hcount.symm
  have hmark := hagree (markingCodecs body coding)
  have hmarked : markingCodecs body coding coding body = some (body ++ [0]) := by simp [markingCodecs]
  rw [hmarked, Option.getD_some, hcodings] at hmark
  rw [hcodings, eq_of_marking hmark.symm]

/-- **When the two decoders agree**, whatever the decompressors do. -/
theorem decoders_agree_iff_sameCodings {N : Type} (serde : SerdeJson N) (headers : HeaderMap) (body : Bytes) :
    (∀ codecs : Codecs, decodedBodyOrRaw codecs headers body
      = (Tui.decodeBodyByHeaders codecs serde (headersToJson headers) body).bytes) ↔ SameCodings headers body := by
  simp only [decodeBodyByHeaders_bytes, decodedBodyOrRaw_eq, SameCodings]
  match proxyCoding headers with
  | some none =>
      dsimp only
      constructor
      · intro hagree
        exact (codings_of_counting).1 (hagree (countingCodecs body)).symm
      · intro hcodings codecs
        rw [hcodings]
        rfl
  | some (some coding) =>
      dsimp only
      constructor
      · intro hagree
        have hcodings := codings_eq_singleton _ hagree
        refine ⟨hcodings, fun hmagic => ?_⟩
        -- if the coding fails, the proxy tries gzip and the user interface does not
        by_contra hne
        have honly := hagree (onlyCodec body .gzip)
        rw [hcodings, undoCodings_single] at honly
        simp [onlyCodec, hne, decodeBodyByMagicNumber, hmagic] at honly
      · rintro ⟨hcodings, hgzip⟩ codecs
        rw [hcodings, undoCodings_single]
        cases hcodec : codecs coding body with
        | some decoded => rfl
        | none =>
            rw [Option.getD_none, Option.getD_none, decodeBodyByMagicNumber]
            split
            · rename_i hmagic
              rw [← hgzip hmagic, hcodec]
              rfl
            · rfl
  | none =>
      dsimp only
      unfold decodeBodyByMagicNumber
      cases hasGzipMagic body with
      | true =>
          simp only [if_true]
          constructor
          · exact codings_eq_singleton fun _ => body
          · intro hcodings codecs
            rw [hcodings, undoCodings_single]
      | false =>
          simp only [Bool.false_eq_true, if_false, Option.getD_none]
          constructor
          · intro hagree
            exact (codings_of_counting).1 (hagree (countingCodecs body)).symm
          · intro hcodings codecs
            rw [hcodings]
            rfl

end Agree

/-- A stack of two encodings: the proxy undoes the inner one alone, the user interface both. -/
theorem stacked_encodings_disagree :
    let headers : HeaderMap := [(contentEncoding, ⟨Text.bytes "br, gzip".toList, by decide⟩)]
    let codecs : Codecs := fun coding body =>
      match coding, body with
      | .gzip, 0 :: body => some body
      | .br, 1 :: body => some body
      | _, _ => none
    decodedBodyOrRaw codecs headers [0, 1, 2] = [0, 1, 2]
      ∧ (Tui.decodeBodyByHeaders codecs (N := Int) ⟨fun _ => [], fun _ => [], fun _ => none⟩ (headersToJson headers)
          [0, 1, 2]).bytes = [2] := by
  decide +kernel

end Inspect.Flow
