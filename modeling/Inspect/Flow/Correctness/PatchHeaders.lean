import Inspect.Flow.FilterBridge

/-!
# `Flow.Correctness.PatchHeaders` — what a patch makes of the headers

`apply_header_patch` removes first and sets then, each entry for itself. Seen from one name this is short: the last
valid value that is set for it counts, otherwise a valid removal, otherwise nothing changes (`patchedValues`). A body
patch takes four more headers away, so that the new body is read as it is.
-/

namespace Inspect.Flow

open Http Filters

/-! ## Header patches -/

/-- The value that an entry sets for the name: both its name and its value have to be valid. -/
def setValue (name : HeaderName) (header : FilterHeader) : Option HeaderValue :=
  if HeaderName.fromBytes header.name = some name then HeaderValue.fromStr header.value else none

/-- The last valid value that is set for the name. -/
def lastSetValue (set : List FilterHeader) (name : HeaderName) : Option HeaderValue :=
  (set.filterMap (setValue name)).getLast?

/-- A valid entry removes the name. -/
def isRemoved (removed : List Str) (name : HeaderName) : Bool :=
  removed.any fun entry => HeaderName.fromBytes entry = some name

/-- **What a patch makes of one name.** -/
def patchedValues (headers : HeaderMap) (set : List FilterHeader) (removed : List Str) (name : HeaderName) :
    List HeaderValue :=
  match lastSetValue set name with
  | some value => [value]
  | none => if isRemoved removed name then [] else HeaderMap.getAll headers name

theorem getAll_removeHeaders (headers : HeaderMap) (removed : List Str) (name : HeaderName) :
    HeaderMap.getAll (removeHeaders headers removed) name
      = if isRemoved removed name then [] else HeaderMap.getAll headers name := by
  induction removed generalizing headers with
  | nil => rfl
  | cons entry removed ih =>
      refine (ih _).trans ?_
      have hcons : isRemoved (entry :: removed) name
          = (decide (HeaderName.fromBytes entry = some name) || isRemoved removed name) := rfl
      rw [hcons]
      dsimp only
      cases HeaderName.fromBytes entry with
      | none => rfl
      | some valid =>
          dsimp only
          rw [HeaderMap.getAll_remove]
          by_cases hname : valid = name
          · simp [hname]
          · simp [hname]

theorem getAll_setHeaders (headers : HeaderMap) (set : List FilterHeader) (name : HeaderName) :
    HeaderMap.getAll (setHeaders headers set) name
      = match lastSetValue set name with
        | some value => [value]
        | none => HeaderMap.getAll headers name := by
  induction set using List.reverseRecOn with
  | nil => rfl
  | append_singleton set header ih =>
      -- the last entry, applied to what the others have made
      unfold setHeaders lastSetValue at ih ⊢
      rw [List.foldl_concat, List.filterMap_append, List.filterMap_cons, List.filterMap_nil]
      unfold setValue at ih ⊢
      cases hname : HeaderName.fromBytes header.name with
      | none =>
          dsimp only
          rw [if_neg (by simp)]
          dsimp only
          rw [List.append_nil]
          exact ih
      | some valid =>
          cases hvalue : HeaderValue.fromStr header.value with
          | none =>
              dsimp only
              rw [ite_self]
              dsimp only
              rw [List.append_nil]
              exact ih
          | some value =>
              dsimp only
              rw [HeaderMap.getAll_insert]
              by_cases hsame : valid = name
              · rw [if_pos hsame, if_pos (congrArg some hsame)]
                dsimp only
                rw [List.getLast?_concat]
              · rw [if_neg hsame, if_neg (fun heq => hsame (Option.some.inj heq))]
                dsimp only
                rw [List.append_nil]
                exact ih

/-- **`apply_header_patch`, for one name.** -/
theorem getAll_applyHeaderPatch (headers : HeaderMap) (set : List FilterHeader) (removed : List Str)
    (name : HeaderName) :
    HeaderMap.getAll (applyHeaderPatch headers set removed) name = patchedValues headers set removed name := by
  unfold applyHeaderPatch patchedValues
  rw [getAll_setHeaders, getAll_removeHeaders]

/-! ## Body patches -/

/-- The headers that describe the bytes of the body. -/
def integrityHeaders : List HeaderName := [contentLength, contentEncoding, etag, contentMd5]

theorem getAll_removeBodyIntegrityHeaders (headers : HeaderMap) (name : HeaderName) :
    HeaderMap.getAll (removeBodyIntegrityHeaders headers) name
      = if name ∈ integrityHeaders then [] else HeaderMap.getAll headers name := by
  unfold removeBodyIntegrityHeaders
  show _ = if name ∈ [contentLength, contentEncoding, etag, contentMd5] then _ else _
  generalize [contentLength, contentEncoding, etag, contentMd5] = names
  induction names generalizing headers with
  | nil => rfl
  | cons removed names ih =>
      refine (ih _).trans ?_
      rw [HeaderMap.getAll_remove]
      by_cases hname : removed = name
      · simp [hname]
      · simp [hname, Ne.symm hname]

/-- **What a patch with a body makes of one name.** -/
def bodyPatchedValues (headers : HeaderMap) (set : List FilterHeader) (removed : List Str) (type : Option Str)
    (name : HeaderName) : List HeaderValue :=
  if name ∈ integrityHeaders then []
  else if name = contentType then
    match type.bind HeaderValue.fromStr with
    | some value => [value]
    | none => patchedValues headers set removed name
  else patchedValues headers set removed name

theorem getAll_applyBodyPatch (headers : HeaderMap) (body : Bytes) (set : List FilterHeader) (removed : List Str)
    (patch : FilterBodyPatch) (name : HeaderName) :
    HeaderMap.getAll (applyBodyPatch (applyHeaderPatch headers set removed) body (some patch)).1 name
      = bodyPatchedValues headers set removed patch.contentType name := by
  have hkept : contentType ∉ integrityHeaders := by decide
  unfold applyBodyPatch bodyPatchedValues
  dsimp only
  cases hvalue : patch.contentType.bind HeaderValue.fromStr with
  | none =>
      dsimp only
      rw [getAll_removeBodyIntegrityHeaders, getAll_applyHeaderPatch, ite_self]
  | some value =>
      dsimp only
      rw [HeaderMap.getAll_insert, getAll_removeBodyIntegrityHeaders, getAll_applyHeaderPatch]
      by_cases htype : name = contentType
      · rw [htype, if_pos rfl, if_neg hkept, if_pos rfl]
      · rw [if_neg (Ne.symm htype), if_neg htype]

/-! ## The new body -/

/-- No text starts like a gzip file: `0x1f` is a character of its own, and `0x8b` starts none. -/
theorem hasGzipMagic_bytes (text : Str) : hasGzipMagic (Text.bytes text) = false := by
  unfold hasGzipMagic
  rcases text with _ | ⟨c, text⟩
  · rfl
  · show List.isPrefixOf _ (String.utf8EncodeChar c ++ Text.bytes text) = false
    rcases Text.utf8EncodeChar_cases c with ⟨byte, hc, -⟩ | ⟨byte, rest, hc, hbyte⟩
    · rw [hc]
      rcases text with _ | ⟨d, text⟩
      · show ((0x1f : UInt8) == byte && false) = false
        rw [Bool.and_false]
      · show List.isPrefixOf _ ([byte] ++ (String.utf8EncodeChar d ++ Text.bytes text)) = false
        have hsecond : ∀ (second : UInt8) (rest : Bytes), second.toNat < 128 ∨ 192 ≤ second.toNat →
            List.isPrefixOf [(0x1f : UInt8), 0x8b] (byte :: second :: rest) = false := by
          intro second rest hrange
          have hne : (0x8b : UInt8) ≠ second := by
            rintro rfl
            exact absurd hrange (by decide)
          simp [List.isPrefixOf, hne]
        rcases Text.utf8EncodeChar_cases d with ⟨second, hd, hlt⟩ | ⟨second, rest, hd, hge⟩
        · rw [hd]
          exact hsecond second _ (Or.inl hlt)
        · rw [hd]
          exact hsecond second _ (Or.inr hge)
    · rw [hc]
      have hne : (0x1f : UInt8) ≠ byte := by
        rintro rfl
        exact absurd hbyte (by decide)
      simp [List.isPrefixOf, hne]

/-- A text without an encoding header is read as it is. -/
theorem decodedBodyOrRaw_text (codecs : Codecs) {headers : HeaderMap}
    (h : HeaderMap.getAll headers contentEncoding = []) (text : Str) :
    decodedBodyOrRaw codecs headers (Text.bytes text) = Text.bytes text := by
  have hget : HeaderMap.get headers contentEncoding = none := by
    unfold HeaderMap.get
    rw [h]
    rfl
  unfold decodedBodyOrRaw decodeContentEncodedBody decodeBodyByMagicNumber
  rw [hget, hasGzipMagic_bytes]
  rfl

/-! ## Main results -/

/-- What a patch makes of headers and body. -/
structure PatchApplied (codecs : Codecs) (headers : HeaderMap) (set : List FilterHeader) (removed : List Str)
    (patch : Option FilterBodyPatch) (result : HeaderMap × Bytes) : Prop where
  /-- without a body -/
  headers_only : patch = none → ∀ name, HeaderMap.getAll result.1 name = patchedValues headers set removed name
  /-- with a body that is text -/
  with_body : ∀ text type, patch = some ⟨Text.bytes text, type⟩ →
    (∀ name, HeaderMap.getAll result.1 name = bodyPatchedValues headers set removed type name)
      ∧ decodedBodyOrRaw codecs result.1 result.2 = Text.bytes text

theorem applyBodyPatch_applied (codecs : Codecs) (headers : HeaderMap) (body : Bytes) (set : List FilterHeader)
    (removed : List Str) (patch : Option FilterBodyPatch) :
    PatchApplied codecs headers set removed patch (applyBodyPatch (applyHeaderPatch headers set removed) body patch) := by
  constructor
  · rintro rfl name
    exact getAll_applyHeaderPatch headers set removed name
  · rintro text type rfl
    have hvalues := getAll_applyBodyPatch headers body set removed ⟨Text.bytes text, type⟩
    refine ⟨hvalues, decodedBodyOrRaw_text codecs ?_ text⟩
    rw [hvalues contentEncoding]
    exact if_pos (by decide)

/-- **What a patch makes of a message**, be it a request or a response: of the headers it does, name by name, what
    `patchedValues` says; with a body, the headers that describe the old body are gone, the content type is that of
    the patch if it is valid, and the body is read back as the text of the patch. -/
theorem patch_applied (codecs : Codecs) (parsePathAndQuery : Str → Option (Str × Option Str)) (request : RequestParts)
    (response : ResponseParts) (body : Bytes) (requestPatch : FilterRequestPatch) (responsePatch : FilterResponsePatch) :
    PatchApplied codecs request.headers requestPatch.setHeaders requestPatch.removeHeaders requestPatch.body
        ((applyRequestPatch parsePathAndQuery request body requestPatch).1.headers,
          (applyRequestPatch parsePathAndQuery request body requestPatch).2)
      ∧ PatchApplied codecs response.headers responsePatch.setHeaders responsePatch.removeHeaders responsePatch.body
        ((applyResponsePatch response body responsePatch).1.headers, (applyResponsePatch response body responsePatch).2) :=
  ⟨applyBodyPatch_applied codecs request.headers body requestPatch.setHeaders requestPatch.removeHeaders
      requestPatch.body,
    applyBodyPatch_applied codecs response.headers body responsePatch.setHeaders responsePatch.removeHeaders
      responsePatch.body⟩

end Inspect.Flow
