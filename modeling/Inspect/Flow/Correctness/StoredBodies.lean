import Inspect.Flow.CaptureService
import Inspect.Flow.Correctness.ContentEncoding
import Inspect.Tui.Search

/-!
# `Flow.Correctness.StoredBodies` — the name of a body file and what is in it

The name of a body file gets a suffix for every encoding in the headers. The file holds the body as it was sent only
without a save limit: under a limit the decoded body is stored, under the same name. And search undoes the last
suffix only.
-/

namespace Inspect.Flow

open Http

/-! ## The reader of a name -/

/-- The last suffix ends the name. -/
theorem intercalate_suffix (codings : List ContentCoding) (coding : ContentCoding) (base : Str) :
    ∃ front, base ++ '.' :: ".".toList.intercalate ((codings ++ [coding]).map ContentCoding.suffix)
      = front ++ '.' :: coding.suffix := by
  induction codings generalizing base with
  | nil => exact ⟨base, by simp⟩
  | cons first codings ih =>
      obtain ⟨front, hfront⟩ := ih (base ++ '.' :: first.suffix)
      refine ⟨front, ?_⟩
      rw [← hfront]
      obtain ⟨second, rest, hrest⟩ := List.exists_cons_of_ne_nil
        (show (codings ++ [coding]).map ContentCoding.suffix ≠ [] by simp)
      rw [List.cons_append, List.map_cons, hrest]
      simp [List.intercalate, List.intersperse]

theorem compressedKind_suffix (front : Str) (coding : ContentCoding) :
    Tui.compressedKind (front ++ '.' :: coding.suffix) = some coding := by
  have hlower : Text.toAsciiLowercase (front ++ '.' :: coding.suffix)
      = Text.toAsciiLowercase front ++ '.' :: coding.suffix := by
    rw [Text.toAsciiLowercase, Text.toAsciiLowercase, List.map_append]
    cases coding <;> rfl
  unfold Tui.compressedKind
  rw [hlower]
  cases coding <;> simp [ContentCoding.suffix.eq_def, List.isSuffixOf]

/-- **Search reads a body file with the decompressor of its last suffix.** -/
theorem compressedKind_bodyFileName {headers : HeaderMap} {codings : List ContentCoding} {coding : ContentCoding}
    (h : contentCodings headers = codings ++ [coding]) (base : Str) :
    Tui.compressedKind (bodyFileName base headers) = some coding := by
  obtain ⟨front, hfront⟩ := intercalate_suffix codings coding base
  have hname : bodyFileName base headers = front ++ '.' :: coding.suffix := by
    rw [bodyFileName, h, if_neg (by simp), hfront]
  rw [hname, compressedKind_suffix]

/-! ## What is stored -/

/-- The file of a body holds its bytes, or the first of them if it is recorded as truncated. -/
def HoldsEncoded (stored : StoredBody) (body : Bytes) : Prop :=
  if stored.truncated then stored.file.take stored.savedSize <+: body else stored.file = body

/-- The decompressor that search takes for a whole file gives the body with all its codings undone. -/
def SearchRecovers (codecs : Codecs) (stored : StoredBody) (headers : HeaderMap) (body : Bytes) : Prop :=
  stored.truncated = false → ∀ decoded, undoCodings codecs (contentCodings headers) body = some decoded →
    Tui.readSearchFile codecs stored.fileName stored.file = some decoded

/-- A file whose name has suffixes is in the encoding that they say. -/
def MatchesSuffix (codecs : Codecs) (stored : StoredBody) (headers : HeaderMap) (body : Bytes) : Prop :=
  contentCodings headers ≠ [] → HoldsEncoded stored body ∧ SearchRecovers codecs stored headers body

/-- Without a save limit everything is kept. Under one, decoding must not change the bytes that are stored. -/
def DecodingKeeps (codecs : Codecs) (service : CaptureService) (headers : HeaderMap) (body : Bytes)
    (truncated : Bool) : Prop :=
  ∀ limit ∈ service.bodySaveLimitBytes,
    if truncated then (decodedBodyOrRaw codecs headers body).take limit <+: body
    else decodedBodyOrRaw codecs headers body = body

/-- Under the last encoding nothing is left to undo. -/
def SingleLayer (codecs : Codecs) (headers : HeaderMap) (body : Bytes) : Prop :=
  ∀ coding ∈ (contentCodings headers).getLast?, ∀ inner, codecs coding body = some inner →
    ∀ decoded, undoCodings codecs (contentCodings headers).dropLast inner = some decoded → decoded = inner

section Stored

variable {codecs : Codecs} {service : CaptureService} {headers : HeaderMap}

/-- Whether the stored bytes are more than the limit. -/
def exceedsLimit (codecs : Codecs) (service : CaptureService) (headers : HeaderMap) (body : Bytes) : Bool :=
  service.bodySaveLimitBytes.any fun limit => limit < (decodedBodyOrRaw codecs headers body).length

theorem storeBody_of_not_omitted (h : bodyOmitReasonByContentType headers service.bodyOmitContentTypes = none)
    (base : Str) (body : Bytes) :
    service.storeBody codecs base headers body =
      let bytes := service.storedBodyBytes codecs headers body
      ⟨bodyFileName base headers, writeBodyForStorage bytes service.bodySaveLimitBytes,
        (bodyStorageInfo bytes.length service.bodySaveLimitBytes).savedSize,
        exceedsLimit codecs service headers body, service.bodySaveLimitBytes⟩ := by
  rw [CaptureService.storeBody, h]
  dsimp only
  congr 1
  unfold exceedsLimit CaptureService.storedBodyBytes
  cases service.bodySaveLimitBytes with
  | none => rfl
  | some limit => rfl

/-- **What the bytes of a file say about the body.** `truncated` is what is recorded: it may be set where nothing was
    cut, but is not cleared where something was. -/
theorem holdsEncoded_iff (body : Bytes) {truncated : Bool} (fileName : Str) (saveLimit : Option Nat)
    (htruncated : exceedsLimit codecs service headers body = true → truncated = true) :
    let bytes := service.storedBodyBytes codecs headers body
    HoldsEncoded ⟨fileName, writeBodyForStorage bytes service.bodySaveLimitBytes,
        (bodyStorageInfo bytes.length service.bodySaveLimitBytes).savedSize, truncated, saveLimit⟩ body
      ↔ DecodingKeeps codecs service headers body truncated := by
  unfold HoldsEncoded DecodingKeeps CaptureService.storedBodyBytes exceedsLimit at *
  cases hlimit : service.bodySaveLimitBytes with
  | none => simp [writeBodyForStorage, bodyStorageInfo]
  | some limit =>
      rw [hlimit, Option.any_some] at htruncated
      simp only [Option.isNone_some, Bool.false_eq_true, if_false, writeBodyForStorage, bodyStorageInfo,
        Option.mem_def, Option.some.injEq, forall_eq']
      generalize decodedBodyOrRaw codecs headers body = bytes at *
      cases truncated with
      | true =>
          simp only [if_true]
          have htake : ∀ marker : Bytes, (bytes.take limit ++ marker).take (min bytes.length limit)
              = bytes.take limit := by
            intro marker
            have hlen : min bytes.length limit = (bytes.take limit).length := by
              rw [List.length_take, Nat.min_comm]
            rw [hlen, List.take_left]
          rw [htake]
      | false =>
          have hwhole : ¬ limit < bytes.length := by
            intro hlt
            have := htruncated (by simpa using hlt)
            cases this
          simp only [Bool.false_eq_true, if_false, if_neg hwhole, List.append_nil,
            List.take_of_length_le (Nat.le_of_not_lt hwhole)]

/-- Search gets the whole body back from its file if nothing is left to undo under the last encoding. -/
theorem searchRecovers_iff {stored : StoredBody} {base : Str} {body : Bytes}
    (hname : stored.fileName = bodyFileName base headers) (hne : contentCodings headers ≠ [])
    (hfile : stored.truncated = false → stored.file = body) :
    SearchRecovers codecs stored headers body ↔ (stored.truncated = false → SingleLayer codecs headers body) := by
  unfold SearchRecovers
  refine imp_congr_right fun htruncated => ?_
  obtain ⟨codings, coding, hcodings⟩ := (List.eq_nil_or_concat (contentCodings headers)).resolve_left hne
  rw [List.concat_eq_append] at hcodings
  have hread : Tui.readSearchFile codecs stored.fileName stored.file = codecs coding body := by
    rw [Tui.readSearchFile, hname, compressedKind_bodyFileName hcodings, hfile htruncated]
  unfold SingleLayer
  rw [hread, hcodings, undoCodings_concat, List.getLast?_concat, List.dropLast_concat]
  simp only [Option.mem_def, Option.some.injEq, forall_eq']
  cases codecs coding body with
  | none => simp
  | some inner =>
      simp only [Option.bind_some, Option.some.injEq, forall_eq']
      exact forall₂_congr fun decoded _ => eq_comm

/-- The equivalence for any record of a body that was not omitted. -/
theorem matchesSuffix_iff {base : Str} {body : Bytes} {truncated : Bool} {saveLimit : Option Nat}
    (htruncated : exceedsLimit codecs service headers body = true → truncated = true) :
    let bytes := service.storedBodyBytes codecs headers body
    MatchesSuffix codecs ⟨bodyFileName base headers, writeBodyForStorage bytes service.bodySaveLimitBytes,
        (bodyStorageInfo bytes.length service.bodySaveLimitBytes).savedSize, truncated, saveLimit⟩ headers body
      ↔ contentCodings headers = [] ∨ (DecodingKeeps codecs service headers body truncated
        ∧ (truncated = false → SingleLayer codecs headers body)) := by
  intro bytes
  have hholds := holdsEncoded_iff body (bodyFileName base headers) saveLimit htruncated
  dsimp only at hholds
  unfold MatchesSuffix
  rw [hholds]
  by_cases hnil : contentCodings headers = []
  · simp [hnil]
  · simp only [ne_eq, hnil, not_false_eq_true, forall_const, false_or]
    refine and_congr_right fun hkeeps => ?_
    -- a file that is not recorded as truncated is the body, so that search reads the body itself
    refine searchRecovers_iff rfl hnil fun hfalse => ?_
    have hfile := hholds.mpr hkeeps
    simp only at hfalse
    subst hfalse
    exact hfile

/-- **When a stored body is in the encoding that its name says**: there is no save limit, or decoding does not change
    what is stored; and only one encoding is there to undo. `none` is the override of ordinary responses, `some true`
    that of streamed ones. -/
theorem storedBody_matchesSuffix_iff (codecs : Codecs) (service : CaptureService) (headers : HeaderMap) (body : Bytes)
    (homit : bodyOmitReasonByContentType headers service.bodyOmitContentTypes = none) :
    (MatchesSuffix codecs (service.storeRequestBody codecs headers body) headers body
      ↔ contentCodings headers = []
        ∨ (DecodingKeeps codecs service headers body (exceedsLimit codecs service headers body)
          ∧ (exceedsLimit codecs service headers body = false → SingleLayer codecs headers body)))
    ∧ (∀ bodyTruncatedOverride : Option Bool, bodyTruncatedOverride ≠ some false →
      (MatchesSuffix codecs (service.storeResponseBody codecs headers body bodyTruncatedOverride none) headers body
        ↔ contentCodings headers = []
          ∨ (DecodingKeeps codecs service headers body
              (bodyTruncatedOverride.getD (exceedsLimit codecs service headers body))
            ∧ (bodyTruncatedOverride.getD (exceedsLimit codecs service headers body) = false →
              SingleLayer codecs headers body)))) := by
  refine ⟨?_, fun bodyTruncatedOverride hoverride => ?_⟩
  · rw [CaptureService.storeRequestBody, storeBody_of_not_omitted homit]
    exact matchesSuffix_iff fun hexceeds => hexceeds
  · rw [CaptureService.storeResponseBody, storeBody_of_not_omitted homit]
    refine matchesSuffix_iff fun hexceeds => ?_
    match bodyTruncatedOverride with
    | none => exact hexceeds
    | some true => rfl
    | some false => exact absurd rfl hoverride

end Stored

/-- A gzip body without a save limit. -/
theorem storedBody_matchesSuffix_no_limit :
    let headers : HeaderMap := [(contentEncoding, ⟨Text.bytes "gzip".toList, by decide⟩)]
    let codecs : Codecs := fun _ body => some (body ++ [0])
    MatchesSuffix codecs ((CaptureService.mk none []).storeRequestBody codecs headers [1]) headers [1] := by
  intro headers codecs
  refine ((storedBody_matchesSuffix_iff codecs ⟨none, []⟩ headers [1] (by decide)).1).mpr
    (.inr ⟨fun limit hlimit => ?_, fun _ coding hcoding inner _ decoded hdecoded => ?_⟩)
  · cases hlimit
  · have hinner : undoCodings codecs (contentCodings headers).dropLast inner = some inner := rfl
    rw [hinner] at hdecoded
    exact (Option.some.inj hdecoded).symm

/-- Under a save limit the decoded bytes are in the file, and search decodes them once more. -/
theorem limit_stores_decoded_gzip :
    let headers : HeaderMap := [(contentEncoding, ⟨Text.bytes "gzip".toList, by decide⟩)]
    let codecs : Codecs := fun _ body =>
      match body with
      | 0x1f :: 0x8b :: rest => some rest
      | _ => none
    let stored := (CaptureService.mk (some 1024) []).storeRequestBody codecs headers [0x1f, 0x8b, 7]
    stored.fileName = "request.body.gz".toList ∧ stored.file = [7] ∧ stored.truncated = false
      ∧ ¬ MatchesSuffix codecs stored headers [0x1f, 0x8b, 7] := by
  intro headers codecs stored
  refine ⟨by decide +kernel, by decide +kernel, by decide +kernel, fun hmatches => ?_⟩
  have hholds := (hmatches (by decide +kernel)).1
  have hfile : ¬ HoldsEncoded stored [0x1f, 0x8b, 7] := by
    unfold HoldsEncoded
    decide +kernel
  exact hfile hholds

end Inspect.Flow
