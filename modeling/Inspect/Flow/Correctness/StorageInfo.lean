import Inspect.Flow.CaptureCommit
import Inspect.Lib.Json.Codec

/-!
# `Flow.Correctness.StorageInfo` — the recorded sizes describe the stored files

How many bytes of a body are saved and whether it is truncated is computed beside the writing of its file. The two agree
on every body and every limit, and so the row of a commit says what is in the file that it names.
-/

namespace Inspect.Flow

open Http Filters

/-- A file holds the first `savedSize` bytes of a body, and then the marker if and only if it is `truncated`. -/
def Describes (body file : Bytes) (savedSize : Nat) (truncated : Bool) : Prop :=
  savedSize ≤ body.length
    ∧ file = body.take savedSize ++ if truncated then truncationMarker savedSize body.length else []

/-- **The two computations agree.** -/
theorem describes_writeBodyForStorage (body : Bytes) (maxLen : Option Nat) :
    Describes body (writeBodyForStorage body maxLen) (bodyStorageInfo body.length maxLen).savedSize
      (bodyStorageInfo body.length maxLen).truncated := by
  cases maxLen with
  | none =>
      refine ⟨Nat.le_refl _, ?_⟩
      show body = body.take body.length ++ []
      rw [List.take_length, List.append_nil]
  | some maxLen =>
      refine ⟨Nat.min_le_left _ _, ?_⟩
      unfold writeBodyForStorage bodyStorageInfo
      dsimp only
      by_cases hcut : maxLen < body.length
      · rw [if_pos hcut, if_pos (decide_eq_true hcut), Nat.min_eq_right (Nat.le_of_lt hcut)]
      · -- the whole body is kept, also if it is as long as the limit
        have hle := Nat.le_of_not_lt hcut
        rw [if_neg hcut, if_neg (by simpa using hle), Nat.min_eq_left hle, List.take_length,
          List.take_of_length_le hle]

section Commits

variable (codecs : Codecs) (service : CaptureService)

/-- What a row says of the file of a body: it describes how the bytes to be stored are in the file; or, if the content
    type is left out, the notice that is there instead. -/
def RowDescribes (headers : HeaderMap) (body file : Bytes) (savedSize : Int64) (truncated : Bool) : Prop :=
  match bodyOmitReasonByContentType headers service.bodyOmitContentTypes with
  | some reason =>
      file = Text.bytes ("<body omitted by inspect: ".toList ++ reason ++ ">\n".toList)
        ∧ savedSize = Int64.ofNat file.length ∧ truncated = true
  | none => ∃ size, savedSize = Int64.ofNat size
      ∧ Describes (service.storedBodyBytes codecs headers body) file size truncated

/-- What `commit_request` and `commit_response` share. -/
theorem rowDescribes_storeBody (base : Str) (headers : HeaderMap) (body : Bytes) :
    RowDescribes codecs service headers body (service.storeBody codecs base headers body).file
      (Int64.ofNat (service.storeBody codecs base headers body).savedSize)
      (service.storeBody codecs base headers body).truncated := by
  unfold RowDescribes CaptureService.storeBody
  cases bodyOmitReasonByContentType headers service.bodyOmitContentTypes with
  | some reason => exact ⟨rfl, rfl, rfl⟩
  | none => exact ⟨_, rfl, describes_writeBodyForStorage _ _⟩

/-- **The recorded numbers describe the stored file**: for every body and every limit; and in every commit of a request,
    and of a response that is no error and whose truncation is not overridden, for the file that the row names. -/
theorem storageInfo_describes {N : Type} (serde : SerdeJson N) (canonicalReason : StatusCode → Option Str) :
    (∀ (body : Bytes) (maxLen : Option Nat),
      Describes body (writeBodyForStorage body maxLen) (bodyStorageInfo body.length maxLen).savedSize
        (bodyStorageInfo body.length maxLen).truncated)
    ∧ (∀ (capture : EffectiveRequestCapture) (disk : Disk),
      let commit : Commit (RequestMetadata N) := service.commitRequest codecs capture
      ∃ file, disk.writeAll commit.files commit.row.requestBodyPath = some file
        ∧ RowDescribes codecs service capture.headers capture.bodyBytes file commit.row.bodySavedSize
          commit.row.bodyTruncated)
    ∧ ∀ (capture : EffectiveResponseCapture N) (disk : Disk), capture.upstreamErrorMessage = none →
      capture.bodyTruncatedOverride = none →
      let commit := service.commitResponse codecs serde canonicalReason capture
      ∃ file, disk.writeAll commit.files commit.row.responseBodyPath = some file
        ∧ RowDescribes codecs service capture.headers capture.bodyBytes file commit.row.bodySavedSize
          commit.row.bodyTruncated := by
  refine ⟨describes_writeBodyForStorage, ?_, ?_⟩
  · intro capture disk commit
    refine ⟨(service.storeRequestBody codecs capture.headers capture.bodyBytes).file, ?_,
      rowDescribes_storeBody codecs service _ capture.headers capture.bodyBytes⟩
    exact writeAll_of_mem [_] _ _ (by simp) disk
  · intro capture disk hmessage hoverride commit
    have hstored : service.storeResponseBody codecs capture.headers capture.bodyBytes capture.bodyTruncatedOverride
        capture.upstreamErrorMessage
          = service.storeBody codecs "response.body".toList capture.headers capture.bodyBytes := by
      rw [hmessage, hoverride]
      rfl
    refine ⟨(service.storeResponseBody codecs capture.headers capture.bodyBytes capture.bodyTruncatedOverride
      capture.upstreamErrorMessage).file, writeAll_of_mem [_, _] _ _ (by simp) disk, ?_⟩
    have hrow := rowDescribes_storeBody codecs service "response.body".toList capture.headers capture.bodyBytes
    rw [← hstored] at hrow
    exact hrow

end Commits

/-- A response with a body of three bytes. -/
def threeBytes : EffectiveResponseCapture Int where
  id := ⟨1⟩
  seq := 1
  flowKey := flowKeyOf 1 ⟨1⟩
  flowDir := [flowKeyOf 1 ⟨1⟩]
  status := .ok
  version := .http11
  headers := []
  bodyBytes := [1, 2, 3]
  bodySizeOverride := none
  bodyTruncatedOverride := none
  elapsedMs := 0
  origin := .upstream
  upstreamStatus := some 200
  upstreamRemoteAddr := none
  tlsSni := none
  tlsUpstream := none
  upstreamErrorMessage := none

/-- Under a limit of two bytes, the third is cut off. -/
theorem storageInfo_describes_threeBytes :
    let service : CaptureService := ⟨some 2, []⟩
    let commit := service.commitResponse (fun _ _ => none) JsonCodec.codec (fun _ => none) threeBytes
    ∃ file, Disk.writeAll commit.files (fun _ => none) commit.row.responseBodyPath = some file
      ∧ RowDescribes (fun _ _ => none) service threeBytes.headers threeBytes.bodyBytes file commit.row.bodySavedSize
        commit.row.bodyTruncated :=
  (storageInfo_describes (fun _ _ => none) ⟨some 2, []⟩ JsonCodec.codec fun _ => none).2.2 threeBytes (fun _ => none) rfl
    rfl

end Inspect.Flow
