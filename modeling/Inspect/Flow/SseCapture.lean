import Inspect.Lib.Text
import Mathlib.Tactic

/-!
# `Flow.SseCapture` — cutting a server-sent event stream into events

The embedding of `src/mitm/flow/sse_capture.rs`: body frames are pushed as they arrive, complete events are
sent to the writer task, and `finish` sends what is left. The unbounded channel `tx` is the list of messages
sent so far; the writer task that turns messages into files is `Flow.SseWriter`.
-/

namespace Inspect

/-- The bytes of a text of ASCII characters. -/
def asciiBytes (text : Str) : List UInt8 := text.map fun c => c.toNat.toUInt8

namespace Sse

inductive SseCaptureMessage
  | event (sequence : Nat) (bytes : List UInt8)
  | partialBytes (bytes : List UInt8)
deriving DecidableEq, Repr

structure SseCapture where
  sent : List SseCaptureMessage
  buffer : List UInt8
  maxEvents : Nat
  maxEventBytes : Nat
  savedEvents : Nat
  discardingOversizedEvent : Bool
  finished : Bool
deriving DecidableEq, Repr

/-- `SseCapture::start`. -/
def SseCapture.start (maxEvents maxEventBytes : Nat) : SseCapture where
  sent := []
  buffer := []
  maxEvents := maxEvents
  maxEventBytes := maxEventBytes
  savedEvents := 0
  discardingOversizedEvent := false
  finished := false

/-! ## Finding the end of an event -/

/-- The length of the event terminator `remaining` starts with, tried in the source's order: `\r\n\r\n`,
    `\r\n\n`, then `\n\n` or `\r\r`. -/
def terminatorLen (remaining : List UInt8) : Option Nat :=
  if [13, 10, 13, 10].isPrefixOf remaining then some 4
  else if [13, 10, 10].isPrefixOf remaining then some 3
  else if [10, 10].isPrefixOf remaining || [13, 13].isPrefixOf remaining then some 2
  else none

/-- The loop of `find_sse_event_end`: `remaining` is `&bytes[index..]`. -/
def findLoop (remaining : List UInt8) (index : Nat) : Option Nat :=
  match remaining with
  | [] => none
  | byte :: rest =>
      match terminatorLen (byte :: rest) with
      | some len => some (index + len)
      | none => findLoop rest (index + 1)

/-- `find_sse_event_end`. -/
def findSseEventEnd (bytes : List UInt8) : Option Nat := findLoop bytes 0

theorem terminatorLen_bounds {remaining : List UInt8} {len : Nat}
    (h : terminatorLen remaining = some len) :
    2 ≤ len ∧ len ≤ 4 ∧ len ≤ remaining.length := by
  unfold terminatorLen at h
  split at h
  · rename_i hpre
    have hlen := (List.isPrefixOf_iff_prefix.mp hpre).length_le
    cases h; simp at hlen ⊢; omega
  split at h
  · rename_i hpre
    have hlen := (List.isPrefixOf_iff_prefix.mp hpre).length_le
    cases h; simp at hlen ⊢; omega
  split at h
  · rename_i hpre
    rcases Bool.or_eq_true_iff.mp hpre with hpre | hpre
    all_goals
      have hlen := (List.isPrefixOf_iff_prefix.mp hpre).length_le
      cases h; simp at hlen ⊢; omega
  · cases h

/-- The loop counts up from its start index. -/
theorem findLoop_eq (remaining : List UInt8) (index : Nat) :
    findLoop remaining index = (findSseEventEnd remaining).map (index + ·) := by
  unfold findSseEventEnd
  induction remaining generalizing index with
  | nil => rfl
  | cons byte rest ih =>
      unfold findLoop
      cases hterm : terminatorLen (byte :: rest) with
      | some len => simp
      | none =>
          dsimp only
          rw [ih (index + 1), ih (0 + 1), Option.map_map]
          congr 1
          funext n
          simp only [Function.comp_apply]
          omega

/-- `find_sse_event_end`, one byte at a time. -/
theorem findSseEventEnd_cons (byte : UInt8) (rest : List UInt8) :
    findSseEventEnd (byte :: rest)
      = match terminatorLen (byte :: rest) with
        | some len => some len
        | none => (findSseEventEnd rest).map (1 + ·) := by
  rw [findSseEventEnd, findLoop]
  cases terminatorLen (byte :: rest) with
  | some len => simp
  | none => exact findLoop_eq rest (0 + 1)

theorem findSseEventEnd_bounds {bytes : List UInt8} {eventEnd : Nat}
    (h : findSseEventEnd bytes = some eventEnd) : 2 ≤ eventEnd ∧ eventEnd ≤ bytes.length := by
  induction bytes generalizing eventEnd with
  | nil => cases h
  | cons byte rest ih =>
      rw [findSseEventEnd_cons] at h
      cases hterm : terminatorLen (byte :: rest) with
      | some len =>
          rw [hterm] at h
          cases h
          have hbounds := terminatorLen_bounds hterm
          omega
      | none =>
          rw [hterm] at h
          obtain ⟨n, hn, rfl⟩ := Option.map_eq_some_iff.mp h
          have hbounds := ih hn
          simp only [List.length_cons]
          omega

/-! ## Saving events -/

/-- `truncate_event`. The notice is appended whether or not the event was longer than the limit. -/
def truncateEvent (event : List UInt8) (maxEventBytes : Nat) : List UInt8 :=
  event.take maxEventBytes
    ++ asciiBytes ("\n<< inspect SSE event capture truncated: max_event_bytes=".toList
        ++ Nat.toDigits 10 maxEventBytes ++ " >>\n".toList)

namespace SseCapture

/-- `capture_limit_reached`. -/
def captureLimitReached (self : SseCapture) : Bool :=
  self.maxEvents == 0 || self.maxEventBytes == 0 || decide (self.savedEvents ≥ self.maxEvents)

/-- `save_event_with_truncation`. -/
def saveEventWithTruncation (self : SseCapture) (event : List UInt8) : SseCapture :=
  { self with
    savedEvents := self.savedEvents + 1
    sent := self.sent ++ [.event (self.savedEvents + 1) (truncateEvent event self.maxEventBytes)] }

/-- `save_event`. -/
def saveEvent (self : SseCapture) (event : List UInt8) : SseCapture :=
  if event.length > self.maxEventBytes then self.saveEventWithTruncation event
  else
    { self with
      savedEvents := self.savedEvents + 1
      sent := self.sent ++ [.event (self.savedEvents + 1) event] }

/-- `handle_oversized_incomplete_event`. -/
def handleOversizedIncompleteEvent (self : SseCapture) : SseCapture :=
  if self.discardingOversizedEvent || self.maxEventBytes == 0 then self
  else if self.buffer.length ≤ self.maxEventBytes then self
  else
    { self.saveEventWithTruncation (self.buffer.take self.maxEventBytes) with
      discardingOversizedEvent := true
      -- three bytes are enough to recognise a terminator split across frames
      buffer := self.buffer.drop (self.buffer.length - 3) }

@[simp] theorem saveEvent_buffer (self : SseCapture) (event : List UInt8) :
    (self.saveEvent event).buffer = self.buffer := by
  unfold saveEvent saveEventWithTruncation; split <;> rfl

/-- The loop of `push`. Every turn drains an event from the buffer. -/
def pushLoop (self : SseCapture) : SseCapture :=
  match hend : findSseEventEnd self.buffer with
  | none => self.handleOversizedIncompleteEvent
  | some eventEnd =>
      let event := self.buffer.take eventEnd
      let drained := { self with buffer := self.buffer.drop eventEnd }
      if self.discardingOversizedEvent then
        pushLoop { drained with discardingOversizedEvent := false }
      else if (drained.saveEvent event).captureLimitReached then
        { drained.saveEvent event with buffer := [] }
      else
        pushLoop (drained.saveEvent event)
termination_by self.buffer.length
decreasing_by
  all_goals
    have hbounds := findSseEventEnd_bounds hend
    simp only [saveEvent_buffer, List.length_drop]
    omega

/-- `SseCapture::push`. -/
def push (self : SseCapture) (bytes : List UInt8) : SseCapture :=
  if self.finished || self.captureLimitReached then self
  else pushLoop { self with buffer := self.buffer ++ bytes }

/-- `SseCapture::finish`; dropping the capture calls it too. -/
def finish (self : SseCapture) : SseCapture :=
  if self.finished then self
  else if self.buffer.isEmpty || self.discardingOversizedEvent || self.captureLimitReached then
    { self with finished := true }
  else
    { self with
      finished := true
      buffer := []
      sent := self.sent ++ [.partialBytes (truncateEvent self.buffer self.maxEventBytes)] }

end SseCapture

/-- The messages a fresh capture sends for a stream that arrives in the given chunks and then ends. -/
def capturedMessages (maxEvents maxEventBytes : Nat) (chunks : List (List UInt8)) :
    List SseCaptureMessage :=
  (chunks.foldl SseCapture.push (.start maxEvents maxEventBytes)).finish.sent

end Sse
end Inspect
