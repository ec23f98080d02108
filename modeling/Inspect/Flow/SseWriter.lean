import Inspect.Flow.CaptureCommit
import Inspect.Flow.SseCapture

/-!
# `Flow.SseWriter` — the files of an event stream

The task that `SseCapture::start` spawns: it writes the file that marks an event stream, and then a file for every
message that the capture sends. The channel is unbounded, so what is in it are the messages of the capture that the
task has not received yet.

The capture and the task run side by side. A file system writes a file in pieces, and a write that fails may leave some
of them.
-/

namespace Inspect.Sse

open Filters Inspect.Flow

/-- `SSE_CAPTURE_MARKER_FILE`. -/
def sseCaptureMarkerFile : Str := "response.body.sse".toList

/-- `SSE_CAPTURE_PARTIAL_FILE`. -/
def sseCapturePartialFile : Str := "response.body.partial".toList

/-- The name of an event's file. -/
def sseEventFile (sequence : Nat) : Str :=
  "response.body.".toList ++ Text.padStart 3 '0' (Nat.toDigits 10 sequence)

/-- The file of the marker. -/
def sseCaptureMarker : Str × Bytes :=
  (sseCaptureMarkerFile, asciiBytes "<SSE stream; events are stored in response.body.NNN>\n".toList)

/-- The file of a message. -/
def SseCaptureMessage.file : SseCaptureMessage → Str × Bytes
  | .event sequence bytes => (sseEventFile sequence, bytes)
  | .partialBytes bytes => (sseCapturePartialFile, bytes)

/-- Where the task is. -/
inductive SseWriter
  | marking
  /-- it has received so many messages and is through with them -/
  | receiving (received : Nat)
  /-- it has received one more, and writes its file -/
  | writing (received : Nat) (message : SseCaptureMessage)
  /-- without a marker it returns -/
  | stopped

/-- The file that is written. -/
def SseWriter.file : SseWriter → Option (Str × Bytes)
  | .marking => some sseCaptureMarker
  | .receiving _ => none
  | .writing _ message => some message.file
  | .stopped => none

/-- Behind a write, whether it has failed or not; a failing one is logged. -/
def SseWriter.next (failed : Bool) : SseWriter → SseWriter
  | .marking => if failed then .stopped else .receiving 0
  | .receiving received => .receiving received
  | .writing received _ => .receiving (received + 1)
  | .stopped => .stopped

structure SseStream where
  capture : SseCapture
  writer : SseWriter
  disk : Disk

/-- What can happen, each in one step. -/
inductive SseStep
  /-- a body frame passes -/
  | push (bytes : Bytes)
  /-- the body ends, or is dropped -/
  | finish
  /-- the task receives a message -/
  | receive
  /-- so many bytes of the file are on the disk -/
  | put (len : Nat)
  | written
  | failed
deriving DecidableEq

namespace SseStream

variable (flowDir : FilePath)

/-- `SseCapture::start`. -/
def start (disk : Disk) (maxEvents maxEventBytes : Nat) : SseStream :=
  ⟨.start maxEvents maxEventBytes, .marking, disk⟩

/-- One step; a task that has nothing to do waits. -/
def step (stream : SseStream) : SseStep → SseStream
  | .push bytes => { stream with capture := stream.capture.push bytes }
  | .finish => { stream with capture := stream.capture.finish }
  | .receive =>
      match stream.writer with
      | .receiving received =>
          match stream.capture.sent[received]? with
          | none => stream
          | some message => { stream with writer := .writing received message }
      | _ => stream
  | .put len =>
      match stream.writer.file with
      | none => stream
      | some (name, bytes) => { stream with disk := stream.disk.write (flowDir ++ [name], bytes.take len) }
  | .written =>
      match stream.writer.file with
      | none => stream
      | some (name, bytes) =>
          { stream with writer := stream.writer.next false, disk := stream.disk.write (flowDir ++ [name], bytes) }
  | .failed => { stream with writer := stream.writer.next true }

/-- A whole run. -/
def runFrom (stream : SseStream) (steps : List SseStep) : SseStream := steps.foldl (step flowDir) stream

end SseStream

end Inspect.Sse
