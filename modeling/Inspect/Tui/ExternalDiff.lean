import Inspect.Filters.Manager.Load
import Inspect.Lib.Sorting
import Inspect.Lib.Windows
import Inspect.Tui.Body

/-!
# `Tui.ExternalDiff` — the text of a body file

The part of `src/tui/external_diff.rs` that reads the body of a message for the detail view. The response of an event
stream is kept in a file for each event; the view is made of all of them.

`FileSystem` is what `tokio::fs` answers, where an error is its text.
-/

namespace Inspect.Tui

open Filters Inspect.Flow

structure FileSystem where
  tryExists : FilePath → Except Str Bool
  /-- The names that `next_entry` yields; one that is not UTF-8 is `none`. -/
  readDir : FilePath → Except Str (List (Except Str (Option Str)))
  read : FilePath → Except Str Bytes

/-- The files of an event stream in their order, each event with its number. -/
structure SseBodyFiles where
  events : List (Nat × Bytes)
  partialEvent : Option Bytes
deriving DecidableEq

/-- The number of an event file: a `usize` behind the start of its name. -/
def eventSequence (fileName : Str) : Option Nat :=
  (Text.stripPrefix "response.body.".toList fileName).bind (Text.parseUnsigned (2 ^ 64))

/-- The loop over the entries of the directory. -/
def eventPaths : List (Except Str (Option Str)) → Except Str (List (Nat × Str))
  | [] => .ok []
  | entry :: entries => do
      let fileName ← entry
      let paths ← eventPaths entries
      match fileName.bind fun name => (eventSequence name).map fun sequence => (sequence, name) with
      | some found => .ok (found :: paths)
      | none => .ok paths

section Files

variable (fs : FileSystem) (sortUnstable : Sorting.UnstableSort (Nat × Str) Prod.fst)

/-- The loop that reads the event files. -/
def readEvents (flowDir : FilePath) : List (Nat × Str) → Except Str (List (Nat × Bytes))
  | [] => .ok []
  | (sequence, name) :: paths => do
      let event ← fs.read (flowDir ++ [name])
      let events ← readEvents flowDir paths
      .ok ((sequence, event) :: events)

/-- What `read_sse_body_files` reads: nothing without the file that marks an event stream. -/
def sseBodyFiles (path : FilePath) : Except Str (Option SseBodyFiles) :=
  match fileName path with
  | none => .ok none
  | some name =>
      if "response.body".toList.isPrefixOf name then do
        let flowDir := path.dropLast
        let marked ← fs.tryExists (flowDir ++ ["response.body.sse".toList])
        if marked then do
          let entries ← fs.readDir flowDir
          let paths ← eventPaths entries
          let events ← readEvents fs flowDir (sortUnstable.sort paths)
          let partialPath := flowDir ++ ["response.body.partial".toList]
          let interrupted ← fs.tryExists partialPath
          if interrupted then do
            let partialEvent ← fs.read partialPath
            .ok (some ⟨events, some partialEvent⟩)
          else .ok (some ⟨events, none⟩)
        else .ok none
      else .ok none

end Files

/-! ## The view -/

/-- What the view counts. -/
def sseMarker : Bytes := Text.bytes "<< SSE event ".toList

/-- What the view writes in front of an event. -/
def sseSeparator (sequence : Nat) : Bytes :=
  Text.bytes ("\n<< SSE event ".toList ++ Text.padStart 3 '0' (Nat.toDigits 10 sequence) ++ " >>\n".toList)

def ssePartialSeparator : Bytes := Text.bytes "\n<< SSE partial event at stream end >>\n".toList

/-- What the view shows of a partial event. -/
def ssePartialBytes : Option Bytes → Bytes
  | some partialEvent => ssePartialSeparator ++ partialEvent
  | none => []

/-- The bytes that the view is made of. -/
def sseBytes (files : SseBodyFiles) : Bytes :=
  files.events.flatMap (fun event => sseSeparator event.1 ++ event.2) ++ ssePartialBytes files.partialEvent

def sseHeader (savedEventCount : Nat) : Str :=
  "<< Server-Sent Events capture: ".toList ++ Nat.toDigits 10 savedEventCount ++ " saved event(s) >>\n".toList

/-- What `read_sse_body_files` makes of the files: the events are counted in the bytes. -/
def sseBodyText (engines : Base64Engines) (files : SseBodyFiles) : Str :=
  let bytes := sseBytes files
  let savedEventCount := Windows.occurrences sseMarker bytes
  let header := sseHeader savedEventCount
  if bytes = [] then header ++ "\n<no complete SSE event has been captured yet>".toList
  else header ++ "\n".toList ++ formatBodyForDisplay engines bytes

section Read

variable (engines : Base64Engines) (fs : FileSystem) (sortUnstable : Sorting.UnstableSort (Nat × Str) Prod.fst)

/-- `read_sse_body_files`. -/
def readSseBodyFiles (path : FilePath) : Except Str (Option Str) :=
  (sseBodyFiles fs sortUnstable path).map (Option.map (sseBodyText engines))

/-- `read_body_file`. -/
def readBodyFile {N : Type} (codecs : Codecs) (serde : SerdeJson N) (path : Option FilePath) (headers : Json N) : Str :=
  match path with
  | none => "<no path>".toList
  | some path =>
      match readSseBodyFiles engines fs sortUnstable path with
      | .ok (some body) => body
      | .error err => "<read SSE body error: ".toList ++ err ++ ">".toList
      | .ok none =>
          match fs.read path with
          | .ok bytes => formatBodyForDisplay engines (decodeBodyByHeaders codecs serde headers bytes).bytes
          | .error err => "<read error: ".toList ++ err ++ ">".toList

end Read

end Inspect.Tui
