import Inspect.Filters.Manager.Load
import Inspect.Flow.BodyEncoding

/-!
# `Tui.Search` — how full-text search reads a body file

The parts of `src/tui/search.rs` that choose a decompressor from the name of a file, that find a query in a line, that
cut the part of a line that is shown of a match, and that sort the results. The pattern that is handed to the search over
files is left out.
-/

namespace Inspect.Tui

open Filters Inspect.Flow

/-- `compressed_kind`. The longer endings that the source tests as well end in the shorter ones. -/
def compressedKind (fileName : Str) : Option ContentCoding :=
  let fileName := Text.toAsciiLowercase fileName
  if ".gz".toList.isSuffixOf fileName then some .gzip
  else if ".br".toList.isSuffixOf fileName then some .br
  else if ".zst".toList.isSuffixOf fileName || ".zstd".toList.isSuffixOf fileName then some .zstd
  else if ".deflate".toList.isSuffixOf fileName then some .deflate
  else none

/-- What search reads of a file: through `open_decompressed_search_reader`, or the file as it is. -/
def readSearchFile (codecs : Codecs) (fileName : Str) (file : Bytes) : Option Bytes :=
  match compressedKind fileName with
  | some kind => codecs kind file
  | none => some file

/-! ## Matches in a line -/

/-- `std::ops::Range<usize>`, in bytes of a text. -/
structure ByteRange where
  start : Nat
  stop : Nat
  deriving DecidableEq, Repr

inductive FullTextMatcher where
  | plain (query : Str)
  | regex (pattern : Str)
  deriving DecidableEq, Repr

namespace FullTextMatcher

/-- `FullTextMatcher::parse`. -/
def parse (query : Str) : Option FullTextMatcher :=
  let query := Text.trim query
  if query.isEmpty then none
  else
    match Text.stripPrefix "re:".toList query with
    | some pattern => some (.regex pattern)
    | none => some (.plain query)

/-- The loop of `find_all_in_line` from `offset` on, for less than `fuel` matches; a slice that panics is `none`. -/
def findFrom (query line : Str) : (fuel offset : Nat) → Option (List ByteRange)
  | 0, _ => none
  | fuel + 1, offset =>
      (Text.sliceFrom offset line).bind fun rest =>
        match Text.find query rest with
        | none => some []
        | some index =>
            -- `str::find` counts in bytes
            let pos := Text.len (rest.take index)
            let start := offset + pos
            let stop := start + Text.len query
            (findFrom query line fuel stop).map (⟨start, stop⟩ :: ·)

/-- `FullTextMatcher::find_all_in_line`. `regexNew` is `Regex::new` with the `find_iter` of what it returns. -/
def findAllInLine (regexNew : Str → Option (Str → List ByteRange)) (line : Str) :
    FullTextMatcher → Option (List ByteRange)
  | plain query => if query.isEmpty then some [] else findFrom query line (line.length + 1) 0
  | regex pattern =>
      match regexNew pattern with
      | some findIter => some ((findIter line).filter fun range => range.start < range.stop)
      | none => some []

end FullTextMatcher

/-! ## Previews -/

/-- The offsets of the characters of a line in bytes, and the length of the line. -/
def charIndices (start : Nat) : Str → List Nat
  | [] => [start]
  | c :: line => start :: charIndices (start + c.utf8Size) line

/-- `partition_point`, on a slice that is partitioned. -/
def partitionPoint (pred : Nat → Bool) (positions : List Nat) : Nat := (positions.takeWhile pred).length

/-- `trim_preview_around_match`; an index or a slice that panics is `none`. -/
def trimPreviewAroundMatch (line : Str) (matchStart matchEnd maxChars : Nat) : Option Str :=
  let line := Text.trim line
  if line.length ≤ maxChars then some line
  else
    let matchStart := min matchStart (Text.len line)
    let matchEnd := min matchEnd (Text.len line)
    let charPositions := charIndices 0 line
    let matchStartChar := partitionPoint (fun idx => idx ≤ matchStart) charPositions - 1
    let matchEndChar := min (partitionPoint (fun idx => idx < matchEnd) charPositions) (charPositions.length - 1)
    let beforeChars := maxChars / 3
    let startChar := matchStartChar - beforeChars
    let endChar := min (startChar + maxChars) (charPositions.length - 1)
    let (startChar, endChar) :=
      if matchEndChar ≥ endChar then
        let endChar := min matchEndChar (charPositions.length - 1)
        (endChar - maxChars, endChar)
      else (startChar, endChar)
    charPositions[startChar]?.bind fun startByte => charPositions[endChar]?.bind fun endByte =>
      Text.get startByte endByte line

/-! ## Results -/

structure FullTextSearchResult where
  flowKey : Str
  path : Str
  lineNumber : UInt64
  preview : Str
  displayLine : Str
deriving DecidableEq

/-- `flow_key_from_path`: a file of a flow is in the directory that has the key of the flow as its name. -/
def flowKeyFromPath (path : FilePath) : Option Str := fileName path.dropLast

/-- `sequence_from_flow_key`. -/
def sequenceFromFlowKey (flowKey : Str) : UInt64 :=
  let seq := ((Text.splitOnce ['-'] flowKey).map Prod.fst).getD flowKey
  ((Text.parseUnsigned (2 ^ 64) seq).map UInt64.ofNat).getD (UInt64.ofNat (2 ^ 64 - 1))

/-- The comparison that `search_capture_files` sorts with. -/
def compareResults : FullTextSearchResult → FullTextSearchResult → Ordering :=
  compareLex (compareOn fun result => sequenceFromFlowKey result.flowKey)
    (compareLex (compareOn FullTextSearchResult.lineNumber) (compareOn FullTextSearchResult.path))

/-- The sort of `search_capture_files`. -/
def sortResults (results : List FullTextSearchResult) : List FullTextSearchResult :=
  results.mergeSort fun a b => (compareResults a b).isLE

end Inspect.Tui
