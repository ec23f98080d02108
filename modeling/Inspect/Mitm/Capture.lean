import Inspect.Filters.Generator
import Inspect.Filters.Manager.Quarantine
import Inspect.Lib.Fields

/-!
# `Mitm.Capture` — the files of generated filters

The parts of `src/mitm/capture.rs` that name the file of a generated filter and find a path for it, or for its copy in
quarantine. Both directories are created first, so they exist; what is written to a file, and how it is moved, is left out.
-/

namespace Inspect.Mitm

open Filters

open OsPath (PathBuf join)

/-- The time of the day, as far as it is in a name. -/
structure ClockTime where
  hour : Nat
  minute : Nat
  second : Nat
deriving DecidableEq

/-- `format("generated-%H%M%S")`. -/
def ClockTime.format (now : ClockTime) : Str :=
  "generated-".toList ++ Text.padStart 2 '0' (Nat.toDigits 10 now.hour)
    ++ Text.padStart 2 '0' (Nat.toDigits 10 now.minute) ++ Text.padStart 2 '0' (Nat.toDigits 10 now.second)

/-- `slugify_filter_name`; the loop is that of `slugify_label`. -/
def slugifyFilterName (now : ClockTime) (name : Str) : Str :=
  let out := slugifyLoop false (name.flatMap toLowercase)
  let slug := (out.dropWhile (· == '-')).rdropWhile (· == '-')
  if slug.isEmpty then now.format else slug

/-- `generated_filter_file_name`. -/
def generatedFilterFileName (now : ClockTime) (name : Str) : Str :=
  let slug := slugifyFilterName now name
  if ".roto".toList.isSuffixOf slug then slug else slug ++ ".roto".toList

/-- `unique_file_path`. -/
def uniqueFilePath (files : Finset PathBuf) (dir : PathBuf) (fileName : Str) : Option PathBuf :=
  uniquePath files dir (Text.bytes fileName) "generated".toList "-".toList

/-- `write_generated_filter`: the path, and the files that exist then. -/
def writeGeneratedFilter (now : ClockTime) (files : Finset PathBuf) (generatedFiltersDir : PathBuf) (name : Str) :
    Option (PathBuf × Finset PathBuf) :=
  (uniqueFilePath files generatedFiltersDir (generatedFilterFileName now name)).map fun path => (path, insert path files)

/-- Where `quarantine_generated_filter` moves a file. -/
def quarantineGeneratedFilter (files : Finset PathBuf) (quarantineFiltersDir path : PathBuf) :
    Option (Except Str PathBuf) :=
  match OsPath.fileName path with
  | none => some (.error ("generated filter path has no file name: ".toList ++ Bytes.fromUtf8Lossy path))
  | some fileName => (uniqueFilePath files quarantineFiltersDir (Bytes.fromUtf8Lossy fileName)).map .ok

end Inspect.Mitm
