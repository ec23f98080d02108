import Inspect.Lib.Ascii
import Inspect.Tui.ExternalDiff

/-!
# `Tui.Correctness.SseView` — how many events the view of an event stream reports

The view writes a line in front of every event, and counts these lines in the bytes that it has put together. Events are
bytes of the server: one that has the start of such a line in it is counted more than once.
-/

namespace Inspect.Tui

open Filters Windows

/-- Nothing that the server sent looks like the line in front of an event. -/
structure SseBodyFiles.Unmarked (files : SseBodyFiles) : Prop where
  events : ∀ event ∈ files.events, ¬sseMarker <:+: event.2
  partialEvent : ∀ event ∈ files.partialEvent, ¬sseMarker <:+: event

/-- A view reports how many events there are in its first line. -/
def Reports (text : Str) (count : Nat) : Prop := sseHeader count <+: text

/-! ## The first line -/

theorem sseHeader_prefix_iff (n count : Nat) (rest : Str) : sseHeader n <+: sseHeader count ++ rest ↔ n = count := by
  constructor
  · rintro ⟨more, heq⟩
    unfold sseHeader at heq
    rw [List.append_assoc, List.append_assoc, List.append_assoc, List.append_assoc, List.append_cancel_left_eq] at heq
    -- the digits end at the first space
    have hspan := congrArg (List.takeWhile (· ≠ ' ')) heq
    have htake : ∀ (n : Nat) (tail : Str),
        (Nat.toDigits 10 n ++ (" saved event(s) >>\n".toList ++ tail)).takeWhile (· ≠ ' ') = Nat.toDigits 10 n := by
      intro n tail
      rw [List.takeWhile_append_of_pos]
      · exact List.append_nil _
      · intro c hc
        rw [decide_eq_true_eq]
        rintro rfl
        exact Text.not_mem_decimal (by decide) n hc
    rw [htake, htake] at hspan
    exact Text.decimal_injective hspan
  · rintro rfl
    exact List.prefix_append _ _

theorem reports_iff (engines : Base64Engines) (files : SseBodyFiles) (n : Nat) :
    Reports (sseBodyText engines files) n ↔ n = occurrences sseMarker (sseBytes files) := by
  unfold Reports sseBodyText
  dsimp only
  split_ifs
  · exact sseHeader_prefix_iff _ _ _
  · rw [List.append_assoc]
    exact sseHeader_prefix_iff _ _ _

/-! ## Counting -/

theorem sseMarker_ne_nil : sseMarker ≠ [] := by decide

/-- The marker is a part of one line. -/
theorem newline_not_mem_sseMarker : (10 : UInt8) ∉ sseMarker := by decide

/-- A number has no bracket. -/
theorem bracket_not_mem_digits (sequence : Nat) :
    (60 : UInt8) ∉ Text.bytes (Text.padStart 3 '0' (Nat.toDigits 10 sequence)) := by
  intro hmem
  have hbracket := (@Ascii.mem_bytes_iff '<' (by decide) _).mp hmem
  exact absurd (Text.isDigit_of_mem_padStart '<' hbracket) (by decide)

/-- A line is counted apart from what follows it. -/
theorem occurrences_line (line rest : Bytes) :
    occurrences sseMarker (10 :: (line ++ 10 :: rest)) = occurrences sseMarker line + occurrences sseMarker rest := by
  have hsplit : 10 :: (line ++ 10 :: rest) = [] ++ 10 :: (line ++ 10 :: rest) := rfl
  rw [hsplit, occurrences_append_sep sseMarker_ne_nil newline_not_mem_sseMarker,
    occurrences_append_sep sseMarker_ne_nil newline_not_mem_sseMarker, occurrences_nil, Nat.zero_add]

/-- A line that starts with the marker and has no other bracket has it once. -/
theorem occurrences_marker_append {middle : Bytes} (h : (60 : UInt8) ∉ middle) :
    occurrences sseMarker (sseMarker ++ middle) = 1 := by
  obtain ⟨tail, htail⟩ : ∃ tail, sseMarker = 60 :: tail := ⟨_, rfl⟩
  have hcount : sseMarker.count 60 = 2 := by decide
  have hone : tail.count 60 = 1 := by
    rw [htail, List.count_cons_self] at hcount
    exact Nat.succ.inj hcount
  have hstarts : sseMarker <+: 60 :: (tail ++ middle) := by
    rw [htail]
    exact List.prefix_append (60 :: tail) middle
  have hnone : occurrences sseMarker (tail ++ middle) = 0 := by
    rw [occurrences_eq_zero_iff sseMarker_ne_nil]
    intro hinfix
    -- the marker has two brackets, and behind its first there is only one
    have hle := hinfix.sublist.count_le 60
    rw [hcount, List.count_append, hone, List.count_eq_zero_of_not_mem h] at hle
    omega
  conv_lhs => rw [htail, List.cons_append, ← htail]
  rw [occurrences_cons, if_pos hstarts, hnone]

/-- The line in front of an event has the marker once. -/
theorem occurrences_sseSeparator (sequence : Nat) (rest : Bytes) :
    occurrences sseMarker (sseSeparator sequence ++ rest) = 1 + occurrences sseMarker rest := by
  have hfront : Text.bytes "\n<< SSE event ".toList = 10 :: sseMarker := by decide
  have hback : Text.bytes " >>\n".toList = Text.bytes " >>".toList ++ [10] := by decide
  have hline : sseSeparator sequence ++ rest
      = 10 :: (sseMarker ++ (Text.bytes (Text.padStart 3 '0' (Nat.toDigits 10 sequence)) ++ Text.bytes " >>".toList)
        ++ 10 :: rest) := by
    unfold sseSeparator
    rw [Ascii.bytes_append, Ascii.bytes_append, hfront, hback]
    simp only [List.cons_append, List.append_assoc, List.nil_append]
  rw [hline, occurrences_line, occurrences_marker_append]
  rw [List.mem_append, not_or]
  exact ⟨bracket_not_mem_digits sequence, by decide⟩

/-- The line in front of a partial event does not have it. -/
theorem occurrences_ssePartialSeparator (rest : Bytes) :
    occurrences sseMarker (ssePartialSeparator ++ rest) = occurrences sseMarker rest := by
  obtain ⟨line, hline, heq⟩ : ∃ line, occurrences sseMarker line = 0 ∧ ssePartialSeparator = 10 :: (line ++ [10]) :=
    ⟨Text.bytes "<< SSE partial event at stream end >>".toList, by decide, by decide⟩
  have hsplit : ssePartialSeparator ++ rest = 10 :: (line ++ 10 :: rest) := by
    rw [heq]
    simp only [List.cons_append, List.append_assoc, List.nil_append]
  rw [hsplit, occurrences_line, hline, Nat.zero_add]

/-- The marker is not across the end of an event: what follows starts in a new line. -/
theorem occurrences_event (event : Bytes) {rest : Bytes} (h : ∀ byte ∈ rest.head?, byte = 10) :
    occurrences sseMarker (event ++ rest) = occurrences sseMarker event + occurrences sseMarker rest := by
  cases rest with
  | nil => rw [List.append_nil, occurrences_nil, Nat.add_zero]
  | cons byte rest =>
      obtain rfl := h byte rfl
      have hrest := occurrences_append_sep sseMarker_ne_nil newline_not_mem_sseMarker [] rest
      rw [List.nil_append, occurrences_nil, Nat.zero_add] at hrest
      rw [occurrences_append_sep sseMarker_ne_nil newline_not_mem_sseMarker, hrest]

theorem head_ssePartialBytes (partialEvent : Option Bytes) : ∀ byte ∈ (ssePartialBytes partialEvent).head?, byte = 10 := by
  cases partialEvent with
  | none => exact fun byte hbyte => absurd hbyte (Option.not_mem_none byte)
  | some event => exact fun byte hbyte => (Option.some.inj hbyte).symm

theorem occurrences_ssePartialBytes (partialEvent : Option Bytes) :
    occurrences sseMarker (ssePartialBytes partialEvent) = (partialEvent.map (occurrences sseMarker)).getD 0 := by
  cases partialEvent with
  | none => rfl
  | some event => exact occurrences_ssePartialSeparator event

/-- Every event is counted once, and once more for every place of it where the marker is. -/
theorem occurrences_events (events : List (Nat × Bytes)) {rest : Bytes} (h : ∀ byte ∈ rest.head?, byte = 10) :
    occurrences sseMarker (events.flatMap (fun event => sseSeparator event.1 ++ event.2) ++ rest)
      = events.length + (events.map fun event => occurrences sseMarker event.2).sum + occurrences sseMarker rest := by
  induction events with
  | nil => simp
  | cons event events ih =>
      have hnext : ∀ byte ∈ (events.flatMap (fun event => sseSeparator event.1 ++ event.2) ++ rest).head?, byte = 10 := by
        cases events with
        | nil => exact h
        | cons next events => exact fun byte hbyte => (Option.some.inj hbyte).symm
      rw [List.flatMap_cons, List.append_assoc, List.append_assoc, occurrences_sseSeparator, occurrences_event _ hnext, ih,
        List.length_cons, List.map_cons, List.sum_cons]
      omega

/-- **What the view counts**: its events, and every place of a file where the marker is. -/
theorem occurrences_sseBytes (files : SseBodyFiles) :
    occurrences sseMarker (sseBytes files)
      = files.events.length + (files.events.map fun event => occurrences sseMarker event.2).sum
        + (files.partialEvent.map (occurrences sseMarker)).getD 0 := by
  rw [sseBytes, occurrences_events _ (head_ssePartialBytes _), occurrences_ssePartialBytes]

/-- **The view reports the number of its events exactly if none of its files has the marker in it.** -/
theorem reports_length_iff (engines : Base64Engines) (files : SseBodyFiles) :
    Reports (sseBodyText engines files) files.events.length ↔ files.Unmarked := by
  rw [reports_iff, occurrences_sseBytes]
  constructor
  · intro heq
    have hsum : (files.events.map fun event => occurrences sseMarker event.2).sum = 0 := by omega
    have hlast : (files.partialEvent.map (occurrences sseMarker)).getD 0 = 0 := by omega
    refine ⟨fun event hevent => ?_, fun event hevent => ?_⟩
    · rw [← occurrences_eq_zero_iff sseMarker_ne_nil]
      exact List.sum_eq_zero_iff.mp hsum _ (List.mem_map_of_mem hevent)
    · rw [← occurrences_eq_zero_iff sseMarker_ne_nil]
      rw [Option.mem_def.mp hevent] at hlast
      exact hlast
  · rintro ⟨hevents, hlast⟩
    have hsum : (files.events.map fun event => occurrences sseMarker event.2).sum = 0 := by
      refine List.sum_eq_zero_iff.mpr fun count hcount => ?_
      obtain ⟨event, hevent, rfl⟩ := List.mem_map.mp hcount
      exact (occurrences_eq_zero_iff sseMarker_ne_nil).mpr (hevents event hevent)
    have hnone : (files.partialEvent.map (occurrences sseMarker)).getD 0 = 0 := by
      cases hfile : files.partialEvent with
      | none => rfl
      | some event => exact (occurrences_eq_zero_iff sseMarker_ne_nil).mpr (hlast event hfile)
    omega

/-! ## The view of a directory -/

/-- Reading that succeeds has succeeded at every step. -/
theorem bind_eq_ok {A B : Type} {first : Except Str A} {next : A → Except Str B} {value : B}
    (h : (first >>= next) = .ok value) : ∃ read, first = .ok read ∧ next read = .ok value := by
  cases first with
  | error err => cases h
  | ok read => exact ⟨read, rfl, h⟩

/-- What is read is one event for each event file, under its number. -/
theorem readEvents_spec {fs : FileSystem} {flowDir : FilePath} {paths : List (Nat × Str)} {events : List (Nat × Bytes)}
    (h : readEvents fs flowDir paths = .ok events) :
    List.Forall₂ (fun path event => event.1 = path.1 ∧ fs.read (flowDir ++ [path.2]) = .ok event.2) paths events := by
  induction paths generalizing events with
  | nil =>
      cases h
      exact List.Forall₂.nil
  | cons path paths ih =>
      obtain ⟨event, hread, h⟩ := bind_eq_ok h
      obtain ⟨rest, hrest, h⟩ := bind_eq_ok h
      cases h
      exact List.Forall₂.cons ⟨rfl, hread⟩ (ih hrest)

/-- What is read of a directory is all of its event files. -/
theorem sseBodyFiles_spec {fs : FileSystem} {sortUnstable : Sorting.UnstableSort (Nat × Str) Prod.fst} {path : FilePath}
    {files : SseBodyFiles} (h : sseBodyFiles fs sortUnstable path = .ok (some files)) :
    ∃ entries paths, fs.readDir path.dropLast = .ok entries ∧ eventPaths entries = .ok paths
      ∧ readEvents fs path.dropLast (sortUnstable.sort paths) = .ok files.events := by
  unfold sseBodyFiles at h
  split at h
  · cases h
  · split at h
    · obtain ⟨marked, -, h⟩ := bind_eq_ok h
      split at h
      · obtain ⟨entries, hentries, h⟩ := bind_eq_ok h
        obtain ⟨paths, hpaths, h⟩ := bind_eq_ok h
        obtain ⟨events, hevents, h⟩ := bind_eq_ok h
        obtain ⟨interrupted, -, h⟩ := bind_eq_ok h
        refine ⟨entries, paths, hentries, hpaths, ?_⟩
        split at h
        · obtain ⟨partialEvent, -, h⟩ := bind_eq_ok h
          cases h
          exact hevents
        · cases h
          exact hevents
      · cases h
    · cases h

/-- **A view reports the number of the event files of its directory exactly if no file that it shows has the marker in
    it**: all of the event files are shown. -/
theorem readSseBodyFiles_reports_iff (engines : Base64Engines) (fs : FileSystem)
    (sortUnstable : Sorting.UnstableSort (Nat × Str) Prod.fst) (path : FilePath) (text : Str)
    (h : readSseBodyFiles engines fs sortUnstable path = .ok (some text)) :
    ∃ entries paths files, fs.readDir path.dropLast = .ok entries ∧ eventPaths entries = .ok paths
      ∧ sseBodyFiles fs sortUnstable path = .ok (some files) ∧ files.events.length = paths.length
      ∧ (Reports text files.events.length ↔ files.Unmarked) := by
  unfold readSseBodyFiles at h
  cases hread : sseBodyFiles fs sortUnstable path with
  | error err =>
      rw [hread] at h
      cases h
  | ok found =>
      cases found with
      | none =>
          rw [hread] at h
          cases h
      | some files =>
          rw [hread] at h
          cases h
          obtain ⟨entries, paths, hentries, hpaths, hevents⟩ := sseBodyFiles_spec hread
          have hlength := (readEvents_spec hevents).length_eq
          rw [(sortUnstable.perm paths).length_eq] at hlength
          exact ⟨entries, paths, files, hentries, hpaths, rfl, hlength.symm, reports_length_iff engines files⟩

/-- A directory with one event. -/
def oneEvent (event : Str) : FileSystem where
  tryExists path := .ok (path = ["response.body.sse".toList])
  readDir _ := .ok [.ok (some "response.body.sse".toList), .ok (some "response.body.001".toList)]
  read _ := .ok (Text.bytes event)

def noBase64 : Base64Engines := ⟨fun _ => none, fun _ => none, fun _ => none, fun _ => none⟩

theorem readSseBodyFiles_reports_iff_plain :
    ∃ text, readSseBodyFiles noBase64 (oneEvent "data: hello\n\n".toList) (.stable _ _) ["response.body".toList]
        = .ok (some text)
      ∧ ∃ entries paths files, (oneEvent "data: hello\n\n".toList).readDir [] = .ok entries
        ∧ eventPaths entries = .ok paths
        ∧ sseBodyFiles (oneEvent "data: hello\n\n".toList) (.stable _ _) ["response.body".toList] = .ok (some files)
        ∧ files.events.length = paths.length ∧ (Reports text files.events.length ↔ files.Unmarked) := by
  have hread : sseBodyFiles (oneEvent "data: hello\n\n".toList) (.stable _ _) ["response.body".toList]
      = .ok (some ⟨[(1, Text.bytes "data: hello\n\n".toList)], none⟩) := by rfl
  have htext := congrArg (fun read => read.map (Option.map (sseBodyText noBase64))) hread
  exact ⟨_, htext, readSseBodyFiles_reports_iff noBase64 _ _ _ _ htext⟩

/-- One event with the marker in it is reported as two. -/
theorem readSseBodyFiles_marked :
    ∃ text files, readSseBodyFiles noBase64 (oneEvent "data: << SSE event >>\n\n".toList) (.stable _ _)
        ["response.body".toList] = .ok (some text)
      ∧ sseBodyFiles (oneEvent "data: << SSE event >>\n\n".toList) (.stable _ _) ["response.body".toList]
        = .ok (some files)
      ∧ files.events.length = 1 ∧ Reports text 2 ∧ ¬Reports text files.events.length := by
  have hread : sseBodyFiles (oneEvent "data: << SSE event >>\n\n".toList) (.stable _ _) ["response.body".toList]
      = .ok (some ⟨[(1, Text.bytes "data: << SSE event >>\n\n".toList)], none⟩) := by rfl
  have htext := congrArg (fun read => read.map (Option.map (sseBodyText noBase64))) hread
  have hcount : occurrences sseMarker (sseBytes ⟨[(1, Text.bytes "data: << SSE event >>\n\n".toList)], none⟩) = 2 := by
    decide
  refine ⟨_, _, htext, hread, rfl, ?_, ?_⟩
  · rw [reports_iff, hcount]
  · rw [reports_iff, hcount]
    decide

end Inspect.Tui
