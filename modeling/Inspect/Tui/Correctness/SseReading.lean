import Inspect.Filters.Correctness.Glob
import Inspect.Flow.Correctness.SseFiles
import Inspect.Flow.Correctness.SseSegments
import Inspect.Tui.Correctness.SseView

/-!
# `Tui.Correctness.SseReading` — an event stream is read while it is written

The view of an event stream reads a directory that the task of the capture may still be writing, one answer of the file
system after the other. What it finds are the events of the stream in their order, each of them or its start
(`reading_shows_stream`).
-/

namespace Inspect.Tui

open Filters Inspect.Flow Sse

/-! ## Reading a directory that changes -/

/-- A directory in which no event stream was captured. -/
structure NoStream (flowDir : FilePath) (disk : Disk) : Prop where
  marker : disk (flowDir ++ [sseCaptureMarkerFile]) = none
  partialEvent : disk (flowDir ++ [sseCapturePartialFile]) = none
  events : ∀ name, (eventSequence name).isSome = true → disk (flowDir ++ [name]) = none

section Reading

variable (diskAt : Nat → Disk) (flowDir : FilePath) (first last : Nat) (fs : FileSystem)

/-- A file is read at some time from `since` on. -/
def ReadSince (path : FilePath) (since : Nat) : Prop :=
  ∃ time, since ≤ time ∧ time ≤ last ∧ ∀ bytes, diskAt time path = some bytes → fs.read path = .ok bytes

/-- The name of an entry. -/
def entryName : Except Str (Option Str) → Option Str
  | .ok name => name
  | .error _ => none

/-- What is listed of a directory while it changes: files that were there from the start, and none that was never
    there. -/
structure Lists (entries : List (Except Str (Option Str))) : Prop where
  succeeds : ∀ entry ∈ entries, ∃ name, entry = .ok name
  once : (entries.filterMap entryName).Nodup
  there : ∀ name, (diskAt first (flowDir ++ [name])).isSome = true → .ok (some name) ∈ entries
  seen : ∀ name, .ok (some name) ∈ entries → (eventSequence name).isSome = true →
    ∃ time, first ≤ time ∧ (diskAt time (flowDir ++ [name])).isSome = true
      ∧ ReadSince diskAt last fs (flowDir ++ [name]) time

/-- Every answer is right at some time between `first` and `last`, and a file is read after it was seen. -/
structure ReadBetween : Prop where
  tryExists : ∀ name, ∃ time, first ≤ time ∧ time ≤ last
    ∧ fs.tryExists (flowDir ++ [name]) = .ok (diskAt time (flowDir ++ [name])).isSome
    ∧ ((diskAt time (flowDir ++ [name])).isSome = true → ReadSince diskAt last fs (flowDir ++ [name]) time)
  readDir : ∃ entries, fs.readDir flowDir = .ok entries ∧ Lists diskAt flowDir first last fs entries

end Reading

/-! ## What a reading yields -/

/-- The path of an event that an entry stands for. -/
def eventPath (entry : Except Str (Option Str)) : Option (Nat × Str) :=
  (entryName entry).bind fun name => (eventSequence name).map fun sequence => (sequence, name)

theorem eventPaths_eq {entries : List (Except Str (Option Str))} (h : ∀ entry ∈ entries, ∃ name, entry = .ok name) :
    eventPaths entries = .ok (entries.filterMap eventPath) := by
  induction entries with
  | nil => rfl
  | cons entry entries ih =>
      obtain ⟨name, rfl⟩ := h entry List.mem_cons_self
      have hrest := ih fun entry hmem => h entry (List.mem_cons_of_mem _ hmem)
      unfold eventPaths
      rw [List.filterMap_cons, hrest]
      unfold eventPath entryName
      dsimp only [bind, Except.bind]
      cases name.bind fun name => (eventSequence name).map fun sequence => (sequence, name) with
      | none => rfl
      | some found => rfl

theorem mem_eventPaths {entries : List (Except Str (Option Str))} {sequence : Nat} {name : Str} :
    (sequence, name) ∈ entries.filterMap eventPath
      ↔ .ok (some name) ∈ entries ∧ eventSequence name = some sequence := by
  rw [List.mem_filterMap]
  constructor
  · rintro ⟨entry, hmem, hpath⟩
    obtain ⟨found, hfound, hpath⟩ := Option.bind_eq_some_iff.mp hpath
    obtain ⟨sequence', hsequence, heq⟩ := Option.map_eq_some_iff.mp hpath
    cases heq
    cases entry with
    | error err => cases hfound
    | ok name' =>
        cases hfound
        exact ⟨hmem, hsequence⟩
  · rintro ⟨hmem, hsequence⟩
    exact ⟨_, hmem, by simp [eventPath, entryName, hsequence]⟩

/-- Event files that can be read are read. -/
theorem readEvents_ok {fs : FileSystem} {flowDir : FilePath} {paths : List (Nat × Str)}
    (h : ∀ path ∈ paths, ∃ bytes, fs.read (flowDir ++ [path.2]) = .ok bytes) :
    ∃ events, readEvents fs flowDir paths = .ok events := by
  induction paths with
  | nil => exact ⟨[], rfl⟩
  | cons path paths ih =>
      obtain ⟨event, hevent⟩ := h path List.mem_cons_self
      obtain ⟨events, hevents⟩ := ih fun path hmem => h path (List.mem_cons_of_mem _ hmem)
      refine ⟨(path.1, event) :: events, ?_⟩
      show (fs.read (flowDir ++ [path.2]) >>= fun event => _) = _
      rw [hevent]
      show (readEvents fs flowDir paths >>= fun events => _) = _
      rw [hevents]
      rfl

theorem readEvents_numbers {fs : FileSystem} {flowDir : FilePath} {paths : List (Nat × Str)} {events : List (Nat × Bytes)}
    (h : readEvents fs flowDir paths = .ok events) : events.map Prod.fst = paths.map Prod.fst := by
  have hspec := readEvents_spec h
  clear h
  induction hspec with
  | nil => rfl
  | cons hpath _ ih => rw [List.map_cons, List.map_cons, ih, hpath.1]

theorem mem_readEvents {fs : FileSystem} {flowDir : FilePath} {paths : List (Nat × Str)} {events : List (Nat × Bytes)}
    (h : readEvents fs flowDir paths = .ok events) {event : Nat × Bytes} :
    event ∈ events ↔ ∃ path ∈ paths, event.1 = path.1 ∧ fs.read (flowDir ++ [path.2]) = .ok event.2 := by
  have hspec := readEvents_spec h
  clear h
  induction hspec with
  | nil => simp
  | @cons path found paths events hpath _ ih =>
      have hfound : event = found ↔ event.1 = path.1 ∧ fs.read (flowDir ++ [path.2]) = .ok event.2 := by
        constructor
        · rintro rfl
          exact hpath
        · rintro ⟨hnumber, hread⟩
          rw [hpath.2] at hread
          exact Prod.ext (hnumber.trans hpath.1.symm) (Except.ok.inj hread).symm
      simp only [List.mem_cons, exists_eq_or_imp, ih, hfound]

theorem fileName_append {flowDir : FilePath} {bodyName : Str} (h : "response.body".toList <+: bodyName) :
    fileName (flowDir ++ [bodyName]) = some bodyName := by
  unfold fileName
  rw [List.getLast?_concat, Option.filter_some, if_pos]
  rw [decide_eq_true_eq]
  rintro rfl
  exact absurd h (by decide)

section Evaluate

variable {fs : FileSystem} {sortUnstable : Sorting.UnstableSort (Nat × Str) Prod.fst} {flowDir : FilePath}
  {bodyName : Str}

/-- A directory without the marker is not that of an event stream. -/
theorem sseBodyFiles_unmarked (hname : "response.body".toList <+: bodyName)
    (hmarked : fs.tryExists (flowDir ++ [sseCaptureMarkerFile]) = .ok false) :
    sseBodyFiles fs sortUnstable (flowDir ++ [bodyName]) = .ok none := by
  unfold sseBodyFiles
  rw [fileName_append hname]
  dsimp only
  rw [if_pos (List.isPrefixOf_iff_prefix.mpr hname), List.dropLast_concat]
  show (fs.tryExists (flowDir ++ [sseCaptureMarkerFile]) >>= fun marked => _) = _
  rw [hmarked]
  rfl

/-- What is read of a directory that is listed. -/
theorem sseBodyFiles_marked (hname : "response.body".toList <+: bodyName)
    (hmarked : fs.tryExists (flowDir ++ [sseCaptureMarkerFile]) = .ok true)
    {entries : List (Except Str (Option Str))} (hentries : fs.readDir flowDir = .ok entries)
    (hok : ∀ entry ∈ entries, ∃ name, entry = .ok name) {events : List (Nat × Bytes)}
    (hevents : readEvents fs flowDir (sortUnstable.sort (entries.filterMap eventPath)) = .ok events)
    {interrupted : Option Bytes}
    (hinterrupted : fs.tryExists (flowDir ++ [sseCapturePartialFile]) = .ok interrupted.isSome)
    (hlastRead : ∀ bytes ∈ interrupted, fs.read (flowDir ++ [sseCapturePartialFile]) = .ok bytes) :
    sseBodyFiles fs sortUnstable (flowDir ++ [bodyName]) = .ok (some ⟨events, interrupted⟩) := by
  unfold sseBodyFiles
  rw [fileName_append hname]
  dsimp only
  rw [if_pos (List.isPrefixOf_iff_prefix.mpr hname), List.dropLast_concat]
  show (fs.tryExists (flowDir ++ [sseCaptureMarkerFile]) >>= fun marked => _) = _
  rw [hmarked]
  show (fs.readDir flowDir >>= fun entries => _) = _
  rw [hentries]
  show (eventPaths entries >>= fun paths => _) = _
  rw [eventPaths_eq hok]
  show (readEvents fs flowDir _ >>= fun events => _) = _
  rw [hevents]
  show (fs.tryExists (flowDir ++ [sseCapturePartialFile]) >>= fun interrupted => _) = _
  rw [hinterrupted]
  cases interrupted with
  | none => rfl
  | some bytes =>
      show (fs.read (flowDir ++ [sseCapturePartialFile]) >>= fun partialEvent => _) = _
      rw [hlastRead bytes rfl]
      rfl

end Evaluate

/-! ## The names of event files -/

theorem eventSequence_sseEventFile {sequence : Nat} (h : sequence < 2 ^ 64) :
    eventSequence (sseEventFile sequence) = some sequence := by
  unfold eventSequence sseEventFile
  rw [stripPrefix_eq_some_iff.mpr rfl]
  exact Text.parseUnsigned_padStart h 3

theorem eventSequence_marker : eventSequence sseCaptureMarkerFile = none := by decide

theorem eventSequence_remainder : eventSequence sseCapturePartialFile = none := by decide

/-! ## The run -/

section Run

variable {flowDir : FilePath} {disk : Disk} {maxEvents maxEventBytes : Nat} {steps : List SseStep}

/-- The stream at a time. -/
abbrev streamAt (flowDir : FilePath) (disk : Disk) (maxEvents maxEventBytes : Nat) (steps : List SseStep)
    (time : Nat) : SseStream :=
  SseStream.after flowDir disk maxEvents maxEventBytes (steps.take time)

/-- A later time is reached by more steps. -/
theorem streamAt_later {time time' : Nat} (hle : time ≤ time') :
    ∃ more, steps.take time' = steps.take time ++ more := by
  obtain ⟨more, hmore⟩ := @List.take_prefix_take_left _ steps time time' hle
  exact ⟨more, hmore.symm⟩

theorem isSome_later {time time' : Nat} (hle : time ≤ time') {path : FilePath}
    (h : ((streamAt flowDir disk maxEvents maxEventBytes steps time).disk path).isSome = true) :
    ((streamAt flowDir disk maxEvents maxEventBytes steps time').disk path).isSome = true := by
  obtain ⟨more, hmore⟩ := @streamAt_later steps time time' hle
  unfold streamAt
  rw [hmore]
  exact SseStream.disk_mono more h

/-- What is sent later. -/
theorem sent_later {time time' : Nat} (hle : time ≤ time') :
    sentMessages maxEvents maxEventBytes (steps.take time)
      <+: sentMessages maxEvents maxEventBytes (steps.take time') := by
  obtain ⟨more, hmore⟩ := @streamAt_later steps time time' hle
  rw [hmore]
  exact sentMessages_mono maxEvents maxEventBytes _ more

/-- The files of a capture are not in a directory in which no event stream was captured. -/
theorem NoStream.streamFiles (hnew : NoStream flowDir disk) (hmax : maxEvents < 2 ^ 64) (steps : List SseStep) :
    ∀ file ∈ streamFiles (sentMessages maxEvents maxEventBytes steps), disk (flowDir ++ [file.1]) = none := by
  obtain ⟨saved, last, hsent, hlength, hlast⟩ := sentMessages_eq maxEvents maxEventBytes steps
  intro file hmem
  rcases List.mem_cons.mp hmem with rfl | hmem
  · exact hnew.marker
  · obtain ⟨message, hmessage, rfl⟩ := List.mem_map.mp hmem
    rw [hsent, List.mem_append] at hmessage
    rcases hmessage with hevent | hend
    · obtain ⟨i, hi, rfl⟩ := List.mem_mapIdx.mp hevent
      refine hnew.events _ ?_
      show (eventSequence (sseEventFile (i + 1))).isSome = true
      rw [eventSequence_sseEventFile (by omega)]
      rfl
    · rcases hlast with rfl | ⟨bytes, rfl⟩
      · exact absurd hend List.not_mem_nil
      · rw [List.mem_singleton.mp hend]
        exact hnew.partialEvent

/-- The numbers of the events of a run. -/
theorem sequence_lt {sequence : Nat} {bytes : Bytes} (hmax : maxEvents < 2 ^ 64)
    (hmem : .event sequence bytes ∈ sentMessages maxEvents maxEventBytes steps) : sequence < 2 ^ 64 := by
  obtain ⟨saved, last, hsent, hlength, hlast⟩ := sentMessages_eq maxEvents maxEventBytes steps
  rw [hsent, List.mem_append] at hmem
  rcases hmem with hevent | hend
  · obtain ⟨i, hi, heq⟩ := List.mem_mapIdx.mp hevent
    cases heq
    omega
  · rcases hlast with rfl | ⟨bytes, rfl⟩
    · exact absurd hend List.not_mem_nil
    · cases List.mem_singleton.mp hend

variable (hnew : NoStream flowDir disk) (hmax : maxEvents < 2 ^ 64)

include hnew hmax in
/-- The directory while it is read, against all files that are sent until the reading is over. -/
theorem spooled_at {time last : Nat} (hle : time ≤ last) :
    Spooled ((streamFiles (sentMessages maxEvents maxEventBytes (steps.take last))).map (inDir flowDir))
      (streamAt flowDir disk maxEvents maxEventBytes steps time).writer.settled
      (streamAt flowDir disk maxEvents maxEventBytes steps time).writer.isWriting (.failed ∉ steps.take last) disk
      (streamAt flowDir disk maxEvents maxEventBytes steps time).disk := by
  have hspools := SseStream.spools_after (@NoStream.streamFiles flowDir disk maxEvents maxEventBytes hnew hmax (steps.take time))
  have hsent := (SseStream.captured_after flowDir disk maxEvents maxEventBytes (steps.take time)).sent
  have hspooled := hspools.spooled
  rw [hsent] at hspooled
  refine (hspooled.mono ?_).imp ?_
  · unfold streamFiles
    rw [List.map_cons, List.map_cons]
    exact (List.prefix_cons_inj _).mpr (((sent_later hle).map _).map _)
  · intro hno hmem
    exact hno ((List.take_prefix_take_left hle).subset hmem)

include hnew hmax in
/-- A file that is found is one that is sent, or its start. -/
theorem found_at {time last : Nat} (hle : time ≤ last) {name : Str} {bytes : Bytes}
    (hname : disk (flowDir ++ [name]) = none) (hmarker : name ≠ sseCaptureMarkerFile)
    (hbytes : (streamAt flowDir disk maxEvents maxEventBytes steps time).disk (flowDir ++ [name]) = some bytes) :
    ∃ message ∈ sentMessages maxEvents maxEventBytes (steps.take last),
      message.file.1 = name ∧ bytes <+: message.file.2 := by
  obtain ⟨found, hfound, hpath, hstart⟩ := (spooled_at hnew hmax hle).mem_of_held hname hbytes
  obtain ⟨file, hfile, rfl⟩ := List.mem_map.mp hfound
  have heq : file.1 = name := List.singleton_inj.mp (List.append_cancel_left hpath)
  rcases List.mem_cons.mp hfile with rfl | hfile
  · exact absurd heq.symm hmarker
  · obtain ⟨message, hmessage, rfl⟩ := List.mem_map.mp hfile
    exact ⟨message, hmessage, heq, hstart⟩

include hnew hmax in
/-- What is settled is there as a whole from then on. -/
theorem settled_at {first time last : Nat} (hle : first ≤ time) (hle' : time ≤ last)
    (hwhole : .failed ∉ steps.take last) {file : Str × Bytes}
    (hfile : file ∈ (streamFiles (sentMessages maxEvents maxEventBytes (steps.take last))).take
      (streamAt flowDir disk maxEvents maxEventBytes steps first).writer.settled) :
    (streamAt flowDir disk maxEvents maxEventBytes steps time).disk (flowDir ++ [file.1]) = some file.2 := by
  obtain ⟨more, hmore⟩ := @streamAt_later steps first time hle
  have hsettled : (streamAt flowDir disk maxEvents maxEventBytes steps first).writer.settled
      ≤ (streamAt flowDir disk maxEvents maxEventBytes steps time).writer.settled := by
    unfold streamAt
    rw [hmore]
    exact SseStream.settled_mono more
  have hmem := (List.take_prefix_take_left hsettled).subset hfile
  refine (spooled_at hnew hmax hle').complete hwhole (inDir flowDir file) ?_
  rw [← List.map_take]
  exact List.mem_map_of_mem hmem

end Run

/-! ## The view of a stream -/

/-- The remainder among the messages. -/
def remainderOf (messages : List SseCaptureMessage) : Option Bytes :=
  messages.findSome? fun
    | .event _ _ => none
    | .partialBytes bytes => some bytes

/-- Files that are the start of messages, in their order. -/
structure ShowsStart (messages : List SseCaptureMessage) (files : SseBodyFiles) : Prop where
  ordered : files.events.Pairwise fun event event' => event.1 < event'.1
  events : ∀ event ∈ files.events, ∃ bytes, .event event.1 bytes ∈ messages ∧ event.2 <+: bytes
  partialEvent : ∀ found ∈ files.partialEvent, ∃ bytes, .partialBytes bytes ∈ messages ∧ found <+: bytes

/-- A message is shown as a whole. -/
def Shows (files : SseBodyFiles) : SseCaptureMessage → Prop
  | .event sequence bytes => (sequence, bytes) ∈ files.events
  | .partialBytes bytes => files.partialEvent = some bytes

section View

variable {flowDir : FilePath} {disk : Disk} {maxEvents maxEventBytes : Nat} {steps : List SseStep} {first last : Nat}
  {fs : FileSystem} {sortUnstable : Sorting.UnstableSort (Nat × Str) Prod.fst} {bodyName : Str}

/-- The paths of a listing have different numbers. -/
theorem eventPaths_nodup {diskAt : Nat → Disk} {entries : List (Except Str (Option Str))}
    (hlists : Lists diskAt flowDir first last fs entries)
    (hnames : ∀ path ∈ entries.filterMap eventPath, path.2 = sseEventFile path.1) :
    ((entries.filterMap eventPath).map Prod.fst).Nodup := by
  have hsub : ((entries.filterMap eventPath).map Prod.snd).Sublist (entries.filterMap entryName) := by
    clear hlists hnames
    induction entries with
    | nil => exact List.Sublist.refl _
    | cons entry entries ih =>
        rw [List.filterMap_cons, List.filterMap_cons]
        unfold eventPath
        cases entryName entry with
        | none => exact ih
        | some name =>
            dsimp only [Option.bind_some]
            cases eventSequence name with
            | none => exact ih.cons name
            | some sequence => exact ih.cons_cons name
  have hsnd := hsub.nodup hlists.once
  have heq : (entries.filterMap eventPath).map Prod.snd
      = ((entries.filterMap eventPath).map Prod.fst).map sseEventFile := by
    rw [List.map_map]
    exact List.map_congr_left hnames
  rw [heq] at hsnd
  exact hsnd.of_map

variable (hnew : NoStream flowDir disk) (hmax : maxEvents < 2 ^ 64)
  (hread : ReadBetween (fun time => (streamAt flowDir disk maxEvents maxEventBytes steps time).disk) flowDir first last
    fs)

include hnew hmax in
/-- A file of an event's name that is read is the start of an event. -/
theorem event_read {since : Nat} {name : Str} {sequence : Nat} (hsequence : eventSequence name = some sequence)
    (hseen : ((streamAt flowDir disk maxEvents maxEventBytes steps since).disk (flowDir ++ [name])).isSome = true)
    (hsince : ReadSince (fun time => (streamAt flowDir disk maxEvents maxEventBytes steps time).disk) last fs
      (flowDir ++ [name]) since) :
    ∃ found bytes, fs.read (flowDir ++ [name]) = .ok found
      ∧ .event sequence bytes ∈ sentMessages maxEvents maxEventBytes (steps.take last) ∧ name = sseEventFile sequence
      ∧ found <+: bytes
      ∧ ∀ whole, (∀ time, since ≤ time → time ≤ last →
          (streamAt flowDir disk maxEvents maxEventBytes steps time).disk (flowDir ++ [name]) = some whole) →
          found = whole := by
  obtain ⟨time, hle, hlast, hanswer⟩ := hsince
  obtain ⟨found, hfound⟩ := Option.isSome_iff_exists.mp (isSome_later hle hseen)
  have hmarker : name ≠ sseCaptureMarkerFile := by
    rintro rfl
    rw [eventSequence_marker] at hsequence
    cases hsequence
  obtain ⟨message, hmessage, hname, hstart⟩ := found_at hnew hmax hlast
    (hnew.events name (by rw [hsequence]; rfl)) hmarker hfound
  cases message with
  | event sequence' bytes =>
      obtain rfl : sseEventFile sequence' = name := hname
      rw [eventSequence_sseEventFile (sequence_lt hmax hmessage)] at hsequence
      cases hsequence
      refine ⟨found, bytes, hanswer found hfound, hmessage, rfl, hstart, fun whole hthere => ?_⟩
      exact Option.some.inj (hfound.symm.trans (hthere time hle hlast))
  | partialBytes bytes =>
      obtain rfl : sseCapturePartialFile = name := hname
      rw [eventSequence_remainder] at hsequence
      cases hsequence

include hnew hmax hread in
/-- What is found of the remainder. -/
theorem remainder_read :
    ∃ interrupted : Option Bytes, fs.tryExists (flowDir ++ [sseCapturePartialFile]) = .ok interrupted.isSome
      ∧ (∀ bytes ∈ interrupted, fs.read (flowDir ++ [sseCapturePartialFile]) = .ok bytes
          ∧ ∃ whole, .partialBytes whole ∈ sentMessages maxEvents maxEventBytes (steps.take last) ∧ bytes <+: whole)
      ∧ ∀ whole, (∀ time, first ≤ time → time ≤ last →
          (streamAt flowDir disk maxEvents maxEventBytes steps time).disk (flowDir ++ [sseCapturePartialFile])
            = some whole) → interrupted = some whole := by
  obtain ⟨time, hfirst, hlast, hexists, hsince⟩ := hread.tryExists sseCapturePartialFile
  cases hseen : ((streamAt flowDir disk maxEvents maxEventBytes steps time).disk
      (flowDir ++ [sseCapturePartialFile])).isSome with
  | false =>
      rw [hseen] at hexists
      refine ⟨none, hexists, fun bytes hmem => absurd hmem (Option.not_mem_none bytes), fun whole hthere => ?_⟩
      rw [hthere time hfirst hlast] at hseen
      cases hseen
  | true =>
      obtain ⟨time', hle, hlast', hanswer⟩ := hsince hseen
      obtain ⟨found, hfound⟩ := Option.isSome_iff_exists.mp (isSome_later hle hseen)
      rw [hseen] at hexists
      refine ⟨some found, hexists, ?_, fun whole hthere => ?_⟩
      · rintro bytes ⟨⟩
        obtain ⟨message, hmessage, hname, hstart⟩ := found_at hnew hmax hlast' hnew.partialEvent (by decide) hfound
        refine ⟨hanswer found hfound, ?_⟩
        cases message with
        | event sequence bytes => exact absurd hname (sseEventFile_ne_remainder sequence)
        | partialBytes whole => exact ⟨whole, hmessage, hstart⟩
      · rw [← hfound]
        exact hthere time' (hfirst.trans hle) hlast'

include hnew hmax hread in
/-- What is found of the events. -/
theorem events_read :
    ∃ entries events, fs.readDir flowDir = .ok entries ∧ (∀ entry ∈ entries, ∃ name, entry = .ok name)
      ∧ readEvents fs flowDir (sortUnstable.sort (entries.filterMap eventPath)) = .ok events
      ∧ events.Pairwise (fun event event' => event.1 < event'.1)
      ∧ (∀ event ∈ events, ∃ bytes, .event event.1 bytes ∈ sentMessages maxEvents maxEventBytes (steps.take last)
          ∧ event.2 <+: bytes)
      ∧ ∀ sequence bytes, sequence < 2 ^ 64 → (∀ time, first ≤ time → time ≤ last →
          (streamAt flowDir disk maxEvents maxEventBytes steps time).disk (flowDir ++ [sseEventFile sequence])
            = some bytes) → (sequence, bytes) ∈ events := by
  obtain ⟨entries, hentries, hlists⟩ := hread.readDir
  have hpaths : ∀ path ∈ entries.filterMap eventPath, ∃ found bytes, fs.read (flowDir ++ [path.2]) = .ok found
      ∧ .event path.1 bytes ∈ sentMessages maxEvents maxEventBytes (steps.take last) ∧ path.2 = sseEventFile path.1
      ∧ found <+: bytes
      ∧ ∀ whole, (∀ time, first ≤ time → time ≤ last →
          (streamAt flowDir disk maxEvents maxEventBytes steps time).disk (flowDir ++ [path.2]) = some whole) →
          found = whole := by
    intro path hmem
    obtain ⟨hlisted, hsequence⟩ := mem_eventPaths.mp hmem
    obtain ⟨since, hfirst, hseen, hsince⟩ := hlists.seen path.2 hlisted (by rw [hsequence]; rfl)
    obtain ⟨found, bytes, hfound, hmessage, hname, hstart, hwhole⟩ := event_read hnew hmax hsequence hseen hsince
    exact ⟨found, bytes, hfound, hmessage, hname, hstart,
      fun whole hthere => hwhole whole fun time hle => hthere time (hfirst.trans hle)⟩
  have hperm := sortUnstable.perm (entries.filterMap eventPath)
  obtain ⟨events, hevents⟩ := readEvents_ok fun path hmem =>
    let ⟨found, _, hfound, _⟩ := hpaths path (hperm.subset hmem)
    ⟨found, hfound⟩
  refine ⟨entries, events, hentries, hlists.succeeds, hevents, ?_, ?_, ?_⟩
  · rw [← @List.pairwise_map _ _ Prod.fst (· < ·), readEvents_numbers hevents]
    have hnodup := eventPaths_nodup hlists fun path hmem => (hpaths path hmem).choose_spec.choose_spec.2.2.1
    have hdistinct := (hperm.map Prod.fst).nodup_iff.mpr hnodup
    have hsorted := List.pairwise_map.mpr (sortUnstable.sorted (entries.filterMap eventPath))
    exact (hsorted.and hdistinct).imp fun h => lt_of_le_of_ne h.1 h.2
  · intro event hmem
    obtain ⟨path, hpath, hnumber, hfound⟩ := (mem_readEvents hevents).mp hmem
    obtain ⟨found, bytes, hfound', hmessage, -, hstart, -⟩ := hpaths path (hperm.subset hpath)
    rw [hfound'] at hfound
    cases hfound
    exact ⟨bytes, hnumber ▸ hmessage, hstart⟩
  · intro sequence bytes hlt hthere
    have hnumber := eventSequence_sseEventFile hlt
    have hlast : first ≤ last := by
      obtain ⟨time, hfirst, hlast, -⟩ := hread.tryExists sseCaptureMarkerFile
      exact hfirst.trans hlast
    have hlisted := hlists.there (sseEventFile sequence) (by rw [hthere first le_rfl hlast]; rfl)
    have hpath := mem_eventPaths.mpr ⟨hlisted, hnumber⟩
    obtain ⟨found, -, hfound, -, -, -, hwhole⟩ := hpaths _ hpath
    rw [hwhole bytes hthere] at hfound
    exact (mem_readEvents hevents).mpr ⟨_, hperm.symm.subset hpath, rfl, hfound⟩

include hnew hmax hread in
/-- **What a reading finds**: the start of the messages, and what was settled when it began as a whole. -/
theorem reading_found (hbody : "response.body".toList <+: bodyName) :
    ∃ found, sseBodyFiles fs sortUnstable (flowDir ++ [bodyName]) = .ok found
      ∧ (found = none → (streamAt flowDir disk maxEvents maxEventBytes steps first).disk
          (flowDir ++ [sseCaptureMarkerFile]) = none)
      ∧ ∀ files ∈ found, ShowsStart (sentMessages maxEvents maxEventBytes (steps.take last)) files
        ∧ (.failed ∉ steps.take last →
            ∀ message ∈ (sentMessages maxEvents maxEventBytes (steps.take last)).take
              ((streamAt flowDir disk maxEvents maxEventBytes steps first).writer.settled - 1), Shows files message) := by
  obtain ⟨time, hfirst, -, hmarked, -⟩ := hread.tryExists sseCaptureMarkerFile
  cases hseen : ((streamAt flowDir disk maxEvents maxEventBytes steps time).disk
      (flowDir ++ [sseCaptureMarkerFile])).isSome with
  | false =>
      rw [hseen] at hmarked
      refine ⟨none, sseBodyFiles_unmarked hbody hmarked, fun _ => ?_, fun files hmem => absurd hmem (Option.not_mem_none _)⟩
      rw [← Option.not_isSome_iff_eq_none]
      intro hthere
      rw [isSome_later hfirst hthere] at hseen
      cases hseen
  | true =>
      rw [hseen] at hmarked
      obtain ⟨entries, events, hentries, hok, hevents, hordered, hstarts, hwhole⟩ :=
        @events_read flowDir disk maxEvents maxEventBytes steps first last fs sortUnstable hnew hmax hread
      obtain ⟨interrupted, hinterrupted, hlastRead, hremainder⟩ := remainder_read hnew hmax hread
      refine ⟨some ⟨events, interrupted⟩, sseBodyFiles_marked hbody hmarked hentries hok hevents hinterrupted
        fun bytes hmem => (hlastRead bytes hmem).1, fun hnone => (nomatch hnone), ?_⟩
      rintro files ⟨⟩
      refine ⟨⟨hordered, hstarts, fun found hfound => (hlastRead found hfound).2⟩, ?_⟩
      intro hno message hmessage
      have hfile : message.file ∈ (streamFiles (sentMessages maxEvents maxEventBytes (steps.take last))).take
          (streamAt flowDir disk maxEvents maxEventBytes steps first).writer.settled := by
        generalize (streamAt flowDir disk maxEvents maxEventBytes steps first).writer.settled = settled at hmessage ⊢
        cases settled with
        | zero => exact absurd hmessage List.not_mem_nil
        | succ settled =>
            unfold streamFiles
            rw [List.take_succ_cons, ← List.map_take]
            exact List.mem_cons_of_mem _ (List.mem_map_of_mem hmessage)
      cases message with
      | event sequence bytes =>
          exact hwhole sequence bytes (sequence_lt hmax (List.mem_of_mem_take hmessage))
            fun time hle hle' => settled_at hnew hmax hle hle' hno hfile
      | partialBytes bytes => exact hremainder bytes fun time hle hle' => settled_at hnew hmax hle hle' hno hfile

/-- Files that show messages and nothing else are the events and the remainder. -/
theorem files_eq {files : SseBodyFiles}
    (hstart : ShowsStart (sentMessages maxEvents maxEventBytes steps) files)
    (hshows : ∀ message ∈ sentMessages maxEvents maxEventBytes steps, Shows files message) :
    files = ⟨eventsOf (sentMessages maxEvents maxEventBytes steps),
      remainderOf (sentMessages maxEvents maxEventBytes steps)⟩ := by
  obtain ⟨saved, last, hsent, -, hlast⟩ := sentMessages_eq maxEvents maxEventBytes steps
  rw [hsent] at hstart hshows ⊢
  have heventsOf : eventsOf (eventMessages saved ++ last) = saved.mapIdx fun i bytes => (i + 1, bytes) := by
    rw [eventsOf_append, eventsOf_eventMessages]
    rcases hlast with rfl | ⟨bytes, rfl⟩
    · exact List.append_nil _
    · exact List.append_nil _
  have hremainderOf : remainderOf (eventMessages saved ++ last) = remainderOf last := by
    have hnone : remainderOf (eventMessages saved) = none := by
      unfold remainderOf
      rw [List.findSome?_eq_none_iff]
      intro message hmem
      obtain ⟨i, hi, rfl⟩ := List.mem_mapIdx.mp hmem
      rfl
    unfold remainderOf at hnone ⊢
    rw [List.findSome?_append, hnone, Option.none_or]
  have hordered : (saved.mapIdx fun i bytes => (i + 1, bytes)).Pairwise fun event event' => event.1 < event'.1 := by
    rw [← @List.pairwise_map _ _ Prod.fst (· < ·), ← eventsOf_eventMessages, eventsOf_sequence]
    exact List.pairwise_lt_range'
  have hmem : ∀ event : Nat × Bytes, event ∈ files.events ↔ event ∈ saved.mapIdx fun i bytes => (i + 1, bytes) := by
    intro event
    constructor
    · intro hevent
      obtain ⟨bytes, hmessage, -⟩ := hstart.events event hevent
      have hin : (event.1, bytes) ∈ saved.mapIdx fun i bytes => (i + 1, bytes) := by
        rw [← heventsOf]
        exact List.mem_filterMap.mpr ⟨_, hmessage, rfl⟩
      -- the number of an event is there once
      have hshown := hshows _ hmessage
      obtain ⟨i, hi, hget⟩ := List.getElem_of_mem hevent
      obtain ⟨j, hj, hget'⟩ := List.getElem_of_mem hshown
      have hij : i = j := by
        rcases Nat.lt_trichotomy i j with hlt | heq | hlt
        · have habs := List.pairwise_iff_getElem.mp hstart.ordered i j hi hj hlt
          rw [hget, hget'] at habs
          exact absurd habs (Nat.lt_irrefl _)
        · exact heq
        · have habs := List.pairwise_iff_getElem.mp hstart.ordered j i hj hi hlt
          rw [hget, hget'] at habs
          exact absurd habs (Nat.lt_irrefl _)
      subst hij
      rw [hget] at hget'
      rw [hget']
      exact hin
    · intro hevent
      obtain ⟨i, hi, rfl⟩ := List.mem_mapIdx.mp hevent
      exact hshows (.event (i + 1) saved[i]) (List.mem_append_left _ (List.mem_mapIdx.mpr ⟨i, hi, rfl⟩))
  have hevents : files.events = saved.mapIdx fun i bytes => (i + 1, bytes) := by
    apply List.Perm.eq_of_pairwise _ hstart.ordered hordered
    · rw [List.perm_ext_iff_of_nodup]
      · exact hmem
      · exact hstart.ordered.imp fun hlt heq => absurd (congrArg Prod.fst heq) (Nat.ne_of_lt hlt)
      · exact hordered.imp fun hlt heq => absurd (congrArg Prod.fst heq) (Nat.ne_of_lt hlt)
    · intro event event' _ _ hlt hlt'
      exact absurd hlt (Nat.lt_asymm hlt')
  have hremainder : files.partialEvent = remainderOf last := by
    rcases hlast with rfl | ⟨bytes, rfl⟩
    · cases hfound : files.partialEvent with
      | none => rfl
      | some found =>
          obtain ⟨bytes, hmessage, -⟩ := hstart.partialEvent found hfound
          rw [List.append_nil] at hmessage
          obtain ⟨i, hi, heq⟩ := List.mem_mapIdx.mp hmessage
          cases heq
    · exact hshows (.partialBytes bytes) (List.mem_append_right _ List.mem_cons_self)
  rw [heventsOf, hremainderOf, ← hevents, ← hremainder]

include hnew hmax hread in
/-- Once every file is settled, the reading is the stream. -/
theorem reading_settled (hbody : "response.body".toList <+: bodyName) (hno : .failed ∉ steps.take last)
    (hall : (sentMessages maxEvents maxEventBytes (steps.take last)).length
      < (streamAt flowDir disk maxEvents maxEventBytes steps first).writer.settled) :
    sseBodyFiles fs sortUnstable (flowDir ++ [bodyName])
      = .ok (some ⟨eventsOf (sentMessages maxEvents maxEventBytes (steps.take last)),
        remainderOf (sentMessages maxEvents maxEventBytes (steps.take last))⟩) := by
  obtain ⟨found, hreading, hnone, hfound⟩ :=
    @reading_found flowDir disk maxEvents maxEventBytes steps first last fs sortUnstable bodyName hnew hmax hread hbody
  cases found with
  | none =>
      have hmarker : sseCaptureMarker ∈ (streamFiles (sentMessages maxEvents maxEventBytes (steps.take last))).take
          (streamAt flowDir disk maxEvents maxEventBytes steps first).writer.settled := by
        cases hsettled : (streamAt flowDir disk maxEvents maxEventBytes steps first).writer.settled with
        | zero =>
            rw [hsettled] at hall
            exact absurd hall (Nat.not_lt_zero _)
        | succ settled => exact List.mem_cons_self
      obtain ⟨time, hfirst, hlast, -⟩ := hread.tryExists sseCaptureMarkerFile
      have hthere : (streamAt flowDir disk maxEvents maxEventBytes steps first).disk (flowDir ++ [sseCaptureMarkerFile])
          = some _ := settled_at hnew hmax le_rfl (hfirst.trans hlast) hno hmarker
      exact absurd (hthere.symm.trans (hnone rfl)) (Option.some_ne_none _)
  | some files =>
      obtain ⟨hstart, hshows⟩ := hfound files rfl
      have hwhole := hshows hno
      rw [List.take_of_length_le (Nat.le_sub_one_of_lt hall)] at hwhole
      rw [← files_eq hstart hwhole]
      exact hreading

include hnew hmax hread in
/-- The text that is shown then; no encoding that the headers name is undone. -/
theorem readBodyFile_settled {N : Type} (engines : Base64Engines) (codecs : Codecs) (serde : SerdeJson N)
    (headers : Json N) (hbody : "response.body".toList <+: bodyName) (hno : .failed ∉ steps.take last)
    (hall : (sentMessages maxEvents maxEventBytes (steps.take last)).length
      < (streamAt flowDir disk maxEvents maxEventBytes steps first).writer.settled) :
    readBodyFile engines fs sortUnstable codecs serde (some (flowDir ++ [bodyName])) headers
      = sseBodyText engines ⟨eventsOf (sentMessages maxEvents maxEventBytes (steps.take last)),
        remainderOf (sentMessages maxEvents maxEventBytes (steps.take last))⟩ := by
  unfold readBodyFile readSseBodyFiles
  dsimp only
  rw [reading_settled hnew hmax hread hbody hno hall]
  rfl

end View

/-- **An event stream can be viewed while it is captured.** Whatever the order of the steps of the capture, the task and
    the reading, and whatever writes fail, what is shown are events of the stream in their order, each of them or its
    start. If no write failed, a message whose file was settled when the reading began is shown as a whole, and if all
    were, the view is the stream. -/
theorem reading_shows_stream (flowDir : FilePath) (disk : Disk) (maxEvents maxEventBytes : Nat) (steps : List SseStep)
    (first last : Nat) (fs : FileSystem) (sortUnstable : Sorting.UnstableSort (Nat × Str) Prod.fst) (bodyName : Str)
    (hnew : NoStream flowDir disk) (hmax : maxEvents < 2 ^ 64)
    (hread : ReadBetween (fun time => (streamAt flowDir disk maxEvents maxEventBytes steps time).disk) flowDir first
      last fs) (hbody : "response.body".toList <+: bodyName) :
    let messages := sentMessages maxEvents maxEventBytes (steps.take last)
    let streamAt := streamAt flowDir disk maxEvents maxEventBytes steps
    let reading := sseBodyFiles fs sortUnstable (flowDir ++ [bodyName])
    (streamAt last).capture.sent = messages
    ∧ (∃ found, reading = .ok found ∧ (found = none → (streamAt first).disk (flowDir ++ [sseCaptureMarkerFile]) = none)
      ∧ ∀ files ∈ found, ShowsStart messages files
        ∧ (.failed ∉ steps.take last →
            ∀ message ∈ messages.take ((streamAt first).writer.settled - 1), Shows files message))
    ∧ (.failed ∉ steps.take last → messages.length < (streamAt first).writer.settled →
        reading = .ok (some ⟨eventsOf messages, remainderOf messages⟩)) := by
  intro messages streamAt reading
  exact ⟨(SseStream.captured_after flowDir disk maxEvents maxEventBytes (steps.take last)).sent,
    reading_found hnew hmax hread hbody, fun hno hall => reading_settled hnew hmax hread hbody hno hall⟩

/-! ## A reading between two writes -/

/-- A file system that changes while it is read: the directory is listed at one time, and each file is looked up and
    read at a time of its own. -/
def FileSystem.during (diskAt : Nat → Disk) (names : List Str) (readAt : FilePath → Nat) : FileSystem where
  tryExists path := .ok (diskAt (readAt path) path).isSome
  readDir _ := .ok (names.map fun name => .ok (some name))
  read path :=
    match diskAt (readAt path) path with
    | some bytes => .ok bytes
    | none => .error "No such file or directory (os error 2)".toList

theorem FileSystem.during_congr {diskAt diskAt' : Nat → Disk} {readAt : FilePath → Nat}
    (h : ∀ path, diskAt (readAt path) = diskAt' (readAt path)) (names : List Str) :
    FileSystem.during diskAt names readAt = .during diskAt' names readAt := by
  unfold FileSystem.during
  simp only [h]

theorem FileSystem.during_reads {diskAt : Nat → Disk} {flowDir : FilePath} {first last : Nat} {names : List Str}
    {readAt : FilePath → Nat} (hbetween : ∀ path, first ≤ readAt path ∧ readAt path ≤ last) (honce : names.Nodup)
    (hnames : ∀ name, name ∈ names ↔ (diskAt first (flowDir ++ [name])).isSome = true) :
    ReadBetween diskAt flowDir first last (.during diskAt names readAt) := by
  have hread : ∀ path bytes, diskAt (readAt path) path = some bytes →
      (FileSystem.during diskAt names readAt).read path = .ok bytes := by
    intro path bytes hbytes
    show (match diskAt (readAt path) path with
      | some bytes => Except.ok bytes
      | none => .error _) = _
    rw [hbytes]
  have hentryNames : (names.map fun name => Except.ok (some name)).filterMap entryName = names := by
    rw [List.filterMap_map]
    exact List.filterMap_some
  constructor
  · intro name
    obtain ⟨hfirst, hlast⟩ := hbetween (flowDir ++ [name])
    exact ⟨_, hfirst, hlast, rfl, fun _ => ⟨_, le_rfl, hlast, hread _⟩⟩
  · refine ⟨_, rfl, ?_, ?_, ?_, ?_⟩
    · intro entry hmem
      obtain ⟨name, -, rfl⟩ := List.mem_map.mp hmem
      exact ⟨some name, rfl⟩
    · rw [hentryNames]
      exact honce
    · intro name hthere
      exact List.mem_map.mpr ⟨name, (hnames name).mpr hthere, rfl⟩
    · intro name hmem _
      obtain ⟨name', hmem', heq⟩ := List.mem_map.mp hmem
      cases heq
      obtain ⟨hfirst, hlast⟩ := hbetween (flowDir ++ [name])
      exact ⟨first, le_rfl, (hnames name).mp hmem', _, hfirst, hlast, hread _⟩

/-- Two events pass and a remainder, each of them written in two pieces. -/
def tornSteps : List SseStep :=
  [.push [97, 10, 10, 98], .written, .receive, .written, .push [10, 10, 99, 100], .receive, .put 1, .written, .finish,
    .receive, .put 1, .written]

/-- What has been sent after the first push, after the second one, and at the end. -/
theorem tornSteps_sent :
    let capture := (SseCapture.start 4 8).push [97, 10, 10, 98]
    let capture' := capture.push [10, 10, 99, 100]
    capture.sent = [.event 1 [97, 10, 10]]
    ∧ capture'.sent = [.event 1 [97, 10, 10], .event 2 [98, 10, 10]]
    ∧ capture'.finish.sent
      = [.event 1 [97, 10, 10], .event 2 [98, 10, 10], .partialBytes (truncateEvent [99, 100] 8)] := by
  intro capture capture'
  have hfirst : segment [97, 10, 10, 98] = ([[97, 10, 10]], [98]) := by
    rw [@segment_of_some [97, 10, 10, 98] 3 (by decide), @segment_of_none _ (by decide)]
    rfl
  have hboth : segment [97, 10, 10, 98, 10, 10, 99, 100] = ([[97, 10, 10], [98, 10, 10]], [99, 100]) := by
    rw [@segment_of_some [97, 10, 10, 98, 10, 10, 99, 100] 3 (by decide), @segment_of_some _ 3 (by decide),
      @segment_of_none _ (by decide)]
    rfl
  have hsent := fun steps => (SseStream.captured_after [] (fun _ => none) 4 8 steps).sent
  refine ⟨(hsent [.push [97, 10, 10, 98]]).trans ?_,
    (hsent [.push [97, 10, 10, 98], .push [10, 10, 99, 100]]).trans ?_,
    (hsent [.push [97, 10, 10, 98], .push [10, 10, 99, 100], .finish]).trans ?_⟩
  · simp [sentMessages, passed, eventMessagesOf, eventMessages, records, hfirst, clip]
  · simp [sentMessages, passed, eventMessagesOf, eventMessages, records, hboth, clip]
  · simp [sentMessages, passed, streamMessages, partialMessages, eventMessages, records, hboth, clip]

/-- The directory while the second event is written. -/
def tornDisk : Disk :=
  ((Disk.write (fun _ => none) ([sseCaptureMarkerFile], sseCaptureMarker.2)).write
    ([sseEventFile 1], [97, 10, 10])).write ([sseEventFile 2], [98])

/-- The directory while the remainder is written. -/
def tornDisk' : Disk := (tornDisk.write ([sseEventFile 2], [98, 10, 10])).write ([sseCapturePartialFile], [99])

theorem tornSteps_at :
    let streamAt := streamAt [] (fun _ => none) 4 8 tornSteps
    (streamAt 7).writer.settled = 2 ∧ (streamAt 7).disk = tornDisk ∧ (streamAt 11).disk = tornDisk'
    ∧ (streamAt 12).writer.settled = 4
    ∧ (streamAt 12).disk = tornDisk'.write ([sseCapturePartialFile], truncateEvent [99, 100] 8) := by
  obtain ⟨hsent, hsent', hsent''⟩ := tornSteps_sent
  have hpiece : (truncateEvent [99, 100] 8).take 1 = [99] := rfl
  refine ⟨?_, ?_, ?_, ?_, ?_⟩ <;>
    simp [tornSteps, tornDisk, tornDisk', SseStream.runFrom, SseStream.step, SseStream.start, SseWriter.file,
      SseWriter.next, SseWriter.settled, hsent, hsent', hsent'', hpiece, SseCaptureMessage.file, sseCaptureMarker]

/-- What is sent until the reading is over. -/
theorem tornSteps_messages :
    sentMessages 4 8 (tornSteps.take 11)
      = [.event 1 [97, 10, 10], .event 2 [98, 10, 10], .partialBytes (truncateEvent [99, 100] 8)]
    ∧ sentMessages 4 8 (tornSteps.take 12)
      = [.event 1 [97, 10, 10], .event 2 [98, 10, 10], .partialBytes (truncateEvent [99, 100] 8)] := by
  have hsent := (SseStream.captured_after [] (fun _ => none) 4 8
    [.push [97, 10, 10, 98], .push [10, 10, 99, 100], .finish]).sent.symm.trans tornSteps_sent.2.2
  exact ⟨hsent, hsent⟩

/-- A reading that begins while the second event is written and ends while the remainder is, and one behind all
    writes. -/
theorem reading_shows_stream_torn :
    let diskAt time := (streamAt [] (fun _ => none) 4 8 tornSteps time).disk
    let torn := FileSystem.during diskAt [sseEventFile 2, sseCaptureMarkerFile, sseEventFile 1]
      fun path => if path = [sseEventFile 2] then 7 else 11
    let whole := FileSystem.during diskAt [sseCapturePartialFile, sseEventFile 2, sseCaptureMarkerFile, sseEventFile 1]
      fun _ => 12
    let files : SseBodyFiles := ⟨[(1, [97, 10, 10]), (2, [98])], some [99]⟩
    sseBodyFiles torn (.stable _ _) ["response.body".toList] = .ok (some files)
    ∧ ShowsStart [.event 1 [97, 10, 10], .event 2 [98, 10, 10], .partialBytes (truncateEvent [99, 100] 8)] files
    ∧ Shows files (.event 1 [97, 10, 10])
    ∧ sseBodyFiles whole (.stable _ _) ["response.body".toList]
      = .ok (some ⟨[(1, [97, 10, 10]), (2, [98, 10, 10])], some (truncateEvent [99, 100] 8)⟩) := by
  intro diskAt torn whole files
  obtain ⟨hsettled, hseventh, heleventh, hsettled', hlast⟩ := tornSteps_at
  obtain ⟨hmessages, hmessages'⟩ := tornSteps_messages
  have hnew : NoStream [] fun _ => none := ⟨rfl, rfl, fun _ _ => rfl⟩
  have htorn : ReadBetween diskAt [] 7 11 torn := by
    refine FileSystem.during_reads ?_ (by decide) fun name => ?_
    · intro path
      split
      · decide
      · decide
    · show _ ↔ ((streamAt [] (fun _ => none) 4 8 tornSteps 7).disk _).isSome = true
      rw [hseventh]
      simp only [tornDisk, Disk.write, List.nil_append, List.mem_cons, List.not_mem_nil, or_false, List.cons.injEq,
        and_true]
      split_ifs <;> simp_all
  have hwhole : ReadBetween diskAt [] 12 12 whole := by
    refine FileSystem.during_reads (fun _ => ⟨le_rfl, le_rfl⟩) (by decide) fun name => ?_
    show _ ↔ ((streamAt [] (fun _ => none) 4 8 tornSteps 12).disk _).isSome = true
    rw [hlast]
    simp only [tornDisk, tornDisk', Disk.write, List.nil_append, List.mem_cons, List.not_mem_nil, or_false,
      List.cons.injEq, and_true]
    split_ifs <;> simp_all
  have hreading : sseBodyFiles torn (.stable _ _) ["response.body".toList] = .ok (some files) := by
    have hdisks : torn = .during (fun time => if time = 7 then tornDisk else tornDisk')
        [sseEventFile 2, sseCaptureMarkerFile, sseEventFile 1]
        fun path => if path = [sseEventFile 2] then 7 else 11 := by
      refine FileSystem.during_congr (fun path => ?_) _
      split
      · exact hseventh
      · exact heleventh
    rw [hdisks]
    rfl
  obtain ⟨-, ⟨found, hfound, -, hshows⟩, -⟩ := reading_shows_stream [] (fun _ => none) 4 8 tornSteps 7 11 torn
    (.stable _ _) "response.body".toList hnew (by decide) htorn List.prefix_rfl
  obtain rfl : found = some files := Except.ok.inj (hfound.symm.trans hreading)
  obtain ⟨hstart, hsettledShown⟩ := hshows files rfl
  have hview := (reading_shows_stream [] (fun _ => none) 4 8 tornSteps 12 12 whole (.stable _ _)
    "response.body".toList hnew (by decide) hwhole List.prefix_rfl).2.2 (by decide)
  rw [hmessages] at hstart hsettledShown
  rw [hsettled] at hsettledShown
  rw [hmessages', hsettled'] at hview
  exact ⟨hreading, hstart, hsettledShown (by decide) _ List.mem_cons_self, hview (by decide)⟩

end Inspect.Tui
