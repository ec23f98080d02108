import Inspect.Flow.Correctness.SseFraming
import Inspect.Flow.SseWriter
import Inspect.Lib.Fields
import Inspect.Lib.Spool

/-!
# `Flow.Correctness.SseFiles` — the files of a stream that passes

The capture and the task that writes its files run side by side. At any time the directory holds the start of what the
messages of the stream are, one file for each that the task has received, and nothing else of it has changed
(`spooled_runFrom`).
-/

namespace Inspect.Sse

open Filters Inspect.Flow

/-! ## The messages of a run -/

/-- What has passed before the end. -/
def passed : List SseStep → Bytes
  | [] => []
  | .push bytes :: steps => bytes ++ passed steps
  | .finish :: _ => []
  | _ :: steps => passed steps

theorem passed_append (steps more : List SseStep) :
    passed (steps ++ more) = if .finish ∈ steps then passed steps else passed steps ++ passed more := by
  induction steps with
  | nil => simp [passed]
  | cons next steps ih =>
      cases next with
      | push bytes =>
          simp only [List.cons_append, passed, ih, List.mem_cons, reduceCtorEq, false_or]
          split_ifs
          · rfl
          · exact (List.append_assoc ..).symm
      | finish => simp [passed]
      | receive => simpa [passed] using ih
      | put len => simpa [passed] using ih
      | written => simpa [passed] using ih
      | failed => simpa [passed] using ih

/-- The messages of the events of a stream that may go on. -/
def eventMessagesOf (maxEvents maxEventBytes : Nat) (stream : Bytes) : List SseCaptureMessage :=
  if maxEventBytes = 0 then [] else eventMessages ((records maxEventBytes stream).take maxEvents)

/-- What is sent in a run: the remainder is sent at its end only. -/
def sentMessages (maxEvents maxEventBytes : Nat) (steps : List SseStep) : List SseCaptureMessage :=
  if .finish ∈ steps then streamMessages maxEvents maxEventBytes (passed steps)
  else eventMessagesOf maxEvents maxEventBytes (passed steps)

theorem streamMessages_eq (maxEvents maxEventBytes : Nat) (stream : Bytes) :
    ∃ last, streamMessages maxEvents maxEventBytes stream = eventMessagesOf maxEvents maxEventBytes stream ++ last
      ∧ (last = [] ∨ ∃ bytes, last = [.partialBytes bytes]) := by
  unfold streamMessages eventMessagesOf
  split_ifs
  · exact ⟨[], rfl, .inl rfl⟩
  · refine ⟨_, rfl, ?_⟩
    unfold partialMessages
    split_ifs
    · exact .inr ⟨_, rfl⟩
    · exact .inl rfl

theorem eventMessages_mono {saved saved' : List (List UInt8)} (h : saved <+: saved') :
    eventMessages saved <+: eventMessages saved' := by
  obtain ⟨more, rfl⟩ := h
  unfold eventMessages
  rw [List.mapIdx_append]
  exact List.prefix_append _ _

/-- A stream that goes on sends more. -/
theorem eventMessagesOf_mono (maxEvents maxEventBytes : Nat) (stream more : Bytes) :
    eventMessagesOf maxEvents maxEventBytes stream <+: eventMessagesOf maxEvents maxEventBytes (stream ++ more) := by
  unfold eventMessagesOf
  split_ifs
  · exact List.prefix_rfl
  · obtain ⟨further, hfurther⟩ := records_prefix maxEventBytes stream more
    rw [hfurther]
    exact eventMessages_mono (List.IsPrefix.take (List.prefix_append _ _) maxEvents)

/-- **What was sent stays sent.** -/
theorem sentMessages_mono (maxEvents maxEventBytes : Nat) (steps more : List SseStep) :
    sentMessages maxEvents maxEventBytes steps <+: sentMessages maxEvents maxEventBytes (steps ++ more) := by
  unfold sentMessages
  rw [passed_append]
  by_cases hend : SseStep.finish ∈ steps
  · rw [if_pos hend, if_pos (List.mem_append_left _ hend), if_pos hend]
  · rw [if_neg hend, if_neg hend]
    have hevents := eventMessagesOf_mono maxEvents maxEventBytes (passed steps) (passed more)
    split_ifs
    · obtain ⟨last, hlast, -⟩ := streamMessages_eq maxEvents maxEventBytes (passed steps ++ passed more)
      rw [hlast]
      exact hevents.trans (List.prefix_append _ _)
    · exact hevents

/-- The capture of a run. -/
structure Captured (maxEvents maxEventBytes : Nat) (steps : List SseStep) (capture : SseCapture) : Prop where
  finished : capture.finished = true ↔ .finish ∈ steps
  sent : capture.sent = sentMessages maxEvents maxEventBytes steps
  tracks : .finish ∉ steps → maxEventBytes ≠ 0 → Tracks maxEvents maxEventBytes (passed steps) capture
  idle : .finish ∉ steps → maxEventBytes = 0 → capture = .start maxEvents maxEventBytes

theorem Captured.start (maxEvents maxEventBytes : Nat) :
    Captured maxEvents maxEventBytes [] (.start maxEvents maxEventBytes) where
  finished := by simp [SseCapture.start]
  sent := by
    unfold sentMessages eventMessagesOf
    simp [SseCapture.start, passed, records, @segment_of_none [] rfl, eventMessages]
  tracks _ _ := start_tracks maxEvents maxEventBytes
  idle _ _ := rfl

section Captured

variable {maxEvents maxEventBytes : Nat} {steps : List SseStep} {capture : SseCapture}

/-- What is not of the stream changes nothing. -/
theorem Captured.skip (h : Captured maxEvents maxEventBytes steps capture) {next : SseStep} (hnext : next ≠ .finish)
    (hpassed : passed [next] = []) : Captured maxEvents maxEventBytes (steps ++ [next]) capture := by
  have hmem : SseStep.finish ∈ steps ++ [next] ↔ SseStep.finish ∈ steps := by simp [hnext.symm]
  have hsame : passed (steps ++ [next]) = passed steps := by simp [passed_append, hpassed]
  refine ⟨h.finished.trans hmem.symm, ?_, ?_, ?_⟩
  · rw [h.sent]
    unfold sentMessages
    rw [hsame, if_congr hmem rfl rfl]
  · rw [hsame, hmem]
    exact h.tracks
  · rw [hmem]
    exact h.idle

/-- Nothing is captured behind the end. -/
theorem Captured.behind (h : Captured maxEvents maxEventBytes steps capture) (hend : .finish ∈ steps)
    (next : SseStep) : Captured maxEvents maxEventBytes (steps ++ [next]) capture := by
  have hmem : SseStep.finish ∈ steps ++ [next] := List.mem_append_left _ hend
  refine ⟨iff_of_true (h.finished.mpr hend) hmem, ?_, fun hno => absurd hmem hno, fun hno => absurd hmem hno⟩
  rw [h.sent]
  unfold sentMessages
  rw [passed_append, if_pos hend, if_pos hmem, if_pos hend]

theorem Captured.push (h : Captured maxEvents maxEventBytes steps capture) (bytes : Bytes) :
    Captured maxEvents maxEventBytes (steps ++ [.push bytes]) (capture.push bytes) := by
  by_cases hend : SseStep.finish ∈ steps
  · have hpush : capture.push bytes = capture := by simp [SseCapture.push, h.finished.mpr hend]
    rw [hpush]
    exact h.behind hend _
  · have hmem : SseStep.finish ∉ steps ++ [.push bytes] := by simp [hend]
    have hpassed : passed (steps ++ [.push bytes]) = passed steps ++ bytes := by simp [passed_append, hend, passed]
    by_cases hbytes : maxEventBytes = 0
    · have hstart := h.idle hend hbytes
      have hpush : capture.push bytes = capture := by
        rw [hstart]
        simp [SseCapture.push, SseCapture.start, SseCapture.captureLimitReached, hbytes]
      rw [hpush]
      refine ⟨iff_of_false ?_ hmem, ?_, fun _ hne => absurd hbytes hne, fun _ _ => hstart⟩
      · rw [h.finished]
        exact hend
      · rw [h.sent]
        unfold sentMessages eventMessagesOf
        rw [if_neg hend, if_neg hmem, if_pos hbytes, if_pos hbytes]
    · have htracks := push_tracks (h.tracks hend hbytes) hbytes bytes
      refine ⟨iff_of_false ?_ hmem, ?_, ?_, fun _ hzero => absurd hzero hbytes⟩
      · rw [htracks.unfinished]
        exact Bool.false_ne_true
      · rw [htracks.sent_eq]
        unfold sentMessages eventMessagesOf
        rw [if_neg hmem, if_neg hbytes, hpassed]
      · intro _ _
        rw [hpassed]
        exact htracks

theorem Captured.finish (h : Captured maxEvents maxEventBytes steps capture) :
    Captured maxEvents maxEventBytes (steps ++ [.finish]) capture.finish := by
  by_cases hend : SseStep.finish ∈ steps
  · have hfinish : capture.finish = capture := by simp [SseCapture.finish, h.finished.mpr hend]
    rw [hfinish]
    exact h.behind hend _
  · have hmem : SseStep.finish ∈ steps ++ [.finish] := by simp
    have hpassed : passed (steps ++ [.finish]) = passed steps := by simp [passed_append, passed]
    have hfinished : capture.finish.finished = true := by
      unfold SseCapture.finish
      split_ifs with hbefore
      · exact hbefore
      · rfl
      · rfl
    refine ⟨iff_of_true hfinished hmem, ?_, fun hno => absurd hmem hno, fun hno => absurd hmem hno⟩
    unfold sentMessages
    rw [if_pos hmem, hpassed]
    by_cases hbytes : maxEventBytes = 0
    · rw [h.idle hend hbytes]
      simp [SseCapture.finish, SseCapture.start, streamMessages, hbytes]
    · exact finish_sent (h.tracks hend hbytes) hbytes

end Captured

namespace SseStream

variable (flowDir : FilePath) (disk : Disk) (maxEvents maxEventBytes : Nat)

/-- The stream behind some steps. -/
abbrev after (steps : List SseStep) : SseStream := (start disk maxEvents maxEventBytes).runFrom flowDir steps

theorem after_append (steps : List SseStep) (next : SseStep) :
    after flowDir disk maxEvents maxEventBytes (steps ++ [next])
      = (after flowDir disk maxEvents maxEventBytes steps).step flowDir next := by
  unfold after runFrom
  rw [List.foldl_append, List.foldl_cons, List.foldl_nil]

/-- The task does not touch the capture. -/
theorem step_capture (stream : SseStream) {next : SseStep} (hpush : ∀ bytes, next ≠ .push bytes)
    (hfinish : next ≠ .finish) : (stream.step flowDir next).capture = stream.capture := by
  cases next with
  | push bytes => exact absurd rfl (hpush bytes)
  | finish => exact absurd rfl hfinish
  | receive =>
      simp only [step]
      split
      · split
        · rfl
        · rfl
      · rfl
  | put len =>
      simp only [step]
      split
      · rfl
      · rfl
  | written =>
      simp only [step]
      split
      · rfl
      · rfl
  | failed => rfl

/-- **What the capture of a run has sent is a function of what has passed.** -/
theorem captured_after (steps : List SseStep) :
    Captured maxEvents maxEventBytes steps (after flowDir disk maxEvents maxEventBytes steps).capture := by
  induction steps using List.reverseRecOn with
  | nil => exact .start maxEvents maxEventBytes
  | append_singleton steps next ih =>
      rw [after_append]
      cases next with
      | push bytes => exact ih.push bytes
      | finish => exact ih.finish
      | receive =>
          rw [step_capture flowDir _ (by simp) (by simp)]
          exact ih.skip (by simp) rfl
      | put len =>
          rw [step_capture flowDir _ (by simp) (by simp)]
          exact ih.skip (by simp) rfl
      | written =>
          rw [step_capture flowDir _ (by simp) (by simp)]
          exact ih.skip (by simp) rfl
      | failed => exact ih.skip (by simp) rfl

end SseStream

/-! ## Names -/

/-- Events with different numbers have different files. -/
theorem sseEventFile_injective : Function.Injective sseEventFile := by
  intro n n' h
  have hdigits := List.append_cancel_left h
  have hn := Text.parseUnsigned_padStart (show n < n + n' + 1 by omega) 3
  have hn' := Text.parseUnsigned_padStart (show n' < n + n' + 1 by omega) 3
  rw [hdigits, hn'] at hn
  exact (Option.some.inj hn).symm

/-- A name with something else than digits at its end is not that of an event. -/
theorem sseEventFile_ne {name : Str} (tail : Str) {c : Char} (hname : name = "response.body.".toList ++ tail) (hmem : c ∈ tail)
    (hdigit : c.isDigit = false) (sequence : Nat) : sseEventFile sequence ≠ name := by
  intro heq
  have htail := List.append_cancel_left (heq.trans hname)
  have hc := Text.isDigit_of_mem_padStart c (htail ▸ hmem)
  rw [hdigit] at hc
  cases hc

theorem sseEventFile_ne_marker (sequence : Nat) : sseEventFile sequence ≠ sseCaptureMarkerFile :=
  sseEventFile_ne "sse".toList rfl List.mem_cons_self rfl sequence

theorem sseEventFile_ne_remainder (sequence : Nat) : sseEventFile sequence ≠ sseCapturePartialFile :=
  sseEventFile_ne "partial".toList rfl List.mem_cons_self rfl sequence

theorem names_eventMessages (saved : List (List UInt8)) :
    (eventMessages saved).map (fun message => message.file.1)
      = (List.range' 1 saved.length).map sseEventFile := by
  apply List.ext_getElem
  · simp [eventMessages]
  · intro i h h'
    simp [eventMessages, SseCaptureMessage.file, Nat.add_comm]

/-- What a run has sent are numbered events, and at most one remainder behind them. -/
theorem sentMessages_eq (maxEvents maxEventBytes : Nat) (steps : List SseStep) :
    ∃ saved last, sentMessages maxEvents maxEventBytes steps = eventMessages saved ++ last ∧ saved.length ≤ maxEvents
      ∧ (last = [] ∨ ∃ bytes, last = [.partialBytes bytes]) := by
  have hevents : ∃ saved, eventMessagesOf maxEvents maxEventBytes (passed steps) = eventMessages saved
      ∧ saved.length ≤ maxEvents := by
    unfold eventMessagesOf
    split_ifs
    · exact ⟨[], rfl, Nat.zero_le _⟩
    · exact ⟨_, rfl, List.length_take_le _ _⟩
  obtain ⟨saved, hsaved, hlength⟩ := hevents
  unfold sentMessages
  split_ifs
  · obtain ⟨last, hlast, hshape⟩ := streamMessages_eq maxEvents maxEventBytes (passed steps)
    exact ⟨saved, last, by rw [hlast, hsaved], hlength, hshape⟩
  · exact ⟨saved, [], by rw [hsaved, List.append_nil], hlength, .inl rfl⟩

/-- The files of an event stream, in the order in which they are written. -/
def streamFiles (messages : List SseCaptureMessage) : List (Str × Bytes) :=
  sseCaptureMarker :: messages.map SseCaptureMessage.file

theorem streamFiles_names_nodup (maxEvents maxEventBytes : Nat) (steps : List SseStep) :
    ((streamFiles (sentMessages maxEvents maxEventBytes steps)).map Prod.fst).Nodup := by
  obtain ⟨saved, last, hsent, -, hlast⟩ := sentMessages_eq maxEvents maxEventBytes steps
  have hnames : ∀ name ∈ last.map fun message => message.file.1, name = sseCapturePartialFile := by
    rcases hlast with rfl | ⟨bytes, rfl⟩
    · exact fun _ hmem => absurd hmem List.not_mem_nil
    · exact fun _ hmem => List.mem_singleton.mp hmem
  have hone : (last.map fun message => message.file.1).Nodup := by
    rcases hlast with rfl | ⟨bytes, rfl⟩
    · exact List.nodup_nil
    · exact List.nodup_singleton _
  have hevents : ((List.range' 1 saved.length).map sseEventFile).Nodup :=
    List.Nodup.map sseEventFile_injective List.nodup_range'
  unfold streamFiles
  rw [List.map_cons, List.map_map, Function.comp_def, hsent, List.map_append, names_eventMessages]
  refine List.nodup_cons.mpr ⟨?_, List.nodup_append.mpr ⟨hevents, hone, ?_⟩⟩
  · rw [List.mem_append, not_or]
    constructor
    · intro hmem
      obtain ⟨sequence, -, heq⟩ := List.mem_map.mp hmem
      exact sseEventFile_ne_marker sequence heq
    · intro hmem
      exact absurd (hnames _ hmem) (by decide)
  · rintro name hevent other hother rfl
    obtain ⟨sequence, -, rfl⟩ := List.mem_map.mp hevent
    exact sseEventFile_ne_remainder sequence (hnames _ hother)

/-! ## The directory -/

/-- A file of a directory. -/
def inDir (flowDir : FilePath) (file : Str × Bytes) : FilePath × Bytes := (flowDir ++ [file.1], file.2)

theorem inDir_names (flowDir : FilePath) (files : List (Str × Bytes)) :
    (files.map (inDir flowDir)).map Prod.fst = (files.map Prod.fst).map fun name => flowDir ++ [name] := by
  rw [List.map_map, List.map_map]
  rfl

theorem write_eq_update (disk : Disk) (file : FilePath × Bytes) :
    disk.write file = Function.update disk file.1 (some file.2) := by
  funext path
  rw [Function.update_apply]
  rfl

/-- How many files the task is through with. -/
def SseWriter.settled : SseWriter → Nat
  | .marking => 0
  | .receiving received => received + 1
  | .writing received _ => received + 1
  | .stopped => 1

def SseWriter.isWriting (writer : SseWriter) : Bool := writer.file.isSome

namespace SseStream

section Step

variable {flowDir : FilePath} {stream : SseStream} {before : Disk} {whole : Prop}

/-- The directory of a stream: its files are written one after the other, and the task writes what it has received. -/
structure Spools (flowDir : FilePath) (before : Disk) (whole : Prop) (stream : SseStream) : Prop where
  spooled : Spooled ((streamFiles stream.capture.sent).map (inDir flowDir)) stream.writer.settled
    stream.writer.isWriting whole before stream.disk
  current : ∀ received message, stream.writer = .writing received message →
    stream.capture.sent[received]? = some message

/-- What the task writes is the next file. -/
theorem Spools.file (h : Spools flowDir before whole stream) {file : Str × Bytes} (hfile : stream.writer.file = some file) :
    ((streamFiles stream.capture.sent).map (inDir flowDir))[stream.writer.settled]? = some (inDir flowDir file)
    ∧ Spooled ((streamFiles stream.capture.sent).map (inDir flowDir)) stream.writer.settled true whole before
        stream.disk := by
  have hspooled := h.spooled
  unfold SseWriter.isWriting at hspooled
  rw [hfile] at hspooled
  refine ⟨?_, hspooled⟩
  cases hwriter : stream.writer with
  | marking =>
      rw [hwriter] at hfile
      cases hfile
      rfl
  | receiving received =>
      rw [hwriter] at hfile
      cases hfile
  | writing received message =>
      have hcurrent := h.current received message hwriter
      rw [hwriter] at hfile
      cases hfile
      rw [List.getElem?_map]
      show ((streamFiles stream.capture.sent)[received + 1]?).map (inDir flowDir) = _
      unfold streamFiles
      rw [List.getElem?_cons_succ, List.getElem?_map, hcurrent]
      rfl
  | stopped =>
      rw [hwriter] at hfile
      cases hfile

/-- Once the write is over, nothing is written. -/
theorem next_idle (writer : SseWriter) (failed : Bool) : (writer.next failed).isWriting = false := by
  cases writer with
  | marking => cases failed <;> rfl
  | receiving received => rfl
  | writing received message => rfl
  | stopped => rfl

theorem next_settled {writer : SseWriter} {file : Str × Bytes} (hfile : writer.file = some file) (failed : Bool) :
    (writer.next failed).settled = writer.settled + 1 := by
  cases writer with
  | marking => cases failed <;> rfl
  | receiving received => cases hfile
  | writing received message => rfl
  | stopped => cases hfile

/-- Behind a write nothing is received. -/
theorem next_ne_writing {writer : SseWriter} {failed : Bool} {received : Nat} {message : SseCaptureMessage}
    (h : writer.next failed = .writing received message) : False := by
  have hidle := next_idle writer failed
  rw [h] at hidle
  cases hidle

/-- The capture sends more. -/
theorem Spools.send (h : Spools flowDir before whole stream) {capture : SseCapture}
    (hsent : stream.capture.sent <+: capture.sent) : Spools flowDir before whole { stream with capture } := by
  refine ⟨h.spooled.mono ?_, ?_⟩
  · unfold streamFiles
    rw [List.map_cons, List.map_cons]
    exact (List.prefix_cons_inj _).mpr ((hsent.map _).map _)
  · intro received message hwriter
    obtain ⟨more, hmore⟩ := hsent
    have hcurrent := h.current received message hwriter
    have hlt := (List.getElem?_eq_some_iff.mp hcurrent).1
    show capture.sent[received]? = _
    rw [← hmore, List.getElem?_append_left hlt]
    exact hcurrent

variable (hnames : ((streamFiles stream.capture.sent).map Prod.fst).Nodup)
  (hnew : ∀ file ∈ streamFiles stream.capture.sent, before (flowDir ++ [file.1]) = none)

include hnames in
theorem paths_nodup : (((streamFiles stream.capture.sent).map (inDir flowDir)).map Prod.fst).Nodup := by
  rw [inDir_names]
  refine List.Nodup.map ?_ hnames
  intro name name' heq
  exact List.singleton_inj.mp (List.append_cancel_left heq)

include hnames hnew in
/-- **What one step keeps.** -/
theorem Spools.step (h : Spools flowDir before whole stream) {next : SseStep}
    (hmore : stream.capture.sent <+: (stream.step flowDir next).capture.sent) :
    Spools flowDir before (whole ∧ next ≠ .failed) (stream.step flowDir next) := by
  have hpaths := @paths_nodup flowDir stream hnames
  cases next with
  | push bytes => exact ⟨(h.send hmore).spooled.imp And.left, (h.send hmore).current⟩
  | finish => exact ⟨(h.send hmore).spooled.imp And.left, (h.send hmore).current⟩
  | receive =>
      have hsame : Spools flowDir before (whole ∧ SseStep.receive ≠ .failed) stream :=
        ⟨h.spooled.imp And.left, h.current⟩
      simp only [SseStream.step]
      split
      · rename_i received hwriter
        split
        · exact hsame
        · rename_i message hmessage
          have hspooled := hsame.spooled
          rw [hwriter] at hspooled
          have hfile : ((streamFiles stream.capture.sent).map (inDir flowDir))[received + 1]?
              = some (inDir flowDir message.file) := by
            unfold streamFiles
            rw [List.getElem?_map, List.getElem?_cons_succ, List.getElem?_map, hmessage]
            rfl
          refine ⟨hspooled.next hfile hpaths ?_, ?_⟩
          · refine hnew message.file (List.mem_cons_of_mem _ (List.mem_map_of_mem ?_))
            exact List.mem_of_getElem? hmessage
          · intro received' message' hwriting
            cases hwriting
            exact hmessage
      · exact hsame
  | put len =>
      simp only [SseStream.step]
      split
      · exact ⟨h.spooled.imp And.left, h.current⟩
      · rename_i name bytes hfile
        obtain ⟨hget, hspooled⟩ := h.file hfile
        refine ⟨?_, h.current⟩
        have hput := hspooled.put hget hpaths (List.take_prefix len bytes)
        rw [write_eq_update]
        unfold SseWriter.isWriting
        rw [hfile]
        exact hput.imp And.left
  | written =>
      simp only [SseStream.step]
      split
      · exact ⟨h.spooled.imp And.left, h.current⟩
      · rename_i name bytes hfile
        obtain ⟨hget, hspooled⟩ := h.file hfile
        refine ⟨?_, fun received message hwriting => (next_ne_writing hwriting).elim⟩
        have hwritten := hspooled.written hget hpaths
        rw [write_eq_update, next_idle, next_settled hfile]
        exact hwritten.imp And.left
  | failed =>
      refine ⟨?_, fun received message hwriting => (next_ne_writing hwriting).elim⟩
      show Spooled _ (stream.writer.next true).settled (stream.writer.next true).isWriting _ before stream.disk
      rw [next_idle]
      cases hfile : stream.writer.file with
      | none =>
          have hspooled := h.spooled
          unfold SseWriter.isWriting at hspooled
          rw [hfile] at hspooled
          have hsame : (stream.writer.next true).settled = stream.writer.settled := by
            cases hwriter : stream.writer with
            | marking =>
                rw [hwriter] at hfile
                cases hfile
            | receiving received => rfl
            | writing received message =>
                rw [hwriter] at hfile
                cases hfile
            | stopped => rfl
          rw [hsame]
          exact hspooled.imp And.left
      | some file =>
          obtain ⟨-, hspooled⟩ := h.file hfile
          rw [next_settled hfile]
          exact hspooled.giveUp.imp fun hwhole => hwhole.2 rfl

end Step

section Run

variable {flowDir : FilePath} {disk : Disk} {maxEvents maxEventBytes : Nat} {steps : List SseStep}

/-- **The directory of a run** that had no files of these names. -/
theorem spools_after
    (hnew : ∀ file ∈ streamFiles (sentMessages maxEvents maxEventBytes steps), disk (flowDir ++ [file.1]) = none) :
    Spools flowDir disk (.failed ∉ steps) (after flowDir disk maxEvents maxEventBytes steps) := by
  induction steps using List.reverseRecOn with
  | nil =>
      have hmarker := hnew sseCaptureMarker List.mem_cons_self
      refine ⟨?_, fun received message hwriting => by cases hwriting⟩
      have hnames := streamFiles_names_nodup maxEvents maxEventBytes []
      have hstart := Spooled.start ((streamFiles []).map (inDir flowDir)) (SseStep.failed ∉ []) disk
      exact hstart.next rfl (List.nodup_singleton _) hmarker
  | append_singleton steps next ih =>
      have hbegins : streamFiles (sentMessages maxEvents maxEventBytes steps)
          <+: streamFiles (sentMessages maxEvents maxEventBytes (steps ++ [next])) :=
        (List.prefix_cons_inj _).mpr ((sentMessages_mono maxEvents maxEventBytes steps [next]).map _)
      have hnew' : ∀ file ∈ streamFiles (sentMessages maxEvents maxEventBytes steps),
          disk (flowDir ++ [file.1]) = none := fun file hmem => hnew file (hbegins.subset hmem)
      have h := ih hnew'
      have hsent := (captured_after flowDir disk maxEvents maxEventBytes steps).sent
      have hsent' := (captured_after flowDir disk maxEvents maxEventBytes (steps ++ [next])).sent
      have hwhole : SseStep.failed ∉ steps ++ [next] → SseStep.failed ∉ steps ∧ next ≠ .failed := by
        intro hno
        rw [List.mem_append, not_or, List.mem_singleton] at hno
        exact ⟨hno.1, fun heq => hno.2 heq.symm⟩
      rw [after_append] at hsent' ⊢
      have hmore : (after flowDir disk maxEvents maxEventBytes steps).capture.sent
          <+: ((after flowDir disk maxEvents maxEventBytes steps).step flowDir next).capture.sent := by
        rw [hsent, hsent']
        exact sentMessages_mono maxEvents maxEventBytes steps [next]
      have hstep := h.step (by rw [hsent]; exact streamFiles_names_nodup ..) (by rwa [hsent]) hmore
      exact ⟨hstep.spooled.imp hwhole, hstep.current⟩

/-- No step takes a file away. -/
theorem disk_step_isSome {stream : SseStream} (next : SseStep) {path : FilePath}
    (h : (stream.disk path).isSome = true) : ((stream.step flowDir next).disk path).isSome = true := by
  have hwrite : ∀ file : FilePath × Bytes, ((stream.disk.write file) path).isSome = true := by
    intro file
    unfold Disk.write
    split_ifs
    · rfl
    · exact h
  cases next with
  | push bytes => exact h
  | finish => exact h
  | receive =>
      simp only [SseStream.step]
      split
      · split
        · exact h
        · exact h
      · exact h
  | put len =>
      simp only [SseStream.step]
      split
      · exact h
      · exact hwrite _
  | written =>
      simp only [SseStream.step]
      split
      · exact h
      · exact hwrite _
  | failed => exact h

theorem disk_mono (more : List SseStep) {path : FilePath}
    (h : ((after flowDir disk maxEvents maxEventBytes steps).disk path).isSome = true) :
    ((after flowDir disk maxEvents maxEventBytes (steps ++ more)).disk path).isSome = true := by
  induction more using List.reverseRecOn with
  | nil => rwa [List.append_nil]
  | append_singleton more next ih =>
      rw [← List.append_assoc, after_append]
      exact disk_step_isSome next ih

/-- The task never goes back. -/
theorem settled_step_le (stream : SseStream) (next : SseStep) :
    stream.writer.settled ≤ (stream.step flowDir next).writer.settled := by
  have hnext : ∀ failed, stream.writer.settled ≤ (stream.writer.next failed).settled := by
    intro failed
    cases stream.writer with
    | marking => exact Nat.zero_le _
    | receiving received => exact le_rfl
    | writing received message => exact Nat.le_succ _
    | stopped => exact le_rfl
  cases next with
  | push bytes => exact le_rfl
  | finish => exact le_rfl
  | receive =>
      simp only [SseStream.step]
      split
      · rename_i received hwriter
        split
        · exact le_rfl
        · rw [hwriter]
          exact le_rfl
      · exact le_rfl
  | put len =>
      simp only [SseStream.step]
      split
      · exact le_rfl
      · exact le_rfl
  | written =>
      simp only [SseStream.step]
      split
      · exact le_rfl
      · exact hnext false
  | failed => exact hnext true

theorem settled_mono (more : List SseStep) :
    (after flowDir disk maxEvents maxEventBytes steps).writer.settled
      ≤ (after flowDir disk maxEvents maxEventBytes (steps ++ more)).writer.settled := by
  induction more using List.reverseRecOn with
  | nil => rw [List.append_nil]
  | append_singleton more next ih =>
      rw [← List.append_assoc, after_append]
      exact ih.trans (settled_step_le _ next)

end Run

end SseStream

end Inspect.Sse
