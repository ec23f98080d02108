import Inspect.Flow.SseCapture

/-!
# `Flow.Correctness.SseFraming` — a capture does not see the framing

What a capture sends is a function of the byte stream alone. `segment` cuts a whole stream into its complete
events and the remainder after the last terminator; `streamMessages` says what is sent for it. `Tracks`
relates a capture to the stream pushed so far, and one `push` keeps it (`push_tracks`), however the stream
is cut into frames.

Two facts about `find_sse_event_end` carry the proof. A terminator found in a buffer stays the first one
when bytes are appended (`findSseEventEnd_append`), so complete events never change. And no terminator is
longer than four bytes, so a buffer without one can be cut down to its last three bytes without moving the
next one (`findSseEventEnd_suffix`), which is what the discarding mode relies on.
-/

namespace Inspect.Sse

/-! ## Terminators are local -/

/-- A terminator is still there when bytes follow. -/
theorem terminatorLen_append {x : List UInt8} {len : Nat} (h : terminatorLen x = some len)
    (y : List UInt8) : terminatorLen (x ++ y) = some len := by
  rcases x with _ | ⟨a, _ | ⟨b, _ | ⟨c, _ | ⟨d, x⟩⟩⟩⟩
  all_goals simp [terminatorLen, List.isPrefixOf] at h ⊢
  all_goals grind

/-- A terminator that lies within `x` does not depend on what follows. -/
theorem terminatorLen_of_append {x y : List UInt8} {len : Nat}
    (h : terminatorLen (x ++ y) = some len) (hlen : len ≤ x.length) :
    terminatorLen x = some len := by
  have hbounds := terminatorLen_bounds h
  rcases x with _ | ⟨a, _ | ⟨b, _ | ⟨c, _ | ⟨d, x⟩⟩⟩⟩
  all_goals simp [terminatorLen, List.isPrefixOf] at h hlen ⊢
  all_goals grind

/-- Bytes before a terminator do not join with it, and with what follows, into an earlier one. -/
theorem terminatorLen_cons_none {byte : UInt8} {rest : List UInt8} {eventEnd : Nat}
    (hnone : terminatorLen (byte :: rest) = none) (hrest : findSseEventEnd rest = some eventEnd)
    (y : List UInt8) : terminatorLen (byte :: rest ++ y) = none := by
  cases hterm : terminatorLen (byte :: rest ++ y) with
  | none => rfl
  | some len =>
      have hbounds := terminatorLen_bounds hterm
      by_cases hlen : len ≤ (byte :: rest).length
      · rw [terminatorLen_of_append hterm hlen] at hnone
        cases hnone
      · -- `rest` has two bytes at most, so it is `\n\n` or `\r\r`; no terminator continues with these
        have hend := findSseEventEnd_bounds hrest
        simp only [List.length_cons] at hlen
        rcases rest with _ | ⟨b, _ | ⟨c, _ | ⟨d, rest⟩⟩⟩
        · simp at hend; omega
        · simp at hend; omega
        · simp [findSseEventEnd, findLoop, terminatorLen, List.isPrefixOf] at hrest hterm
          grind
        · simp at hlen; omega

/-- **Prefix stability.** The end of the first event does not move when bytes are appended. -/
theorem findSseEventEnd_append {x : List UInt8} {eventEnd : Nat}
    (h : findSseEventEnd x = some eventEnd) (y : List UInt8) :
    findSseEventEnd (x ++ y) = some eventEnd := by
  induction x generalizing eventEnd with
  | nil => cases h
  | cons byte rest ih =>
      rw [findSseEventEnd_cons] at h
      rw [List.cons_append, findSseEventEnd_cons, ← List.cons_append]
      cases hterm : terminatorLen (byte :: rest) with
      | some len =>
          rw [hterm] at h
          rw [terminatorLen_append hterm]
          exact h
      | none =>
          rw [hterm] at h
          obtain ⟨n, hn, rfl⟩ := Option.map_eq_some_iff.mp h
          rw [terminatorLen_cons_none hterm hn, ih hn]
          rfl

/-- The first event of `x ++ y`, if it ends within `x`, is the first event of `x`. -/
theorem findSseEventEnd_of_append {x y : List UInt8} {eventEnd : Nat}
    (h : findSseEventEnd (x ++ y) = some eventEnd) (hlen : eventEnd ≤ x.length) :
    findSseEventEnd x = some eventEnd := by
  induction x generalizing eventEnd with
  | nil =>
      have hbounds := findSseEventEnd_bounds h
      simp at hlen
      omega
  | cons byte rest ih =>
      rw [List.cons_append, findSseEventEnd_cons, ← List.cons_append] at h
      rw [findSseEventEnd_cons]
      cases hterm : terminatorLen (byte :: rest ++ y) with
      | some len =>
          rw [hterm] at h
          cases h
          rw [terminatorLen_of_append hterm hlen]
      | none =>
          rw [hterm] at h
          obtain ⟨n, hn, rfl⟩ := Option.map_eq_some_iff.mp h
          have hnone : terminatorLen (byte :: rest) = none := by
            cases hsome : terminatorLen (byte :: rest) with
            | none => rfl
            | some len => rw [terminatorLen_append hsome] at hterm; cases hterm
          simp only [List.length_cons] at hlen
          rw [hnone, ih hn (by omega)]
          rfl

/-- **Three bytes are enough.** Cutting a buffer without a terminator down to a suffix of three bytes or more
    does not change where the next terminator is found. -/
theorem findSseEventEnd_suffix (cut : List UInt8) {kept : List UInt8}
    (hnone : findSseEventEnd (cut ++ kept) = none) (hkept : 3 ≤ kept.length) (y : List UInt8) :
    findSseEventEnd (cut ++ kept ++ y)
      = (findSseEventEnd (kept ++ y)).map (cut.length + ·) := by
  induction cut with
  | nil => simp
  | cons byte cut ih =>
      rw [List.cons_append, findSseEventEnd_cons] at hnone
      cases hterm : terminatorLen (byte :: (cut ++ kept)) with
      | some len => rw [hterm] at hnone; cases hnone
      | none =>
          rw [hterm] at hnone
          have hcut : findSseEventEnd (cut ++ kept) = none := Option.map_eq_none_iff.mp hnone
          have hfollow : terminatorLen (byte :: (cut ++ kept) ++ y) = none := by
            cases hsome : terminatorLen (byte :: (cut ++ kept) ++ y) with
            | none => rfl
            | some len =>
                have hbounds := terminatorLen_bounds hsome
                rw [terminatorLen_of_append hsome (by simp; omega)] at hterm
                cases hterm
          rw [List.cons_append, List.cons_append, findSseEventEnd_cons, ← List.cons_append, hfollow]
          dsimp only
          rw [ih hcut, Option.map_map]
          congr 1
          funext n
          simp only [Function.comp_apply, List.length_cons]
          omega

/-! ## Cutting a whole stream -/

/-- The complete events of a stream, terminators included, and the bytes after the last of them. -/
def segment (stream : List UInt8) : List (List UInt8) × List UInt8 :=
  match _ : findSseEventEnd stream with
  | none => ([], stream)
  | some eventEnd =>
      (stream.take eventEnd :: (segment (stream.drop eventEnd)).1,
        (segment (stream.drop eventEnd)).2)
termination_by stream.length
decreasing_by
  all_goals
    have hbounds := findSseEventEnd_bounds ‹findSseEventEnd stream = some _›
    simp only [List.length_drop]
    omega

theorem segment_of_none {stream : List UInt8} (h : findSseEventEnd stream = none) :
    segment stream = ([], stream) := by
  rw [segment]
  split
  · rfl
  · rename_i heq; rw [h] at heq; cases heq

theorem segment_of_some {stream : List UInt8} {eventEnd : Nat}
    (h : findSseEventEnd stream = some eventEnd) :
    segment stream = (stream.take eventEnd :: (segment (stream.drop eventEnd)).1,
      (segment (stream.drop eventEnd)).2) := by
  rw [segment]
  split
  · rename_i heq; rw [h] at heq; cases heq
  · rename_i n heq
    rw [h] at heq
    cases heq
    rfl

/-- The remainder holds no complete event. -/
theorem findSseEventEnd_remainder (stream : List UInt8) :
    findSseEventEnd (segment stream).2 = none := by
  induction hlen : stream.length using Nat.strongRecOn generalizing stream with
  | _ n ih =>
      cases hend : findSseEventEnd stream with
      | none => rw [segment_of_none hend]; exact hend
      | some eventEnd =>
          have hbounds := findSseEventEnd_bounds hend
          rw [segment_of_some hend]
          exact ih (stream.drop eventEnd).length (by simp only [List.length_drop]; omega) _ rfl

/-- **Cutting is incremental**: what is appended is cut together with the remainder. -/
theorem segment_append (x y : List UInt8) :
    segment (x ++ y) = ((segment x).1 ++ (segment ((segment x).2 ++ y)).1,
      (segment ((segment x).2 ++ y)).2) := by
  induction hlen : x.length using Nat.strongRecOn generalizing x with
  | _ n ih =>
      cases hend : findSseEventEnd x with
      | none => rw [segment_of_none hend]; rfl
      | some eventEnd =>
          have hbounds := findSseEventEnd_bounds hend
          have hrest := ih (x.drop eventEnd).length (by simp only [List.length_drop]; omega) _ rfl
          rw [segment_of_some hend, segment_of_some (findSseEventEnd_append hend y),
            List.take_append_of_le_length hbounds.2, List.drop_append_of_le_length hbounds.2, hrest]
          rfl

/-! ## What is sent for a stream -/

/-- The bytes saved for an event: the event, or its truncation if it is over the limit. -/
def clip (maxEventBytes : Nat) (event : List UInt8) : List UInt8 :=
  if event.length > maxEventBytes then truncateEvent event maxEventBytes else event

/-- The events to save for a stream, were their number not limited: the complete ones, and the remainder
    once it is over the size limit. -/
def records (maxEventBytes : Nat) (stream : List UInt8) : List (List UInt8) :=
  (segment stream).1.map (clip maxEventBytes)
    ++ if (segment stream).2.length > maxEventBytes then [clip maxEventBytes (segment stream).2]
       else []

/-- Saved events as messages, numbered from one. -/
def eventMessages (saved : List (List UInt8)) : List SseCaptureMessage :=
  saved.mapIdx fun i bytes => .event (i + 1) bytes

/-- What is sent at the end of the stream, when `saved` events were saved and `rest` is left. -/
def partialMessages (maxEvents maxEventBytes saved : Nat) (rest : List UInt8) :
    List SseCaptureMessage :=
  if saved < maxEvents ∧ rest ≠ [] ∧ rest.length ≤ maxEventBytes then
    [.partialBytes (truncateEvent rest maxEventBytes)]
  else []

/-- **The messages sent for a whole stream.** -/
def streamMessages (maxEvents maxEventBytes : Nat) (stream : List UInt8) : List SseCaptureMessage :=
  if maxEventBytes = 0 then []
  else
    eventMessages ((records maxEventBytes stream).take maxEvents)
      ++ partialMessages maxEvents maxEventBytes (records maxEventBytes stream).length
          (segment stream).2

@[simp] theorem eventMessages_concat (saved : List (List UInt8)) (event : List UInt8) :
    eventMessages saved ++ [.event (saved.length + 1) event] = eventMessages (saved ++ [event]) := by
  simp [eventMessages, List.mapIdx_concat]

/-- Over the limit, only the first `maxEventBytes` bytes count. -/
theorem clip_append {maxEventBytes : Nat} {event : List UInt8} (h : event.length > maxEventBytes)
    (y : List UInt8) : clip maxEventBytes (event ++ y) = clip maxEventBytes event := by
  unfold clip truncateEvent
  rw [if_pos h, if_pos (by simp only [List.length_append]; omega),
    List.take_append_of_le_length (by omega)]

/-- As long as the remainder is within the limit, what is appended is recorded together with it. -/
theorem records_append {maxEventBytes : Nat} {x : List UInt8}
    (h : (segment x).2.length ≤ maxEventBytes) (y : List UInt8) :
    records maxEventBytes (x ++ y)
      = records maxEventBytes x ++ records maxEventBytes ((segment x).2 ++ y) := by
  unfold records
  rw [segment_append x y, if_neg (show ¬ (segment x).2.length > maxEventBytes by omega)]
  simp only [List.map_append, List.append_nil, List.append_assoc]

/-- Once the remainder is over the limit it is recorded; bytes without a terminator then add nothing. -/
theorem records_append_over_none {maxEventBytes : Nat} {x y : List UInt8}
    (h : (segment x).2.length > maxEventBytes)
    (hend : findSseEventEnd ((segment x).2 ++ y) = none) :
    records maxEventBytes (x ++ y) = records maxEventBytes x := by
  unfold records
  rw [segment_append x y, segment_of_none hend, if_pos h]
  dsimp only
  rw [if_pos (by simp only [List.length_append]; omega), clip_append h, List.append_nil]

/-- Once the remainder is over the limit, only what follows its terminator adds records. -/
theorem records_append_over_some {maxEventBytes : Nat} {x y : List UInt8} {eventEnd : Nat}
    (h : (segment x).2.length > maxEventBytes)
    (hend : findSseEventEnd ((segment x).2 ++ y) = some eventEnd) :
    records maxEventBytes (x ++ y) = records maxEventBytes x
      ++ records maxEventBytes (((segment x).2 ++ y).drop eventEnd) := by
  -- the terminator ends in `y`: the remainder alone has none
  have hlate : (segment x).2.length < eventEnd := by
    by_contra hearly
    have hinside := findSseEventEnd_of_append hend (by omega)
    rw [findSseEventEnd_remainder] at hinside
    cases hinside
  have hevent : clip maxEventBytes (((segment x).2 ++ y).take eventEnd)
      = clip maxEventBytes (segment x).2 := by
    rw [List.take_append, List.take_of_length_le (by omega), clip_append h]
  unfold records
  rw [segment_append x y, segment_of_some hend, if_pos h]
  simp only [List.map_append, List.map_cons, hevent, List.append_assoc, List.cons_append,
    List.nil_append]

/-- Appending bytes only ever adds records. -/
theorem records_prefix (maxEventBytes : Nat) (x y : List UInt8) :
    ∃ more, records maxEventBytes (x ++ y) = records maxEventBytes x ++ more := by
  by_cases h : (segment x).2.length ≤ maxEventBytes
  · exact ⟨_, records_append h y⟩
  · cases hend : findSseEventEnd ((segment x).2 ++ y) with
    | none => exact ⟨[], by rw [records_append_over_none (by omega) hend, List.append_nil]⟩
    | some eventEnd => exact ⟨_, records_append_over_some (by omega) hend⟩

/-! ## What one `push` does -/

section Push

open SseCapture

/-- `saveEvent` in one piece: both of its branches save the clipped event. -/
theorem saveEvent_eq (capture : SseCapture) (event : List UInt8) :
    capture.saveEvent event
      = { capture with
          savedEvents := capture.savedEvents + 1
          sent := capture.sent ++ [.event (capture.savedEvents + 1) (clip capture.maxEventBytes event)] } := by
  unfold saveEvent saveEventWithTruncation clip
  split <;> rfl

/-- An incomplete event over the limit is saved clipped, and the capture starts discarding. -/
theorem handleOversizedIncompleteEvent_of_over {capture : SseCapture}
    (hdisc : capture.discardingOversizedEvent = false) (hmax : capture.maxEventBytes ≠ 0)
    (hover : capture.buffer.length > capture.maxEventBytes) :
    capture.handleOversizedIncompleteEvent
      = { capture.saveEvent capture.buffer with
          discardingOversizedEvent := true
          buffer := capture.buffer.drop (capture.buffer.length - 3) } := by
  unfold handleOversizedIncompleteEvent
  rw [if_neg (by simp [hdisc, hmax]), if_neg (by omega), saveEvent, if_pos hover]
  simp [saveEventWithTruncation, truncateEvent, List.take_take]

theorem handleOversizedIncompleteEvent_of_small {capture : SseCapture}
    (h : capture.discardingOversizedEvent = true ∨ capture.buffer.length ≤ capture.maxEventBytes) :
    capture.handleOversizedIncompleteEvent = capture := by
  unfold handleOversizedIncompleteEvent
  rcases h with h | h
  · simp [h]
  · simp [h]

theorem pushLoop_of_none {capture : SseCapture} (h : findSseEventEnd capture.buffer = none) :
    capture.pushLoop = capture.handleOversizedIncompleteEvent := by
  rw [pushLoop]
  split
  · rfl
  · rename_i heq; rw [h] at heq; cases heq

theorem pushLoop_of_some {capture : SseCapture} {eventEnd : Nat}
    (h : findSseEventEnd capture.buffer = some eventEnd) :
    capture.pushLoop
      = let drained := { capture with buffer := capture.buffer.drop eventEnd }
        if capture.discardingOversizedEvent then
          pushLoop { drained with discardingOversizedEvent := false }
        else if (drained.saveEvent (capture.buffer.take eventEnd)).captureLimitReached then
          { drained.saveEvent (capture.buffer.take eventEnd) with buffer := [] }
        else pushLoop (drained.saveEvent (capture.buffer.take eventEnd)) := by
  rw [pushLoop]
  split
  · rename_i heq; rw [h] at heq; cases heq
  · rename_i n heq
    rw [h] at heq
    cases heq
    rfl

/-- What the capture keeps of the unfinished event `rest`: all of it, or, once it is over the limit, a
    suffix long enough to recognise its terminator. -/
structure Keeps (maxEventBytes : Nat) (rest : List UInt8) (capture : SseCapture) : Prop where
  discarding : capture.discardingOversizedEvent = decide (rest.length > maxEventBytes)
  suffix : ∃ cut, rest = cut ++ capture.buffer ∧
    (cut = [] ∨ rest.length > maxEventBytes ∧ 3 ≤ capture.buffer.length)

/-- A capture that has sent the first of `saved`, as many as `maxEvents` allows. -/
structure Sent (maxEvents maxEventBytes : Nat) (saved : List (List UInt8)) (capture : SseCapture) :
    Prop where
  maxEvents_eq : capture.maxEvents = maxEvents
  maxEventBytes_eq : capture.maxEventBytes = maxEventBytes
  unfinished : capture.finished = false
  sent_eq : capture.sent = eventMessages (saved.take maxEvents)
  savedEvents_eq : capture.savedEvents = min maxEvents saved.length

/-- A capture that has sent `saved` and is in the middle of `rest`. Once the number of events is used up,
    nothing more is known of the buffer, and nothing needs to be. -/
structure Settled (maxEvents maxEventBytes : Nat) (saved : List (List UInt8)) (rest : List UInt8)
    (capture : SseCapture) : Prop extends Sent maxEvents maxEventBytes saved capture where
  keeps : saved.length < maxEvents → Keeps maxEventBytes rest capture

section

variable {maxEvents maxEventBytes : Nat} {saved : List (List UInt8)} {capture : SseCapture}

/-- With limits above zero, the test for them is the count alone. -/
theorem Sent.captureLimitReached_iff (h : Sent maxEvents maxEventBytes saved capture)
    (hbytes : maxEventBytes ≠ 0) :
    capture.captureLimitReached = true ↔ maxEvents ≤ saved.length := by
  simp only [captureLimitReached, h.maxEvents_eq, h.maxEventBytes_eq, h.savedEvents_eq,
    Bool.or_eq_true, beq_iff_eq, decide_eq_true_eq, hbytes, or_false]
  omega

/-- What the buffer and the discarding flag hold does not matter for what was sent. -/
theorem Sent.of_eq (h : Sent maxEvents maxEventBytes saved capture) (buffer : List UInt8)
    (discarding : Bool) :
    Sent maxEvents maxEventBytes saved
      { capture with buffer := buffer, discardingOversizedEvent := discarding } :=
  ⟨h.maxEvents_eq, h.maxEventBytes_eq, h.unfinished, h.sent_eq, h.savedEvents_eq⟩

/-- Beyond the number of events, further records are not sent. -/
theorem Sent.append_of_full (h : Sent maxEvents maxEventBytes saved capture)
    (hfull : maxEvents ≤ saved.length) (more : List (List UInt8)) :
    Sent maxEvents maxEventBytes (saved ++ more) capture := by
  refine ⟨h.maxEvents_eq, h.maxEventBytes_eq, h.unfinished, ?_, ?_⟩
  · rw [List.take_append_of_le_length hfull]
    exact h.sent_eq
  · rw [h.savedEvents_eq, List.length_append]
    omega

/-- Saving an event while there is room for it. -/
theorem Sent.saveEvent (h : Sent maxEvents maxEventBytes saved capture)
    (hroom : saved.length < maxEvents) (event : List UInt8) :
    Sent maxEvents maxEventBytes (saved ++ [clip maxEventBytes event]) (capture.saveEvent event) := by
  have hcount : capture.savedEvents = saved.length := by
    rw [h.savedEvents_eq]
    omega
  rw [saveEvent_eq]
  refine ⟨h.maxEvents_eq, h.maxEventBytes_eq, h.unfinished, ?_, ?_⟩
  · rw [List.take_of_length_le (by simp only [List.length_append, List.length_singleton]; omega),
      ← eventMessages_concat, h.maxEventBytes_eq, hcount]
    dsimp only
    rw [h.sent_eq, List.take_of_length_le (by omega)]
  · simp only [hcount, List.length_append, List.length_singleton]
    omega

/-- The end of the loop: no complete event is left in the buffer. -/
theorem handleOversizedIncompleteEvent_settled (h : Sent maxEvents maxEventBytes saved capture)
    (hbytes : maxEventBytes ≠ 0) (hroom : saved.length < maxEvents)
    (hdisc : capture.discardingOversizedEvent = false) (hend : findSseEventEnd capture.buffer = none) :
    Settled maxEvents maxEventBytes (saved ++ records maxEventBytes capture.buffer) capture.buffer
      capture.handleOversizedIncompleteEvent := by
  have hrecords : records maxEventBytes capture.buffer
      = if capture.buffer.length > maxEventBytes then [clip maxEventBytes capture.buffer] else [] := by
    rw [records, segment_of_none hend]
    rfl
  by_cases hover : capture.buffer.length > maxEventBytes
  · rw [hrecords, if_pos hover, handleOversizedIncompleteEvent_of_over hdisc
      (by rw [h.maxEventBytes_eq]; exact hbytes) (by rw [h.maxEventBytes_eq]; exact hover)]
    refine ⟨(h.saveEvent hroom capture.buffer).of_eq _ _, fun _ => ⟨by simp [hover], ?_⟩⟩
    refine ⟨capture.buffer.take (capture.buffer.length - 3), (List.take_append_drop _ _).symm, ?_⟩
    by_cases hshort : capture.buffer.length ≤ 3
    · left
      rw [Nat.sub_eq_zero_of_le hshort, List.take_zero]
    · right
      refine ⟨hover, ?_⟩
      simp only [List.length_drop]
      omega
  · rw [hrecords, if_neg hover, List.append_nil, handleOversizedIncompleteEvent_of_small
      (Or.inr (by rw [h.maxEventBytes_eq]; omega))]
    exact ⟨h, fun _ => ⟨by simp [hdisc, hover], [], rfl, Or.inl rfl⟩⟩

/-- **The loop of `push`** outside the discarding mode sends the records of its buffer, as many as the limit
    allows, and keeps the remainder. -/
theorem pushLoop_settled (h : Sent maxEvents maxEventBytes saved capture) (hbytes : maxEventBytes ≠ 0)
    (hroom : saved.length < maxEvents) (hdisc : capture.discardingOversizedEvent = false) :
    Settled maxEvents maxEventBytes (saved ++ records maxEventBytes capture.buffer)
      (segment capture.buffer).2 capture.pushLoop := by
  induction hlen : capture.buffer.length using Nat.strongRecOn generalizing capture saved with
  | _ n ih =>
      cases hend : findSseEventEnd capture.buffer with
      | none =>
          rw [pushLoop_of_none hend, segment_of_none hend]
          exact handleOversizedIncompleteEvent_settled h hbytes hroom hdisc hend
      | some eventEnd =>
          have hbounds := findSseEventEnd_bounds hend
          have hrecords : records maxEventBytes capture.buffer
              = clip maxEventBytes (capture.buffer.take eventEnd)
                :: records maxEventBytes (capture.buffer.drop eventEnd) := by
            rw [records, segment_of_some hend]
            rfl
          have hsaved := (h.of_eq (capture.buffer.drop eventEnd) capture.discardingOversizedEvent).saveEvent
            hroom (capture.buffer.take eventEnd)
          rw [pushLoop_of_some hend, segment_of_some hend, hrecords, List.append_cons]
          dsimp only
          rw [if_neg (by simp [hdisc])]
          split
          · rename_i hlimit
            have hfull := (hsaved.captureLimitReached_iff hbytes).mp hlimit
            refine ⟨(hsaved.append_of_full hfull _).of_eq _ _, fun hless => ?_⟩
            rw [List.length_append] at hless
            omega
          · rename_i hlimit
            rw [hsaved.captureLimitReached_iff hbytes, Nat.not_le] at hlimit
            have hrest := ih (capture.buffer.length - eventEnd) (by omega) hsaved hlimit
              (by rw [saveEvent_eq]; exact hdisc) (by simp [saveEvent_buffer])
            simpa only [saveEvent_buffer] using hrest

/-- In the discarding mode the loop skips the rest of the oversized event. -/
theorem pushLoop_discarding {eventEnd : Nat} (hdisc : capture.discardingOversizedEvent = true)
    (hend : findSseEventEnd capture.buffer = some eventEnd) :
    capture.pushLoop = pushLoop { capture with
      buffer := capture.buffer.drop eventEnd, discardingOversizedEvent := false } := by
  rw [pushLoop_of_some hend]
  dsimp only
  rw [if_pos hdisc]

end

/-- A capture and the stream pushed into it so far. -/
def Tracks (maxEvents maxEventBytes : Nat) (stream : List UInt8) (capture : SseCapture) : Prop :=
  Settled maxEvents maxEventBytes (records maxEventBytes stream) (segment stream).2 capture

section

variable {maxEvents maxEventBytes : Nat} {stream : List UInt8} {capture : SseCapture}

theorem start_tracks (maxEvents maxEventBytes : Nat) :
    Tracks maxEvents maxEventBytes [] (.start maxEvents maxEventBytes) := by
  have hsegment : segment [] = ([], []) := segment_of_none rfl
  have hrecords : records maxEventBytes [] = [] := by simp [records, hsegment]
  unfold Tracks
  rw [hrecords, hsegment]
  exact ⟨⟨rfl, rfl, rfl, by simp [SseCapture.start, eventMessages], by simp [SseCapture.start]⟩,
    fun _ => ⟨rfl, [], rfl, Or.inl rfl⟩⟩

/-- A push in the discarding mode: the kept suffix finds the terminator of the whole event. -/
theorem pushLoop_tracks_discarding (h : Tracks maxEvents maxEventBytes stream capture)
    (hbytes : maxEventBytes ≠ 0) (hroom : (records maxEventBytes stream).length < maxEvents)
    (hover : (segment stream).2.length > maxEventBytes) (bytes : List UInt8) :
    Tracks maxEvents maxEventBytes (stream ++ bytes)
      (pushLoop { capture with buffer := capture.buffer ++ bytes }) := by
  obtain ⟨hdisc, cut, hcut, hsuffix⟩ := h.keeps hroom
  simp only [hover, decide_true] at hdisc
  -- where the whole event ends, in terms of the kept suffix
  have hfind : findSseEventEnd ((segment stream).2 ++ bytes)
      = (findSseEventEnd (capture.buffer ++ bytes)).map (cut.length + ·) := by
    rcases hsuffix with rfl | ⟨-, hthree⟩
    · simp [hcut]
    · have hnone := findSseEventEnd_remainder stream
      rw [hcut] at hnone ⊢
      exact findSseEventEnd_suffix cut hnone hthree bytes
  unfold Tracks
  cases hend : findSseEventEnd (capture.buffer ++ bytes) with
  | none =>
      rw [hend, Option.map_none] at hfind
      rw [pushLoop_of_none hend, handleOversizedIncompleteEvent_of_small (Or.inl (by exact hdisc)),
        records_append_over_none hover hfind, segment_append, segment_of_none hfind]
      refine ⟨h.toSent.of_eq _ _, fun _ => ⟨?_, cut, ?_, ?_⟩⟩
      · simp only [hdisc, List.length_append]
        symm
        rw [decide_eq_true_eq]
        omega
      · rw [hcut, List.append_assoc]
      · rcases hsuffix with rfl | ⟨-, hthree⟩
        · exact Or.inl rfl
        · right
          simp only [List.length_append]
          omega
  | some eventEnd =>
      rw [hend, Option.map_some] at hfind
      have hdrop : ((segment stream).2 ++ bytes).drop (cut.length + eventEnd)
          = (capture.buffer ++ bytes).drop eventEnd := by
        rw [hcut, List.append_assoc, ← List.drop_drop, List.drop_left]
      have hskip := @pushLoop_discarding { capture with buffer := capture.buffer ++ bytes } eventEnd
        hdisc hend
      rw [hskip, records_append_over_some hover hfind, segment_append,
        segment_of_some hfind, hdrop]
      exact pushLoop_settled (h.toSent.of_eq _ _) hbytes hroom rfl

/-- **One push keeps the capture in step with the stream.** -/
theorem push_tracks (h : Tracks maxEvents maxEventBytes stream capture) (hbytes : maxEventBytes ≠ 0)
    (bytes : List UInt8) :
    Tracks maxEvents maxEventBytes (stream ++ bytes) (capture.push bytes) := by
  unfold SseCapture.push
  by_cases hlimit : capture.captureLimitReached = true
  · rw [if_pos (by simp [hlimit])]
    have hfull := (h.captureLimitReached_iff hbytes).mp hlimit
    obtain ⟨more, hmore⟩ := records_prefix maxEventBytes stream bytes
    unfold Tracks
    rw [hmore]
    refine ⟨h.toSent.append_of_full hfull more, fun hless => ?_⟩
    rw [List.length_append] at hless
    omega
  · rw [if_neg (by simp [hlimit, h.unfinished])]
    have hroom : (records maxEventBytes stream).length < maxEvents := by
      rw [h.captureLimitReached_iff hbytes] at hlimit
      omega
    by_cases hover : (segment stream).2.length > maxEventBytes
    · exact pushLoop_tracks_discarding h hbytes hroom hover bytes
    · obtain ⟨hdisc, cut, hcut, hsuffix⟩ := h.keeps hroom
      have hnil : cut = [] := by
        rcases hsuffix with hnil | ⟨habs, -⟩
        · exact hnil
        · exact absurd habs hover
      rw [hnil, List.nil_append] at hcut
      unfold Tracks
      rw [records_append (by omega), segment_append, hcut]
      exact pushLoop_settled (h.toSent.of_eq _ _) hbytes hroom (by simp [hdisc, hover])

theorem foldl_push_tracks (h : Tracks maxEvents maxEventBytes stream capture)
    (hbytes : maxEventBytes ≠ 0) (chunks : List (List UInt8)) :
    Tracks maxEvents maxEventBytes (stream ++ chunks.flatten) (chunks.foldl SseCapture.push capture) := by
  induction chunks generalizing stream capture with
  | nil => simpa using h
  | cons chunk chunks ih =>
      rw [List.flatten_cons, ← List.append_assoc, List.foldl_cons]
      exact ih (push_tracks h hbytes chunk)

/-- At the end of the stream the remainder is sent, if there is one that was not recorded yet. -/
theorem finish_sent (h : Tracks maxEvents maxEventBytes stream capture) (hbytes : maxEventBytes ≠ 0) :
    capture.finish.sent = streamMessages maxEvents maxEventBytes stream := by
  unfold streamMessages
  rw [if_neg hbytes]
  by_cases hroom : (records maxEventBytes stream).length < maxEvents
  · have hlimit : capture.captureLimitReached = false := by
      rw [← Bool.not_eq_true, h.captureLimitReached_iff hbytes]
      omega
    obtain ⟨hdisc, cut, hcut, hsuffix⟩ := h.keeps hroom
    by_cases hover : (segment stream).2.length > maxEventBytes
    · simp [finish, h.unfinished, hdisc, hover, h.sent_eq, partialMessages, Nat.not_le.mpr hover]
    · have hnil : cut = [] := by
        rcases hsuffix with hnil | ⟨habs, -⟩
        · exact hnil
        · exact absurd habs hover
      rw [hnil, List.nil_append] at hcut
      rw [hcut] at hover ⊢
      by_cases hempty : capture.buffer = []
      · simp [finish, h.unfinished, hempty, h.sent_eq, partialMessages]
      · simp [finish, h.unfinished, hcut, hdisc, hover, hlimit, hempty, h.sent_eq, partialMessages,
          hroom, Nat.not_lt.mp hover, h.maxEventBytes_eq]
  · have hlimit : capture.captureLimitReached = true := by
      rw [h.captureLimitReached_iff hbytes]
      omega
    simp [finish, h.unfinished, hlimit, h.sent_eq, partialMessages, hroom]

end

/-- With an event size limit of zero nothing is ever sent. -/
theorem foldl_push_of_zero {capture : SseCapture} (h : capture.maxEventBytes = 0)
    (chunks : List (List UInt8)) : chunks.foldl SseCapture.push capture = capture := by
  induction chunks with
  | nil => rfl
  | cons chunk chunks ih =>
      rw [List.foldl_cons]
      have hpush : capture.push chunk = capture := by simp [SseCapture.push, captureLimitReached, h]
      rw [hpush]
      exact ih

end Push

/-- A fresh capture after the chunks. -/
abbrev pushed (maxEvents maxEventBytes : Nat) (chunks : List (List UInt8)) : SseCapture :=
  chunks.foldl SseCapture.push (.start maxEvents maxEventBytes)

/-- **What is captured is a function of the stream.** -/
theorem capturedMessages_eq (maxEvents maxEventBytes : Nat) (chunks : List (List UInt8)) :
    capturedMessages maxEvents maxEventBytes chunks
      = streamMessages maxEvents maxEventBytes chunks.flatten := by
  unfold capturedMessages
  by_cases hbytes : maxEventBytes = 0
  · rw [foldl_push_of_zero (by exact hbytes)]
    simp [SseCapture.finish, SseCapture.start, streamMessages, hbytes]
  · have htracks := foldl_push_tracks (start_tracks maxEvents maxEventBytes) hbytes chunks
    exact finish_sent htracks hbytes

/-- **Framing independence.** Two ways to cut the same stream into chunks send the same messages. -/
theorem capturedMessages_framing (maxEvents maxEventBytes : Nat)
    (chunks chunks' : List (List UInt8)) (h : chunks.flatten = chunks'.flatten) :
    capturedMessages maxEvents maxEventBytes chunks
      = capturedMessages maxEvents maxEventBytes chunks' := by
  rw [capturedMessages_eq, capturedMessages_eq, h]

/-- A terminator split over three chunks, one of them empty, in an event over the limit. -/
theorem capturedMessages_framing_split :
    [[100, 97, 13], [10, 13], [], [10, 65]].flatten = [[100, 97, 13, 10, 13, 10, 65]].flatten ∧
    capturedMessages 2 3 [[100, 97, 13], [10, 13], [], [10, 65]]
      = capturedMessages 2 3 [[100, 97, 13, 10, 13, 10, 65]] :=
  ⟨rfl, capturedMessages_framing 2 3 _ _ rfl⟩

end Inspect.Sse
