import Inspect.Flow.Correctness.SseFraming

/-!
# `Flow.Correctness.SseSegments` — what is captured of a stream

`streamMessages` says what is sent for a stream. Here it is compared with the stream itself: within the limits the
events and the remainder together are the stream, and no limit is passed. The remainder that `finish` sends is not the
bytes of the stream: `truncate_event` puts its notice behind every event it is given, and `finish` gives it every one.
-/

namespace Inspect.Sse

/-! ## Events and their ends -/

/-- A complete event: its terminator is its end, and no shorter part of it has one. -/
structure CompleteEvent (event : List UInt8) : Prop where
  ends : findSseEventEnd event = some event.length
  first : ∀ front, front <+: event → front ≠ event → findSseEventEnd front = none

/-- An event that is cut off at its terminator is complete. -/
theorem completeEvent_take {stream : List UInt8} {eventEnd : Nat} (h : findSseEventEnd stream = some eventEnd) :
    CompleteEvent (stream.take eventEnd) := by
  have hbounds := findSseEventEnd_bounds h
  have hlen : (stream.take eventEnd).length = eventEnd := List.length_take_of_le hbounds.2
  have hends : findSseEventEnd (stream.take eventEnd) = some (stream.take eventEnd).length := by
    rw [hlen]
    apply findSseEventEnd_of_append (y := stream.drop eventEnd)
    · rw [List.take_append_drop]
      exact h
    · exact hlen.ge
  refine ⟨hends, ?_⟩
  intro front hfront hne
  cases hearly : findSseEventEnd front with
  | none => rfl
  | some n =>
      -- the end in the front would be that of the whole event
      obtain ⟨rest, hrest⟩ := hfront
      have hwhole := findSseEventEnd_append hearly rest
      rw [hrest, hends] at hwhole
      cases hwhole
      have hle := (findSseEventEnd_bounds hearly).2
      rw [← hrest, List.length_append] at hle
      have hnil : rest = [] := List.length_eq_zero_iff.mp (by omega)
      rw [hnil, List.append_nil] at hrest
      exact absurd hrest hne

/-- **Cutting loses nothing**: the events and the remainder are the stream. -/
theorem segment_flatten (stream : List UInt8) : (segment stream).1.flatten ++ (segment stream).2 = stream := by
  induction hlen : stream.length using Nat.strongRecOn generalizing stream with
  | _ n ih =>
      cases hend : findSseEventEnd stream with
      | none =>
          rw [segment_of_none hend]
          rfl
      | some eventEnd =>
          have hbounds := findSseEventEnd_bounds hend
          have hrest := ih (stream.drop eventEnd).length (by rw [List.length_drop]; omega) _ rfl
          rw [segment_of_some hend, List.flatten_cons, List.append_assoc, hrest, List.take_append_drop]

/-- All events of a stream are complete. -/
theorem completeEvent_of_mem_segment {stream event : List UInt8} (h : event ∈ (segment stream).1) :
    CompleteEvent event := by
  induction hlen : stream.length using Nat.strongRecOn generalizing stream with
  | _ n ih =>
      cases hend : findSseEventEnd stream with
      | none =>
          rw [segment_of_none hend] at h
          cases h
      | some eventEnd =>
          have hbounds := findSseEventEnd_bounds hend
          rw [segment_of_some hend] at h
          rcases List.mem_cons.mp h with rfl | htail
          · exact completeEvent_take hend
          · exact ih (stream.drop eventEnd).length (by rw [List.length_drop]; omega) htail rfl

/-! ## The messages of events -/

/-- The events among the messages, with their sequence numbers. -/
def eventsOf (messages : List SseCaptureMessage) : List (Nat × List UInt8) :=
  messages.filterMap fun
    | .event sequence bytes => some (sequence, bytes)
    | .partialBytes _ => none

theorem eventsOf_append (messages more : List SseCaptureMessage) :
    eventsOf (messages ++ more) = eventsOf messages ++ eventsOf more := List.filterMap_append

theorem eventsOf_eventMessages (saved : List (List UInt8)) :
    eventsOf (eventMessages saved) = saved.mapIdx fun i bytes => (i + 1, bytes) := by
  induction saved using List.reverseRecOn with
  | nil => rfl
  | append_singleton saved event ih =>
      rw [← eventMessages_concat, eventsOf_append, ih, List.mapIdx_concat]
      rfl

/-- Event messages carry the events in order. -/
theorem eventsOf_bytes (saved : List (List UInt8)) : (eventsOf (eventMessages saved)).map Prod.snd = saved := by
  rw [eventsOf_eventMessages]
  apply List.ext_getElem
  · simp
  · intro i h h'
    simp

/-- Event messages are numbered from one. -/
theorem eventsOf_sequence (saved : List (List UInt8)) :
    (eventsOf (eventMessages saved)).map Prod.fst = List.range' 1 saved.length := by
  rw [eventsOf_eventMessages]
  apply List.ext_getElem
  · simp
  · intro i h h'
    simp [Nat.add_comm]

theorem eventsOf_partialMessages (maxEvents maxEventBytes saved : Nat) (rest : List UInt8) :
    eventsOf (partialMessages maxEvents maxEventBytes saved rest) = [] := by
  unfold partialMessages
  split_ifs
  · rfl
  · rfl

/-- No more events are sent than `maxEvents`. -/
theorem eventsOf_streamMessages_length (maxEvents maxEventBytes : Nat) (stream : List UInt8) :
    (eventsOf (streamMessages maxEvents maxEventBytes stream)).length ≤ maxEvents := by
  unfold streamMessages
  by_cases hbytes : maxEventBytes = 0
  · rw [if_pos hbytes]
    exact Nat.zero_le _
  · rw [if_neg hbytes, eventsOf_append, eventsOf_partialMessages, List.append_nil, ← List.length_map Prod.snd,
      eventsOf_bytes, List.length_take]
    exact Nat.min_le_left _ _

/-! ## Streams within the limits -/

/-- A stream for which no limit is reached. -/
structure WithinLimits (maxEvents maxEventBytes : Nat) (stream : List UInt8) : Prop where
  positive : 1 ≤ maxEventBytes
  events : ∀ event ∈ (segment stream).1, event.length ≤ maxEventBytes
  remainder : (segment stream).2.length ≤ maxEventBytes
  count : (segment stream).1.length < maxEvents

section

variable {maxEvents maxEventBytes : Nat} {stream : List UInt8}

/-- Within the limits the events are recorded as they are. -/
theorem WithinLimits.records_eq (h : WithinLimits maxEvents maxEventBytes stream) :
    records maxEventBytes stream = (segment stream).1 := by
  have hremainder := h.remainder
  unfold records
  rw [if_neg (by omega), List.append_nil]
  calc (segment stream).1.map (clip maxEventBytes)
      = (segment stream).1.map id := by
        apply List.map_congr_left
        intro event hevent
        rw [clip, if_neg (Nat.not_lt.mpr (h.events event hevent))]
        rfl
    _ = (segment stream).1 := List.map_id _

/-- A capture of a stream within the limits: the events are sent, the remainder is in the buffer. -/
theorem Tracks.of_withinLimits {capture : SseCapture} (h : Tracks maxEvents maxEventBytes stream capture)
    (hwithin : WithinLimits maxEvents maxEventBytes stream) :
    capture.sent = eventMessages (segment stream).1 ∧ capture.buffer = (segment stream).2 := by
  have hcount := hwithin.count
  constructor
  · rw [h.sent_eq, hwithin.records_eq, List.take_of_length_le (by omega)]
  · obtain ⟨-, cut, hcut, hsuffix⟩ := h.keeps (by rw [hwithin.records_eq]; exact hcount)
    rcases hsuffix with rfl | ⟨hover, -⟩
    · exact hcut.symm
    · exact absurd hover (Nat.not_lt.mpr hwithin.remainder)

end

/-- **Segmentation is lossless.** However a stream within the limits is cut into chunks, the events sent and the
    buffer together are the stream, every event is complete, and the events are numbered from one. For every stream
    and all limits, no more events are sent than `max_events`. -/
theorem capture_lossless (maxEvents maxEventBytes : Nat) (chunks : List (List UInt8)) :
    (WithinLimits maxEvents maxEventBytes chunks.flatten →
      ((eventsOf (pushed maxEvents maxEventBytes chunks).sent).map Prod.snd).flatten
          ++ (pushed maxEvents maxEventBytes chunks).buffer = chunks.flatten
        ∧ (∀ event ∈ (eventsOf (pushed maxEvents maxEventBytes chunks).sent).map Prod.snd, CompleteEvent event)
        ∧ (eventsOf (pushed maxEvents maxEventBytes chunks).sent).map Prod.fst
          = List.range' 1 (eventsOf (pushed maxEvents maxEventBytes chunks).sent).length)
      ∧ (eventsOf (pushed maxEvents maxEventBytes chunks).finish.sent).length ≤ maxEvents := by
  constructor
  · intro hwithin
    have htracks : Tracks maxEvents maxEventBytes chunks.flatten (pushed maxEvents maxEventBytes chunks) :=
      foldl_push_tracks (start_tracks maxEvents maxEventBytes) (Nat.ne_of_gt hwithin.positive) chunks
    obtain ⟨hsent, hbuffer⟩ := htracks.of_withinLimits hwithin
    have hlen : (eventsOf (eventMessages (segment chunks.flatten).1)).length = (segment chunks.flatten).1.length := by
      rw [← List.length_map Prod.snd, eventsOf_bytes]
    rw [hsent, hbuffer, eventsOf_bytes, eventsOf_sequence, hlen]
    exact ⟨segment_flatten _, fun event hevent => completeEvent_of_mem_segment hevent, rfl⟩
  · show (eventsOf (capturedMessages maxEvents maxEventBytes chunks)).length ≤ maxEvents
    rw [capturedMessages_eq]
    exact eventsOf_streamMessages_length maxEvents maxEventBytes chunks.flatten

/-- An event in two chunks, and a remainder. -/
theorem capture_lossless_split :
    WithinLimits 2 8 [[100, 10], [10, 101]].flatten
      ∧ (eventsOf (pushed 2 8 [[100, 10], [10, 101]]).sent).map Prod.fst
        = List.range' 1 (eventsOf (pushed 2 8 [[100, 10], [10, 101]]).sent).length := by
  have hsegment : segment [[100, 10], [10, 101]].flatten = ([[100, 10, 10]], [101]) := by
    rw [segment_of_some (show _ = some 3 from rfl), segment_of_none rfl]
    rfl
  have hwithin : WithinLimits 2 8 [[100, 10], [10, 101]].flatten := by
    refine ⟨by decide, ?_, ?_, ?_⟩
    · rw [hsegment]
      decide
    · rw [hsegment]
      decide
    · rw [hsegment]
      decide
  exact ⟨hwithin, ((capture_lossless 2 8 [[100, 10], [10, 101]]).1 hwithin).2.2⟩

/-! ## The notice -/

/-- What is sent of an event: the event, or, if it is over the limit, its front with the notice. -/
def CutHonestly (maxEventBytes : Nat) (event bytes : List UInt8) : Prop :=
  bytes = event ∨ maxEventBytes < event.length ∧ bytes = truncateEvent event maxEventBytes

/-- The messages of a stream are its events, and its remainder, with a notice only where bytes were cut. -/
structure FaithfulMessages (maxEventBytes : Nat) (stream : List UInt8) (messages : List SseCaptureMessage) : Prop where
  events : ∀ sequence bytes, .event sequence bytes ∈ messages →
    ∃ event, ((segment stream).1 ++ [(segment stream).2])[sequence - 1]? = some event
      ∧ CutHonestly maxEventBytes event bytes
  remainder : ∀ bytes, .partialBytes bytes ∈ messages →
    ((segment stream).2.length ≤ maxEventBytes → bytes = (segment stream).2)
      ∧ CutHonestly maxEventBytes (segment stream).2 bytes

/-- The stream ends inside an event that is within the limit, while there is room for another event. -/
structure LeavesPartial (maxEvents maxEventBytes : Nat) (stream : List UInt8) : Prop where
  positive : 1 ≤ maxEventBytes
  count : (segment stream).1.length < maxEvents
  nonempty : (segment stream).2 ≠ []
  remainder : (segment stream).2.length ≤ maxEventBytes

section

variable {maxEvents maxEventBytes : Nat} {stream : List UInt8}

/-- The notice makes an event that is not cut longer. -/
theorem truncateEvent_ne {event : List UInt8} (h : event.length ≤ maxEventBytes) :
    truncateEvent event maxEventBytes ≠ event := by
  intro heq
  have hlen := congrArg List.length heq
  unfold truncateEvent asciiBytes at hlen
  simp only [List.take_of_length_le h, List.length_append, List.length_map] at hlen
  have hnotice : 0 < ("\n<< inspect SSE event capture truncated: max_event_bytes=".toList).length := by decide
  omega

theorem clip_cutHonestly (event : List UInt8) : CutHonestly maxEventBytes event (clip maxEventBytes event) := by
  unfold clip
  by_cases hover : event.length > maxEventBytes
  · rw [if_pos hover]
    exact Or.inr ⟨hover, rfl⟩
  · rw [if_neg hover]
    exact Or.inl rfl

/-- A record is what was cut of the event in its place. -/
theorem records_cutHonestly {i : Nat} {bytes : List UInt8} (h : (records maxEventBytes stream)[i]? = some bytes) :
    ∃ event, ((segment stream).1 ++ [(segment stream).2])[i]? = some event
      ∧ CutHonestly maxEventBytes event bytes := by
  -- the records are a front of the clipped events, the remainder being the last
  have hfront : records maxEventBytes stream
      <+: ((segment stream).1 ++ [(segment stream).2]).map (clip maxEventBytes) := by
    rw [List.map_append, records]
    apply (List.prefix_append_right_inj _).mpr
    split_ifs
    · exact List.prefix_rfl
    · exact List.nil_prefix
  obtain ⟨rest, hrest⟩ := hfront
  obtain ⟨hlt, -⟩ := List.getElem?_eq_some_iff.mp h
  have hget : (((segment stream).1 ++ [(segment stream).2]).map (clip maxEventBytes))[i]? = some bytes := by
    rw [← hrest, List.getElem?_append_left hlt]
    exact h
  rw [List.getElem?_map] at hget
  obtain ⟨event, hevent, rfl⟩ := Option.map_eq_some_iff.mp hget
  exact ⟨event, hevent, clip_cutHonestly event⟩

/-- The message of a saved event. -/
theorem getElem?_of_mem_eventMessages {saved : List (List UInt8)} {sequence : Nat} {bytes : List UInt8}
    (h : .event sequence bytes ∈ eventMessages saved) : saved[sequence - 1]? = some bytes := by
  obtain ⟨i, hi, heq⟩ := List.mem_mapIdx.mp h
  cases heq
  exact List.getElem?_eq_getElem hi

theorem partialBytes_notMem_eventMessages {saved : List (List UInt8)} {bytes : List UInt8} :
    .partialBytes bytes ∉ eventMessages saved := by
  intro h
  obtain ⟨i, hi, heq⟩ := List.mem_mapIdx.mp h
  cases heq

/-- What is sent at the end of a stream. -/
theorem partialMessages_eq (maxEvents maxEventBytes : Nat) (stream : List UInt8) (hbytes : maxEventBytes ≠ 0) :
    (LeavesPartial maxEvents maxEventBytes stream
        ∧ partialMessages maxEvents maxEventBytes (records maxEventBytes stream).length (segment stream).2
          = [.partialBytes (truncateEvent (segment stream).2 maxEventBytes)])
      ∨ (¬LeavesPartial maxEvents maxEventBytes stream
        ∧ partialMessages maxEvents maxEventBytes (records maxEventBytes stream).length (segment stream).2 = []) := by
  unfold partialMessages
  by_cases hremainder : (segment stream).2.length ≤ maxEventBytes
  · have hcount : (records maxEventBytes stream).length = (segment stream).1.length := by
      rw [records, if_neg (Nat.not_lt.mpr hremainder), List.append_nil, List.length_map]
    rw [hcount]
    by_cases hsent : (segment stream).1.length < maxEvents ∧ (segment stream).2 ≠ []
        ∧ (segment stream).2.length ≤ maxEventBytes
    · rw [if_pos hsent]
      exact Or.inl ⟨⟨Nat.one_le_iff_ne_zero.mpr hbytes, hsent.1, hsent.2.1, hsent.2.2⟩, rfl⟩
    · rw [if_neg hsent]
      exact Or.inr ⟨fun h => hsent ⟨h.count, h.nonempty, h.remainder⟩, rfl⟩
  · rw [if_neg (fun h => hremainder h.2.2)]
    exact Or.inr ⟨fun h => hremainder h.remainder, rfl⟩

end

/-- The message of an unfinished event says that it is cut although it is not. -/
theorem not_faithful_of_leavesPartial {maxEvents maxEventBytes : Nat} {stream : List UInt8}
    (h : LeavesPartial maxEvents maxEventBytes stream) :
    ¬FaithfulMessages maxEventBytes stream (streamMessages maxEvents maxEventBytes stream) := by
  intro hfaithful
  have hbytes : maxEventBytes ≠ 0 := Nat.one_le_iff_ne_zero.mp h.positive
  rcases partialMessages_eq maxEvents maxEventBytes stream hbytes with ⟨-, hsent⟩ | ⟨hleaves, -⟩
  · have hmem : .partialBytes (truncateEvent (segment stream).2 maxEventBytes)
        ∈ streamMessages maxEvents maxEventBytes stream := by
      unfold streamMessages
      rw [if_neg hbytes, hsent]
      exact List.mem_append_right _ List.mem_cons_self
    exact truncateEvent_ne h.remainder ((hfaithful.remainder _ hmem).1 h.remainder)
  · exact hleaves h

/-- Without an unfinished event, every message is its event, or is cut and says so. -/
theorem faithful_of_not_leavesPartial {maxEvents maxEventBytes : Nat} {stream : List UInt8}
    (h : ¬LeavesPartial maxEvents maxEventBytes stream) :
    FaithfulMessages maxEventBytes stream (streamMessages maxEvents maxEventBytes stream) := by
  unfold streamMessages
  by_cases hbytes : maxEventBytes = 0
  · rw [if_pos hbytes]
    exact ⟨fun _ _ hmem => absurd hmem List.not_mem_nil, fun _ hmem => absurd hmem List.not_mem_nil⟩
  · rcases partialMessages_eq maxEvents maxEventBytes stream hbytes with ⟨hleaves, -⟩ | ⟨-, hsent⟩
    · exact absurd hleaves h
    · rw [if_neg hbytes, hsent, List.append_nil]
      refine ⟨?_, fun bytes hmem => absurd hmem partialBytes_notMem_eventMessages⟩
      intro sequence bytes hmem
      have hget := getElem?_of_mem_eventMessages hmem
      obtain ⟨hlt, -⟩ := List.getElem?_eq_some_iff.mp hget
      rw [List.getElem?_take_of_lt (by rw [List.length_take] at hlt; omega)] at hget
      exact records_cutHonestly hget

/-- **When the messages are faithful**: if and only if the stream does not end inside an event that is within the
    limit, or there is no room for another event. -/
theorem capturedMessages_faithful_iff (maxEvents maxEventBytes : Nat) (chunks : List (List UInt8)) :
    FaithfulMessages maxEventBytes chunks.flatten (capturedMessages maxEvents maxEventBytes chunks)
      ↔ ¬LeavesPartial maxEvents maxEventBytes chunks.flatten := by
  rw [capturedMessages_eq]
  constructor
  · intro hfaithful hleaves
    exact not_faithful_of_leavesPartial hleaves hfaithful
  · exact faithful_of_not_leavesPartial

/-- A stream that ends inside its first event. -/
theorem unfinished_event_not_faithful :
    ¬∀ (maxEvents maxEventBytes : Nat) (chunks : List (List UInt8)),
      FaithfulMessages maxEventBytes chunks.flatten (capturedMessages maxEvents maxEventBytes chunks) := by
  intro h
  have hfaithful := h 1 8 [[100]]
  rw [capturedMessages_eq] at hfaithful
  have hsegment : segment [[100]].flatten = ([], [100]) := segment_of_none rfl
  refine not_faithful_of_leavesPartial ⟨by decide, ?_, ?_, ?_⟩ hfaithful
  all_goals
    rw [hsegment]
    decide

end Inspect.Sse
