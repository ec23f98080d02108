import Inspect.Flow.Correctness.SseFraming

/-!
# `Flow.Correctness.SseBuffer` — how many bytes a capture keeps

A capture that collects an event keeps `max_event_bytes` at most, and cuts its buffer down to three bytes when the
event is over the limit. From then on it discards, and waits for the terminator of the event; while it waits it keeps
every byte that is pushed.
-/

namespace Inspect.Sse

open SseCapture

/-- The bound on the buffer. -/
def Bounded (capture : SseCapture) : Prop := capture.buffer.length ≤ max capture.maxEventBytes 3

/-- The push does not wait for the end of an oversized event, or what it keeps is within the bound. -/
def Drains (capture : SseCapture) (chunk : List UInt8) : Prop :=
  capture.discardingOversizedEvent = true → (capture.finished || capture.captureLimitReached) = false →
    findSseEventEnd (capture.buffer ++ chunk) = none → (capture.buffer ++ chunk).length ≤ max capture.maxEventBytes 3

/-! ## One push -/

section

variable {capture : SseCapture}

@[simp] theorem saveEvent_maxEventBytes (event : List UInt8) :
    (capture.saveEvent event).maxEventBytes = capture.maxEventBytes := by
  rw [saveEvent_eq]

@[simp] theorem handleOversizedIncompleteEvent_maxEventBytes :
    capture.handleOversizedIncompleteEvent.maxEventBytes = capture.maxEventBytes := by
  unfold handleOversizedIncompleteEvent
  split_ifs
  all_goals rfl

/-- No push changes the limit. -/
theorem pushLoop_maxEventBytes : capture.pushLoop.maxEventBytes = capture.maxEventBytes := by
  induction hlen : capture.buffer.length using Nat.strongRecOn generalizing capture with
  | _ n ih =>
      cases hend : findSseEventEnd capture.buffer with
      | none => rw [pushLoop_of_none hend, handleOversizedIncompleteEvent_maxEventBytes]
      | some eventEnd =>
          have hbounds := findSseEventEnd_bounds hend
          rw [pushLoop_of_some hend]
          dsimp only
          split_ifs
          · exact ih (capture.buffer.length - eventEnd) (by omega) (List.length_drop ..)
          · exact saveEvent_maxEventBytes _
          · refine (ih (capture.buffer.length - eventEnd) (by omega) ?_).trans (saveEvent_maxEventBytes _)
            rw [saveEvent_buffer, List.length_drop]

theorem push_maxEventBytes (chunk : List UInt8) : (capture.push chunk).maxEventBytes = capture.maxEventBytes := by
  unfold push
  split_ifs
  · rfl
  · exact pushLoop_maxEventBytes

/-- Without a terminator, a capture that collects cuts its buffer down. -/
theorem handleOversizedIncompleteEvent_bounded (hdisc : capture.discardingOversizedEvent = false)
    (hbytes : capture.maxEventBytes ≠ 0) : Bounded capture.handleOversizedIncompleteEvent := by
  unfold handleOversizedIncompleteEvent
  rw [if_neg (by simp [hdisc, hbytes])]
  split_ifs with hsmall
  · exact le_max_of_le_left hsmall
  · apply le_max_of_le_right
    show (capture.buffer.drop (capture.buffer.length - 3)).length ≤ 3
    rw [List.length_drop]
    omega

/-- **Collecting is bounded**: every turn of the loop takes an event off the buffer, and the last one cuts it down. -/
theorem pushLoop_bounded (hdisc : capture.discardingOversizedEvent = false) (hbytes : capture.maxEventBytes ≠ 0) :
    Bounded capture.pushLoop := by
  induction hlen : capture.buffer.length using Nat.strongRecOn generalizing capture with
  | _ n ih =>
      cases hend : findSseEventEnd capture.buffer with
      | none =>
          rw [pushLoop_of_none hend]
          exact handleOversizedIncompleteEvent_bounded hdisc hbytes
      | some eventEnd =>
          have hbounds := findSseEventEnd_bounds hend
          rw [pushLoop_of_some hend]
          dsimp only
          rw [if_neg (by simp [hdisc])]
          split_ifs
          · exact Nat.zero_le _
          · apply ih (capture.buffer.length - eventEnd) (by omega)
            · rw [saveEvent_eq]
              exact hdisc
            · rw [saveEvent_maxEventBytes]
              exact hbytes
            · rw [saveEvent_buffer, List.length_drop]

/-- **One push** keeps the bound if and only if it does not wait for the end of an oversized event with more bytes
    than that. -/
theorem push_bounded_iff (h : Bounded capture) (chunk : List UInt8) :
    Bounded (capture.push chunk) ↔ Drains capture chunk := by
  unfold push Drains
  by_cases hstopped : (capture.finished || capture.captureLimitReached) = true
  · rw [if_pos hstopped]
    refine iff_of_true h ?_
    intro _ hrunning
    rw [hstopped] at hrunning
    cases hrunning
  · rw [if_neg hstopped]
    have hbytes : capture.maxEventBytes ≠ 0 := by
      intro hzero
      apply hstopped
      simp [captureLimitReached, hzero]
    by_cases hdisc : capture.discardingOversizedEvent = true
    · cases hend : findSseEventEnd (capture.buffer ++ chunk) with
      | none =>
          rw [pushLoop_of_none hend, handleOversizedIncompleteEvent_of_small (Or.inl (by exact hdisc))]
          exact ⟨fun hbounded _ _ _ => hbounded, fun hdrains => hdrains hdisc (eq_false_of_ne_true hstopped) rfl⟩
      | some eventEnd =>
          have hskip := @pushLoop_discarding { capture with buffer := capture.buffer ++ chunk } eventEnd hdisc hend
          rw [hskip]
          refine iff_of_true (pushLoop_bounded rfl hbytes) ?_
          rintro - - ⟨⟩
    · refine iff_of_true (pushLoop_bounded (eq_false_of_ne_true hdisc) hbytes) ?_
      intro hdiscarding
      exact absurd hdiscarding hdisc

end

/-! ## Whole runs -/

theorem foldl_push_maxEventBytes (capture : SseCapture) (chunks : List (List UInt8)) :
    (chunks.foldl push capture).maxEventBytes = capture.maxEventBytes := by
  induction chunks generalizing capture with
  | nil => rfl
  | cons chunk chunks ih => exact (ih (capture.push chunk)).trans (push_maxEventBytes chunk)

theorem bounded_pushed {maxEvents maxEventBytes : Nat} {chunks : List (List UInt8)} :
    Bounded (pushed maxEvents maxEventBytes chunks)
      ↔ (pushed maxEvents maxEventBytes chunks).buffer.length ≤ max maxEventBytes 3 := by
  unfold Bounded
  rw [foldl_push_maxEventBytes]
  rfl

/-- **When the buffer is bounded.** After every push of a run the buffer has `max(max_event_bytes, 3)` bytes at most, if
    and only if no push of the run waits for the end of an oversized event with more bytes than that. -/
theorem buffer_bounded_iff (maxEvents maxEventBytes : Nat) (chunks : List (List UInt8)) :
    (∀ front, front <+: chunks → (pushed maxEvents maxEventBytes front).buffer.length ≤ max maxEventBytes 3)
      ↔ ∀ front chunk, front ++ [chunk] <+: chunks → Drains (pushed maxEvents maxEventBytes front) chunk := by
  have hstep : ∀ front chunk, pushed maxEvents maxEventBytes (front ++ [chunk])
      = (pushed maxEvents maxEventBytes front).push chunk := fun front chunk => List.foldl_concat ..
  constructor
  · intro hbounded front chunk hfront
    have hbefore := bounded_pushed.mpr (hbounded front ((List.prefix_append front [chunk]).trans hfront))
    have hafter := bounded_pushed.mpr (hbounded _ hfront)
    rw [hstep] at hafter
    exact (push_bounded_iff hbefore chunk).mp hafter
  · intro hdrains front hfront
    apply bounded_pushed.mp
    induction front using List.reverseRecOn with
    | nil => exact Nat.zero_le _
    | append_singleton front chunk ih =>
        rw [hstep]
        exact (push_bounded_iff (ih ((List.prefix_append front [chunk]).trans hfront)) chunk).mpr
          (hdrains front chunk hfront)

/-- Five bytes of an event without an end, with a limit of one. -/
theorem endless_event_not_bounded :
    ¬∀ (maxEvents maxEventBytes : Nat) (chunks : List (List UInt8)),
      ∀ front, front <+: chunks → (pushed maxEvents maxEventBytes front).buffer.length ≤ max maxEventBytes 3 := by
  intro h
  have hbounded := h 2 1 [[65, 65], [65, 65, 65]] _ List.prefix_rfl
  exact absurd hbounded (by decide +kernel)

end Inspect.Sse
