import Inspect.Flow.Correctness.Dispatch

/-!
# `Flow.Correctness.BodyTransfer` — bodies that break off

A transfer can break off in the middle of a body. A body that is streamed hands the error on to the client. A body
that is collected does not: it ends normally, as an empty body, or as what was read before the error if it was being
probed. The same is done to the body of a request before it is sent.
-/

namespace Inspect.Flow

open Http Filters

/-! ## What a client receives -/

section Received

variable {N : Type}

/-- The results of at most so many polls, up to the end or an error. -/
def received : Nat → ClientBody N → List Polled
  | 0, _ => []
  | polls + 1, body =>
      if body.poll.1.isFinal then [body.poll.1] else body.poll.1 :: received polls body.poll.2

/-- The body that is wrapped. -/
def ClientBody.inner : ClientBody N → Body
  | .full body => body
  | .sse body => body.inner
  | .streaming body .. => body.inner

end Received

/-! ## Reading a body that breaks off -/

/-- Probing keeps what was read before the error, if it is not more than the threshold. -/
theorem probeLoop_of_le {threshold : Nat} (buffered : Bytes) {body : Body}
    (h : (buffered ++ body.data).length ≤ threshold) :
    probeLoop threshold buffered body = .collected (buffered ++ body.data) := by
  induction body generalizing buffered with
  | nil => rw [probeLoop, Body.data, List.append_nil]
  | cons next body ih => cases next with
    | error => rw [probeLoop, Body.data, List.append_nil]
    | pending => exact ih _ h
    | frame frame => cases frame with
      | trailers headers => exact ih _ h
      | data bytes =>
          have hdata : Body.data (.frame (.data bytes) :: body) = bytes ++ Body.data body := rfl
          rw [hdata, ← List.append_assoc] at h ⊢
          have hle : ¬ threshold < (buffered ++ bytes).length := by
            simp only [List.length_append] at h ⊢
            omega
          rw [probeLoop, if_neg hle, ih _ h]

theorem fails_append (front rest : Body) :
    Body.fails (front ++ rest) = (Body.fails front || Body.fails rest) := by
  unfold Body.fails
  rw [List.contains_append]

/-- Behind a front without an error the data goes on. -/
theorem data_append {front : Body} (h : front.fails = false) (rest : Body) :
    Body.data (front ++ rest) = front.data ++ rest.data := by
  induction front with
  | nil => rfl
  | cons next front ih => cases next with
    | error => simp [Body.fails] at h
    | pending => exact ih (by simpa [Body.fails] using h)
    | frame frame =>
        show frame.dataRef ++ Body.data (front ++ rest) = frame.dataRef ++ Body.data front ++ Body.data rest
        rw [ih (by simpa [Body.fails] using h), List.append_assoc]

@[simp] theorem data_ofBytes (bytes : Bytes) : (Body.ofBytes bytes).data = bytes := by
  unfold Body.ofBytes
  split_ifs with hnil
  · exact hnil.symm
  · exact List.append_nil bytes

/-- Probing stops at the frame with which there is more than the threshold, and leaves what is behind it. -/
theorem probeLoop_of_gt {threshold : Nat} (buffered : Bytes) {body : Body} (hbuffered : buffered.length ≤ threshold)
    (h : threshold < (buffered ++ body.data).length) :
    ∃ front rest : Body, body = front ++ rest ∧ front.fails = false ∧ threshold < (buffered ++ front.data).length
      ∧ probeLoop threshold buffered body = .stream (buffered ++ front.data) rest := by
  induction body generalizing buffered with
  | nil =>
      rw [Body.data, List.append_nil] at h
      omega
  | cons next body ih =>
      -- a poll without data is passed over
      have hskip : (∀ rest : Body, Body.data (next :: rest) = rest.data) →
          (∀ rest : Body, Body.fails (next :: rest) = rest.fails) →
          probeLoop threshold buffered (next :: body) = probeLoop threshold buffered body →
          ∃ front rest : Body, next :: body = front ++ rest ∧ front.fails = false
            ∧ threshold < (buffered ++ front.data).length
            ∧ probeLoop threshold buffered (next :: body) = .stream (buffered ++ front.data) rest := by
        intro hdata hfails hloop
        rw [hdata] at h
        obtain ⟨front, rest, hsplit, hfront, hlong, hrest⟩ := ih buffered hbuffered h
        refine ⟨next :: front, rest, by rw [hsplit, List.cons_append], ?_, ?_, ?_⟩
        · rw [hfails, hfront]
        · rw [hdata]
          exact hlong
        · rw [hloop, hdata]
          exact hrest
      cases next with
      | error =>
          rw [Body.data, List.append_nil] at h
          omega
      | pending => exact hskip (fun _ => rfl) (fun _ => by simp [Body.fails]) rfl
      | frame frame => cases frame with
        | trailers headers => exact hskip (fun _ => rfl) (fun _ => by simp [Body.fails]) rfl
        | data bytes =>
            have hdata : Body.data (.frame (.data bytes) :: body) = bytes ++ Body.data body := rfl
            rw [hdata, ← List.append_assoc] at h
            rw [probeLoop]
            by_cases hlt : threshold < (buffered ++ bytes).length
            · rw [if_pos hlt]
              refine ⟨[.frame (.data bytes)], body, rfl, rfl, ?_, ?_⟩
              · simpa [Body.data, Frame.dataRef] using hlt
              · simp [Body.data, Frame.dataRef]
            · rw [if_neg hlt]
              obtain ⟨front, rest, hsplit, hfails, hlong, hloop⟩ := ih _ (Nat.le_of_not_lt hlt) h
              have hfront : Body.data (.frame (.data bytes) :: front) = bytes ++ Body.data front := rfl
              refine ⟨.frame (.data bytes) :: front, rest, by rw [hsplit, List.cons_append], ?_, ?_, ?_⟩
              · simpa [Body.fails] using hfails
              · rw [hfront, ← List.append_assoc]
                exact hlong
              · rw [hfront, ← List.append_assoc]
                exact hloop

section Responses

variable {S N : Type} (dispatcher : FlowDispatcher S N) {input : ResponseDispatchInput N}

end Responses

/-! ## Requests -/

section Requests

variable {S N : Type} (dispatcher : FlowDispatcher S N)

end Requests

/-! ## Main result -/

section Main

variable {N : Type} [BEq N] (dispatcher : FlowDispatcher FilterRuntimeState N)
  (regex : Str → Option (Str → Str → Str)) (set : CompiledFilterSet CompiledRotoFilter)

end Main

end Inspect.Flow
