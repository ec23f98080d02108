import Inspect.Flow.Correctness.BodyTransfer
import Inspect.Flow.PrefixThenBody

/-!
# `Flow.Correctness.Probe` — probing a body and handing it on

A body whose length is not known is read until it ends or there is more of it than the threshold. Nothing is lost where
it is cut in two. The hint about the length of what is handed on is another matter: its two bounds are set one after
the other, and in between they can be in the wrong order.
-/

namespace Inspect.Flow

open Http

/-! ## Size hints -/

theorem toNat_saturatingAdd (a b : UInt64) : (saturatingAdd a b).toNat = min (a.toNat + b.toNat) (2 ^ 64 - 1) := by
  unfold saturatingAdd
  split
  · rename_i hlt
    rw [UInt64.toNat_add, Nat.mod_eq_of_lt hlt]
    omega
  · rename_i hge
    have hmax : u64Max.toNat = 2 ^ 64 - 1 := rfl
    rw [hmax]
    omega

/-- Adding to both bounds keeps them in order. -/
theorem saturatingAdd_le_saturatingAdd {a b : UInt64} (h : a ≤ b) (c : UInt64) :
    saturatingAdd a c ≤ saturatingAdd b c := by
  rw [UInt64.le_iff_toNat_le] at h ⊢
  rw [toNat_saturatingAdd, toNat_saturatingAdd]
  omega

theorem le_u64Max (a : UInt64) : a ≤ u64Max := by
  have hmax : u64Max.toNat = 2 ^ 64 - 1 := rfl
  have hlt := a.toNat_lt
  rw [UInt64.le_iff_toNat_le, hmax]
  omega

/-- A length that is added without saturation is added. -/
theorem toNat_saturatingAdd_length {a : UInt64} {bytes : Bytes} (h : a.toNat + bytes.length < 2 ^ 64) :
    (saturatingAdd a (UInt64.ofNat bytes.length)).toNat = a.toNat + bytes.length := by
  have hlen : (UInt64.ofNat bytes.length).toNat = bytes.length := UInt64.toNat_ofNat_of_lt' (by simp only [UInt64.size]; omega)
  rw [toNat_saturatingAdd, hlen]
  omega

/-- Neither bound runs over when the length is added to it. -/
def NoSaturation (hint : SizeHint) (start : Bytes) : Prop :=
  hint.lower.toNat + start.length < 2 ^ 64 ∧ ∀ upper ∈ hint.upper, upper.toNat + start.length < 2 ^ 64

/-- The hint can be asked for, and counts what is still to be sent of the start. -/
def SizeHintExact (self : PrefixThenBody) (hint : SizeHint) : Prop :=
  ∃ hint', self.sizeHint hint = some hint' ∧ ∀ start ∈ self.start, NoSaturation hint start →
    hint'.lower.toNat = hint.lower.toNat + start.length
      ∧ hint'.upper.map UInt64.toNat = hint.upper.map fun upper => upper.toNat + start.length

/-- The lower bound stays below an upper bound that is not it. -/
def LowerFits (self : PrefixThenBody) (hint : SizeHint) : Prop :=
  ∀ start ∈ self.start, ∀ upper ∈ hint.upper, hint.lower ≠ upper →
    saturatingAdd hint.lower (UInt64.ofNat start.length) ≤ upper

section Pending

variable {self : PrefixThenBody} {hint : SizeHint} {start : Bytes} (hstart : self.start = some start)

include hstart

/-- While the start is pending, both bounds are moved if the lower one fits. -/
theorem sizeHint_of_fits (hfits : LowerFits self hint) :
    ∃ hint', self.sizeHint hint = some hint'
      ∧ hint'.lower = saturatingAdd hint.lower (UInt64.ofNat start.length)
      ∧ hint'.upper = hint.upper.map fun upper => saturatingAdd upper (UInt64.ofNat start.length) := by
  have hfits := hfits start hstart
  unfold PrefixThenBody.sizeHint
  rw [hstart]
  obtain ⟨lower, upper, hordered⟩ := hint
  dsimp only at hfits ⊢
  cases upper with
  | none =>
      -- there is no bound to stay below
      have hset : (SizeHint.mk lower none hordered).setLower (saturatingAdd lower (UInt64.ofNat start.length))
          = some ⟨_, none, le_u64Max _⟩ := dif_pos (le_u64Max _)
      exact ⟨⟨_, none, le_u64Max _⟩, by rw [hset]; rfl, rfl, rfl⟩
  | some upper =>
      by_cases hexact : lower = upper
      · subst hexact
        have hsome : (SizeHint.mk lower (some lower) hordered).exact = some lower := if_pos rfl
        rw [hsome]
        exact ⟨_, rfl, rfl, rfl⟩
      · have hnone : (SizeHint.mk lower (some upper) hordered).exact = none :=
          if_neg fun heq => hexact (Option.some.inj heq).symm
        have hle := hfits upper rfl hexact
        have hset : (SizeHint.mk lower (some upper) hordered).setLower
            (saturatingAdd lower (UInt64.ofNat start.length)) = some ⟨_, some upper, hle⟩ := dif_pos hle
        have hmoved := saturatingAdd_le_saturatingAdd hordered (UInt64.ofNat start.length)
        rw [hnone]
        exact ⟨⟨_, some _, hmoved⟩, by rw [hset]; exact dif_pos hmoved, rfl, rfl⟩

/-- A lower bound that does not fit is refused. -/
theorem fits_of_sizeHint {hint' : SizeHint} (h : self.sizeHint hint = some hint') : LowerFits self hint := by
  unfold PrefixThenBody.sizeHint at h
  rw [hstart] at h
  rintro start' hstart' upper hupper hne
  obtain rfl := Option.some.inj (hstart.symm.trans hstart')
  have hnone : hint.exact = none := by
    refine if_neg fun heq => hne ?_
    exact Option.some.inj (heq.symm.trans hupper)
  simp only [hnone] at h
  obtain ⟨moved, hset, -⟩ := Option.bind_eq_some_iff.mp h
  unfold SizeHint.setLower at hset
  split at hset
  · rename_i hle
    rw [Option.mem_def.mp hupper] at hle
    exact hle
  · cases hset

end Pending

/-- **When the hint of a body that was read in part can be asked for**, and is exact then. -/
theorem sizeHintExact_iff (self : PrefixThenBody) (hint : SizeHint) :
    SizeHintExact self hint ↔ LowerFits self hint := by
  cases hstart : self.start with
  | none =>
      refine iff_of_true ⟨hint, ?_, ?_⟩ ?_
      · unfold PrefixThenBody.sizeHint
        rw [hstart]
      · intro start hmem
        rw [hstart] at hmem
        cases hmem
      · intro start hmem
        rw [hstart] at hmem
        cases hmem
  | some start =>
      constructor
      · rintro ⟨hint', hhint, -⟩
        exact fits_of_sizeHint hstart hhint
      · intro hfits
        obtain ⟨hint', hhint, hlower, hupper⟩ := sizeHint_of_fits hstart hfits
        refine ⟨hint', hhint, ?_⟩
        rintro start' hstart' ⟨hlowerFits, hupperFits⟩
        obtain rfl := Option.some.inj (hstart.symm.trans hstart')
        refine ⟨hlower ▸ toNat_saturatingAdd_length hlowerFits, ?_⟩
        rw [hupper, Option.map_map]
        exact Option.map_congr fun upper hmem => toNat_saturatingAdd_length (hupperFits upper hmem)

/-- Ten bytes before a body of at most five: the call panics. -/
theorem sizeHint_above_upper_panics :
    ¬ SizeHintExact ⟨some [0, 1, 2, 3, 4, 5, 6, 7, 8, 9], []⟩ ⟨0, some 5, by decide⟩ := by
  rintro ⟨hint', hhint, -⟩
  have hpanics : PrefixThenBody.sizeHint ⟨some [0, 1, 2, 3, 4, 5, 6, 7, 8, 9], []⟩ ⟨0, some 5, by decide⟩ = none := by
    decide
  rw [hpanics] at hhint
  cases hhint

/-! ## Probing -/

/-- The results of at most so many polls, up to the end or an error. -/
def pollUpTo {B : Type} (poll : B → Polled × B) : Nat → B → List Polled
  | 0, _ => []
  | polls + 1, body => if (poll body).1.isFinal then [(poll body).1] else (poll body).1 :: pollUpTo poll polls (poll body).2

/-- The data in the results of polls. -/
def dataOf (seen : List Polled) : Bytes :=
  seen.flatMap fun
    | .frame frame => frame.dataRef
    | _ => []

/-- What is received of the body that `dispatch_response` goes on with: a body in memory, or the start and the rest. -/
def ProbedResponseBody.received (polls : Nat) : ProbedResponseBody → List Polled
  | .collected bytes => pollUpTo Body.poll polls (Body.ofBytes bytes)
  | .stream start rest => pollUpTo PrefixThenBody.poll polls ⟨some start, rest⟩

/-- The polls of a body that was read in part are those of the list that stands for it. -/
theorem PrefixThenBody.pollUpTo_eq (start : Bytes) (rest : Body) (polls : Nat) :
    pollUpTo PrefixThenBody.poll polls ⟨some start, rest⟩ = pollUpTo Body.poll polls (prefixThenBody start rest) := by
  have hrest : ∀ (polls : Nat) (rest : Body),
      pollUpTo PrefixThenBody.poll polls ⟨none, rest⟩ = pollUpTo Body.poll polls rest := by
    intro polls
    induction polls with
    | zero => exact fun _ => rfl
    | succ polls ih =>
        intro rest
        have hpoll : PrefixThenBody.poll ⟨none, rest⟩ = (rest.poll.1, ⟨none, rest.poll.2⟩) := rfl
        rw [pollUpTo, pollUpTo, hpoll, ih]
  cases polls with
  | zero => rfl
  | succ polls =>
      have hpoll : PrefixThenBody.poll ⟨some start, rest⟩ = (.frame (.data start), ⟨none, rest⟩) := rfl
      have hlist : (prefixThenBody start rest).poll = (.frame (.data start), rest) := rfl
      rw [pollUpTo, pollUpTo, hpoll, hlist, hrest]

/-- A body without an error is received to its end. -/
theorem pollUpTo_results {body : Body} (h : body.fails = false) {polls : Nat} (hpolls : body.length < polls) :
    pollUpTo Body.poll polls body = body.results := by
  induction body generalizing polls with
  | nil =>
      obtain ⟨polls, rfl⟩ := Nat.exists_eq_succ_of_ne_zero (Nat.ne_of_gt hpolls)
      rfl
  | cons next body ih =>
      obtain ⟨polls, rfl⟩ := Nat.exists_eq_succ_of_ne_zero (Nat.ne_of_gt (Nat.zero_lt_of_lt hpolls))
      rw [pollUpTo, Body.results_cons]
      cases next with
      | error => simp [Body.fails] at h
      | pending =>
          rw [← ih (by simpa [Body.fails] using h) (Nat.lt_of_succ_lt_succ hpolls)]
          rfl
      | frame frame =>
          rw [← ih (by simpa [Body.fails] using h) (Nat.lt_of_succ_lt_succ hpolls)]
          rfl

/-- Its results have its data and no error. -/
theorem results_of_not_fails {body : Body} (h : body.fails = false) :
    dataOf body.results = body.data ∧ Polled.error ∉ body.results ∧ Polled.done ∈ body.results := by
  refine ⟨?_, ?_, List.mem_append_right _ List.mem_cons_self⟩
  · induction body with
    | nil => rfl
    | cons next body ih =>
        rw [Body.results_cons]
        cases next with
        | error => simp [Body.fails] at h
        | pending => exact ih (by simpa [Body.fails] using h)
        | frame frame =>
            have hrest := ih (by simpa [Body.fails] using h)
            show frame.dataRef ++ dataOf (Body.results body) = frame.dataRef ++ Body.data body
            rw [hrest]
  · intro hmem
    rcases List.mem_append.mp hmem with hmem | hmem
    · obtain ⟨next, hnext, herror⟩ := List.mem_map.mp hmem
      cases next with
      | error =>
          have hcontains : body.fails = true := List.contains_iff_mem.mpr hnext
          rw [h] at hcontains
          cases hcontains
      | pending => cases herror
      | frame frame => cases herror
    · cases List.mem_singleton.mp hmem

/-- What a body is received as after a probe: all its data once and in order, and not in one piece only if there is
    more of it than the threshold. -/
structure ReceivedWhole (body : Body) (threshold : Nat) (probed : ProbedResponseBody) (seen : List Polled) : Prop where
  data : dataOf seen = body.data
  ended : Polled.done ∈ seen
  noError : Polled.error ∉ seen
  streamed : (∃ start rest, probed = .stream start rest) ↔ threshold < body.data.length
  startFirst : ∀ start rest, probed = .stream start rest →
    seen = .frame (.data start) :: rest.results
      ∧ ∃ front : Body, body = front ++ rest ∧ start = front.data

/-- **Probing preserves the body**: whatever the frames and the threshold are, the client receives the data of the
    upstream, and what was read while probing comes first and once. -/
theorem probeResponseBody_receivedWhole {body : Body} (h : body.fails = false) (threshold : Nat) :
    ∃ polls, ReceivedWhole body threshold (probeResponseBody body threshold)
      ((probeResponseBody body threshold).received polls) := by
  -- past the threshold the body is cut, and the start is handed on with the rest; else all of it was read
  by_cases hlong : threshold < body.data.length
  · obtain ⟨front, rest, rfl, hfront, hmore, hloop⟩ := probeLoop_of_gt [] (Nat.zero_le threshold) hlong
    have hprobe : probeResponseBody (front ++ rest) threshold = .stream (Body.data front) rest := hloop
    have hrest : Body.fails rest = false := by
      rw [fails_append, hfront, Bool.false_or] at h
      exact h
    have hstart : Body.fails (prefixThenBody (Body.data front) rest) = false := by
      simpa [prefixThenBody, Body.fails] using hrest
    rw [hprobe]
    refine ⟨rest.length + 2, ?_⟩
    have hseen : (ProbedResponseBody.stream (Body.data front) rest).received (rest.length + 2)
        = Body.results (prefixThenBody (Body.data front) rest) := by
      show pollUpTo PrefixThenBody.poll _ ⟨some (Body.data front), rest⟩ = _
      rw [PrefixThenBody.pollUpTo_eq]
      exact pollUpTo_results hstart (Nat.lt_succ_self _)
    obtain ⟨hdata, hnoError, hdone⟩ := results_of_not_fails hstart
    rw [hseen]
    refine ⟨hdata.trans (data_append hfront rest).symm, hdone, hnoError, iff_of_true ⟨_, _, rfl⟩ hlong, ?_⟩
    rintro start rest' ⟨⟩
    exact ⟨rfl, front, rfl, rfl⟩
  · have hprobe : probeResponseBody body threshold = .collected body.data :=
      probeLoop_of_le [] (Nat.le_of_not_lt hlong)
    have hok : Body.fails (Body.ofBytes body.data) = false := by
      unfold Body.ofBytes
      split <;> rfl
    rw [hprobe]
    refine ⟨(Body.ofBytes body.data).length + 1, ?_⟩
    have hseen : (ProbedResponseBody.collected body.data).received ((Body.ofBytes body.data).length + 1)
        = (Body.ofBytes body.data).results := pollUpTo_results hok (Nat.lt_succ_self _)
    obtain ⟨hdata, hnoError, hdone⟩ := results_of_not_fails hok
    rw [hseen]
    refine ⟨?_, hdone, hnoError, iff_of_false ?_ hlong, ?_⟩
    · exact hdata.trans (data_ofBytes _)
    · rintro ⟨start, rest, heq⟩
      cases heq
    · rintro start rest ⟨⟩

/-- A body that is cut behind its second frame. -/
theorem probeResponseBody_receivedWhole_cut :
    ∃ polls, ReceivedWhole [.frame (.data [1, 2]), .pending, .frame (.data [3]), .frame (.data [4])] 2
      (probeResponseBody [.frame (.data [1, 2]), .pending, .frame (.data [3]), .frame (.data [4])] 2)
      ((probeResponseBody [.frame (.data [1, 2]), .pending, .frame (.data [3]), .frame (.data [4])] 2).received polls) :=
  probeResponseBody_receivedWhole rfl 2

end Inspect.Flow
