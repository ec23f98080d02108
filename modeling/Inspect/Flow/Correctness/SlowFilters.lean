import Inspect.Flow.SlowFilters

/-!
# `Flow.Correctness.SlowFilters` — what quarantine does and does not do

Quarantine looks on: what the filters of a flow do, and what they leave in their stores, is what it would be if nobody
measured the time (`runFiltersTimed_eq`). A file is tried to be moved at most once, only if its filter was generated,
and for its first slow execution (`Quarantined`).
-/

namespace Inspect.Flow

open Filters

/-! ## One execution -/

/-- What an execution adds to the records. -/
structure ExecutionRecorded (config : QuarantineConfig) (before after : TimedState) (execution : TimedExecution)
    (moved : Bool) : Prop where
  executions : after.executions = before.executions ++ [execution]
  quarantine : (moved, after.quarantine)
    = if config.isOverJitThreshold execution.elapsed then
        quarantineSlowFilter config execution.path before.quarantine
      else (false, before.quarantine)
  resultCode : execution.resultCode = resultCode execution.stat.resourceStats.limitHit moved
  execStats : after.runtime.execStats = before.runtime.execStats ++ [execution.stat]
  needsReload : after.needsReload = (before.needsReload || moved)

theorem execTimed_recorded {A : Type} (config : QuarantineConfig) (phase : FilterPhase) (flowKey : Str)
    (filter : CompiledFilter CompiledRotoFilter) (run : RuntimeStateContext → StateM RuntimeState A)
    (state : TimedState) :
    ∃ execution moved, execution.path = filter.definition.path
      ∧ ExecutionRecorded config state (execTimed config phase flowKey filter run state).2 execution moved := by
  refine ⟨_, _, rfl, rfl, rfl, rfl, ?_, rfl⟩
  show (sweepStateStats state.runtime).2.execStats ++ _ = _
  rw [sweepStateStats_execStats]

/-- The code says whether the file was moved. -/
theorem resultCode_eq_two_iff (limitHit moved : Bool) : resultCode limitHit moved = 2 ↔ moved = true := by
  cases limitHit <;> cases moved <;> decide

/-! ## The quarantine of a run -/

/-- The files that were slow, in the order of their executions. -/
def slowPaths (config : QuarantineConfig) (executions : List TimedExecution) : List FilterPath :=
  (executions.filter fun execution => config.isOverJitThreshold execution.elapsed).map TimedExecution.path

/-- What the quarantine has done for some executions. -/
structure Quarantined (config : QuarantineConfig) (executions : List TimedExecution) (state : QuarantineState) :
    Prop where
  seen : ∀ path, path ∈ state.quarantinedOnce ↔ path ∈ slowPaths config executions
  once : (state.attempts.map QuarantineAttempt.path).Nodup
  tried : ∀ path, path ∈ state.attempts.map QuarantineAttempt.path
    ↔ path ∈ slowPaths config executions ∧ config.isGenerated path = true
  moved : (executions.filter fun execution => execution.resultCode = 2).map TimedExecution.path
    = (state.attempts.filter QuarantineAttempt.moved).map QuarantineAttempt.path

section Step

variable {config : QuarantineConfig} {executions : List TimedExecution} {state : QuarantineState}
  {execution : TimedExecution}

theorem slowPaths_append :
    slowPaths config (executions ++ [execution])
      = slowPaths config executions
        ++ if config.isOverJitThreshold execution.elapsed then [execution.path] else [] := by
  unfold slowPaths
  rw [List.filter_append, List.map_append, List.filter_singleton]
  cases config.isOverJitThreshold execution.elapsed with
  | true => rfl
  | false => rfl

theorem codes_append {moved : Bool} (hcode : execution.resultCode = 2 ↔ moved = true) :
    ((executions ++ [execution]).filter fun execution => execution.resultCode = 2).map TimedExecution.path
      = (executions.filter fun execution => execution.resultCode = 2).map TimedExecution.path
        ++ if moved then [execution.path] else [] := by
  rw [List.filter_append, List.map_append, List.filter_singleton]
  cases moved with
  | true => simp [hcode.mpr rfl]
  | false =>
      have hno : execution.resultCode ≠ 2 := fun heq => Bool.false_ne_true (hcode.mp heq)
      simp [hno]

/-- An execution that changes nothing of the quarantine. -/
theorem Quarantined.same (h : Quarantined config executions state) (hcode : execution.resultCode ≠ 2)
    (hold : config.isOverJitThreshold execution.elapsed = true → execution.path ∈ slowPaths config executions) :
    Quarantined config (executions ++ [execution]) state := by
  have hsame : ∀ path, path ∈ slowPaths config (executions ++ [execution]) ↔ path ∈ slowPaths config executions := by
    intro path
    rw [slowPaths_append, List.mem_append]
    constructor
    · rintro (hmem | hmem)
      · exact hmem
      · split_ifs at hmem with hslow
        · rw [List.mem_singleton.mp hmem]
          exact hold hslow
        · exact absurd hmem List.not_mem_nil
    · exact Or.inl
  have hmoved : execution.resultCode = 2 ↔ false = true := iff_of_false hcode Bool.false_ne_true
  refine ⟨fun path => ?_, h.once, fun path => ?_, ?_⟩
  · rw [hsame]
    exact h.seen path
  · rw [hsame]
    exact h.tried path
  · rw [codes_append hmoved, h.moved]
    exact List.append_nil _

/-- The first slow execution of a file. -/
theorem Quarantined.first (h : Quarantined config executions state)
    (hslow : config.isOverJitThreshold execution.elapsed = true) (hnew : execution.path ∉ slowPaths config executions)
    {moved : Bool} (hcode : execution.resultCode = 2 ↔ moved = true)
    (attempts : List QuarantineAttempt) (moves : Nat → Bool)
    (hattempts : attempts = if config.isGenerated execution.path then [⟨execution.path, moved⟩] else [])
    (hmoved : config.isGenerated execution.path = false → moved = false) :
    Quarantined config (executions ++ [execution])
      ⟨execution.path :: state.quarantinedOnce, state.attempts ++ attempts, moves⟩ := by
  have hpaths : slowPaths config (executions ++ [execution]) = slowPaths config executions ++ [execution.path] := by
    rw [slowPaths_append, if_pos hslow]
  have hfirst : execution.path ∉ state.attempts.map QuarantineAttempt.path := fun hmem => hnew ((h.tried _).mp hmem).1
  have hseen : ∀ path, path ∈ execution.path :: state.quarantinedOnce
      ↔ path ∈ slowPaths config (executions ++ [execution]) := by
    intro path
    rw [hpaths, List.mem_cons, List.mem_append, List.mem_singleton, h.seen]
    exact or_comm
  cases hgenerated : config.isGenerated execution.path with
  | true =>
      rw [if_pos hgenerated] at hattempts
      subst hattempts
      refine ⟨hseen, ?_, fun path => ?_, ?_⟩
      · show ((state.attempts ++ _).map _).Nodup
        rw [List.map_append, List.nodup_append]
        refine ⟨h.once, List.nodup_singleton _, ?_⟩
        intro path hmem other hother heq
        have hpath : path = execution.path := heq.trans (List.mem_singleton.mp hother)
        exact hfirst (hpath ▸ hmem)
      · show path ∈ (state.attempts ++ _).map _ ↔ _
        rw [hpaths, List.map_append, List.mem_append, List.mem_append, h.tried, List.map_singleton]
        simp only [List.mem_singleton]
        constructor
        · rintro (⟨hmem, hin⟩ | rfl)
          · exact ⟨Or.inl hmem, hin⟩
          · exact ⟨Or.inr rfl, hgenerated⟩
        · rintro ⟨hmem | rfl, hin⟩
          · exact Or.inl ⟨hmem, hin⟩
          · exact Or.inr rfl
      · rw [codes_append hcode, h.moved]
        show _ = ((state.attempts ++ _).filter _).map _
        rw [List.filter_append, List.map_append, List.filter_singleton]
        cases moved with
        | true => rfl
        | false => rfl
  | false =>
      obtain rfl := hmoved hgenerated
      rw [if_neg (by rw [hgenerated]; exact Bool.false_ne_true)] at hattempts
      subst hattempts
      refine ⟨hseen, ?_, fun path => ?_, ?_⟩
      · show ((state.attempts ++ []).map _).Nodup
        rw [List.append_nil]
        exact h.once
      · show path ∈ (state.attempts ++ []).map _ ↔ _
        rw [List.append_nil, hpaths, h.tried, List.mem_append, List.mem_singleton]
        constructor
        · exact fun hmem => ⟨Or.inl hmem.1, hmem.2⟩
        · rintro ⟨hmem | rfl, hin⟩
          · exact ⟨hmem, hin⟩
          · rw [hgenerated] at hin
            cases hin
      · rw [codes_append hcode, h.moved]
        show _ = ((state.attempts ++ []).filter _).map _
        rw [List.append_nil]
        exact List.append_nil _

/-- **One execution keeps the books of the quarantine.** -/
theorem Quarantined.step (h : Quarantined config executions state) {moved : Bool} {state' : QuarantineState}
    (hquarantine : (moved, state') = if config.isOverJitThreshold execution.elapsed then
        quarantineSlowFilter config execution.path state else (false, state))
    (hcode : execution.resultCode = 2 ↔ moved = true) :
    Quarantined config (executions ++ [execution]) state' := by
  unfold quarantineSlowFilter at hquarantine
  split_ifs at hquarantine with hslow hseen hgenerated
  · -- the file was slow before
    obtain ⟨rfl, rfl⟩ := Prod.mk.inj hquarantine
    exact h.same (fun heq => Bool.false_ne_true (hcode.mp heq)) fun _ => (h.seen _).mp hseen
  · have hnew : execution.path ∉ slowPaths config executions := fun hmem => hseen ((h.seen _).mpr hmem)
    obtain ⟨rfl, rfl⟩ := Prod.mk.inj hquarantine
    exact h.first hslow hnew hcode _ _ (if_pos hgenerated).symm fun hno => absurd hgenerated (by rw [hno]; simp)
  · have hnew : execution.path ∉ slowPaths config executions := fun hmem => hseen ((h.seen _).mpr hmem)
    obtain ⟨rfl, rfl⟩ := Prod.mk.inj hquarantine
    have hbooks := h.first hslow hnew hcode [] state.moves (if_neg hgenerated).symm fun _ => rfl
    rw [List.append_nil] at hbooks
    exact hbooks
  · obtain ⟨rfl, rfl⟩ := Prod.mk.inj hquarantine
    exact h.same (fun heq => Bool.false_ne_true (hcode.mp heq)) fun hyes => absurd hyes hslow

end Step

/-! ## A call -/

/-- What a loop has done since its start. -/
structure Since (config : QuarantineConfig) (start state : TimedState) : Prop where
  quarantined : Quarantined config state.executions state.quarantine
  attempts : ∃ more, state.quarantine.attempts = start.quarantine.attempts ++ more
    ∧ state.needsReload = (start.needsReload || more.any QuarantineAttempt.moved)
  stats : ∃ more, state.executions = start.executions ++ more
    ∧ state.runtime.execStats = start.runtime.execStats ++ more.map TimedExecution.stat

/-- What the quarantine adds is the move that it says. -/
theorem attempts_append {config : QuarantineConfig} {elapsed : Nat} {path : FilterPath} {state state' : QuarantineState}
    {moved : Bool} (h : (moved, state') = if config.isOverJitThreshold elapsed then
      quarantineSlowFilter config path state else (false, state)) :
    ∃ more, state'.attempts = state.attempts ++ more ∧ moved = more.any QuarantineAttempt.moved := by
  unfold quarantineSlowFilter at h
  split_ifs at h
  · cases h
    exact ⟨[], (List.append_nil _).symm, rfl⟩
  · cases h
    exact ⟨[⟨path, state.moves 0⟩], rfl, (Bool.or_false _).symm⟩
  · cases h
    exact ⟨[], (List.append_nil _).symm, rfl⟩
  · cases h
    exact ⟨[], (List.append_nil _).symm, rfl⟩

theorem Since.step {config : QuarantineConfig} {start state state' : TimedState} (h : Since config start state)
    {execution : TimedExecution} {moved : Bool} (hrecorded : ExecutionRecorded config state state' execution moved) :
    Since config start state' := by
  have hcode : execution.resultCode = 2 ↔ moved = true := by
    rw [hrecorded.resultCode]
    exact resultCode_eq_two_iff _ _
  obtain ⟨attempts, hattempts, hreload⟩ := h.attempts
  obtain ⟨executions, hexecutions, hstats⟩ := h.stats
  obtain ⟨more, hmore, hmoved⟩ := attempts_append hrecorded.quarantine
  refine ⟨?_, ⟨attempts ++ more, ?_, ?_⟩, ⟨executions ++ [execution], ?_, ?_⟩⟩
  · rw [hrecorded.executions]
    exact h.quarantined.step hrecorded.quarantine hcode
  · rw [hmore, hattempts, List.append_assoc]
  · rw [hrecorded.needsReload, hreload, List.any_append, hmoved, Bool.or_assoc]
  · rw [hrecorded.executions, hexecutions, List.append_assoc]
  · rw [hrecorded.execStats, hstats, List.map_append, List.append_assoc]
    rfl

section Call

variable {N : Type} [BEq N] (serde : SerdeJson N) (regex : Str → Option (Str → Str → Str))
  (config : QuarantineConfig)

/-- **Filters do what they do, whatever time they take.** -/
theorem runFiltersTimed_eq (filters : CompiledFilterSet CompiledRotoFilter) (state : TimedState) (call : FilterCall) :
    (runFiltersTimed serde regex config filters state call).1 = (runUntimed serde regex filters state.runtime call).1
    ∧ (runFiltersTimed serde regex config filters state call).2.runtime
      = (runUntimed serde regex filters state.runtime call).2 := by
  cases call with
  | request view req =>
      have hproject : (requestChain (requestTurn serde regex config req) filters view state).1
            = (runRequestFilters serde regex filters view req state.runtime).1
          ∧ (requestChain (requestTurn serde regex config req) filters view state).2.runtime
            = (runRequestFilters serde regex filters view req state.runtime).2 := by
        unfold runRequestFilters requestChain
        exact Chain.runUntil_project TimedState.runtime (fun _ _ => ⟨rfl, rfl⟩) _ _ _
      exact ⟨congrArg FilterAnswer.request hproject.1, hproject.2⟩
  | response view flowKey res =>
      have hproject : (responseChain (responseTurn serde regex config flowKey res) filters view state).1
            = (runResponseFilters serde regex filters view flowKey res state.runtime).1
          ∧ (responseChain (responseTurn serde regex config flowKey res) filters view state).2.runtime
            = (runResponseFilters serde regex filters view flowKey res state.runtime).2 := by
        unfold runResponseFilters responseChain
        exact Chain.runUntil_project TimedState.runtime (fun _ _ => ⟨rfl, rfl⟩) _ _ _
      exact ⟨congrArg FilterAnswer.response hproject.1, hproject.2⟩
  | completed view flowKey =>
      refine ⟨rfl, ?_⟩
      show ((filters.matchingCompleted view).foldl (completedTurn config flowKey) state).runtime
        = runCompletedFilters filters view flowKey state.runtime
      unfold runCompletedFilters
      generalize filters.matchingCompleted view = matching
      induction matching generalizing state with
      | nil => rfl
      | cons filter matching ih =>
          rw [List.foldl_cons, List.foldl_cons, ih]
          rfl

/-- A loop keeps the books. -/
theorem runFiltersTimed_since (filters : CompiledFilterSet CompiledRotoFilter) {start state : TimedState}
    (h : Since config start state) (call : FilterCall) :
    Since config start (runFiltersTimed serde regex config filters state call).2 := by
  cases call with
  | request view req =>
      have hturn : ∀ filter state, Since config start state →
          Since config start (requestTurn serde regex config req filter state).2 := by
        intro filter state hstate
        obtain ⟨execution, moved, -, hrecorded⟩ := execTimed_recorded config .request req.flowKey filter
          (fun context => filter.onRequest serde regex context req) state
        exact hstate.step hrecorded
      exact @Chain.runUntil_keeps _ _ _ mergeRequestAction RequestAction.continueFilters _ _ hturn _ _ _ h
  | response view flowKey res =>
      have hturn : ∀ filter state, Since config start state →
          Since config start (responseTurn serde regex config flowKey res filter state).2 := by
        intro filter state hstate
        obtain ⟨execution, moved, -, hrecorded⟩ := execTimed_recorded config .response flowKey filter
          (fun context => filter.onResponse serde regex context res) state
        exact hstate.step hrecorded
      exact @Chain.runUntil_keeps _ _ _ mergeResponseAction ResponseAction.continueFilters _ _ hturn _ _ _ h
  | completed view flowKey =>
      show Since config start ((filters.matchingCompleted view).foldl (completedTurn config flowKey) state)
      generalize filters.matchingCompleted view = matching
      induction matching generalizing state with
      | nil => exact h
      | cons filter matching ih =>
          obtain ⟨execution, moved, -, hrecorded⟩ := execTimed_recorded config .completed flowKey filter
            (fun _ => pure ()) state
          exact ih (h.step hrecorded)

theorem call_eq (self : TimedFilterRuntime) (next : FilterCall) :
    ((self.call serde regex config next).1, (self.call serde regex config next).2.state.runtime)
      = runUntimed serde regex self.current self.state.runtime next := by
  obtain ⟨hanswer, hruntime⟩ := runFiltersTimed_eq serde regex config self.current
    { self.state with needsReload := false } next
  refine Prod.ext hanswer (Eq.trans ?_ hruntime)
  unfold TimedFilterRuntime.call
  dsimp only
  split_ifs
  · rfl
  · rfl

/-- The books of a runtime between two calls. -/
theorem call_quarantined {self : TimedFilterRuntime}
    (h : Quarantined config self.state.executions self.state.quarantine) (next : FilterCall) :
    Since config { self.state with needsReload := false } (self.call serde regex config next).2.state := by
  have hstart : Since config { self.state with needsReload := false } { self.state with needsReload := false } :=
    ⟨h, ⟨[], (List.append_nil _).symm, rfl⟩, ⟨[], (List.append_nil _).symm, (List.append_nil _).symm⟩⟩
  have hloop := runFiltersTimed_since serde regex config self.current hstart next
  unfold TimedFilterRuntime.call
  dsimp only
  split_ifs
  · exact hloop
  · exact hloop

theorem callAll_quarantined {self : TimedFilterRuntime}
    (h : Quarantined config self.state.executions self.state.quarantine) (calls : List FilterCall) :
    Quarantined config (self.callAll serde regex config calls).state.executions
      (self.callAll serde regex config calls).state.quarantine := by
  induction calls generalizing self with
  | nil => exact h
  | cons next calls ih => exact ih (call_quarantined serde regex config h next).quarantined

/-- The records of the capture are those of the executions. -/
theorem callAll_execStats (self : TimedFilterRuntime)
    (h : Quarantined config self.state.executions self.state.quarantine) (calls : List FilterCall) :
    ∃ more, (self.callAll serde regex config calls).state.executions = self.state.executions ++ more
      ∧ (self.callAll serde regex config calls).state.runtime.execStats
        = self.state.runtime.execStats ++ more.map TimedExecution.stat := by
  induction calls generalizing self with
  | nil => exact ⟨[], (List.append_nil _).symm, (List.append_nil _).symm⟩
  | cons next calls ih =>
      have hsince := call_quarantined serde regex config h next
      obtain ⟨front, hexecutions, hstats⟩ := hsince.stats
      obtain ⟨rest, hexecutions', hstats'⟩ := ih _ hsince.quarantined
      refine ⟨front ++ rest, hexecutions'.trans ?_, hstats'.trans ?_⟩
      · rw [hexecutions, List.append_assoc]
      · rw [hstats, List.map_append, List.append_assoc]

/-- A call loads the filters anew exactly if one of its executions has moved a file. -/
theorem call_reloads {self : TimedFilterRuntime}
    (h : Quarantined config self.state.executions self.state.quarantine) (next : FilterCall) :
    ∃ more, (self.call serde regex config next).2.state.quarantine.attempts = self.state.quarantine.attempts ++ more
      ∧ (self.call serde regex config next).2.reloaded
        = self.reloaded + (if more.any QuarantineAttempt.moved then 1 else 0)
      ∧ (more.any QuarantineAttempt.moved = false → (self.call serde regex config next).2.current = self.current) := by
  obtain ⟨more, hattempts, hreload⟩ := (call_quarantined serde regex config h next).attempts
  refine ⟨more, hattempts, ?_⟩
  unfold TimedFilterRuntime.call at hreload ⊢
  dsimp only at hreload ⊢
  rw [Bool.false_or] at hreload
  split_ifs at hreload ⊢ with hneeds hmoved hmoved
  · exact ⟨rfl, fun hno => absurd (hno.symm.trans hmoved) Bool.false_ne_true⟩
  · exact absurd (hreload.symm.trans hneeds) hmoved
  · exact absurd (hreload.trans hmoved) hneeds
  · exact ⟨rfl, fun _ => rfl⟩

/-- **Slow filters are moved away once, and nothing else changes.** Behind any calls of the loops, the files that were
    tried to be moved are those of generated filters with a slow execution, each once, and the executions with the code
    2 are the moves that succeeded, in their order. A further call answers, and leaves the stores of the filters, as if
    time were not measured, and loads the filters anew exactly if it has moved a file. -/
theorem slow_filters_quarantined (filters : CompiledFilterSet CompiledRotoFilter) (shared : FilterRuntimeState)
    (elapsed : Nat → Nat) (moves : Nat → Bool) (reloads : Nat → Option (CompiledFilterSet CompiledRotoFilter))
    (calls : List FilterCall) :
    let runtime := (TimedFilterRuntime.new filters shared elapsed moves reloads).callAll serde regex config calls
    let executions := runtime.state.executions
    let attempts := runtime.state.quarantine.attempts
    (attempts.map QuarantineAttempt.path).Nodup
    ∧ (∀ path, path ∈ attempts.map QuarantineAttempt.path
        ↔ path ∈ slowPaths config executions ∧ config.isGenerated path = true)
    ∧ (executions.filter fun execution => execution.resultCode = 2).map TimedExecution.path
      = (attempts.filter QuarantineAttempt.moved).map QuarantineAttempt.path
    ∧ runtime.state.runtime.execStats = shared.execStats ++ executions.map TimedExecution.stat
    ∧ ∀ next, let (answer, after) := runtime.call serde regex config next
      (answer, after.state.runtime) = runUntimed serde regex runtime.current runtime.state.runtime next
      ∧ ∃ more, after.state.quarantine.attempts = attempts ++ more
        ∧ after.reloaded = runtime.reloaded + (if more.any QuarantineAttempt.moved then 1 else 0)
        ∧ (more.any QuarantineAttempt.moved = false → after.current = runtime.current) := by
  intro runtime executions attempts
  have hnew : Quarantined config [] ⟨[], [], moves⟩ :=
    ⟨fun path => Iff.rfl, List.nodup_nil, fun path => ⟨fun hmem => absurd hmem List.not_mem_nil, fun h => h.1⟩, rfl⟩
  have hbooks : Quarantined config executions runtime.state.quarantine :=
    callAll_quarantined serde regex config hnew calls
  obtain ⟨more, hexecutions, hstats⟩ := callAll_execStats serde regex config
    (TimedFilterRuntime.new filters shared elapsed moves reloads) hnew calls
  obtain rfl : executions = more := hexecutions
  exact ⟨hbooks.once, hbooks.tried, hbooks.moved, hstats, fun next =>
    ⟨call_eq serde regex config runtime next, call_reloads serde regex config hbooks next⟩⟩

end Call

end Inspect.Flow
