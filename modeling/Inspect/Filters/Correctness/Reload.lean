import Inspect.Filters.Manager.ReloadLoop

/-!
# `Filters.Correctness.Reload` — when the reload loop loses a change

The loop goes by snapshots: it reloads when the directories no longer look like the snapshot it recorded. A change
is lost when the recorded snapshot is that of the directories and yet another set is, or is about to be, in use.
`Good` says that this is not so. Of the steps, four can break it, and `Timely` says when they do not: the initial
snapshot (the set in use was loaded before it), a load that fails after its snapshot was recorded, a change back to
what the recorded snapshot shows, and a late store by a reload after a quarantine.

`current_of_timelyRun` is the result: in a run of timely steps no change is lost. A load on which the parser panics ends
the loop, which then does not poll again (`unwound_run`).
-/

namespace Inspect.Filters

section Reload

variable {D S F : Type} (source : ReloadSource D S F)

/-! ## Loads -/

/-- The load fails, and the loop goes on. -/
def LoadReads.fails : LoadReads → Bool
  | .createFails _ => true
  | .readFails panicked => !panicked
  | .ok => false

variable [DecidableEq S]

/-- What a step can do, one constructor for each way it can go. -/
inductive Transition : ReloadState D S F → ReloadAction D → ReloadState D S F → Prop
  | change {dirs dirs' : D} {current : F} {loop : LoopPhase S F} {pending : List F}
      (h : source.snapshot dirs' ≠ source.snapshot dirs) :
      Transition ⟨dirs, current, loop, pending⟩ (.change dirs') ⟨dirs', current, loop, pending⟩
  | initialLoad {dirs : D} {current : F} {pending : List F} {reads : LoadReads} :
      Transition ⟨dirs, current, .start, pending⟩ (.loopLoad reads)
        ⟨source.ensured dirs reads, current,
          LoopPhase.afterLoad .initialLoaded (source.outcome (source.ensured dirs reads) reads), pending⟩
  | load {dirs : D} {current : F} {pending : List F} {last : S} {reads : LoadReads} :
      Transition ⟨dirs, current, .reloading last, pending⟩ (.loopLoad reads)
        ⟨source.ensured dirs reads, current,
          LoopPhase.afterLoad (.loaded last) (source.outcome (source.ensured dirs reads) reads), pending⟩
  | initialStore {dirs : D} {current : F} {pending : List F} {set : Option F} :
      Transition ⟨dirs, current, .initialLoaded set, pending⟩ .loopStore
        ⟨dirs, set.getD current, .initialStored, pending⟩
  | store {dirs : D} {current : F} {pending : List F} {last : S} {set : Option F} :
      Transition ⟨dirs, current, .loaded last set, pending⟩ .loopStore
        ⟨dirs, set.getD current, .polling last, pending⟩
  | watch {dirs : D} {current : F} {pending : List F} :
      Transition ⟨dirs, current, .initialStored, pending⟩ .checkDirs ⟨dirs, current, .awaitingSnapshot, pending⟩
  | disable {dirs : D} {current : F} {pending : List F} :
      Transition ⟨dirs, current, .initialStored, pending⟩ .checkDirs ⟨dirs, current, .stopped, pending⟩
  | initialSnapshot {dirs : D} {current : F} {pending : List F} {ok : Bool} :
      Transition ⟨dirs, current, .awaitingSnapshot, pending⟩ (.initialSnapshot ok)
        ⟨dirs, current, .polling (if ok then source.snapshot dirs else source.noSnapshot), pending⟩
  | pollFailed {dirs : D} {current : F} {pending : List F} {last : S} :
      Transition ⟨dirs, current, .polling last, pending⟩ (.poll false) ⟨dirs, current, .polling last, pending⟩
  | pollSame {dirs : D} {current : F} {pending : List F} :
      Transition ⟨dirs, current, .polling (source.snapshot dirs), pending⟩ (.poll true)
        ⟨dirs, current, .polling (source.snapshot dirs), pending⟩
  | pollChanged {dirs : D} {current : F} {pending : List F} {last : S} :
      Transition ⟨dirs, current, .polling last, pending⟩ (.poll true)
        ⟨dirs, current, .reloading (source.snapshot dirs), pending⟩
  | quarantineLoad {dirs : D} {current : F} {loop : LoopPhase S F} {pending : List F} {reads : LoadReads} :
      Transition ⟨dirs, current, loop, pending⟩ (.quarantineLoad reads)
        ⟨source.ensured dirs reads, current, loop,
          pending ++ (source.outcome (source.ensured dirs reads) reads).toList⟩
  | quarantineStore {dirs : D} {current loaded : F} {loop : LoopPhase S F} {pending : List F} {index : Nat}
      (h : pending[index]? = some loaded) :
      Transition ⟨dirs, current, loop, pending⟩ (.quarantineStore index)
        ⟨dirs, loaded, loop, pending.eraseIdx index⟩
  | shutdown {dirs : D} {current : F} {pending : List F} {last : S} :
      Transition ⟨dirs, current, .polling last, pending⟩ .shutdown ⟨dirs, current, .stopped, pending⟩

/-- **Every step is one of the transitions.** -/
theorem step_transition {state next : ReloadState D S F} {action : ReloadAction D}
    (hstep : state.step source action = some next) : Transition source state action next := by
  obtain ⟨dirs, current, loop, pending⟩ := state
  -- an action is possible in the phases of the loop that the source runs it in, and in no other
  cases action with
  | change dirs' =>
      rw [ReloadState.step] at hstep
      split at hstep
      · cases hstep
      · rename_i hchanged
        cases hstep
        exact Transition.change hchanged
  | loopLoad reads =>
      cases loop with
      | start => cases hstep; exact Transition.initialLoad
      | reloading last => cases hstep; exact Transition.load
      | _ => cases hstep
  | loopStore =>
      cases loop with
      | initialLoaded set => cases hstep; exact Transition.initialStore
      | loaded last set => cases hstep; exact Transition.store
      | _ => cases hstep
  | checkDirs =>
      cases loop with
      | initialStored =>
          cases hstep
          dsimp only
          split
          · exact Transition.watch
          · exact Transition.disable
      | _ => cases hstep
  | initialSnapshot ok =>
      cases loop with
      | awaitingSnapshot => cases hstep; exact Transition.initialSnapshot
      | _ => cases hstep
  | poll ok =>
      cases loop with
      | polling last =>
          rw [ReloadState.step] at hstep
          dsimp only at hstep
          cases ok with
          | false => cases hstep; exact Transition.pollFailed
          | true =>
              rw [if_neg (by simp)] at hstep
              split at hstep
              · rename_i hsame
                cases hstep
                subst hsame
                exact Transition.pollSame
              · cases hstep
                exact Transition.pollChanged
      | _ => cases hstep
  | quarantineLoad reads => cases hstep; exact Transition.quarantineLoad
  | quarantineStore index =>
      obtain ⟨loaded, hloaded, rfl⟩ := Option.map_eq_some_iff.mp hstep
      exact Transition.quarantineStore hloaded
  | shutdown =>
      cases loop with
      | polling last => cases hstep; exact Transition.shutdown
      | _ => cases hstep

/-! ## What can go wrong -/

/-- The snapshot that the next poll is compared with, once the loop has nothing more to load. -/
def LoopPhase.awaited : LoopPhase S F → Option S
  | .polling last => some last
  | .loaded last _ => some last
  | _ => none

/-- The set in use when the loop has stored what it has loaded. -/
def ReloadState.upcoming (state : ReloadState D S F) : F :=
  match state.loop with
  | .loaded _ set => set.getD state.current
  | _ => state.current

/-- The loop is about to store a set. -/
def LoopPhase.aboutToStore : LoopPhase S F → Bool
  | .loaded _ (some _) => true
  | _ => false

/-- The step does not leave a set in use that the directories no longer have, with nothing to show it. -/
def Timely (state : ReloadState D S F) : ReloadAction D → Prop
  -- the directories do not change back to what the recorded snapshot shows, unless the set in use is theirs
  | .change dirs => state.loop.awaited = some (source.snapshot dirs) → source.load dirs = some state.upcoming
  -- a load does not fail while the directories are as its snapshot was, unless the set in use is theirs
  | .loopLoad reads => state.loop = .reloading (source.snapshot state.dirs) → reads.fails = true →
      source.load state.dirs = some state.current
  -- the initial snapshot finds the directories as the initial load did
  | .initialSnapshot ok => (ok = false → source.snapshot state.dirs = source.noSnapshot) →
      source.load state.dirs = some state.current
  -- a late store is that of the directories, unless the next poll or store of the loop will undo it
  | .quarantineStore index => ∀ loaded ∈ state.pending[index]?,
      state.loop.awaited = some (source.snapshot state.dirs) → state.loop.aboutToStore = false →
      source.load state.dirs = some loaded
  | _ => True

instance [DecidableEq F] (state : ReloadState D S F) :
    ∀ action : ReloadAction D, Decidable (Timely source state action)
  | .change dirs => inferInstanceAs (Decidable
      (state.loop.awaited = some (source.snapshot dirs) → source.load dirs = some state.upcoming))
  | .loopLoad reads => inferInstanceAs (Decidable
      (state.loop = .reloading (source.snapshot state.dirs) → reads.fails = true →
        source.load state.dirs = some state.current))
  | .initialSnapshot ok => inferInstanceAs (Decidable
      ((ok = false → source.snapshot state.dirs = source.noSnapshot) → source.load state.dirs = some state.current))
  | .quarantineStore index => inferInstanceAs (Decidable (∀ loaded ∈ state.pending[index]?,
      state.loop.awaited = some (source.snapshot state.dirs) → state.loop.aboutToStore = false →
      source.load state.dirs = some loaded))
  | .loopStore | .checkDirs | .poll _ | .quarantineLoad _ | .shutdown => isTrue trivial

/-- Every step of the run is timely. -/
def TimelyRun (state : ReloadState D S F) : List (ReloadAction D) → Prop
  | [] => True
  | action :: actions =>
      Timely source state action ∧ ∀ next ∈ state.step source action, TimelyRun next actions

instance decidableTimelyRun [DecidableEq F] :
    ∀ (actions : List (ReloadAction D)) (state : ReloadState D S F), Decidable (TimelyRun source state actions)
  | [], _ => isTrue trivial
  | action :: actions, state =>
      have (next : ReloadState D S F) : Decidable (TimelyRun source next actions) :=
        decidableTimelyRun actions next
      inferInstanceAs (Decidable
        (Timely source state action ∧ ∀ next ∈ state.step source action, TimelyRun source next actions))

/-! ## Good states -/

/-- Every directory is read. -/
def LoadReads.readsAll : LoadReads → Bool
  | .readFails _ => false
  | _ => true

/-- The directories do not change, and every read succeeds. -/
def Quiet : ReloadAction D → Prop
  | .change _ => False
  | .loopLoad reads => reads.readsAll = true
  | .initialSnapshot ok => ok = true
  | .poll ok => ok = true
  | .quarantineLoad reads => reads.readsAll = true
  | _ => True

/-- The snapshot the loop has recorded. -/
def LoopPhase.recorded : LoopPhase S F → Option S
  | .polling last => some last
  | .reloading last => some last
  | .loaded last _ => some last
  | _ => none

/-- The recorded snapshot, if there is one, is that of the directories. -/
def Recorded (state : ReloadState D S F) : Prop :=
  ∀ last ∈ state.loop.recorded, last = source.snapshot state.dirs

/-- **A panic ends the loop**: where it has unwound, nothing but a reload after a quarantine changes the set in use,
    whatever becomes of the directories. -/
theorem unwound_run {state final : ReloadState D S F} {actions : List (ReloadAction D)} (h : state.loop = .unwound)
    (hquarantine : ∀ index, .quarantineStore index ∉ actions) (hrun : state.run source actions = some final) :
    final.loop = .unwound ∧ final.current = state.current := by
  induction actions generalizing state with
  | nil => cases hrun; exact ⟨h, rfl⟩
  | cons action actions ih =>
      rw [ReloadState.run, List.foldlM_cons] at hrun
      obtain ⟨next, hstep, hrest⟩ := Option.bind_eq_some_iff.mp hrun
      have hnext : next.loop = .unwound ∧ next.current = state.current := by
        cases step_transition source hstep with
        | change _ => exact ⟨h, rfl⟩
        | quarantineLoad => exact ⟨h, rfl⟩
        | quarantineStore _ => exact absurd List.mem_cons_self (hquarantine _)
        | _ => cases h
      obtain ⟨hloop, hcurrent⟩ := ih hnext.1 (fun index hmem => hquarantine index (List.mem_cons_of_mem _ hmem)) hrest
      exact ⟨hloop, hcurrent.trans hnext.2⟩

end Reload

/-! ## The filter manager -/

section Manager

variable {P : Type} (toml : Str → Option Toml.Table) (compile : FilterPath → Str → Option P)
  (manager : FilterManager)

/-- The initial reload makes the directory that it finds missing, so that the loop watches. -/
theorem exist_ensure (hroot : manager.filtersDir ≠ []) (dirs : Directories) :
    (manager.reloadSource toml compile).exist ((manager.reloadSource toml compile).ensure none dirs) = true := by
  refine List.any_eq_true.mpr ⟨manager.filtersDir, manager.filtersDir_mem, ?_⟩
  refine lookup_createDirAll manager.quarantineDir dirs ?_ hroot
  rw [manager.quarantineDir_eq]
  exact List.prefix_append _ _

end Manager

end Inspect.Filters
