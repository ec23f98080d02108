import Inspect.Filters.Correctness.LoadOrder
import Inspect.Flow.FilterRuntime
import Inspect.Lib.Json.Codec

/-!
# `Flow.Correctness.FilterChain` — what a chain of filters amounts to

The three loops of `Flow.FilterRuntime` are instances of `Chain.runUntil`. What they compute is said here without a
loop: a prefix of the actions, and for every field of the combined action the rule by which the actions of the prefix
make it. The order of the filters is that of `CompiledFilterSet::new`.
-/

namespace Inspect.Flow

open Filters

/-! ## The actions that stop a chain -/

/-- A tunnel action after which no further filter runs. -/
def connectStops (action : ConnectAction) : Bool := !action.continueFilters

/-- A request action after which no further filter runs. -/
def requestStops (action : RequestAction) : Bool := !action.continueFilters || action.syntheticResponse.isSome

/-- A response action after which no further filter runs. -/
def responseStops (action : ResponseAction) : Bool := !action.continueFilters

theorem mergeConnectAction_continueFilters (combined action : ConnectAction) :
    (mergeConnectAction combined action).continueFilters = !connectStops action := (Bool.not_not _).symm

theorem mergeRequestAction_continueFilters (combined action : RequestAction) :
    (mergeRequestAction combined action).continueFilters = !requestStops action := by
  unfold mergeRequestAction requestStops
  cases action.syntheticResponse with
  | none => simp
  | some response => simp

theorem mergeResponseAction_continueFilters (combined action : ResponseAction) :
    (mergeResponseAction combined action).continueFilters = !responseStops action := (Bool.not_not _).symm

/-! ## The combined action of a prefix -/

/-- What a list of tunnel actions amounts to. -/
def joinConnectActions (actions : List ConnectAction) : ConnectAction where
  marks := actions.flatMap ConnectAction.marks
  continueFilters := !actions.any connectStops
  dropTunnel := actions.any ConnectAction.dropTunnel
  rejectStatus := (actions.filterMap ConnectAction.rejectStatus).getLast?

/-- What a list of request actions amounts to. -/
def joinRequestActions (actions : List RequestAction) : RequestAction where
  request := (actions.filterMap RequestAction.request).getLast?
  syntheticResponse := (actions.filterMap RequestAction.syntheticResponse).getLast?
  marks := actions.flatMap RequestAction.marks
  tags := actions.flatMap RequestAction.tags
  notes := actions.flatMap RequestAction.notes
  outboundHttp := actions.flatMap RequestAction.outboundHttp
  continueFilters := !actions.any requestStops
  dropClientResponse := actions.any RequestAction.dropClientResponse
  bypassUpstreamProxy := false

/-- What a list of response actions amounts to. -/
def joinResponseActions (actions : List ResponseAction) : ResponseAction where
  response := (actions.filterMap ResponseAction.response).getLast?
  marks := actions.flatMap ResponseAction.marks
  tags := actions.flatMap ResponseAction.tags
  notes := actions.flatMap ResponseAction.notes
  outboundHttp := actions.flatMap ResponseAction.outboundHttp
  continueFilters := !actions.any responseStops
  dropClientResponse := actions.any ResponseAction.dropClientResponse

attribute [ext] ConnectAction RequestAction ResponseAction

section Chains

variable {P S : Type} (filters : CompiledFilterSet P) (state : S)

theorem connectChain_eq (run : CompiledFilter P → S → Option ConnectAction × S) (host : Str) :
    (connectChain run filters host state).1
      = joinConnectActions (Chain.upTo connectStops (Chain.outcomes run (filters.matchingConnect host) state)) := by
  rw [connectChain, Chain.runUntil_eq mergeConnectAction_continueFilters]
  set prior := Chain.outcomes run (filters.matchingConnect host) state
  apply ConnectAction.ext
  · exact Chain.foldl_append (fun _ _ => rfl) _ _
  · exact Chain.continues_foldl_upTo mergeConnectAction_continueFilters prior _ rfl
  · refine Chain.foldl_or (fun dst src => ?_) _ _
    show (if src.dropTunnel then true else dst.dropTunnel) = _
    cases src.dropTunnel with
    | false => simp
    | true => simp
  · exact (Chain.foldl_last (fun _ _ => rfl) _ _).trans (Option.or_none)

theorem requestChain_eq (run : CompiledFilter P → S → Option RequestAction × S) (view : FilterRequestView) :
    (requestChain run filters view state).1
      = joinRequestActions (Chain.upTo requestStops (Chain.outcomes run (filters.matchingRequest view) state)) := by
  rw [requestChain, Chain.runUntil_eq mergeRequestAction_continueFilters]
  set prior := Chain.outcomes run (filters.matchingRequest view) state
  apply RequestAction.ext
  · exact (Chain.foldl_last (fun _ _ => rfl) _ _).trans Option.or_none
  · exact (Chain.foldl_last (fun _ _ => rfl) _ _).trans Option.or_none
  · exact Chain.foldl_append (fun _ _ => rfl) _ _
  · exact Chain.foldl_append (fun _ _ => rfl) _ _
  · exact Chain.foldl_append (fun _ _ => rfl) _ _
  · exact Chain.foldl_append (fun _ _ => rfl) _ _
  · exact Chain.continues_foldl_upTo mergeRequestAction_continueFilters prior _ rfl
  · exact Chain.foldl_or (fun _ _ => rfl) _ _
  · -- the flag of the pass action is never written
    show _ = RequestAction.pass.bypassUpstreamProxy
    generalize RequestAction.pass = combined
    induction Chain.upTo requestStops prior generalizing combined with
    | nil => rfl
    | cons action actions ih => exact ih (mergeRequestAction combined action)

theorem responseChain_eq (run : CompiledFilter P → S → Option ResponseAction × S) (view : FilterRequestView) :
    (responseChain run filters view state).1
      = joinResponseActions (Chain.upTo responseStops (Chain.outcomes run (filters.matchingResponse view) state)) := by
  rw [responseChain, Chain.runUntil_eq mergeResponseAction_continueFilters]
  set prior := Chain.outcomes run (filters.matchingResponse view) state
  apply ResponseAction.ext
  · exact (Chain.foldl_last (fun _ _ => rfl) _ _).trans Option.or_none
  · exact Chain.foldl_append (fun _ _ => rfl) _ _
  · exact Chain.foldl_append (fun _ _ => rfl) _ _
  · exact Chain.foldl_append (fun _ _ => rfl) _ _
  · exact Chain.foldl_append (fun _ _ => rfl) _ _
  · exact Chain.continues_foldl_upTo mergeResponseAction_continueFilters prior _ rfl
  · exact Chain.foldl_or (fun _ _ => rfl) _ _

/-! ## Filters behind the one that stops -/

theorem upTo_outcomes_append {A : Type} {stops : A → Bool} {run : CompiledFilter P → S → Option A × S}
    {front rest : List (CompiledFilter P)} (h : (Chain.outcomes run front state).any stops = true) :
    Chain.upTo stops (Chain.outcomes run (front ++ rest) state) = Chain.upTo stops (Chain.outcomes run front state) := by
  obtain ⟨later, hlater⟩ := Chain.outcomes_append run front rest state
  rw [hlater, Chain.upTo_append h]

end Chains

/-! ## Rejected tunnels -/

theorem runConnectFilters_eq (filters : CompiledFilterSet CompiledRotoFilter) (host : Str) (connect : FilterConnect) :
    runConnectFilters filters host connect
      = joinConnectActions (Chain.upTo connectStops
          ((filters.matchingConnect host).filterMap fun filter => filter.runConnectAction connect)) := by
  rw [runConnectFilters, connectChain_eq, Chain.outcomes_stateless]

/-- A script that rejects a tunnel drops it. -/
theorem runConnectAction_rejects {filter : CompiledFilter CompiledRotoFilter} {connect : FilterConnect}
    {action : ConnectAction} (h : filter.runConnectAction connect = some action)
    (hreject : action.rejectStatus.isSome = true) : action.dropTunnel = true := by
  unfold CompiledFilter.runConnectAction at h
  cases hprogram : filter.program with
  | metadataOnly => rw [hprogram] at h; cases h
  | compiled script =>
      rw [hprogram] at h
      obtain ⟨function, -, rfl⟩ := Option.map_eq_some_iff.mp h
      show (_ || _) = true
      rw [Bool.or_eq_true]
      exact Or.inr hreject

theorem runConnectFilters_rejects (filters : CompiledFilterSet CompiledRotoFilter) (host : Str)
    (connect : FilterConnect) (hreject : (runConnectFilters filters host connect).rejectStatus.isSome = true) :
    (runConnectFilters filters host connect).dropTunnel = true := by
  rw [runConnectFilters_eq] at hreject ⊢
  obtain ⟨status, hstatus⟩ := Option.isSome_iff_exists.mp hreject
  obtain ⟨action, hmem, haction⟩ := List.mem_filterMap.mp (List.mem_of_getLast? hstatus)
  obtain ⟨filter, -, hfilter⟩ := List.mem_filterMap.mp (Chain.mem_of_mem_upTo hmem)
  exact List.any_eq_true.mpr
    ⟨action, hmem, runConnectAction_rejects hfilter (Option.isSome_iff_exists.mpr ⟨status, haction⟩)⟩

/-! ## Main results -/

/-- **What the filters of a set do together**, whatever each of them answers. The set is in the order of priority
    and path. The combined action is made of the actions up to the first that stops the chain, by a rule for each
    field, and nothing behind that action is looked at. A filter without an action is not among the outcomes. A
    tunnel that a script rejects is dropped. -/
theorem filter_chains {P S : Type} (filters : List (CompiledFilter P))
    (scripts : CompiledFilterSet CompiledRotoFilter) (host : Str) (connect : FilterConnect)
    (view : FilterRequestView) (state : S) (onConnect : CompiledFilter P → S → Option ConnectAction × S)
    (onRequest : CompiledFilter P → S → Option RequestAction × S)
    (onResponse : CompiledFilter P → S → Option ResponseAction × S) :
    let set := CompiledFilterSet.new filters
    (set.Perm filters ∧ set.Pairwise Precedes)
    ∧ ((connectChain onConnect set host state).1
          = joinConnectActions (Chain.upTo connectStops (Chain.outcomes onConnect (set.matchingConnect host) state))
      ∧ ∀ front rest, set.matchingConnect host = front ++ rest →
          (Chain.outcomes onConnect front state).any connectStops = true →
          (connectChain onConnect set host state).1
            = joinConnectActions (Chain.upTo connectStops (Chain.outcomes onConnect front state)))
    ∧ ((requestChain onRequest set view state).1
          = joinRequestActions (Chain.upTo requestStops (Chain.outcomes onRequest (set.matchingRequest view) state))
      ∧ ∀ front rest, set.matchingRequest view = front ++ rest →
          (Chain.outcomes onRequest front state).any requestStops = true →
          (requestChain onRequest set view state).1
            = joinRequestActions (Chain.upTo requestStops (Chain.outcomes onRequest front state)))
    ∧ ((responseChain onResponse set view state).1
          = joinResponseActions
              (Chain.upTo responseStops (Chain.outcomes onResponse (set.matchingResponse view) state))
      ∧ ∀ front rest, set.matchingResponse view = front ++ rest →
          (Chain.outcomes onResponse front state).any responseStops = true →
          (responseChain onResponse set view state).1
            = joinResponseActions (Chain.upTo responseStops (Chain.outcomes onResponse front state)))
    ∧ ((runConnectFilters scripts host connect).rejectStatus.isSome = true →
        (runConnectFilters scripts host connect).dropTunnel = true) := by
  intro set
  refine ⟨⟨new_perm filters, new_pairwise_precedes filters⟩, ⟨connectChain_eq set state onConnect host, ?_⟩,
    ⟨requestChain_eq set state onRequest view, ?_⟩, ⟨responseChain_eq set state onResponse view, ?_⟩,
    runConnectFilters_rejects scripts host connect⟩
  · intro front rest hsplit hstop
    rw [connectChain_eq, hsplit, upTo_outcomes_append state hstop]
  · intro front rest hsplit hstop
    rw [requestChain_eq, hsplit, upTo_outcomes_append state hstop]
  · intro front rest hsplit hstop
    rw [responseChain_eq, hsplit, upTo_outcomes_append state hstop]

/-- **The order in which `read_dir` enumerates the filter files is not observable**: in both orders the parser panics,
    or the same set is loaded, with the same file names, and every message meets the same combined action. -/
theorem load_order_not_observable {N : Type} [BEq N] (serde : SerdeJson N)
    (regex : Str → Option (Str → Str → Str)) (toml : Str → Option Toml.Table)
    (compile : FilterPath → Str → Option CompiledRotoFilter) (manager : FilterManager) (dirs dirs' : Directories)
    (hsame : SameEntries manager dirs dirs')
    (hdistinct : ((scannedFiles manager dirs).map ScannedFile.path).Nodup) :
    loadFilterSet toml compile manager dirs = loadFilterSet toml compile manager dirs'
    ∧ ∀ loaded ∈ loadFilterSet toml compile manager dirs, ∀ loaded' ∈ loadFilterSet toml compile manager dirs',
      loaded.filters = loaded'.filters ∧ loaded.fileNames = loaded'.fileNames
      ∧ (∀ host connect, runConnectFilters loaded.filters host connect
          = runConnectFilters loaded'.filters host connect)
      ∧ (∀ view req state, runRequestFilters serde regex loaded.filters view req state
          = runRequestFilters serde regex loaded'.filters view req state)
      ∧ ∀ view flowKey res state, runResponseFilters serde regex loaded.filters view flowKey res state
          = runResponseFilters serde regex loaded'.filters view flowKey res state := by
  have heq := loadFilterSet_eq_of_sameEntries toml compile hsame hdistinct
  refine ⟨heq, ?_⟩
  intro loaded hloaded loaded' hloaded'
  rw [heq] at hloaded
  obtain rfl : loaded = loaded' := Option.mem_unique hloaded hloaded'
  exact ⟨rfl, rfl, fun _ _ => rfl, fun _ _ _ => rfl, fun _ _ _ _ => rfl⟩

section Swapped

/-- A filter file with a script in it. -/
def scriptFile (name : String) : DirEntry :=
  ⟨Text.bytes name.toList, true, 12, none, some "fn ping() {}".toList⟩

/-- Two directories with these files in them, the second one of generated filters. -/
def scriptDirs (files generated : List String) : Directories :=
  [([Text.bytes "filters".toList], files.map scriptFile), ([Text.bytes "generated".toList], generated.map scriptFile)]

theorem load_order_swapped :
    let manager := (FilterManager.new [Text.bytes "filters".toList]).withFilterDir [Text.bytes "generated".toList]
    let dirs := scriptDirs ["10-a.roto", "b.roto", "notes.txt"] ["b.roto"]
    let dirs' := scriptDirs ["notes.txt", "b.roto", "10-a.roto"] ["b.roto"]
    let compile : FilterPath → Str → Option CompiledRotoFilter := fun _ _ => some CompiledRotoFilter.default
    SameEntries manager dirs dirs'
    ∧ ∃ loaded ∈ loadFilterSet (fun _ => none) compile manager dirs,
      ∃ loaded' ∈ loadFilterSet (fun _ => none) compile manager dirs',
        loaded.filters = loaded'.filters ∧ loaded.fileNames = loaded'.fileNames ∧ loaded.filters.length = 3 := by
  intro manager dirs dirs' compile
  have hsame : SameEntries manager dirs dirs' := by
    intro filterDir hmem
    rcases List.mem_cons.mp hmem with rfl | hmem
    · exact Option.Rel.some (List.isPerm_iff.mp (by decide +kernel))
    · rw [List.mem_singleton.mp hmem]
      exact Option.Rel.some (List.Perm.refl _)
  obtain ⟨heq, hloads⟩ := load_order_not_observable JsonCodec.codec (fun _ => none) (fun _ => none) compile manager
    dirs dirs' hsame (by decide +kernel)
  have hcount : ((scannedFiles manager dirs).mapM (loadFilter (fun _ => none) compile)).map
      (fun loaded => loaded.reduceOption.length) = some 3 := by
    decide +kernel
  obtain ⟨loaded, hloaded, hlength⟩ := Option.map_eq_some_iff.mp hcount
  have hload : LoadedFilterSet.mk (CompiledFilterSet.new loaded.reduceOption) (scannedFileNames manager dirs)
      ∈ loadFilterSet (fun _ => none) compile manager dirs := Option.map_eq_some_iff.mpr ⟨loaded, hloaded, rfl⟩
  obtain ⟨hfilters, hnames, -⟩ := hloads _ hload _ (heq ▸ hload)
  exact ⟨hsame, _, hload, _, heq ▸ hload, hfilters, hnames, (new_perm _).length_eq.trans hlength⟩

end Swapped

end Inspect.Flow
