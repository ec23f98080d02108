import Inspect.Lib.Sorting
import Inspect.Tui.RootPane
import Inspect.Tui.Correctness.PacketView
import Inspect.Tui.Correctness.Tab

/-!
# `Tui.Correctness.RootPane` — the detail that is shown was asked for

Between a request and the pane stand tasks that finish in any order and a channel. The account is one of requests: each
is answered, once, or its task is still loading. Which one is shown is decided by the order of the answers; it is the
last one that was asked for if no answer overtakes another. The editor is a popup, and so are the statistics of the
filters, unless they fail: then their error is shown in place of a detail.
-/

namespace Inspect.Tui

/-- The event is an answer to the request. -/
def DetailRequest.Answers (tunnelText : TunnelFailureDetail → Str) (request : DetailRequest) (event : UiEvent) :
    Prop :=
  match request with
  | .load id highlightQuery tabSelection =>
      ∃ reading, event = .showDetail ⟨loadDetailContent id reading, highlightQuery, tabSelection⟩
  | .tunnel failure id dir highlightQuery =>
      event = .showDetail (tunnelEvent (tunnelText failure) id dir highlightQuery)
  | .reset => event = .showDetail resetEvent
  | .edit row _ primaryTab => ∃ reading, event = .openEdit row (editState primaryTab reading)
  | .filterStats => ∃ err, event = filterStatsEvent err

/-- The request is one for the detail pane. -/
def DetailRequest.asksDetail : DetailRequest → Bool
  | .load _ _ _ => true
  | .tunnel _ _ _ _ => true
  | .reset => true
  | .edit _ _ _ => false
  | .filterStats => false

/-- The answers that are for the detail pane. -/
theorem DetailRequest.Answers.detail? {tunnelText : TunnelFailureDetail → Str} {request : DetailRequest}
    {event : UiEvent} (h : request.Answers tunnelText event) :
    (request.asksDetail = true → ∃ shown, event = .showDetail shown)
    ∧ (request.asksDetail = false → ∀ shown, event.detail? = some shown →
      request = .filterStats ∧ ∃ err, shown = statsErrorEvent err) := by
  cases request with
  | load id highlightQuery tabSelection =>
      obtain ⟨reading, rfl⟩ := h
      exact ⟨fun _ => ⟨_, rfl⟩, nofun⟩
  | tunnel failure id dir highlightQuery =>
      obtain rfl := h
      exact ⟨fun _ => ⟨_, rfl⟩, nofun⟩
  | reset =>
      obtain rfl := h
      exact ⟨fun _ => ⟨_, rfl⟩, nofun⟩
  | edit row id primaryTab =>
      obtain ⟨reading, rfl⟩ := h
      exact ⟨nofun, fun _ shown hshown => nomatch hshown⟩
  | filterStats =>
      obtain ⟨err, rfl⟩ := h
      refine ⟨nofun, fun _ shown hshown => ⟨rfl, ?_⟩⟩
      cases err with
      | none => cases hshown
      | some err => exact ⟨err, (Option.some.inj hshown).symm⟩

/-- The content and the query that the last of the events has that are for the detail pane. -/
def lastShown (events : List UiEvent) : DetailContent × Option Str :=
  ((events.filterMap UiEvent.detail?).map ShowDetail.step).foldl DetailPaneState.lastContent
    (DetailContent.default, none)

theorem lastShown_append (events events' : List UiEvent) :
    ((events'.filterMap UiEvent.detail?).map ShowDetail.step).foldl DetailPaneState.lastContent (lastShown events)
      = lastShown (events ++ events') := by
  unfold lastShown
  rw [List.filterMap_append, List.map_append, List.foldl_append]

theorem lastShown_eq (events : List UiEvent) :
    lastShown events = (events.filterMap UiEvent.detail?).getLast?.elim (DetailContent.default, none)
      fun event => (event.detail, event.highlightQuery) := by
  unfold lastShown
  induction events.filterMap UiEvent.detail? using List.reverseRecOn with
  | nil => rfl
  | append_singleton shown event ih =>
      rw [List.map_append, List.foldl_append, List.getLast?_concat, Option.elim_some]
      rfl

namespace RootState

variable {T : Type} {env : TuiEnv T} {regexNew : Str → Option (Str → List ByteRange)}
  {tunnelText : TunnelFailureDetail → Str} {state : RootState T} {asked : List DetailRequest}

/-! ## The account -/

/-- What was sent answers requests, and with those that are loading they are related to what was asked for. -/
def Accounted (R : List DetailRequest → List DetailRequest → Prop) (tunnelText : TunnelFailureDetail → Str)
    (asked : List DetailRequest) (state : RootState T) : Prop :=
  ∃ answered, R (answered ++ state.loading.map DetailTask.request) asked
    ∧ List.Forall₂ (DetailRequest.Answers tunnelText) answered state.sent

/-- One more answer. -/
theorem answered_concat {answered : List DetailRequest} {sent : List UiEvent} {request : DetailRequest}
    {event : UiEvent} (h : List.Forall₂ (DetailRequest.Answers tunnelText) answered sent)
    (hanswers : request.Answers tunnelText event) :
    List.Forall₂ (DetailRequest.Answers tunnelText) (answered ++ [request]) (sent ++ [event]) :=
  List.rel_append h (List.Forall₂.cons hanswers List.Forall₂.nil)

/-- What is asked for is loaded or sent. -/
theorem ask_cases (tunnelText : TunnelFailureDetail → Str) (state : RootState T) (request : DetailRequest) :
    (∃ task : DetailTask, task.request = request
      ∧ ask tunnelText state request = { state with loading := state.loading ++ [task] })
    ∨ ∃ event, request.Answers tunnelText event
      ∧ ask tunnelText state request = { state with sent := state.sent ++ [event] } := by
  cases request with
  | load id highlightQuery tabSelection => exact Or.inl ⟨.load id highlightQuery tabSelection, rfl, rfl⟩
  | tunnel failure id dir highlightQuery => exact Or.inr ⟨_, rfl, rfl⟩
  | reset => exact Or.inr ⟨_, rfl, rfl⟩
  | edit row id primaryTab => exact Or.inl ⟨.edit row id primaryTab, rfl, rfl⟩
  | filterStats => exact Or.inl ⟨.filterStats, rfl, rfl⟩

/-- What a task sends answers its request. -/
theorem event_answers (tunnelText : TunnelFailureDetail → Str) (task : DetailTask) (reading : TaskReading) :
    task.request.Answers tunnelText (task.event reading) := by
  cases task with
  | load id highlightQuery tabSelection => exact ⟨reading.detail, rfl⟩
  | edit row id primaryTab => exact ⟨reading.edit, rfl⟩
  | filterStats => exact ⟨reading.statsError, rfl⟩

theorem Accounted.ask (h : Accounted List.Perm tunnelText asked state) (request : DetailRequest) :
    Accounted List.Perm tunnelText (asked ++ [request]) (ask tunnelText state request) := by
  obtain ⟨answered, hperm, hanswers⟩ := h
  obtain ⟨task, rfl, heq⟩ | ⟨event, hevent, heq⟩ := ask_cases tunnelText state request
  · rw [heq]
    refine ⟨answered, ?_, hanswers⟩
    rw [List.map_append, ← List.append_assoc]
    exact hperm.append_right _
  · rw [heq]
    refine ⟨answered ++ [request], ?_, answered_concat hanswers hevent⟩
    -- the answer comes before those that are still loading
    have hswap : ([request] ++ state.loading.map DetailTask.request).Perm
        (state.loading.map DetailTask.request ++ [request]) := List.perm_append_comm
    have hall := (hswap.append_left answered).trans (List.append_assoc _ _ _ ▸ hperm.append_right [request])
    rwa [← List.append_assoc] at hall

theorem Accounted.foldl_ask (h : Accounted List.Perm tunnelText asked state) (requests : List DetailRequest) :
    Accounted List.Perm tunnelText (asked ++ requests) (requests.foldl (RootState.ask tunnelText) state) := by
  induction requests generalizing asked state with
  | nil => simpa using h
  | cons request requests ih =>
      have hrest := ih (h.ask request)
      rwa [List.append_assoc] at hrest

/-- The end of a task moves its request from those that are loading to those that are answered. -/
theorem Accounted.onLoaded (h : Accounted List.Perm tunnelText asked state) (idx : Nat) (reading : TaskReading) :
    Accounted List.Perm tunnelText asked (state.onLoaded idx reading) := by
  unfold RootState.onLoaded
  cases hload : state.loading[idx]? with
  | none => exact h
  | some task =>
      obtain ⟨answered, hperm, hanswers⟩ := h
      obtain ⟨hlt, rfl⟩ := List.getElem?_eq_some_iff.mp hload
      have hanswer := event_answers tunnelText state.loading[idx] reading
      refine ⟨answered ++ [state.loading[idx].request], ?_, answered_concat hanswers hanswer⟩
      have hmoved : (state.loading[idx] :: state.loading.eraseIdx idx).Perm state.loading :=
        List.getElem_cons_eraseIdx_perm hlt
      rw [List.append_assoc]
      exact ((hmoved.map DetailTask.request).append_left answered).trans hperm

/-! ## One step -/

/-- What a step asks for. -/
def newRequests (env : TuiEnv T) (state : RootState T) (next : PacketView.Step) : List DetailRequest :=
  (PacketView.step env state.view next).details.drop state.view.details.length

/-- It is one request at most, behind those that were asked for before. -/
theorem newRequests_spec (env : TuiEnv T) (state : RootState T) (next : PacketView.Step) :
    (PacketView.step env state.view next).details = state.view.details ++ newRequests env state next
    ∧ (newRequests env state next).length ≤ 1 := by
  obtain ⟨request, heq, -⟩ := PacketView.step_asksOnce env state.view next
  have hnew : newRequests env state next = request.toList := by
    unfold newRequests
    rw [heq, List.drop_left]
  rw [hnew]
  exact ⟨heq, by cases request <;> simp⟩

/-- Asking changes neither the packet list nor the pane, and takes nothing back. -/
theorem foldl_ask_frame (tunnelText : TunnelFailureDetail → Str) (requests : List DetailRequest) (state : RootState T) :
    let after := requests.foldl (RootState.ask tunnelText) state
    after.view = state.view ∧ after.received = state.received ∧ after.pane = state.pane
      ∧ state.sent <+: after.sent := by
  induction requests generalizing state with
  | nil => exact ⟨rfl, rfl, rfl, List.prefix_rfl⟩
  | cons request requests ih =>
      obtain ⟨hview, hreceived, hpane, hsent⟩ := ih (RootState.ask tunnelText state request)
      obtain ⟨task, -, heq⟩ | ⟨event, -, heq⟩ := ask_cases tunnelText state request
      · rw [heq] at hview hreceived hpane hsent
        rw [List.foldl_cons, heq]
        exact ⟨hview, hreceived, hpane, hsent⟩
      · rw [heq] at hview hreceived hpane hsent
        rw [List.foldl_cons, heq]
        exact ⟨hview, hreceived, hpane, (List.prefix_append _ _).trans hsent⟩

/-- What is received is shown by the pane. -/
structure Received (regexNew : Str → Option (Str → List ByteRange)) (state : RootState T) : Prop where
  received : state.received ≤ state.sent.length
  pane : DetailPaneState.InStep regexNew (lastShown (state.sent.take state.received)) state.pane

/-- More can be sent. -/
theorem Received.sent {after : RootState T} (h : Received regexNew state) (hreceived : after.received = state.received)
    (hpane : after.pane = state.pane) (hsent : state.sent <+: after.sent) : Received regexNew after := by
  obtain ⟨rest, hrest⟩ := hsent
  constructor
  · rw [hreceived, ← hrest, List.length_append]
    exact h.received.trans (Nat.le_add_right _ _)
  · rw [hreceived, hpane, ← hrest, List.take_append_of_le_length h.received]
    exact h.pane

theorem Received.pollUiEvents (h : Received regexNew state) : Received regexNew (state.pollUiEvents regexNew) := by
  refine ⟨Nat.le_refl _, ?_⟩
  have hrun := DetailPaneState.runFrom_inStep regexNew
    (((state.sent.drop state.received).filterMap UiEvent.detail?).map ShowDetail.step) h.pane
  rw [lastShown_append, List.take_append_drop] at hrun
  show DetailPaneState.InStep regexNew (lastShown (state.sent.take state.sent.length)) _
  rw [List.take_length]
  exact hrun

/-- What holds at all times. -/
structure Kept (regexNew : Str → Option (Str → List ByteRange)) (tunnelText : TunnelFailureDetail → Str)
    (state : RootState T) : Prop extends Received regexNew state where
  accounted : Accounted List.Perm tunnelText state.view.details state
  edits : ∀ asked ∈ state.view.details, PacketView.EditsMessage asked

theorem Kept.step (h : Kept regexNew tunnelText state) (next : RootStep) :
    Kept regexNew tunnelText (step env regexNew tunnelText state next) := by
  cases next with
  | view next =>
      -- the packet list steps first; what it asks for is in its details already
      have hmoved : Accounted List.Perm tunnelText state.view.details
          { state with view := PacketView.step env state.view next } := h.accounted
      have hfold := hmoved.foldl_ask (newRequests env state next)
      obtain ⟨hview, hreceived, hpane, hsent⟩ := foldl_ask_frame tunnelText (newRequests env state next)
        { state with view := PacketView.step env state.view next }
      have hafter : (RootState.onView env tunnelText state next).view = PacketView.step env state.view next := hview
      refine ⟨h.toReceived.sent hreceived hpane hsent, ?_, ?_⟩
      · show Accounted _ _ (RootState.onView env tunnelText state next).view.details _
        rw [hafter, (newRequests_spec env state next).1]
        exact hfold
      · show ∀ asked ∈ (RootState.onView env tunnelText state next).view.details, PacketView.EditsMessage asked
        rw [hafter]
        exact PacketView.step_editsMessage env h.edits next
  | loaded idx reading =>
      have hframe : (state.onLoaded idx reading).view = state.view
          ∧ (state.onLoaded idx reading).received = state.received ∧ (state.onLoaded idx reading).pane = state.pane
          ∧ state.sent <+: (state.onLoaded idx reading).sent := by
        unfold RootState.onLoaded
        cases state.loading[idx]? with
        | none => exact ⟨rfl, rfl, rfl, List.prefix_rfl⟩
        | some task => exact ⟨rfl, rfl, rfl, List.prefix_append _ _⟩
      refine ⟨h.toReceived.sent hframe.2.1 hframe.2.2.1 hframe.2.2.2, ?_, ?_⟩
      · show Accounted _ _ (state.onLoaded idx reading).view.details _
        rw [hframe.1]
        exact h.accounted.onLoaded idx reading
      · show ∀ asked ∈ (state.onLoaded idx reading).view.details, PacketView.EditsMessage asked
        rw [hframe.1]
        exact h.edits
  | pollUiEvents => exact ⟨h.toReceived.pollUiEvents, h.accounted, h.edits⟩
  | pane next own =>
      refine ⟨⟨h.received, ?_⟩, h.accounted, h.edits⟩
      have hstep := DetailPaneState.step_inStep regexNew h.pane next
      -- the user changes what is shown of the content, never the content
      have hsame : DetailPaneState.lastContent (lastShown (state.sent.take state.received)) next
          = lastShown (state.sent.take state.received) := by
        cases next with
        | setContent content highlightQuery tabSelection => cases own
        | _ => rfl
      rw [hsame] at hstep
      exact hstep

theorem Kept.runFrom (h : Kept regexNew tunnelText state) (steps : List RootStep) :
    Kept regexNew tunnelText (runFrom env regexNew tunnelText state steps) := by
  induction steps generalizing state with
  | nil => exact h
  | cons next steps ih => exact ih (h.step next)

/-! ## In turn -/

/-- Nothing is asked for while a task is loading. -/
def Quiet (env : TuiEnv T) (state : RootState T) : RootStep → Prop
  | .view next => newRequests env state next = [] ∨ state.loading = []
  | .loaded _ _ => True
  | .pollUiEvents => True
  | .pane _ _ => True

instance (state : RootState T) : (next : RootStep) → Decidable (Quiet env state next)
  | .view _ => inferInstanceAs (Decidable (_ ∨ _))
  | .loaded _ _ => inferInstanceAs (Decidable True)
  | .pollUiEvents => inferInstanceAs (Decidable True)
  | .pane _ _ => inferInstanceAs (Decidable True)

/-- Each step of a run is quiet. -/
def QuietRun (env : TuiEnv T) (regexNew : Str → Option (Str → List ByteRange))
    (tunnelText : TunnelFailureDetail → Str) (state : RootState T) : List RootStep → Prop
  | [] => True
  | next :: steps =>
      Quiet env state next ∧ QuietRun env regexNew tunnelText (RootState.step env regexNew tunnelText state next) steps

instance instDecidableQuietRun (state : RootState T) :
    (steps : List RootStep) → Decidable (QuietRun env regexNew tunnelText state steps)
  | [] => inferInstanceAs (Decidable True)
  | next :: steps =>
      have := instDecidableQuietRun (RootState.step env regexNew tunnelText state next) steps
      inferInstanceAs (Decidable (_ ∧ _))

/-- The requests are answered in the order in which they came, and one is loading at most. -/
structure InTurn (tunnelText : TunnelFailureDetail → Str) (state : RootState T) : Prop where
  accounted : Accounted Eq tunnelText state.view.details state
  loading : state.loading.length ≤ 1

/-- One request, while no task is loading. -/
theorem Accounted.ask_eq (h : Accounted Eq tunnelText asked state) (hloading : state.loading = [])
    (request : DetailRequest) : Accounted Eq tunnelText (asked ++ [request]) (RootState.ask tunnelText state request)
      ∧ (RootState.ask tunnelText state request).loading.length ≤ 1 := by
  obtain ⟨answered, rfl, hanswers⟩ := h
  rw [hloading, List.map_nil, List.append_nil]
  obtain ⟨task, rfl, heq⟩ | ⟨event, hevent, heq⟩ := ask_cases tunnelText state request
  · rw [heq, hloading]
    exact ⟨⟨answered, rfl, hanswers⟩, Nat.le_refl 1⟩
  · rw [heq]
    refine ⟨⟨answered ++ [request], ?_, answered_concat hanswers hevent⟩, ?_⟩
    · rw [hloading, List.map_nil, List.append_nil]
    · show state.loading.length ≤ 1
      rw [hloading]
      exact Nat.zero_le 1

theorem InTurn.onLoaded (h : InTurn tunnelText state) (idx : Nat) (reading : TaskReading) :
    InTurn tunnelText (state.onLoaded idx reading) := by
  unfold RootState.onLoaded
  cases hload : state.loading[idx]? with
  | none => exact h
  | some task =>
      obtain ⟨answered, hasked, hanswers⟩ := h.accounted
      obtain ⟨hlt, hget⟩ := List.getElem?_eq_some_iff.mp hload
      -- where one task is loading at most, the one that ends is the oldest
      have honly : state.loading = [task] := by
        obtain ⟨first, hfirst⟩ := List.length_eq_one_iff.mp (Nat.le_antisymm h.loading (by omega))
        rw [hfirst, List.getElem?_singleton] at hload
        split_ifs at hload
        rw [hfirst, Option.some.inj hload]
      have hidx : idx = 0 := by
        have hlen := h.loading
        omega
      subst hidx
      rw [honly]
      refine ⟨⟨answered ++ [task.request], ?_, answered_concat hanswers (event_answers tunnelText task reading)⟩,
        Nat.zero_le 1⟩
      rw [← hasked, honly]
      exact List.append_nil _

theorem InTurn.step (h : InTurn tunnelText state) {next : RootStep} (hquiet : Quiet env state next) :
    InTurn tunnelText (RootState.step env regexNew tunnelText state next) := by
  cases next with
  | view next =>
      obtain ⟨hdetails, hlen⟩ := newRequests_spec env state next
      show InTurn tunnelText ((newRequests env state next).foldl (RootState.ask tunnelText)
        { state with view := PacketView.step env state.view next })
      -- a step asks once, so no second task is started beside the first
      cases hnew : newRequests env state next with
      | nil =>
          rw [hnew, List.append_nil] at hdetails
          refine ⟨?_, h.loading⟩
          show Accounted Eq tunnelText (PacketView.step env state.view next).details _
          rw [hdetails]
          exact h.accounted
      | cons request rest =>
          rw [hnew] at hlen
          have hrest : rest = [] := List.length_eq_zero_iff.mp (by simpa using hlen)
          subst hrest
          have hloading : state.loading = [] := hquiet.resolve_left (by simp [hnew])
          have hmoved : Accounted Eq tunnelText state.view.details
              { state with view := PacketView.step env state.view next } := h.accounted
          obtain ⟨haccounted, hshort⟩ := hmoved.ask_eq hloading request
          have hview := (foldl_ask_frame tunnelText [request]
            { state with view := PacketView.step env state.view next }).1
          refine ⟨?_, hshort⟩
          show Accounted Eq tunnelText (RootState.ask tunnelText _ request).view.details _
          rw [show (RootState.ask tunnelText { state with view := PacketView.step env state.view next } request).view
            = PacketView.step env state.view next from hview, hdetails, hnew]
          exact haccounted
  | loaded idx reading => exact h.onLoaded idx reading
  | pollUiEvents => exact ⟨h.accounted, h.loading⟩
  | pane next own => exact ⟨h.accounted, h.loading⟩

theorem InTurn.runFrom (h : InTurn tunnelText state) {steps : List RootStep}
    (hquiet : QuietRun env regexNew tunnelText state steps) :
    InTurn tunnelText (RootState.runFrom env regexNew tunnelText state steps) := by
  induction steps generalizing state with
  | nil => exact h
  | cons next steps ih => exact ih (h.step hquiet.1) hquiet.2

/-- What is related step by step is related at its end. -/
theorem forall₂_concat_left {A B : Type} {R : A → B → Prop} {as : List A} {a : A} {bs : List B}
    (h : List.Forall₂ R (as ++ [a]) bs) : ∃ front b, bs = front ++ [b] ∧ List.Forall₂ R as front ∧ R a b := by
  induction as generalizing bs with
  | nil =>
      obtain ⟨b, rest, hb, hrest, rfl⟩ := List.forall₂_cons_left_iff.mp h
      rw [List.forall₂_nil_left_iff.mp hrest]
      exact ⟨[], b, rfl, List.Forall₂.nil, hb⟩
  | cons first as ih =>
      obtain ⟨b, rest, hb, hrest, rfl⟩ := List.forall₂_cons_left_iff.mp h
      obtain ⟨front, last, rfl, hfront, hlast⟩ := ih hrest
      exact ⟨b :: front, last, rfl, List.Forall₂.cons hb hfront, hlast⟩

/-- Of answers in the order of their requests, the last one for the detail pane answers the last request for it, or is
    an error of the statistics that were asked for later. -/
theorem lastDetail_of_answers {before after : List DetailRequest} {request : DetailRequest} {events : List UiEvent}
    (hanswers : List.Forall₂ (DetailRequest.Answers tunnelText) (before ++ request :: after) events)
    (hasks : request.asksDetail = true) (hlater : ∀ later ∈ after, later.asksDetail = false) :
    ∃ event, (events.filterMap UiEvent.detail?).getLast? = some event
      ∧ (request.Answers tunnelText (.showDetail event)
        ∨ .filterStats ∈ after ∧ ∃ err, event = statsErrorEvent err) := by
  induction after using List.reverseRecOn generalizing events with
  | nil =>
      obtain ⟨front, last, rfl, -, hlast⟩ := forall₂_concat_left hanswers
      obtain ⟨event, rfl⟩ := hlast.detail?.1 hasks
      refine ⟨event, ?_, Or.inl hlast⟩
      rw [List.filterMap_append]
      exact List.getLast?_concat
  | append_singleton after later ih =>
      rw [← List.cons_append, ← List.append_assoc] at hanswers
      obtain ⟨front, last, rfl, hfront, hlast⟩ := forall₂_concat_left hanswers
      obtain ⟨event, hevent, hshown⟩ := ih hfront fun other hother => hlater other (List.mem_append_left _ hother)
      have hpopup := hlast.detail?.2 (hlater later (List.mem_append_right _ (List.mem_singleton_self later)))
      rw [List.filterMap_append]
      cases hdetail : last.detail? with
      | none =>
          -- a popup shows nothing in the pane
          refine ⟨event, ?_, hshown.imp_right fun ⟨hmem, herr⟩ => ⟨List.mem_append_left _ hmem, herr⟩⟩
          rw [List.filterMap_cons_none hdetail, List.filterMap_nil, List.append_nil]
          exact hevent
      | some shown =>
          obtain ⟨rfl, herr⟩ := hpopup shown hdetail
          refine ⟨shown, ?_, Or.inr ⟨List.mem_append_right _ (List.mem_singleton_self _), herr⟩⟩
          rw [List.filterMap_cons_some hdetail, List.filterMap_nil]
          exact List.getLast?_concat

/-! ## Main results -/

/-- The pane shows what an event brought, or nothing came. -/
theorem Received.shown (h : Received regexNew state) :
    (state.pane.pane.content, state.pane.pane.highlightQuery)
      = ((state.sent.take state.received).filterMap UiEvent.detail?).getLast?.elim (DetailContent.default, none)
        fun event => (event.detail, event.highlightQuery) := by
  rw [← lastShown_eq]
  exact Prod.ext h.pane.content h.pane.highlightQuery

section Runs

variable (env) (regexNew) (tunnelText) (tuiMode : TuiMode) (captureFlowsDir : Str) (timeFormatter : T)
  (summaries : List PacketSummary) (externalDiffCommand externalViewCommand : Bool)

/-- The state that the interface starts with. -/
def start : RootState T :=
  new (PacketView.new env tuiMode captureFlowsDir timeFormatter summaries externalDiffCommand externalViewCommand)

theorem start_kept :
    (start env tuiMode captureFlowsDir timeFormatter summaries externalDiffCommand externalViewCommand).Kept regexNew
      tunnelText :=
  ⟨⟨Nat.le_refl 0, DetailPaneState.new_inStep regexNew⟩, ⟨[], List.Perm.refl [], List.Forall₂.nil⟩, nofun⟩

/-- **The pane shows an answer to what was asked for.** In every run of the packet list, the tasks and the detail pane,
    with the tasks ending in any order: each request is answered once or its task is loading; the pane has the content
    and the query of the answer for it that it received last; and it has the text of its tab. -/
theorem pane_shows_answer (steps : List RootStep) :
    let state := runFrom env regexNew tunnelText (start env tuiMode captureFlowsDir timeFormatter summaries
      externalDiffCommand externalViewCommand) steps
    let pane := state.pane.pane
    (∃ answered, (answered ++ state.loading.map DetailTask.request).Perm state.view.details
      ∧ List.Forall₂ (DetailRequest.Answers tunnelText) answered state.sent)
    ∧ (pane.content, pane.highlightQuery)
      = ((state.sent.take state.received).filterMap UiEvent.detail?).getLast?.elim (DetailContent.default, none)
        (fun event => (event.detail, event.highlightQuery))
    ∧ (pane.text = DetailPane.shownText regexNew pane.selectedText pane.highlightQuery
      ∨ pane.text = .styled (some [⟨detailPlaceholderText, .dim⟩]) ∧ pane.content = DetailContent.default) := by
  intro state pane
  have h : state.Kept regexNew tunnelText := (start_kept env regexNew tunnelText tuiMode captureFlowsDir timeFormatter
    summaries externalDiffCommand externalViewCommand).runFrom steps
  exact ⟨h.accounted, h.shown, h.pane.wired.text⟩

/-- **The pane shows the detail that was asked for last**, if nothing is asked for while a task is loading: whenever no
    task is loading and all was received. If the statistics of the filters were asked for later, it can be their error
    that is shown. -/
theorem pane_shows_last_request (steps : List RootStep)
    (hquiet : QuietRun env regexNew tunnelText (start env tuiMode captureFlowsDir timeFormatter summaries
      externalDiffCommand externalViewCommand) steps) :
    let state := runFrom env regexNew tunnelText (start env tuiMode captureFlowsDir timeFormatter summaries
      externalDiffCommand externalViewCommand) steps
    let pane := state.pane.pane
    state.loading = [] → state.received = state.sent.length →
      ∀ before request after, state.view.details = before ++ request :: after → request.asksDetail = true →
        (∀ later ∈ after, later.asksDetail = false) →
        ∃ event, (request.Answers tunnelText (.showDetail event)
            ∨ .filterStats ∈ after ∧ ∃ err, event = statsErrorEvent err)
          ∧ pane.content = event.detail ∧ pane.highlightQuery = event.highlightQuery := by
  intro state pane hloading hreceived before request after hdetails hasks hlater
  have h : state.Kept regexNew tunnelText := (start_kept env regexNew tunnelText tuiMode captureFlowsDir timeFormatter
    summaries externalDiffCommand externalViewCommand).runFrom steps
  have hstart : InTurn tunnelText (start env tuiMode captureFlowsDir timeFormatter summaries externalDiffCommand
      externalViewCommand) := ⟨⟨[], rfl, List.Forall₂.nil⟩, Nat.zero_le 1⟩
  have hturn : InTurn tunnelText state := hstart.runFrom hquiet
  obtain ⟨answered, hasked, hanswers⟩ := hturn.accounted
  rw [hloading, List.map_nil, List.append_nil] at hasked
  rw [hasked, hdetails] at hanswers
  obtain ⟨event, hevent, hanswer⟩ := lastDetail_of_answers hanswers hasks hlater
  have hshown := h.shown
  rw [hreceived, List.take_length, hevent, Option.elim_some] at hshown
  exact ⟨event, hanswer, congrArg Prod.fst hshown, congrArg Prod.snd hshown⟩

/-- **Every editor that is opened has a session**, for it is opened from a tab with a message. -/
theorem opened_editor_has_session {N : Type} (codecs : Flow.Codecs) (serde : SerdeJson N) (steps : List RootStep) :
    ∀ row detail, .openEdit row detail ∈ (runFrom env regexNew tunnelText (start env tuiMode captureFlowsDir
        timeFormatter summaries externalDiffCommand externalViewCommand) steps).sent →
      (editableSessionFromDetail codecs serde row detail).isSome := by
  intro row detail hsent
  have h : (runFrom env regexNew tunnelText (start env tuiMode captureFlowsDir timeFormatter summaries
      externalDiffCommand externalViewCommand) steps).Kept regexNew tunnelText := (start_kept env regexNew tunnelText
    tuiMode captureFlowsDir timeFormatter summaries externalDiffCommand externalViewCommand).runFrom steps
  obtain ⟨answered, hperm, hanswers⟩ := h.accounted
  obtain ⟨request, hrequest, hanswer⟩ := Sorting.exists_of_mem_forall₂ hanswers hsent
  have hmessage := h.edits request (hperm.subset (List.mem_append_left _ hrequest))
  cases request with
  | edit row' id primaryTab =>
      obtain ⟨reading, heq⟩ := hanswer
      obtain ⟨rfl, rfl⟩ := UiEvent.openEdit.inj heq
      unfold editableSessionFromDetail
      obtain ⟨-, rfl | rfl⟩ := hmessage
      · cases reading <;> rfl
      · cases reading <;> rfl
  | load id highlightQuery tabSelection =>
      obtain ⟨reading, heq⟩ := hanswer
      cases heq
  | tunnel failure id dir highlightQuery => cases hanswer
  | reset => cases hanswer
  | filterStats =>
      obtain ⟨err, heq⟩ := hanswer
      cases err <;> cases heq

end Runs

/-- Two packets come. -/
def twoPackets : PacketView.Step :=
  .pollIncoming [.started (PacketListDelegate.plainPacket "a"), .started (PacketListDelegate.plainPacket "b")]

/-- What the tasks read of a packet without texts, while the statistics fail. -/
def noTexts : TaskReading := ⟨.flow [] [] (.ok ([], [])) [] [], .flow [] [] [] [], some "locked".toList⟩

/-- A packet is clicked on, the statistics are asked for and fail, a second packet is clicked on, and the editor is
    opened for it: the second packet is shown. -/
theorem pane_shows_last_request_second :
    let steps : List RootStep := [.view twoPackets, .view (.click 0), .loaded 0 noTexts, .view .openFilterStats,
      .loaded 0 noTexts, .pollUiEvents, .view (.click 1), .loaded 0 noTexts, .view (.openEdit ⟨.request, .body⟩),
      .loaded 0 noTexts, .pollUiEvents]
    (runFrom PacketListDelegate.rawTimes (fun _ => none) (fun _ => [])
      (start PacketListDelegate.rawTimes .capture [] () [] false false) steps).pane.pane.content.id = "b".toList := by
  intro steps
  have hdetails : (runFrom PacketListDelegate.rawTimes (fun _ => none) (fun _ => [])
      (start PacketListDelegate.rawTimes .capture [] () [] false false) steps).view.details
      = [.load "a".toList none none, .filterStats] ++ .load "b".toList none none
        :: [.edit ⟨"b".toList, "GET".toList, "http".toList, "example.com".toList, "/b".toList, [], none⟩ "b".toList
          .request] := by decide +kernel
  obtain ⟨event, hanswer, hcontent, -⟩ :=
    pane_shows_last_request PacketListDelegate.rawTimes (fun _ => none) (fun _ => []) .capture [] () [] false false
      steps (by decide +kernel) (by decide +kernel) (by decide +kernel) _ _ _ hdetails rfl (by decide)
  rw [hcontent]
  rcases hanswer with ⟨reading, heq⟩ | ⟨hmem, -⟩
  · obtain rfl := UiEvent.showDetail.inj heq
    cases reading with
    | failed err => rfl
    | tunnel sslTlsInfo dir => rfl
    | flow requestMeta requestBody response sslTlsInfo dir => rfl
  · exact absurd hmem (by decide)

/-- If the statistics fail last, their error takes the place of the packet. -/
example :
    (runFrom PacketListDelegate.rawTimes (fun _ => none) (fun _ => [])
      (start PacketListDelegate.rawTimes .capture [] () [] false false)
      [.view twoPackets, .view (.click 0), .loaded 0 noTexts, .view .openFilterStats, .loaded 0 noTexts,
        .pollUiEvents]).pane.pane.content.requestMeta = "filter stats error: locked".toList := by decide +kernel

/-- Without the quiet: the second packet is clicked on while the first one is loading, and its task is faster; then the
    first packet stays in the pane. -/
theorem earlier_request_overtakes :
    let steps : List RootStep := [.view twoPackets, .view (.click 0), .view (.click 1), .loaded 1 noTexts,
      .loaded 0 noTexts, .pollUiEvents]
    let state := runFrom PacketListDelegate.rawTimes (fun _ => none) (fun _ => [])
      (start PacketListDelegate.rawTimes .capture [] () [] false false) steps
    state.view.list.selectedPacketId = some "b".toList ∧ state.pane.pane.content.id = "a".toList
      ∧ state.loading = [] ∧ state.received = state.sent.length := by
  decide +kernel

end RootState

end Inspect.Tui
