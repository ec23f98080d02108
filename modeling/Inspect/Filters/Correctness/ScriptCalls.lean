import Inspect.Filters.Runtime.Compiled
import Inspect.Flow.Correctness.StateStoreMap

/-!
# `Filters.Correctness.ScriptCalls` — the state calls of one execution

`on_request` and `on_response` call several Roto functions, one after the other. Put together these are a script
again (`requestScript`, `responseScript`), so that an execution has one list of calls on the state store. From the list
follows what the execution leaves in the store, and the number of items it counts: that of the last call, or none.
-/

namespace Inspect.Filters

open StateStore

/-! ## Scripts one after the other -/

namespace RotoScript

variable {A B : Type}

/-- A script, and a script that is made of its answer. -/
def bind : RotoScript A → (A → RotoScript B) → RotoScript B
  | .answer value, rest => rest value
  | .stateGet key next, rest => .stateGet key fun value => (next value).bind rest
  | .statePut key value next, rest => .statePut key value fun stored => (next stored).bind rest
  | .stateDelete key next, rest => .stateDelete key fun deleted => (next deleted).bind rest

variable (context : RuntimeStateContext)

/-- **Sequencing**: the call of both is the call of the first and then that of the second. -/
theorem call_bind (script : RotoScript A) (rest : A → RotoScript B) :
    (script.bind rest).call context = (do let value ← script.call context; (rest value).call context) := by
  funext state
  induction script generalizing state with
  | answer value => rfl
  | stateGet key next ih =>
      show ((next _).bind rest).call context _ = _
      exact ih _ _
  | statePut key value next ih =>
      show ((next _).bind rest).call context _ = _
      exact ih _ _
  | stateDelete key next ih =>
      show ((next _).bind rest).call context _ = _
      exact ih _ _

end RotoScript

/-! ## An execution as one script -/

section Labels

variable {D : Type} (functions : LabelFunctions D) (data : D)

/-- `callNonEmpty` as a script. -/
def nonEmptyScript : Option (D → RotoScript Str) → RotoScript (Option Str)
  | none => .answer none
  | some function => (function data).bind fun value => .answer (nonEmptyRotoString value)

/-- `callHeader` as a script. -/
def headerScript : RotoScript (List FilterHeader) :=
  match functions.headerName, functions.headerValue with
  | some nameFn, some valueFn =>
      (nameFn data).bind fun name =>
        match nonEmptyRotoString name with
        | none => .answer []
        | some name => (valueFn data).bind fun value => .answer [⟨name, value⟩]
  | _, _ => .answer []

/-- `callBody` as a script. -/
def bodyScript : RotoScript (Option FilterBodyPatch) :=
  match functions.body with
  | none => .answer none
  | some bodyFn =>
      (bodyFn data).bind fun body =>
        (nonEmptyScript data functions.bodyContentType).bind fun contentType =>
          .answer (some ⟨Text.bytes body, contentType⟩)

/-- `callLabels` as a script. -/
def labelScript (defaultLabel marker name : Str) : RotoScript LabelResult :=
  (nonEmptyScript data functions.mark).bind fun label =>
    (headerScript functions data).bind fun headers =>
      (bodyScript functions data).bind fun body =>
        .answer ⟨label.getD defaultLabel, ⟨marker, name⟩ :: headers, body⟩

variable (context : RuntimeStateContext)

theorem callNonEmpty_eq (function : Option (D → RotoScript Str)) :
    callNonEmpty context data function = (nonEmptyScript data function).call context := by
  cases function with
  | none => rfl
  | some function =>
      unfold nonEmptyScript
      rw [RotoScript.call_bind]
      rfl

theorem callHeader_eq : callHeader functions context data = (headerScript functions data).call context := by
  unfold callHeader headerScript
  cases functions.headerName with
  | none => rfl
  | some nameFn =>
      cases functions.headerValue with
      | none => rfl
      | some valueFn =>
          dsimp only
          rw [RotoScript.call_bind]
          congr 1
          funext name
          cases nonEmptyRotoString name with
          | none => rfl
          | some header =>
              dsimp only
              rw [RotoScript.call_bind]
              rfl

theorem callBody_eq : callBody functions context data = (bodyScript functions data).call context := by
  unfold callBody bodyScript
  cases functions.body with
  | none => rfl
  | some bodyFn =>
      dsimp only
      rw [RotoScript.call_bind]
      congr 1
      funext body
      rw [RotoScript.call_bind, ← callNonEmpty_eq]
      rfl

theorem callLabels_eq (defaultLabel marker name : Str) :
    callLabels functions context data defaultLabel marker name
      = (labelScript functions data defaultLabel marker name).call context := by
  unfold callLabels labelScript
  rw [RotoScript.call_bind, ← callNonEmpty_eq]
  congr 1
  funext label
  rw [RotoScript.call_bind, ← callHeader_eq]
  congr 1
  funext headers
  rw [RotoScript.call_bind, ← callBody_eq]
  rfl

end Labels

namespace CompiledFilter

variable (filter : CompiledFilter CompiledRotoFilter)
variable {N : Type} [BEq N] (serde : SerdeJson N) (regex : Str → Option (Str → Str → Str))

/-- `on_request` as a script. -/
def requestScript (req : FilterRequest) : RotoScript RequestAction :=
  match filter.program with
  | .metadataOnly =>
      .answer (LabelResult.requestAction ⟨filter.name, [⟨"x-inspect-request-filter".toList, filter.name⟩], none⟩)
  | .compiled script =>
      let data := RotoRequestData.fromFilterRequest req
      match script.requestAction with
      | some requestAction =>
          (requestAction data).bind fun action => .answer (action.intoRequestAction serde regex req.body.text)
      | none =>
          match script.onRequest with
          | none => .answer RequestAction.pass
          | some onRequest =>
              (onRequest data).bind fun matched =>
                if matched then
                  (labelScript script.requestLabels data ("roto:".toList ++ filter.name)
                    "x-inspect-roto-request-filter".toList filter.name).bind fun result => .answer result.requestAction
                else .answer RequestAction.pass

/-- `on_response` as a script. -/
def responseScript (res : FilterResponse) : RotoScript ResponseAction :=
  match filter.program with
  | .metadataOnly =>
      .answer (LabelResult.responseAction
        ⟨"filtered:".toList ++ filter.name, [⟨"x-inspect-filter".toList, filter.name⟩], none⟩)
  | .compiled script =>
      let data := RotoResponseData.fromFilterResponse res
      match script.responseAction with
      | some responseAction =>
          (responseAction data).bind fun action => .answer (action.intoResponseAction serde regex res.body.text)
      | none =>
          match script.onResponse with
          | none => .answer ResponseAction.pass
          | some onResponse =>
              (onResponse data).bind fun matched =>
                if matched then
                  (labelScript script.responseLabels data ("roto-res:".toList ++ filter.name)
                    "x-inspect-roto-response-filter".toList filter.name).bind fun result =>
                      .answer result.responseAction
                else .answer ResponseAction.pass

/-- **`on_request` is a call of its script.** -/
theorem onRequest_eq (context : RuntimeStateContext) (req : FilterRequest) :
    filter.onRequest serde regex context req = (filter.requestScript serde regex req).call context := by
  unfold onRequest requestScript
  cases filter.program with
  | metadataOnly => rfl
  | compiled script =>
      dsimp only
      cases script.requestAction with
      | some requestAction =>
          dsimp only
          rw [RotoScript.call_bind]
          rfl
      | none =>
          cases script.onRequest with
          | none => rfl
          | some onRequest =>
              dsimp only
              rw [RotoScript.call_bind]
              congr 1
              funext matched
              cases matched with
              | false => rfl
              | true =>
                  rw [if_pos rfl, if_pos rfl, RotoScript.call_bind, ← callLabels_eq]
                  rfl

/-- **`on_response` is a call of its script.** -/
theorem onResponse_eq (context : RuntimeStateContext) (res : FilterResponse) :
    filter.onResponse serde regex context res = (filter.responseScript serde regex res).call context := by
  unfold onResponse responseScript
  cases filter.program with
  | metadataOnly => rfl
  | compiled script =>
      dsimp only
      cases script.responseAction with
      | some responseAction =>
          dsimp only
          rw [RotoScript.call_bind]
          rfl
      | none =>
          cases script.onResponse with
          | none => rfl
          | some onResponse =>
              dsimp only
              rw [RotoScript.call_bind]
              congr 1
              funext matched
              cases matched with
              | false => rfl
              | true =>
                  rw [if_pos rfl, if_pos rfl, RotoScript.call_bind, ← callLabels_eq]
                  rfl

end CompiledFilter

/-! ## The calls and their effect -/

section Calls

variable {A : Type} (context : RuntimeStateContext)

/-- The calls of a script on the state store, each with the reading of the clock at which it is made. -/
def RotoScript.calls : RotoScript A → RuntimeState → StateStore.Run
  | .answer _, _ => []
  | .stateGet key next, state =>
      let (value, after) := stateGetText context key state
      (state.now, .get (context.stateKey key)) :: (next (value.getD [])).calls after
  | .statePut key value next, state =>
      let (stored, after) := statePutText context key value state
      (state.now, .put (context.stateKey key) (Text.bytes value)) :: (next stored).calls after
  | .stateDelete key next, state =>
      let (deleted, after) := Filters.stateDelete context key state
      (state.now, .delete (context.stateKey key)) :: (next deleted).calls after

end Calls

/-- A `put` that is refused before the store is looked at. -/
def oversized (limits : FilterStateLimits) : StateOp → Bool
  | .put _ value => decide (limits.maxEntryBytes < value.length)
  | .get _ | .delete _ | .sweepExpired => false

/-- The number of items that a call counts. -/
def countedItems (limits : FilterStateLimits) (now : Nat) (op : StateOp) (inner : StateIndex) : Nat :=
  if oversized limits op then 0 else (op.apply limits now inner).entries.entries.length

/-- The number of items counted by the last call of a run, or `counted` if there is none. -/
def lastCounted (limits : FilterStateLimits) : Nat → StateIndex → StateStore.Run → Nat
  | counted, _, [] => counted
  | _, inner, (now, op) :: run => lastCounted limits (countedItems limits now op inner) (op.apply limits now inner) run

/-- The last call of a run counts the items of the store. -/
def endsCounted (limits : FilterStateLimits) (run : StateStore.Run) : Bool :=
  run.getLast?.any fun call => !oversized limits call.2

section Effect

variable {limits : FilterStateLimits} {now : Nat} {inner : StateIndex}

/-- A lookup counts the items that it leaves. -/
theorem get_stateItems (key : StateKey) :
    (StateStore.get limits now key inner).2.2.stateItems
      = countedItems limits now (.get key) inner := by
  show _ = (StateStore.get limits now key inner).1.entries.entries.length
  unfold StateStore.get
  cases inner.entries.lookup key with
  | none => rfl
  | some entry =>
      dsimp only
      split_ifs
      · rfl
      · rfl

/-- A `put` counts the items that it leaves, or none if the value is too large. -/
theorem put_stateItems (key : StateKey) (value : List UInt8) :
    (StateStore.put limits now key value inner).2.2.stateItems
      = countedItems limits now (.put key value) inner := by
  unfold countedItems oversized
  by_cases hlarge : value.length > limits.maxEntryBytes
  · rw [if_pos (decide_eq_true hlarge)]
    show (StateStore.put limits now key value inner).2.2.stateItems = 0
    rw [StateStore.put, if_pos hlarge]
  · rw [if_neg (fun h => hlarge (of_decide_eq_true h))]
    show _ = (StateStore.put limits now key value inner).1.entries.entries.length
    rw [StateStore.put, if_neg hlarge]
    -- whichever limit is hit, the index that is returned is the one that is counted
    dsimp only
    unfold putLocked
    dsimp only
    split_ifs
    all_goals rfl

theorem lastCounted_concat (counted : Nat) (run : StateStore.Run) (call : Nat × StateOp) :
    lastCounted limits counted inner (run ++ [call])
      = countedItems limits call.1 call.2 (runFrom limits inner run) := by
  induction run generalizing counted inner with
  | nil => rfl
  | cons head run ih => exact ih _

/-- What is counted in the end: the items of the store if the last call counts, and nothing else. -/
theorem lastCounted_zero (run : StateStore.Run) :
    lastCounted limits 0 inner run
      = if endsCounted limits run then (runFrom limits inner run).entries.entries.length else 0 := by
  induction run using List.reverseRecOn with
  | nil => rfl
  | append_singleton run call _ =>
      rw [lastCounted_concat, endsCounted, List.getLast?_concat, runFrom_append]
      show (if _ then 0 else _) = if !_ then _ else 0
      by_cases hlarge : oversized limits call.2 = true
      · rw [if_pos hlarge, hlarge]
        rfl
      · rw [if_neg hlarge, eq_false_of_ne_true hlarge]
        rfl

/-- What a state method leaves: one call on the store, and the items that it counted. -/
def AfterCall (store : FilterStateStore) (now : Nat) (op : StateOp) (after : RuntimeState) : Prop :=
  after.store = some { store with inner := op.apply store.limits now store.inner }
    ∧ after.stats.stateItems = countedItems store.limits now op store.inner

section Methods

variable (context : RuntimeStateContext) {state : RuntimeState} {store : FilterStateStore}

theorem stateGetText_after (hstore : state.store = some store) (key : Str) :
    AfterCall store state.now (.get (context.stateKey key)) (stateGetText context key state).2 := by
  unfold stateGetText
  rw [hstore]
  exact ⟨rfl, get_stateItems (context.stateKey key)⟩

theorem statePutText_after (hstore : state.store = some store) (key value : Str) :
    AfterCall store state.now (.put (context.stateKey key) (Text.bytes value))
      (statePutText context key value state).2 := by
  unfold statePutText
  rw [hstore]
  exact ⟨rfl, put_stateItems (context.stateKey key) (Text.bytes value)⟩

theorem stateDelete_after (hstore : state.store = some store) (key : Str) :
    AfterCall store state.now (.delete (context.stateKey key)) (Filters.stateDelete context key state).2 := by
  unfold Filters.stateDelete
  rw [hstore]
  exact ⟨rfl, rfl⟩

/-- **What a script leaves**: its calls on the store, and the items that the last of them counted. -/
theorem call_effect {A : Type} (script : RotoScript A) (hstore : state.store = some store) :
    (script.call context state).2.store
        = some { store with inner := runFrom store.limits store.inner (script.calls context state) }
      ∧ (script.call context state).2.stats.stateItems
        = lastCounted store.limits state.stats.stateItems store.inner (script.calls context state) := by
  induction script generalizing state store with
  | answer value => exact ⟨hstore, rfl⟩
  | stateGet key next ih =>
      obtain ⟨hafter, hitems⟩ := stateGetText_after context hstore key
      have hrest := ih ((stateGetText context key state).1.getD []) hafter
      rw [hitems] at hrest
      exact hrest
  | statePut key value next ih =>
      obtain ⟨hafter, hitems⟩ := statePutText_after context hstore key value
      have hrest := ih (statePutText context key value state).1 hafter
      rw [hitems] at hrest
      exact hrest
  | stateDelete key next ih =>
      obtain ⟨hafter, hitems⟩ := stateDelete_after context hstore key
      have hrest := ih (Filters.stateDelete context key state).1 hafter
      rw [hitems] at hrest
      exact hrest

/-- Without a store a script counts nothing. -/
theorem call_of_none {A : Type} (script : RotoScript A) (hstore : state.store = none) :
    (script.call context state).2 = state := by
  induction script with
  | answer value => rfl
  | stateGet key next ih =>
      have hafter : stateGetText context key state = (none, state) := by rw [stateGetText, hstore]
      show ((next _).call context (stateGetText context key state).2).2 = state
      rw [hafter]
      exact ih _
  | statePut key value next ih =>
      have hafter : statePutText context key value state = (false, state) := by rw [statePutText, hstore]
      show ((next _).call context (statePutText context key value state).2).2 = state
      rw [hafter]
      exact ih _
  | stateDelete key next ih =>
      have hafter : Filters.stateDelete context key state = (false, state) := by rw [Filters.stateDelete, hstore]
      show ((next _).call context (Filters.stateDelete context key state).2).2 = state
      rw [hafter]
      exact ih _

end Methods

end Effect

end Inspect.Filters
