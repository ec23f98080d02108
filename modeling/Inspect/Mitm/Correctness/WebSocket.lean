import Inspect.Mitm.WebSocket

/-!
# `Mitm.Correctness.WebSocket` — what a relay does with messages

At any time, what a side was sent is the start of what the other side has yielded: a message is neither changed, nor sent
twice, nor overtaken, and only one that is in the middle of its send when the relay ends is lost
(`relay_keeps_messages`). A relay that goes on brings everything across (`relay_drains`).
-/

namespace Inspect.Mitm

open Http Inspect.Flow

namespace Relay

variable {M E : Type}

/-- All that a socket has yielded or is going to yield. -/
def arrivals (side : Side) (steps : List (RelayStep M E)) : List (Except E M) :=
  steps.filterMap fun
    | .arrive from' result => if from' = side then some result else none
    | _ => none

/-- What is taken out of a socket, and not sent. -/
def held (relay : Relay M E) (side : Side) : List (Except E M) :=
  match relay.phase with
  | .upgrading => []
  | .selecting => []
  | .sending target msg => if side = target.other then [.ok msg] else []
  | .ended .notUpgraded => []
  | .ended (.failed from' err) => if side = from' then [.error err] else []
  | .ended (.unsent target msg) => if side = target.other then [.ok msg] else []
  | .ended .cancelled => []

theorem arrivals_append (side : Side) (steps more : List (RelayStep M E)) :
    arrivals side (steps ++ more) = arrivals side steps ++ arrivals side more := List.filterMap_append

/-- What was sent, is held and waits. -/
def account (relay : Relay M E) (side : Side) : List (Except E M) :=
  (relay.delivered side.other).map .ok ++ relay.held side ++ relay.waiting side

/-- **One step moves messages, and takes none away.** -/
theorem account_step (relay : Relay M E) (next : RelayStep M E) (side : Side) :
    (relay.step next).account side = relay.account side ++ arrivals side [next] := by
  cases next with
  | arrive from' result =>
      by_cases hside : from' = side
      · subst hside
        simp [account, step, held, arrivals]
      · have hother : side ≠ from' := fun heq => hside heq.symm
        simp [account, step, held, arrivals, hside, hother]
  | cancel => simp [account, step, held, arrivals]
  | upgrade succeeds =>
      cases hphase : relay.phase with
      | upgrading => cases succeeds <;> simp [account, step, held, arrivals, hphase]
      | selecting => simp [account, step, held, arrivals, hphase]
      | sending target msg => simp [account, step, held, arrivals, hphase]
      | ended cause => simp [account, step, held, arrivals, hphase]
  | recv from' =>
      cases hphase : relay.phase with
      | upgrading => simp [account, step, held, arrivals, hphase]
      | selecting =>
          cases hwaiting : relay.waiting from' with
          | nil => simp [account, step, held, arrivals, hphase, hwaiting]
          | cons result rest =>
              by_cases hside : side = from'
              · subst hside
                cases result with
                | ok msg => simp [account, step, held, arrivals, hphase, hwaiting]
                | error err => simp [account, step, held, arrivals, hphase, hwaiting]
              · cases result with
                | ok msg => simp [account, step, held, arrivals, hphase, hwaiting, hside]
                | error err => simp [account, step, held, arrivals, hphase, hwaiting, hside]
      | sending target msg => simp [account, step, held, arrivals, hphase]
      | ended cause => simp [account, step, held, arrivals, hphase]
  | shutdown =>
      cases hphase : relay.phase with
      | upgrading => simp [account, step, held, arrivals, hphase]
      | selecting => cases hcancelled : relay.cancelled <;> simp [account, step, held, arrivals, hphase, hcancelled]
      | sending target msg => simp [account, step, held, arrivals, hphase]
      | ended cause => simp [account, step, held, arrivals, hphase]
  | send succeeds =>
      cases hphase : relay.phase with
      | upgrading => simp [account, step, held, arrivals, hphase]
      | selecting => simp [account, step, held, arrivals, hphase]
      | sending target msg =>
          cases succeeds with
          | false => simp [account, step, held, arrivals, hphase]
          | true =>
              by_cases hside : side = target.other
              · subst hside
                simp [account, step, held, arrivals, hphase]
              · have hother : side.other ≠ target := by
                  rintro rfl
                  exact hside (Side.other_other side).symm
                simp [account, step, held, arrivals, hphase, hside, hother]
      | ended cause => simp [account, step, held, arrivals, hphase]

/-- **Everything that arrives is accounted for.** -/
theorem account_runFrom (relay : Relay M E) (steps : List (RelayStep M E)) (side : Side) :
    (relay.runFrom steps).account side = relay.account side ++ arrivals side steps := by
  induction steps generalizing relay with
  | nil => exact (List.append_nil _).symm
  | cons next steps ih =>
      have hrest := ih (relay.step next)
      rw [account_step, List.append_assoc, ← arrivals_append] at hrest
      exact hrest

/-! ## The end -/

/-- At most one message is in the middle of its send. -/
theorem held_length_le (relay : Relay M E) :
    (relay.held .ingress).length + (relay.held .egress).length ≤ 1 := by
  unfold held
  cases relay.phase with
  | upgrading => exact Nat.zero_le _
  | selecting => exact Nat.zero_le _
  | sending target msg => cases target <;> simp [Side.other]
  | ended cause =>
      cases cause with
      | notUpgraded => exact Nat.zero_le _
      | failed from' err => cases from' <;> simp
      | unsent target msg => cases target <;> simp [Side.other]
      | cancelled => exact Nat.zero_le _

/-- A relay that has ended sends nothing more. -/
theorem step_ended {relay : Relay M E} {cause : RelayEnd M E} (h : relay.phase = .ended cause) (next : RelayStep M E) :
    (relay.step next).phase = .ended cause ∧ (relay.step next).delivered = relay.delivered := by
  cases next with
  | arrive side result => exact ⟨h, rfl⟩
  | cancel => exact ⟨h, rfl⟩
  | upgrade succeeds => simp [step, h]
  | recv side => simp [step, h]
  | shutdown => simp [step, h]
  | send succeeds => simp [step, h]

theorem runFrom_ended {relay : Relay M E} {cause : RelayEnd M E} (h : relay.phase = .ended cause)
    (more : List (RelayStep M E)) : (relay.runFrom more).delivered = relay.delivered := by
  induction more generalizing relay with
  | nil => rfl
  | cons next more ih =>
      obtain ⟨hphase, hdelivered⟩ := step_ended h next
      exact (ih hphase).trans hdelivered

/-- The step that ends a relay. -/
def Ends (relay : Relay M E) : RelayEnd M E → RelayStep M E → Prop
  | .notUpgraded, next => next = .upgrade false
  | .failed side err, next => next = .recv side ∧ .error err ∈ relay.waiting side
  | .unsent target msg, next => next = .send false ∧ relay.phase = .sending target msg
  | .cancelled, next => next = .shutdown ∧ relay.cancelled = true

/-- **How a relay ends.** -/
theorem step_ends {relay : Relay M E} {next : RelayStep M E} {cause : RelayEnd M E}
    (hend : (relay.step next).phase = .ended cause) : relay.phase = .ended cause ∨ relay.Ends cause next := by
  cases next with
  | arrive side result => exact Or.inl hend
  | cancel => exact Or.inl hend
  | upgrade succeeds =>
      cases hphase : relay.phase with
      | upgrading =>
          cases succeeds with
          | true => simp_all [step]
          | false =>
              simp only [step, hphase, Bool.false_eq_true, if_false, RelayPhase.ended.injEq] at hend
              subst hend
              exact Or.inr rfl
      | selecting => simp_all [step]
      | sending target msg => simp_all [step]
      | ended cause => simp_all [step]
  | recv side =>
      cases hphase : relay.phase with
      | upgrading => simp_all [step]
      | selecting =>
          cases hwaiting : relay.waiting side with
          | nil => simp_all [step]
          | cons result rest =>
              cases result with
              | ok msg => simp_all [step]
              | error err =>
                  simp only [step, hphase, hwaiting, RelayPhase.ended.injEq] at hend
                  subst hend
                  exact Or.inr ⟨rfl, hwaiting ▸ List.mem_cons_self⟩
      | sending target msg => simp_all [step]
      | ended cause => simp_all [step]
  | shutdown =>
      cases hphase : relay.phase with
      | upgrading => simp_all [step]
      | selecting =>
          cases hcancelled : relay.cancelled with
          | false => simp_all [step]
          | true =>
              simp only [step, hphase, hcancelled, RelayPhase.ended.injEq] at hend
              subst hend
              exact Or.inr ⟨rfl, hcancelled⟩
      | sending target msg => simp_all [step]
      | ended cause => simp_all [step]
  | send succeeds =>
      cases hphase : relay.phase with
      | upgrading => simp_all [step]
      | selecting => simp_all [step]
      | sending target msg =>
          cases succeeds with
          | true => simp_all [step]
          | false =>
              simp only [step, hphase, Bool.false_eq_true, if_false, RelayPhase.ended.injEq] at hend
              subst hend
              exact Or.inr ⟨rfl, hphase⟩
      | ended cause => simp_all [step]

/-- The guard is cancelled by one step only. -/
theorem mem_of_cancelled {steps : List (RelayStep M E)} (h : (start.runFrom steps).cancelled = true) :
    .cancel ∈ steps := by
  induction steps using List.reverseRecOn with
  | nil => cases h
  | append_singleton steps next ih =>
      unfold runFrom at ih h
      rw [List.foldl_append, List.foldl_cons, List.foldl_nil] at h
      generalize steps.foldl step start = relay at ih h
      by_cases hnext : next = .cancel
      · exact List.mem_append_right _ (List.mem_singleton.mpr hnext.symm)
      · refine List.mem_append_left _ (ih ?_)
        cases next with
        | arrive side result => exact h
        | cancel => exact absurd rfl hnext
        | upgrade succeeds =>
            simp only [step] at h
            split at h <;> exact h
        | recv side =>
            simp only [step] at h
            split at h <;> exact h
        | shutdown =>
            simp only [step] at h
            split at h <;> exact h
        | send succeeds =>
            simp only [step] at h
            split at h
            · split at h <;> exact h
            · exact h

theorem mem_arrivals {side : Side} {result : Except E M} {steps : List (RelayStep M E)} :
    result ∈ arrivals side steps ↔ .arrive side result ∈ steps := by
  unfold arrivals
  rw [List.mem_filterMap]
  constructor
  · rintro ⟨next, hmem, hnext⟩
    cases next with
    | arrive from' result' =>
        dsimp only at hnext
        split_ifs at hnext with hside
        cases hnext
        exact hside ▸ hmem
    | cancel => cases hnext
    | upgrade succeeds => cases hnext
    | recv from' => cases hnext
    | shutdown => cases hnext
    | send succeeds => cases hnext
  · intro hmem
    exact ⟨_, hmem, by simp⟩

/-- What a cause says of the run. -/
def Happened (steps : List (RelayStep M E)) : RelayEnd M E → Prop
  | .notUpgraded => .upgrade false ∈ steps
  | .failed side err => .arrive side (.error err) ∈ steps
  | .unsent target msg => .arrive target.other (.ok msg) ∈ steps ∧ .send false ∈ steps
  | .cancelled => .cancel ∈ steps ∧ .shutdown ∈ steps

theorem Happened.append {steps : List (RelayStep M E)} {cause : RelayEnd M E} (h : Happened steps cause)
    (more : List (RelayStep M E)) : Happened (steps ++ more) cause := by
  cases cause with
  | notUpgraded => exact List.mem_append_left more h
  | failed side err => exact List.mem_append_left more h
  | unsent target msg => exact ⟨List.mem_append_left more h.1, List.mem_append_left more h.2⟩
  | cancelled => exact ⟨List.mem_append_left more h.1, List.mem_append_left more h.2⟩

/-- A relay does not end without a cause. -/
theorem happened_of_ended {steps : List (RelayStep M E)} {cause : RelayEnd M E}
    (hend : (start.runFrom steps).phase = .ended cause) : Happened steps cause := by
  induction steps using List.reverseRecOn with
  | nil => cases hend
  | append_singleton steps next ih =>
      have hlast : next ∈ steps ++ [next] := List.mem_append_right _ List.mem_cons_self
      have haccount : ∀ side, _ = arrivals side steps := account_runFrom start steps
      have hrun : (start.runFrom (steps ++ [next])) = (start.runFrom steps).step next := by
        unfold runFrom
        rw [List.foldl_append, List.foldl_cons, List.foldl_nil]
      rw [hrun] at hend
      rcases step_ends hend with hbefore | hnow
      · exact (ih hbefore).append [next]
      · cases cause with
        | notUpgraded =>
            obtain rfl := hnow
            exact hlast
        | failed side err =>
            obtain ⟨rfl, hmem⟩ := hnow
            refine List.mem_append_left _ (mem_arrivals.mp ?_)
            rw [← haccount side]
            exact List.mem_append_right _ hmem
        | unsent target msg =>
            obtain ⟨rfl, hphase⟩ := hnow
            refine ⟨List.mem_append_left _ (mem_arrivals.mp ?_), hlast⟩
            rw [← haccount target.other]
            refine List.mem_append_left _ (List.mem_append_right _ ?_)
            simp [held, hphase]
        | cancelled =>
            obtain ⟨rfl, hcancelled⟩ := hnow
            exact ⟨List.mem_append_left _ (mem_of_cancelled hcancelled), hlast⟩

/-! ## Going on -/

/-- A step of the task that does not fail. -/
def Serves : RelayStep M E → Prop
  | .recv _ => True
  | .send succeeds => succeeds = true
  | _ => False

theorem arrivals_serves {steps : List (RelayStep M E)} (h : ∀ next ∈ steps, Serves next) (side : Side) :
    arrivals side steps = [] := by
  unfold arrivals
  rw [List.filterMap_eq_nil_iff]
  intro next hmem
  have hserves := h next hmem
  cases next with
  | arrive from' result => exact hserves.elim
  | cancel => rfl
  | upgrade succeeds => rfl
  | recv from' => rfl
  | shutdown => rfl
  | send succeeds => rfl

/-- One message is brought across. -/
theorem serve_one {relay : Relay M E} {side : Side} {msg : M} {rest : List (Except E M)}
    (hphase : relay.phase = .selecting) (hwaiting : relay.waiting side = .ok msg :: rest) :
    (relay.runFrom [.recv side, .send true]).phase = .selecting
    ∧ (relay.runFrom [.recv side, .send true]).waiting = Function.update relay.waiting side rest := by
  simp [runFrom, step, hphase, hwaiting]

/-- **A task that waits in its `select!` can bring everything across** that waits. -/
theorem drains {relay : Relay M E} (hphase : relay.phase = .selecting)
    (hfine : ∀ side, ∀ result ∈ relay.waiting side, ∃ msg, result = .ok msg) :
    ∃ more, (∀ next ∈ more, Serves next) ∧ (relay.runFrom more).phase = .selecting
      ∧ ∀ side, (relay.runFrom more).waiting side = [] := by
  induction hcount : (relay.waiting .ingress).length + (relay.waiting .egress).length generalizing relay with
  | zero =>
      refine ⟨[], fun next hmem => absurd hmem List.not_mem_nil, hphase, fun side => ?_⟩
      rw [Nat.add_eq_zero_iff, List.length_eq_zero_iff, List.length_eq_zero_iff] at hcount
      cases side with
      | ingress => exact hcount.1
      | egress => exact hcount.2
  | succ count ih =>
      obtain ⟨side, msg, rest, hwaiting⟩ : ∃ side msg rest, relay.waiting side = .ok msg :: rest := by
        have hsome : ∃ side, relay.waiting side ≠ [] := by
          by_contra hnone
          rw [not_exists] at hnone
          rw [not_not.mp (hnone .ingress), not_not.mp (hnone .egress)] at hcount
          cases hcount
        obtain ⟨side, hne⟩ := hsome
        obtain ⟨result, rest, heq⟩ := List.exists_cons_of_ne_nil hne
        obtain ⟨msg, rfl⟩ := hfine side result (heq ▸ List.mem_cons_self)
        exact ⟨side, msg, rest, heq⟩
      obtain ⟨hphase', hwaiting'⟩ := serve_one hphase hwaiting
      have hfine' : ∀ side', ∀ result ∈ (relay.runFrom [.recv side, .send true]).waiting side',
          ∃ msg, result = .ok msg := by
        intro side' result hmem
        rw [hwaiting', Function.update_apply] at hmem
        split_ifs at hmem with hside
        · exact hfine side result (hwaiting ▸ List.mem_cons_of_mem _ hmem)
        · exact hfine side' result hmem
      have hcount' : ((relay.runFrom [.recv side, .send true]).waiting .ingress).length
          + ((relay.runFrom [.recv side, .send true]).waiting .egress).length = count := by
        have hlength := congrArg List.length hwaiting
        rw [List.length_cons] at hlength
        rw [hwaiting']
        cases side with
        | ingress => simp; omega
        | egress => simp; omega
      obtain ⟨more, hserves, hselecting, hempty⟩ := ih hphase' hfine' hcount'
      refine ⟨.recv side :: .send true :: more, ?_, hselecting, hempty⟩
      intro next hmem
      rcases List.mem_cons.mp hmem with rfl | hmem
      · trivial
      rcases List.mem_cons.mp hmem with rfl | hmem
      · rfl
      · exact hserves next hmem

/-- A task that has been upgraded and has not ended gets back to its `select!`. -/
theorem serves_selecting {relay : Relay M E}
    (hopen : relay.phase = .selecting ∨ ∃ target msg, relay.phase = .sending target msg) :
    ∃ more : List (RelayStep M E), (∀ next ∈ more, Serves next) ∧ (relay.runFrom more).phase = .selecting
      ∧ (relay.runFrom more).waiting = relay.waiting := by
  rcases hopen with hphase | ⟨target, msg, hphase⟩
  · exact ⟨[], fun next hmem => absurd hmem List.not_mem_nil, hphase, rfl⟩
  · refine ⟨[.send true], ?_, ?_, ?_⟩
    · intro next hmem
      rw [List.mem_singleton.mp hmem]
      rfl
    · simp [runFrom, step, hphase]
    · simp [runFrom, step, hphase]

/-- **A relay keeps messages**, whatever order receiving, sending, failures and the shutdown come in: what each socket has
    yielded is what was sent to the other side, then at most one message or error that the task has taken, then what
    waits, all in order; over both sides no more than one is taken. A relay ends for a cause of its run, and sends
    nothing after that. One that goes on can bring everything across. -/
theorem relay_keeps_messages (steps : List (RelayStep M E)) :
    let relay := start.runFrom steps
    (∀ side, arrivals side steps
      = (relay.delivered side.other).map .ok ++ relay.held side ++ relay.waiting side)
    ∧ (relay.held .ingress).length + (relay.held .egress).length ≤ 1
    ∧ (∀ cause, relay.phase = .ended cause →
        Happened steps cause ∧ ∀ more, (relay.runFrom more).delivered = relay.delivered)
    ∧ ((relay.phase = .selecting ∨ ∃ target msg, relay.phase = .sending target msg) →
        (∀ side, ∀ result ∈ relay.waiting side, ∃ msg, result = .ok msg) →
        ∃ more, (∀ next ∈ more, Serves next)
          ∧ ∀ side, arrivals side steps = ((relay.runFrom more).delivered side.other).map .ok) := by
  intro relay
  have haccount : ∀ side, relay.account side = arrivals side steps := account_runFrom start steps
  refine ⟨fun side => (haccount side).symm, held_length_le relay,
    fun cause hend => ⟨happened_of_ended hend, runFrom_ended hend⟩, ?_⟩
  intro hopen hfine
  obtain ⟨first, hfirst, hselecting, hwaiting⟩ := serves_selecting hopen
  obtain ⟨rest, hrest, hselecting', hempty⟩ := drains hselecting (hwaiting ▸ hfine)
  have hserves : ∀ next ∈ first ++ rest, Serves next := by
    intro next hmem
    rcases List.mem_append.mp hmem with hmem | hmem
    · exact hfirst next hmem
    · exact hrest next hmem
  have hrun : relay.runFrom (first ++ rest) = (relay.runFrom first).runFrom rest := List.foldl_append
  refine ⟨first ++ rest, hserves, fun side => ?_⟩
  have hend := account_runFrom relay (first ++ rest) side
  have hnothing : (relay.runFrom (first ++ rest)).held side = [] := by
    rw [hrun]
    simp [held, hselecting']
  rw [arrivals_serves hserves, List.append_nil, haccount] at hend
  rw [← hend]
  unfold account
  rw [hnothing, hrun, hempty, List.append_nil, List.append_nil]

end Relay

/-! ## The handshake -/

/-- **Neither side is offered a compression**, whatever the upstream answers: the response has none, and the request that
    is sent and upgraded has all headers of the client but this one. -/
theorem mitmWebsocket_uncompressed {H : Type} (client : WebSocketClient H) (req : Request) :
    HeaderMap.getAll (mitmWebsocket client req).1.parts.headers secWebsocketExtensions = []
    ∧ ∀ upgraded ∈ (mitmWebsocket client req).2, ∀ name, HeaderMap.getAll upgraded.parts.headers name
        = if secWebsocketExtensions = name then [] else HeaderMap.getAll req.parts.headers name := by
  unfold mitmWebsocket
  dsimp only
  split
  · exact ⟨rfl, fun upgraded hmem => absurd hmem (Option.not_mem_none upgraded)⟩
  · split
    · exact ⟨rfl, fun upgraded hmem => absurd hmem (Option.not_mem_none upgraded)⟩
    · refine ⟨?_, ?_⟩
      · rw [HeaderMap.getAll_remove, if_pos rfl]
      · rintro upgraded ⟨⟩ name
        exact HeaderMap.getAll_remove _ _ name

end Inspect.Mitm
