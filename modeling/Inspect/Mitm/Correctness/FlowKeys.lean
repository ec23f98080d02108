import Inspect.Flow.Correctness.Dispatch
import Inspect.Lib.Run
import Inspect.Lib.Sorting
import Inspect.Mitm.FlowKeys
import Inspect.Tui.Search

/-!
# `Mitm.Correctness.FlowKeys` — the keys of flows are distinct, and ordered

A party has the number of its draw: the first draw has the number one. As long as the counter does not start again, two
parties have two numbers; and the number can be read from a key, whatever the id of the flow is. So the keys are distinct,
and what is sorted by the numbers that are read is in the order of the draws.
-/

namespace Inspect.Mitm

open Inspect.Flow Inspect.Tui

/-! ## Reading a key -/

namespace Site

/-- The two ways to write an id have the same start. -/
theorem take_idText (site : Site) (id : Uuid) : (site.idText id).take 8 = id.simple.take 8 := by
  have hlength : 8 ≤ id.simple.length := by
    unfold Uuid.simple
    rw [List.length_leftpad]
    omega
  have htext : id.toText.take 8 = id.simple.take 8 := by
    unfold Uuid.toText
    dsimp only
    simp only [List.append_assoc]
    rw [List.take_append_of_le_length (by rw [List.length_take]; omega), List.take_take]
    rfl
  cases site with
  | httpFlow => rfl
  | websocketHandshake => rfl
  | deniedConnect => exact htext
  | failedTunnel => exact htext

/-- All places make the same keys. -/
theorem flowKey_eq (site : Site) (seq : UInt64) (id : Uuid) : site.flowKey seq id = flowKeyOf seq id := by
  unfold flowKey flowKeyOf
  rw [take_idText]
  rfl

/-- **The number of a flow is read from its key**, with more than six digits as well. -/
theorem sequenceFromFlowKey_flowKey (site : Site) (seq : UInt64) (id : Uuid) :
    sequenceFromFlowKey (site.flowKey seq id) = seq := by
  have hdash : '-' ∉ Text.padStart 6 '0' (Nat.toDigits 10 seq.toNat) :=
    fun hmem => absurd (Text.isDigit_of_mem_padStart '-' hmem) (by decide)
  unfold sequenceFromFlowKey flowKey
  rw [Text.splitOnce_of_not_mem hdash]
  dsimp only [Option.map_some, Option.getD_some]
  rw [Text.parseUnsigned_padStart seq.toNat_lt, Option.map_some, Option.getD_some, UInt64.ofNat_toNat]

/-- A file of a flow is found under the key of the flow. -/
theorem flowKeyFromPath_flowKey (site : Site) (seq : UInt64) (id : Uuid) (flowsDir : Filters.FilePath) (name : Str) :
    flowKeyFromPath (flowsDir ++ [site.flowKey seq id, name]) = some (site.flowKey seq id) := by
  have hparent : site.flowKey seq id ≠ "..".toList := by
    intro heq
    have hmem : '-' ∈ site.flowKey seq id := List.mem_append_right _ List.mem_cons_self
    rw [heq] at hmem
    exact absurd hmem (by decide)
  have hdir : (flowsDir ++ [site.flowKey seq id, name]).dropLast = flowsDir ++ [site.flowKey seq id] := by
    rw [List.dropLast_append_of_ne_nil (List.cons_ne_nil _ _)]
    rfl
  unfold flowKeyFromPath Filters.fileName
  rw [hdir, List.getLast?_concat, Option.filter_some, if_pos (decide_eq_true hparent)]

end Site

namespace KeyState

/-! ## One step -/

/-- What a step can do: let a party arrive, let it draw, or let a party that has drawn refuse or make its key. -/
theorem step_cases (state : KeyState) (action : KeyAction) :
    state.step action = state
      ∨ (∃ site, state.step action = { state with parties := state.parties ++ [⟨site, .arrived⟩] })
      ∨ (∃ i site, state.parties[i]? = some ⟨site, .arrived⟩ ∧ state.step action
          = ⟨state.seq + 1, state.parties.set i ⟨site, .drawn (state.seq + 1)⟩, state.draws ++ [i]⟩)
      ∨ ∃ i site seq progress, state.parties[i]? = some ⟨site, .drawn seq⟩
          ∧ (progress = .refused seq ∨ ∃ id, progress = .named seq (site.flowKey seq id))
          ∧ state.step action = { state with parties := state.parties.set i ⟨site, progress⟩ } := by
  cases action with
  | arrive site => exact Or.inr (Or.inl ⟨site, rfl⟩)
  | draw i =>
      unfold step
      dsimp only
      split
      · rename_i site hparty
        exact Or.inr (Or.inr (Or.inl ⟨i, site, hparty, rfl⟩))
      · exact Or.inl rfl
  | refuse i =>
      unfold step
      dsimp only
      split
      · rename_i site seq hparty
        split_ifs
        · exact Or.inr (Or.inr (Or.inr ⟨i, site, seq, _, hparty, Or.inl rfl, rfl⟩))
        · exact Or.inl rfl
      · exact Or.inl rfl
  | name i id =>
      unfold step
      dsimp only
      split
      · rename_i site seq hparty
        exact Or.inr (Or.inr (Or.inr ⟨i, site, seq, _, hparty, Or.inr ⟨id, rfl⟩, rfl⟩))
      · exact Or.inl rfl

/-- What is known of a state: a party has the number of its draw, it draws once, and a key is made of the number. -/
structure Inv (state : KeyState) : Prop where
  counter : state.seq = UInt64.ofNat state.draws.length
  number : ∀ i party seq, state.parties[i]? = some party → party.progress.seq? = some seq →
    ∃ n, state.draws[n]? = some i ∧ seq = UInt64.ofNat (n + 1)
  drew : ∀ i ∈ state.draws, ∃ party seq, state.parties[i]? = some party ∧ party.progress.seq? = some seq
  once : state.draws.Nodup
  key : ∀ i seq flowKey, state.Named i seq flowKey → ∃ (site : Site) (id : Uuid), flowKey = site.flowKey seq id

/-- A party of a list in which one was replaced. -/
theorem getElem?_set_cases {parties : List Party} {i j : Nat} {party old found : Party} (hold : parties[i]? = some old)
    (h : (parties.set i party)[j]? = some found) : j = i ∧ found = party ∨ j ≠ i ∧ parties[j]? = some found := by
  obtain ⟨hlt, -⟩ := List.getElem?_eq_some_iff.mp hold
  rw [List.getElem?_set] at h
  split_ifs at h with heq
  · exact Or.inl ⟨heq.symm, (Option.some.inj h).symm⟩
  · exact Or.inr ⟨Ne.symm heq, h⟩

/-- Replacing a party by one that has drawn takes no number from anybody. -/
theorem drew_set {parties : List Party} {i j : Nat} {party old : Party} {seq : UInt64} (hold : parties[i]? = some old)
    (hseq : party.progress.seq? = some seq)
    (hother : i ≠ j → ∃ found seq, parties[j]? = some found ∧ found.progress.seq? = some seq) :
    ∃ found seq, (parties.set i party)[j]? = some found ∧ found.progress.seq? = some seq := by
  obtain ⟨hlt, -⟩ := List.getElem?_eq_some_iff.mp hold
  by_cases heq : i = j
  · subst heq
    exact ⟨party, seq, List.getElem?_set_self hlt, hseq⟩
  · obtain ⟨found, seq', hfound, hseq'⟩ := hother heq
    exact ⟨found, seq', by rw [List.getElem?_set_ne heq]; exact hfound, hseq'⟩

theorem inv_initial : Inv initial where
  counter := rfl
  number := fun i party seq hparty => by simp [initial] at hparty
  drew := fun i hi => absurd hi List.not_mem_nil
  once := List.nodup_nil
  key := fun i seq flowKey hnamed => by
    obtain ⟨site, hparty⟩ := hnamed
    simp [initial] at hparty

/-- A party that arrives has no number yet. -/
theorem inv_arrive {state : KeyState} (h : Inv state) (site : Site) :
    Inv { state with parties := state.parties ++ [⟨site, .arrived⟩] } := by
  have hold : ∀ {i : Nat} {party : Party} {seq : UInt64},
      (state.parties ++ [⟨site, .arrived⟩])[i]? = some party → party.progress.seq? = some seq →
        state.parties[i]? = some party := by
    intro i party seq hparty hseq
    rcases Nat.lt_or_ge i state.parties.length with hlt | hge
    · rw [List.getElem?_append_left hlt] at hparty
      exact hparty
    · -- this is the party that has just arrived
      rw [List.getElem?_append_right hge] at hparty
      obtain rfl := List.mem_singleton.mp (List.mem_of_getElem? hparty)
      cases hseq
  refine ⟨h.counter, fun i party seq hparty hseq => h.number i party seq (hold hparty hseq) hseq, ?_, h.once, ?_⟩
  · intro i hi
    obtain ⟨party, seq, hparty, hseq⟩ := h.drew i hi
    obtain ⟨hlt, -⟩ := List.getElem?_eq_some_iff.mp hparty
    exact ⟨party, seq, by rw [List.getElem?_append_left hlt]; exact hparty, hseq⟩
  · rintro i seq flowKey ⟨site', hparty⟩
    exact h.key i seq flowKey ⟨site', hold hparty rfl⟩

/-- The draw of a party is behind all others, and the counter goes on by one. -/
theorem inv_draw {state : KeyState} (h : Inv state) {i : Nat} {site : Site}
    (hparty : state.parties[i]? = some ⟨site, .arrived⟩) :
    Inv ⟨state.seq + 1, state.parties.set i ⟨site, .drawn (state.seq + 1)⟩, state.draws ++ [i]⟩ := by
  have hnext : state.seq + 1 = UInt64.ofNat (state.draws.length + 1) := by
    rw [h.counter, UInt64.ofNat_add]
    rfl
  refine ⟨?_, ?_, ?_, ?_, ?_⟩
  · rw [List.length_append]
    exact hnext
  · intro j party seq hj hseq
    rcases getElem?_set_cases hparty hj with ⟨rfl, rfl⟩ | ⟨-, hj⟩
    · refine ⟨state.draws.length, List.getElem?_concat_length, ?_⟩
      rw [← hnext]
      exact (Option.some.inj hseq).symm
    · obtain ⟨n, hdraw, heq⟩ := h.number j party seq hj hseq
      obtain ⟨hlt, -⟩ := List.getElem?_eq_some_iff.mp hdraw
      exact ⟨n, by rw [List.getElem?_append_left hlt]; exact hdraw, heq⟩
  · intro j hj
    refine drew_set hparty rfl fun hne => ?_
    rcases List.mem_append.mp hj with hmem | hmem
    · exact h.drew j hmem
    · exact absurd (List.mem_singleton.mp hmem).symm hne
  · -- who draws has arrived only, and who has drawn before has not
    rw [List.nodup_append]
    refine ⟨h.once, List.nodup_singleton i, ?_⟩
    intro j hj k hk
    obtain rfl := List.mem_singleton.mp hk
    rintro rfl
    obtain ⟨party, seq, hfound, hseq⟩ := h.drew j hj
    rw [hparty] at hfound
    obtain rfl := Option.some.inj hfound
    cases hseq
  · rintro j seq flowKey ⟨site', hj⟩
    rcases getElem?_set_cases hparty hj with ⟨-, hsame⟩ | ⟨-, hj⟩
    · cases hsame
    · exact h.key j seq flowKey ⟨site', hj⟩

/-- What a party makes of its number changes nothing else. -/
theorem inv_settle {state : KeyState} (h : Inv state) {i : Nat} {site : Site} {seq : UInt64} {progress : Progress}
    (hparty : state.parties[i]? = some ⟨site, .drawn seq⟩)
    (hprogress : progress = .refused seq ∨ ∃ id, progress = .named seq (site.flowKey seq id)) :
    Inv { state with parties := state.parties.set i ⟨site, progress⟩ } := by
  have hseq : progress.seq? = some seq := by
    rcases hprogress with rfl | ⟨id, rfl⟩
    · rfl
    · rfl
  refine ⟨h.counter, ?_, ?_, h.once, ?_⟩
  · intro j party seq' hj hseq'
    rcases getElem?_set_cases hparty hj with ⟨rfl, rfl⟩ | ⟨-, hj⟩
    · obtain rfl := Option.some.inj (hseq.symm.trans hseq')
      exact h.number j _ _ hparty rfl
    · exact h.number j party seq' hj hseq'
  · exact fun j hj => drew_set hparty hseq fun _ => h.drew j hj
  · rintro j seq' flowKey ⟨site', hj⟩
    rcases getElem?_set_cases hparty hj with ⟨rfl, hsame⟩ | ⟨-, hj⟩
    · obtain ⟨rfl, hnamed⟩ := Party.mk.inj hsame
      rcases hprogress with rfl | ⟨id, rfl⟩
      · cases hnamed
      · obtain ⟨rfl, rfl⟩ := Progress.named.inj hnamed
        exact ⟨site', id, rfl⟩
    · exact h.key j seq' flowKey ⟨site', hj⟩

theorem step_inv {state : KeyState} (h : Inv state) (action : KeyAction) : Inv (state.step action) := by
  obtain heq | ⟨site, heq⟩ | ⟨i, site, hparty, heq⟩ | ⟨i, site, seq, progress, hparty, hprogress, heq⟩ :=
    step_cases state action
  · rw [heq]
    exact h
  · rw [heq]
    exact inv_arrive h site
  · rw [heq]
    exact inv_draw h hparty
  · rw [heq]
    exact inv_settle h hparty hprogress

/-! ## Whole runs -/

theorem run_inv (actions : List KeyAction) : Inv (run actions initial) :=
  Run.throughout inv_initial (fun _ action _ _ h => step_inv h action) actions (List.prefix_refl actions)

/-- The number of a party is one more than the number of the draws before it. -/
theorem Inv.seq_eq {state : KeyState} (h : Inv state) (hdraws : state.draws.length < 2 ^ 64) {i : Nat} {seq : UInt64}
    {flowKey : Str} (hnamed : state.Named i seq flowKey) :
    sequenceFromFlowKey flowKey = seq ∧ ∃ n, state.draws[n]? = some i ∧ seq.toNat = n + 1 := by
  obtain ⟨site, id, hkey⟩ := h.key i seq flowKey hnamed
  obtain ⟨_, hparty⟩ := hnamed
  obtain ⟨n, hdraw, hseq⟩ := h.number i _ seq hparty rfl
  obtain ⟨hlt, -⟩ := List.getElem?_eq_some_iff.mp hdraw
  refine ⟨?_, n, hdraw, ?_⟩
  · rw [hkey, site.sequenceFromFlowKey_flowKey]
  · rw [hseq, UInt64.toNat_ofNat', Nat.mod_eq_of_lt (by omega)]

theorem sequence_le_of_isLE {a b : FullTextSearchResult} (h : (compareResults a b).isLE = true) :
    sequenceFromFlowKey a.flowKey ≤ sequenceFromFlowKey b.flowKey := by
  by_contra hnot
  have hgt : compare (sequenceFromFlowKey a.flowKey) (sequenceFromFlowKey b.flowKey) = .gt :=
    Std.compare_eq_gt.mpr (UInt64.not_le.mp hnot)
  change ((compare (sequenceFromFlowKey a.flowKey) (sequenceFromFlowKey b.flowKey)).then _).isLE = true at h
  rw [hgt] at h
  cases h

/-- The comparison of search results is an order. -/
instance : Std.TransCmp compareResults :=
  inferInstanceAs (Std.TransCmp (compareLex _ (compareLex _ _)))

/-- **Flow keys are distinct, a key gives back its number, and results that are sorted by it are in the order in which the
    flows were made**, in every interleaving in which the counter does not start again. -/
theorem flowKeys_distinct_ordered (actions : List KeyAction) (h : (run actions initial).draws.length < 2 ^ 64) :
    (run actions initial).draws.Nodup
      ∧ (∀ i j seq seq' flowKey, (run actions initial).Named i seq flowKey →
          (run actions initial).Named j seq' flowKey → i = j)
      ∧ (∀ i seq flowKey, (run actions initial).Named i seq flowKey → sequenceFromFlowKey flowKey = seq)
      ∧ ∀ results : List FullTextSearchResult,
          (sortResults results).Pairwise fun a b => ∀ i j seq seq', (run actions initial).Named i seq a.flowKey →
            (run actions initial).Named j seq' b.flowKey → (run actions initial).NotLater i j := by
  have hinv := run_inv actions
  refine ⟨hinv.once, ?_, fun i seq flowKey hnamed => (hinv.seq_eq h hnamed).1, fun results => ?_⟩
  · intro i j seq seq' flowKey hi hj
    obtain ⟨hkey, n, hn, hseq⟩ := hinv.seq_eq h hi
    obtain ⟨hkey', m, hm, hseq'⟩ := hinv.seq_eq h hj
    have hnumber : n = m := by
      have hsame := congrArg UInt64.toNat (hkey.symm.trans hkey')
      omega
    rw [hnumber, hm] at hn
    exact (Option.some.inj hn).symm
  · refine (Sorting.pairwise_sort compareResults results).imp fun hle => ?_
    intro i j seq seq' hi hj
    obtain ⟨hkey, n, hn, hseq⟩ := hinv.seq_eq h hi
    obtain ⟨hkey', m, hm, hseq'⟩ := hinv.seq_eq h hj
    have hnumbers := sequence_le_of_isLE hle
    rw [hkey, hkey', UInt64.le_iff_toNat_le] at hnumbers
    exact ⟨n, m, by omega, hn, hm⟩

/-- Three flows: the second one draws first, and the third one is refused. -/
theorem flowKeys_distinct_ordered_three :
    let actions : List KeyAction := [.arrive .httpFlow, .arrive .failedTunnel, .arrive .websocketHandshake, .draw 1, .draw 2,
      .draw 0, .refuse 2, .name 0 ⟨1⟩, .name 1 ⟨2⟩]
    (run actions initial).draws = [1, 2, 0]
      ∧ (∀ i seq flowKey, (run actions initial).Named i seq flowKey → sequenceFromFlowKey flowKey = seq) :=
  ⟨by decide, (flowKeys_distinct_ordered _ (by decide)).2.2.1⟩

/-! ## The places -/

/-- The steps of a party that makes a key, with nobody between them. -/
def keyActions (site : Site) (i : Nat) (id : Uuid) : List KeyAction := [.arrive site, .draw i, .name i id]

theorem run_keyActions (state : KeyState) (site : Site) (id : Uuid) :
    run (keyActions site state.parties.length id) state
      = ⟨state.seq + 1, state.parties ++ [⟨site, .named (state.seq + 1) (flowKeyOf (state.seq + 1) id)⟩],
        state.draws ++ [state.parties.length]⟩ := by
  have hlast : ∀ party : Party, (state.parties ++ [party])[state.parties.length]? = some party :=
    fun party => List.getElem?_concat_length
  have hset : ∀ party party' : Party, (state.parties ++ [party]).set state.parties.length party' = state.parties ++ [party'] :=
    fun party party' => by rw [List.set_append_right _ _ (Nat.le_refl _), Nat.sub_self]; rfl
  have hdraw : step { state with parties := state.parties ++ [⟨site, .arrived⟩] } (.draw state.parties.length)
      = ⟨state.seq + 1, state.parties ++ [⟨site, .drawn (state.seq + 1)⟩], state.draws ++ [state.parties.length]⟩ := by
    unfold step
    dsimp only
    rw [hlast]
    dsimp only
    rw [hset]
  unfold run keyActions
  rw [List.foldl_cons, List.foldl_cons, List.foldl_cons, List.foldl_nil]
  conv_lhs => arg 1; arg 1; unfold step
  dsimp only
  rw [hdraw]
  unfold step
  dsimp only
  rw [hlast]
  dsimp only
  rw [hset, site.flowKey_eq]

/-- A place that takes the next number of the counter and makes the key of a flow of it is a party of a run. -/
theorem named_keyActions (keys : KeyState) (site : Site) {seq : UInt64} (hseq : keys.seq = seq) (id : Uuid) :
    (run (keyActions site keys.parties.length id) keys).seq = seq + 1
      ∧ (run (keyActions site keys.parties.length id) keys).Named keys.parties.length (seq + 1) (flowKeyOf (seq + 1) id) := by
  rw [run_keyActions, hseq]
  exact ⟨rfl, site, List.getElem?_concat_length⟩

section Places

variable {S N C : Type} (keys : KeyState)

/-- An HTTP flow. -/
theorem newRequestContext_named (dispatcher : FlowDispatcher S N) {req : Flow.Request} {reqCtx : RequestContext}
    (h : dispatcher.requestContext req = some reqCtx) (flow : FlowState S N) (hseq : keys.seq = flow.seq) :
    ∃ ctx flow', dispatcher.newRequestContext req flow = (.ok ctx, flow')
      ∧ (run (keyActions .httpFlow keys.parties.length ctx.id) keys).seq = flow'.seq
      ∧ (run (keyActions .httpFlow keys.parties.length ctx.id) keys).Named keys.parties.length ctx.seq ctx.flowKey :=
  ⟨_, _, dispatcher.newRequestContext_apply h flow, named_keyActions keys .httpFlow hseq _⟩

/-- What is told of a handshake has the number and the key of its context. -/
theorem requestCommitted_mem (dispatcher : FlowDispatcher S N) (bodySaveLimitBytes : Option Nat)
    (ctx : RequestDispatchContext) (req : Flow.Request) :
    ∃ event, .requestCommitted event ∈ websocketRequestEffects dispatcher bodySaveLimitBytes ctx req
      ∧ event.seq = ctx.seq ∧ event.flowKey = ctx.flowKey :=
  ⟨_, List.mem_cons_of_mem _ (List.mem_cons_of_mem _ (List.mem_cons_of_mem _
    (List.mem_cons_of_mem _ List.mem_cons_self))), rfl, rfl⟩

/-- A WebSocket handshake. -/
theorem dispatchWebsocketHandshake_named (dispatcher : FlowDispatcher S N) (serveWebsocket : Flow.Request → Flow.Response)
    (bodySaveLimitBytes : Option Nat) {req : Flow.Request} {reqCtx : RequestContext}
    (h : dispatcher.requestContext req = some reqCtx) (flow : FlowState S N) (hseq : keys.seq = flow.seq) :
    ∃ response effects flow' event id,
      dispatchWebsocketHandshake dispatcher serveWebsocket bodySaveLimitBytes req flow = (response, effects, flow')
      ∧ .requestCommitted event ∈ effects
      ∧ (run (keyActions .websocketHandshake keys.parties.length id) keys).seq = flow'.seq
      ∧ (run (keyActions .websocketHandshake keys.parties.length id) keys).Named keys.parties.length event.seq
          event.flowKey := by
  unfold dispatchWebsocketHandshake
  rw [h]
  obtain ⟨hcounter, hnamed⟩ := named_keyActions keys .websocketHandshake hseq (flow.uuids 0)
  obtain ⟨event, hevent, hnumber, hkey⟩ := requestCommitted_mem dispatcher bodySaveLimitBytes {
    id := flow.uuids 0
    seq := flow.seq + 1
    flowKey := flowKeyOf (flow.seq + 1) (flow.uuids 0)
    flowDir := dispatcher.flowsDir ++ [flowKeyOf (flow.seq + 1) (flow.uuids 0)]
    epochMs := flow.clock 0
    tlsSni := req.tlsSni
    protocol := websocketSchemeFromHttpScheme reqCtx.protocol
    host := reqCtx.host
    uri := req.parts.uri
    method := req.parts.method } req
  refine ⟨_, _, _, event, flow.uuids 0, rfl, List.mem_append_left _ hevent, hcounter, ?_⟩
  rw [hnumber, hkey]
  exact hnamed

/-- A `CONNECT` that is denied. -/
theorem denyTunnel_named (connect : ConnectDispatchOutput) (world : World S N) (hseq : keys.seq = world.flow.seq) :
    ∃ event id, (denyTunnel connect world).2.tunnels = world.tunnels ++ [event]
      ∧ (run (keyActions .deniedConnect keys.parties.length id) keys).seq = (denyTunnel connect world).2.flow.seq
      ∧ (run (keyActions .deniedConnect keys.parties.length id) keys).Named keys.parties.length event.seq event.flowKey :=
  ⟨_, world.flow.uuids 0, rfl, named_keyActions keys .deniedConnect hseq _⟩

/-- A tunnel that fails. -/
theorem failTunnel_named (dispatcher : FlowDispatcher S N) (rfc3999z : Int64 → Str) (target : HostWithPort) (error : Str)
    (world : World S N) (hseq : keys.seq = world.flow.seq) :
    ∃ event id, (failTunnel dispatcher rfc3999z target error world).2.tunnels = world.tunnels ++ [event]
      ∧ (run (keyActions .failedTunnel keys.parties.length id) keys).seq
          = (failTunnel dispatcher rfc3999z target error world).2.flow.seq
      ∧ (run (keyActions .failedTunnel keys.parties.length id) keys).Named keys.parties.length event.seq
          event.flowKey := by
  have hnamed := named_keyActions keys .failedTunnel hseq (world.flow.uuids 0)
  rw [← Site.flowKey_eq .failedTunnel] at hnamed
  exact ⟨_, world.flow.uuids 0, rfl, hnamed⟩

end Places

end KeyState

end Inspect.Mitm
