import SystemcTlm.Pcie.Drain
import SystemcTlm.Pcie.FlowOrder

/-!
# Service of the flows of highest priority

Where no packet for an egress port exceeds the priority of a flow, the requests of
the flow contend in every arbitration of the port.  The round robin then serves the
flow or comes nearer to its ingress port.  A packet in the ingress buffer becomes a
request after as many cycles as there are packets up to it, whatever happens to the
requests meanwhile.
-/

namespace SystemcTlm.Pcie.PCIeSwitchArbitrator

open SystemcTlm.Container SystemcTlm.Loop SystemcTlm.Transition

variable {queues : PriorityQueue ArbitrationRequest arbitrationComparator}
  {sorting : Sorting ArbitrationRequest byIngressPort} {flow : Flow}

/-- The requests of the flow. -/
def queued (flow : Flow) (arb : PCIeSwitchArbitrator queues) : Nat :=
  (queues.contents (arb.arbitrationQueues flow.egressPort)).countP fun request =>
    flow.has request.packet = true

/-- The packets of the flow among the first `b` of its ingress buffer. -/
def ahead (b : Nat) (flow : Flow) (arb : PCIeSwitchArbitrator queues) : Nat :=
  ((arb.ingressBuffers flow.ingressPort).take b).countP flow.has

/-- How many ports the round robin looks at before the one of the flow. -/
def turnsTo (flow : Flow) (arb : PCIeSwitchArbitrator queues) : Nat :=
  ringDist 4 ((arb.lastServedIngressPort flow.egressPort + 1) % 4) flow.ingressPort

theorem turnsTo_lt (ingress : flow.ingressPort < 4) (arb : PCIeSwitchArbitrator queues) :
    arb.turnsTo flow < 4 :=
  ringDist_lt (Nat.mod_lt _ (by decide)) ingress

/-! ## From the buffers into the queues -/

section Process

variable {arb : PCIeSwitchArbitrator queues} {now : Nat → Int} {port : Nat}

variable (flow) in
/-- The packet that leaves a buffer becomes a request, maybe of the flow. -/
theorem queued_processIngressBuffer (sound : arb.Sound) (now : Nat → Int) {packet : PCIePacket}
    {rest : List PCIePacket} (front : arb.ingressBuffers port = packet :: rest) :
    (arb.processIngressBuffer now port).ingressBuffers =
        Function.update arb.ingressBuffers port rest ∧
      (arb.processIngressBuffer now port).queued flow =
        arb.queued flow + if flow.has packet = true then 1 else 0 := by
  obtain ⟨request, rfl, -, -, -, -, -, after⟩ := processIngressBuffer_cons sound now front
  rw [after]
  refine ⟨rfl, ?_⟩
  unfold queued
  dsimp only
  rw [Function.update_apply]
  split_ifs with here has has
  · rw [queues.contents_push, Multiset.countP_cons, if_pos has, here]
  · rw [queues.contents_push, Multiset.countP_cons, if_neg has, here]
  · exact absurd (Flow.has_iff.mp has).2.1.symm here
  · rfl

/-- The other ingress ports have no packet of the flow. -/
theorem processIngressBuffer_other (now : Nat → Int) (sound : arb.Sound)
    (other : port ≠ flow.ingressPort) :
    (arb.processIngressBuffer now port).queued flow = arb.queued flow ∧
      (arb.processIngressBuffer now port).ingressBuffers flow.ingressPort =
        arb.ingressBuffers flow.ingressPort := by
  cases front : arb.ingressBuffers port with
  | nil =>
      rw [processIngressBuffer_nil front]
      exact ⟨rfl, rfl⟩
  | cons packet rest =>
      have onPort := (sound.buffers port packet (front ▸ List.mem_cons_self)).1
      have foreign : ¬ flow.has packet = true := fun has =>
        other (onPort.symm.trans (Flow.has_iff.mp has).1)
      rcases queued_processIngressBuffer flow sound now front with ⟨buffers, queued⟩
      rw [buffers, queued, if_neg foreign]
      exact ⟨rfl, Function.update_of_ne (Ne.symm other) _ _⟩

variable (flow) in
/-- A packet of the flow that leaves the buffer becomes a request. -/
theorem processIngressBuffer_own (sound : arb.Sound) (now : Nat → Int) (b : Nat) :
    arb.queued flow + arb.ahead b flow ≤
      (arb.processIngressBuffer now flow.ingressPort).queued flow +
        (arb.processIngressBuffer now flow.ingressPort).ahead (b - 1) flow := by
  cases front : arb.ingressBuffers flow.ingressPort with
  | nil =>
      rw [processIngressBuffer_nil front, ahead, ahead, front, List.take_nil, List.take_nil]
  | cons packet rest =>
      rcases queued_processIngressBuffer flow sound now front with ⟨buffers, queued⟩
      rw [queued, ahead, ahead, buffers, front, Function.update_self]
      cases b with
      | zero => exact Nat.le_add_right_of_le (Nat.le_add_right _ _)
      | succ b =>
          rw [List.take_succ_cons, List.countP_cons, Nat.add_sub_cancel]
          omega

/-- What has been ahead in the buffer moves up by one place. -/
theorem processIngressBuffers_flow (sound : arb.Sound) (ingress : flow.ingressPort < 4)
    (now : Nat → Int) (b : Nat) :
    arb.queued flow + arb.ahead b flow ≤
      (arb.processIngressBuffers now).queued flow +
        (arb.processIngressBuffers now).ahead (b - 1) flow := by
  have loop : (arb.processIngressBuffers now).Sound ∧
      (4 ≤ flow.ingressPort → (arb.processIngressBuffers now).queued flow = arb.queued flow ∧
        (arb.processIngressBuffers now).ingressBuffers flow.ingressPort =
          arb.ingressBuffers flow.ingressPort) ∧
      (flow.ingressPort < 4 → arb.queued flow + arb.ahead b flow ≤
        (arb.processIngressBuffers now).queued flow +
          (arb.processIngressBuffers now).ahead (b - 1) flow) := by
    apply forRange_induction fun k (current : PCIeSwitchArbitrator queues) => current.Sound ∧
      (k ≤ flow.ingressPort → current.queued flow = arb.queued flow ∧
        current.ingressBuffers flow.ingressPort = arb.ingressBuffers flow.ingressPort) ∧
      (flow.ingressPort < k → arb.queued flow + arb.ahead b flow ≤
        current.queued flow + current.ahead (b - 1) flow)
    · exact ⟨sound, fun _ => ⟨rfl, rfl⟩, fun never => absurd never (Nat.not_lt_zero _)⟩
    · rintro port current _ ⟨before, early, late⟩
      refine ⟨before.processIngressBuffer, fun later => ?_, fun passed => ?_⟩
      · rcases processIngressBuffer_other now before (Nat.ne_of_lt later) with
          ⟨queued, buffer⟩
        rcases early (Nat.le_of_lt later) with ⟨queuedBefore, bufferBefore⟩
        exact ⟨queued.trans queuedBefore, buffer.trans bufferBefore⟩
      · rcases Nat.lt_succ_iff_lt_or_eq.mp passed with earlier | here
        · rcases processIngressBuffer_other now before (Nat.ne_of_gt earlier) with
            ⟨queued, buffer⟩
          rw [queued, ahead, ahead, buffer]
          exact late earlier
        · subst here
          rcases early (Nat.le_refl _) with ⟨queuedBefore, bufferBefore⟩
          have moved := processIngressBuffer_own flow before now b
          rwa [queuedBefore, ahead, bufferBefore] at moved
  exact loop.2.2 ingress

end Process

/-! ## Out of the queue -/

section Outcome

variable {filled after : PCIeSwitchArbitrator queues} {sent : List PCIePacket}

/-- A request of the flow stays in the queue or is served. -/
theorem Outcome.count_flow (outcome : Outcome sorting flow.egressPort filled after sent) :
    sent.countP flow.has + after.queued flow = filled.queued flow := by
  rcases outcome with ⟨-, rfl, same, -⟩ | ⟨selected, rfl, won⟩
  · rw [List.countP_nil, Nat.zero_add, queued, same]
    rfl
  · rw [queued, queued, won.contents_eq, Multiset.countP_cons, List.countP_singleton, Nat.add_comm]

/-- Where the flow contends and is not served, the pointer comes nearer to its port. -/
theorem Outcome.turnsTo_lt (outcome : Outcome sorting flow.egressPort filled after sent)
    (sound : filled.Sound) (labelled : filled.Labelled) (ingress : flow.ingressPort < 4)
    (pointer : filled.lastServedIngressPort flow.egressPort < 4)
    (top : ∀ request ∈ queues.contents (filled.arbitrationQueues flow.egressPort),
      request.priority ≤ flow.priority)
    (waits : 0 < filled.queued flow) (passed : sent.countP flow.has = 0) :
    after.turnsTo flow < filled.turnsTo flow := by
  rcases Multiset.countP_pos.mp waits with ⟨request, member, has⟩
  rcases outcome with ⟨empty, -⟩ | ⟨selected, rfl, won⟩
  · rw [empty] at member
    exact absurd member (Multiset.notMem_zero request)
  · have foreign : ¬ flow.has selected.packet = true := by
      rw [List.countP_singleton] at passed
      intro own
      rw [if_pos own] at passed
      cases passed
    rcases Flow.has_iff.mp has with ⟨fromPort, -, atPriority⟩
    have requestPriority : request.priority = flow.priority :=
      (labelled _ request member).2.trans atPriority
    have requestPort : request.ingressPort = flow.ingressPort :=
      (sound.requests _ request member).1.trans fromPort
    -- The request of the flow and the one that is served share the highest priority.
    have contends : request ∈ filled.highest flow.egressPort := by
      refine Multiset.mem_filter.mpr ⟨member, fun other otherMember => ?_⟩
      rw [requestPriority]
      exact top other otherMember
    have shares : selected ∈ filled.highest flow.egressPort := by
      rw [← coe_samePriorityRequests]
      exact won.shares
    have conflict : (filled.samePriorityRequests flow.egressPort).length > 1 := by
      by_contra single
      have listed : request ∈ filled.samePriorityRequests flow.egressPort := by
        rw [← coe_samePriorityRequests] at contends
        exact contends
      rw [(won.alone single).1, List.mem_singleton] at listed
      exact foreign (listed ▸ has)
    have different : selected.ingressPort ≠ flow.ingressPort := by
      intro same
      have label := labelled _ selected won.mem_contents
      have atLeast := (Multiset.mem_filter.mp shares).2 request member
      have atMost := top selected won.mem_contents
      apply foreign
      rw [Flow.has_iff]
      exact ⟨(sound.requests _ selected won.mem_contents).1.symm.trans same, label.1,
        label.2.symm.trans (by omega)⟩
    have next := won.firstAfter sound pointer (by
      rw [← coe_samePriorityRequests, Multiset.coe_card]
      exact conflict)
    have start : (filled.lastServedIngressPort flow.egressPort + 1) % 4 < 4 :=
      Nat.mod_lt _ (by decide)
    have selectedBound := (won.ingressPort_eq sound).2
    have nearer := next.first flow.ingressPort ⟨request, contends, requestPort⟩
    have strict := Nat.lt_of_le_of_ne nearer fun same =>
      different ((ringDist_inj start selectedBound ingress).mp same)
    have moved := ringDist_succ_mod start selectedBound ingress strict
    unfold turnsTo
    rw [(won.contested conflict).2]
    omega

end Outcome

/-! ## Runs -/

/-- While `goal` packets of the flow have not been transmitted, at most `left` more
cycles are needed.  The packets in question are requests or among the first `b` in the
buffer. -/
structure Approaches (flow : Flow) (goal b left : Nat) (state : Logged queues) : Prop where
  waits : goal ≤ state.transmitted.countP flow.has + state.arb.queued flow + state.arb.ahead b flow
  near : state.transmitted.countP flow.has < goal →
    b + 4 * (goal - state.transmitted.countP flow.has) +
      (if b = 0 then state.arb.turnsTo flow else 3) ≤ left + 3

section Runs

variable {state : Logged queues} {goal b left : Nat}

/-- The other calls at most add to the ingress buffers. -/
theorem ingressBuffers_grow (sorting : Sorting ArbitrationRequest byIngressPort)
    (state : Logged queues) {next : Call} (other : next.isCycle = false) (port : Nat) :
    state.arb.ingressBuffers port <+: (call sorting next state).arb.ingressBuffers port := by
  cases next with
  | receivePacket packet =>
      dsimp only [call, receivePacket]
      split_ifs
      · exact List.prefix_refl _
      · exact List.prefix_refl _
      · exact List.prefix_refl _
      · dsimp only [bufferPacket]
        rw [Function.update_apply]
        split_ifs with here
        · rw [here]
          exact List.prefix_append _ _
        · exact List.prefix_refl _
  | arbitrationCycle now => cases other
  | addRoute destinationId egressPort =>
      dsimp only [call, addRoute]
      split_ifs <;> exact List.prefix_refl _
  | configurePortPriority port tc priority =>
      dsimp only [call, configurePortPriority]
      split_ifs <;> exact List.prefix_refl _

theorem Approaches.quiet (approaches : Approaches flow goal b left state) {next : Call}
    (other : next.isCycle = false) : Approaches flow goal b left (call sorting next state) := by
  have quiet : ∀ now, next ≠ .arbitrationCycle now := by
    rintro now rfl
    cases other
  rcases call_frame sorting state quiet with ⟨sameQueues, samePointer, sameLog⟩
  have grows := ((ingressBuffers_grow sorting state other flow.ingressPort).take b).sublist
  have more := grows.countP_le (p := flow.has)
  constructor
  · have enough := approaches.waits
    rw [sameLog, queued, sameQueues]
    change state.arb.ahead b flow ≤ (call sorting next state).arb.ahead b flow
      at more
    exact enough.trans (Nat.add_le_add_left more _)
  · rw [sameLog, turnsTo, samePointer]
    exact approaches.near

/-- What a cycle transmits of the flow goes out through its egress port. -/
theorem countP_filter_egressPort (flow : Flow) (packets : List PCIePacket) :
    (packets.filter fun packet => packet.egressPort = flow.egressPort).countP flow.has =
      packets.countP flow.has := by
  rw [List.countP_eq_length_filter, List.countP_eq_length_filter, ← flow.filter_egressPort]

theorem Approaches.arbitrationCycle (approaches : Approaches flow goal b left state)
    (sound : state.arb.Sound) (inRange : InRange state) (ingress : flow.ingressPort < 4)
    (egress : isEgressPort flow.egressPort = true) (now : Nat → Int)
    (top : ∀ request ∈ queues.contents ((state.arb.processIngressBuffers now).arbitrationQueues
      flow.egressPort), request.priority ≤ flow.priority) :
    Approaches flow goal (b - 1) (left - 1) (call sorting (.arbitrationCycle now) state) := by
  have filled := (processIngressBuffers_spec sound now).1
  have labelled := inRange.labelled.processIngressBuffers sound now
  have moved := processIngressBuffers_flow sound ingress now b
  have samePointer := processIngressBuffers_lastServedIngressPort state.arb now
  have pointer := inRange.pointer flow.egressPort egress
  rw [← samePointer] at pointer
  have outcome := arbitrationCycle_outcome sound inRange.labelled sorting now egress
  have count := outcome.count_flow
  have turns := outcome.turnsTo_lt filled labelled ingress pointer top
  rw [countP_filter_egressPort] at count turns
  have still : (state.arb.processIngressBuffers now).turnsTo flow = state.arb.turnsTo flow := by
    rw [turnsTo, samePointer]
    rfl
  have buffers : (state.arb.arbitrationCycle sorting now).2.ahead (b - 1) flow =
      (state.arb.processIngressBuffers now).ahead (b - 1) flow := by
    rw [ahead, (arbitrationCycle_frame sound inRange.labelled sorting now).1]
    rfl
  have within := turnsTo_lt ingress (state.arb.arbitrationCycle sorting now).2
  have enough := approaches.waits
  have near := approaches.near
  rw [still] at turns
  constructor
  · change goal ≤ (state.transmitted ++ (state.arb.arbitrationCycle sorting now).1).countP flow.has +
      (state.arb.arbitrationCycle sorting now).2.queued flow +
        (state.arb.arbitrationCycle sorting now).2.ahead (b - 1) flow
    rw [List.countP_append, buffers]
    omega
  · change (state.transmitted ++ (state.arb.arbitrationCycle sorting now).1).countP flow.has < goal →
      b - 1 + 4 * (goal -
        (state.transmitted ++ (state.arb.arbitrationCycle sorting now).1).countP flow.has) +
          (if b - 1 = 0 then (state.arb.arbitrationCycle sorting now).2.turnsTo flow else 3) ≤ _
    rw [List.countP_append]
    intro short
    have before := near (by omega)
    rcases Nat.eq_zero_or_pos b with rfl | later
    · -- Nothing is left in the buffer, so that the flow contends.
      have zero : (state.arb.processIngressBuffers now).ahead (0 - 1) flow = 0 := rfl
      rw [if_pos rfl] at before ⊢
      omega
    · rw [if_neg (Nat.ne_of_gt later)] at before
      split_ifs with last
      · omega
      · omega

end Runs

/-! ## The packets of the flow in flight -/

section Flight

variable {arb : PCIeSwitchArbitrator queues}

/-- Only one summand has what is counted. -/
theorem countP_sum_of_only {α : Type} {p : α → Prop} [DecidablePred p] {ports : Finset Nat}
    {port : Nat} (member : port ∈ ports) (table : Nat → Multiset α)
    (only : ∀ other, other ≠ port → ∀ x ∈ table other, ¬ p x) :
    (∑ x ∈ ports, table x).countP p = (table port).countP p := by
  have split := map_sum (Multiset.countPAddMonoidHom p) table ports
  change (∑ x ∈ ports, table x).countP p = ∑ x ∈ ports, (table x).countP p at split
  rw [split, Finset.sum_eq_single_of_mem port member]
  intro other _ different
  exact Multiset.countP_eq_zero.mpr (only other different)

theorem countP_inFlight (sound : arb.Sound) (labelled : arb.Labelled)
    (ingress : flow.ingressPort < 4) (egress : isEgressPort flow.egressPort = true) :
    arb.inFlight.countP (fun packet => flow.has packet = true) =
      arb.queued flow + arb.ahead (arb.ingressBuffers flow.ingressPort).length flow := by
  have inBuffer : arb.buffered.countP (fun packet => flow.has packet = true) =
      (arb.ingressBuffers flow.ingressPort).countP flow.has := by
    rw [buffered, countP_sum_of_only (Finset.mem_range.mpr ingress), Multiset.coe_countP]
    · simp only [Bool.decide_eq_true]
    · intro other different packet member has
      apply different
      rw [← (sound.buffers other packet member).1]
      exact (Flow.has_iff.mp has).1
  have inQueue : (arb.waiting.map ArbitrationRequest.packet).countP
      (fun packet => flow.has packet = true) = arb.queued flow := by
    rw [Multiset.countP_map, ← Multiset.countP_eq_card_filter, waiting,
      countP_sum_of_only (mem_egressPorts egress)]
    · rfl
    · intro other different request member has
      apply different
      rw [← (labelled other request member).1]
      exact (Flow.has_iff.mp has).2.1
  rw [inFlight, Multiset.countP_add, inBuffer, inQueue, ahead, List.take_length, Nat.add_comm]

end Flight

/-- What has been accepted of a flow has been transmitted or is in flight. -/
theorem Conserved.countP_accepted {state : Logged queues} (conserved : Conserved state)
    (flow : Flow) : state.accepted.countP flow.has = state.transmitted.countP flow.has +
      state.arb.inFlight.countP (fun packet => flow.has packet = true) := by
  have packets := congrArg (Multiset.countP fun packet => flow.has packet = true)
    conserved.packets
  rw [Multiset.countP_add, Multiset.coe_countP, Multiset.coe_countP] at packets
  simpa only [Bool.decide_eq_true] using packets

variable (queues sorting) in
/-- What has been accepted stays so. -/
theorem accepted_run_append (calls more : List Call) :
    (run queues sorting calls).accepted <+: (run queues sorting (calls ++ more)).accepted := by
  rw [run_append]
  apply runCalls_invariant fun state : Logged queues =>
    (run queues sorting calls).accepted <+: state.accepted
  · exact List.prefix_refl _
  · intro next state before
    apply before.trans
    cases next with
    | receivePacket packet =>
        dsimp only [call]
        split_ifs
        · exact List.prefix_append _ _
        · exact List.prefix_refl _
    | _ => exact List.prefix_refl _

/-- The packets of the flow in flight are within four cycles for each, once the buffer
has been emptied. -/
theorem approaches_start {state : Logged queues} (conserved : Conserved state)
    (labelled : state.arb.Labelled) (ingress : flow.ingressPort < 4)
    (egress : isEgressPort flow.egressPort = true) :
    Approaches flow (state.accepted.countP flow.has)
      (state.arb.ingressBuffers flow.ingressPort).length
      ((state.arb.ingressBuffers flow.ingressPort).length +
        4 * (state.accepted.countP flow.has - state.transmitted.countP flow.has)) state := by
  have packets := conserved.countP_accepted flow
  rw [countP_inFlight conserved.toSound labelled ingress egress] at packets
  have within := turnsTo_lt ingress state.arb
  constructor
  · omega
  · intro _
    split_ifs <;> omega

/-- The requests that contend with the flow do not exceed its priority. -/
theorem request_priority_le {state : Logged queues} (conserved : Conserved state)
    (labelled : state.arb.Labelled) (egress : isEgressPort flow.egressPort = true)
    (top : ∀ packet ∈ state.accepted, packet.egressPort = flow.egressPort →
      packet.priority ≤ flow.priority) (now : Nat → Int) :
    ∀ request ∈ queues.contents ((state.arb.processIngressBuffers now).arbitrationQueues
      flow.egressPort), request.priority ≤ flow.priority := by
  intro request queued
  have label := labelled.processIngressBuffers conserved.toSound now _ request queued
  have flight : request.packet ∈ state.arb.inFlight := by
    rw [← (processIngressBuffers_spec conserved.toSound now).2.1]
    exact Multiset.mem_add.mpr (Or.inr (Multiset.mem_map_of_mem _ (mem_waiting egress queued)))
  have accepted : request.packet ∈ state.accepted := by
    rw [← Multiset.mem_coe, conserved.packets]
    exact Multiset.mem_add.mpr (Or.inr flight)
  rw [label.2]
  exact top request.packet accepted label.1

/-- Two packets of one port compete with one of another port. -/
def competing : List Call :=
  twoPackets ++ [.receivePacket ⟨0x1000, 0, 64, 0, 0, 1, 0, 0, 3⟩]

end SystemcTlm.Pcie.PCIeSwitchArbitrator
