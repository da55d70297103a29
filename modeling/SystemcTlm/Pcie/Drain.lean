import SystemcTlm.Pcie.Service

/-!
# Draining the switch

While no packet is received, every cycle that finds a packet in flight transmits
one: after the ingress buffers have been processed, some packet in flight stands
in an arbitration queue.  So the switch runs empty in as many cycles as there are
packets in flight, and all credits are back.
-/

namespace SystemcTlm.Pcie.PCIeSwitchArbitrator

open SystemcTlm.Container SystemcTlm.Loop SystemcTlm.Transition

variable {queues : PriorityQueue ArbitrationRequest arbitrationComparator}
  {sorting : Sorting ArbitrationRequest byIngressPort}

section Process

variable {arb : PCIeSwitchArbitrator queues} {now : Nat → Int} {port : Nat}

theorem mem_waiting {request : ArbitrationRequest} (egress : isEgressPort port = true)
    (queued : request ∈ queues.contents (arb.arbitrationQueues port)) : request ∈ arb.waiting :=
  Multiset.mem_sum.mpr ⟨port, mem_egressPorts egress, queued⟩

/-- A buffer that is not empty puts a request into a queue. -/
theorem waiting_processIngressBuffer (sound : arb.Sound) {packet : PCIePacket}
    {rest : List PCIePacket} (front : arb.ingressBuffers port = packet :: rest) :
    (arb.processIngressBuffer now port).waiting ≠ 0 := by
  obtain ⟨request, -, -, -, -, -, -, after⟩ := processIngressBuffer_cons sound now front
  have egress := (sound.buffers port packet (front ▸ List.mem_cons_self)).2.2
  have queued : request ∈ queues.contents
      ((arb.processIngressBuffer now port).arbitrationQueues packet.egressPort) := by
    rw [after]
    dsimp only
    rw [Function.update_self, queues.contents_push]
    exact Multiset.mem_cons_self _ _
  intro drained
  exact Multiset.notMem_zero request (drained ▸ mem_waiting egress queued)

/-- If no request waits after the buffers have been processed, they were empty. -/
theorem buffers_of_waiting (sound : arb.Sound)
    (drained : (arb.processIngressBuffers now).waiting = 0) :
    arb.processIngressBuffers now = arb ∧ ∀ port, port < 4 → arb.ingressBuffers port = [] := by
  refine (forRange_induction (fun k (current : PCIeSwitchArbitrator queues) => current.Sound ∧
    (current.waiting = 0 → current = arb ∧ ∀ port, port < k → arb.ingressBuffers port = []))
    ⟨sound, fun _ => ⟨rfl, fun port never => absurd never (Nat.not_lt_zero port)⟩⟩
    fun port current _ during => ?_).2 drained
  rcases during with ⟨before, idle⟩
  refine ⟨before.processIngressBuffer, fun drained => ?_⟩
  cases front : current.ingressBuffers port with
  | cons packet rest => exact absurd drained (waiting_processIngressBuffer before front)
  | nil =>
      rw [processIngressBuffer_nil front] at drained ⊢
      rcases idle drained with ⟨same, empty⟩
      refine ⟨same, fun port' within => ?_⟩
      rcases Nat.lt_succ_iff_lt_or_eq.mp within with earlier | rfl
      · exact empty port' earlier
      · rw [← same]
        exact front

theorem inFlight_eq_zero_iff : arb.inFlight = 0 ↔
    (∀ port, port < 4 → arb.ingressBuffers port = []) ∧
      ∀ port, isEgressPort port = true → queues.contents (arb.arbitrationQueues port) = 0 := by
  constructor
  · intro empty
    have absent : ∀ packet, packet ∉ arb.inFlight := Multiset.eq_zero_iff_forall_notMem.mp empty
    constructor
    · refine fun port bound => List.eq_nil_iff_forall_not_mem.mpr fun packet member => ?_
      have held : packet ∈ arb.buffered :=
        Multiset.mem_sum.mpr ⟨port, Finset.mem_range.mpr bound, Multiset.mem_coe.mpr member⟩
      exact absent packet (Multiset.mem_add.mpr (Or.inl held))
    · refine fun port egress => Multiset.eq_zero_iff_forall_notMem.mpr fun request queued => ?_
      have asked := Multiset.mem_map_of_mem ArbitrationRequest.packet (mem_waiting egress queued)
      exact absent request.packet (Multiset.mem_add.mpr (Or.inr asked))
  · rintro ⟨buffers, requests⟩
    have buffered : arb.buffered = 0 := Finset.sum_eq_zero fun port member => by
      rw [buffers port (Finset.mem_range.mp member)]
      rfl
    have waiting : arb.waiting = 0 := Finset.sum_eq_zero fun port member =>
      requests port (decide_eq_true (Finset.mem_Ico.mp member))
    rw [inFlight, buffered, waiting]
    rfl

/-- A packet in flight leaves some queue not empty. -/
theorem exists_queued (sound : arb.Sound) (now : Nat → Int) (nonempty : arb.inFlight ≠ 0) :
    ∃ port, isEgressPort port = true ∧
      queues.contents ((arb.processIngressBuffers now).arbitrationQueues port) ≠ 0 := by
  by_contra unqueued
  push Not at unqueued
  have idle : (arb.processIngressBuffers now).waiting = 0 :=
    Finset.sum_eq_zero fun port member =>
      unqueued port (decide_eq_true (Finset.mem_Ico.mp member))
  rcases buffers_of_waiting sound idle with ⟨same, empty⟩
  rw [same] at unqueued
  exact nonempty (inFlight_eq_zero_iff.mpr ⟨empty, unqueued⟩)

/-- A cycle that finds a packet in flight transmits one. -/
theorem arbitrationCycle_transmits (sound : arb.Sound) (labelled : arb.Labelled)
    (sorting : Sorting ArbitrationRequest byIngressPort) (now : Nat → Int)
    (nonempty : arb.inFlight ≠ 0) : 1 ≤ (arb.arbitrationCycle sorting now).1.length := by
  rcases exists_queued sound now nonempty with ⟨port, egress, queued⟩
  rcases arbitrationCycle_outcome sound labelled sorting now egress with
    ⟨empty, -⟩ | ⟨selected, sent, -⟩
  · exact absurd empty queued
  · have part := List.length_filter_le (fun packet : PCIePacket => decide (packet.egressPort = port))
      (arb.arbitrationCycle sorting now).1
    rw [sent] at part
    exact part

end Process

/-! ## Runs without receptions -/

/-- The cycles among the calls. -/
def Call.isCycle : Call → Bool
  | .arbitrationCycle _ => true
  | _ => false

section Runs

variable {state : Logged queues} {calls more : List Call}

theorem Conserved.card_inFlight (conserved : Conserved state) :
    state.accepted.length = state.transmitted.length + state.arb.inFlight.card := by
  have packets := congrArg Multiset.card conserved.packets
  rwa [Multiset.card_add, Multiset.coe_card, Multiset.coe_card] at packets

variable (sorting) in
/-- A call other than a reception accepts nothing, and a cycle transmits unless all
has been transmitted. -/
theorem call_drains (conserved : Conserved state) (labelled : state.arb.Labelled) {next : Call}
    (quiet : ∀ packet, next ≠ .receivePacket packet) :
    (call sorting next state).accepted = state.accepted ∧
      min state.accepted.length (state.transmitted.length + if next.isCycle then 1 else 0) ≤
        (call sorting next state).transmitted.length := by
  cases next with
  | receivePacket packet => exact absurd rfl (quiet packet)
  | arbitrationCycle now =>
      refine ⟨rfl, ?_⟩
      change _ ≤ (state.transmitted ++ (state.arb.arbitrationCycle sorting now).1).length
      rw [List.length_append]
      by_cases empty : state.arb.inFlight = 0
      · have balance := conserved.card_inFlight
        rw [empty, Multiset.card_zero, Nat.add_zero] at balance
        rw [balance]
        exact (Nat.min_le_left _ _).trans (Nat.le_add_right _ _)
      · have sent := arbitrationCycle_transmits conserved.toSound labelled sorting now empty
        exact (Nat.min_le_right _ _).trans (Nat.add_le_add_left sent _)
  | addRoute destinationId egressPort => exact ⟨rfl, Nat.min_le_right _ _⟩
  | configurePortPriority port tc priority => exact ⟨rfl, Nat.min_le_right _ _⟩

theorem run_append (calls more : List Call) :
    run queues sorting (calls ++ more) =
      runCalls (call sorting) more (run queues sorting calls) := by
  exact List.foldl_append

variable (queues sorting) in
/-- What has been transmitted after calls without a reception. -/
theorem transmitted_of_quiet (calls : List Call) {more : List Call}
    (quiet : ∀ packet, .receivePacket packet ∉ more) :
    (run queues sorting (calls ++ more)).accepted = (run queues sorting calls).accepted ∧
      min (run queues sorting calls).accepted.length
          ((run queues sorting calls).transmitted.length + more.countP Call.isCycle) ≤
        (run queues sorting (calls ++ more)).transmitted.length := by
  rw [run_append]
  refine runCalls_prefix (fun before (state : Logged queues) =>
    state.accepted = (run queues sorting calls).accepted ∧
      min (run queues sorting calls).accepted.length
          ((run queues sorting calls).transmitted.length + before.countP Call.isCycle) ≤
        state.transmitted.length) ⟨rfl, Nat.min_le_right _ _⟩ fun before next rest split during => ?_
  have other : ∀ packet, next ≠ .receivePacket packet := by
    rintro packet rfl
    exact quiet packet (split ▸ List.mem_append_right _ List.mem_cons_self)
  have known := call_drains sorting (conserved_run queues sorting (calls ++ before))
    (labelled_run queues sorting (calls ++ before)) other
  rw [run_append] at known
  rcases during with ⟨accepted, progress⟩
  refine ⟨known.1.trans accepted, ?_⟩
  have step := known.2
  rw [accepted] at step
  rw [List.countP_append, List.countP_singleton]
  omega

end Runs

/-- The switch drains: whatever has been called before, calls that receive no packet
and among which are as many cycles as packets are in flight transmit all of them,
and then all buffers and queues are empty and all credits are back. -/
theorem cycles_drain (queues : PriorityQueue ArbitrationRequest arbitrationComparator)
    (sorting : Sorting ArbitrationRequest byIngressPort) (calls : List Call) {more : List Call}
    (quiet : ∀ packet, .receivePacket packet ∉ more)
    (enough : (run queues sorting calls).accepted.length ≤
      (run queues sorting calls).transmitted.length + more.countP Call.isCycle) :
    (run queues sorting (calls ++ more)).transmitted.Perm (run queues sorting calls).accepted ∧
      (∀ port, port < 4 → (run queues sorting (calls ++ more)).arb.ingressBuffers port = []) ∧
      (∀ port, isEgressPort port = true →
        queues.contents ((run queues sorting (calls ++ more)).arb.arbitrationQueues port) = 0) ∧
      ∀ port, port < 4 → ∀ vc, vc < 8 →
        ((run queues sorting (calls ++ more)).arb.ingressPorts port).vcCredits vc = 256 := by
  rcases transmitted_of_quiet queues sorting calls quiet with ⟨accepted, progress⟩
  have conserved := conserved_run queues sorting (calls ++ more)
  have empty : (run queues sorting (calls ++ more)).arb.inFlight = 0 := by
    have balance := conserved.card_inFlight
    rw [accepted] at balance
    rw [← Multiset.card_eq_zero]
    omega
  have packets := conserved.packets
  rw [empty, add_zero, accepted] at packets
  rcases inFlight_eq_zero_iff.mp empty with ⟨buffers, requests⟩
  refine ⟨(Multiset.coe_eq_coe.mp packets).symm, buffers, requests,
    fun port bound vc channel => ?_⟩
  have credits := conserved.credits port (decide_eq_true bound) vc
  rwa [empty, Multiset.countP_zero, add_zero, if_pos channel] at credits

/-- The second of the two packets is transmitted in one more cycle. -/
theorem cycles_drain_two_packets :
    ((run orderedQueues portSorting (twoPackets ++ [.arbitrationCycle fun _ => 1])).arb.ingressPorts
      0).vcCredits 0 = 256 :=
  (cycles_drain orderedQueues portSorting twoPackets
    (fun _ received => by cases List.mem_singleton.mp received) (by decide +kernel)).2.2.2
      0 (by decide) 0 (by decide)

end SystemcTlm.Pcie.PCIeSwitchArbitrator
