import SystemcTlm.Pcie.Conservation

/-!
# The service of the egress ports

In a cycle every egress port whose queue is not empty, once the ingress buffers
have been processed, transmits one request of the highest priority in it.  A
packet that is refused leaves the arbitrator as it was: it always has a route,
so it is refused before it takes a credit.
-/

namespace SystemcTlm.Pcie.PCIeSwitchArbitrator

open SystemcTlm.Container SystemcTlm.Loop SystemcTlm.Transition

variable {queues : PriorityQueue ArbitrationRequest arbitrationComparator}
  {sorting : Sorting ArbitrationRequest byIngressPort}

section Refused

variable {arb : PCIeSwitchArbitrator queues}

theorem receivePacket_of_refused (sound : arb.Sound) {packet : PCIePacket}
    (refused : (arb.receivePacket packet).1 = false) :
    arb.receivePacket packet = (false, packet, arb.countDropped) := by
  rcases receivePacket_cases sound packet with dropped | ⟨-, -, routed, -, -, -, accepts⟩
  · exact dropped
  · rw [accepts] at refused
    cases refused

end Refused

/-- After any calls a packet that is refused is returned as it was, and of the
arbitrator only `dropped_packets` has changed. -/
theorem unchanged_of_refused (queues : PriorityQueue ArbitrationRequest arbitrationComparator)
    (sorting : Sorting ArbitrationRequest byIngressPort) (calls : List Call) (packet : PCIePacket)
    (refused : ((run queues sorting calls).arb.receivePacket packet).1 = false) :
    ((run queues sorting calls).arb.receivePacket packet).2.1 = packet ∧
      ((run queues sorting calls).arb.receivePacket packet).2.2 =
        { (run queues sorting calls).arb with
          stats := { (run queues sorting calls).arb.stats with
            droppedPackets := (run queues sorting calls).arb.stats.droppedPackets + 1 } } := by
  have dropped := receivePacket_of_refused
    (conserved_run queues sorting calls).toSound refused
  rw [dropped]
  exact ⟨rfl, rfl⟩

/-- A packet for a port that is not an ingress port. -/
theorem unchanged_of_refused_port_four :
    ((run orderedQueues portSorting twoPackets).arb.receivePacket
      ⟨0x1000, 0, 64, 0, 0, 4, 0, 0, 3⟩).2.2 =
        { (run orderedQueues portSorting twoPackets).arb with
          stats := { (run orderedQueues portSorting twoPackets).arb.stats with
            droppedPackets :=
              (run orderedQueues portSorting twoPackets).arb.stats.droppedPackets + 1 } } :=
  (unchanged_of_refused orderedQueues portSorting twoPackets ⟨0x1000, 0, 64, 0, 0, 4, 0, 0, 3⟩
    rfl).2

/-! ## The requests of a queue -/

/-- `Holds` of every request and the port it waits at. -/
def EachRequest (Holds : Nat → ArbitrationRequest → Prop) (arb : PCIeSwitchArbitrator queues) :
    Prop :=
  ∀ port, ∀ request ∈ queues.contents (arb.arbitrationQueues port), Holds port request

/-- A request waits at the egress port of its packet, with its priority. -/
def Labelled (arb : PCIeSwitchArbitrator queues) : Prop :=
  arb.EachRequest fun port request =>
    request.packet.egressPort = port ∧ request.priority = request.packet.priority

section Cycle

variable {arb after : PCIeSwitchArbitrator queues} {port : Nat} {now : Nat → Int}
  {Holds : Nat → ArbitrationRequest → Prop}

theorem EachRequest.of_le (each : arb.EachRequest Holds)
    (smaller : ∀ port, queues.contents (after.arbitrationQueues port) ≤
      queues.contents (arb.arbitrationQueues port)) : after.EachRequest Holds :=
  fun port request member => each port request (Multiset.mem_of_le (smaller port) member)

theorem EachRequest.processIngressBuffer (each : arb.EachRequest Holds) (sound : arb.Sound)
    (fresh : ∀ request : ArbitrationRequest, request.priority = request.packet.priority →
      request.requestTime = now request.ingressPort → Holds request.packet.egressPort request) :
    (arb.processIngressBuffer now port).EachRequest Holds := by
  cases front : arb.ingressBuffers port with
  | nil =>
      rw [processIngressBuffer_nil front]
      exact each
  | cons packet rest =>
      have onPort := (sound.buffers port packet (front ▸ List.mem_cons_self)).1
      obtain ⟨request, isPacket, samePort, -, priority, time, -, eq⟩ :=
        processIngressBuffer_cons sound now front
      rw [eq]
      intro port' request' member
      dsimp only at member
      rw [Function.update_apply] at member
      split_ifs at member with here
      · rw [queues.contents_push, Multiset.mem_cons] at member
        rcases member with rfl | member
        · rw [here, ← isPacket]
          apply fresh
          · rw [priority, isPacket]
          · rw [time, samePort, onPort]
        · rw [here]
          exact each _ request' member
      · exact each port' request' member

theorem EachRequest.processIngressBuffers (each : arb.EachRequest Holds) (sound : arb.Sound)
    (fresh : ∀ request : ArbitrationRequest, request.priority = request.packet.priority →
      request.requestTime = now request.ingressPort → Holds request.packet.egressPort request) :
    (arb.processIngressBuffers now).EachRequest Holds := by
  have both : (arb.processIngressBuffers now).Sound ∧
      (arb.processIngressBuffers now).EachRequest Holds := by
    apply forRange_induction fun _ (current : PCIeSwitchArbitrator queues) =>
      current.Sound ∧ current.EachRequest Holds
    · exact ⟨sound, each⟩
    · rintro port current _ ⟨before, filled⟩
      exact ⟨before.processIngressBuffer, filled.processIngressBuffer before fresh⟩
  exact both.2

theorem Labelled.processIngressBuffers (labelled : arb.Labelled) (sound : arb.Sound)
    (now : Nat → Int) : (arb.processIngressBuffers now).Labelled :=
  EachRequest.processIngressBuffers labelled sound fun _ priority _ => ⟨rfl, priority⟩

/-! ## The outcome of a cycle at one port -/

/-- `selected` has been served at `port` between the two states. -/
structure Won (sorting : Sorting ArbitrationRequest byIngressPort) (port : Nat)
    (selected : ArbitrationRequest) (arb after : PCIeSwitchArbitrator queues) : Prop where
  contents_eq : queues.contents (arb.arbitrationQueues port) =
    selected ::ₘ queues.contents (after.arbitrationQueues port)
  shares : selected ∈ arb.samePriorityRequests port
  contested : (arb.samePriorityRequests port).length > 1 →
    (roundRobinArbitration sorting (arb.lastServedIngressPort port)
        (arb.samePriorityRequests port)).2 = some selected ∧
      after.lastServedIngressPort port = selected.ingressPort
  alone : ¬ (arb.samePriorityRequests port).length > 1 →
    arb.samePriorityRequests port = [selected] ∧
      after.lastServedIngressPort port = arb.lastServedIngressPort port

/-- What `port` has `sent` between the two states. -/
def Outcome (sorting : Sorting ArbitrationRequest byIngressPort) (port : Nat)
    (arb after : PCIeSwitchArbitrator queues) (sent : List PCIePacket) : Prop :=
  queues.contents (arb.arbitrationQueues port) = 0 ∧ sent = [] ∧
      after.arbitrationQueues port = arb.arbitrationQueues port ∧
      after.lastServedIngressPort port = arb.lastServedIngressPort port ∨
    ∃ selected, sent = [selected.packet] ∧ Won sorting port selected arb after

theorem serveEgressPort_outcome
    (distinct : ((queues.contents (arb.arbitrationQueues port)).map
      ArbitrationRequest.object).Nodup)
    (sorting : Sorting ArbitrationRequest byIngressPort) :
    Outcome sorting port arb (serveEgressPort sorting port arb).2
      (serveEgressPort sorting port arb).1 := by
  rcases serveEgressPort_cases distinct sorting with ⟨empty, idle⟩ | ⟨selected, after, served, serves⟩
  · rw [idle]
    exact Or.inl ⟨empty, rfl, rfl, rfl⟩
  · rcases transmitPacket_frame after selected.packet with ⟨queues_eq, pointer_eq, -⟩
    rw [served]
    refine Or.inr ⟨selected, rfl, ?_⟩
    exact {
      contents_eq := by
        rw [queues_eq]
        exact serves.contents_eq
      shares := serves.shares
      contested := by
        intro conflict
        rcases serves.contested conflict with ⟨chosen, pointer⟩
        rw [pointer_eq, pointer, Function.update_self]
        exact ⟨chosen, rfl⟩
      alone := by
        intro single
        rcases serves.alone single with ⟨only, pointer⟩
        rw [pointer_eq, pointer]
        exact ⟨only, rfl⟩ }

/-- A port leaves the other ports and the buffers alone. -/
theorem serveEgressPort_frame
    (distinct : ((queues.contents (arb.arbitrationQueues port)).map
      ArbitrationRequest.object).Nodup)
    (sorting : Sorting ArbitrationRequest byIngressPort) :
    (serveEgressPort sorting port arb).2.ingressBuffers = arb.ingressBuffers ∧
      ∀ other, other ≠ port →
        (serveEgressPort sorting port arb).2.arbitrationQueues other =
            arb.arbitrationQueues other ∧
          (serveEgressPort sorting port arb).2.lastServedIngressPort other =
            arb.lastServedIngressPort other := by
  rcases serveEgressPort_cases distinct sorting with ⟨-, idle⟩ | ⟨selected, after, served, serves⟩
  · rw [idle]
    exact ⟨rfl, fun _ _ => ⟨rfl, rfl⟩⟩
  · rcases transmitPacket_frame after selected.packet with ⟨queues_eq, pointer_eq, buffers_eq, -⟩
    rw [served]
    dsimp only
    rw [queues_eq, pointer_eq, buffers_eq]
    refine ⟨serves.ingressBuffers_eq, fun other different => ⟨serves.others_eq other different, ?_⟩⟩
    by_cases several : (arb.samePriorityRequests port).length > 1
    · rw [(serves.contested several).2, Function.update_of_ne different]
    · rw [(serves.alone several).2]

/-- An outcome depends on the queue and the pointer of its port only. -/
theorem Outcome.congr {arb' after' : PCIeSwitchArbitrator queues} {sent : List PCIePacket}
    (outcome : Outcome sorting port arb after sent)
    (queue : arb'.arbitrationQueues port = arb.arbitrationQueues port)
    (pointer : arb'.lastServedIngressPort port = arb.lastServedIngressPort port)
    (queue' : after'.arbitrationQueues port = after.arbitrationQueues port)
    (pointer' : after'.lastServedIngressPort port = after.lastServedIngressPort port) :
    Outcome sorting port arb' after' sent := by
  have sharing : arb'.samePriorityRequests port = arb.samePriorityRequests port := by
    rw [samePriorityRequests, samePriorityRequests, queue]
  rcases outcome with ⟨empty, nothing, same, kept⟩ | ⟨selected, sent_eq, won⟩
  · left
    rw [queue, queue', pointer, pointer']
    exact ⟨empty, nothing, same, kept⟩
  · refine Or.inr ⟨selected, sent_eq, ?_⟩
    constructor
    · rw [queue, queue']
      exact won.contents_eq
    · rw [sharing]
      exact won.shares
    · rw [sharing, pointer, pointer']
      exact won.contested
    · rw [sharing, pointer, pointer']
      exact won.alone

theorem Won.mem_contents {selected : ArbitrationRequest} (won : Won sorting port selected arb after) :
    selected ∈ queues.contents (arb.arbitrationQueues port) := by
  rw [won.contents_eq]
  exact Multiset.mem_cons_self _ _

theorem Outcome.egressPort_eq {sent : List PCIePacket} (outcome : Outcome sorting port arb after sent)
    (labelled : arb.Labelled) : ∀ packet ∈ sent, packet.egressPort = port := by
  intro packet member
  rcases outcome with ⟨-, nothing, -⟩ | ⟨selected, sent_eq, won⟩
  · rw [nothing] at member
    cases member
  · rw [sent_eq, List.mem_singleton] at member
    rw [member]
    exact (labelled port selected won.mem_contents).1

theorem filter_egressPort {sent : List PCIePacket} {other : Nat}
    (all : ∀ packet ∈ sent, packet.egressPort = other) (port : Nat) :
    sent.filter (fun packet => packet.egressPort = port) = if other = port then sent else [] := by
  split_ifs with same
  · rw [List.filter_eq_self]
    intro packet member
    rw [all packet member, same]
    exact decide_eq_true rfl
  · rw [List.filter_eq_nil_iff]
    intro packet member
    rw [all packet member]
    simpa using same

/-- What the arbitrations of a cycle come to: `sent` and `after` are what it
transmits and leaves, from the state `filled` in which the ingress buffers have
been processed. -/
structure Served (sorting : Sorting ArbitrationRequest byIngressPort)
    (filled after : PCIeSwitchArbitrator queues) (sent : List PCIePacket) : Prop where
  ingressBuffers_eq : after.ingressBuffers = filled.ingressBuffers
  inner : ∀ port, isEgressPort port = false →
    after.arbitrationQueues port = filled.arbitrationQueues port
  sent_eq : ∃ first second, sent = first ++ second ∧
    (∀ packet ∈ first, packet.egressPort = 2) ∧ (∀ packet ∈ second, packet.egressPort = 3) ∧
    Outcome sorting 2 filled after first ∧ Outcome sorting 3 filled after second

/-- The second port is served with the queue and the pointer that it had before
the first. -/
theorem arbitrationCycle_served (sound : arb.Sound) (labelled : arb.Labelled)
    (sorting : Sorting ArbitrationRequest byIngressPort) (now : Nat → Int) :
    Served sorting (arb.processIngressBuffers now) (arb.arbitrationCycle sorting now).2
      (arb.arbitrationCycle sorting now).1 := by
  have filled := (processIngressBuffers_spec sound now).1
  have labels := labelled.processIngressBuffers sound now
  have firstOutcome := serveEgressPort_outcome (filled.distinct 2) sorting
  have firstFrame := serveEgressPort_frame (filled.distinct 2) sorting
  have kept := firstFrame.2 3 (by decide)
  have distinct : ((queues.contents ((serveEgressPort sorting 2
      (arb.processIngressBuffers now)).2.arbitrationQueues 3)).map
        ArbitrationRequest.object).Nodup := by
    rw [kept.1]
    exact filled.distinct 3
  have secondOutcome := (serveEgressPort_outcome distinct sorting).congr
    kept.1.symm kept.2.symm rfl rfl
  have secondFrame := serveEgressPort_frame distinct sorting
  have still := secondFrame.2 2 (by decide)
  constructor
  · exact secondFrame.1.trans firstFrame.1
  · intro port inner
    have bounds := of_decide_eq_false inner
    exact (secondFrame.2 port (by omega)).1.trans (firstFrame.2 port (by omega)).1
  · exact ⟨_, _, rfl, firstOutcome.egressPort_eq labels, secondOutcome.egressPort_eq labels,
      firstOutcome.congr rfl rfl still.1 still.2, secondOutcome⟩

/-- What a cycle does at one egress port, from the state in which the ingress
buffers have been processed. -/
theorem arbitrationCycle_outcome (sound : arb.Sound) (labelled : arb.Labelled)
    (sorting : Sorting ArbitrationRequest byIngressPort) (now : Nat → Int)
    (egress : isEgressPort port = true) :
    Outcome sorting port (arb.processIngressBuffers now) (arb.arbitrationCycle sorting now).2
      ((arb.arbitrationCycle sorting now).1.filter fun packet => packet.egressPort = port) := by
  rcases (arbitrationCycle_served sound labelled sorting now).sent_eq with
    ⟨first, second, sent, firstPort, secondPort, firstOutcome, secondOutcome⟩
  rw [sent, List.filter_append, filter_egressPort firstPort, filter_egressPort secondPort]
  have ports : port = 2 ∨ port = 3 := by
    have bounds := of_decide_eq_true egress
    omega
  rcases ports with rfl | rfl
  · rw [if_pos rfl, if_neg (by decide), List.append_nil]
    exact firstOutcome
  · rw [if_neg (by decide), if_pos rfl, List.nil_append]
    exact secondOutcome

/-- The arbitrations of a cycle leave the buffers alone, and what is not an
egress port. -/
theorem arbitrationCycle_frame (sound : arb.Sound) (labelled : arb.Labelled)
    (sorting : Sorting ArbitrationRequest byIngressPort) (now : Nat → Int) :
    (arb.arbitrationCycle sorting now).2.ingressBuffers =
        (arb.processIngressBuffers now).ingressBuffers ∧
      ∀ port, isEgressPort port = false →
        (arb.arbitrationCycle sorting now).2.arbitrationQueues port =
            (arb.processIngressBuffers now).arbitrationQueues port ∧
          (arb.arbitrationCycle sorting now).1.filter (fun packet => packet.egressPort = port) =
            [] := by
  have served := arbitrationCycle_served sound labelled sorting now
  rcases served.sent_eq with ⟨first, second, sent, firstPort, secondPort, -⟩
  refine ⟨served.ingressBuffers_eq, fun port inner => ⟨served.inner port inner, ?_⟩⟩
  have bounds := of_decide_eq_false inner
  rw [sent, List.filter_append, filter_egressPort firstPort, filter_egressPort secondPort,
    if_neg (by omega), if_neg (by omega)]
  rfl

/-- No request enters a queue in the arbitrations of a cycle. -/
theorem arbitrationCycle_le (sound : arb.Sound) (labelled : arb.Labelled)
    (sorting : Sorting ArbitrationRequest byIngressPort) (now : Nat → Int) (port : Nat) :
    queues.contents ((arb.arbitrationCycle sorting now).2.arbitrationQueues port) ≤
      queues.contents ((arb.processIngressBuffers now).arbitrationQueues port) := by
  cases egress : isEgressPort port with
  | false => rw [((arbitrationCycle_frame sound labelled sorting now).2 port egress).1]
  | true =>
      rcases arbitrationCycle_outcome sound labelled sorting now egress with
        ⟨-, -, same, -⟩ | ⟨selected, -, won⟩
      · rw [same]
      · rw [won.contents_eq]
        exact Multiset.le_cons_self _ _

theorem Labelled.arbitrationCycle (labelled : arb.Labelled) (sound : arb.Sound)
    (sorting : Sorting ArbitrationRequest byIngressPort) (now : Nat → Int) :
    (arb.arbitrationCycle sorting now).2.Labelled :=
  EachRequest.of_le (labelled.processIngressBuffers sound now)
    (arbitrationCycle_le sound labelled sorting now)

end Cycle

/-! ## Runs -/

/-- The queues, the pointers and the log of transmissions are left to the cycle. -/
theorem call_frame (sorting : Sorting ArbitrationRequest byIngressPort) (state : Logged queues)
    {next : Call} (quiet : ∀ now, next ≠ .arbitrationCycle now) :
    (call sorting next state).arb.arbitrationQueues = state.arb.arbitrationQueues ∧
      (call sorting next state).arb.lastServedIngressPort = state.arb.lastServedIngressPort ∧
      (call sorting next state).transmitted = state.transmitted := by
  cases next with
  | receivePacket packet =>
      dsimp only [call, receivePacket]
      split_ifs <;> exact ⟨rfl, rfl, rfl⟩
  | arbitrationCycle now => exact absurd rfl (quiet now)
  | addRoute destinationId egressPort =>
      dsimp only [call, addRoute]
      split_ifs <;> exact ⟨rfl, rfl, rfl⟩
  | configurePortPriority port tc priority =>
      dsimp only [call, configurePortPriority]
      split_ifs <;> exact ⟨rfl, rfl, rfl⟩

/-- An invariant of the queues, the pointers and the log, which the cycles
keep. -/
theorem run_invariant (Inv : Logged queues → Prop)
    (initial : Inv ⟨new queues, [], []⟩)
    (quiet : ∀ state state' : Logged queues,
      state'.arb.arbitrationQueues = state.arb.arbitrationQueues →
      state'.arb.lastServedIngressPort = state.arb.lastServedIngressPort →
      state'.transmitted = state.transmitted → Inv state → Inv state')
    (cycle : ∀ (state : Logged queues) now, state.arb.Sound → Inv state →
      Inv (call sorting (.arbitrationCycle now) state)) (calls : List Call) :
    Inv (run queues sorting calls) := by
  apply runCalls_prefix fun _ (state : Logged queues) => Inv state
  · exact initial
  · intro before next _ _ inv
    by_cases cycles : ∃ now, next = .arbitrationCycle now
    · rcases cycles with ⟨now, rfl⟩
      exact cycle _ now (conserved_run queues sorting before).toSound inv
    · rcases call_frame sorting (run queues sorting before) (not_exists.mp cycles) with
        ⟨sameQueues, samePointer, sameLog⟩
      exact quiet _ _ sameQueues samePointer sameLog inv

theorem labelled_run (queues : PriorityQueue ArbitrationRequest arbitrationComparator)
    (sorting : Sorting ArbitrationRequest byIngressPort) (calls : List Call) :
    (run queues sorting calls).arb.Labelled := by
  apply run_invariant fun state : Logged queues => state.arb.Labelled
  · intro port request member
    dsimp only [new] at member
    rw [queues.contents_empty] at member
    exact absurd member (Multiset.notMem_zero request)
  · intro state state' same _ _ labelled port
    rw [same]
    exact labelled port
  · exact fun state now sound labelled => labelled.arbitrationCycle sound sorting now

end SystemcTlm.Pcie.PCIeSwitchArbitrator
