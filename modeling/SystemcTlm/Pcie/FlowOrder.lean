import SystemcTlm.Pcie.PortTurns

/-!
# Order within a flow

Packets of one ingress port, egress port and priority form a flow.  They leave
the ingress buffer in order, one in a cycle, so the times of their requests
increase.  In the queue the oldest is served first, as long as `std::sort`
leaves it in front of the other requests of its port.  What has been
transmitted of a flow is then the beginning of what has been accepted.
-/

namespace SystemcTlm.Pcie

open SystemcTlm.Container SystemcTlm.Loop SystemcTlm.Transition

/-- The packets from one port to another of one priority. -/
structure Flow where
  ingressPort : Nat
  egressPort : Nat
  priority : Nat

/-- The packet belongs to the flow. -/
def Flow.has (flow : Flow) (packet : PCIePacket) : Bool :=
  decide (packet.ingressPort = flow.ingressPort ∧ packet.egressPort = flow.egressPort ∧
    packet.priority = flow.priority)

theorem Flow.has_iff {flow : Flow} {packet : PCIePacket} :
    flow.has packet = true ↔ packet.ingressPort = flow.ingressPort ∧
      packet.egressPort = flow.egressPort ∧ packet.priority = flow.priority :=
  decide_eq_true_iff

theorem Flow.filter_cons_of_has {flow : Flow} {request : ArbitrationRequest}
    (has : flow.has request.packet = true) (requests : Multiset ArbitrationRequest) :
    (request ::ₘ requests).filter (fun request => flow.has request.packet = true) =
      request ::ₘ requests.filter fun request => flow.has request.packet = true :=
  Multiset.filter_cons_of_pos requests has

theorem Flow.filter_cons_of_not {flow : Flow} {request : ArbitrationRequest}
    (other : ¬ flow.has request.packet = true) (requests : Multiset ArbitrationRequest) :
    (request ::ₘ requests).filter (fun request => flow.has request.packet = true) =
      requests.filter fun request => flow.has request.packet = true :=
  Multiset.filter_cons_of_neg requests other

/-- A flow leaves through one port. -/
theorem Flow.filter_egressPort (flow : Flow) (packets : List PCIePacket) :
    packets.filter flow.has =
      (packets.filter fun packet => packet.egressPort = flow.egressPort).filter flow.has := by
  rw [List.filter_filter]
  apply List.filter_congr
  intro packet _
  cases has : flow.has packet with
  | false => rfl
  | true => simp [(Flow.has_iff.mp has).2.1]

namespace PCIeSwitchArbitrator

variable {queues : PriorityQueue ArbitrationRequest arbitrationComparator}
  {sorting : Sorting ArbitrationRequest byIngressPort}

/-- The least entry of a strictly increasing list is its head. -/
theorem exists_cons_of_least {α : Type} {key : α → Int} {entries : List α}
    (sorted : entries.Pairwise fun a b => key a < key b) {entry : α} (member : entry ∈ entries)
    (least : ∀ other ∈ entries, key entry ≤ key other) : ∃ rest, entries = entry :: rest := by
  cases entries with
  | nil => cases member
  | cons first rest =>
      rcases List.mem_cons.mp member with rfl | later
      · exact ⟨rest, rfl⟩
      · have less := List.rel_of_pairwise_cons sorted later
        exact absurd (least first List.mem_cons_self) (not_le.mpr less)

/-! ## The backlog of a flow -/

/-- `packets` are those of the flow that are in flight, in order: first those
that have a request, by the times of their requests, and then those in the
buffer. -/
structure Backlog (flow : Flow) (arb : PCIeSwitchArbitrator queues)
    (requests : List ArbitrationRequest) (packets : List PCIePacket) : Prop where
  waiting : (requests : Multiset ArbitrationRequest) =
    (queues.contents (arb.arbitrationQueues flow.egressPort)).filter fun request =>
      flow.has request.packet = true
  sorted : requests.Pairwise fun earlier later => earlier.requestTime < later.requestTime
  packets_eq : packets = requests.map ArbitrationRequest.packet ++
    (arb.ingressBuffers flow.ingressPort).filter flow.has

/-- `std::sort` leaves, of the requests of the port that is next in turn, the
oldest in front. -/
def OldestFirst (sorting : Sorting ArbitrationRequest byIngressPort) (port : Nat)
    (arb : PCIeSwitchArbitrator queues) : Prop :=
  ∀ ingressPort,
    FirstAfter 4 (arb.lastServedIngressPort port) (arb.contenders port) ingressPort →
    ∀ first, (sorting.sort (arb.samePriorityRequests port)).find?
        (fun request => decide (request.ingressPort = ingressPort)) = some first →
      ∀ request ∈ arb.samePriorityRequests port, request.ingressPort = ingressPort →
        first.requestTime ≤ request.requestTime

section Backlog

variable {arb after : PCIeSwitchArbitrator queues} {flow : Flow} {port : Nat}
  {requests : List ArbitrationRequest} {packets : List PCIePacket}

theorem Backlog.has_of_mem (backlog : Backlog flow arb requests packets)
    {request : ArbitrationRequest} (member : request ∈ requests) :
    request ∈ queues.contents (arb.arbitrationQueues flow.egressPort) ∧
      flow.has request.packet = true := by
  have filtered : request ∈ (requests : Multiset ArbitrationRequest) := member
  rw [backlog.waiting, Multiset.mem_filter] at filtered
  exact filtered

/-- The request served is the oldest of its port and priority. -/
theorem Won.oldest {selected : ArbitrationRequest} (won : Won sorting port selected arb after)
    (sound : arb.Sound) (pointer : arb.lastServedIngressPort port < 4)
    (oldest : OldestFirst sorting port arb) {request : ArbitrationRequest}
    (member : request ∈ queues.contents (arb.arbitrationQueues port))
    (samePort : request.ingressPort = selected.ingressPort)
    (samePriority : request.priority = selected.priority) :
    selected.requestTime ≤ request.requestTime := by
  have shares : selected ∈ arb.highest port := by
    rw [← coe_samePriorityRequests]
    exact won.shares
  have among : request ∈ arb.samePriorityRequests port := by
    rw [← Multiset.mem_coe, coe_samePriorityRequests]
    refine Multiset.mem_filter.mpr ⟨member, fun other otherMem => ?_⟩
    rw [samePriority]
    exact (Multiset.mem_filter.mp shares).2 other otherMem
  by_cases several : (arb.samePriorityRequests port).length > 1
  · have bound : ∀ other ∈ arb.samePriorityRequests port, other.ingressPort < 4 := by
      intro other otherMem
      apply ingressPort_lt_of_contender sound
      rw [contenders_eq]
      exact ⟨other, otherMem, rfl⟩
    rcases roundRobinArbitration_first bound pointer (won.contested several).1 with ⟨next, inFront⟩
    rw [← contenders_eq] at next
    exact oldest selected.ingressPort next selected inFront request among samePort
  · rw [(won.alone several).1, List.mem_singleton] at among
    rw [among]

/-- Of the requests that share the highest priority none is older than the first
of its port. -/
def Leads (sorting : Sorting ArbitrationRequest byIngressPort) (port : Nat)
    (arb : PCIeSwitchArbitrator queues) : Prop :=
  ∀ request ∈ arb.samePriorityRequests port,
    ∀ first ∈ (sorting.sort (arb.samePriorityRequests port)).find?
        (fun other => decide (other.ingressPort = request.ingressPort)),
      first.requestTime ≤ request.requestTime

instance (sorting : Sorting ArbitrationRequest byIngressPort) (port : Nat)
    (arb : PCIeSwitchArbitrator queues) : Decidable (Leads sorting port arb) :=
  inferInstanceAs (Decidable (∀ request ∈ _, ∀ first ∈ _, _))

theorem oldestFirst_of_leads (leads : Leads sorting port arb) : OldestFirst sorting port arb := by
  intro ingressPort _ first inFront request member same
  rw [← same] at inFront
  exact leads request member first inFront

/-- A request of the flow that is served is the oldest of its backlog. -/
theorem Backlog.least_of_won (backlog : Backlog flow arb requests packets) (sound : arb.Sound)
    (labelled : arb.Labelled) (pointer : arb.lastServedIngressPort flow.egressPort < 4)
    (oldest : OldestFirst sorting flow.egressPort arb) {selected : ArbitrationRequest}
    (won : Won sorting flow.egressPort selected arb after)
    (has : flow.has selected.packet = true) :
    ∀ other ∈ requests, selected.requestTime ≤ other.requestTime := by
  intro other member
  rcases backlog.has_of_mem member with ⟨queued, otherHas⟩
  rcases Flow.has_iff.mp otherHas with ⟨otherPort, -, otherPriority⟩
  rcases Flow.has_iff.mp has with ⟨selectedPort, -, selectedPriority⟩
  have otherSound := (sound.requests _ other queued).1
  have otherLabel := (labelled _ other queued).2
  have selectedSound := (sound.requests _ selected won.mem_contents).1
  have selectedLabel := (labelled _ selected won.mem_contents).2
  apply won.oldest sound pointer oldest queued
  · rw [otherSound, otherPort, selectedSound, selectedPort]
  · rw [otherLabel, otherPriority, selectedLabel, selectedPriority]

/-- A port serves the head of the backlog of one flow, and leaves the others
alone. -/
theorem Backlog.outcome (backlog : Backlog flow arb requests packets) (sound : arb.Sound)
    (labelled : arb.Labelled) (pointer : arb.lastServedIngressPort flow.egressPort < 4)
    (oldest : OldestFirst sorting flow.egressPort arb) {sent : List PCIePacket}
    (outcome : Outcome sorting flow.egressPort arb after sent)
    (buffers : after.ingressBuffers = arb.ingressBuffers) :
    ∃ requests' packets', packets = sent.filter flow.has ++ packets' ∧
      Backlog flow after requests' packets' := by
  rcases outcome with ⟨-, nothing, same, -⟩ | ⟨selected, one, won⟩
  · refine ⟨requests, packets, by rw [nothing]; rfl, ?_⟩
    exact {
      waiting := by
        rw [same]
        exact backlog.waiting
      sorted := backlog.sorted
      packets_eq := by
        rw [buffers]
        exact backlog.packets_eq }
  · have waiting := backlog.waiting
    rw [won.contents_eq] at waiting
    by_cases has : flow.has selected.packet = true
    · rw [Flow.filter_cons_of_has has] at waiting
      have member : selected ∈ requests := by
        rw [← Multiset.mem_coe, waiting]
        exact Multiset.mem_cons_self _ _
      have least := backlog.least_of_won sound labelled pointer oldest won has
      rcases exists_cons_of_least backlog.sorted member least with ⟨rest, rfl⟩
      rw [← Multiset.cons_coe, Multiset.cons_inj_right] at waiting
      have packets_eq := backlog.packets_eq
      rw [List.map_cons, List.cons_append] at packets_eq
      refine ⟨rest, _, ?_, waiting, (List.pairwise_cons.mp backlog.sorted).2, rfl⟩
      rw [one, List.filter_cons_of_pos has, List.filter_nil, buffers, packets_eq]
      rfl
    · rw [Flow.filter_cons_of_not has] at waiting
      refine ⟨requests, packets, ?_, waiting, backlog.sorted, ?_⟩
      · rw [one, List.filter_cons_of_neg has]
        rfl
      · rw [buffers]
        exact backlog.packets_eq

/-- What a backlog depends on. -/
theorem Backlog.congr (backlog : Backlog flow arb requests packets)
    (queue : after.arbitrationQueues flow.egressPort = arb.arbitrationQueues flow.egressPort)
    (buffers : after.ingressBuffers = arb.ingressBuffers) :
    Backlog flow after requests packets where
  waiting := by
    rw [queue]
    exact backlog.waiting
  sorted := backlog.sorted
  packets_eq := by
    rw [buffers]
    exact backlog.packets_eq

/-- The head of a buffer gets a request, which is newer than those of its
flow. -/
theorem Backlog.processIngressBuffer (backlog : Backlog flow arb requests packets)
    (sound : arb.Sound) {now : Nat → Int}
    (newer : port = flow.ingressPort → ∀ request ∈ requests, request.requestTime < now port) :
    ∃ requests', Backlog flow (arb.processIngressBuffer now port) requests' packets ∧
      (port ≠ flow.ingressPort → requests' = requests) := by
  cases front : arb.ingressBuffers port with
  | nil =>
      rw [processIngressBuffer_nil front]
      exact ⟨requests, backlog, fun _ => rfl⟩
  | cons packet rest =>
      have onPort := (sound.buffers port packet (front ▸ List.mem_cons_self)).1
      obtain ⟨request, isPacket, -, -, -, time, -, eq⟩ := processIngressBuffer_cons sound now front
      rw [eq]
      subst isPacket
      by_cases has : flow.has request.packet = true
      · rcases Flow.has_iff.mp has with ⟨fromPort, toPort, -⟩
        have here : port = flow.ingressPort := onPort.symm.trans fromPort
        subst here
        refine ⟨requests ++ [request], ?_, fun away => absurd rfl away⟩
        exact {
          waiting := by
            dsimp only
            rw [toPort, Function.update_self, queues.contents_push,
              Flow.filter_cons_of_has has, ← backlog.waiting, Multiset.cons_coe]
            exact Multiset.coe_eq_coe.mpr (List.perm_append_singleton request requests)
          sorted := by
            rw [List.pairwise_append]
            refine ⟨backlog.sorted, List.pairwise_singleton _ _, fun earlier member last lastMem => ?_⟩
            rw [List.mem_singleton.mp lastMem, time]
            exact newer rfl earlier member
          packets_eq := by
            rw [backlog.packets_eq, front, List.filter_cons_of_pos has]
            dsimp only
            rw [Function.update_self, List.map_append, List.append_assoc]
            rfl }
      · refine ⟨requests, ?_, fun _ => rfl⟩
        exact {
          waiting := by
            dsimp only
            rw [Function.update_apply]
            split_ifs with toPort
            · rw [queues.contents_push, Flow.filter_cons_of_not has, ← toPort]
              exact backlog.waiting
            · exact backlog.waiting
          sorted := backlog.sorted
          packets_eq := by
            rw [backlog.packets_eq]
            dsimp only
            rw [Function.update_apply]
            split_ifs with here
            · rw [here, front, List.filter_cons_of_neg has]
            · rfl }

theorem Backlog.processIngressBuffers (backlog : Backlog flow arb requests packets)
    (sound : arb.Sound) {now : Nat → Int}
    (newer : ∀ request ∈ requests, request.requestTime < now flow.ingressPort) :
    ∃ requests', Backlog flow (arb.processIngressBuffers now) requests' packets := by
  -- Until its port is processed, the flow has no request but the old ones.
  have loop : (arb.processIngressBuffers now).Sound ∧ ∃ requests',
      Backlog flow (arb.processIngressBuffers now) requests' packets ∧
      (4 ≤ flow.ingressPort → requests' = requests) := by
    apply forRange_induction fun k (current : PCIeSwitchArbitrator queues) => current.Sound ∧
      ∃ requests', Backlog flow current requests' packets ∧
        (k ≤ flow.ingressPort → requests' = requests)
    · exact ⟨sound, requests, backlog, fun _ => rfl⟩
    · rintro k current _ ⟨before, requests', filled, old⟩
      have still : k = flow.ingressPort → ∀ request ∈ requests', request.requestTime < now k := by
        rintro rfl request member
        rw [old (Nat.le_refl _)] at member
        exact newer request member
      rcases filled.processIngressBuffer before still with ⟨requests'', next, away⟩
      refine ⟨before.processIngressBuffer, requests'', next, fun later => ?_⟩
      rw [away (by omega), old (by omega)]
  rcases loop.2 with ⟨requests', filled, -⟩
  exact ⟨requests', filled⟩

/-- A buffered packet goes to the end of the backlog of its flow. -/
theorem Backlog.bufferPacket (backlog : Backlog flow arb requests packets) (packet : PCIePacket) :
    Backlog flow (arb.bufferPacket packet) requests (packets ++ [packet].filter flow.has) where
  waiting := backlog.waiting
  sorted := backlog.sorted
  packets_eq := by
    rw [backlog.packets_eq, List.append_assoc]
    dsimp only [PCIeSwitchArbitrator.bufferPacket]
    rw [Function.update_apply]
    split_ifs with here
    · rw [here, List.filter_append]
    · have other : ¬ flow.has packet = true := fun has => here (Flow.has_iff.mp has).1.symm
      rw [List.filter_cons_of_neg other, List.filter_nil, List.append_nil]

end Backlog

/-! ## Runs -/

/-- The times at which the cycles of a run make their requests, by port. -/
def clocks (calls : List Call) : List (Nat → Int) :=
  calls.filterMap fun
    | .arbitrationCycle now => some now
    | _ => none

/-- What has been accepted of a flow is what has been transmitted and then the
backlog, whose requests have the times of the cycles so far. -/
structure InOrder (flow : Flow) (times : List (Nat → Int)) (state : Logged queues) : Prop where
  timed : state.arb.EachRequest fun _ request =>
    ∃ now ∈ times, request.requestTime = now request.ingressPort
  backlog : ∃ requests packets, Backlog flow state.arb requests packets ∧
    state.accepted.filter flow.has = state.transmitted.filter flow.has ++ packets

section InOrder

variable {flow : Flow} {times : List (Nat → Int)} {state : Logged queues}

theorem inOrder_new (flow : Flow) : InOrder flow [] (⟨new queues, [], []⟩ : Logged queues) := by
  constructor
  · intro port request member
    dsimp only [new] at member
    rw [queues.contents_empty] at member
    exact absurd member (Multiset.notMem_zero request)
  · refine ⟨[], [], ⟨?_, List.Pairwise.nil, rfl⟩, rfl⟩
    dsimp only [new]
    rw [queues.contents_empty]
    rfl

/-- What the order of a flow depends on. -/
theorem InOrder.congr {state' : Logged queues} (inOrder : InOrder flow times state)
    (queue : state'.arb.arbitrationQueues = state.arb.arbitrationQueues)
    (buffers : state'.arb.ingressBuffers = state.arb.ingressBuffers)
    (accepted : state'.accepted = state.accepted)
    (transmitted : state'.transmitted = state.transmitted) : InOrder flow times state' := by
  rcases inOrder with ⟨timed, requests, packets, backlog, balance⟩
  constructor
  · unfold EachRequest
    rw [queue]
    exact timed
  · refine ⟨requests, packets, backlog.congr (by rw [queue]) buffers, ?_⟩
    rw [accepted, transmitted]
    exact balance

theorem InOrder.addRoute (inOrder : InOrder flow times state) (destinationId : UInt32)
    (egressPort : Nat) :
    InOrder flow times (call sorting (.addRoute destinationId egressPort) state) := by
  dsimp only [call, PCIeSwitchArbitrator.addRoute]
  split_ifs
  · exact inOrder.congr rfl rfl rfl rfl
  · exact inOrder

theorem InOrder.configurePortPriority (inOrder : InOrder flow times state)
    (port tc priority : Nat) :
    InOrder flow times (call sorting (.configurePortPriority port tc priority) state) := by
  dsimp only [call, PCIeSwitchArbitrator.configurePortPriority]
  split_ifs
  · exact inOrder.congr rfl rfl rfl rfl
  · exact inOrder

theorem InOrder.receivePacket (inOrder : InOrder flow times state) (sound : state.arb.Sound)
    (packet : PCIePacket) : InOrder flow times (call sorting (.receivePacket packet) state) := by
  rcases receivePacket_cases sound packet with dropped | ⟨-, -, routed, -, -, -, accepts⟩
  · dsimp only [call]
    rw [dropped]
    exact inOrder.congr rfl rfl rfl rfl
  · rcases inOrder with ⟨timed, requests, packets, backlog, balance⟩
    have charged : Backlog flow (state.arb.setCredits packet.ingressPort packet.vc
        ((state.arb.ingressPorts packet.ingressPort).vcCredits packet.vc - 1)) requests packets :=
      backlog.congr rfl rfl
    dsimp only [call]
    rw [accepts]
    refine ⟨timed, requests, _, charged.bufferPacket routed, ?_⟩
    dsimp only
    rw [if_pos rfl, List.filter_append, balance, List.append_assoc]

/-- What a cycle transmits of a flow comes off the front of its backlog. -/
theorem InOrder.arbitrationCycle (inOrder : InOrder flow times state) (sound : state.arb.Sound)
    (inRange : InRange state) {now : Nat → Int}
    (newer : ∀ earlier ∈ times, ∀ port, earlier port < now port)
    (oldest : isEgressPort flow.egressPort = true →
      OldestFirst sorting flow.egressPort (state.arb.processIngressBuffers now)) :
    InOrder flow (times ++ [now]) (call sorting (.arbitrationCycle now) state) := by
  rcases inOrder with ⟨timed, requests, packets, backlog, balance⟩
  have filled := (processIngressBuffers_spec sound now).1
  have labels := inRange.labelled.processIngressBuffers sound now
  have samePointer := processIngressBuffers_lastServedIngressPort state.arb now
  rcases arbitrationCycle_frame sound inRange.labelled sorting now with ⟨buffers, inner⟩
  have old : ∀ request ∈ requests, request.requestTime < now flow.ingressPort := by
    intro request member
    rcases backlog.has_of_mem member with ⟨queued, has⟩
    rcases timed _ request queued with ⟨earlier, earlierMem, time⟩
    rw [time, (sound.requests _ request queued).1, (Flow.has_iff.mp has).1]
    exact newer earlier earlierMem flow.ingressPort
  rcases backlog.processIngressBuffers sound old with ⟨requests', ready⟩
  have later : state.arb.EachRequest fun _ request =>
      ∃ earlier ∈ times ++ [now], request.requestTime = earlier request.ingressPort := by
    intro port request member
    rcases timed port request member with ⟨earlier, earlierMem, time⟩
    exact ⟨earlier, List.mem_append_left _ earlierMem, time⟩
  constructor
  · apply EachRequest.of_le (later.processIngressBuffers sound fun request _ time =>
      ⟨now, List.mem_append_right _ List.mem_cons_self, time⟩)
    exact arbitrationCycle_le sound inRange.labelled sorting now
  · dsimp only [call]
    rw [balance, List.filter_append,
      flow.filter_egressPort (state.arb.arbitrationCycle sorting now).1]
    cases egress : isEgressPort flow.egressPort with
    | false =>
        rcases inner flow.egressPort egress with ⟨same, nothing⟩
        rw [nothing, List.filter_nil, List.append_nil]
        exact ⟨requests', packets, ready.congr same buffers, rfl⟩
    | true =>
        have pointer := inRange.pointer flow.egressPort egress
        rw [← samePointer] at pointer
        obtain ⟨requests'', packets', served, rest⟩ := ready.outcome filled labels pointer
          (oldest egress) (arbitrationCycle_outcome sound inRange.labelled sorting now egress) buffers
        refine ⟨requests'', packets', rest, ?_⟩
        rw [served, List.append_assoc]

end InOrder

theorem clocks_append (first second : List Call) :
    clocks (first ++ second) = clocks first ++ clocks second :=
  List.filterMap_append

/-- In a run whose clock goes on from cycle to cycle, and in which the sort
leaves the oldest request of the port next in turn in front, the packets of a
flow are transmitted in the order in which they were accepted. -/
theorem flow_in_order (queues : PriorityQueue ArbitrationRequest arbitrationComparator)
    (sorting : Sorting ArbitrationRequest byIngressPort) (calls : List Call)
    (increases : (clocks calls).Pairwise fun earlier later => ∀ port, earlier port < later port)
    (oldest : ∀ before now rest, calls = before ++ .arbitrationCycle now :: rest →
      ∀ port, isEgressPort port = true →
        OldestFirst sorting port ((run queues sorting before).arb.processIngressBuffers now))
    (flow : Flow) :
    (run queues sorting calls).transmitted.filter flow.has <+:
      (run queues sorting calls).accepted.filter flow.has := by
  have inOrder : InOrder flow (clocks calls) (run queues sorting calls) := by
    apply runCalls_prefix fun before (state : Logged queues) => InOrder flow (clocks before) state
    · exact inOrder_new flow
    · intro before next rest split inOrder
      have sound := (conserved_run queues sorting before).toSound
      rw [clocks_append]
      cases next with
      | receivePacket packet =>
          rw [show clocks [.receivePacket packet] = [] from rfl, List.append_nil]
          exact inOrder.receivePacket sound packet
      | arbitrationCycle now =>
          apply inOrder.arbitrationCycle sound (inRange_run queues sorting before)
          · rw [split, clocks_append] at increases
            intro earlier member
            exact (List.pairwise_append.mp increases).2.2 earlier member now List.mem_cons_self
          · exact fun egress => oldest before now rest split flow.egressPort egress
      | addRoute destinationId egressPort =>
          rw [show clocks [.addRoute destinationId egressPort] = [] from rfl, List.append_nil]
          exact inOrder.addRoute destinationId egressPort
      | configurePortPriority port tc priority =>
          rw [show clocks [.configurePortPriority port tc priority] = [] from rfl, List.append_nil]
          exact inOrder.configurePortPriority port tc priority
  rcases inOrder.backlog with ⟨_, packets, -, balance⟩
  rw [balance]
  exact List.prefix_append _ _

/-- The first packet of port 0 loses to port 1 and waits for the second. -/
def overtaking : List Call :=
  [.receivePacket ⟨0x1000, 0, 64, 0, 0, 0, 0, 0, 1⟩,
    .receivePacket ⟨0x1000, 0, 64, 0, 0, 1, 0, 0, 2⟩, .arbitrationCycle fun _ => 0,
    .receivePacket ⟨0x1000, 0, 64, 0, 0, 0, 0, 0, 3⟩, .arbitrationCycle fun _ => 1]

/-- Insertion leaves the older of the two packets of port 0 in front. -/
theorem flow_in_order_overtaking :
    (run orderedQueues portSorting overtaking).transmitted.map PCIePacket.object = [2, 1] ∧
      (run orderedQueues portSorting overtaking).transmitted.filter (Flow.has ⟨0, 2, 7⟩) <+:
        (run orderedQueues portSorting overtaking).accepted.filter (Flow.has ⟨0, 2, 7⟩) := by
  have increases : (clocks overtaking).Pairwise fun earlier later =>
      ∀ port, earlier port < later port := by
    simp [clocks, overtaking]
  refine ⟨by decide +kernel, flow_in_order orderedQueues portSorting overtaking increases ?_ _⟩
  intro before now rest split port egress
  have bound : port < 4 := (of_decide_eq_true egress).2
  have inOrder : (∀ port < 4, Leads portSorting port ((run orderedQueues portSorting
        (overtaking.take 2)).arb.processIngressBuffers fun _ => 0)) ∧
      ∀ port < 4, Leads portSorting port ((run orderedQueues portSorting
        (overtaking.take 4)).arb.processIngressBuffers fun _ => 1) := by
    decide +kernel
  have cycles : before = overtaking.take 2 ∧ now = (fun _ => 0) ∨
      before = overtaking.take 4 ∧ now = (fun _ => 1) := by
    unfold overtaking at split ⊢
    rcases before with _ | ⟨_, _ | ⟨_, _ | ⟨_, _ | ⟨_, _ | ⟨_, before⟩⟩⟩⟩⟩ <;> simp at split
    · exact Or.inl ⟨by simp [split], split.2.2.1.symm⟩
    · exact Or.inr ⟨by simp [split], split.2.2.2.2.1.symm⟩
  apply oldestFirst_of_leads
  rcases cycles with ⟨rfl, rfl⟩ | ⟨rfl, rfl⟩
  · exact inOrder.1 port bound
  · exact inOrder.2 port bound

/-- A sort that reverses the requests of a port. -/
def reversingSorting : Sorting ArbitrationRequest byIngressPort where
  sort requests := portSorting.sort requests.reverse
  perm requests := (portSorting.perm _).trans requests.reverse_perm
  sorted _ := portSorting.sorted _

/-- The second packet of the flow is transmitted, and the first is not. -/
theorem not_flow_in_order_overtaking :
    ((clocks overtaking).Pairwise fun earlier later => ∀ port, earlier port < later port) ∧
      ¬ (run orderedQueues reversingSorting overtaking).transmitted.filter (Flow.has ⟨0, 2, 7⟩) <+:
        (run orderedQueues reversingSorting overtaking).accepted.filter (Flow.has ⟨0, 2, 7⟩) := by
  constructor
  · simp [clocks, overtaking]
  · decide +kernel

end PCIeSwitchArbitrator

end SystemcTlm.Pcie
