import SystemcTlm.Pcie.Arbitration
import Mathlib.Algebra.BigOperators.Group.Finset.Piecewise
import Mathlib.Algebra.Order.Group.Multiset
import Mathlib.Order.Interval.Finset.Nat
import Mathlib.Tactic.Abel

/-!
# Conservation of packets and credits

A packet that has been accepted is in flight until it is transmitted: in the
buffer of its ingress port, or in a request.  A cycle moves packets from the
buffers into the queues and takes at most one out of each queue.  Every packet
in flight holds one credit of its channel.
-/

namespace SystemcTlm.Pcie.PCIeSwitchArbitrator

open SystemcTlm.Container SystemcTlm.Loop SystemcTlm.Transition

variable {queues : PriorityQueue ArbitrationRequest arbitrationComparator}
  {sorting : Sorting ArbitrationRequest byIngressPort}

/-! ## Lists and sums -/

/-- Replacing one summand. -/
theorem sum_replaced {M : Type} [AddCommMonoid M] {ports : Finset Nat} {port : Nat}
    (member : port ∈ ports) (table : Nat → M) (value : M) :
    table port + ∑ x ∈ ports, Function.update table port value x =
      value + ∑ x ∈ ports, table x := by
  have others : ∑ x ∈ ports.erase port, Function.update table port value x =
      ∑ x ∈ ports.erase port, table x := by
    apply Finset.sum_congr rfl
    intro x other
    exact Function.update_of_ne (Finset.ne_of_mem_erase other) _ _
  rw [← Finset.add_sum_erase ports _ member, ← Finset.add_sum_erase ports table member, others,
    Function.update_self]
  abel

/-! ## Packets in flight -/

/-- The requests of all arbitration queues. -/
def waiting (arb : PCIeSwitchArbitrator queues) : Multiset ArbitrationRequest :=
  ∑ port ∈ Finset.Ico 2 4, queues.contents (arb.arbitrationQueues port)

/-- The packets of all ingress buffers. -/
def buffered (arb : PCIeSwitchArbitrator queues) : Multiset PCIePacket :=
  ∑ port ∈ Finset.range 4, (arb.ingressBuffers port : Multiset PCIePacket)

/-- The packets accepted and not yet transmitted. -/
def inFlight (arb : PCIeSwitchArbitrator queues) : Multiset PCIePacket :=
  arb.buffered + arb.waiting.map ArbitrationRequest.packet

/-- What holds between the calls, and inside a cycle. -/
structure Sound (arb : PCIeSwitchArbitrator queues) : Prop where
  routed : ∀ destinationId egressPort,
    arb.routingTable destinationId = some egressPort → isEgressPort egressPort = true
  buffers : ∀ port, ∀ packet ∈ arb.ingressBuffers port, packet.ingressPort = port ∧
    isIngressPort port = true ∧ isEgressPort packet.egressPort = true
  requests : ∀ port, ∀ request ∈ queues.contents (arb.arbitrationQueues port),
    request.ingressPort = request.packet.ingressPort ∧ request.vc = request.packet.vc ∧
      isIngressPort request.packet.ingressPort = true ∧ request.object < arb.allocated
  distinct : ∀ port,
    ((queues.contents (arb.arbitrationQueues port)).map ArbitrationRequest.object).Nodup

/-- Nothing of `Sound` depends on the rest of the state. -/
theorem Sound.of_eq {arb arb' : PCIeSwitchArbitrator queues} (sound : arb.Sound)
    (routes : arb'.routingTable = arb.routingTable)
    (buffers : arb'.ingressBuffers = arb.ingressBuffers)
    (arbitration : arb'.arbitrationQueues = arb.arbitrationQueues)
    (allocated : arb'.allocated = arb.allocated) : arb'.Sound where
  routed := by
    rw [routes]
    exact sound.routed
  buffers := by
    rw [buffers]
    exact sound.buffers
  requests := by
    rw [arbitration, allocated]
    exact sound.requests
  distinct := by
    rw [arbitration]
    exact sound.distinct

theorem Sound.setCredits {arb : PCIeSwitchArbitrator queues} (sound : arb.Sound)
    (port vc credits : Nat) : (arb.setCredits port vc credits).Sound :=
  sound.of_eq rfl rfl rfl rfl

theorem inFlight_setCredits (arb : PCIeSwitchArbitrator queues) (port vc credits : Nat) :
    (arb.setCredits port vc credits).inFlight = arb.inFlight :=
  rfl

section Receive

variable {arb : PCIeSwitchArbitrator queues}

/-- A packet is always routed to an egress port. -/
theorem routePacket_isEgressPort (sound : arb.Sound) (packet : PCIePacket) :
    isEgressPort (arb.routePacket packet) = true := by
  unfold routePacket
  cases route : arb.routingTable packet.destinationId with
  | some egressPort => exact sound.routed _ _ route
  | none =>
      dsimp only
      split_ifs <;> rfl

/-- A packet is dropped before anything else happens, or it takes a credit, is
routed and is buffered. -/
theorem receivePacket_cases (sound : arb.Sound) (packet : PCIePacket) :
    arb.receivePacket packet = (false, packet, arb.countDropped) ∨
      isIngressPort packet.ingressPort = true ∧
      (arb.ingressPorts packet.ingressPort).vcCredits packet.vc ≠ 0 ∧
      ∃ routed : PCIePacket, routed.ingressPort = packet.ingressPort ∧ routed.vc = packet.vc ∧
        isEgressPort routed.egressPort = true ∧
        arb.receivePacket packet = (true, routed,
          (arb.setCredits packet.ingressPort packet.vc
            ((arb.ingressPorts packet.ingressPort).vcCredits packet.vc - 1)).bufferPacket
              routed) := by
  unfold receivePacket
  dsimp only
  split_ifs with closed spent lost
  · exact Or.inl rfl
  · exact Or.inl rfl
  · have route := routePacket_isEgressPort
      (sound.setCredits packet.ingressPort packet.vc
        ((arb.ingressPorts packet.ingressPort).vcCredits packet.vc - 1)) packet
    rw [lost] at route
    exact absurd route (by decide)
  · have route := routePacket_isEgressPort
      (sound.setCredits packet.ingressPort packet.vc
        ((arb.ingressPorts packet.ingressPort).vcCredits packet.vc - 1)) packet
    rw [not_or, Bool.not_eq_false] at closed
    refine Or.inr ⟨closed.1, spent, _, ?_, ?_, ?_, rfl⟩
    · rfl
    · rfl
    · exact route

end Receive

/-! ## From the buffers into the queues -/

theorem mem_egressPorts {port : Nat} (egress : isEgressPort port = true) :
    port ∈ Finset.Ico 2 4 :=
  Finset.mem_Ico.mpr (of_decide_eq_true egress)

theorem mem_ingressPorts {port : Nat} (ingress : isIngressPort port = true) :
    port ∈ Finset.range 4 :=
  Finset.mem_range.mpr (of_decide_eq_true ingress)

/-- Replacing one arbitration queue. -/
theorem waiting_replaced {arb arb' : PCIeSwitchArbitrator queues} {port : Nat}
    {queue : queues.Queue} (egress : isEgressPort port = true)
    (replaced : arb'.arbitrationQueues = Function.update arb.arbitrationQueues port queue) :
    queues.contents (arb.arbitrationQueues port) + arb'.waiting =
      queues.contents queue + arb.waiting := by
  have table : ∀ x, queues.contents (arb'.arbitrationQueues x) =
      Function.update (fun x => queues.contents (arb.arbitrationQueues x)) port
        (queues.contents queue) x := by
    intro x
    rw [replaced]
    exact Function.apply_update (fun _ => queues.contents) _ _ _ _
  rw [waiting, Finset.sum_congr rfl fun x _ => table x]
  exact sum_replaced (mem_egressPorts egress)
    (fun x => queues.contents (arb.arbitrationQueues x)) _

/-- Replacing one ingress buffer. -/
theorem buffered_replaced {arb arb' : PCIeSwitchArbitrator queues} {port : Nat}
    {buffer : List PCIePacket} (ingress : isIngressPort port = true)
    (replaced : arb'.ingressBuffers = Function.update arb.ingressBuffers port buffer) :
    ↑(arb.ingressBuffers port) + arb'.buffered = ↑buffer + arb.buffered := by
  have table : ∀ x, (arb'.ingressBuffers x : Multiset PCIePacket) =
      Function.update (fun x => (arb.ingressBuffers x : Multiset PCIePacket)) port
        (buffer : Multiset PCIePacket) x := by
    intro x
    rw [replaced]
    exact Function.apply_update (fun _ => Multiset.ofList) _ _ _ _
  rw [buffered, Finset.sum_congr rfl fun x _ => table x]
  exact sum_replaced (mem_ingressPorts ingress)
    (fun x => (arb.ingressBuffers x : Multiset PCIePacket)) _

section Process

variable {arb : PCIeSwitchArbitrator queues} {now : Nat → Int} {port : Nat}

/-- The head of a buffer becomes a request of its egress port. -/
theorem processIngressBuffer_cons (sound : arb.Sound) (now : Nat → Int) {packet : PCIePacket}
    {rest : List PCIePacket} (front : arb.ingressBuffers port = packet :: rest) :
    ∃ request : ArbitrationRequest, request.packet = packet ∧
      request.ingressPort = packet.ingressPort ∧ request.vc = packet.vc ∧
      request.priority = packet.priority ∧ request.requestTime = now port ∧
      request.object = arb.allocated ∧
      arb.processIngressBuffer now port =
        { arb with
          ingressBuffers := Function.update arb.ingressBuffers port rest
          allocated := arb.allocated + 1
          arbitrationQueues := Function.update arb.arbitrationQueues packet.egressPort
            (queues.push request (arb.arbitrationQueues packet.egressPort)) } := by
  have egress := (sound.buffers port packet (front ▸ List.mem_cons_self)).2.2
  unfold processIngressBuffer
  rw [front]
  dsimp only
  rw [if_pos egress]
  refine ⟨_, ?_, ?_, ?_, ?_, ?_, ?_, rfl⟩ <;> rfl

theorem processIngressBuffer_nil (empty : arb.ingressBuffers port = []) :
    arb.processIngressBuffer now port = arb := by
  unfold processIngressBuffer
  rw [empty]

/-- A packet that moves into a queue stays in flight. -/
theorem inFlight_processIngressBuffer (sound : arb.Sound) :
    (arb.processIngressBuffer now port).inFlight = arb.inFlight := by
  cases front : arb.ingressBuffers port with
  | nil => rw [processIngressBuffer_nil front]
  | cons packet rest =>
      obtain ⟨request, isPacket, -, -, -, -, -, after⟩ := processIngressBuffer_cons sound now front
      rcases sound.buffers port packet (front ▸ List.mem_cons_self) with ⟨_, ingress, egress⟩
      have moved : ↑(arb.ingressBuffers port) + (arb.processIngressBuffer now port).buffered =
          ↑rest + arb.buffered :=
        buffered_replaced ingress (by rw [after])
      have queued : queues.contents (arb.arbitrationQueues packet.egressPort) +
          (arb.processIngressBuffer now port).waiting =
          queues.contents (queues.push request (arb.arbitrationQueues packet.egressPort)) +
            arb.waiting :=
        waiting_replaced egress (by rw [after])
      rw [front, ← Multiset.cons_coe, Multiset.cons_add, ← Multiset.add_cons] at moved
      rw [queues.contents_push, Multiset.cons_add, ← Multiset.add_cons] at queued
      rw [inFlight, inFlight, add_left_cancel queued, ← add_left_cancel moved,
        Multiset.map_cons, isPacket, Multiset.add_cons, Multiset.cons_add]

theorem Sound.processIngressBuffer (sound : arb.Sound) :
    (arb.processIngressBuffer now port).Sound := by
  cases front : arb.ingressBuffers port with
  | nil =>
      rw [processIngressBuffer_nil front]
      exact sound
  | cons packet rest =>
      obtain ⟨request, isPacket, onPort, onChannel, -, -, object, after⟩ :=
        processIngressBuffer_cons sound now front
      rcases sound.buffers port packet (front ▸ List.mem_cons_self) with ⟨fromPort, ingress, _⟩
      rw [after]
      exact {
        routed := sound.routed
        buffers := by
          intro port' packet' member
          dsimp only at member
          rw [Function.update_apply] at member
          split_ifs at member with here
          · rw [here]
            exact sound.buffers port packet' (front ▸ List.mem_cons_of_mem _ member)
          · exact sound.buffers port' packet' member
        requests := by
          intro port' request' member
          have old : ∀ port', ∀ request' ∈ queues.contents (arb.arbitrationQueues port'),
              _ := sound.requests
          dsimp only at member ⊢
          rw [Function.update_apply] at member
          split_ifs at member with here
          · rw [queues.contents_push, Multiset.mem_cons] at member
            rcases member with rfl | member
            · rw [isPacket, object, fromPort]
              exact ⟨onPort.trans fromPort, onChannel, ingress, Nat.lt_succ_self _⟩
            · rcases old _ request' member with ⟨samePort, sameChannel, valid, bound⟩
              exact ⟨samePort, sameChannel, valid, Nat.lt_succ_of_lt bound⟩
          · rcases old _ request' member with ⟨samePort, sameChannel, valid, bound⟩
            exact ⟨samePort, sameChannel, valid, Nat.lt_succ_of_lt bound⟩
        distinct := by
          intro port'
          dsimp only
          rw [Function.update_apply]
          split_ifs
          · rw [queues.contents_push, Multiset.map_cons, Multiset.nodup_cons]
            refine ⟨fun used => ?_, sound.distinct _⟩
            rcases Multiset.mem_map.mp used with ⟨other, member, same⟩
            have bound := (sound.requests _ other member).2.2.2
            omega
          · exact sound.distinct port' }

theorem ingressPorts_processIngressBuffer :
    (arb.processIngressBuffer now port).ingressPorts = arb.ingressPorts := by
  cases front : arb.ingressBuffers port <;> simp [PCIeSwitchArbitrator.processIngressBuffer, front]

/-- Filling the queues changes neither what is in flight nor the credits. -/
theorem processIngressBuffers_spec (sound : arb.Sound) (now : Nat → Int) :
    (arb.processIngressBuffers now).Sound ∧
      (arb.processIngressBuffers now).inFlight = arb.inFlight ∧
      (arb.processIngressBuffers now).ingressPorts = arb.ingressPorts := by
  apply forRange_induction fun _ (current : PCIeSwitchArbitrator queues) => current.Sound ∧
    current.inFlight = arb.inFlight ∧ current.ingressPorts = arb.ingressPorts
  · exact ⟨sound, rfl, rfl⟩
  · rintro port current _ ⟨before, inFlight, ingressPorts⟩
    exact ⟨before.processIngressBuffer, (inFlight_processIngressBuffer before).trans inFlight,
      ingressPorts_processIngressBuffer.trans ingressPorts⟩

end Process

/-! ## Out of the queues -/

section Arbitrate

variable {arb after : PCIeSwitchArbitrator queues} {port : Nat} {selected : ArbitrationRequest}

/-- A taken request was in flight, and the rest still is. -/
theorem Takes.inFlight_eq (takes : Takes port selected arb after)
    (egress : isEgressPort port = true) : arb.inFlight = selected.packet ::ₘ after.inFlight := by
  have replaced : after.arbitrationQueues =
      Function.update arb.arbitrationQueues port (after.arbitrationQueues port) := by
    funext port'
    by_cases here : port' = port
    · rw [here, Function.update_self]
    · rw [Function.update_of_ne here, takes.others_eq port' here]
  have taken := waiting_replaced egress replaced
  rw [takes.contents_eq, Multiset.cons_add, ← Multiset.add_cons] at taken
  rw [inFlight, inFlight, buffered, buffered, takes.ingressBuffers_eq,
    ← add_left_cancel taken, Multiset.map_cons, Multiset.add_cons]

theorem Takes.sound (takes : Takes port selected arb after) (sound : arb.Sound) :
    after.Sound := by
  have smaller : ∀ port', queues.contents (after.arbitrationQueues port') ≤
      queues.contents (arb.arbitrationQueues port') := by
    intro port'
    by_cases here : port' = port
    · rw [here, takes.contents_eq]
      exact Multiset.le_cons_self _ _
    · rw [takes.others_eq port' here]
  exact {
    routed := by
      rw [takes.routingTable_eq]
      exact sound.routed
    buffers := by
      rw [takes.ingressBuffers_eq]
      exact sound.buffers
    requests := by
      intro port' request member
      rw [takes.allocated_eq]
      exact sound.requests port' request (Multiset.mem_of_le (smaller port') member)
    distinct := fun port' =>
      Multiset.nodup_of_le (Multiset.map_le_map (smaller port')) (sound.distinct port') }

end Arbitrate

/-! ## The invariant -/

/-- The packets in flight that hold a credit of the channel. -/
def holds (port vc : Nat) (packet : PCIePacket) : Prop :=
  packet.ingressPort = port ∧ packet.vc = vc

instance (port vc : Nat) : DecidablePred (holds port vc) :=
  fun _ => inferInstanceAs (Decidable (_ ∧ _))

/-- What holds after every call. -/
structure Conserved (state : Logged queues) : Prop extends Sound state.arb where
  credits : ∀ port, isIngressPort port = true → ∀ vc,
    (state.arb.ingressPorts port).vcCredits vc + state.arb.inFlight.countP (holds port vc) =
      if vc < 8 then 256 else 0
  packets : (state.accepted : Multiset PCIePacket) =
    ↑state.transmitted + state.arb.inFlight

section Invariant

variable {state : Logged queues}

theorem conserved_new : Conserved (⟨new queues, [], []⟩ : Logged queues) := by
  have nothing : (new queues).inFlight = 0 := by
    simp [inFlight, buffered, waiting, new, queues.contents_empty]
  exact {
    routed := by
      intro dest egressPort route
      dsimp only [new] at route
      split_ifs at route with known even
      · rw [← Option.some.inj route]
        rfl
      · rw [← Option.some.inj route]
        rfl
    buffers := by simp [new]
    requests := by simp [new, queues.contents_empty]
    distinct := by simp [new, queues.contents_empty]
    credits := by
      intro port _ vc
      dsimp only
      rw [nothing, Multiset.countP_zero]
      rfl
    packets := by
      dsimp only
      rw [nothing]
      rfl }

theorem vcCredits_setCredits (arb : PCIeSwitchArbitrator queues) (port vc credits : Nat)
    (port' vc' : Nat) :
    ((arb.setCredits port vc credits).ingressPorts port').vcCredits vc' =
      if port' = port ∧ vc' = vc then credits else (arb.ingressPorts port').vcCredits vc' := by
  dsimp only [setCredits, setIngressPort]
  by_cases here : port' = port
  · subst here
    simp [Function.update_apply]
  · simp [here]

theorem vcCredits_bufferPacket (arb : PCIeSwitchArbitrator queues) (packet : PCIePacket)
    (port : Nat) : ((arb.bufferPacket packet).ingressPorts port).vcCredits =
      (arb.ingressPorts port).vcCredits := by
  dsimp only [bufferPacket]
  rw [Function.update_apply]
  split_ifs with here
  · rw [here]
  · rfl

/-- Only the credits and the packets in flight count, in a sound state. -/
theorem Conserved.of_eq {state' : Logged queues} (conserved : Conserved state)
    (sound : state'.arb.Sound) (inFlight : state'.arb.inFlight = state.arb.inFlight)
    (credits : ∀ port, (state'.arb.ingressPorts port).vcCredits =
      (state.arb.ingressPorts port).vcCredits)
    (accepted : state'.accepted = state.accepted)
    (transmitted : state'.transmitted = state.transmitted) : Conserved state' where
  toSound := sound
  credits := by
    intro port ingress vc
    rw [inFlight, credits]
    exact conserved.credits port ingress vc
  packets := by
    rw [inFlight, accepted, transmitted]
    exact conserved.packets

/-- A buffered packet is in flight. -/
theorem inFlight_bufferPacket (arb : PCIeSwitchArbitrator queues) {packet : PCIePacket}
    (ingress : isIngressPort packet.ingressPort = true) :
    (arb.bufferPacket packet).inFlight = packet ::ₘ arb.inFlight := by
  have moved : ↑(arb.ingressBuffers packet.ingressPort) + (arb.bufferPacket packet).buffered =
      ↑(arb.ingressBuffers packet.ingressPort ++ [packet]) + arb.buffered :=
    buffered_replaced ingress rfl
  rw [← Multiset.coe_add, add_assoc, Multiset.coe_singleton, Multiset.singleton_add] at moved
  rw [inFlight, add_left_cancel moved, Multiset.cons_add]
  rfl

theorem Sound.bufferPacket {arb : PCIeSwitchArbitrator queues} (sound : arb.Sound)
    {packet : PCIePacket} (ingress : isIngressPort packet.ingressPort = true)
    (egress : isEgressPort packet.egressPort = true) : (arb.bufferPacket packet).Sound where
  routed := sound.routed
  buffers := by
    intro port other member
    dsimp only [PCIeSwitchArbitrator.bufferPacket] at member
    rw [Function.update_apply] at member
    split_ifs at member with here
    · rw [List.mem_append, List.mem_singleton] at member
      rcases member with member | rfl
      · rw [here]
        exact sound.buffers _ other member
      · exact ⟨here.symm, here ▸ ingress, egress⟩
    · exact sound.buffers port other member
  requests := sound.requests
  distinct := sound.distinct

/-- An accepted packet takes one credit and is in flight. -/
theorem Conserved.receivePacket (conserved : Conserved state) (packet : PCIePacket) :
    Conserved (call sorting (.receivePacket packet) state) := by
  rcases receivePacket_cases conserved.toSound packet with
    dropped | ⟨ingress, credit, routed, samePort, sameChannel, egress, accepts⟩
  · apply conserved.of_eq <;> simp only [call, dropped]
    · exact conserved.toSound.of_eq rfl rfl rfl rfl
    · rfl
    · exact fun _ => rfl
    · rfl
  · have flight := inFlight_bufferPacket
      (state.arb.setCredits packet.ingressPort packet.vc
        ((state.arb.ingressPorts packet.ingressPort).vcCredits packet.vc - 1)) (samePort ▸ ingress)
    rw [inFlight_setCredits] at flight
    simp only [call, accepts, if_true]
    exact {
      toSound := (conserved.toSound.setCredits _ _ _).bufferPacket (samePort ▸ ingress) egress
      credits := by
        intro port valid vc
        dsimp only
        have before := conserved.credits port valid vc
        have here : holds port vc routed ↔ port = packet.ingressPort ∧ vc = packet.vc := by
          rw [holds, samePort, sameChannel, eq_comm, eq_comm (a := packet.vc)]
        rw [flight, Multiset.countP_cons, vcCredits_bufferPacket, vcCredits_setCredits]
        simp only [here]
        by_cases both : port = packet.ingressPort ∧ vc = packet.vc
        · rw [if_pos both, if_pos both, ← before, both.1, both.2]
          omega
        · rw [if_neg both, if_neg both]
          exact before
      packets := by
        dsimp only
        rw [flight, ← Multiset.coe_add, conserved.packets, add_assoc, Multiset.coe_singleton,
          add_comm state.arb.inFlight, Multiset.singleton_add] }

/-- A transmission sets one credit, and nothing else that counts. -/
theorem transmitPacket_eq (arb : PCIeSwitchArbitrator queues) {packet : PCIePacket}
    (ingress : isIngressPort packet.ingressPort = true) :
    ∃ counted : PCIeSwitchArbitrator queues, (arb.Sound → counted.Sound) ∧
      counted.inFlight = arb.inFlight ∧ counted.ingressPorts = arb.ingressPorts ∧
      arb.transmitPacket packet = counted.setCredits packet.ingressPort packet.vc
        (min (((arb.ingressPorts packet.ingressPort).vcCredits packet.vc + 1) % 0x100000000)
          256) := by
  unfold transmitPacket restoreVCCredits
  dsimp only
  rw [if_pos ingress]
  refine ⟨_, ?_, ?_, ?_, rfl⟩
  · exact fun sound => sound.of_eq rfl rfl rfl rfl
  · rfl
  · rfl

/-- A request that is taken out of a queue is transmitted, and gives its credit
back. -/
theorem Conserved.serveEgressPort {arb : PCIeSwitchArbitrator queues}
    {accepted transmitted : List PCIePacket} (conserved : Conserved ⟨arb, accepted, transmitted⟩)
    (sorting : Sorting ArbitrationRequest byIngressPort) (port : Nat)
    (egress : isEgressPort port = true) :
    Conserved ⟨(serveEgressPort sorting port arb).2, accepted,
      transmitted ++ (serveEgressPort sorting port arb).1⟩ := by
  rcases serveEgressPort_cases (conserved.distinct port) sorting with
    ⟨-, idle⟩ | ⟨selected, after, served, serves⟩
  · rw [idle, List.append_nil]
    exact conserved
  · have takes := serves.toTakes
    have request : selected ∈ queues.contents (arb.arbitrationQueues port) := by
      rw [takes.contents_eq]
      exact Multiset.mem_cons_self _ _
    have ingress := (conserved.requests port selected request).2.2.1
    have taken := takes.inFlight_eq egress
    rcases transmitPacket_eq after ingress with ⟨counted, sound, inFlight, ingressPorts, transmits⟩
    rw [served, transmits]
    rw [takes.ingressPorts_eq] at ingressPorts ⊢
    exact {
      toSound := (sound (takes.sound conserved.toSound)).setCredits _ _ _
      credits := by
        intro port' valid vc
        dsimp only
        have before := conserved.credits port' valid vc
        dsimp only at before
        rw [taken, Multiset.countP_cons] at before
        rw [vcCredits_setCredits, inFlight_setCredits, inFlight, ingressPorts]
        by_cases both : port' = selected.packet.ingressPort ∧ vc = selected.packet.vc
        · rcases both with ⟨rfl, rfl⟩
          rw [if_pos (show holds _ _ selected.packet from ⟨rfl, rfl⟩)] at before
          rw [if_pos ⟨rfl, rfl⟩]
          -- The credit that the packet held is one of at most 256.
          have full : (if selected.packet.vc < 8 then 256 else 0) ≤ 256 := by
            split_ifs <;> decide
          omega
        · rw [if_neg (show ¬ holds port' vc selected.packet from
            fun here => both ⟨here.1.symm, here.2.symm⟩)] at before
          rw [if_neg both]
          exact before
      packets := by
        dsimp only
        rw [inFlight_setCredits, inFlight, conserved.packets, taken, ← Multiset.coe_add,
          Multiset.coe_singleton, add_assoc, Multiset.singleton_add] }

theorem Conserved.arbitrationCycle (conserved : Conserved state) (now : Nat → Int) :
    Conserved (call sorting (.arbitrationCycle now) state) := by
  rcases processIngressBuffers_spec conserved.toSound now with ⟨sound, inFlight, ingressPorts⟩
  have filled : Conserved ⟨state.arb.processIngressBuffers now, state.accepted,
      state.transmitted⟩ := by
    apply conserved.of_eq
    · exact sound
    · exact inFlight
    · intro port
      rw [ingressPorts]
    · rfl
    · rfl
  have both := (filled.serveEgressPort sorting 2 rfl).serveEgressPort sorting 3 rfl
  rw [List.append_assoc] at both
  exact both

theorem Conserved.addRoute (conserved : Conserved state) (destinationId : UInt32)
    (egressPort : Nat) : Conserved (call sorting (.addRoute destinationId egressPort) state) := by
  simp only [call, PCIeSwitchArbitrator.addRoute]
  split_ifs with egress
  · apply conserved.of_eq
    · exact {
        routed := by
          intro dest port route
          dsimp only at route
          rw [Function.update_apply] at route
          split_ifs at route
          · rw [← Option.some.inj route]
            exact egress
          · exact conserved.routed dest port route
        buffers := conserved.buffers
        requests := conserved.requests
        distinct := conserved.distinct }
    · rfl
    · exact fun _ => rfl
    · rfl
    · rfl
  · exact conserved

theorem Conserved.configurePortPriority (conserved : Conserved state) (port tc priority : Nat) :
    Conserved (call sorting (.configurePortPriority port tc priority) state) := by
  simp only [call, PCIeSwitchArbitrator.configurePortPriority]
  split_ifs with ingress
  · apply conserved.of_eq
    · exact conserved.toSound.of_eq rfl rfl rfl rfl
    · rfl
    · intro port'
      dsimp only [setIngressPort]
      rw [Function.update_apply]
      split_ifs with here
      · rw [here]
      · rfl
    · rfl
    · rfl
  · exact conserved

/-- The invariant holds after any calls. -/
theorem conserved_run (queues : PriorityQueue ArbitrationRequest arbitrationComparator)
    (sorting : Sorting ArbitrationRequest byIngressPort) (calls : List Call) :
    Conserved (run queues sorting calls) := by
  apply runCalls_invariant
  · exact conserved_new
  · intro next state conserved
    cases next with
    | receivePacket packet => exact conserved.receivePacket packet
    | arbitrationCycle now => exact conserved.arbitrationCycle now
    | addRoute destinationId egressPort => exact conserved.addRoute destinationId egressPort
    | configurePortPriority port tc priority =>
        exact conserved.configurePortPriority port tc priority

end Invariant

/-! ## In terms of the ports -/

section Ports

variable {arb : PCIeSwitchArbitrator queues}

/-- The packets of a port's channel are in its own buffer. -/
theorem countP_buffered (sound : arb.Sound) {port : Nat} (ingress : isIngressPort port = true)
    (vc : Nat) : arb.buffered.countP (holds port vc) =
      (arb.ingressBuffers port).countP fun packet => packet.vc = vc := by
  have split := map_sum (Multiset.countPAddMonoidHom (holds port vc))
    (fun x => (arb.ingressBuffers x : Multiset PCIePacket)) (Finset.range 4)
  change arb.buffered.countP (holds port vc) = ∑ x ∈ Finset.range 4, _ at split
  rw [split, Finset.sum_eq_single_of_mem port (mem_ingressPorts ingress)]
  · change Multiset.countP (holds port vc) (arb.ingressBuffers port) = _
    rw [Multiset.coe_countP]
    apply List.countP_congr
    intro packet member
    simp [holds, (sound.buffers port packet member).1]
  · intro other _ different
    change Multiset.countP (holds port vc) (arb.ingressBuffers other) = 0
    rw [Multiset.countP_eq_zero]
    intro packet member here
    exact different ((sound.buffers other packet member).1.symm.trans here.1)

/-- A request is from the port and the channel of its packet. -/
theorem countP_waiting (sound : arb.Sound) (port vc : Nat) :
    (arb.waiting.map ArbitrationRequest.packet).countP (holds port vc) =
      arb.waiting.countP fun request => request.ingressPort = port ∧ request.vc = vc := by
  rw [Multiset.countP_map, Multiset.countP_eq_card_filter]
  congr 1
  apply Multiset.filter_congr
  intro request member
  rcases Multiset.mem_sum.mp member with ⟨queue, -, queued⟩
  rcases sound.requests queue request queued with ⟨samePort, sameChannel, -, -⟩
  rw [holds, samePort, sameChannel]

end Ports

/-- After any calls from construction, the credits of a channel, its buffered
packets and its requests are 256 together, and the accepted packets are those
transmitted, those buffered and those requested. -/
theorem credits_and_packets_conserved
    (queues : PriorityQueue ArbitrationRequest arbitrationComparator)
    (sorting : Sorting ArbitrationRequest byIngressPort) (calls : List Call) :
    (∀ port < 4, ∀ vc < 8,
      ((run queues sorting calls).arb.ingressPorts port).vcCredits vc +
        ((run queues sorting calls).arb.ingressBuffers port).countP (fun packet => packet.vc = vc) +
        (run queues sorting calls).arb.waiting.countP (fun request =>
          request.ingressPort = port ∧ request.vc = vc) = 256) ∧
      ((run queues sorting calls).accepted : Multiset PCIePacket) =
        (run queues sorting calls).transmitted + (run queues sorting calls).arb.buffered +
          (run queues sorting calls).arb.waiting.map ArbitrationRequest.packet := by
  have conserved := conserved_run queues sorting calls
  constructor
  · intro port bound vc channel
    have ingress : isIngressPort port = true := decide_eq_true bound
    have credits := conserved.credits port ingress vc
    rw [inFlight, Multiset.countP_add, countP_buffered conserved.toSound ingress,
      countP_waiting conserved.toSound, if_pos channel] at credits
    rw [add_assoc]
    exact credits
  · rw [conserved.packets, inFlight, add_assoc]

/-- Two packets of one channel for the same egress port. -/
def twoPackets : List Call :=
  [.receivePacket ⟨0x1000, 0, 64, 0, 0, 0, 0, 0, 1⟩,
    .receivePacket ⟨0x1000, 0, 64, 0, 0, 0, 0, 0, 2⟩, .arbitrationCycle fun _ => 0]

theorem credits_and_packets_conserved_two_packets :
    ((run orderedQueues portSorting twoPackets).arb.ingressPorts 0).vcCredits 0 = 255 ∧
      ((run orderedQueues portSorting twoPackets).arb.ingressPorts 0).vcCredits 0 +
        ((run orderedQueues portSorting twoPackets).arb.ingressBuffers 0).countP
          (fun packet => packet.vc = 0) +
        (run orderedQueues portSorting twoPackets).arb.waiting.countP (fun request =>
          request.ingressPort = 0 ∧ request.vc = 0) = 256 :=
  ⟨by decide +kernel,
    (credits_and_packets_conserved orderedQueues portSorting twoPackets).1 0 (by decide) 0
      (by decide)⟩

end SystemcTlm.Pcie.PCIeSwitchArbitrator
