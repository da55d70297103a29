import SystemcTlm.Loop.Cyclic
import SystemcTlm.Pcie.Service

/-!
# Turns of the ingress ports

Where several requests share the highest priority, the round robin serves the
ingress port that follows the one in `last_served_ingress_port`.  That is the
port of the last such conflict.  A request that is alone with its priority is
served without a look at the pointer, and the pointer then lags behind the port
served last.
-/

namespace SystemcTlm.Pcie.PCIeSwitchArbitrator

open SystemcTlm.Container SystemcTlm.Loop SystemcTlm.Transition

variable {queues : PriorityQueue ArbitrationRequest arbitrationComparator}
  {sorting : Sorting ArbitrationRequest byIngressPort}

/-- The ingress ports whose requests share the highest priority. -/
def contenders (port : Nat) (arb : PCIeSwitchArbitrator queues) : Set Nat :=
  { ingressPort | ∃ request ∈ arb.highest port, request.ingressPort = ingressPort }

/-- The ingress port of the packet transmitted last through `port`, or 0. -/
def lastTransmitted (port : Nat) (transmitted : List PCIePacket) : Nat :=
  (((transmitted.filter fun packet => packet.egressPort = port).getLast?).map
    PCIePacket.ingressPort).getD 0

section Turn

variable {arb after : PCIeSwitchArbitrator queues} {port : Nat} {selected : ArbitrationRequest}

/-- The chosen port is the next of the contenders, and of its requests the one
chosen is in front. -/
theorem roundRobinArbitration_first {lastServed : Nat} {requests : List ArbitrationRequest}
    (bound : ∀ request ∈ requests, request.ingressPort < 4) (lastBound : lastServed < 4)
    (chosen : (roundRobinArbitration sorting lastServed requests).2 = some selected) :
    FirstAfter 4 lastServed
        { ingressPort | ∃ request ∈ requests, request.ingressPort = ingressPort }
        selected.ingressPort ∧
      (sorting.sort requests).find? (fun request =>
        decide (request.ingressPort = selected.ingressPort)) = some selected := by
  have perm := sorting.perm requests
  have sorted : (sorting.sort requests).Pairwise fun a b => a.ingressPort ≤ b.ingressPort :=
    (sorting.sorted requests).imp fun {a b} notLess => by simpa [byIngressPort] using notLess
  have next := firstAfter_of_sorted sorted
    (fun request member => bound request (perm.mem_iff.mp member)) lastBound chosen
  simp only [perm.mem_iff] at next
  exact ⟨next, find?_key_of_sorted sorted chosen⟩

theorem contenders_eq (port : Nat) (arb : PCIeSwitchArbitrator queues) :
    arb.contenders port =
      { ingressPort | ∃ request ∈ arb.samePriorityRequests port,
        request.ingressPort = ingressPort } := by
  rw [contenders, ← coe_samePriorityRequests]
  rfl

theorem ingressPort_lt_of_contender (sound : arb.Sound) :
    ∀ ingressPort ∈ arb.contenders port, ingressPort < 4 := by
  rintro _ ⟨request, member, rfl⟩
  rcases sound.requests port request (Multiset.mem_of_mem_filter member) with ⟨same, -, ingress, -⟩
  rw [same]
  exact of_decide_eq_true ingress

theorem Won.ingressPort_eq (won : Won sorting port selected arb after) (sound : arb.Sound) :
    selected.ingressPort = selected.packet.ingressPort ∧ selected.ingressPort < 4 := by
  rcases sound.requests port selected won.mem_contents with ⟨same, -, ingress, -⟩
  exact ⟨same, same ▸ of_decide_eq_true ingress⟩

/-- In a conflict the winner is the next of the contenders after the pointer. -/
theorem Won.firstAfter (won : Won sorting port selected arb after) (sound : arb.Sound)
    (pointer : arb.lastServedIngressPort port < 4) (conflict : 2 ≤ (arb.highest port).card) :
    FirstAfter 4 (arb.lastServedIngressPort port) (arb.contenders port)
      selected.ingressPort := by
  rw [← coe_samePriorityRequests, Multiset.coe_card] at conflict
  rw [contenders_eq]
  refine (roundRobinArbitration_first (fun request member => ?_) pointer
    (won.contested conflict).1).1
  apply ingressPort_lt_of_contender sound
  rw [contenders_eq]
  exact ⟨request, member, rfl⟩

end Turn

/-! ## The pointer and the port served last -/

section Pointers

variable {arb after : PCIeSwitchArbitrator queues} {port : Nat}

theorem lastTransmitted_concat (transmitted : List PCIePacket) {sent : List PCIePacket}
    (outcome : Outcome sorting port arb after
      (sent.filter fun packet => packet.egressPort = port)) :
    lastTransmitted port (transmitted ++ sent) = lastTransmitted port transmitted ∧
        after.lastServedIngressPort port = arb.lastServedIngressPort port ∨
      ∃ selected, Won sorting port selected arb after ∧
        lastTransmitted port (transmitted ++ sent) = selected.packet.ingressPort := by
  unfold lastTransmitted
  rw [List.filter_append]
  rcases outcome with ⟨-, nothing, -, kept⟩ | ⟨selected, one, won⟩
  · rw [nothing, List.append_nil]
    exact Or.inl ⟨rfl, kept⟩
  · rw [one, List.getLast?_append]
    exact Or.inr ⟨selected, won, rfl⟩

theorem processIngressBuffers_lastServedIngressPort (arb : PCIeSwitchArbitrator queues)
    (now : Nat → Int) :
    (arb.processIngressBuffers now).lastServedIngressPort = arb.lastServedIngressPort := by
  apply forRange_induction fun _ (current : PCIeSwitchArbitrator queues) =>
    current.lastServedIngressPort = arb.lastServedIngressPort
  · rfl
  · intro port current _ same
    rw [← same]
    unfold processIngressBuffer
    split <;> rfl

/-- The pointer and the port served last are ingress ports. -/
structure InRange (state : Logged queues) : Prop where
  labelled : state.arb.Labelled
  pointer : ∀ port, isEgressPort port = true → state.arb.lastServedIngressPort port < 4
  last : ∀ port, isEgressPort port = true → lastTransmitted port state.transmitted < 4

theorem InRange.arbitrationCycle {state : Logged queues} (inRange : InRange state)
    (sound : state.arb.Sound) (sorting : Sorting ArbitrationRequest byIngressPort)
    (now : Nat → Int) : InRange (call sorting (.arbitrationCycle now) state) := by
  have filled := (processIngressBuffers_spec sound now).1
  have bounds : ∀ port, isEgressPort port = true →
      (state.arb.arbitrationCycle sorting now).2.lastServedIngressPort port < 4 ∧
      lastTransmitted port
        (state.transmitted ++ (state.arb.arbitrationCycle sorting now).1) < 4 := by
    intro port egress
    have pointer := inRange.pointer port egress
    rw [← processIngressBuffers_lastServedIngressPort state.arb now] at pointer
    rcases lastTransmitted_concat state.transmitted
      (arbitrationCycle_outcome sound inRange.labelled sorting now egress) with
      ⟨same, kept⟩ | ⟨selected, won, isLast⟩
    · rw [same, kept]
      exact ⟨pointer, inRange.last port egress⟩
    · rcases won.ingressPort_eq filled with ⟨samePort, bound⟩
      rw [isLast, ← samePort]
      refine ⟨?_, bound⟩
      by_cases several :
          ((state.arb.processIngressBuffers now).samePriorityRequests port).length > 1
      · rw [(won.contested several).2]
        exact bound
      · rw [(won.alone several).2]
        exact pointer
  exact {
    labelled := inRange.labelled.arbitrationCycle sound sorting now
    pointer := fun port egress => (bounds port egress).1
    last := fun port egress => (bounds port egress).2 }

theorem inRange_run (queues : PriorityQueue ArbitrationRequest arbitrationComparator)
    (sorting : Sorting ArbitrationRequest byIngressPort) (calls : List Call) :
    InRange (run queues sorting calls) := by
  apply run_invariant
  · exact ⟨labelled_run queues sorting [], fun _ _ => Nat.succ_pos 3, fun _ _ => Nat.succ_pos 3⟩
  · rintro state state' sameQueues samePointer sameLog ⟨labelled, pointer, last⟩
    constructor
    · exact EachRequest.of_le labelled fun port => by rw [sameQueues]
    · rw [samePointer]
      exact pointer
    · rw [sameLog]
      exact last
  · exact fun state now sound inRange => inRange.arbitrationCycle sound sorting now

end Pointers

/-! ## Turns over a run -/

/-- A cycle at `port` in which several requests share the highest priority. -/
def Contested (now : Nat → Int) (port : Nat) (state : Logged queues) : Prop :=
  isEgressPort port = true ∧ 2 ≤ ((state.arb.processIngressBuffers now).highest port).card

/-- The cycle serves, of the contenders, the next port after the one served
last. -/
def FollowsLast (sorting : Sorting ArbitrationRequest byIngressPort) (now : Nat → Int) (port : Nat)
    (state : Logged queues) : Prop :=
  ∃ packet : PCIePacket, (state.arb.arbitrationCycle sorting now).1.filter
      (fun packet => packet.egressPort = port) = [packet] ∧
    FirstAfter 4 (lastTransmitted port state.transmitted)
      ((state.arb.processIngressBuffers now).contenders port) packet.ingressPort

/-- The contenders lie on one side: none of them, or all of them, between the
pointer and the port served last. -/
def OneSide (now : Nat → Int) (port : Nat) (state : Logged queues) : Prop :=
  (∀ ingressPort ∈ (state.arb.processIngressBuffers now).contenders port,
      (state.arb.lastServedIngressPort port < ingressPort ↔
        lastTransmitted port state.transmitted < ingressPort)) ∨
    ∀ ingressPort ∈ (state.arb.processIngressBuffers now).contenders port,
      ¬ (state.arb.lastServedIngressPort port < ingressPort ↔
        lastTransmitted port state.transmitted < ingressPort)

theorem followsLast_iff {state : Logged queues} (sound : state.arb.Sound) (inRange : InRange state)
    {now : Nat → Int} {port : Nat} (contested : Contested now port state) :
    FollowsLast sorting now port state ↔ OneSide now port state := by
  rcases contested with ⟨egress, conflict⟩
  have filled := (processIngressBuffers_spec sound now).1
  have pointer := inRange.pointer port egress
  have samePointer := processIngressBuffers_lastServedIngressPort state.arb now
  rcases arbitrationCycle_outcome sound inRange.labelled sorting now egress with
    ⟨empty, -⟩ | ⟨selected, sent, won⟩
  · rw [highest, empty] at conflict
    exact absurd conflict (by decide)
  · have next := won.firstAfter filled (samePointer ▸ pointer) conflict
    rw [samePointer] at next
    have agree := next.iff_of_last pointer (inRange.last port egress)
      (ingressPort_lt_of_contender filled)
    rw [OneSide, ← agree, FollowsLast, (won.ingressPort_eq filled).1]
    constructor
    · rintro ⟨packet, through, follows⟩
      rw [sent] at through
      rw [List.singleton_inj.mp through]
      exact follows
    · exact fun follows => ⟨selected.packet, sent, follows⟩

/-- `Holds` of every contested arbitration of the run. -/
def Throughout (queues : PriorityQueue ArbitrationRequest arbitrationComparator)
    (sorting : Sorting ArbitrationRequest byIngressPort) (calls : List Call)
    (Holds : (Nat → Int) → Nat → Logged queues → Prop) : Prop :=
  ∀ before now rest, calls = before ++ .arbitrationCycle now :: rest →
    ∀ port, Contested now port (run queues sorting before) →
      Holds now port (run queues sorting before)

/-- In a run the conflicts go to the port after the one served last exactly if
in each of them the contenders lie on one side of the pointer and of that
port. -/
theorem follows_last_iff (queues : PriorityQueue ArbitrationRequest arbitrationComparator)
    (sorting : Sorting ArbitrationRequest byIngressPort) (calls : List Call) :
    Throughout queues sorting calls (FollowsLast sorting) ↔
      Throughout queues sorting calls OneSide := by
  have each : ∀ before now port, Contested now port (run queues sorting before) →
      (FollowsLast sorting now port (run queues sorting before) ↔
        OneSide now port (run queues sorting before)) := fun before now port contested =>
    followsLast_iff (conserved_run queues sorting before).toSound
      (inRange_run queues sorting before) contested
  constructor
  · intro follows before now rest split port contested
    exact (each before now port contested).mp (follows before now rest split port contested)
  · intro sides before now rest split port contested
    exact (each before now port contested).mpr (sides before now rest split port contested)

/-- Port 1 is served without a conflict, and then contends with port 2. -/
def servedAlone : List Call :=
  [.receivePacket ⟨0x1000, 0, 64, 0, 0, 1, 0, 0, 1⟩, .arbitrationCycle fun _ => 0,
    .receivePacket ⟨0x1000, 0, 64, 0, 0, 1, 0, 0, 2⟩,
    .receivePacket ⟨0x1000, 0, 64, 0, 0, 2, 0, 0, 3⟩, .arbitrationCycle fun _ => 1]

/-- The pointer is still at 0, so port 1 is served again. -/
theorem not_follows_last_served_alone :
    ¬ Throughout orderedQueues portSorting servedAlone (FollowsLast portSorting) := by
  intro follows
  have contested : Contested (fun _ => 1) 2
      (run orderedQueues portSorting (servedAlone.take 4)) := by
    unfold Contested
    decide +kernel
  have served : ((run orderedQueues portSorting (servedAlone.take 4)).arb.arbitrationCycle
      portSorting fun _ => 1).1.map PCIePacket.ingressPort = [1] := by
    decide +kernel
  have last : lastTransmitted 2
      (run orderedQueues portSorting (servedAlone.take 4)).transmitted = 1 := by
    decide +kernel
  have waits : 2 ∈ ((run orderedQueues portSorting
      (servedAlone.take 4)).arb.processIngressBuffers fun _ => 1).contenders 2 := by
    have queued : 2 ∈ (((run orderedQueues portSorting (servedAlone.take 4)).arb.processIngressBuffers
        fun _ => 1).highest 2).map ArbitrationRequest.ingressPort := by
      decide +kernel
    exact Multiset.mem_map.mp queued
  rcases follows (servedAlone.take 4) (fun _ => 1) [] rfl 2 contested with ⟨packet, through, next⟩
  have member : packet.ingressPort ∈ [1] := by
    rw [← served]
    apply List.mem_map_of_mem
    apply List.mem_of_mem_filter (p := fun packet => decide (packet.egressPort = 2))
    rw [through]
    exact List.mem_singleton_self packet
  have least := next.first 2 waits
  rw [last, List.mem_singleton.mp member] at least
  exact absurd least (by decide)

end SystemcTlm.Pcie.PCIeSwitchArbitrator
