import SystemcTlm.PcieVc.Engine
import SystemcTlm.Transition.Run

/-!
# Credits and order of `VCArbitrationEngine`

Every queue is what was accepted onto its channel and not yet returned.  The
credit of a packet comes back to the channel written in the packet, which is the
channel it was queued on as long as no object that waits on one channel is
accepted onto another.
-/

namespace SystemcTlm.PcieVc

open SystemcTlm.Transition

variable {engine after : VCArbitrationEngine}

namespace VCArbitrationEngine

@[simp]
theorem configureVC_vcQueues (vc : Nat) (enable : Bool) (priority : UInt8) (weight : UInt16)
    (scheme : ArbitrationScheme) :
    (engine.configureVC vc enable priority weight scheme).2.vcQueues = engine.vcQueues := by
  unfold configureVC
  split_ifs <;> rfl

/-- The fields that `configureVC` leaves alone. -/
theorem configureVC_frame (vc : Nat) (enable : Bool) (priority : UInt8) (weight : UInt16)
    (scheme : ArbitrationScheme) :
    let after := (engine.configureVC vc enable priority weight scheme).2
    after.packetsServed = engine.packetsServed ∧ after.packets = engine.packets ∧
    after.lastServedVc = engine.lastServedVc ∧
    ∀ other, (after.vcResources other).currentCredits = (engine.vcResources other).currentCredits ∧
      (after.vcResources other).maxCredits = (engine.vcResources other).maxCredits := by
  unfold configureVC
  split_ifs
  · refine ⟨rfl, rfl, rfl, fun other => ?_⟩
    dsimp only
    by_cases same : other = vc
    · rw [same, Function.update_self]
      exact ⟨rfl, rfl⟩
    · rw [Function.update_of_ne same]
      exact ⟨rfl, rfl⟩
  · exact ⟨rfl, rfl, rfl, fun _ => ⟨rfl, rfl⟩⟩

/-- `enqueuePacket` refuses a packet and changes nothing, or queues it on its
target against a credit. -/
theorem enqueuePacket_cases (packet : PacketPtr) (engine : VCArbitrationEngine) :
    engine.enqueuePacket packet = (false, engine) ∨
      0 < (engine.vcResources (engine.targetVc packet)).currentCredits ∧
      engine.enqueuePacket packet = (true, { engine with
        packets := Function.update engine.packets packet
          { engine.packets packet with vc := engine.targetVc packet }
        vcQueues := Function.update engine.vcQueues (engine.targetVc packet)
          (engine.vcQueues (engine.targetVc packet) ++ [packet])
        vcResources := Function.update engine.vcResources (engine.targetVc packet)
          { engine.vcResources (engine.targetVc packet) with
            currentCredits :=
              (engine.vcResources (engine.targetVc packet)).currentCredits - 1 } }) := by
  by_cases spent : (engine.vcResources (engine.targetVc packet)).currentCredits = 0
  · exact Or.inl (if_pos spent)
  · exact Or.inr ⟨Nat.pos_of_ne_zero spent, if_neg spent⟩

theorem restoreCredits_eq_some {vc : Nat} {credits : UInt32}
    (restored : engine.restoreCredits vc credits = some after) :
    vc < 8 ∧ after = { engine with
      vcResources := Function.update engine.vcResources vc
        { engine.vcResources vc with
          currentCredits :=
            min (((engine.vcResources vc).currentCredits + credits.toNat) % 0x100000000)
              (engine.vcResources vc).maxCredits } } := by
  unfold restoreCredits at restored
  split_ifs at restored with key
  exact ⟨key, (Option.some.inj restored).symm⟩

end VCArbitrationEngine

/-! ## Runs -/

/-- The engine, and the packets accepted onto each channel. -/
structure Traffic where
  engine : VCArbitrationEngine
  accepted : Nat → List PacketPtr

namespace Traffic

/-- The engine after construction. -/
def start (packets : PacketPtr → PCIePacket) : Traffic :=
  ⟨.initializeVCs packets, fun _ => []⟩

/-- `configureVC` -/
def configureVC (vc : Nat) (enable : Bool) (priority : UInt8) (weight : UInt16)
    (scheme : ArbitrationScheme) (traffic : Traffic) : Traffic :=
  { traffic with engine := (traffic.engine.configureVC vc enable priority weight scheme).2 }

/-- `enqueuePacket`, which logs the packet on its channel if it is accepted. -/
def enqueuePacket (packet : PacketPtr) (traffic : Traffic) : Traffic :=
  match traffic.engine.enqueuePacket packet with
  | (true, engine) =>
      let vc := (engine.packets packet).vc
      ⟨engine, Function.update traffic.accepted vc (traffic.accepted vc ++ [packet])⟩
  | (false, engine) => { traffic with engine }

/-- `arbitrate`, and then `restoreCredits(packet->vc, 1)` for the packet that it
returns. -/
def serve (fuel : Nat) (traffic : Traffic) : Option Traffic :=
  (traffic.engine.arbitrate fuel).bind fun
    | (none, engine) => some { traffic with engine }
    | (some packet, engine) =>
        (engine.restoreCredits (engine.packets packet).vc 1).map fun engine =>
          { traffic with engine }

end Traffic

/-- The steps of `pcie_vc_main`, in any order. -/
inductive Step
  | configureVC (vc : Nat) (enable : Bool) (priority : UInt8) (weight : UInt16)
      (scheme : ArbitrationScheme)
  | enqueuePacket (packet : PacketPtr)
  | serve

/-- One of the steps. -/
def step (fuel : Nat) : Step → Traffic → Option Traffic
  | .configureVC vc enable priority weight scheme, traffic =>
      some (traffic.configureVC vc enable priority weight scheme)
  | .enqueuePacket packet, traffic => some (traffic.enqueuePacket packet)
  | .serve, traffic => traffic.serve fuel

/-- The public calls that change the engine. -/
inductive Call
  | configureVC (vc : Nat) (enable : Bool) (priority : UInt8) (weight : UInt16)
      (scheme : ArbitrationScheme)
  | enqueuePacket (packet : PacketPtr)
  | arbitrate
  | restoreCredits (vc : Nat) (credits : UInt32)

/-- One of the calls. -/
def call (fuel : Nat) : Call → Traffic → Option Traffic
  | .configureVC vc enable priority weight scheme, traffic =>
      some (traffic.configureVC vc enable priority weight scheme)
  | .enqueuePacket packet, traffic => some (traffic.enqueuePacket packet)
  | .arbitrate, traffic =>
      (traffic.engine.arbitrate fuel).map fun returned => { traffic with engine := returned.2 }
  | .restoreCredits vc credits, traffic =>
      (traffic.engine.restoreCredits vc credits).map fun engine => { traffic with engine }

/-! ## Order -/

/-- Each queue is what was accepted and is not yet served. -/
structure Ordered (traffic : Traffic) : Prop where
  inRange : traffic.engine.lastServedVc < 8
  ledger : ∀ vc, traffic.accepted vc =
    traffic.engine.packetsServed vc ++ traffic.engine.vcQueues vc

variable {traffic : Traffic}

theorem ordered_start (packets : PacketPtr → PCIePacket) : Ordered (.start packets) where
  inRange := (by decide : 0 < 8)
  ledger _ := rfl

theorem Ordered.configureVC (ordered : Ordered traffic) (vc : Nat) (enable : Bool)
    (priority : UInt8) (weight : UInt16) (scheme : ArbitrationScheme) :
    Ordered (traffic.configureVC vc enable priority weight scheme) := by
  obtain ⟨served, -, last, -⟩ :=
    traffic.engine.configureVC_frame vc enable priority weight scheme
  constructor
  · exact last.trans_lt ordered.inRange
  · intro channel
    rw [Traffic.configureVC, served, VCArbitrationEngine.configureVC_vcQueues]
    exact ordered.ledger channel

theorem Ordered.enqueuePacket (ordered : Ordered traffic) (packet : PacketPtr) :
    Ordered (traffic.enqueuePacket packet) := by
  rcases traffic.engine.enqueuePacket_cases packet with refused | ⟨-, accepted⟩
  · rw [Traffic.enqueuePacket, refused]
    exact ordered
  · rw [Traffic.enqueuePacket, accepted]
    refine ⟨ordered.inRange, fun vc => ?_⟩
    dsimp only
    rw [Function.update_self]
    by_cases target : vc = traffic.engine.targetVc packet
    · rw [target, Function.update_self, Function.update_self, ordered.ledger, List.append_assoc]
    · rw [Function.update_of_ne target, Function.update_of_ne target]
      exact ordered.ledger vc

theorem Ordered.arbitrated (ordered : Ordered traffic) {result : Option PacketPtr}
    (arbitrated : traffic.engine.Arbitrated result after) :
    Ordered { traffic with engine := after } := by
  cases result with
  | none =>
      rcases arbitrated with ⟨rfl, -⟩
      exact ordered
  | some packet =>
      rcases arbitrated with ⟨vc, dequeued⟩
      refine ⟨dequeued.lastServed, fun channel => ?_⟩
      dsimp only
      rw [dequeued.served, ordered.ledger]
      by_cases same : channel = vc
      · rw [same, Function.update_self, dequeued.front, List.append_assoc]
        rfl
      · rw [Function.update_of_ne same, dequeued.others channel same]

theorem Ordered.restoreCredits (ordered : Ordered traffic) {vc : Nat} {credits : UInt32}
    (restored : traffic.engine.restoreCredits vc credits = some after) :
    Ordered { traffic with engine := after } := by
  rcases VCArbitrationEngine.restoreCredits_eq_some restored with ⟨-, rfl⟩
  exact ⟨ordered.inRange, ordered.ledger⟩

/-! ## Credits -/

/-- The packet does not wait on a channel other than the one that it is
accepted onto. -/
def Exclusive : Step → Traffic → Prop
  | .enqueuePacket packet, traffic =>
      (traffic.engine.enqueuePacket packet).1 = true →
        ∀ vc, packet ∈ traffic.engine.vcQueues vc → vc = traffic.engine.targetVc packet
  | _, _ => True

/-- Every packet that waits is marked with its channel, and holds one of the
channel's 256 credits. -/
structure Credited (traffic : Traffic) : Prop extends Ordered traffic where
  marked : ∀ vc packet, packet ∈ traffic.engine.vcQueues vc →
    (traffic.engine.packets packet).vc = vc
  limit : ∀ vc, (traffic.engine.vcResources vc).maxCredits = 256
  credits : ∀ vc, (traffic.engine.vcResources vc).currentCredits +
    (traffic.engine.vcQueues vc).length = 256

theorem credited_start (packets : PacketPtr → PCIePacket) : Credited (.start packets) where
  toOrdered := ordered_start packets
  marked _ _ waiting := nomatch waiting
  limit vc := by
    dsimp only [Traffic.start, VCArbitrationEngine.initializeVCs]
    split_ifs <;> rfl
  credits vc := by
    dsimp only [Traffic.start, VCArbitrationEngine.initializeVCs]
    split_ifs <;> rfl

theorem Credited.configureVC (credited : Credited traffic) (vc : Nat) (enable : Bool)
    (priority : UInt8) (weight : UInt16) (scheme : ArbitrationScheme) :
    Credited (traffic.configureVC vc enable priority weight scheme) := by
  obtain ⟨-, packets, -, resources⟩ :=
    traffic.engine.configureVC_frame vc enable priority weight scheme
  refine ⟨credited.toOrdered.configureVC .., ?_, ?_, ?_⟩
  · intro channel packet waiting
    rw [Traffic.configureVC, VCArbitrationEngine.configureVC_vcQueues] at waiting
    rw [Traffic.configureVC, packets]
    exact credited.marked channel packet waiting
  · intro channel
    exact (resources channel).2.trans (credited.limit channel)
  · intro channel
    rw [Traffic.configureVC, VCArbitrationEngine.configureVC_vcQueues, (resources channel).1]
    exact credited.credits channel

theorem Credited.enqueuePacket (credited : Credited traffic) {packet : PacketPtr}
    (exclusive : Exclusive (.enqueuePacket packet) traffic) :
    Credited (traffic.enqueuePacket packet) := by
  have ordered := credited.toOrdered.enqueuePacket packet
  rcases traffic.engine.enqueuePacket_cases packet with refused | ⟨credit, accepted⟩
  · rw [Traffic.enqueuePacket, refused]
    exact credited
  · have alone := exclusive (by rw [accepted])
    rw [Traffic.enqueuePacket, accepted] at ordered ⊢
    refine ⟨ordered, ?_, ?_, ?_⟩ <;> dsimp only
    · intro vc other waiting
      by_cases same : other = packet
      · rw [same, Function.update_self]
        rw [same] at waiting
        by_cases target : vc = traffic.engine.targetVc packet
        · exact target.symm
        · rw [Function.update_of_ne target] at waiting
          exact (alone vc waiting).symm
      · rw [Function.update_of_ne same]
        by_cases target : vc = traffic.engine.targetVc packet
        · rw [target, Function.update_self, List.mem_append, List.mem_singleton] at waiting
          exact target ▸ credited.marked _ other (waiting.resolve_right same)
        · rw [Function.update_of_ne target] at waiting
          exact credited.marked vc other waiting
    · intro vc
      by_cases target : vc = traffic.engine.targetVc packet
      · rw [target, Function.update_self]
        exact credited.limit _
      · rw [Function.update_of_ne target]
        exact credited.limit vc
    · intro vc
      by_cases target : vc = traffic.engine.targetVc packet
      · have before := credited.credits (traffic.engine.targetVc packet)
        rw [target, Function.update_self, Function.update_self, List.length_append,
          List.length_singleton]
        dsimp only
        omega
      · rw [Function.update_of_ne target, Function.update_of_ne target]
        exact credited.credits vc

/-- The credit that comes back is the one that the packet has held. -/
theorem Credited.serve (credited : Credited traffic) {fuel : Nat} {final : Traffic}
    (served : traffic.serve fuel = some final) : Credited final := by
  rw [Traffic.serve, Option.bind_eq_some_iff] at served
  rcases served with ⟨⟨result, middle⟩, returned, restored⟩
  have arbitrated := VCArbitrationEngine.arbitrate_spec credited.inRange returned
  have ordered := credited.toOrdered.arbitrated arbitrated
  cases result with
  | none =>
      rcases arbitrated with ⟨rfl, -⟩
      cases restored
      exact credited
  | some packet =>
      rcases arbitrated with ⟨vc, dequeued⟩
      rcases Option.map_eq_some_iff.mp restored with ⟨after, given, rfl⟩
      have mark : (middle.packets packet).vc = vc := by
        rw [dequeued.packets]
        apply credited.marked
        rw [dequeued.front]
        exact List.mem_cons_self
      have final := ordered.restoreCredits given
      rw [mark] at given
      rcases VCArbitrationEngine.restoreCredits_eq_some given with ⟨-, rfl⟩
      have before := credited.credits
      refine ⟨final, ?_, ?_, ?_⟩ <;> dsimp only
      · intro channel other waiting
        rw [dequeued.packets]
        apply credited.marked
        by_cases same : channel = vc
        · rw [same] at waiting ⊢
          rw [dequeued.front]
          exact List.mem_cons_of_mem packet waiting
        · rwa [dequeued.others channel same] at waiting
      · intro channel
        rw [dequeued.resources]
        by_cases same : channel = vc
        · rw [same, Function.update_self]
          exact credited.limit vc
        · rw [Function.update_of_ne same]
          exact credited.limit channel
      · intro channel
        rw [dequeued.resources]
        by_cases same : channel = vc
        · have held := credited.credits vc
          rw [dequeued.front, List.length_cons] at held
          rw [same, Function.update_self, credited.limit]
          dsimp only [UInt32.reduceToNat]
          omega
        · rw [Function.update_of_ne same, dequeued.others channel same]
          exact credited.credits channel

/-! ## Every run -/

theorem Ordered.step (ordered : Ordered traffic) {fuel : Nat} {next : Step} {final : Traffic}
    (taken : step fuel next traffic = some final) : Ordered final := by
  cases next with
  | configureVC vc enable priority weight scheme =>
      cases taken
      exact ordered.configureVC vc enable priority weight scheme
  | enqueuePacket packet =>
      cases taken
      exact ordered.enqueuePacket packet
  | serve =>
      rcases Option.bind_eq_some_iff.mp taken with ⟨⟨result, middle⟩, returned, restored⟩
      have arbitrated := VCArbitrationEngine.arbitrate_spec ordered.inRange returned
      cases result with
      | none =>
          cases restored
          exact ordered.arbitrated arbitrated
      | some packet =>
          rcases Option.map_eq_some_iff.mp restored with ⟨after, given, rfl⟩
          exact (ordered.arbitrated arbitrated).restoreCredits given

theorem Credited.step (credited : Credited traffic) {fuel : Nat} {next : Step} {final : Traffic}
    (exclusive : Exclusive next traffic) (taken : step fuel next traffic = some final) :
    Credited final := by
  cases next with
  | configureVC vc enable priority weight scheme =>
      cases taken
      exact credited.configureVC vc enable priority weight scheme
  | enqueuePacket packet =>
      cases taken
      exact credited.enqueuePacket exclusive
  | serve => exact credited.serve taken

/-- Order and credits: in every run each queue is what was accepted onto its
channel and not yet returned, in the order of acceptance; and the credits of the
channel and the length of its queue make 256, if no object that waits on one
channel was accepted onto another. -/
theorem order_and_credits {fuel : Nat} {packets : PacketPtr → PCIePacket} {steps : List Step}
    {final : Traffic} (reached : runPartial (step fuel) steps (.start packets) = some final)
    (vc : Nat) :
    final.accepted vc = final.engine.packetsServed vc ++ final.engine.vcQueues vc ∧
    ((∀ next state, Made (step fuel) steps (.start packets) next state → Exclusive next state) →
      (final.engine.vcResources vc).currentCredits + (final.engine.vcQueues vc).length = 256) := by
  constructor
  · have ordered : Ordered final := by
      apply runPartial_invariant Ordered (ordered_start packets) (fun _ _ _ => trivial) _ reached
      exact fun next state after kept _ taken => kept.step taken
    exact ordered.ledger vc
  · intro exclusive
    have credited : Credited final := by
      apply runPartial_invariant Credited (credited_start packets) exclusive _ reached
      exact fun next state after kept meets taken => kept.step meets taken
    exact credited.credits vc

/-- Packets of two channels, the second of which is enabled first and gets another
priority, weight and scheme while packets wait on both. -/
def reconfigured : List Step :=
  [.configureVC 1 true 3 1 .strictPriority, .enqueuePacket 0, .enqueuePacket 1, .enqueuePacket 2,
    .serve, .configureVC 1 true 9 2 .roundRobin, .enqueuePacket 3, .serve]

/-- Every packet is enqueued once. -/
theorem exclusive_reconfigured (next : Step) (state : Traffic)
    (made : Made (step 0) reconfigured (.start fun packet => ⟨packet % 2, 0⟩) next state) :
    Exclusive next state := by
  obtain ⟨k, called, reached⟩ := made_iff_getElem?.mp made
  rcases k with _ | _ | _ | _ | _ | _ | _ | _ | k <;> cases called <;> try trivial
  -- the packets that wait on channels 0, 1 and the others
  all_goals
    cases reached
    rintro - (_ | _ | vc) waiting
    · revert waiting
      decide
    · revert waiting
      decide
    · exact absurd waiting List.not_mem_nil

theorem order_and_credits_served : ∃ final : Traffic,
    runPartial (step 0) reconfigured (.start fun packet => ⟨packet % 2, 0⟩) = some final ∧
    (final.engine.packetsServed 0 = [0] ∧ final.engine.packetsServed 1 = [1]) ∧
    ∀ vc, final.accepted vc = final.engine.packetsServed vc ++ final.engine.vcQueues vc ∧
      (final.engine.vcResources vc).currentCredits + (final.engine.vcQueues vc).length = 256 := by
  obtain ⟨final, reached⟩ := Option.isSome_iff_exists.mp
    (rfl : (runPartial (step 0) reconfigured (.start fun packet => ⟨packet % 2, 0⟩)).isSome = true)
  refine ⟨final, reached, ?_, fun vc => ⟨(order_and_credits reached vc).1,
    (order_and_credits reached vc).2 exclusive_reconfigured⟩⟩
  cases reached
  exact ⟨rfl, rfl⟩

/-- An object that waits on channel 1 when it is accepted onto channel 0.  The
credits of both packets go to channel 0, which has one of them already. -/
theorem not_order_and_credits_shared :
    ¬ ∀ (fuel : Nat) (packets : PacketPtr → PCIePacket) (steps : List Step) (final : Traffic),
      runPartial (step fuel) steps (.start packets) = some final → ∀ vc, vc < 8 →
        (final.engine.vcResources vc).currentCredits + (final.engine.vcQueues vc).length = 256 ∧
        final.accepted vc = final.engine.packetsServed vc ++ final.engine.vcQueues vc := by
  intro always
  have credits : ((runPartial (step 0)
      [.configureVC 1 true 0 1 .strictPriority, .enqueuePacket 0,
        .configureVC 1 false 0 1 .strictPriority, .enqueuePacket 0,
        .configureVC 1 true 0 1 .strictPriority, .serve, .serve]
      (.start fun _ => ⟨1, 0⟩)).all fun final =>
        (final.engine.vcResources 1).currentCredits + (final.engine.vcQueues 1).length == 256) =
      true := by
    rw [Option.all_eq_true]
    exact fun final reached => beq_iff_eq.mpr (always _ _ _ final reached 1 (by decide)).1
  revert credits
  decide +kernel

end SystemcTlm.PcieVc
