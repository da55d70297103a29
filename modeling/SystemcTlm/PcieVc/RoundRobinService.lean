import SystemcTlm.PcieVc.Progress
import Mathlib.Data.List.Infix

/-!
# Service by the round robin scheme

`arbitrateRoundRobin` serves the first ready channel behind the one served last.
A channel that stays ready is therefore nearer after each arbitration that serves
another one, and no packet on it waits for more than eight arbitrations for each
packet before it and for itself.
-/

namespace SystemcTlm.PcieVc

open SystemcTlm.Loop SystemcTlm.Transition

namespace VCArbitrationEngine

/-- How many channels the round robin scheme looks at before `vc`. -/
def turnsTo (vc : Nat) (engine : VCArbitrationEngine) : Nat :=
  ringDist 8 ((engine.lastServedVc + 1) % 8) vc

variable {engine : VCArbitrationEngine} {vc : Nat}

theorem turnsTo_lt (bound : vc < 8) : engine.turnsTo vc < 8 :=
  ringDist_lt (Nat.mod_lt _ (by decide)) bound

/-- What has been served stays served. -/
theorem Arbitrated.served_prefix {result : Option PacketPtr} {after : VCArbitrationEngine}
    (arbitrated : engine.Arbitrated result after) (vc : Nat) :
    engine.packetsServed vc <+: after.packetsServed vc := by
  cases result with
  | none =>
      rcases arbitrated with ⟨rfl, -⟩
      exact List.prefix_refl _
  | some packet =>
      rcases arbitrated with ⟨first, dequeued⟩
      rw [dequeued.served]
      by_cases same : vc = first
      · rw [same, Function.update_self]
        exact List.prefix_append _ _
      · rw [Function.update_of_ne same]

/-- A ready channel is served, or another one is and it is nearer. -/
theorem arbitrateRoundRobin_turns (bound : vc < 8) (ready : engine.ready vc = true) :
    (engine.arbitrateRoundRobin.2.packetsServed vc).length =
        (engine.packetsServed vc).length + 1 ∨
      engine.arbitrateRoundRobin.2.packetsServed vc = engine.packetsServed vc ∧
        engine.arbitrateRoundRobin.2.turnsTo vc < engine.turnsTo vc := by
  have startBound : (engine.lastServedVc + 1) % 8 < 8 := Nat.mod_lt _ (by decide)
  obtain ⟨first, found⟩ := Option.isSome_iff_exists.mp
    (scan_isSome_of_hit engine.ready startBound bound ready)
  rcases (scan_eq_some_iff startBound).mp found with ⟨-, firstReady, -⟩
  have waiting := ((ready_iff first).mp firstReady).2
  rw [arbitrateRoundRobin, found]
  dsimp only [dequeueFromVC]
  cases queued : engine.vcQueues first with
  | nil => exact absurd queued waiting
  | cons packet rest =>
      by_cases same : first = vc
      · left
        subst same
        simp
      · right
        constructor
        · exact Function.update_of_ne (Ne.symm same) _ _
        · exact ringDist_succ_lt_of_scan startBound found bound ready same

end VCArbitrationEngine

/-- Whether the call is an arbitration. -/
def Call.isArbitrate : Call → Bool
  | .arbitrate => true
  | _ => false

section Runs

variable {traffic final : Traffic} {fuel vc : Nat}

/-- The other calls serve nothing, move no pointer and take back no packet. -/
theorem call_frame {next : Call} (other : next.isArbitrate = false)
    (called : call fuel next traffic = some final) :
    final.engine.packetsServed = traffic.engine.packetsServed ∧
      final.engine.lastServedVc = traffic.engine.lastServedVc ∧
      ∀ vc, traffic.accepted vc <+: final.accepted vc := by
  cases next with
  | configureVC vc enable priority weight scheme =>
      cases called
      obtain ⟨served, -, last, -⟩ :=
        traffic.engine.configureVC_frame vc enable priority weight scheme
      exact ⟨served, last, fun _ => List.prefix_refl _⟩
  | enqueuePacket packet =>
      cases called
      rcases traffic.engine.enqueuePacket_cases packet with refused | ⟨-, accepted⟩
      · rw [Traffic.enqueuePacket, refused]
        exact ⟨rfl, rfl, fun _ => List.prefix_refl _⟩
      · rw [Traffic.enqueuePacket, accepted]
        refine ⟨rfl, rfl, fun vc => ?_⟩
        dsimp only
        rw [Function.update_self]
        by_cases target : vc = traffic.engine.targetVc packet
        · rw [target, Function.update_self]
          exact List.prefix_append _ _
        · rw [Function.update_of_ne target]
  | arbitrate => cases other
  | restoreCredits vc credits =>
      rcases Option.map_eq_some_iff.mp called with ⟨after, restored, rfl⟩
      rcases VCArbitrationEngine.restoreCredits_eq_some restored with ⟨-, rfl⟩
      exact ⟨rfl, rfl, fun _ => List.prefix_refl _⟩

theorem call_accepted {next : Call} (called : call fuel next traffic = some final) (vc : Nat) :
    traffic.accepted vc <+: final.accepted vc := by
  cases kind : next.isArbitrate with
  | false => exact (call_frame kind called).2.2 vc
  | true =>
      cases next with
      | arbitrate =>
          rcases Option.map_eq_some_iff.mp called with ⟨returned, -, rfl⟩
          exact List.prefix_refl _
      | _ => cases kind

/-- While `goal` packets of the channel have not been served, at most `left` more
arbitrations are needed. -/
structure Approaches (vc goal left : Nat) (traffic : Traffic) : Prop where
  waits : goal ≤ (traffic.accepted vc).length
  near : 8 * (goal - (traffic.engine.packetsServed vc).length) + traffic.engine.turnsTo vc ≤
    left + 7

theorem Approaches.call {goal left : Nat} (approaches : Approaches vc goal left traffic)
    {next : Call} (other : next.isArbitrate = false)
    (called : call fuel next traffic = some final) : Approaches vc goal left final := by
  rcases call_frame other called with ⟨served, last, grows⟩
  constructor
  · exact Nat.le_trans approaches.waits (grows vc).length_le
  · rw [served, VCArbitrationEngine.turnsTo, last]
    exact approaches.near

/-- An arbitration by the round robin scheme brings the goal nearer. -/
theorem Approaches.arbitrate {goal left : Nat} (approaches : Approaches vc goal left traffic)
    (ordered : Ordered traffic) (bound : vc < 8)
    (enabled : (traffic.engine.vcResources vc).enabled = true)
    (roundRobin : traffic.engine.selectedScheme = .roundRobin)
    (called : PcieVc.call fuel .arbitrate traffic = some final) :
    Approaches vc goal (left - 1) final := by
  have returned : traffic.engine.arbitrate fuel = some traffic.engine.arbitrateRoundRobin := by
    rw [VCArbitrationEngine.arbitrate, roundRobin]
  rw [PcieVc.call, returned] at called
  cases called
  refine ⟨approaches.waits, ?_⟩
  have near := approaches.near
  have within := @VCArbitrationEngine.turnsTo_lt traffic.engine.arbitrateRoundRobin.2 vc bound
  dsimp only
  by_cases waits : (traffic.engine.packetsServed vc).length < goal
  · -- Not all that was accepted has been served, so some packet waits.
    have ready : traffic.engine.ready vc = true := by
      rw [VCArbitrationEngine.ready_iff]
      refine ⟨enabled, fun empty => ?_⟩
      have ledger := congrArg List.length (ordered.ledger vc)
      rw [empty, List.append_nil] at ledger
      have enough := approaches.waits
      omega
    rcases VCArbitrationEngine.arbitrateRoundRobin_turns bound ready with own | ⟨others, nearer⟩
    · omega
    · rw [others]
      omega
  · have grows := (traffic.engine.arbitrateRoundRobin_spec.served_prefix vc).length_le
    omega

end Runs

/-- No packet starves under the round robin scheme.  Whatever has been called before, and
whatever is configured, enqueued and restored in between: if every arbitration uses the
round robin scheme and finds channel `vc` enabled, then the first `k` packets that wait on
the channel are returned by `8 * k` arbitrations, in their order. -/
theorem round_robin_serves {fuel : Nat} {packets : PacketPtr → PCIePacket} {calls more : List Call}
    {start final : Traffic} (earlier : runPartial (call fuel) calls (.start packets) = some start)
    (later : runPartial (call fuel) more start = some final) {vc : Nat} (bound : vc < 8)
    (turns : ∀ traffic, Made (call fuel) more start .arbitrate traffic →
      (traffic.engine.vcResources vc).enabled = true ∧
        traffic.engine.selectedScheme = .roundRobin)
    {k : Nat} (waiting : k ≤ (start.engine.vcQueues vc).length)
    (enough : 8 * k ≤ more.countP Call.isArbitrate) :
    start.engine.packetsServed vc ++ (start.engine.vcQueues vc).take k <+:
      final.engine.packetsServed vc := by
  have ordered := ordered_of_reached earlier
  have total : (start.accepted vc).length =
      (start.engine.packetsServed vc).length + (start.engine.vcQueues vc).length := by
    rw [ordered.ledger, List.length_append]
  have run : Ordered final ∧ start.accepted vc <+: final.accepted vc ∧
      Approaches vc ((start.engine.packetsServed vc).length + k)
        (8 * k - more.countP Call.isArbitrate) final := by
    refine runPartial_prefix (fun before traffic => Ordered traffic ∧
      start.accepted vc <+: traffic.accepted vc ∧
      Approaches vc ((start.engine.packetsServed vc).length + k)
        (8 * k - before.countP Call.isArbitrate) traffic) ?_ ?_ later
    · have near := @VCArbitrationEngine.turnsTo_lt start.engine vc bound
      refine ⟨ordered, List.prefix_refl _, by omega, ?_⟩
      rw [List.countP_nil]
      omega
    · rintro before next rest traffic after split made ⟨ordered, grows, approaches⟩ called
      refine ⟨ordered.call called, grows.trans (call_accepted called vc), ?_⟩
      rw [List.countP_append, List.countP_singleton]
      cases kind : next.isArbitrate with
      | false => exact approaches.call kind called
      | true =>
          cases next with
          | arbitrate =>
              rcases turns traffic ⟨before, rest, split, made⟩ with ⟨enabled, roundRobin⟩
              rw [if_pos rfl, ← Nat.sub_sub]
              exact approaches.arbitrate ordered bound enabled roundRobin called
          | _ => cases kind
  rcases run with ⟨ordered', grows, -, near⟩
  rw [ordered.ledger, ordered'.ledger] at grows
  have first : start.engine.packetsServed vc ++ (start.engine.vcQueues vc).take k <+:
      start.engine.packetsServed vc ++ start.engine.vcQueues vc :=
    (List.prefix_append_right_inj _).mpr (List.take_prefix _ _)
  apply List.prefix_of_prefix_length_le (first.trans grows) (List.prefix_append _ _)
  rw [List.length_append, List.length_take, Nat.min_eq_left waiting]
  omega

/-- Three channels with the round robin scheme, and packets on each of them. -/
def threeChannels : List Call :=
  [.configureVC 0 true 7 1 .roundRobin, .configureVC 1 true 5 1 .roundRobin,
    .configureVC 2 true 3 1 .roundRobin, .enqueuePacket 0, .enqueuePacket 8, .enqueuePacket 16,
    .enqueuePacket 1, .enqueuePacket 9, .enqueuePacket 17, .enqueuePacket 2, .enqueuePacket 10]

/-- The packets 0, 8 and so on are of one class, and so on. -/
def classes (packet : PacketPtr) : PCIePacket :=
  ⟨packet % 8, 0⟩

theorem round_robin_serves_three_channels :
    ∃ start final, runPartial (call 0) threeChannels (.start classes) = some start ∧
      runPartial (call 0) (List.replicate 8 .arbitrate) start = some final ∧
      start.engine.packetsServed 2 ++ (start.engine.vcQueues 2).take 1 <+:
        final.engine.packetsServed 2 := by
  have facts : ∀ n, n < 8 → ∀ traffic ∈
      runPartial (call 0) (threeChannels ++ List.replicate n .arbitrate) (.start classes),
      (traffic.engine.vcResources 2).enabled = true ∧
        traffic.engine.selectedScheme = .roundRobin := by
    decide +kernel
  have waiting : ∀ start ∈ runPartial (call 0) threeChannels (.start classes),
      1 ≤ (start.engine.vcQueues 2).length := by
    decide +kernel
  have defined : (runPartial (call 0) (threeChannels ++ List.replicate 8 .arbitrate)
      (.start classes)).isSome = true := by
    decide +kernel
  obtain ⟨final, reached⟩ := Option.isSome_iff_exists.mp defined
  rw [runPartial_append, Option.bind_eq_some_iff] at reached
  rcases reached with ⟨start, earlier, later⟩
  refine ⟨start, final, earlier, later, ?_⟩
  apply round_robin_serves earlier later (by decide) _ (waiting start earlier) (by decide)
  rintro traffic ⟨before, rest, split, reached⟩
  rcases List.append_eq_replicate_iff.mp split.symm with ⟨total, same, -⟩
  apply facts before.length (by rw [List.length_cons] at total; omega) traffic
  rw [runPartial_append, earlier, ← same]
  exact reached

end SystemcTlm.PcieVc
