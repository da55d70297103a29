import SystemcTlm.PcieVc.Progress

/-!
# Credits near the 32-bit limit

`restoreCredits` adds in `uint32_t` and then takes the minimum with
`max_credits`.  The credits of a channel are never above 256, so the sum wraps
around for large amounts only, and then to less than the credits there were.
-/

namespace SystemcTlm.PcieVc

open SystemcTlm.Transition

/-- The credits stay below their maximum, which no call changes. -/
def Limited (traffic : Traffic) : Prop :=
  ∀ vc, (traffic.engine.vcResources vc).maxCredits = 256 ∧
    (traffic.engine.vcResources vc).currentCredits ≤ 256

variable {traffic : Traffic}

theorem limited_start (packets : PacketPtr → PCIePacket) : Limited (.start packets) := by
  intro vc
  dsimp only [Traffic.start, VCArbitrationEngine.initializeVCs]
  split_ifs
  · exact ⟨rfl, Nat.le_refl 256⟩
  · exact ⟨rfl, Nat.le_refl 256⟩

/-- Of the resources only the credits of one channel change. -/
theorem Limited.of_update (limited : Limited traffic) {after : Traffic} {vc credits : Nat}
    (resources : after.engine.vcResources = Function.update traffic.engine.vcResources vc
      { traffic.engine.vcResources vc with currentCredits := credits })
    (bound : credits ≤ 256) : Limited after := by
  intro other
  rw [resources, Function.update_apply]
  split_ifs
  · exact ⟨(limited vc).1, bound⟩
  · exact limited other

theorem Limited.enqueuePacket (limited : Limited traffic) (packet : PacketPtr) :
    Limited (traffic.enqueuePacket packet) := by
  rcases VCArbitrationEngine.enqueuePacket_cases packet traffic.engine with
    refused | ⟨positive, accepted⟩
  · rw [Traffic.enqueuePacket, refused]
    exact limited
  · apply limited.of_update
    · rw [Traffic.enqueuePacket, accepted]
    · exact Nat.le_trans (Nat.sub_le _ 1) (limited _).2

theorem Limited.call (limited : Limited traffic) (inRange : traffic.engine.lastServedVc < 8)
    {fuel : Nat} {next : Call} {final : Traffic} (called : call fuel next traffic = some final) :
    Limited final := by
  cases next with
  | configureVC vc enable priority weight scheme =>
      cases called
      obtain ⟨-, -, -, kept⟩ := traffic.engine.configureVC_frame vc enable priority weight scheme
      intro other
      dsimp only [Traffic.configureVC]
      rw [(kept other).1, (kept other).2]
      exact limited other
  | enqueuePacket packet =>
      cases called
      exact limited.enqueuePacket packet
  | arbitrate =>
      rcases Option.map_eq_some_iff.mp called with ⟨⟨result, after⟩, returned, rfl⟩
      have arbitrated := VCArbitrationEngine.arbitrate_spec inRange returned
      intro vc
      cases result with
      | none =>
          dsimp only
          rw [arbitrated.1]
          exact limited vc
      | some packet =>
          rcases arbitrated with ⟨_, dequeued⟩
          dsimp only
          rw [dequeued.resources]
          exact limited vc
  | restoreCredits vc credits =>
      rcases Option.map_eq_some_iff.mp called with ⟨after, restored, rfl⟩
      rcases VCArbitrationEngine.restoreCredits_eq_some restored with ⟨-, rfl⟩
      apply limited.of_update rfl
      rw [(limited vc).1]
      exact Nat.min_le_right _ 256

theorem limited_of_reached {fuel : Nat} {packets : PacketPtr → PCIePacket} {calls : List Call}
    (reached : runPartial (call fuel) calls (.start packets) = some traffic) :
    Limited traffic := by
  have both : Ordered traffic ∧ Limited traffic := by
    apply runPartial_invariant (fun traffic => Ordered traffic ∧ Limited traffic)
      ⟨ordered_start packets, limited_start packets⟩ (fun _ _ _ => trivial) _ reached
    rintro next state after ⟨ordered, limited⟩ _ called
    exact ⟨ordered.call called, limited.call ordered.inRange called⟩
  exact both.2

/-- `restoreCredits` sets the credits to the sum, or to 256 if it is more: they
do not fall, and do not exceed their maximum. -/
def RestoresExactly (vc : Nat) (amount : UInt32) (engine : VCArbitrationEngine) : Prop :=
  ∃ after, engine.restoreCredits vc amount = some after ∧
    (after.vcResources vc).currentCredits =
      min ((engine.vcResources vc).currentCredits + amount.toNat) 256 ∧
    (engine.vcResources vc).currentCredits ≤ (after.vcResources vc).currentCredits ∧
    (after.vcResources vc).currentCredits ≤ (after.vcResources vc).maxCredits

theorem restoreCredits_of_key {engine : VCArbitrationEngine} {vc : Nat} (key : vc < 8)
    (amount : UInt32) : ∃ after, engine.restoreCredits vc amount = some after ∧
      (after.vcResources vc).currentCredits =
        min (((engine.vcResources vc).currentCredits + amount.toNat) % 0x100000000)
          (engine.vcResources vc).maxCredits ∧
      (after.vcResources vc).maxCredits = (engine.vcResources vc).maxCredits := by
  refine ⟨_, if_pos key, ?_, ?_⟩
  · dsimp only
    rw [Function.update_self]
  · dsimp only
    rw [Function.update_self]

theorem restoresExactly_iff (limited : Limited traffic) {vc : Nat} (key : vc < 8)
    (amount : UInt32) : RestoresExactly vc amount traffic.engine ↔
      (traffic.engine.vcResources vc).currentCredits + amount.toNat < 0x100000000 := by
  rcases limited vc with ⟨max, bound⟩
  rcases restoreCredits_of_key key amount with ⟨after, restored, credits, sameMax⟩
  have word := amount.toNat_lt
  rw [max] at credits sameMax
  constructor
  · rintro ⟨after', restored', exact_sum, -⟩
    rw [restored] at restored'
    cases restored'
    rw [credits] at exact_sum
    -- A sum that wraps around is less than 256.
    omega
  · intro fits
    have noWrap := Nat.mod_eq_of_lt fits
    refine ⟨after, restored, ?_, ?_, ?_⟩
    · omega
    · omega
    · omega

/-- In a run every call of `restoreCredits` is exact, exactly if no sum reaches
2^32. -/
theorem restores_exactly_iff (fuel : Nat) (packets : PacketPtr → PCIePacket) (calls : List Call) :
    (∀ vc amount traffic, vc < 8 →
      Made (call fuel) calls (.start packets) (.restoreCredits vc amount) traffic →
        RestoresExactly vc amount traffic.engine) ↔
      ∀ vc amount traffic, vc < 8 →
        Made (call fuel) calls (.start packets) (.restoreCredits vc amount) traffic →
          (traffic.engine.vcResources vc).currentCredits + amount.toNat < 0x100000000 := by
  have each : ∀ vc amount traffic, vc < 8 →
      Made (call fuel) calls (.start packets) (.restoreCredits vc amount) traffic →
        (RestoresExactly vc amount traffic.engine ↔
          (traffic.engine.vcResources vc).currentCredits + amount.toNat < 0x100000000) := by
    rintro vc amount traffic key ⟨before, rest, -, reached⟩
    exact restoresExactly_iff (limited_of_reached reached) key amount
  constructor
  · intro exactly vc amount traffic key made
    exact (each vc amount traffic key made).mp (exactly vc amount traffic key made)
  · intro fits vc amount traffic key made
    exact (each vc amount traffic key made).mpr (fits vc amount traffic key made)

/-- The 256 credits of channel 0 and 2^32 - 1 more are 255. -/
theorem not_restores_exactly_wraps :
    ¬ ∀ vc amount traffic, vc < 8 →
      Made (call 0) [.restoreCredits 0 0xFFFFFFFF] (.start fun _ => ⟨0, 0⟩)
        (.restoreCredits vc amount) traffic → RestoresExactly vc amount traffic.engine := by
  intro exactly
  have falls := exactly 0 0xFFFFFFFF _ (by decide) ⟨[], [], rfl, rfl⟩
  rw [restoresExactly_iff (limited_start _) (by decide)] at falls
  revert falls
  decide

end SystemcTlm.PcieVc
