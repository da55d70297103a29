import SystemcTlm.PcieVc.Traffic
import Mathlib.Data.Finset.Max
import Mathlib.Order.Interval.Finset.Nat

/-!
# The scheme that `arbitrate` uses

The comment in `arbitrate` asks for the scheme of the ready channel of highest
priority.  The loop stops at the first ready channel in the order of the map,
which is the order of the channel numbers.
-/

namespace SystemcTlm.PcieVc

open SystemcTlm.Transition

namespace VCArbitrationEngine

variable {engine : VCArbitrationEngine}

/-- The function of a scheme. -/
def arbitrateBy (scheme : ArbitrationScheme) (fuel : Nat) (engine : VCArbitrationEngine) :
    Option (Option PacketPtr × VCArbitrationEngine) :=
  match scheme with
  | .strictPriority => some engine.arbitrateStrictPriority
  | .roundRobin => some engine.arbitrateRoundRobin
  | .weightedRoundRobin => engine.arbitrateWeightedRoundRobin fuel
  | .timeBased => some engine.arbitrateStrictPriority

theorem arbitrate_eq (fuel : Nat) (engine : VCArbitrationEngine) :
    engine.arbitrate fuel = engine.arbitrateBy engine.selectedScheme fuel :=
  rfl

/-- Some channel is ready, and the ready channels differ in priority. -/
structure Decisive (engine : VCArbitrationEngine) : Prop where
  some_ready : ∃ vc, vc < 8 ∧ engine.ready vc = true
  distinct : ∀ vc, vc < 8 → ∀ other, other < 8 → engine.ready vc = true →
    engine.ready other = true → vc ≠ other →
      (engine.vcResources vc).priority ≠ (engine.vcResources other).priority

/-- `vc` is a ready channel of the highest priority. -/
structure Highest (engine : VCArbitrationEngine) (vc : Nat) : Prop where
  bound : vc < 8
  ready : engine.ready vc = true
  greatest : ∀ other, other < 8 → engine.ready other = true →
    (engine.vcResources other).priority ≤ (engine.vcResources vc).priority

/-- `vc` is the ready channel of the lowest number. -/
structure Lowest (engine : VCArbitrationEngine) (vc : Nat) : Prop where
  bound : vc < 8
  ready : engine.ready vc = true
  least : ∀ other, other < vc → engine.ready other = false

theorem Decisive.exists_highest (decisive : engine.Decisive) : ∃ vc, engine.Highest vc := by
  rcases decisive.some_ready with ⟨vc, bound, ready⟩
  have nonempty : ((Finset.range 8).filter fun vc => engine.ready vc = true).Nonempty :=
    ⟨vc, Finset.mem_filter.mpr ⟨Finset.mem_range.mpr bound, ready⟩⟩
  rcases Finset.exists_max_image _ (fun vc => (engine.vcResources vc).priority.toNat) nonempty with
    ⟨top, member, greatest⟩
  rw [Finset.mem_filter, Finset.mem_range] at member
  refine ⟨top, member.1, member.2, fun other inside otherReady => UInt8.le_iff_toNat_le.mpr ?_⟩
  exact greatest other (Finset.mem_filter.mpr ⟨Finset.mem_range.mpr inside, otherReady⟩)

theorem Decisive.highest_unique (decisive : engine.Decisive) {vc other : Nat}
    (highest : engine.Highest vc) (highest' : engine.Highest other) : vc = other := by
  by_contra different
  apply decisive.distinct vc highest.bound other highest'.bound highest.ready highest'.ready different
  exact UInt8.le_antisymm (highest'.greatest vc highest.bound highest.ready)
    (highest.greatest other highest'.bound highest'.ready)

theorem Decisive.exists_lowest (decisive : engine.Decisive) : ∃ vc, engine.Lowest vc ∧
    engine.selectedScheme = (engine.vcResources vc).scheme := by
  rcases decisive.some_ready with ⟨vc, bound, ready⟩
  cases found : engine.firstReady with
  | none =>
      rw [firstReady, List.find?_eq_none] at found
      exact absurd ready (found vc (List.mem_range.mpr bound))
  | some first =>
      have scheme : engine.selectedScheme = (engine.vcResources first).scheme := by
        rw [selectedScheme, found]
      rw [firstReady, List.find?_range_eq_some] at found
      refine ⟨first, ⟨List.mem_range.mp found.2.1, found.1, fun other less => ?_⟩, scheme⟩
      simpa using found.2.2 other less

theorem Lowest.unique {vc other : Nat} (lowest : engine.Lowest vc) (lowest' : engine.Lowest other) :
    vc = other := by
  rcases lt_trichotomy vc other with less | same | greater
  · have quiet := lowest'.least vc less
    rw [lowest.ready] at quiet
    cases quiet
  · exact same
  · have quiet := lowest.least other greater
    rw [lowest'.ready] at quiet
    cases quiet

/-- `arbitrate` selects the scheme of the channel of highest priority, and does
what the function of that scheme does. -/
def UsesHighestScheme (engine : VCArbitrationEngine) : Prop :=
  ∃ top, engine.Highest top ∧ engine.selectedScheme = (engine.vcResources top).scheme ∧
    ∀ fuel, engine.arbitrate fuel = engine.arbitrateBy (engine.vcResources top).scheme fuel

/-- The ready channels of the lowest number and of the highest priority have
one scheme. -/
def SharesScheme (engine : VCArbitrationEngine) : Prop :=
  ∀ first top, engine.Lowest first → engine.Highest top →
    (engine.vcResources first).scheme = (engine.vcResources top).scheme

theorem usesHighestScheme_iff (decisive : engine.Decisive) :
    engine.UsesHighestScheme ↔ engine.SharesScheme := by
  rcases decisive.exists_lowest with ⟨first, lowest, selected⟩
  constructor
  · rintro ⟨top, highest, scheme, -⟩ first' top' lowest' highest'
    rw [lowest'.unique lowest, decisive.highest_unique highest' highest, ← selected, scheme]
  · intro shares
    rcases decisive.exists_highest with ⟨top, highest⟩
    have scheme := selected.trans (shares first top lowest highest)
    refine ⟨top, highest, scheme, fun fuel => ?_⟩
    rw [arbitrate_eq, scheme]

end VCArbitrationEngine

/-- `Holds` of every state of the run in which some channel is ready and the
ready channels differ in priority. -/
def InDecisiveStates (fuel : Nat) (packets : PacketPtr → PCIePacket) (calls : List Call)
    (Holds : VCArbitrationEngine → Prop) : Prop :=
  ∀ before rest traffic, calls = before ++ rest →
    runPartial (call fuel) before (.start packets) = some traffic →
    traffic.engine.Decisive → Holds traffic.engine

/-- In a run `arbitrate` would always use the scheme of the ready channel of
highest priority exactly if that scheme is always the one of the ready channel
of the lowest number. -/
theorem uses_highest_scheme_iff (fuel : Nat) (packets : PacketPtr → PCIePacket)
    (calls : List Call) :
    InDecisiveStates fuel packets calls VCArbitrationEngine.UsesHighestScheme ↔
      InDecisiveStates fuel packets calls VCArbitrationEngine.SharesScheme := by
  constructor
  · intro uses before rest traffic split reached decisive
    exact (VCArbitrationEngine.usesHighestScheme_iff decisive).mp
      (uses before rest traffic split reached decisive)
  · intro shares before rest traffic split reached decisive
    exact (VCArbitrationEngine.usesHighestScheme_iff decisive).mpr
      (shares before rest traffic split reached decisive)

/-- Channel 0 with low priority and the strict scheme, channel 1 with high
priority and the weighted scheme, and a packet on each. -/
def mixedSchemes : List Call :=
  [.configureVC 0 true 1 4 .strictPriority, .configureVC 1 true 5 2 .weightedRoundRobin,
    .enqueuePacket 0, .enqueuePacket 1]

/-- The strict scheme is used, and it serves channel 1 where the weighted one
would serve channel 0. -/
theorem not_uses_highest_scheme_mixed :
    ¬ InDecisiveStates 0 (fun packet => ⟨packet, 0⟩) mixedSchemes
      VCArbitrationEngine.UsesHighestScheme := by
  intro uses
  obtain ⟨traffic, reached⟩ := Option.isSome_iff_exists.mp
    (by decide : (runPartial (call 0) mixedSchemes (.start fun packet => ⟨packet, 0⟩)).isSome = true)
  have facts : ∀ traffic ∈ runPartial (call 0) mixedSchemes (.start fun packet => ⟨packet, 0⟩),
      (∀ vc, vc < 8 → traffic.engine.ready vc = true → vc = 0 ∨ vc = 1) ∧
      traffic.engine.ready 1 = true ∧
      (traffic.engine.vcResources 0).priority = 1 ∧ (traffic.engine.vcResources 1).priority = 5 ∧
      traffic.engine.selectedScheme ≠ (traffic.engine.vcResources 1).scheme := by
    decide +kernel
  rcases facts traffic reached with ⟨only, ready, low, high, differs⟩
  have decisive : traffic.engine.Decisive := by
    refine ⟨⟨1, by decide, ready⟩, fun vc bound other bound' here there different => ?_⟩
    rcases only vc bound here with rfl | rfl
    · rcases only other bound' there with rfl | rfl
      · exact absurd rfl different
      · rw [low, high]
        decide
    · rcases only other bound' there with rfl | rfl
      · rw [low, high]
        decide
      · exact absurd rfl different
  rcases uses mixedSchemes [] traffic rfl reached decisive with ⟨top, highest, scheme, -⟩
  rcases only top highest.bound highest.ready with rfl | rfl
  · have atMost := highest.greatest 1 (by decide) ready
    rw [low, high] at atMost
    exact absurd atMost (by decide)
  · exact differs scheme

end SystemcTlm.PcieVc
