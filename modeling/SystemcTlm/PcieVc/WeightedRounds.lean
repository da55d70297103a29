import SystemcTlm.Fairness.Credits
import SystemcTlm.PcieVc.Progress

/-!
# Rounds of the weighted scheme

A channel counts up to its weight, and when all ready channels have reached
their weights the counters begin again together.  What is left of the weight is
a credit that pays for service and is renewed with those of the others, so the
service in a run is proportional to the weights.
-/

namespace SystemcTlm.PcieVc

open SystemcTlm.Fairness SystemcTlm.Transition

/-- A call of the weighted scheme, or a call between two of them. -/
inductive WeightedCall
  | configureVC (vc : Nat) (enable : Bool) (priority : UInt8) (weight : UInt16)
      (scheme : ArbitrationScheme)
  | enqueuePacket (packet : PacketPtr)
  | restoreCredits (vc : Nat) (credits : UInt32)
  | arbitrateWeightedRoundRobin

/-- One of the calls. -/
def weightedCall (fuel : Nat) : WeightedCall → VCArbitrationEngine → Option VCArbitrationEngine
  | .configureVC vc enable priority weight scheme, engine =>
      some (engine.configureVC vc enable priority weight scheme).2
  | .enqueuePacket packet, engine => some (engine.enqueuePacket packet).2
  | .restoreCredits vc credits, engine => engine.restoreCredits vc credits
  | .arbitrateWeightedRoundRobin, engine => (engine.arbitrateWeightedRoundRobin fuel).map Prod.snd

/-- The ready channels are those of the group, with the weights given. -/
structure Backlogged (group : Set Nat) (weight : Nat → Nat) (engine : VCArbitrationEngine) :
    Prop where
  ready_iff : ∀ vc, vc < 8 → (engine.ready vc = true ↔ vc ∈ group)
  weight_eq : ∀ vc ∈ group, (engine.vcResources vc).weight.toNat = weight vc

section Call

variable {engine after : VCArbitrationEngine} {group : Set Nat} {weight : Nat → Nat}

/-- The calls between two arbitrations leave the counters and the statistics
alone. -/
theorem weightedCall_frame {fuel : Nat} {next : WeightedCall}
    (between : next ≠ .arbitrateWeightedRoundRobin)
    (called : weightedCall fuel next engine = some after) :
    after.rrCounters = engine.rrCounters ∧ after.packetsServed = engine.packetsServed := by
  cases next with
  | configureVC vc enable priority weight scheme =>
      cases called
      unfold VCArbitrationEngine.configureVC
      split_ifs
      · exact ⟨rfl, rfl⟩
      · exact ⟨rfl, rfl⟩
  | enqueuePacket packet =>
      cases called
      rcases VCArbitrationEngine.enqueuePacket_cases packet engine with refused | ⟨-, accepted⟩
      · rw [refused]
        exact ⟨rfl, rfl⟩
      · rw [accepted]
        exact ⟨rfl, rfl⟩
  | restoreCredits vc credits =>
      rcases VCArbitrationEngine.restoreCredits_eq_some called with ⟨-, rfl⟩
      exact ⟨rfl, rfl⟩
  | arbitrateWeightedRoundRobin => exact absurd rfl between

/-- The calls between two arbitrations return. -/
theorem weightedCall_isSome {fuel : Nat} {next : WeightedCall}
    (between : next ≠ .arbitrateWeightedRoundRobin)
    (key : ∀ vc credits, next = .restoreCredits vc credits → vc < 8) :
    (weightedCall fuel next engine).isSome = true := by
  cases next with
  | configureVC vc enable priority weight scheme => rfl
  | enqueuePacket packet => rfl
  | restoreCredits vc credits =>
      rw [weightedCall, VCArbitrationEngine.restoreCredits, if_pos (key vc credits rfl)]
      rfl
  | arbitrateWeightedRoundRobin => exact absurd rfl between

/-- The weighted scheme has served `vc` and counted it. -/
structure Counted (counters : Nat → Nat) (vc : Nat) (engine after : VCArbitrationEngine) :
    Prop where
  served : ∃ packet, after.packetsServed =
    Function.update engine.packetsServed vc (engine.packetsServed vc ++ [packet])
  counters_eq : after.rrCounters = Function.update counters vc (counters vc + 1)

/-- A channel that is found is served in the same call. -/
theorem arbitrateWeightedRoundRobin_of_unspent {vc : Nat} (found : engine.unspent = some vc)
    (fuel : Nat) : vc < 8 ∧ engine.ready vc = true ∧
      engine.rrCounters vc < (engine.vcResources vc).weight.toNat ∧
      ∃ result after, engine.arbitrateWeightedRoundRobin (fuel + 1) = some (result, after) ∧
        Counted engine.rrCounters vc engine after := by
  have bound := List.mem_range.mp (List.mem_of_find?_eq_some found)
  have hit := List.find?_some found
  rw [Bool.and_eq_true, decide_eq_true_eq] at hit
  refine ⟨bound, hit.1, hit.2, ?_⟩
  rw [VCArbitrationEngine.arbitrateWeightedRoundRobin, found]
  dsimp only [VCArbitrationEngine.dequeueFromVC]
  cases queued : engine.vcQueues vc with
  | nil => exact absurd queued ((VCArbitrationEngine.ready_iff vc).mp hit.1).2
  | cons packet rest => exact ⟨_, _, rfl, ⟨packet, rfl⟩, rfl⟩

/-- Of the counters, some have not reached the weight and one of these goes up,
or all have reached it and begin again. -/
theorem arbitrateWeightedRoundRobin_cases (backlogged : Backlogged group weight engine)
    (nonempty : group.Nonempty) (inside : ∀ vc ∈ group, vc < 8)
    (positive : ∀ vc ∈ group, 1 ≤ weight vc) {fuel : Nat} (enough : 2 ≤ fuel) :
    ∃ vc ∈ group, ∃ result after,
      engine.arbitrateWeightedRoundRobin fuel = some (result, after) ∧
      ((engine.rrCounters vc < weight vc ∧ Counted engine.rrCounters vc engine after) ∨
        ((∀ other ∈ group, weight other ≤ engine.rrCounters other) ∧
          Counted (fun _ => 0) vc engine after)) := by
  obtain ⟨more, rfl⟩ : ∃ more, fuel = more + 2 := ⟨fuel - 2, by omega⟩
  cases found : engine.unspent with
  | some vc =>
      obtain ⟨bound, ready, less, result, after, returned, counted⟩ :=
        arbitrateWeightedRoundRobin_of_unspent found (more + 1)
      have member := (backlogged.ready_iff vc bound).mp ready
      rw [backlogged.weight_eq vc member] at less
      exact ⟨vc, member, result, after, returned, Or.inl ⟨less, counted⟩⟩
  | none =>
      have spent : ∀ other ∈ group, weight other ≤ engine.rrCounters other := by
        intro other member
        rw [VCArbitrationEngine.unspent, List.find?_eq_none] at found
        have missed := found other (List.mem_range.mpr (inside other member))
        rw [(backlogged.ready_iff other (inside other member)).mpr member,
          backlogged.weight_eq other member] at missed
        simpa using missed
      have again : ({ engine with rrCounters := fun _ => 0 } : VCArbitrationEngine).unspent ≠
          none := by
        rcases nonempty with ⟨other, member⟩
        intro missed
        rw [VCArbitrationEngine.unspent, List.find?_eq_none] at missed
        apply missed other (List.mem_range.mpr (inside other member))
        rw [Bool.and_eq_true, decide_eq_true_eq]
        refine ⟨(backlogged.ready_iff other (inside other member)).mpr member, ?_⟩
        exact Nat.lt_of_lt_of_eq (positive other member) (backlogged.weight_eq other member).symm
      rcases Option.ne_none_iff_exists'.mp again with ⟨vc, refound⟩
      obtain ⟨bound, ready, -, result, after, returned, counted⟩ :=
        arbitrateWeightedRoundRobin_of_unspent refound more
      refine ⟨vc, (backlogged.ready_iff vc bound).mp ready, result, after, ?_,
        Or.inr ⟨spent, counted.served, counted.counters_eq⟩⟩
      rw [VCArbitrationEngine.arbitrateWeightedRoundRobin, found]
      exact returned

end Call

/-! ## The balance of a run -/

/-- The packets served on a channel since `start`. -/
def servedSince (start engine : VCArbitrationEngine) (vc : Nat) : Int :=
  (engine.packetsServed vc).length - (start.packetsServed vc).length

/-- What is left of the weights and what has been served are balanced, and only
the group has been served. -/
structure Level (start : VCArbitrationEngine) (group : Set Nat) (weight : Nat → Nat)
    (engine : VCArbitrationEngine) : Prop where
  balanced : Balanced (fun vc : group => (weight vc : Int))
    (fun vc => weight vc - engine.rrCounters vc) fun vc => servedSince start engine vc
  others : ∀ vc, vc ∉ group → engine.packetsServed vc = start.packetsServed vc
  grows : ∀ vc, 0 ≤ servedSince start engine vc

section Level

variable {start engine after : VCArbitrationEngine} {group : Set Nat} {weight : Nat → Nat}

theorem level_start (inside : ∀ vc ∈ group, vc < 8)
    (fresh : ∀ vc, vc < 8 → start.rrCounters vc = 0) : Level start group weight start where
  balanced := by
    have credits : (fun vc : group => (weight vc - start.rrCounters vc : Int)) =
        fun vc : group => (weight vc : Int) := by
      funext vc
      rw [fresh vc (inside vc vc.property), Nat.cast_zero, sub_zero]
    have nothing : (fun vc : group => servedSince start start vc) = fun _ => 0 := by
      funext vc
      exact sub_self _
    rw [credits, nothing]
    exact balanced_start fun vc => Int.natCast_nonneg _
  others _ _ := rfl
  grows vc := by simp [servedSince]

theorem Counted.servedSince_eq {counters : Nat → Nat} {vc : Nat}
    (counted : Counted counters vc engine after) (start : VCArbitrationEngine) (other : Nat) :
    servedSince start after other =
      servedSince start engine other + if other = vc then 1 else 0 := by
  rcases counted.served with ⟨packet, served⟩
  rw [servedSince, servedSince, served, Function.update_apply]
  split_ifs with same
  · rw [same, List.length_append, List.length_singleton, Nat.cast_add, Nat.cast_one]
    omega
  · omega

/-- What is left of the weights pays for the service, and is renewed when it is
used up. -/
theorem creditStep_of_counted {vc : Nat} (positive : ∀ vc ∈ group, 1 ≤ weight vc)
    (credit_nonneg : ∀ other : group, (0 : Int) ≤ weight other - engine.rrCounters other)
    (counts : (engine.rrCounters vc < weight vc ∧ Counted engine.rrCounters vc engine after) ∨
      ((∀ other ∈ group, weight other ≤ engine.rrCounters other) ∧
        Counted (fun _ => 0) vc engine after)) :
    CreditStep (fun other : group => (weight other : Int))
      (fun other => weight other - engine.rrCounters other)
      (fun other => if (other : Nat) = vc then 1 else 0)
      fun other => weight other - after.rrCounters other := by
  have gain_nonneg : ∀ other : group, (0 : Int) ≤ if (other : Nat) = vc then 1 else 0 := by
    intro other
    split_ifs <;> decide
  rcases counts with ⟨less, counted⟩ | ⟨spent, counted⟩
  · apply CreditStep.keep gain_nonneg
    · intro other
      split_ifs with same
      · rw [same]
        omega
      · exact credit_nonneg other
    · intro other
      rw [counted.counters_eq, Function.update_apply]
      split_ifs with same
      · rw [same, Nat.cast_add, Nat.cast_one]
        omega
      · omega
  · apply CreditStep.renew _ gain_nonneg
    · intro other
      have least := positive other other.property
      split_ifs <;> omega
    · intro other
      rw [counted.counters_eq, Function.update_apply]
      split_ifs <;> omega
    · intro other
      have credit := credit_nonneg other
      have reached := spent other other.property
      omega

/-- A call of the weighted scheme is a step of service by credits. -/
theorem Level.arbitrate (level : Level start group weight engine)
    (backlogged : Backlogged group weight engine) (nonempty : group.Nonempty)
    (inside : ∀ vc ∈ group, vc < 8) (positive : ∀ vc ∈ group, 1 ≤ weight vc) {fuel : Nat}
    (enough : 2 ≤ fuel) :
    ∃ after, weightedCall fuel .arbitrateWeightedRoundRobin engine = some after ∧
      Level start group weight after := by
  obtain ⟨vc, member, result, after, returned, counts⟩ :=
    arbitrateWeightedRoundRobin_cases backlogged nonempty inside positive enough
  refine ⟨after, by rw [weightedCall, returned]; rfl, ?_⟩
  have counted : ∃ counters, Counted counters vc engine after := by
    rcases counts with ⟨-, counted⟩ | ⟨-, counted⟩
    · exact ⟨_, counted⟩
    · exact ⟨_, counted⟩
  rcases counted with ⟨counters, counted⟩
  have served := counted.servedSince_eq start
  constructor
  · simp only [served]
    apply level.balanced.step
    rcases level.balanced with ⟨_, balance⟩
    exact creditStep_of_counted positive balance.credit_nonneg counts
  · intro other outside
    rcases counted.served with ⟨packet, eq⟩
    have different : other ≠ vc := by
      rintro rfl
      exact outside member
    rw [eq, Function.update_of_ne different]
    exact level.others other outside
  · intro other
    rw [served]
    have before := level.grows other
    split_ifs <;> omega

theorem Level.between (level : Level start group weight engine) {fuel : Nat} {next : WeightedCall}
    (between : next ≠ .arbitrateWeightedRoundRobin)
    (called : weightedCall fuel next engine = some after) : Level start group weight after := by
  rcases weightedCall_frame between called with ⟨counters, served⟩
  rcases level with ⟨balanced, others, grows⟩
  constructor
  · simpa [counters, servedSince, served] using balanced
  · rw [served]
    exact others
  · simpa [servedSince, served] using grows

theorem level_run (nonempty : group.Nonempty) (inside : ∀ vc ∈ group, vc < 8)
    (positive : ∀ vc ∈ group, 1 ≤ weight vc) {fuel : Nat} (enough : 2 ≤ fuel)
    (fresh : ∀ vc, vc < 8 → start.rrCounters vc = 0) {calls : List WeightedCall}
    (keys : ∀ vc credits, WeightedCall.restoreCredits vc credits ∈ calls → vc < 8)
    (backlogged : ∀ engine,
      Made (weightedCall fuel) calls start .arbitrateWeightedRoundRobin engine →
        Backlogged group weight engine) :
    ∃ final, runPartial (weightedCall fuel) calls start = some final ∧
      Level start group weight final := by
  induction calls using List.reverseRecOn with
  | nil => exact ⟨start, rfl, level_start inside fresh⟩
  | append_singleton calls next ih =>
      rcases ih (fun vc credits member => keys vc credits (List.mem_append_left _ member))
        (fun engine made => backlogged engine (made.append _)) with ⟨engine, reached, level⟩
      rw [runPartial_concat, reached, Option.bind_some]
      by_cases weighted : next = .arbitrateWeightedRoundRobin
      · subst weighted
        exact level.arbitrate (backlogged engine (made_last reached _)) nonempty inside positive
          enough
      · have defined : (weightedCall fuel next engine).isSome = true := by
          apply weightedCall_isSome weighted
          rintro vc credits rfl
          exact keys vc credits (List.mem_append_right _ List.mem_cons_self)
        rcases Option.isSome_iff_exists.mp defined with ⟨after, called⟩
        exact ⟨after, called, level.between weighted called⟩

end Level

/-- Calls of the weighted scheme that all find the same channels ready, with
fixed weights, serve each of them as often as its weight says, up to one round,
and no other.  Two passes of the function are enough for every call. -/
theorem weighted_rounds {group : Set Nat} {weight : Nat → Nat} (nonempty : group.Nonempty)
    (inside : ∀ vc ∈ group, vc < 8) (positive : ∀ vc ∈ group, 1 ≤ weight vc) {fuel : Nat}
    (enough : 2 ≤ fuel) {start : VCArbitrationEngine}
    (fresh : ∀ vc, vc < 8 → start.rrCounters vc = 0) {calls : List WeightedCall}
    (keys : ∀ vc credits, WeightedCall.restoreCredits vc credits ∈ calls → vc < 8)
    (backlogged : ∀ engine,
      Made (weightedCall fuel) calls start .arbitrateWeightedRoundRobin engine →
        Backlogged group weight engine) :
    ∃ final, runPartial (weightedCall fuel) calls start = some final ∧
      (∃ r : Nat, ∀ vc ∈ group, r * weight vc ≤ servedSince start final vc ∧
        servedSince start final vc ≤ (r + 1) * weight vc) ∧
      ∀ vc, vc ∉ group → servedSince start final vc = 0 := by
  rcases level_run nonempty inside positive enough fresh keys backlogged with
    ⟨final, reached, level⟩
  refine ⟨final, reached, ?_, fun vc outside => ?_⟩
  · rcases level.balanced.rounds fun vc => level.grows vc with ⟨r, share⟩
    exact ⟨r, fun vc member => share ⟨vc, member⟩⟩
  · rw [servedSince, level.others vc outside]
    omega

/-- Channels 0 and 1 with weights 2 and 1, and three packets on each. -/
def twoChannels : VCArbitrationEngine :=
  { VCArbitrationEngine.initializeVCs fun _ => ⟨0, 0⟩ with
    vcResources := fun vc =>
      { VCResource.new 0 (if vc = 0 then 2 else 1) with enabled := decide (vc < 2) }
    vcQueues := fun vc => if vc < 2 then [1, 2, 3] else [] }

theorem weighted_rounds_two_channels : ∃ final,
    runPartial (weightedCall 2) (List.replicate 3 .arbitrateWeightedRoundRobin) twoChannels =
        some final ∧
      ∃ r : Nat, ∀ vc ∈ { vc | vc < 2 }, r * (if vc = 0 then 2 else 1 : Nat) ≤
          servedSince twoChannels final vc ∧
        servedSince twoChannels final vc ≤ (r + 1) * (if vc = 0 then 2 else 1 : Nat) := by
  have ready : ∀ k, k < 3 → ∀ engine ∈ runPartial (weightedCall 2)
      (List.replicate k .arbitrateWeightedRoundRobin) twoChannels, ∀ vc, vc < 8 →
        engine.ready vc = decide (vc < 2) ∧
          (engine.vcResources vc).weight.toNat = if vc = 0 then 2 else 1 := by
    decide +kernel
  have backlogged : ∀ engine, Made (weightedCall 2)
      (List.replicate 3 .arbitrateWeightedRoundRobin) twoChannels .arbitrateWeightedRoundRobin
        engine → Backlogged { vc | vc < 2 } (fun vc => if vc = 0 then 2 else 1) engine := by
    rintro engine ⟨before, rest, split, reached⟩
    rcases List.replicate_eq_append_iff.mp split with ⟨length, same, -⟩
    rw [same] at reached
    rw [List.length_cons] at length
    have facts := ready before.length (by omega) engine reached
    constructor
    · intro vc bound
      rw [(facts vc bound).1]
      exact decide_eq_true_iff
    · intro vc member
      exact (facts vc (Nat.lt_trans member (by decide))).2
  have positive : ∀ vc ∈ { vc | vc < 2 }, 1 ≤ if vc = 0 then 2 else 1 := by
    intro vc _
    split_ifs <;> decide
  obtain ⟨final, reached, rounds, -⟩ := weighted_rounds ⟨0, Nat.succ_pos 1⟩
    (fun vc member => Nat.lt_trans member (by decide)) positive (Nat.le_refl 2) (fun _ _ => rfl)
    (by simp) backlogged
  exact ⟨final, reached, rounds⟩

end SystemcTlm.PcieVc
