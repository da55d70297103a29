import SystemcTlm.PcieVc.Traffic

/-!
# Which packets `VCArbitrationEngine` can serve

Two things can keep an accepted packet from being served.  The weighted scheme
never returns when no ready channel has a weight, and a channel can be disabled
when packets wait on it, or when it is the one to which packets of disabled
channels go.
-/

namespace SystemcTlm.PcieVc

open SystemcTlm.Transition

variable {engine : VCArbitrationEngine}

namespace VCArbitrationEngine

/-! ## Termination -/

/-- The weighted scheme is to choose among channels without a weight. -/
def Spins (engine : VCArbitrationEngine) : Prop :=
  engine.selectedScheme = .weightedRoundRobin ∧
    ∀ vc, vc < 8 → engine.ready vc = true → (engine.vcResources vc).weight = 0

instance (engine : VCArbitrationEngine) : Decidable engine.Spins :=
  inferInstanceAs (Decidable (_ ∧ ∀ vc, vc < 8 → _ → _))

/-- `arbitrate` returns, and with a packet if a channel is ready. -/
def Serves (engine : VCArbitrationEngine) : Prop :=
  ∃ fuel result after, engine.arbitrate fuel = some (result, after) ∧
    ((∃ vc, vc < 8 ∧ engine.ready vc = true) → result.isSome = true)

theorem arbitrateWeightedRoundRobin_eq_none
    (weightless : ∀ vc, vc < 8 → engine.ready vc = true → (engine.vcResources vc).weight = 0)
    (fuel : Nat) : engine.arbitrateWeightedRoundRobin fuel = none := by
  induction fuel generalizing engine with
  | zero => rfl
  | succ fuel ih =>
      have stuck : engine.unspent = none := by
        rw [unspent, List.find?_eq_none]
        intro vc member hit
        rw [Bool.and_eq_true, decide_eq_true_eq] at hit
        rw [weightless vc (List.mem_range.mp member) hit.1] at hit
        exact Nat.not_lt_zero _ hit.2
      rw [arbitrateWeightedRoundRobin, stuck]
      exact ih weightless

/-- After the counters have been reset, every weight is unspent. -/
theorem arbitrateWeightedRoundRobin_isSome {vc : Nat} (bound : vc < 8)
    (ready : engine.ready vc = true) (weighty : (engine.vcResources vc).weight ≠ 0) :
    (engine.arbitrateWeightedRoundRobin 2).isSome = true := by
  have reset : (unspent { engine with rrCounters := fun _ => 0 }).isSome = true := by
    rw [unspent, List.find?_isSome]
    refine ⟨vc, List.mem_range.mpr bound, ?_⟩
    rw [Bool.and_eq_true, decide_eq_true_eq]
    refine ⟨ready, Nat.pos_of_ne_zero fun zero => weighty ?_⟩
    exact UInt16.toNat_inj.mp zero
  rcases Option.isSome_iff_exists.mp reset with ⟨chosen, found⟩
  rw [arbitrateWeightedRoundRobin]
  cases engine.unspent with
  | some first => rfl
  | none =>
      dsimp only
      rw [arbitrateWeightedRoundRobin, found]
      rfl

theorem arbitrate_isSome (turns : ¬ engine.Spins) : (engine.arbitrate 2).isSome = true := by
  unfold arbitrate
  split
  · rfl
  · rfl
  · next weighted =>
      obtain ⟨vc, bound, ready, weighty⟩ :
          ∃ vc, vc < 8 ∧ engine.ready vc = true ∧ (engine.vcResources vc).weight ≠ 0 := by
        by_contra never
        refine turns ⟨weighted, fun vc bound ready => ?_⟩
        by_contra weighty
        exact never ⟨vc, bound, ready, weighty⟩
      exact arbitrateWeightedRoundRobin_isSome bound ready weighty
  · rfl

theorem serves_iff (inRange : engine.lastServedVc < 8) : engine.Serves ↔ ¬ engine.Spins := by
  constructor
  · rintro ⟨fuel, result, after, returned, -⟩ ⟨weighted, weightless⟩
    have hangs := arbitrateWeightedRoundRobin_eq_none weightless fuel
    rw [arbitrate, weighted] at returned
    exact Option.some_ne_none _ (returned.symm.trans hangs)
  · intro turns
    rcases Option.isSome_iff_exists.mp (arbitrate_isSome turns) with ⟨⟨result, after⟩, returned⟩
    refine ⟨2, result, after, returned, ?_⟩
    rintro ⟨vc, bound, ready⟩
    have arbitrated := arbitrate_spec inRange returned
    cases result with
    | some packet => rfl
    | none =>
        rw [arbitrated.2 vc bound] at ready
        cases ready

end VCArbitrationEngine

/-! ## Runs of calls -/

variable {traffic : Traffic}

theorem Ordered.call (ordered : Ordered traffic) {fuel : Nat} {next : Call} {final : Traffic}
    (called : call fuel next traffic = some final) : Ordered final := by
  cases next with
  | configureVC vc enable priority weight scheme =>
      cases called
      exact ordered.configureVC vc enable priority weight scheme
  | enqueuePacket packet =>
      cases called
      exact ordered.enqueuePacket packet
  | arbitrate =>
      rcases Option.map_eq_some_iff.mp called with ⟨⟨result, after⟩, returned, rfl⟩
      exact ordered.arbitrated (VCArbitrationEngine.arbitrate_spec ordered.inRange returned)
  | restoreCredits vc credits =>
      rcases Option.map_eq_some_iff.mp called with ⟨after, restored, rfl⟩
      exact ordered.restoreCredits restored

theorem ordered_of_reached {fuel : Nat} {packets : PacketPtr → PCIePacket} {calls : List Call}
    {final : Traffic} (reached : runPartial (call fuel) calls (.start packets) = some final) :
    Ordered final := by
  apply runPartial_invariant Ordered (ordered_start packets) (fun _ _ _ => trivial) _ reached
  exact fun next state after kept _ called => kept.call called

theorem call_mono {fuel more : Nat} (enough : fuel ≤ more) (next : Call) (traffic after : Traffic)
    (called : call fuel next traffic = some after) : call more next traffic = some after := by
  cases next with
  | configureVC vc enable priority weight scheme => exact called
  | enqueuePacket packet => exact called
  | arbitrate =>
      rcases Option.map_eq_some_iff.mp called with ⟨returned, returns, rfl⟩
      exact Option.map_eq_some_iff.mpr
        ⟨returned, VCArbitrationEngine.arbitrate_mono enough returns, rfl⟩
  | restoreCredits vc credits => exact called

/-- A run returns if and only if none of its arbitrations spins. -/
theorem returns_iff (packets : PacketPtr → PCIePacket) {calls : List Call}
    (keys : ∀ vc credits, Call.restoreCredits vc credits ∈ calls → vc < 8) :
    (∃ fuel final, runPartial (call fuel) calls (.start packets) = some final) ↔
      ∀ fuel state, Made (call fuel) calls (.start packets) .arbitrate state →
        ¬ state.engine.Spins := by
  constructor
  · rintro ⟨fuel, final, reached⟩ fuel' state ⟨before, rest, split, earlier⟩ ⟨weighted, weightless⟩
    have made : Made (call (max fuel fuel')) calls (.start packets) .arbitrate state :=
      ⟨before, rest, split, runPartial_mono (call_mono (Nat.le_max_right fuel fuel')) earlier⟩
    have returns := made.isSome (runPartial_mono (call_mono (Nat.le_max_left fuel fuel')) reached)
    rw [call, Option.isSome_map, VCArbitrationEngine.arbitrate, weighted] at returns
    dsimp only at returns
    rw [VCArbitrationEngine.arbitrateWeightedRoundRobin_eq_none weightless] at returns
    cases returns
  · intro turns
    refine ⟨2, Option.isSome_iff_exists.mp (runPartial_isSome fun next state made => ?_)⟩
    cases next with
    | configureVC vc enable priority weight scheme => rfl
    | enqueuePacket packet => rfl
    | arbitrate =>
        rw [call, Option.isSome_map]
        exact VCArbitrationEngine.arbitrate_isSome (turns 2 state made)
    | restoreCredits vc credits =>
        rcases made with ⟨before, rest, rfl, -⟩
        have key := keys vc credits (List.mem_append_right _ List.mem_cons_self)
        rw [call, Option.isSome_map, VCArbitrationEngine.restoreCredits, if_pos key]
        rfl

/-- When `arbitrate` does not hang.  A run of the calls returns exactly if none
of its calls of `arbitrate` is left to the weighted scheme with ready channels
that all have weight zero.  In every state that is reached `arbitrate` returns,
and with a packet if an enabled channel has one, exactly if it is not left to
that. -/
theorem arbitrate_returns_iff (packets : PacketPtr → PCIePacket) {calls : List Call}
    (keys : ∀ vc credits, Call.restoreCredits vc credits ∈ calls → vc < 8) :
    ((∃ fuel final, runPartial (call fuel) calls (.start packets) = some final) ↔
      ∀ fuel state, Made (call fuel) calls (.start packets) .arbitrate state →
        ¬ state.engine.Spins) ∧
    ∀ fuel final, runPartial (call fuel) calls (.start packets) = some final →
      (final.engine.Serves ↔ ¬ final.engine.Spins) :=
  ⟨returns_iff packets keys, fun _ _ reached =>
    VCArbitrationEngine.serves_iff (ordered_of_reached reached).inRange⟩

/-- Channel 0 with weight 2 and the weighted scheme, and four packets on it.  The
third arbitration resets the counters. -/
def weightedCalls : List Call :=
  [.configureVC 0 true 7 2 .weightedRoundRobin, .enqueuePacket 0, .enqueuePacket 1,
    .enqueuePacket 2, .enqueuePacket 3, .arbitrate, .restoreCredits 0 1, .arbitrate, .arbitrate,
    .restoreCredits 0 2]

theorem arbitrate_returns_iff_weighted : ∃ final : Traffic,
    runPartial (call 2) weightedCalls (.start fun _ => ⟨0, 0⟩) = some final ∧
    final.engine.vcQueues 0 = [3] ∧
    (∀ fuel state, Made (call fuel) weightedCalls (.start fun _ => ⟨0, 0⟩) .arbitrate state →
      ¬ state.engine.Spins) ∧
    (final.engine.Serves ↔ ¬ final.engine.Spins) := by
  have keys : ∀ vc credits, Call.restoreCredits vc credits ∈ weightedCalls → vc < 8 := by
    intro vc credits member
    simp only [weightedCalls, List.mem_cons, Call.restoreCredits.injEq, reduceCtorEq, false_or,
      or_false, List.not_mem_nil] at member
    omega
  have waits : ∀ final ∈ runPartial (call 2) weightedCalls (.start fun _ => ⟨0, 0⟩),
      final.engine.vcQueues 0 = [3] := by
    decide +kernel
  obtain ⟨final, reached⟩ := Option.isSome_iff_exists.mp
    (by decide +kernel :
      (runPartial (call 2) weightedCalls (.start fun _ => ⟨0, 0⟩)).isSome = true)
  exact ⟨final, reached, waits final reached,
    (arbitrate_returns_iff _ keys).1.mp ⟨2, final, reached⟩,
    (arbitrate_returns_iff _ keys).2 2 final reached⟩

/-- The channel with weight 0. -/
theorem not_arbitrate_returns_weightless :
    ¬ ∀ (fuel : Nat) (packets : PacketPtr → PCIePacket) (calls : List Call) (final : Traffic),
      runPartial (call fuel) calls (.start packets) = some final → final.engine.Serves := by
  intro always
  have stuck : ∀ final ∈ runPartial (call 0)
      [.configureVC 0 true 7 0 .weightedRoundRobin, .enqueuePacket 0] (.start fun _ => ⟨0, 0⟩),
      final.engine.lastServedVc < 8 ∧ final.engine.Spins := by
    decide +kernel
  obtain ⟨final, reached⟩ := Option.isSome_iff_exists.mp
    (by decide : (runPartial (call 0)
      [.configureVC 0 true 7 0 .weightedRoundRobin, .enqueuePacket 0]
      (.start fun _ => ⟨0, 0⟩)).isSome = true)
  rcases stuck final reached with ⟨inRange, spins⟩
  exact (VCArbitrationEngine.serves_iff inRange).mp (always _ _ _ final reached) spins

/-! ## Eligibility -/

/-- What is accepted and not served waits on enabled channels, and the fallback
channel is enabled. -/
structure Eligible (traffic : Traffic) : Prop where
  fallback : (traffic.engine.vcResources 0).enabled = true
  enabled : ∀ vc, vc < 8 → traffic.engine.vcQueues vc ≠ [] →
    (traffic.engine.vcResources vc).enabled = true
  waiting : ∀ vc, traffic.accepted vc =
    traffic.engine.packetsServed vc ++ traffic.engine.vcQueues vc

/-- The call does not disable channel 0, or a channel with packets. -/
def Keeps : Call → Traffic → Prop
  | .configureVC vc enable _ _ _, traffic =>
      vc < 8 → enable = false → vc ≠ 0 ∧ traffic.engine.vcQueues vc = []
  | _, _ => True

theorem eligible_start (packets : PacketPtr → PCIePacket) : Eligible (.start packets) where
  fallback := rfl
  enabled _ _ packets := absurd rfl packets
  waiting _ := rfl

/-- The enable flags after a call of `configureVC`. -/
theorem configureVC_enabled (vc : Nat) (enable : Bool) (priority : UInt8) (weight : UInt16)
    (scheme : ArbitrationScheme) (other : Nat) :
    ((traffic.configureVC vc enable priority weight scheme).engine.vcResources other).enabled =
      if vc < 8 ∧ other = vc then enable else (traffic.engine.vcResources other).enabled := by
  rw [Traffic.configureVC, VCArbitrationEngine.configureVC]
  by_cases key : vc < 8
  · rw [if_pos key]
    dsimp only
    by_cases same : other = vc
    · rw [same, Function.update_self, if_pos ⟨key, rfl⟩]
    · rw [Function.update_of_ne same, if_neg fun both => same both.2]
  · rw [if_neg key, if_neg fun both => key both.1]

theorem Eligible.configureVC (eligible : Eligible traffic) {vc : Nat} {enable : Bool}
    {priority : UInt8} {weight : UInt16} {scheme : ArbitrationScheme}
    (keeps : Keeps (.configureVC vc enable priority weight scheme) traffic)
    (ordered : Ordered (traffic.configureVC vc enable priority weight scheme)) :
    Eligible (traffic.configureVC vc enable priority weight scheme) := by
  refine ⟨?_, ?_, ordered.ledger⟩
  · rw [configureVC_enabled]
    split_ifs with same
    · cases enable with
      | true => rfl
      | false => exact absurd same.2.symm (keeps same.1 rfl).1
    · exact eligible.fallback
  · intro channel key queued
    rw [configureVC_enabled]
    rw [Traffic.configureVC, VCArbitrationEngine.configureVC_vcQueues] at queued
    split_ifs with same
    · cases enable with
      | true => rfl
      | false =>
          rw [same.2] at queued
          exact absurd (keeps same.1 rfl).2 queued
    · exact eligible.enabled channel key queued

/-- The target of a packet is enabled when the fallback channel is. -/
theorem targetVc_enabled (fallback : (engine.vcResources 0).enabled = true)
    (packet : PacketPtr) : (engine.vcResources (engine.targetVc packet)).enabled = true := by
  dsimp only [VCArbitrationEngine.targetVc]
  split_ifs with enabled
  · exact enabled
  · exact fallback

theorem Eligible.enqueuePacket (eligible : Eligible traffic) (packet : PacketPtr)
    (ordered : Ordered (traffic.enqueuePacket packet)) :
    Eligible (traffic.enqueuePacket packet) := by
  have target := targetVc_enabled eligible.fallback packet
  suffices flags : ∀ vc, ((traffic.enqueuePacket packet).engine.vcResources vc).enabled =
      (traffic.engine.vcResources vc).enabled ∧
      ((traffic.enqueuePacket packet).engine.vcQueues vc ≠ [] →
        vc = traffic.engine.targetVc packet ∨ traffic.engine.vcQueues vc ≠ []) by
    refine ⟨(flags 0).1.trans eligible.fallback, fun vc key queued => ?_, ordered.ledger⟩
    rw [(flags vc).1]
    rcases (flags vc).2 queued with rfl | before
    · exact target
    · exact eligible.enabled vc key before
  intro vc
  rcases traffic.engine.enqueuePacket_cases packet with refused | ⟨-, accepted⟩
  · rw [Traffic.enqueuePacket, refused]
    exact ⟨rfl, Or.inr⟩
  · rw [Traffic.enqueuePacket, accepted]
    dsimp only
    by_cases same : vc = traffic.engine.targetVc packet
    · rw [same, Function.update_self]
      exact ⟨rfl, fun _ => Or.inl rfl⟩
    · rw [Function.update_of_ne same, Function.update_of_ne same]
      exact ⟨rfl, Or.inr⟩

theorem Eligible.arbitrated (eligible : Eligible traffic) {result : Option PacketPtr}
    {after : VCArbitrationEngine} (arbitrated : traffic.engine.Arbitrated result after)
    (ordered : Ordered { traffic with engine := after }) :
    Eligible { traffic with engine := after } := by
  cases result with
  | none =>
      rcases arbitrated with ⟨rfl, -⟩
      exact eligible
  | some packet =>
      rcases arbitrated with ⟨vc, dequeued⟩
      refine ⟨?_, fun channel key queued => ?_, ordered.ledger⟩ <;> dsimp only
      · rw [dequeued.resources]
        exact eligible.fallback
      · rw [dequeued.resources]
        apply eligible.enabled channel key
        by_cases same : channel = vc
        · rw [same, dequeued.front]
          exact List.cons_ne_nil _ _
        · rwa [dequeued.others channel same] at queued

theorem Eligible.restoreCredits (eligible : Eligible traffic) {vc : Nat} {credits : UInt32}
    {after : VCArbitrationEngine}
    (restored : traffic.engine.restoreCredits vc credits = some after)
    (ordered : Ordered { traffic with engine := after }) :
    Eligible { traffic with engine := after } := by
  rcases VCArbitrationEngine.restoreCredits_eq_some restored with ⟨-, rfl⟩
  have flags : ∀ channel, ((Function.update traffic.engine.vcResources vc
      { traffic.engine.vcResources vc with
        currentCredits :=
          min (((traffic.engine.vcResources vc).currentCredits + credits.toNat) % 0x100000000)
            (traffic.engine.vcResources vc).maxCredits }) channel).enabled =
      (traffic.engine.vcResources channel).enabled := by
    intro channel
    by_cases same : channel = vc
    · rw [same, Function.update_self]
    · rw [Function.update_of_ne same]
  refine ⟨(flags 0).trans eligible.fallback, fun channel key queued => ?_, ordered.ledger⟩
  exact (flags channel).trans (eligible.enabled channel key queued)

theorem Eligible.call (eligible : Eligible traffic) (inRange : traffic.engine.lastServedVc < 8)
    {fuel : Nat} {next : Call} {final : Traffic} (keeps : Keeps next traffic)
    (called : call fuel next traffic = some final) : Eligible final := by
  have ordered : Ordered traffic := ⟨inRange, eligible.waiting⟩
  have after := ordered.call called
  cases next with
  | configureVC vc enable priority weight scheme =>
      cases called
      exact eligible.configureVC keeps after
  | enqueuePacket packet =>
      cases called
      exact eligible.enqueuePacket packet after
  | arbitrate =>
      rcases Option.map_eq_some_iff.mp called with ⟨⟨result, middle⟩, returned, rfl⟩
      exact eligible.arbitrated (VCArbitrationEngine.arbitrate_spec inRange returned) after
  | restoreCredits vc credits =>
      rcases Option.map_eq_some_iff.mp called with ⟨middle, restored, rfl⟩
      exact eligible.restoreCredits restored after

/-- When no packet is stranded: every state that a run passes has its packets
eligible, exactly if no call of the run disables channel 0 or a channel with
packets. -/
theorem eligible_throughout_iff (fuel : Nat) (packets : PacketPtr → PCIePacket)
    (calls : List Call) :
    (∀ before rest state, calls = before ++ rest →
      runPartial (call fuel) before (.start packets) = some state → Eligible state) ↔
    ∀ next state, Made (call fuel) calls (.start packets) next state → Keeps next state := by
  constructor
  · rintro throughout next state ⟨before, rest, rfl, reached⟩
    cases next with
    | configureVC vc enable priority weight scheme =>
        rintro key rfl
        have after : runPartial (call fuel)
            (before ++ [.configureVC vc false priority weight scheme]) (.start packets) =
              some (state.configureVC vc false priority weight scheme) := by
          rw [runPartial_concat, reached]
          rfl
        have eligible := throughout _ rest _ (by simp) after
        have disabled := @configureVC_enabled state vc false priority weight scheme vc
        rw [if_pos ⟨key, rfl⟩] at disabled
        constructor
        · rintro rfl
          exact Bool.false_ne_true (disabled.symm.trans eligible.fallback)
        · by_contra queued
          refine Bool.false_ne_true (disabled.symm.trans (eligible.enabled vc key ?_))
          rwa [Traffic.configureVC, VCArbitrationEngine.configureVC_vcQueues]
    | enqueuePacket packet => exact trivial
    | arbitrate => exact trivial
    | restoreCredits vc credits => exact trivial
  · rintro keeps before rest state rfl reached
    have both : Ordered state ∧ Eligible state := by
      apply runPartial_invariant (fun state => Ordered state ∧ Eligible state)
        ⟨ordered_start packets, eligible_start packets⟩
        (fun next state made => keeps next state (made.append rest)) _ reached
      exact fun next state after kept meets called =>
        ⟨kept.1.call called, kept.2.call kept.1.inRange meets called⟩
    exact both.2

/-- Channel 0 is disabled, and then accepts a packet. -/
theorem not_eligible_throughout_disabled :
    ¬ ∀ (fuel : Nat) (packets : PacketPtr → PCIePacket) (calls : List Call) (final : Traffic),
      runPartial (call fuel) calls (.start packets) = some final →
        ∀ vc, vc < 8 → final.engine.vcQueues vc ≠ [] →
          (final.engine.vcResources vc).enabled = true := by
  intro always
  have stranded : ∀ final ∈ runPartial (call 0)
      [.configureVC 0 false 7 4 .strictPriority, .enqueuePacket 0] (.start fun _ => ⟨0, 0⟩),
      final.engine.vcQueues 0 ≠ [] ∧ (final.engine.vcResources 0).enabled = false := by
    decide +kernel
  obtain ⟨final, reached⟩ := Option.isSome_iff_exists.mp
    (by decide : (runPartial (call 0)
      [.configureVC 0 false 7 4 .strictPriority, .enqueuePacket 0]
      (.start fun _ => ⟨0, 0⟩)).isSome = true)
  rcases stranded final reached with ⟨queued, disabled⟩
  have enabled := always _ _ _ final reached 0 (by decide) queued
  exact Bool.false_ne_true (disabled.symm.trans enabled)

end SystemcTlm.PcieVc
