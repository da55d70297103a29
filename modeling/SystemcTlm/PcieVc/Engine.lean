import SystemcTlm.Loop.Range
import SystemcTlm.Loop.Scan
import Mathlib.Logic.Function.Basic

/-!
# `VCArbitrationEngine`

Packets wait in one queue for each virtual channel, which credits bound, and
`arbitrate` takes one of them by the scheme of the first channel that is enabled
and not empty.  A packet is an object that the caller shares with the engine:
`enqueuePacket` writes its channel into it.

The weighted scheme calls itself again after it has reset its counters, and the
fuel counts these calls.
-/

namespace SystemcTlm.PcieVc

open SystemcTlm.Loop

/-- `ArbitrationScheme` -/
inductive ArbitrationScheme
  | strictPriority
  | roundRobin
  | weightedRoundRobin
  | timeBased
  deriving DecidableEq

/-- The fields of a packet that decide where it goes. -/
structure PCIePacket where
  tc : Nat
  vc : Nat

/-- `std::shared_ptr<PCIePacket>`, as the number of the object. -/
abbrev PacketPtr :=
  Nat

/-- `VCResource`, the configuration and the credits of a channel. -/
structure VCResource where
  enabled : Bool
  priority : UInt8
  weight : UInt16
  maxCredits : Nat
  currentCredits : Nat
  scheme : ArbitrationScheme

/-- The constructor. -/
def VCResource.new (prio : UInt8) (w : UInt16) : VCResource where
  enabled := true
  priority := prio
  weight := w
  maxCredits := 256
  currentCredits := 256
  scheme := .strictPriority

/-- The engine and the packet objects.  The keys of its maps are the channels
below `8`. -/
structure VCArbitrationEngine where
  vcResources : Nat → VCResource
  vcQueues : Nat → List PacketPtr
  lastServedVc : Nat
  rrCounters : Nat → Nat
  /-- The packets that `packets_served` counts. -/
  packetsServed : Nat → List PacketPtr
  packets : PacketPtr → PCIePacket

/-- `mapTCtoVC`.  A class without a channel of its own goes to channel 0. -/
def mapTCtoVC (tc : Nat) : Nat :=
  if tc < 8 then tc else 0

namespace VCArbitrationEngine

/-- The constructor, over the packets that will be made. -/
def initializeVCs (packets : PacketPtr → PCIePacket) : VCArbitrationEngine where
  vcResources vc :=
    if vc = 0 then VCResource.new 7 4
    else { VCResource.new (UInt8.ofNat (7 - vc)) 1 with enabled := false }
  vcQueues _ := []
  lastServedVc := 0
  rrCounters _ := 0
  packetsServed _ := []
  packets := packets

/-- `configureVC`, and whether there is such a channel. -/
def configureVC (vc : Nat) (enable : Bool) (priority : UInt8) (weight : UInt16)
    (scheme : ArbitrationScheme) (engine : VCArbitrationEngine) : Bool × VCArbitrationEngine :=
  if vc < 8 then
    (true, { engine with
      vcResources := Function.update engine.vcResources vc
        { engine.vcResources vc with
          enabled := enable
          priority := priority
          weight := weight
          scheme := scheme } })
  else (false, engine)

/-- `target_vc` of `enqueuePacket`. -/
def targetVc (packet : PacketPtr) (engine : VCArbitrationEngine) : Nat :=
  let mapped := mapTCtoVC (engine.packets packet).tc
  if (engine.vcResources mapped).enabled then mapped else 0

/-- `enqueuePacket`, and whether a credit was left for the packet. -/
def enqueuePacket (packet : PacketPtr) (engine : VCArbitrationEngine) :
    Bool × VCArbitrationEngine :=
  let target := engine.targetVc packet
  let resource := engine.vcResources target
  if resource.currentCredits = 0 then (false, engine)
  else
    (true, { engine with
      packets := Function.update engine.packets packet
        { engine.packets packet with vc := target }
      vcQueues := Function.update engine.vcQueues target (engine.vcQueues target ++ [packet])
      vcResources := Function.update engine.vcResources target
        { resource with currentCredits := resource.currentCredits - 1 } })

/-- `dequeueFromVC`.  The credit is not given back. -/
def dequeueFromVC (vc : Nat) (engine : VCArbitrationEngine) :
    Option PacketPtr × VCArbitrationEngine :=
  match engine.vcQueues vc with
  | [] => (none, engine)
  | packet :: rest =>
      (some packet, { engine with
        vcQueues := Function.update engine.vcQueues vc rest
        packetsServed :=
          Function.update engine.packetsServed vc (engine.packetsServed vc ++ [packet]) })

/-- `resource->enabled && !vc_queues[vc].empty()` -/
def ready (engine : VCArbitrationEngine) (vc : Nat) : Bool :=
  (engine.vcResources vc).enabled && !(engine.vcQueues vc).isEmpty

/-- The variables `selected_vc`, `highest_priority` and `found`. -/
structure Selection where
  selectedVc : Nat
  highestPriority : UInt8
  found : Bool

/-- One pass of the loop of `arbitrateStrictPriority`. -/
def selectPass (engine : VCArbitrationEngine) (vc : Nat) (selection : Selection) : Selection :=
  if engine.ready vc then
    if selection.highestPriority < (engine.vcResources vc).priority ∨ selection.found = false then
      ⟨vc, (engine.vcResources vc).priority, true⟩
    else selection
  else selection

/-- `arbitrateStrictPriority` -/
def arbitrateStrictPriority (engine : VCArbitrationEngine) :
    Option PacketPtr × VCArbitrationEngine :=
  let selection := forRange 8 engine.selectPass ⟨0, 0, false⟩
  if selection.found then engine.dequeueFromVC selection.selectedVc else (none, engine)

/-- `arbitrateRoundRobin` -/
def arbitrateRoundRobin (engine : VCArbitrationEngine) :
    Option PacketPtr × VCArbitrationEngine :=
  match scan 8 engine.ready ((engine.lastServedVc + 1) % 8) with
  | some vc => { engine with lastServedVc := vc }.dequeueFromVC vc
  | none => (none, engine)

/-- The first channel that is ready and has not used up its weight. -/
def unspent (engine : VCArbitrationEngine) : Option Nat :=
  (List.range 8).find? fun vc =>
    engine.ready vc && engine.rrCounters vc < (engine.vcResources vc).weight.toNat

/-- `arbitrateWeightedRoundRobin`.  When all weights are used up the counters are
reset and the call is made again. -/
def arbitrateWeightedRoundRobin :
    Nat → VCArbitrationEngine → Option (Option PacketPtr × VCArbitrationEngine)
  | 0, _ => none
  | fuel + 1, engine =>
      match engine.unspent with
      | some vc =>
          some (dequeueFromVC vc { engine with
            rrCounters := Function.update engine.rrCounters vc (engine.rrCounters vc + 1) })
      | none => arbitrateWeightedRoundRobin fuel { engine with rrCounters := fun _ => 0 }

/-- The channel whose scheme is used. -/
def firstReady (engine : VCArbitrationEngine) : Option Nat :=
  (List.range 8).find? engine.ready

/-- The scheme of that channel, or the strict one. -/
def selectedScheme (engine : VCArbitrationEngine) : ArbitrationScheme :=
  match engine.firstReady with
  | some vc => (engine.vcResources vc).scheme
  | none => .strictPriority

/-- `arbitrate` -/
def arbitrate (fuel : Nat) (engine : VCArbitrationEngine) :
    Option (Option PacketPtr × VCArbitrationEngine) :=
  match engine.selectedScheme with
  | .strictPriority => some engine.arbitrateStrictPriority
  | .roundRobin => some engine.arbitrateRoundRobin
  | .weightedRoundRobin => engine.arbitrateWeightedRoundRobin fuel
  | .timeBased => some engine.arbitrateStrictPriority

/-- The credits are `uint32_t`.  There is no resource to write for a channel
that is not a key. -/
def restoreCredits (vc : Nat) (credits : UInt32) (engine : VCArbitrationEngine) :
    Option VCArbitrationEngine :=
  if vc < 8 then
    let resource := engine.vcResources vc
    some { engine with
      vcResources := Function.update engine.vcResources vc
        { resource with
          currentCredits :=
            min ((resource.currentCredits + credits.toNat) % 0x100000000) resource.maxCredits } }
  else none

/-! ## What an arbitration does -/

variable {engine after : VCArbitrationEngine}

theorem ready_iff (vc : Nat) :
    engine.ready vc = true ↔ (engine.vcResources vc).enabled = true ∧ engine.vcQueues vc ≠ [] := by
  simp [ready]

/-- `packet` has been taken from the queue of `vc`. -/
structure Dequeued (engine : VCArbitrationEngine) (vc : Nat) (packet : PacketPtr)
    (after : VCArbitrationEngine) : Prop where
  bound : vc < 8
  ready : engine.ready vc = true
  front : engine.vcQueues vc = packet :: after.vcQueues vc
  others : ∀ other, other ≠ vc → after.vcQueues other = engine.vcQueues other
  served : after.packetsServed =
    Function.update engine.packetsServed vc (engine.packetsServed vc ++ [packet])
  resources : after.vcResources = engine.vcResources
  packets : after.packets = engine.packets
  lastServed : after.lastServedVc < 8

/-- The dequeue of a ready channel, after the counters and the pointer have
moved. -/
theorem dequeueFromVC_of_ready {vc : Nat} (bound : vc < 8) (ready : engine.ready vc = true)
    {last : Nat} (lastBound : last < 8) (counters : Nat → Nat) :
    ∃ packet after,
      dequeueFromVC vc { engine with lastServedVc := last, rrCounters := counters } =
        (some packet, after) ∧ Dequeued engine vc packet after := by
  have waiting := ((ready_iff vc).mp ready).2
  cases queued : engine.vcQueues vc with
  | nil => exact absurd queued waiting
  | cons packet rest =>
      have dequeued :
          dequeueFromVC vc { engine with lastServedVc := last, rrCounters := counters } =
            (some packet, { engine with
              lastServedVc := last
              rrCounters := counters
              vcQueues := Function.update engine.vcQueues vc rest
              packetsServed := Function.update engine.packetsServed vc
                (engine.packetsServed vc ++ [packet]) }) := by
        simp only [dequeueFromVC, queued]
      refine ⟨packet, _, dequeued, bound, ready, ?_, ?_, rfl, rfl, rfl, lastBound⟩
      · dsimp only
        rw [queued, Function.update_self]
      · exact fun other different => Function.update_of_ne different _ _

/-- Nothing has been taken, since no channel is ready. -/
def Idle (engine after : VCArbitrationEngine) : Prop :=
  after = engine ∧ ∀ vc, vc < 8 → engine.ready vc = false

/-- What the schemes have in common. -/
def Arbitrated (engine : VCArbitrationEngine) (result : Option PacketPtr)
    (after : VCArbitrationEngine) : Prop :=
  match result with
  | some packet => ∃ vc, Dequeued engine vc packet after
  | none => Idle engine after

/-- The selection among the channels below `k`. -/
structure Selects (engine : VCArbitrationEngine) (k : Nat) (selection : Selection) : Prop where
  chosen : selection.found = true →
    selection.selectedVc < 8 ∧ engine.ready selection.selectedVc = true
  missed : selection.found = false → ∀ vc, vc < k → engine.ready vc = false

theorem Selects.selectPass {k : Nat} {selection : Selection} (bound : k < 8)
    (selects : Selects engine k selection) :
    Selects engine (k + 1) (engine.selectPass k selection) := by
  rw [VCArbitrationEngine.selectPass]
  split_ifs with ready better
  · exact ⟨fun _ => ⟨bound, ready⟩, fun missed => nomatch missed⟩
  · exact ⟨selects.chosen, fun missed => absurd (Or.inr missed) better⟩
  · refine ⟨selects.chosen, fun missed vc below => ?_⟩
    rcases Nat.lt_succ_iff_lt_or_eq.mp below with earlier | rfl
    · exact selects.missed missed vc earlier
    · simpa using ready

theorem arbitrateStrictPriority_spec (inRange : engine.lastServedVc < 8) :
    Arbitrated engine engine.arbitrateStrictPriority.1 engine.arbitrateStrictPriority.2 := by
  have selects : Selects engine 8 (forRange 8 engine.selectPass ⟨0, 0, false⟩) := by
    apply forRange_induction (Selects engine)
    · exact ⟨fun found => (nomatch found), fun _ vc below => absurd below vc.not_lt_zero⟩
    · exact fun k selection bound selects => selects.selectPass bound
  rw [arbitrateStrictPriority]
  split_ifs with found
  · rcases selects.chosen found with ⟨bound, ready⟩
    obtain ⟨packet, after, dequeued, spec⟩ :=
      dequeueFromVC_of_ready bound ready inRange engine.rrCounters
    rw [dequeued]
    exact ⟨_, spec⟩
  · exact ⟨rfl, selects.missed (by simpa using found)⟩

theorem arbitrateRoundRobin_spec :
    Arbitrated engine engine.arbitrateRoundRobin.1 engine.arbitrateRoundRobin.2 := by
  have startBound : (engine.lastServedVc + 1) % 8 < 8 := Nat.mod_lt _ (by decide)
  rw [arbitrateRoundRobin]
  cases found : scan 8 engine.ready ((engine.lastServedVc + 1) % 8) with
  | none => exact ⟨rfl, (scan_eq_none_iff startBound).mp found⟩
  | some vc =>
      rcases (scan_eq_some_iff startBound).mp found with ⟨bound, ready, -⟩
      obtain ⟨packet, after, dequeued, spec⟩ :=
        dequeueFromVC_of_ready bound ready bound engine.rrCounters
      dsimp only
      rw [dequeued]
      exact ⟨vc, spec⟩

/-- A weighted arbitration that returns has found a channel, in whichever of
its calls. -/
theorem arbitrateWeightedRoundRobin_spec (inRange : engine.lastServedVc < 8) {fuel : Nat}
    {result : Option PacketPtr}
    (returned : engine.arbitrateWeightedRoundRobin fuel = some (result, after)) :
    Arbitrated engine result after := by
  suffices general : ∀ counters : Nat → Nat,
      arbitrateWeightedRoundRobin fuel { engine with rrCounters := counters } =
        some (result, after) → Arbitrated engine result after from
    general engine.rrCounters returned
  clear returned
  induction fuel with
  | zero => exact fun _ returned => nomatch returned
  | succ fuel ih =>
      intro counters returned
      rw [arbitrateWeightedRoundRobin] at returned
      split at returned
      · next vc found =>
          have member := List.mem_range.mp (List.mem_of_find?_eq_some found)
          have hit := List.find?_some found
          rw [Bool.and_eq_true] at hit
          have ready : engine.ready vc = true := hit.1
          obtain ⟨packet, final, dequeued, spec⟩ :=
            dequeueFromVC_of_ready member ready inRange
              (Function.update counters vc (counters vc + 1))
          rw [dequeued] at returned
          cases returned
          exact ⟨vc, spec⟩
      · exact ih _ returned

/-- An arbitration that returns takes the front of a ready channel, or finds
none ready. -/
theorem arbitrate_spec (inRange : engine.lastServedVc < 8) {fuel : Nat}
    {result : Option PacketPtr} (returned : engine.arbitrate fuel = some (result, after)) :
    Arbitrated engine result after := by
  have strict := arbitrateStrictPriority_spec inRange
  rw [arbitrate] at returned
  split at returned
  · rw [Option.some.inj returned] at strict
    exact strict
  · have next := @arbitrateRoundRobin_spec engine
    rw [Option.some.inj returned] at next
    exact next
  · exact arbitrateWeightedRoundRobin_spec inRange returned
  · rw [Option.some.inj returned] at strict
    exact strict

theorem arbitrateWeightedRoundRobin_mono {fuel more : Nat} (enough : fuel ≤ more)
    {returned : Option PacketPtr × VCArbitrationEngine}
    (returns : engine.arbitrateWeightedRoundRobin fuel = some returned) :
    engine.arbitrateWeightedRoundRobin more = some returned := by
  induction fuel generalizing engine more with
  | zero => cases returns
  | succ fuel ih =>
      cases more with
      | zero => exact absurd enough (Nat.not_succ_le_zero fuel)
      | succ more =>
          rw [arbitrateWeightedRoundRobin] at returns ⊢
          split at returns
          · exact returns
          · exact ih (Nat.le_of_succ_le_succ enough) returns

/-- Whether an arbitration returns depends on the fuel, but not what it
returns. -/
theorem arbitrate_mono {fuel more : Nat} (enough : fuel ≤ more)
    {returned : Option PacketPtr × VCArbitrationEngine}
    (returns : engine.arbitrate fuel = some returned) : engine.arbitrate more = some returned := by
  unfold arbitrate at returns ⊢
  split
  · next scheme => rwa [scheme] at returns
  · next scheme => rwa [scheme] at returns
  · next scheme =>
      rw [scheme] at returns
      exact arbitrateWeightedRoundRobin_mono enough returns
  · next scheme => rwa [scheme] at returns

end VCArbitrationEngine

end SystemcTlm.PcieVc
