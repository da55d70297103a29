import SystemcTlm.Pci.Enumeration
import SystemcTlm.Tree.Descendants

/-!
# Bus numbering

What an enumeration guarantees once it has enough bus numbers: the numbers are
consistent, and they are enough exactly if on the buses up to some bus there are
no more bridges than that bus has numbers below it.  What it misses: the
functions 1 to 7 of a device whose function 0 is a bridge, and the buses behind
bridges at these functions.
-/

namespace SystemcTlm.Pci

/-- The buses from the secondary to the subordinate one. -/
def PCIDevice.busRange (bridge : PCIDevice) : Set Nat :=
  Set.Icc bridge.secondaryBus bridge.subordinateBus

namespace PCIEnumerator

open SystemcTlm.Tree

variable {config : ConfigSpace} {state : PCIEnumerator}

/-! ## Consistent ranges -/

/-- The bus `child` is directly behind a configured bridge on the bus `parent`. -/
def leadsTo (state : PCIEnumerator) (parent child : Nat) : Prop :=
  ∃ assignment ∈ state.configured, assignment.bus = parent ∧ assignment.secondary = child

/-- What a configured bridge shows, in its record and in its registers. -/
structure ConsistentBridge (state : PCIEnumerator) (bridge : PCIDevice) : Prop where
  isBridge : bridge.isBridge = true
  primary : bridge.primaryBus = bridge.bus
  range : bridge.busRange = descendants (leadsTo state) bridge.secondaryBus
  readPrimary : readConfigByte state.configSpace bridge.bus bridge.device bridge.function
    pciPrimaryBus = bridge.primaryBus
  readSecondary : readConfigByte state.configSpace bridge.bus bridge.device bridge.function
    pciSecondaryBus = bridge.secondaryBus
  readSubordinate : readConfigByte state.configSpace bridge.bus bridge.device bridge.function
    pciSubordinateBus = bridge.subordinateBus

section Consistent

/-- The buses behind a bridge are those from its secondary to its subordinate
bus. -/
theorem Enumerated.descendants_eq (enumerated : Enumerated config state)
    {assignment : Assignment} {subordinate : Nat}
    (encloses : Encloses state.configured state.lastBusNumber assignment subordinate) :
    descendants (leadsTo state) assignment.secondary =
      Set.Icc assignment.secondary subordinate := by
  apply descendants_eq_Icc encloses.first_le
  · rintro parent child ⟨other, member, rfl, rfl⟩ inside
    rcases (encloses.closed other member).mp inside with ⟨later, within⟩
    exact ⟨later.le, within⟩
  · intro child inside
    have first := encloses.first_le
    have last := encloses.le_last
    have number : child ∈ state.configured.map Assignment.secondary := by
      rw [enumerated.secondaries, List.mem_range'_1]
      rcases inside with ⟨lower, upper⟩
      omega
    rcases List.mem_map.mp number with ⟨other, member, rfl⟩
    rcases (encloses.closed other member).mpr inside with ⟨lower, upper⟩
    exact ⟨other.bus, ⟨lower, enumerated.below other member⟩, other, member, rfl, rfl⟩

theorem Enumerated.nodup_places (enumerated : Enumerated config state) :
    (state.discoveredDevices.map PCIDevice.place).Nodup :=
  enumerated.functions.nodup_iff.mpr (nodup_buses (keyed_functionsAt config) List.nodup_range)

/-- Every configured bridge has a record. -/
theorem Enumerated.exists_bridge (enumerated : Enumerated config state)
    {assignment : Assignment} (member : assignment ∈ state.configured) :
    ∃ bridge ∈ state.discoveredDevices, bridge.place = assignment.place ∧
      bridge.secondaryBus = assignment.secondary ∧ ConsistentBridge state bridge := by
  rcases enumerated.settled assignment member with ⟨subordinate, recorded, encloses⟩
  rcases recorded.bridge with ⟨bridge, listed, place, primary, secondary, last⟩
  rcases (place_eq_iff bridge).mp place with ⟨onBus, onDevice, function⟩
  have onBus : bridge.bus = assignment.bus := onBus
  have onDevice : bridge.device = assignment.device := onDevice
  have function : bridge.function = assignment.function := function
  rcases mem_onBus_bridgeAt_iff.mp (enumerated.place_mem member) with ⟨-, -, first, isBridge⟩
  have first : assignment.function = 0 := first
  refine ⟨bridge, listed, place, secondary, ?_⟩
  exact {
    isBridge := by
      rw [enumerated.probed bridge listed, onBus, onDevice, function, first]
      exact isBridge
    primary := primary.trans onBus.symm
    range := by
      rw [PCIDevice.busRange, secondary, last]
      exact (enumerated.descendants_eq encloses).symm
    readPrimary := by
      rw [onBus, onDevice, function, primary]
      exact recorded.primary
    readSecondary := by
      rw [onBus, onDevice, function, secondary]
      exact recorded.secondary
    readSubordinate := by
      rw [onBus, onDevice, function, last]
      exact recorded.subordinate }

/-- Two ranges are nested or disjoint. -/
theorem ConsistentBridge.nested_or_disjoint {first second : PCIDevice}
    (consistent : ConsistentBridge state first) (consistent' : ConsistentBridge state second) :
    first.busRange ⊆ second.busRange ∨ second.busRange ⊆ first.busRange ∨
      ∀ bus ∈ first.busRange, bus ∉ second.busRange :=
  descendants_nested_or_disjoint consistent.range.symm consistent'.range.symm

end Consistent

/-- If at most 255 bus numbers are given out, the enumeration returns, discovers
no function twice, gives out the numbers 1 to the last once each, and leaves
every bridge it has configured with the range of the buses behind it. -/
theorem enumeration_consistent (config : ConfigSpace)
    (bounded : ∀ fuel, (enumerateSystem fuel config).state.configured.length ≤ 255) :
    ∃ maxBus state, (∀ fuel, 256 ≤ fuel → enumerateSystem fuel config = .done maxBus state) ∧
      (state.discoveredDevices.map PCIDevice.place).Nodup ∧
      state.configured.map Assignment.secondary = List.range' 1 state.lastBusNumber ∧
      (∀ assignment ∈ state.configured, ∃ bridge ∈ state.discoveredDevices,
        bridge.place = assignment.place ∧ bridge.secondaryBus = assignment.secondary ∧
          ConsistentBridge state bridge) ∧
      ∀ first second, ConsistentBridge state first → ConsistentBridge state second →
        first.busRange ⊆ second.busRange ∨ second.busRange ⊆ first.busRange ∨
          ∀ bus ∈ first.busRange, bus ∉ second.busRange := by
  rcases enumerated_of_bounded bounded with ⟨now, returns, enumerated⟩
  refine ⟨now.lastBusNumber, now, returns, enumerated.nodup_places, enumerated.secondaries, ?_, ?_⟩
  · exact fun assignment member => enumerated.exists_bridge member
  · exact fun first second => ConsistentBridge.nested_or_disjoint

/-- A bridge on bus 0, and one behind it. -/
def twoBridges : ConfigSpace :=
  setupDevice 1 0 0 0x0002 0x5678 0x01 (setupDevice 0 3 0 0x0001 0x1234 0x01 ⟨fun _ => none⟩)

theorem enumeration_consistent_two_bridges :
    bridgeCount twoBridges 2 = 2 ∧ ∃ maxBus state, enumerateSystem 256 twoBridges =
      .done maxBus state ∧
        state.configured.map Assignment.secondary = List.range' 1 state.lastBusNumber := by
  have count : bridgeCount twoBridges 2 = 2 := by decide +kernel
  refine ⟨count, ?_⟩
  obtain ⟨maxBus, state, returns, -, numbers, -⟩ := enumeration_consistent twoBridges
    (bounded_of_bridgeCount (show 2 ≤ 255 by decide) count.le)
  exact ⟨maxBus, state, returns 256 (le_refl _), numbers⟩

/-! ## Enough numbers -/

/-- The enumeration returns, and enters no bus twice. -/
def ReturnsOnce (config : ConfigSpace) : Prop :=
  ∃ fuel maxBus state, enumerateSystem fuel config = .done maxBus state ∧ state.scanned.Nodup

/-- If every bus needs one more number, the enumeration does not return, or it
enters a bus twice. -/
theorem not_returnsOnce_of_reaches (reaches : Reaches config 256) : ¬ ReturnsOnce config := by
  rintro ⟨fuel, maxBus, state, returns, once⟩
  rcases enumerateSystem_ends fuel config with explores | ⟨now, running, -⟩ | overflowed
  · rcases enumerated_of_explores explores with ⟨now, -, enumerated⟩
    have further := reaches now.lastBusNumber (Nat.lt_succ_of_le enumerated.last_le)
    rw [enumerated.bridgeCount_eq] at further
    exact Nat.lt_irrefl _ further
  · rw [running] at returns
    exact Outcome.noConfusion returns
  · exact overflowed.twice maxBus state returns once

/-- The enumeration returns and enters each bus at most once exactly if there is a
bus, among the 256, up to which there are no more bridges than its number. -/
theorem returnsOnce_iff (config : ConfigSpace) :
    ReturnsOnce config ↔ ∃ bus ≤ 255, bridgeCount config bus ≤ bus := by
  constructor
  · intro returns
    by_contra never
    apply not_returnsOnce_of_reaches _ returns
    intro bus bound
    by_contra few
    exact never ⟨bus, Nat.lt_succ_iff.mp bound, Nat.not_lt.mp few⟩
  · rintro ⟨bus, bound, few⟩
    rcases enumerated_of_bounded (bounded_of_bridgeCount bound few) with ⟨now, returns, enumerated⟩
    refine ⟨256, now.lastBusNumber, now, returns 256 (le_refl _), ?_⟩
    rw [enumerated.scanned]
    exact List.nodup_range

/-- A bridge at the first device of each of the 256 buses. -/
def bridgeOnEveryBus : ConfigSpace where
  find := fun address =>
    if address % 0x10000 = makeConfigAddress 0 0 0 pciVendorId then some 0x12340001
    else if address % 0x10000 = makeConfigAddress 0 0 0 pciHeaderType then some 0x00010000
    else none

theorem not_returnsOnce_bridgeOnEveryBus : ¬ ReturnsOnce bridgeOnEveryBus := by
  have everywhere : ∀ bus < 256, isBridgeAt bridgeOnEveryBus bus 0 0 = true := by decide +kernel
  rintro ⟨fuel, maxBus, state, returns, -⟩
  obtain ⟨now, running⟩ := enumerateBus_running everywhere fuel (show 0 < 256 by decide)
    (ready_initial bridgeOnEveryBus).headers
  rw [enumerateSystem, running] at returns
  exact Outcome.noConfusion returns

/-! ## Completeness -/

/-- On every bus that has been entered, every device is discovered, and every
function of a multifunction device; and every bridge that is discovered has a
secondary bus, which has been entered. -/
structure Complete (config : ConfigSpace) (state : PCIEnumerator) : Prop where
  devices : ∀ bus ∈ state.scanned, ∀ device < 32, deviceExists config bus device 0 = true →
    (bus, device, 0) ∈ state.discoveredDevices.map PCIDevice.place
  functions : ∀ bus ∈ state.scanned, ∀ device < 32, deviceExists config bus device 0 = true →
    isMultifunctionAt config bus device 0 = true → ∀ function ∈ furtherFunctions config bus device,
      (bus, device, function) ∈ state.discoveredDevices.map PCIDevice.place
  bridges : ∀ found ∈ state.discoveredDevices, found.isBridge = true →
    ∃ assignment ∈ state.configured, assignment.place = found.place ∧
      assignment.secondary ∈ state.scanned

/-- The multifunction devices of the bus have nothing that the scan passes over:
no functions beside a bridge at function 0, and no bridge at another function. -/
def PlainMultifunction (config : ConfigSpace) (bus : Nat) : Prop :=
  ∀ device < 32, deviceExists config bus device 0 = true →
    isMultifunctionAt config bus device 0 = true →
      (isBridgeAt config bus device 0 = true → furtherFunctions config bus device = []) ∧
      ∀ function ∈ furtherFunctions config bus device,
        isBridgeAt config bus device function = false

instance (config : ConfigSpace) (bus : Nat) : Decidable (PlainMultifunction config bus) :=
  inferInstanceAs (Decidable (∀ device < 32, deviceExists config bus device 0 = true →
    isMultifunctionAt config bus device 0 = true →
      (isBridgeAt config bus device 0 = true → furtherFunctions config bus device = []) ∧
      ∀ function ∈ furtherFunctions config bus device,
        isBridgeAt config bus device function = false))

section Complete

/-- The buses that are entered. -/
theorem Enumerated.mem_scanned_iff (enumerated : Enumerated config state) {bus : Nat} :
    bus ∈ state.scanned ↔ Reaches config bus := by
  rw [enumerated.scanned, List.mem_range, Nat.lt_succ_iff]
  constructor
  · intro inside earlier before
    exact enumerated.reaches earlier (before.trans_le inside)
  · intro reaches
    by_contra beyond
    have further := reaches state.lastBusNumber (Nat.not_le.mp beyond)
    rw [enumerated.bridgeCount_eq] at further
    exact Nat.lt_irrefl _ further

/-- What is discovered on a bus that is entered. -/
theorem Enumerated.mem_places_iff (enumerated : Enumerated config state)
    {bus device function : Nat} :
    (bus, device, function) ∈ state.discoveredDevices.map PCIDevice.place ↔
      bus ∈ state.scanned ∧ device < 32 ∧
        (bus, device, function) ∈ functionsAt config bus device := by
  rw [enumerated.functions.mem_iff, enumerated.scanned, List.mem_flatMap]
  constructor
  · rintro ⟨bus', entered, found⟩
    rcases mem_onBus (keyed_functionsAt config) found with ⟨sameBus, valid, listed⟩
    have sameBus : bus = bus' := sameBus
    subst sameBus
    exact ⟨entered, valid, listed⟩
  · rintro ⟨entered, valid, listed⟩
    exact ⟨bus, entered, List.mem_flatMap.mpr ⟨device, List.mem_range.mpr valid, listed⟩⟩

/-- The enumeration of the first functions is complete in any case. -/
theorem Enumerated.devices (enumerated : Enumerated config state) {bus device : Nat}
    (entered : bus ∈ state.scanned) (valid : device < 32)
    (present : deviceExists config bus device 0 = true) :
    (bus, device, 0) ∈ state.discoveredDevices.map PCIDevice.place :=
  enumerated.mem_places_iff.mpr
    ⟨entered, valid, mem_functionsAt_iff.mpr ⟨present, Or.inl rfl⟩⟩

/-- A bridge at function 0 that is discovered gets a bus. -/
theorem Enumerated.assigned (enumerated : Enumerated config state) {bus device : Nat}
    (entered : bus ∈ state.scanned) (valid : device < 32)
    (isBridge : isBridgeAt config bus device 0 = true) :
    ∃ assignment ∈ state.configured, assignment.place = (bus, device, 0) ∧
      assignment.secondary ∈ state.scanned := by
  have known : (bus, device, 0) ∈ state.configured.map Assignment.place := by
    rw [enumerated.bridges.mem_iff, List.mem_flatMap, ← enumerated.scanned]
    exact ⟨bus, entered, mem_onBus_bridgeAt_iff.mpr ⟨rfl, valid, rfl, isBridge⟩⟩
  rcases List.mem_map.mp known with ⟨assignment, member, place⟩
  refine ⟨assignment, member, place, ?_⟩
  have number := List.mem_map_of_mem (f := Assignment.secondary) member
  rw [enumerated.secondaries, List.mem_range'_1] at number
  rw [enumerated.scanned, List.mem_range]
  omega

/-- An enumeration is complete exactly if no bus it enters has a multifunction
device that is scanned in part. -/
theorem Enumerated.complete_iff (enumerated : Enumerated config state) :
    Complete config state ↔ ∀ bus, Reaches config bus → PlainMultifunction config bus := by
  constructor
  · intro complete bus reaches device valid present multifunction
    have entered := enumerated.mem_scanned_iff.mpr reaches
    have listed := complete.functions bus entered device valid present multifunction
    constructor
    · intro isBridge
      rw [List.eq_nil_iff_forall_not_mem]
      intro function further
      obtain ⟨-, -, -, first | ⟨noBridge, -⟩⟩ := by
        have known := (enumerated.mem_places_iff.mp (listed function further))
        rwa [mem_functionsAt_iff] at known
      · exact furtherFunctions_ne_zero further first
      · rw [isBridge] at noBridge
        exact Bool.noConfusion noBridge
    · intro function further
      by_contra isBridge
      rw [Bool.not_eq_false] at isBridge
      rcases List.mem_map.mp (listed function further) with ⟨found, discovered, place⟩
      rcases (place_eq_iff found).mp place with ⟨onBus, onDevice, sameFunction⟩
      have marked := enumerated.probed found discovered
      rw [onBus, onDevice, sameFunction, isBridge] at marked
      rcases complete.bridges found discovered marked with ⟨assignment, member, samePlace, -⟩
      have known := mem_onBus_bridgeAt_iff.mp (enumerated.place_mem member)
      rw [samePlace, place] at known
      exact furtherFunctions_ne_zero further known.2.2.1
  · intro plain
    have plain : ∀ bus ∈ state.scanned, PlainMultifunction config bus :=
      fun bus entered => plain bus (enumerated.mem_scanned_iff.mp entered)
    constructor
    · exact fun bus entered device valid present => enumerated.devices entered valid present
    · intro bus entered device valid present multifunction function further
      have noBridge : isBridgeAt config bus device 0 = false := by
        by_contra isBridge
        rw [Bool.not_eq_false] at isBridge
        have nothing := (plain bus entered device valid present multifunction).1 isBridge
        rw [nothing] at further
        exact List.not_mem_nil further
      rw [enumerated.mem_places_iff, mem_functionsAt_iff]
      exact ⟨entered, valid, present, Or.inr ⟨noBridge, multifunction, further⟩⟩
    · intro found discovered marked
      have listed : (found.bus, found.device, found.function) ∈
          state.discoveredDevices.map PCIDevice.place := List.mem_map_of_mem discovered
      rw [enumerated.mem_places_iff, mem_functionsAt_iff] at listed
      rcases listed with ⟨entered, valid, present, first | ⟨-, multifunction, further⟩⟩
      · rw [enumerated.probed found discovered, first] at marked
        rw [PCIDevice.place, first]
        exact enumerated.assigned entered valid marked
      · have noBridge := (plain found.bus entered found.device valid present multifunction).2
          found.function further
        rw [enumerated.probed found discovered, noBridge] at marked
        exact Bool.noConfusion marked

end Complete

/-- If at most 255 bus numbers are given out, the enumeration is complete exactly
if no bus that the numbering reaches has a multifunction device with functions
beside a bridge at function 0, or with a bridge at another function. -/
theorem enumeration_complete_iff (config : ConfigSpace)
    (bounded : ∀ fuel, (enumerateSystem fuel config).state.configured.length ≤ 255) :
    (∃ fuel maxBus state, enumerateSystem fuel config = .done maxBus state ∧
        Complete config state) ↔
      ∀ bus, Reaches config bus → PlainMultifunction config bus := by
  constructor
  · rintro ⟨fuel, maxBus, state, returns, complete⟩
    exact (enumerated_of_done bounded returns).complete_iff.mp complete
  · intro plain
    rcases enumerated_of_bounded bounded with ⟨now, returns, enumerated⟩
    exact ⟨256, now.lastBusNumber, now, returns 256 (le_refl _), enumerated.complete_iff.mpr plain⟩

theorem enumeration_complete_iff_two_bridges :
    ∃ fuel maxBus state, enumerateSystem fuel twoBridges = .done maxBus state ∧
      Complete twoBridges state := by
  have count : bridgeCount twoBridges 2 = 2 := by decide +kernel
  have plain : ∀ bus ≤ 2, PlainMultifunction twoBridges bus := by decide +kernel
  apply (enumeration_complete_iff twoBridges
    (bounded_of_bridgeCount (show 2 ≤ 255 by decide) count.le)).mpr
  intro bus reaches
  apply plain
  by_contra beyond
  have further := reaches 2 (Nat.not_le.mp beyond)
  omega

/-- A bridge and an endpoint on one multifunction device. -/
def multifunctionBridge : ConfigSpace :=
  setupDevice 0 0 1 0x0002 0x5678 0x00 (setupDevice 0 0 0 0x0001 0x1234 0x81 ⟨fun _ => none⟩)

theorem not_complete_multifunctionBridge :
    (∀ fuel, (enumerateSystem fuel multifunctionBridge).state.configured.length ≤ 255) ∧
      ¬ ∃ fuel maxBus state, enumerateSystem fuel multifunctionBridge = .done maxBus state ∧
        Complete multifunctionBridge state := by
  have count : bridgeCount multifunctionBridge 1 = 1 := by decide +kernel
  have bounded := bounded_of_bridgeCount (show 1 ≤ 255 by decide) count.le
  have scannedInPart : ¬ PlainMultifunction multifunctionBridge 0 := by decide +kernel
  refine ⟨bounded, ?_⟩
  rintro ⟨fuel, maxBus, state, returns, complete⟩
  apply scannedInPart
  apply (enumerated_of_done bounded returns).complete_iff.mp complete
  exact fun earlier before => absurd before (Nat.not_lt_zero earlier)

end PCIEnumerator

end SystemcTlm.Pci
