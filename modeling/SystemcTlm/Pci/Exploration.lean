import SystemcTlm.Pci.Topology
import Mathlib.Data.List.Perm.Lattice

/-!
# One bus of the enumeration

`Progress` is what holds after some devices of a bus: the numbers given out
since the bus was entered are consecutive, the buses behind a bridge are the
interval from its secondary to its subordinate bus, and the numbers stand in the
bridge's record and in its registers.  A device without a bridge adds what it
has; a bridge adds itself and all that the enumeration of its bus has added.
-/

namespace SystemcTlm.Pci

/-- Bus, device and function of the bridge. -/
def Assignment.place (assignment : Assignment) : Place :=
  (assignment.bus, assignment.device, assignment.function)

/-- The dword of the bus number registers. -/
def Assignment.address (assignment : Assignment) : Nat :=
  makeConfigAddress assignment.bus assignment.device assignment.function pciPrimaryBus

/-- Bridges at different places have different registers. -/
theorem Assignment.place_eq_of_address_eq {first second : Assignment}
    (valid : first.device < 32 ∧ first.function = 0)
    (valid' : second.device < 32 ∧ second.function = 0) (same : first.address = second.address) :
    first.place = second.place := by
  obtain ⟨bus, device, function, -⟩ := makeConfigAddress_injective valid.1 (by omega) (by decide)
    valid'.1 (by omega) (by decide) same
  rw [Assignment.place, Assignment.place, bus, device, function]

/-- The registers of a bridge are none of the headers. -/
theorem Assignment.address_ne_header {assignment : Assignment}
    (valid : assignment.device < 32 ∧ assignment.function = 0) {bus device function offset : Nat}
    (validDevice : device < 32) (validFunction : function < 8) (validOffset : offset < 256)
    (header : offset &&& 0xFC ≠ 0x18) :
    makeConfigAddress bus device function offset ≠ assignment.address := by
  intro same
  obtain ⟨-, -, -, aligned⟩ := makeConfigAddress_injective validDevice validFunction validOffset
    valid.1 (by omega) (by decide) same
  exact header aligned

/-! ## Numbers given out -/

/-- If bridges below their secondary buses have the numbers `1` to `count`, no
earlier bus is the last. -/
theorem reaches_of_assigned {config : ConfigSpace} {assigned : List Assignment} {count : Nat}
    (secondaries : assigned.map Assignment.secondary = List.range' 1 count)
    (below : ∀ assignment ∈ assigned, assignment.bus < assignment.secondary)
    (bridges : ∀ assignment ∈ assigned,
      assignment.place ∈ onBus (bridgeAt config) assignment.bus)
    (distinct : (assigned.map Assignment.place).Nodup) : Reaches config count := by
  intro bus earlier
  have size : assigned.length = count := by
    rw [← List.length_map, secondaries, List.length_range']
  have known : (assigned.take (bus + 1)).map Assignment.place ⊆
      (List.range (bus + 1)).flatMap (onBus (bridgeAt config)) := by
    intro place member
    rcases List.mem_map.mp member with ⟨assignment, taken, rfl⟩
    have number : assignment.secondary ∈ (List.range' 1 count).take (bus + 1) := by
      rw [← secondaries, ← List.map_take]
      exact List.mem_map_of_mem taken
    rw [List.take_range'_of_length_ge earlier, List.mem_range'_1] at number
    have inside := List.mem_of_mem_take taken
    have lower := below assignment inside
    rw [List.mem_flatMap]
    exact ⟨assignment.bus, List.mem_range.mpr (by omega), bridges assignment inside⟩
  have different : ((assigned.take (bus + 1)).map Assignment.place).Nodup :=
    distinct.sublist ((List.take_sublist _ _).map _)
  have enough := (List.subperm_of_subset different known).length_le
  rw [List.length_map, List.length_take, size] at enough
  rw [bridgeCount]
  omega

/-- The state between calls, as far as earlier calls determine it. -/
structure Ready (config : ConfigSpace) (state : PCIEnumerator) : Prop where
  headers : SameHeaders config state.configSpace
  secondaries : state.configured.map Assignment.secondary =
    List.range' 1 state.lastBusNumber
  below : ∀ assignment ∈ state.configured, assignment.bus < assignment.secondary
  bridges : ∀ assignment ∈ state.configured,
    assignment.place ∈ onBus (bridgeAt config) assignment.bus
  distinct : (state.configured.map Assignment.place).Nodup

section Ready

variable {config : ConfigSpace} {state : PCIEnumerator}

theorem Ready.length_configured (ready : Ready config state) :
    state.configured.length = state.lastBusNumber := by
  rw [← List.length_map, ready.secondaries, List.length_range']

theorem Ready.bus_lt (ready : Ready config state) {assignment : Assignment}
    (member : assignment ∈ state.configured) : assignment.bus < state.lastBusNumber := by
  have number := List.mem_map_of_mem (f := Assignment.secondary) member
  rw [ready.secondaries, List.mem_range'_1] at number
  have lower := ready.below assignment member
  omega

end Ready

/-! ## Records and ranges -/

/-- The numbers of a bridge stand in its record and in its registers. -/
structure Recorded (discovered : List PCIDevice) (config : ConfigSpace) (assignment : Assignment)
    (subordinate : Nat) : Prop where
  bridge : ∃ bridge ∈ discovered, bridge.place = assignment.place ∧
    bridge.primaryBus = assignment.bus ∧ bridge.secondaryBus = assignment.secondary ∧
    bridge.subordinateBus = subordinate
  primary : readConfigByte config assignment.bus assignment.device assignment.function
    pciPrimaryBus = assignment.bus
  secondary : readConfigByte config assignment.bus assignment.device assignment.function
    pciSecondaryBus = assignment.secondary
  subordinate : readConfigByte config assignment.bus assignment.device assignment.function
    pciSubordinateBus = subordinate

/-- The bus number registers depend on their dword only. -/
theorem busNumber_congr {config config' : ConfigSpace} {assignment : Assignment}
    (offset : Nat) (aligned : offset &&& 0xFC = pciPrimaryBus &&& 0xFC)
    (same : config'.find assignment.address = config.find assignment.address) :
    readConfigByte config' assignment.bus assignment.device assignment.function offset =
      readConfigByte config assignment.bus assignment.device assignment.function offset := by
  apply readConfigByte_congr
  rw [makeConfigAddress_congr _ _ _ aligned]
  exact same

theorem Recorded.mono {discovered discovered' : List PCIDevice} {config config' : ConfigSpace}
    {assignment : Assignment} {subordinate : Nat}
    (recorded : Recorded discovered config assignment subordinate)
    (grown : discovered ⊆ discovered')
    (same : config'.find assignment.address = config.find assignment.address) :
    Recorded discovered' config' assignment subordinate where
  bridge := by
    rcases recorded.bridge with ⟨bridge, member, numbers⟩
    exact ⟨bridge, grown member, numbers⟩
  primary := (busNumber_congr pciPrimaryBus rfl same).trans recorded.primary
  secondary := (busNumber_congr pciSecondaryBus rfl same).trans recorded.secondary
  subordinate := (busNumber_congr pciSubordinateBus rfl same).trans recorded.subordinate

/-- Of the assignments up to `last`, those behind a bridge have the numbers from
its secondary to its subordinate bus. -/
structure Encloses (assigned : List Assignment) (last : Nat) (assignment : Assignment)
    (subordinate : Nat) : Prop where
  first_le : assignment.secondary ≤ subordinate
  le_last : subordinate ≤ last
  closed : ∀ other ∈ assigned,
    (assignment.secondary ≤ other.bus ∧ other.bus ≤ subordinate) ↔
      (assignment.secondary < other.secondary ∧ other.secondary ≤ subordinate)

/-- Assignments elsewhere do not matter. -/
theorem Encloses.append {inside all : List Assignment} {last last' subordinate : Nat}
    {assignment : Assignment} (encloses : Encloses inside last assignment subordinate)
    (later : last ≤ last')
    (elsewhere : ∀ other ∈ all, other ∈ inside ∨
      (other.bus < assignment.secondary ∨ subordinate < other.bus) ∧
        (other.secondary ≤ assignment.secondary ∨ subordinate < other.secondary)) :
    Encloses all last' assignment subordinate where
  first_le := encloses.first_le
  le_last := encloses.le_last.trans later
  closed := by
    intro other member
    rcases elsewhere other member with within | outside
    · exact encloses.closed other within
    · omega

/-- The range of a bridge is recorded, and encloses what is behind it. -/
def Settled (discovered : List PCIDevice) (assigned : List Assignment) (now : PCIEnumerator)
    (assignment : Assignment) : Prop :=
  ∃ subordinate, Recorded discovered now.configSpace assignment subordinate ∧
    Encloses assigned now.lastBusNumber assignment subordinate

/-! ## Progress on a bus -/

/-- The devices `devices` of `bus` have been scanned since `start`, where the
bus was entered: `new` has been discovered and `assigned` configured. -/
structure Progress (config : ConfigSpace) (bus : Nat) (devices : List Nat)
    (start : PCIEnumerator) (new : List PCIDevice) (assigned : List Assignment)
    (now : PCIEnumerator) : Prop where
  bus_le : bus ≤ now.lastBusNumber
  last_le : now.lastBusNumber ≤ 255
  scanned : now.scanned = List.range (now.lastBusNumber + 1)
  discovered : now.discoveredDevices = start.discoveredDevices ++ new
  configured : now.configured = start.configured ++ assigned
  functions : (new.map PCIDevice.place).Perm
    (explored (functionsAt config) bus devices now.lastBusNumber)
  probed : ∀ pciDevice ∈ new, pciDevice.isBridge =
    isBridgeAt config pciDevice.bus pciDevice.device pciDevice.function
  bridges : (assigned.map Assignment.place).Perm
    (explored (bridgeAt config) bus devices now.lastBusNumber)
  secondaries : assigned.map Assignment.secondary =
    List.range' (bus + 1) (now.lastBusNumber - bus)
  below : ∀ assignment ∈ assigned, assignment.bus < assignment.secondary
  untouched : ∀ address, (∀ assignment ∈ assigned, address ≠ assignment.address) →
    now.configSpace.find address = start.configSpace.find address
  settled : ∀ assignment ∈ assigned, Settled new assigned now assignment

theorem lastBusNumber_enterBus (bus : Nat) (state : PCIEnumerator) :
    (state.enterBus bus).lastBusNumber = state.lastBusNumber :=
  rfl

section Progress

variable {config : ConfigSpace} {bus : Nat} {devices : List Nat} {start now : PCIEnumerator}
  {new : List PCIDevice} {assigned : List Assignment}

/-- A bus that has just been entered. -/
theorem progress_nil (config : ConfigSpace) (bound : start.lastBusNumber ≤ 255)
    (scanned : start.scanned = List.range start.lastBusNumber) :
    Progress config start.lastBusNumber [] start [] [] (start.enterBus start.lastBusNumber) where
  bus_le := le_refl _
  last_le := bound
  scanned := by
    rw [PCIEnumerator.enterBus, scanned, ← List.range_succ]
  discovered := (List.append_nil _).symm
  configured := (List.append_nil _).symm
  functions := by
    rw [lastBusNumber_enterBus, explored_nil]
    exact List.Perm.nil
  probed := by simp
  bridges := by
    rw [lastBusNumber_enterBus, explored_nil]
    exact List.Perm.nil
  secondaries := by
    rw [lastBusNumber_enterBus, Nat.sub_self]
    rfl
  below := by simp
  untouched := fun _ _ => rfl
  settled := by simp

theorem Progress.number (progress : Progress config bus devices start new assigned now)
    {assignment : Assignment} (member : assignment ∈ assigned) :
    bus < assignment.secondary ∧ assignment.secondary ≤ now.lastBusNumber := by
  have number := List.mem_map_of_mem (f := Assignment.secondary) member
  have inside := progress.bus_le
  rw [progress.secondaries, List.mem_range'_1] at number
  omega

/-- Where the bridges are that have got a number. -/
theorem Progress.place (progress : Progress config bus devices start new assigned now)
    (valid : ∀ device ∈ devices, device < 32) {assignment : Assignment}
    (member : assignment ∈ assigned) :
    assignment.place ∈ onBus (bridgeAt config) assignment.bus ∧
      (assignment.bus = bus ∧ assignment.device ∈ devices ∨ bus < assignment.bus) := by
  have known := progress.bridges.subset (List.mem_map_of_mem member)
  rcases mem_explored (keyed_bridgeAt config) known with ⟨own, device, found⟩ | ⟨above, _, found⟩
  · have own : assignment.bus = bus := own
    rcases mem_bridgeAt_iff.mp found with ⟨bridge, same⟩
    refine ⟨?_, Or.inl ⟨own, device⟩⟩
    rw [mem_onBus_bridgeAt_iff, own]
    refine ⟨own, valid _ device, ?_, bridge⟩
    rw [same]
  · exact ⟨found, Or.inr above⟩

theorem Progress.valid (progress : Progress config bus devices start new assigned now)
    (valid : ∀ device ∈ devices, device < 32) {assignment : Assignment}
    (member : assignment ∈ assigned) : assignment.device < 32 ∧ assignment.function = 0 := by
  obtain ⟨-, device, function, -⟩ :=
    mem_onBus_bridgeAt_iff.mp (progress.place valid member).1
  exact ⟨device, function⟩

/-- What holds when a bus is entered still holds on the way. -/
theorem Progress.ready (progress : Progress config bus devices start new assigned now)
    (valid : ∀ device ∈ devices, device < 32) (distinct : devices.Nodup)
    (ready : Ready config start) (entered : start.lastBusNumber = bus) : Ready config now where
  headers := by
    intro bus' device function offset validDevice validFunction validOffset header
    rw [progress.untouched]
    · exact ready.headers bus' device function offset validDevice validFunction validOffset header
    · exact fun assignment member => Assignment.address_ne_header (progress.valid valid member)
        validDevice validFunction validOffset header
  secondaries := by
    rw [progress.configured, List.map_append, ready.secondaries, progress.secondaries, entered,
      Nat.add_comm bus 1, List.range'_append_1, Nat.add_sub_cancel' progress.bus_le]
  below := by
    intro assignment member
    rw [progress.configured, List.mem_append] at member
    exact member.elim (ready.below assignment) (progress.below assignment)
  bridges := by
    intro assignment member
    rw [progress.configured, List.mem_append] at member
    exact member.elim (ready.bridges assignment) fun later => (progress.place valid later).1
  distinct := by
    rw [progress.configured, List.map_append, List.nodup_append']
    refine ⟨ready.distinct, ?_, ?_⟩
    · exact progress.bridges.nodup_iff.mpr (nodup_explored (keyed_bridgeAt config) distinct)
    · intro place earlier later
      rcases List.mem_map.mp earlier with ⟨assignment, member, rfl⟩
      rcases List.mem_map.mp later with ⟨assignment', member', same⟩
      have lower := ready.bus_lt member
      have sameBus : assignment'.bus = assignment.bus := congrArg Prod.fst same
      rcases (progress.place valid member').2 with ⟨own, -⟩ | above <;> omega

/-- A device without a bridge. -/
theorem Progress.endpoint (progress : Progress config bus devices start new assigned now)
    {device : Nat} {more : List PCIDevice} (noBridge : isBridgeAt config bus device 0 = false)
    (found : more.map PCIDevice.place = functionsAt config bus device)
    (probed : ∀ pciDevice ∈ more, pciDevice.isBridge =
      isBridgeAt config pciDevice.bus pciDevice.device pciDevice.function) :
    Progress config bus (devices ++ [device]) start (new ++ more) assigned
      { now with discoveredDevices := now.discoveredDevices ++ more } where
  bus_le := progress.bus_le
  last_le := progress.last_le
  scanned := progress.scanned
  discovered := by
    dsimp only
    rw [progress.discovered, List.append_assoc]
  configured := progress.configured
  functions := by
    rw [List.map_append, found]
    exact (progress.functions.append_right _).trans (explored_device _ _ _ _ device).symm
  probed := by
    intro pciDevice member
    rw [List.mem_append] at member
    exact member.elim (progress.probed pciDevice) (probed pciDevice)
  bridges := by
    have nothing : bridgeAt config bus device = [] := by
      rw [bridgeAt, noBridge]
      rfl
    apply progress.bridges.trans
    have scanned := explored_device (bridgeAt config) bus devices now.lastBusNumber device
    rw [nothing, List.append_nil] at scanned
    exact scanned.symm
  secondaries := progress.secondaries
  below := progress.below
  untouched := progress.untouched
  settled := by
    intro assignment member
    rcases progress.settled assignment member with ⟨subordinate, recorded, encloses⟩
    exact ⟨subordinate, recorded.mono (List.subset_append_left _ _) rfl, encloses⟩

end Progress

/-! ## A bridge -/

/-- Modifying the object after the first ones. -/
theorem modify_append_cons {α : Type} (before : List α) (object : α) (after : List α)
    (change : α → α) : (before ++ object :: after).modify before.length change =
      before ++ change object :: after := by
  induction before with
  | nil => rfl
  | cons first rest ih =>
      rw [List.cons_append, List.length_cons, List.modify_succ_cons, ih, List.cons_append]

section Bridge

variable {config : ConfigSpace} {bus device : Nat} {state : PCIEnumerator} {bridge : PCIDevice}

/-- The state in which the bus behind a bridge is entered. -/
def behind (bridge : PCIDevice) (bus : Nat) (state : PCIEnumerator) : PCIEnumerator :=
  (state.pushDevice bridge).assignBus state.discoveredDevices.length bridge bus

/-- The assignment that a bridge gets. -/
def assignmentOf (bridge : PCIDevice) (state : PCIEnumerator) : Assignment :=
  ⟨bridge.bus, bridge.device, bridge.function, (state.lastBusNumber + 1) % 256⟩

theorem secondary_assignmentOf (bridge : PCIDevice) (more : state.lastBusNumber < 255) :
    (assignmentOf bridge state).secondary = state.lastBusNumber + 1 :=
  Nat.mod_eq_of_lt (by omega)

theorem place_eq_iff (bridge : PCIDevice) {place : Place} : bridge.place = place ↔
    bridge.bus = place.1 ∧ bridge.device = place.2.1 ∧ bridge.function = place.2.2 := by
  rw [PCIDevice.place, Prod.ext_iff, Prod.ext_iff]

theorem discoveredDevices_behind (bridge : PCIDevice) (bus : Nat) (state : PCIEnumerator) :
    (behind bridge bus state).discoveredDevices = state.discoveredDevices ++
      [{ bridge with
        primaryBus := bus
        secondaryBus := (state.lastBusNumber + 1) % 256
        subordinateBus := pciMaxBus }] :=
  modify_append_cons _ _ _ _

theorem find_behind {address : Nat} (other : address ≠ (assignmentOf bridge state).address) :
    (behind bridge bus state).configSpace.find address = state.configSpace.find address := by
  simp only [behind, PCIEnumerator.assignBus, PCIEnumerator.configureBridge]
  rw [writeConfigByte_of_ne, writeConfigByte_of_ne, writeConfigByte_of_ne]
  · rfl
  · exact other
  · exact other
  · exact other

/-- The registers of the bridge when its bus is entered. -/
theorem registers_behind (bound : bridge.bus < 256) :
    readConfigByte (behind bridge bridge.bus state).configSpace bridge.bus bridge.device
        bridge.function pciPrimaryBus = bridge.bus ∧
      readConfigByte (behind bridge bridge.bus state).configSpace bridge.bus bridge.device
        bridge.function pciSecondaryBus = (state.lastBusNumber + 1) % 256 := by
  have number : ((state.pushDevice bridge).lastBusNumber + 1) % 256 < 256 :=
    Nat.mod_lt _ (by decide)
  simp only [behind, PCIEnumerator.assignBus, PCIEnumerator.configureBridge]
  constructor
  · rw [readConfigByte_writeConfigByte_of_byte_ne _ _ _ _ (by decide) (by decide) (by decide),
      readConfigByte_writeConfigByte_of_byte_ne _ _ _ _ (by decide) (by decide) number]
    exact readConfigByte_writeConfigByte_self _ _ _ _ _ bound
  · rw [readConfigByte_writeConfigByte_of_byte_ne _ _ _ _ (by decide) (by decide) (by decide)]
    exact readConfigByte_writeConfigByte_self _ _ _ _ _ number

theorem find_updateBridgeSubordinate {now : PCIEnumerator} {position subordinate address : Nat}
    (other : address ≠ (assignmentOf bridge now).address) :
    (state.updateBridgeSubordinate position bridge subordinate).configSpace.find address =
      state.configSpace.find address := by
  rw [PCIEnumerator.updateBridgeSubordinate]
  dsimp only
  rw [writeConfigByte_of_ne]
  exact other

/-- The record of a bridge whose bus has been enumerated. -/
def finished (bridge : PCIDevice) (bus : Nat) (now after : PCIEnumerator) : PCIDevice :=
  { bridge with
    primaryBus := bus
    secondaryBus := (now.lastBusNumber + 1) % 256
    subordinateBus := after.lastBusNumber }

/-- The registers once the highest bus behind the bridge is known. -/
theorem recorded_finished {after : PCIEnumerator} {discovered : List PCIDevice}
    {position : Nat} (onBus : bridge.bus = bus) (bound : bus < 256)
    (byte : after.lastBusNumber < 256) (listed : finished bridge bus state after ∈ discovered)
    (untouched : after.configSpace.find (assignmentOf bridge state).address =
      (behind bridge bus state).configSpace.find (assignmentOf bridge state).address) :
    Recorded discovered
      (after.updateBridgeSubordinate position bridge after.lastBusNumber).configSpace
      (assignmentOf bridge state) after.lastBusNumber where
  bridge := ⟨_, listed, rfl, onBus.symm, rfl, rfl⟩
  primary := by
    subst onBus
    rw [PCIEnumerator.updateBridgeSubordinate]
    dsimp only [assignmentOf]
    rw [readConfigByte_writeConfigByte_of_byte_ne _ _ _ _ (by decide) (by decide) byte]
    exact (busNumber_congr pciPrimaryBus rfl untouched).trans (registers_behind bound).1
  secondary := by
    subst onBus
    rw [PCIEnumerator.updateBridgeSubordinate]
    dsimp only [assignmentOf]
    rw [readConfigByte_writeConfigByte_of_byte_ne _ _ _ _ (by decide) (by decide) byte]
    exact (busNumber_congr pciSecondaryBus rfl untouched).trans (registers_behind bound).2
  subordinate := readConfigByte_writeConfigByte_self _ _ _ _ _ byte

end Bridge

/-! ## A bridge with all that is behind it -/

/-- A bridge has been found at `device`, and the bus behind it has been
enumerated. -/
structure BridgeStep (config : ConfigSpace) (bus device : Nat) (devices : List Nat)
    (start now after : PCIEnumerator) (new childNew : List PCIDevice)
    (assigned childAssigned : List Assignment) (bridge : PCIDevice) : Prop where
  progress : Progress config bus devices start new assigned now
  valid : ∀ other ∈ devices, other < 32
  validDevice : device < 32
  fresh : device ∉ devices
  more : now.lastBusNumber < 255
  place : bridge.place = (bus, device, 0)
  isBridge : isBridgeAt config bus device 0 = true
  marked : bridge.isBridge = true
  child : Progress config (now.lastBusNumber + 1) (List.range (pciMaxDevice + 1))
    (behind bridge bus now) childNew childAssigned after

namespace BridgeStep

variable {config : ConfigSpace} {bus device : Nat} {devices : List Nat}
  {start now after : PCIEnumerator} {new childNew : List PCIDevice}
  {assigned childAssigned : List Assignment} {bridge : PCIDevice}
  (step : BridgeStep config bus device devices start now after new childNew assigned childAssigned
    bridge)

include step

theorem bus_eq : bridge.bus = bus :=
  congrArg Prod.fst step.place

theorem device_eq : bridge.device = device :=
  congrArg (fun place => place.2.1) step.place

theorem function_eq : bridge.function = 0 :=
  congrArg (fun place => place.2.2) step.place

/-- Assignments made before the bridge was found have lower numbers. -/
theorem before {other : Assignment} (member : other ∈ assigned) :
    other.bus < other.secondary ∧ bus < other.secondary ∧
      other.secondary ≤ now.lastBusNumber :=
  ⟨step.progress.below other member, step.progress.number member⟩

/-- The bridge gets the next number. -/
theorem here : (assignmentOf bridge now).bus = bus ∧
      (assignmentOf bridge now).secondary = now.lastBusNumber + 1 ∧ bus ≤ now.lastBusNumber ∧
      now.lastBusNumber < after.lastBusNumber :=
  ⟨step.bus_eq, secondary_assignmentOf bridge step.more, step.progress.bus_le, step.child.bus_le⟩

/-- Assignments behind the bridge have higher numbers, on higher buses. -/
theorem beyond {other : Assignment} (member : other ∈ childAssigned) :
    now.lastBusNumber < other.bus ∧ other.bus < other.secondary ∧
      other.secondary ≤ after.lastBusNumber := by
  refine ⟨?_, step.child.below other member, (step.child.number member).2⟩
  rcases (step.child.place (fun _ => List.mem_range.mp) member).2 with ⟨own, -⟩ | above
  · exact own.ge
  · exact (Nat.lt_succ_self _).trans above

theorem validBridge :
    (assignmentOf bridge now).device < 32 ∧ (assignmentOf bridge now).function = 0 :=
  ⟨step.device_eq.trans_lt step.validDevice, step.function_eq⟩

/-- No other assignment has the place of the bridge, so its registers are its
own. -/
theorem address_ne {other : Assignment} (member : other ∈ assigned ++ childAssigned) :
    other.address ≠ (assignmentOf bridge now).address := by
  intro same
  rcases step.here with ⟨onBus, -, inside, -⟩
  rcases List.mem_append.mp member with old | later
  · have samePlace := Assignment.place_eq_of_address_eq (step.progress.valid step.valid old)
      step.validBridge same
    have sameBus : other.bus = (assignmentOf bridge now).bus := congrArg Prod.fst samePlace
    have sameDevice : other.device = bridge.device := congrArg (fun place => place.2.1) samePlace
    rcases (step.progress.place step.valid old).2 with ⟨-, scanned⟩ | higher
    · rw [sameDevice, step.device_eq] at scanned
      exact step.fresh scanned
    · omega
  · have samePlace := Assignment.place_eq_of_address_eq
      (step.child.valid (fun _ => List.mem_range.mp) later) step.validBridge same
    have sameBus : other.bus = (assignmentOf bridge now).bus := congrArg Prod.fst samePlace
    have higher := (step.beyond later).1
    omega

theorem address_ne_beyond {assignment other : Assignment}
    (old : assignment ∈ assigned) (later : other ∈ childAssigned) :
    assignment.address ≠ other.address := by
  intro same
  have samePlace := Assignment.place_eq_of_address_eq (step.progress.valid step.valid old)
    (step.child.valid (fun _ => List.mem_range.mp) later) same
  have sameBus : assignment.bus = other.bus := congrArg Prod.fst samePlace
  have lower := step.before old
  have higher := step.beyond later
  omega

/-- The ranges of earlier bridges stay as they are. -/
theorem settled_before {assignment : Assignment} (old : assignment ∈ assigned) :
    Settled (new ++ finished bridge bus now after :: childNew)
      (assigned ++ assignmentOf bridge now :: childAssigned)
      (after.updateBridgeSubordinate now.discoveredDevices.length bridge after.lastBusNumber)
      assignment := by
  rcases step.progress.settled assignment old with ⟨subordinate, recorded, encloses⟩
  have notBridge := step.address_ne (List.mem_append_left _ old)
  have number := step.here
  refine ⟨subordinate, recorded.mono (List.subset_append_left _ _) ?_,
    encloses.append number.2.2.2.le ?_⟩
  · rw [find_updateBridgeSubordinate notBridge,
      step.child.untouched _ fun other later => step.address_ne_beyond old later,
      find_behind notBridge]
  · intro other member
    have lower := step.before old
    have top := encloses.le_last
    rw [List.mem_append, List.mem_cons] at member
    rcases member with otherOld | rfl | later
    · exact Or.inl otherOld
    · omega
    · have higher := step.beyond later
      omega

/-- The range of the bridge is what is behind it. -/
theorem settled_here :
    Settled (new ++ finished bridge bus now after :: childNew)
      (assigned ++ assignmentOf bridge now :: childAssigned)
      (after.updateBridgeSubordinate now.discoveredDevices.length bridge after.lastBusNumber)
      (assignmentOf bridge now) := by
  have number := step.here
  have bound := step.child.last_le
  have untouched := step.child.untouched (assignmentOf bridge now).address fun other later =>
    (step.address_ne (List.mem_append_right _ later)).symm
  refine ⟨after.lastBusNumber, ?_, ?_⟩
  · apply recorded_finished step.bus_eq _ _ _ untouched
    · omega
    · omega
    · exact List.mem_append_right _ List.mem_cons_self
  · exact {
      first_le := by omega
      le_last := le_refl _
      closed := by
        intro other member
        rw [List.mem_append, List.mem_cons] at member
        rcases member with old | rfl | later
        · have lower := step.before old
          omega
        · omega
        · have higher := step.beyond later
          omega }

/-- The ranges behind the bridge stay as they are. -/
theorem settled_beyond {assignment : Assignment} (later : assignment ∈ childAssigned) :
    Settled (new ++ finished bridge bus now after :: childNew)
      (assigned ++ assignmentOf bridge now :: childAssigned)
      (after.updateBridgeSubordinate now.discoveredDevices.length bridge after.lastBusNumber)
      assignment := by
  rcases step.child.settled assignment later with ⟨subordinate, recorded, encloses⟩
  have number := step.here
  refine ⟨subordinate, recorded.mono ?_ ?_, encloses.append (le_refl _) ?_⟩
  · exact fun _ inNew => List.mem_append_right _ (List.mem_cons_of_mem _ inNew)
  · exact find_updateBridgeSubordinate (step.address_ne (List.mem_append_right _ later))
  · intro other member
    have higher := step.beyond later
    rw [List.mem_append, List.mem_cons] at member
    rcases member with old | rfl | otherLater
    · have lower := step.before old
      omega
    · omega
    · exact Or.inl otherLater

/-- The bridge and what is behind it are progress on its bus. -/
theorem progress_after :
    Progress config bus (devices ++ [device]) start
      (new ++ finished bridge bus now after :: childNew)
      (assigned ++ assignmentOf bridge now :: childAssigned)
      (after.updateBridgeSubordinate now.discoveredDevices.length bridge after.lastBusNumber) where
  bus_le := step.here.2.2.1.trans step.here.2.2.2.le
  last_le := step.child.last_le
  scanned := step.child.scanned
  discovered := by
    dsimp only [PCIEnumerator.updateBridgeSubordinate]
    rw [step.child.discovered, discoveredDevices_behind, List.append_assoc, List.singleton_append,
      modify_append_cons, step.progress.discovered, List.append_assoc]
    rfl
  configured := by
    dsimp only [PCIEnumerator.updateBridgeSubordinate]
    rw [step.child.configured]
    change (now.configured ++ [assignmentOf bridge now]) ++ childAssigned = _
    rw [step.progress.configured, List.append_assoc, List.append_assoc, List.singleton_append]
  functions := by
    have found : functionsAt config bus device = [(bus, device, 0)] := by
      rw [functionsAt, if_pos (Bool.and_eq_true_iff.mp step.isBridge).1, if_pos step.isBridge]
    rw [List.map_append, List.map_cons]
    apply List.Perm.trans _ (explored_bridge device step.progress.bus_le step.child.bus_le).symm
    rw [found]
    exact step.progress.functions.append (step.place ▸ step.child.functions.cons _)
  probed := by
    intro pciDevice member
    rw [List.mem_append, List.mem_cons] at member
    rcases member with old | rfl | later
    · exact step.progress.probed pciDevice old
    · change bridge.isBridge = isBridgeAt config bridge.bus bridge.device bridge.function
      rw [step.marked, step.bus_eq, step.device_eq, step.function_eq, step.isBridge]
    · exact step.child.probed pciDevice later
  bridges := by
    have found : bridgeAt config bus device = [(bus, device, 0)] := by
      rw [bridgeAt, if_pos step.isBridge]
    rw [List.map_append, List.map_cons]
    apply List.Perm.trans _ (explored_bridge device step.progress.bus_le step.child.bus_le).symm
    rw [found]
    exact step.progress.bridges.append (step.place ▸ step.child.bridges.cons _)
  secondaries := by
    rcases step.here with ⟨-, number, inside, further⟩
    rw [List.map_append, List.map_cons, step.progress.secondaries, step.child.secondaries, number,
      ← List.range'_succ, show now.lastBusNumber + 1 = bus + 1 + (now.lastBusNumber - bus) by omega,
      List.range'_append_1]
    congr 1
    change _ = after.lastBusNumber - bus
    omega
  below := by
    intro assignment member
    rw [List.mem_append, List.mem_cons] at member
    rcases member with old | rfl | later
    · exact (step.before old).1
    · have number := step.here
      omega
    · exact (step.beyond later).2.1
  untouched := by
    intro address other
    have notBridge := other (assignmentOf bridge now) (by simp)
    rw [find_updateBridgeSubordinate notBridge,
      step.child.untouched address fun assignment member => other assignment (by simp [member]),
      find_behind notBridge,
      step.progress.untouched address fun assignment member => other assignment (by simp [member])]
  settled := by
    intro assignment member
    rw [List.mem_append, List.mem_cons] at member
    rcases member with old | rfl | later
    · exact step.settled_before old
    · exact step.settled_here
    · exact step.settled_beyond later

end BridgeStep

end SystemcTlm.Pci
