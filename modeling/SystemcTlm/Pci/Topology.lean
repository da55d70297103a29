import SystemcTlm.Pci.Enumerator
import Mathlib.Data.List.Nodup
import Mathlib.Data.List.Range
import Mathlib.Data.List.Perm.Subperm

/-!
# What an enumeration can find

The bridges and the functions that a configuration space shows, by bus and
device, whatever the enumeration does.  Nothing here depends on the bus number
registers, the only ones that the enumeration writes.  `explored` collects what a
depth-first scan has seen: some devices of its own bus, and every device of the
buses above it.
-/

namespace SystemcTlm.Pci

/-- Bus, device and function. -/
abbrev Place := Nat × Nat × Nat

/-- A bridge answers at this place. -/
def isBridgeAt (config : ConfigSpace) (bus device function : Nat) : Bool :=
  deviceExists config bus device function &&
    decide (readConfigByte config bus device function pciHeaderType &&& 0x7F = pciHeaderTypeBridge)

/-- The function at this place has the multifunction bit. -/
def isMultifunctionAt (config : ConfigSpace) (bus device function : Nat) : Bool :=
  decide (readConfigByte config bus device function pciHeaderType &&&
    pciHeaderTypeMultifunction ≠ 0)

/-! ## Probes -/

theorem probeDevice_eq_none {config : ConfigSpace} {bus device function : Nat}
    (absent : deviceExists config bus device function = false) :
    probeDevice config bus device function = none := by
  rw [probeDevice, absent]
  rfl

theorem probeDevice_eq_some {config : ConfigSpace} {bus device function : Nat}
    (present : deviceExists config bus device function = true) :
    ∃ pciDevice, probeDevice config bus device function = some pciDevice ∧
      pciDevice.bus = bus ∧ pciDevice.device = device ∧ pciDevice.function = function ∧
      pciDevice.isBridge = isBridgeAt config bus device function ∧
      pciDevice.isMultifunction = isMultifunctionAt config bus device function := by
  rw [probeDevice, if_pos present]
  refine ⟨_, rfl, rfl, rfl, rfl, ?_, rfl⟩
  rw [isBridgeAt, present]
  rfl

/-! ## The registers outside the bus number dword -/

/-- Both spaces show the same devices: they may differ in the bus numbers of
bridges. -/
def SameHeaders (config config' : ConfigSpace) : Prop :=
  ∀ bus device function offset, device < 32 → function < 8 → offset < 256 →
    offset &&& 0xFC ≠ 0x18 →
      config'.find (makeConfigAddress bus device function offset) =
        config.find (makeConfigAddress bus device function offset)

section Headers

variable {config config' : ConfigSpace} (bus : Nat) {device function : Nat}

theorem deviceExists_congr (same : SameHeaders config config') (validDevice : device < 32)
    (validFunction : function < 8) :
    deviceExists config' bus device function = deviceExists config bus device function := by
  have vendor := readConfigWord_congr (same bus device function pciVendorId validDevice
    validFunction (by decide) (by decide))
  rw [deviceExists, deviceExists, vendor]

theorem headerType_congr (same : SameHeaders config config') (validDevice : device < 32)
    (validFunction : function < 8) :
    readConfigByte config' bus device function pciHeaderType =
      readConfigByte config bus device function pciHeaderType :=
  readConfigByte_congr (same bus device function pciHeaderType validDevice validFunction
    (by decide) (by decide))

theorem isBridgeAt_congr (same : SameHeaders config config') (validDevice : device < 32)
    (validFunction : function < 8) :
    isBridgeAt config' bus device function = isBridgeAt config bus device function := by
  rw [isBridgeAt, isBridgeAt, deviceExists_congr bus same validDevice validFunction,
    headerType_congr bus same validDevice validFunction]

theorem isMultifunctionAt_congr (same : SameHeaders config config') (validDevice : device < 32)
    (validFunction : function < 8) :
    isMultifunctionAt config' bus device function =
      isMultifunctionAt config bus device function := by
  rw [isMultifunctionAt, isMultifunctionAt, headerType_congr bus same validDevice validFunction]

end Headers

/-! ## Bridges and functions -/

/-- The bridge at function 0 of a device. -/
def bridgeAt (config : ConfigSpace) (bus device : Nat) : List Place :=
  if isBridgeAt config bus device 0 then [(bus, device, 0)] else []

/-- The functions 1 to 7 that exist. -/
def furtherFunctions (config : ConfigSpace) (bus device : Nat) : List Nat :=
  (List.range' 1 pciMaxFunction).filter fun function => deviceExists config bus device function

theorem furtherFunctions_ne_zero {config : ConfigSpace} {bus device function : Nat}
    (further : function ∈ furtherFunctions config bus device) : function ≠ 0 := by
  have range := List.mem_of_mem_filter further
  rw [List.mem_range'_1] at range
  omega

/-- The functions of a device that a scan discovers: those of a bridge are not
looked at. -/
def functionsAt (config : ConfigSpace) (bus device : Nat) : List Place :=
  if deviceExists config bus device 0 then
    if isBridgeAt config bus device 0 then [(bus, device, 0)]
    else if isMultifunctionAt config bus device 0 then
      (bus, device, 0) ::
        (furtherFunctions config bus device).map fun function => (bus, device, function)
    else [(bus, device, 0)]
  else []

/-- Every device of a bus. -/
def onBus (items : Nat → Nat → List Place) (bus : Nat) : List Place :=
  (List.range (pciMaxDevice + 1)).flatMap (items bus)

/-- The number of bridges at function 0 of a device of the buses up to `bus`. -/
def bridgeCount (config : ConfigSpace) (bus : Nat) : Nat :=
  ((List.range (bus + 1)).flatMap (onBus (bridgeAt config))).length

/-- The enumeration gets as far as bus `bus`: on the buses up to any earlier one
there is a bridge that leads further. -/
def Reaches (config : ConfigSpace) (bus : Nat) : Prop :=
  ∀ earlier < bus, earlier < bridgeCount config earlier

/-! ## What a scan has seen -/

/-- Items that carry the bus and device they were found at, each once. -/
structure Keyed (items : Nat → Nat → List Place) : Prop where
  key : ∀ bus device, ∀ place ∈ items bus device, place.1 = bus ∧ place.2.1 = device
  nodup : ∀ bus device, (items bus device).Nodup

theorem keyed_bridgeAt (config : ConfigSpace) : Keyed (bridgeAt config) where
  key := by
    intro bus device place member
    rw [bridgeAt] at member
    split_ifs at member
    · rw [List.mem_singleton.mp member]
      exact ⟨rfl, rfl⟩
    · exact absurd member List.not_mem_nil
  nodup := by
    intro bus device
    rw [bridgeAt]
    split_ifs
    · exact List.nodup_singleton _
    · exact List.nodup_nil

theorem mem_bridgeAt_iff {config : ConfigSpace} {bus device : Nat} {place : Place} :
    place ∈ bridgeAt config bus device ↔
      isBridgeAt config bus device 0 = true ∧ place = (bus, device, 0) := by
  rw [bridgeAt]
  split_ifs with bridge <;> simp [bridge]

theorem mem_functionsAt_iff {config : ConfigSpace} {bus device function : Nat} :
    (bus, device, function) ∈ functionsAt config bus device ↔
      deviceExists config bus device 0 = true ∧
        (function = 0 ∨ isBridgeAt config bus device 0 = false ∧
          isMultifunctionAt config bus device 0 = true ∧
          function ∈ furtherFunctions config bus device) := by
  rw [functionsAt]
  split_ifs with present bridge multifunction <;> simp [*]

theorem keyed_functionsAt (config : ConfigSpace) : Keyed (functionsAt config) where
  key := by
    intro bus device place member
    rw [functionsAt] at member
    split_ifs at member
    · rw [List.mem_singleton.mp member]
      exact ⟨rfl, rfl⟩
    · rcases List.mem_cons.mp member with rfl | further
      · exact ⟨rfl, rfl⟩
      · rcases List.mem_map.mp further with ⟨function, -, rfl⟩
        exact ⟨rfl, rfl⟩
    · rw [List.mem_singleton.mp member]
      exact ⟨rfl, rfl⟩
    · exact absurd member List.not_mem_nil
  nodup := by
    intro bus device
    rw [functionsAt]
    split_ifs
    · exact List.nodup_singleton _
    · rw [List.nodup_cons]
      constructor
      · simp [furtherFunctions]
      · apply List.Nodup.map
        · intro function function' same
          simpa using same
        · apply List.Nodup.filter
          exact List.nodup_range'
    · exact List.nodup_singleton _
    · exact List.nodup_nil

/-- The items of some devices of `bus`, and of every device of the buses above it
up to `last`. -/
def explored (items : Nat → Nat → List Place) (bus : Nat) (devices : List Nat) (last : Nat) :
    List Place :=
  devices.flatMap (items bus) ++ (List.range' (bus + 1) (last - bus)).flatMap (onBus items)

section Explored

variable {items : Nat → Nat → List Place} {bus last last' : Nat} {devices : List Nat}

theorem explored_nil (items : Nat → Nat → List Place) (bus : Nat) :
    explored items bus [] bus = [] := by
  simp [explored]

theorem explored_all (inside : bus ≤ last) :
    explored items bus (List.range (pciMaxDevice + 1)) last =
      (List.range' bus (last + 1 - bus)).flatMap (onBus items) := by
  rw [Nat.succ_sub inside, List.range'_succ, List.flatMap_cons]
  rfl

/-- One more device, without a bus of its own. -/
theorem explored_device (items : Nat → Nat → List Place) (bus : Nat) (devices : List Nat)
    (last device : Nat) :
    (explored items bus (devices ++ [device]) last).Perm
      (explored items bus devices last ++ items bus device) := by
  rw [explored, explored, List.flatMap_append, List.flatMap_singleton, List.append_assoc,
    List.append_assoc]
  exact List.perm_append_comm.append_left _

/-- One more device, and the buses up to `last'` that are behind it. -/
theorem explored_bridge (device : Nat) (inside : bus ≤ last) (further : last < last') :
    (explored items bus (devices ++ [device]) last').Perm
      (explored items bus devices last ++
        (items bus device ++ explored items (last + 1) (List.range (pciMaxDevice + 1)) last')) := by
  have split : List.range' (bus + 1) (last' - bus) =
      List.range' (bus + 1) (last - bus) ++ List.range' (last + 1) (last' + 1 - (last + 1)) := by
    rw [show last + 1 = bus + 1 + (last - bus) by omega, List.range'_append_1]
    congr 1
    omega
  rw [explored_all (by omega), explored, explored, split, List.flatMap_append,
    List.flatMap_append, List.flatMap_singleton, List.append_assoc, List.append_assoc]
  exact (List.perm_append_comm_assoc _ _ _).append_left _

theorem mem_onBus (keyed : Keyed items) {place : Place} (member : place ∈ onBus items bus) :
    place.1 = bus ∧ place.2.1 < 32 ∧ place ∈ items bus place.2.1 := by
  rcases List.mem_flatMap.mp member with ⟨device, valid, found⟩
  rcases keyed.key bus device place found with ⟨sameBus, sameDevice⟩
  rw [sameDevice]
  exact ⟨sameBus, List.mem_range.mp valid, found⟩

theorem mem_onBus_bridgeAt_iff {config : ConfigSpace} {place : Place} :
    place ∈ onBus (bridgeAt config) bus ↔
      place.1 = bus ∧ place.2.1 < 32 ∧ place.2.2 = 0 ∧
        isBridgeAt config bus place.2.1 0 = true := by
  constructor
  · intro member
    rcases mem_onBus (keyed_bridgeAt config) member with ⟨sameBus, valid, found⟩
    rcases mem_bridgeAt_iff.mp found with ⟨bridge, same⟩
    rw [same] at *
    exact ⟨rfl, valid, rfl, bridge⟩
  · rintro ⟨sameBus, valid, first, bridge⟩
    rw [onBus, List.mem_flatMap]
    refine ⟨place.2.1, List.mem_range.mpr valid, mem_bridgeAt_iff.mpr ⟨bridge, ?_⟩⟩
    rw [← sameBus, ← first]

theorem mem_explored (keyed : Keyed items) {place : Place}
    (member : place ∈ explored items bus devices last) :
    place.1 = bus ∧ place.2.1 ∈ devices ∧ place ∈ items bus place.2.1 ∨
      bus < place.1 ∧ place.1 ≤ last ∧ place ∈ onBus items place.1 := by
  rcases List.mem_append.mp member with own | above
  · rcases List.mem_flatMap.mp own with ⟨device, valid, found⟩
    rcases keyed.key bus device place found with ⟨sameBus, sameDevice⟩
    left
    rw [sameDevice]
    exact ⟨sameBus, valid, found⟩
  · rcases List.mem_flatMap.mp above with ⟨above, within, found⟩
    rcases mem_onBus keyed found with ⟨sameBus, -, -⟩
    rw [List.mem_range'_1] at within
    right
    refine ⟨?_, ?_, ?_⟩
    · omega
    · omega
    · rwa [sameBus]

theorem nodup_devices (keyed : Keyed items) (distinct : devices.Nodup) :
    (devices.flatMap (items bus)).Nodup := by
  rw [List.nodup_flatMap]
  constructor
  · exact fun device _ => keyed.nodup bus device
  · apply distinct.imp
    intro device device' different place member member'
    exact different ((keyed.key bus device place member).2.symm.trans
      (keyed.key bus device' place member').2)

theorem nodup_buses (keyed : Keyed items) {buses : List Nat} (distinct : buses.Nodup) :
    (buses.flatMap (onBus items)).Nodup := by
  rw [List.nodup_flatMap]
  constructor
  · exact fun bus _ => nodup_devices keyed List.nodup_range
  · apply distinct.imp
    intro bus bus' different place member member'
    exact different ((mem_onBus keyed member).1.symm.trans (mem_onBus keyed member').1)

theorem nodup_explored (keyed : Keyed items) (distinct : devices.Nodup) :
    (explored items bus devices last).Nodup := by
  rw [explored, List.nodup_append']
  refine ⟨nodup_devices keyed distinct, nodup_buses keyed List.nodup_range', ?_⟩
  intro place own above
  rcases List.mem_flatMap.mp own with ⟨device, -, found⟩
  rcases List.mem_flatMap.mp above with ⟨above, within, found'⟩
  rw [List.mem_range'_1] at within
  have sameBus := (keyed.key bus device place found).1
  have sameBus' := (mem_onBus keyed found').1
  omega

end Explored

end SystemcTlm.Pci
