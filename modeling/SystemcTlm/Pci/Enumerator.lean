import SystemcTlm.Pci.ConfigSpace

/-!
# `PCIEnumerator`

The depth-first enumeration of the buses.  Every bridge at function 0 of a
device gets the next bus number, its bus is enumerated, and the highest number
found there becomes its subordinate bus.  The recursion is bounded by a fuel, and
an enumeration that spends it is still running, in the state it has reached.

The devices are the objects of the vector, by their position.
-/

namespace SystemcTlm.Pci

/-! ## Registers and limits -/

/-- The offset of the vendor id. -/
abbrev pciVendorId : Nat := 0x00
/-- The offset of the device id. -/
abbrev pciDeviceId : Nat := 0x02
/-- The offset of the class code. -/
abbrev pciClassCode : Nat := 0x09
/-- The offset of the header type. -/
abbrev pciHeaderType : Nat := 0x0E
/-- The offset of the primary bus number of a bridge. -/
abbrev pciPrimaryBus : Nat := 0x18
/-- The offset of its secondary bus number. -/
abbrev pciSecondaryBus : Nat := 0x19
/-- The offset of its subordinate bus number. -/
abbrev pciSubordinateBus : Nat := 0x1A
/-- The header type of a bridge. -/
abbrev pciHeaderTypeBridge : Nat := 0x01
/-- The bit of the header type of a device with several functions. -/
abbrev pciHeaderTypeMultifunction : Nat := 0x80
/-- The vendor id that is read where there is no device. -/
abbrev pciInvalidVendorId : Nat := 0xFFFF
/-- The last bus number. -/
abbrev pciMaxBus : Nat := 255
/-- The last device number of a bus. -/
abbrev pciMaxDevice : Nat := 31
/-- The last function number of a device. -/
abbrev pciMaxFunction : Nat := 7

/-! ## Probing -/

/-- What the scan has read of a function. -/
structure PCIDevice where
  bus : Nat
  device : Nat
  function : Nat
  vendorId : Nat
  deviceId : Nat
  headerType : Nat
  classCode : Nat
  isBridge : Bool
  isMultifunction : Bool
  primaryBus : Nat
  secondaryBus : Nat
  subordinateBus : Nat
  deriving DecidableEq

/-- Bus, device and function. -/
def PCIDevice.place (pciDevice : PCIDevice) : Nat × Nat × Nat :=
  (pciDevice.bus, pciDevice.device, pciDevice.function)

/-- `deviceExists`, by the vendor id. -/
def deviceExists (config : ConfigSpace) (bus device function : Nat) : Bool :=
  let vendorId := readConfigWord config bus device function pciVendorId
  decide (vendorId ≠ pciInvalidVendorId ∧ vendorId ≠ 0x0000)

/-- `probeDevice`.  The bus numbers are read of a bridge only. -/
def probeDevice (config : ConfigSpace) (bus device function : Nat) : Option PCIDevice :=
  if deviceExists config bus device function then
    let headerType := readConfigByte config bus device function pciHeaderType
    let isBridge := decide (headerType &&& 0x7F = pciHeaderTypeBridge)
    let bridgeByte := fun offset =>
      if isBridge then readConfigByte config bus device function offset else 0
    some
      { bus := bus
        device := device
        function := function
        vendorId := readConfigWord config bus device function pciVendorId
        deviceId := readConfigWord config bus device function pciDeviceId
        headerType := headerType
        classCode := readConfigByte config bus device function pciClassCode
        isBridge := isBridge
        isMultifunction := decide (headerType &&& pciHeaderTypeMultifunction ≠ 0)
        primaryBus := bridgeByte pciPrimaryBus
        secondaryBus := bridgeByte pciSecondaryBus
        subordinateBus := bridgeByte pciSubordinateBus }
  else none

/-! ## The state -/

/-- A call of `configureBridge`: the place of the bridge and the secondary bus
number it is given. -/
structure Assignment where
  bus : Nat
  device : Nat
  function : Nat
  secondary : Nat
  deriving DecidableEq

/-- The members of `PCIEnumerator`, and what it has printed. -/
structure PCIEnumerator where
  discoveredDevices : List PCIDevice
  lastBusNumber : Nat
  configSpace : ConfigSpace
  /-- The buses of the `SCANNING BUS` lines. -/
  scanned : List Nat
  /-- The `CONFIGURING BRIDGE` lines. -/
  configured : List Assignment

/-- An enumeration has returned, or it is still running when the fuel is
spent. -/
inductive Outcome
  | done (maxSubordinateBus : Nat) (state : PCIEnumerator)
  | running (state : PCIEnumerator)

/-- The state in which a scan has ended or run out of fuel. -/
def Outcome.state : Outcome → PCIEnumerator
  | .done _ state => state
  | .running state => state

/-- What follows a call that has returned. -/
def Outcome.andThen (outcome : Outcome) (next : Nat → PCIEnumerator → Outcome) : Outcome :=
  match outcome with
  | .done maxSubordinateBus state => next maxSubordinateBus state
  | .running state => .running state

namespace PCIEnumerator

/-- `SCANNING BUS` -/
def enterBus (busNum : Nat) (state : PCIEnumerator) : PCIEnumerator :=
  { state with scanned := state.scanned ++ [busNum] }

/-- `discovered_devices.push_back(device)` -/
def pushDevice (pciDevice : PCIDevice) (state : PCIEnumerator) : PCIEnumerator :=
  { state with discoveredDevices := state.discoveredDevices ++ [pciDevice] }

/-- The bridge is the object at `position`. -/
def configureBridge (position : Nat) (bridge : PCIDevice) (primary secondary subordinate : Nat)
    (state : PCIEnumerator) : PCIEnumerator :=
  let primaryWritten := writeConfigByte state.configSpace bridge.bus bridge.device bridge.function
    pciPrimaryBus primary
  let secondaryWritten := writeConfigByte primaryWritten bridge.bus bridge.device bridge.function
    pciSecondaryBus secondary
  { state with
    discoveredDevices := state.discoveredDevices.modify position fun object =>
      { object with
        primaryBus := primary
        secondaryBus := secondary
        subordinateBus := subordinate }
    configSpace := writeConfigByte secondaryWritten bridge.bus bridge.device bridge.function
      pciSubordinateBus subordinate
    configured := state.configured ++ [⟨bridge.bus, bridge.device, bridge.function, secondary⟩] }

/-- `updateBridgeSubordinate`, for the object at this position of
`discovered_devices`. -/
def updateBridgeSubordinate (position : Nat) (bridge : PCIDevice) (subordinate : Nat)
    (state : PCIEnumerator) : PCIEnumerator :=
  { state with
    discoveredDevices := state.discoveredDevices.modify position fun object =>
      { object with subordinateBus := subordinate }
    configSpace := writeConfigByte state.configSpace bridge.bus bridge.device bridge.function
      pciSubordinateBus subordinate }

/-! ## Scanning -/

/-- The functions 1 to 7 of a multifunction device. -/
def probeFunctions (busNum device : Nat) (state : PCIEnumerator) : PCIEnumerator :=
  (List.range' 1 pciMaxFunction).foldl (fun current function =>
    match probeDevice current.configSpace busNum device function with
    | none => current
    | some funcDevice => current.pushDevice funcDevice) state

/-- `secondary_bus = ++last_bus_number; configureBridge(…)` -/
def assignBus (position : Nat) (bridge : PCIDevice) (busNum : Nat) (state : PCIEnumerator) :
    PCIEnumerator :=
  let secondaryBus := (state.lastBusNumber + 1) % 256
  configureBridge position bridge busNum secondaryBus pciMaxBus
    { state with lastBusNumber := secondaryBus }

/-- One device of the scan, with `enter` for the recursive call. -/
def scanDevice (enter : Nat → PCIEnumerator → Outcome) (busNum device maxSubordinateBus : Nat)
    (state : PCIEnumerator) : Outcome :=
  match probeDevice state.configSpace busNum device 0 with
  | none => .done maxSubordinateBus state
  | some pciDevice =>
      let position := state.discoveredDevices.length
      let pushed := state.pushDevice pciDevice
      if pciDevice.isBridge then
        let assigned := pushed.assignBus position pciDevice busNum
        (enter assigned.lastBusNumber assigned).andThen fun subordinateBus after =>
          .done (max maxSubordinateBus subordinateBus)
            (after.updateBridgeSubordinate position pciDevice subordinateBus)
      else if pciDevice.isMultifunction then
        .done maxSubordinateBus (pushed.probeFunctions busNum device)
      else .done maxSubordinateBus pushed

/-- The loop of `enumerateBus` over the devices that are left. -/
def scanDevices (enter : Nat → PCIEnumerator → Outcome) (busNum : Nat) :
    List Nat → Nat → PCIEnumerator → Outcome
  | [], maxSubordinateBus, state => .done maxSubordinateBus state
  | device :: rest, maxSubordinateBus, state =>
      (scanDevice enter busNum device maxSubordinateBus state).andThen
        (scanDevices enter busNum rest)

/-- `enumerateBus`, with the fuel for the buses below. -/
def enumerateBus : Nat → Nat → PCIEnumerator → Outcome
  | 0, _, state => .running state
  | fuel + 1, busNum, state =>
      scanDevices (enumerateBus fuel) busNum (List.range (pciMaxDevice + 1)) busNum
        (state.enterBus busNum)

/-- The state before bus 0 is entered. -/
def initial (config : ConfigSpace) : PCIEnumerator where
  discoveredDevices := []
  lastBusNumber := 0
  configSpace := config
  scanned := []
  configured := []

/-- The enumeration of a configuration space, from bus 0. -/
def enumerateSystem (fuel : Nat) (config : ConfigSpace) : Outcome :=
  enumerateBus fuel 0 (initial config)

/-- `setupDevice` of `setupExampleTopology`. -/
def setupDevice (bus dev func vendor device headerType : Nat) (config : ConfigSpace) :
    ConfigSpace :=
  let identified := writeConfigDword config bus dev func 0x00
    (BitVec.ofNat 32 device <<< 16 ||| BitVec.ofNat 32 vendor)
  writeConfigDword identified bus dev func 0x0C (BitVec.ofNat 32 headerType <<< 16)

end PCIEnumerator

end SystemcTlm.Pci
