import SystemcTlm.Container.PriorityQueue
import SystemcTlm.Loop.Range
import SystemcTlm.Transition.Run
import Mathlib.Logic.Function.Basic

/-!
# `PCIeSwitchArbitrator`

The switch arbitrator with four ingress and two egress ports.  A packet is
accepted against a credit of its virtual channel, waits in the buffer of its
ingress port, becomes a request in the queue of its egress port, and gives the
credit back when it is transmitted.

The maps of ports have the keys the constructor puts in, and no call adds one.
`std::priority_queue` and `std::sort` are parameters with their documented
behaviour, the clock is an argument of the cycle.  Packets and requests are held
by shared pointers, so each carries the identity of its object; the caller does
not alter a packet it has handed over.
-/

namespace SystemcTlm.Pcie

open SystemcTlm.Container SystemcTlm.Loop SystemcTlm.Transition

/-- The fields of a packet that the arbitrator reads or writes. -/
structure PCIePacket where
  destinationId : UInt32
  address : UInt32
  dataLength : UInt32
  tc : Nat
  vc : Nat
  ingressPort : Nat
  egressPort : Nat
  priority : Nat
  /-- The object the shared pointer points to. -/
  object : Nat
  deriving DecidableEq

/-- The state of a port. -/
structure PortConfig where
  enabled : Bool
  currentBandwidth : UInt32
  packetCount : UInt32
  /-- Zero for a channel without an entry. -/
  vcCredits : Nat → Nat
  /-- Zero for a class without an entry. -/
  tcPriorityMap : Nat → Nat

/-- The constructor: full credits, and the lowest class has the highest priority. -/
def PortConfig.new : PortConfig where
  enabled := true
  currentBandwidth := 0
  packetCount := 0
  vcCredits := fun vc => if vc < 8 then 256 else 0
  tcPriorityMap := fun tc => if tc < 8 then 7 - tc else 0

/-- An entry of an arbitration queue. -/
structure ArbitrationRequest where
  ingressPort : Nat
  egressPort : Nat
  priority : Nat
  vc : Nat
  packet : PCIePacket
  requestTime : Int
  /-- The object the shared pointer points to. -/
  object : Nat
  deriving DecidableEq

/-- `ArbitrationComparator`: the second request is to be served before the
first. -/
def arbitrationComparator (a b : ArbitrationRequest) : Bool :=
  if a.priority ≠ b.priority then decide (a.priority < b.priority)
  else if a.ingressPort ≠ b.ingressPort then decide (a.ingressPort > b.ingressPort)
  else decide (a.requestTime > b.requestTime)

/-- The comparison of `roundRobinArbitration`. -/
def byIngressPort (a b : ArbitrationRequest) : Bool :=
  decide (a.ingressPort < b.ingressPort)

theorem arbitrationComparator_eq_false {a b : ArbitrationRequest} :
    arbitrationComparator a b = false ↔ b.priority < a.priority ∨ a.priority = b.priority ∧
      (a.ingressPort < b.ingressPort ∨
        a.ingressPort = b.ingressPort ∧ a.requestTime ≤ b.requestTime) := by
  unfold arbitrationComparator
  split_ifs <;> simp <;> omega

/-- The queues as lists in order. -/
def orderedQueues : PriorityQueue ArbitrationRequest arbitrationComparator :=
  PriorityQueue.ofOrder arbitrationComparator
    (by
      intro a b
      simp only [arbitrationComparator_eq_false]
      omega)
    (by
      intro a b c
      simp only [arbitrationComparator_eq_false]
      omega)

/-- The sorting by insertion. -/
def portSorting : Sorting ArbitrationRequest byIngressPort :=
  Sorting.ofOrder byIngressPort
    (by
      intro a b
      simp only [byIngressPort, decide_eq_false_iff_not]
      omega)
    (by
      intro a b c
      simp only [byIngressPort, decide_eq_false_iff_not]
      omega)

/-- The counters. -/
structure Statistics where
  totalPacketsProcessed : UInt64
  totalBytesProcessed : UInt64
  portPacketCount : Nat → UInt64
  portByteCount : Nat → UInt64
  arbitrationWins : Nat → UInt64
  arbitrationConflicts : UInt64
  droppedPackets : UInt64

/-- The counters of a new arbitrator. -/
def Statistics.new : Statistics where
  totalPacketsProcessed := 0
  totalBytesProcessed := 0
  portPacketCount := fun _ => 0
  portByteCount := fun _ => 0
  arbitrationWins := fun _ => 0
  arbitrationConflicts := 0
  droppedPackets := 0

/-- The members of `PCIeSwitchArbitrator`, over a priority queue. -/
structure PCIeSwitchArbitrator
    (queues : PriorityQueue ArbitrationRequest arbitrationComparator) where
  ingressPorts : Nat → PortConfig
  egressPorts : Nat → PortConfig
  arbitrationQueues : Nat → queues.Queue
  ingressBuffers : Nat → List PCIePacket
  routingTable : UInt32 → Option Nat
  stats : Statistics
  lastServedIngressPort : Nat → Nat
  /-- Request objects allocated so far. -/
  allocated : Nat

/-- The keys of `ingress_ports` and `ingress_buffers`. -/
def isIngressPort (port : Nat) : Bool :=
  decide (port < 4)

/-- The keys of `egress_ports` and `arbitration_queues`. -/
def isEgressPort (port : Nat) : Bool :=
  decide (2 ≤ port ∧ port < 4)

namespace PCIeSwitchArbitrator

variable {queues : PriorityQueue ArbitrationRequest arbitrationComparator}

/-- The constructor, with the routes of `initializeRoutingTable`. -/
def new (queues : PriorityQueue ArbitrationRequest arbitrationComparator) :
    PCIeSwitchArbitrator queues where
  ingressPorts := fun _ => PortConfig.new
  egressPorts := fun _ => PortConfig.new
  arbitrationQueues := fun _ => queues.empty
  ingressBuffers := fun _ => []
  routingTable := fun dest =>
    if 0x1000 ≤ dest ∧ dest < 0x2000 then some (if dest % 2 = 0 then 2 else 3) else none
  stats := Statistics.new
  lastServedIngressPort := fun _ => 0
  allocated := 0

/-- `addRoute`.  The port of a route is an egress port. -/
def addRoute (destinationId : UInt32) (egressPort : Nat) (arb : PCIeSwitchArbitrator queues) :
    PCIeSwitchArbitrator queues :=
  if isEgressPort egressPort then
    { arb with
      routingTable := Function.update arb.routingTable destinationId (some egressPort) }
  else arb

/-- Replaces the configuration of an ingress port. -/
def setIngressPort (port : Nat) (config : PortConfig) (arb : PCIeSwitchArbitrator queues) :
    PCIeSwitchArbitrator queues :=
  { arb with ingressPorts := Function.update arb.ingressPorts port config }

/-- `configurePortPriority` -/
def configurePortPriority (port tc priority : Nat) (arb : PCIeSwitchArbitrator queues) :
    PCIeSwitchArbitrator queues :=
  if isIngressPort port then
    arb.setIngressPort port { arb.ingressPorts port with
      tcPriorityMap := Function.update (arb.ingressPorts port).tcPriorityMap tc priority }
  else arb

/-! ## Receiving -/

/-- `stats.dropped_packets++` -/
def countDropped (arb : PCIeSwitchArbitrator queues) : PCIeSwitchArbitrator queues :=
  { arb with stats := { arb.stats with droppedPackets := arb.stats.droppedPackets + 1 } }

/-- `port_config->vc_credits[vc] = credits` -/
def setCredits (port vc credits : Nat) (arb : PCIeSwitchArbitrator queues) :
    PCIeSwitchArbitrator queues :=
  arb.setIngressPort port { arb.ingressPorts port with
    vcCredits := Function.update (arb.ingressPorts port).vcCredits vc credits }

/-- `routePacket`: by the table, or else by the address. -/
def routePacket (packet : PCIePacket) (arb : PCIeSwitchArbitrator queues) : Nat :=
  match arb.routingTable packet.destinationId with
  | some egressPort => egressPort
  | none => if packet.address < 0x80000000 then 2 else 3

/-- Buffers a routed packet and counts it. -/
def bufferPacket (packet : PCIePacket) (arb : PCIeSwitchArbitrator queues) :
    PCIeSwitchArbitrator queues :=
  let port := packet.ingressPort
  { arb with
    ingressBuffers := Function.update arb.ingressBuffers port
      (arb.ingressBuffers port ++ [packet])
    ingressPorts := Function.update arb.ingressPorts port
      { arb.ingressPorts port with packetCount := (arb.ingressPorts port).packetCount + 1 }
    stats := { arb.stats with
      portPacketCount := Function.update arb.stats.portPacketCount port
        (arb.stats.portPacketCount port + 1)
      portByteCount := Function.update arb.stats.portByteCount port
        (arb.stats.portByteCount port + packet.dataLength.toUInt64) } }

/-- The result, the packet as it is afterwards, and the arbitrator.  The credit
is taken before the packet is routed. -/
def receivePacket (packet : PCIePacket) (arb : PCIeSwitchArbitrator queues) :
    Bool × PCIePacket × PCIeSwitchArbitrator queues :=
  let port := packet.ingressPort
  if isIngressPort port = false ∨ (arb.ingressPorts port).enabled = false then
    (false, packet, arb.countDropped)
  else if (arb.ingressPorts port).vcCredits packet.vc = 0 then
    (false, packet, arb.countDropped)
  else
    let charged := arb.setCredits port packet.vc ((arb.ingressPorts port).vcCredits packet.vc - 1)
    let egressPort := charged.routePacket packet
    if egressPort = 0xFF then (false, packet, charged.countDropped)
    else
      let routed := { packet with
        egressPort := egressPort
        priority := (charged.ingressPorts port).tcPriorityMap packet.tc }
      (true, routed, charged.bufferPacket routed)

/-! ## The cycle -/

/-- One ingress port of `processIngressBuffers`. -/
def processIngressBuffer (now : Nat → Int) (port : Nat) (arb : PCIeSwitchArbitrator queues) :
    PCIeSwitchArbitrator queues :=
  match arb.ingressBuffers port with
  | [] => arb
  | packet :: rest =>
      let request : ArbitrationRequest :=
        { ingressPort := packet.ingressPort
          egressPort := packet.egressPort
          priority := packet.priority
          vc := packet.vc
          packet := packet
          requestTime := now port
          object := arb.allocated }
      { arb with
        ingressBuffers := Function.update arb.ingressBuffers port rest
        allocated := arb.allocated + 1
        arbitrationQueues :=
          if isEgressPort packet.egressPort then
            Function.update arb.arbitrationQueues packet.egressPort
              (queues.push request (arb.arbitrationQueues packet.egressPort))
          else arb.arbitrationQueues }

/-- `processIngressBuffers`, over the four ports. -/
def processIngressBuffers (now : Nat → Int) (arb : PCIeSwitchArbitrator queues) :
    PCIeSwitchArbitrator queues :=
  forRange 4 (processIngressBuffer now) arb

/-- The requests in the order the sort leaves them, and the one chosen: the
first port after the one served last, or the first of all. -/
def roundRobinArbitration (sorting : Sorting ArbitrationRequest byIngressPort) (lastServed : Nat)
    (requests : List ArbitrationRequest) : List ArbitrationRequest × Option ArbitrationRequest :=
  let sorted := sorting.sort requests
  (sorted, (sorted.find? fun request => decide (request.ingressPort > lastServed)).or sorted.head?)

/-- The statistics of a won arbitration. -/
def countWin (egressPort : Nat) (packet : PCIePacket) (arb : PCIeSwitchArbitrator queues) :
    PCIeSwitchArbitrator queues :=
  { arb with
    stats := { arb.stats with
      arbitrationWins := Function.update arb.stats.arbitrationWins egressPort
        (arb.stats.arbitrationWins egressPort + 1)
      totalPacketsProcessed := arb.stats.totalPacketsProcessed + 1
      totalBytesProcessed := arb.stats.totalBytesProcessed + packet.dataLength.toUInt64 } }

/-- The case of several requests with the highest priority: the others go back
into the queue. -/
def resolveConflict (sorting : Sorting ArbitrationRequest byIngressPort) (egressPort : Nat)
    (requests : List ArbitrationRequest) (queue : queues.Queue)
    (arb : PCIeSwitchArbitrator queues) :
    Option ArbitrationRequest × PCIeSwitchArbitrator queues :=
  match roundRobinArbitration sorting (arb.lastServedIngressPort egressPort) requests with
  | (_, none) => (none, arb)
  | (sorted, some selected) =>
      (some selected,
        { arb with
          stats := { arb.stats with arbitrationConflicts := arb.stats.arbitrationConflicts + 1 }
          lastServedIngressPort :=
            Function.update arb.lastServedIngressPort egressPort selected.ingressPort
          arbitrationQueues := Function.update arb.arbitrationQueues egressPort
            (queues.pushAll (sorted.filter fun request => request.object ≠ selected.object)
              queue) })

/-- The highest priority is popped as a group.  The loop that puts requests of
lower priority back finds none in the group. -/
def arbitrateEgressPort (sorting : Sorting ArbitrationRequest byIngressPort) (egressPort : Nat)
    (arb : PCIeSwitchArbitrator queues) : Option PCIePacket × PCIeSwitchArbitrator queues :=
  let queue := arb.arbitrationQueues egressPort
  match queues.top queue with
  | none => (none, arb)
  | some first =>
      let popped := queues.popWhile (fun request => request.priority == first.priority)
        (queues.contents queue).card queue
      let lower := popped.1.filter fun request => request.priority < first.priority
      let rest := queues.pushAll lower popped.2
      let outcome :=
        if popped.1.length > 1 then resolveConflict sorting egressPort popped.1 rest arb
        else (popped.1.head?, { arb with
          arbitrationQueues := Function.update arb.arbitrationQueues egressPort rest })
      match outcome with
      | (none, after) => (none, after)
      | (some selected, after) => (some selected.packet, after.countWin egressPort selected.packet)

/-- `restoreVCCredits`.  The sum has 32 bits, and 256 bounds it. -/
def restoreVCCredits (port vc credits : Nat) (arb : PCIeSwitchArbitrator queues) :
    PCIeSwitchArbitrator queues :=
  if isIngressPort port then
    arb.setCredits port vc
      (min (((arb.ingressPorts port).vcCredits vc + credits) % 0x100000000) 256)
  else arb

/-- `transmitPacket`, which gives the credit of the packet back. -/
def transmitPacket (packet : PCIePacket) (arb : PCIeSwitchArbitrator queues) :
    PCIeSwitchArbitrator queues :=
  let config := arb.egressPorts packet.egressPort
  restoreVCCredits packet.ingressPort packet.vc 1
    { arb with
      egressPorts := Function.update arb.egressPorts packet.egressPort { config with
        packetCount := config.packetCount + 1
        currentBandwidth := config.currentBandwidth + packet.dataLength } }

/-- One egress port of `arbitrationCycle`, with the packets it transmits. -/
def serveEgressPort (sorting : Sorting ArbitrationRequest byIngressPort) (egressPort : Nat)
    (arb : PCIeSwitchArbitrator queues) : List PCIePacket × PCIeSwitchArbitrator queues :=
  match arb.arbitrateEgressPort sorting egressPort with
  | (none, after) => ([], after)
  | (some packet, after) => ([packet], after.transmitPacket packet)

/-- The packets transmitted in the cycle, and the arbitrator afterwards. -/
def arbitrationCycle (sorting : Sorting ArbitrationRequest byIngressPort) (now : Nat → Int)
    (arb : PCIeSwitchArbitrator queues) : List PCIePacket × PCIeSwitchArbitrator queues :=
  let first := serveEgressPort sorting 2 (arb.processIngressBuffers now)
  let second := serveEgressPort sorting 3 first.2
  (first.1 ++ second.1, second.2)

/-! ## Runs -/

/-- The public calls. -/
inductive Call
  | receivePacket (packet : PCIePacket)
  | arbitrationCycle (now : Nat → Int)
  | addRoute (destinationId : UInt32) (egressPort : Nat)
  | configurePortPriority (port tc priority : Nat)

/-- An arbitrator with the packets it has accepted and transmitted. -/
structure Logged (queues : PriorityQueue ArbitrationRequest arbitrationComparator) where
  arb : PCIeSwitchArbitrator queues
  accepted : List PCIePacket
  transmitted : List PCIePacket

/-- One call, with the packets that it accepts and transmits. -/
def call (sorting : Sorting ArbitrationRequest byIngressPort) (next : Call)
    (state : Logged queues) : Logged queues :=
  match next with
  | .receivePacket packet =>
      let outcome := state.arb.receivePacket packet
      { state with
        arb := outcome.2.2
        accepted := if outcome.1 then state.accepted ++ [outcome.2.1] else state.accepted }
  | .arbitrationCycle now =>
      let outcome := state.arb.arbitrationCycle sorting now
      { state with
        arb := outcome.2
        transmitted := state.transmitted ++ outcome.1 }
  | .addRoute destinationId egressPort =>
      { state with arb := state.arb.addRoute destinationId egressPort }
  | .configurePortPriority port tc priority =>
      { state with arb := state.arb.configurePortPriority port tc priority }

/-- The state after the calls, from construction. -/
def run (queues : PriorityQueue ArbitrationRequest arbitrationComparator)
    (sorting : Sorting ArbitrationRequest byIngressPort) (calls : List Call) : Logged queues :=
  runCalls (call sorting) calls ⟨new queues, [], []⟩

end PCIeSwitchArbitrator

end SystemcTlm.Pcie
