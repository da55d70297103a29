import SystemcTlm.Pci.Exploration
import Mathlib.Data.List.Infix

/-!
# The recursion

A call of `enumerateBus` ends in one of three ways.  It returns, and the bus and
all that is behind it has been explored.  The fuel is spent, on a bus as high as
the fuel was deep.  Or the bus numbers run out: 256 have been given out, and bus
0 has been entered again.
-/

namespace SystemcTlm.Pci.PCIEnumerator

variable {config : ConfigSpace} {bus device : Nat} {state : PCIEnumerator}

@[simp]
theorem andThen_done (maxBus : Nat) (state : PCIEnumerator)
    (next : Nat → PCIEnumerator → Outcome) :
    (Outcome.done maxBus state).andThen next = next maxBus state :=
  rfl

@[simp]
theorem andThen_running (state : PCIEnumerator) (next : Nat → PCIEnumerator → Outcome) :
    (Outcome.running state).andThen next = Outcome.running state :=
  rfl

/-! ## One device -/

theorem probeFunctions_eq (busNum device : Nat) (state : PCIEnumerator) :
    state.probeFunctions busNum device =
      { state with
        discoveredDevices := state.discoveredDevices ++ (List.range' 1 pciMaxFunction).filterMap
          (probeDevice state.configSpace busNum device) } := by
  rw [probeFunctions]
  generalize List.range' 1 pciMaxFunction = functions
  induction functions generalizing state with
  | nil => simp
  | cons function rest ih =>
      rw [List.foldl_cons, ih]
      cases probed : probeDevice state.configSpace busNum device function with
      | none => simp [probed]
      | some funcDevice => simp [probed, pushDevice]

theorem function_lt : ∀ function ∈ List.range' 1 pciMaxFunction, function < 8 := by
  decide

/-- The functions 1 to 7 are discovered where they exist. -/
theorem furtherFunctions_probed (headers : SameHeaders config state.configSpace)
    (valid : device < 32) :
    ((List.range' 1 pciMaxFunction).filterMap
        (probeDevice state.configSpace bus device)).map PCIDevice.place =
      (furtherFunctions config bus device).map fun function => (bus, device, function) := by
  have bound := function_lt
  rw [furtherFunctions]
  generalize List.range' 1 pciMaxFunction = functions at bound
  induction functions with
  | nil => rfl
  | cons function rest ih =>
      have here := deviceExists_congr bus headers valid (bound function List.mem_cons_self)
      have later := ih fun other member => bound other (List.mem_cons_of_mem _ member)
      cases present : deviceExists config bus device function with
      | false =>
          rw [present] at here
          rw [List.filterMap_cons_none (probeDevice_eq_none here),
            List.filter_cons_of_neg (by simp [present]), later]
      | true =>
          rw [present] at here
          rcases probeDevice_eq_some here with ⟨found, probed, onBus, onDevice, first, -, -⟩
          rw [List.filterMap_cons_some probed, List.filter_cons_of_pos present, List.map_cons,
            List.map_cons, later, PCIDevice.place, onBus, onDevice, first]

/-- What is probed is marked as what it is. -/
theorem probed_isBridge (headers : SameHeaders config state.configSpace) {function : Nat}
    (valid : device < 32) (validFunction : function < 8) {found : PCIDevice}
    (probed : probeDevice state.configSpace bus device function = some found) :
    found.isBridge = isBridgeAt config found.bus found.device found.function := by
  cases present : deviceExists state.configSpace bus device function with
  | false =>
      rw [probeDevice_eq_none present] at probed
      exact absurd probed (by simp)
  | true =>
      rcases probeDevice_eq_some present with ⟨found', probed', onBus, onDevice, first, bridge, -⟩
      rw [probed] at probed'
      rw [Option.some.inj probed', onBus, onDevice, first, bridge,
        isBridgeAt_congr _ headers valid validFunction]

/-- A device without a bridge is discovered with its functions. -/
theorem scanDevice_endpoint (enter : Nat → PCIEnumerator → Outcome) (maxBus : Nat)
    (headers : SameHeaders config state.configSpace) (valid : device < 32)
    (noBridge : isBridgeAt config bus device 0 = false) :
    ∃ more : List PCIDevice, scanDevice enter bus device maxBus state =
        .done maxBus { state with discoveredDevices := state.discoveredDevices ++ more } ∧
      more.map PCIDevice.place = functionsAt config bus device ∧
      ∀ found ∈ more, found.isBridge =
        isBridgeAt config found.bus found.device found.function := by
  have here := deviceExists_congr bus headers valid (show 0 < 8 by decide)
  cases present : deviceExists config bus device 0 with
  | false =>
      rw [present] at here
      refine ⟨[], ?_, ?_, by simp⟩
      · rw [scanDevice, probeDevice_eq_none here, List.append_nil]
      · rw [functionsAt, present]
        rfl
  | true =>
      rw [present] at here
      obtain ⟨found, probed, onBus, onDevice, first, bridge, multifunction⟩ :=
        probeDevice_eq_some here
      rw [isBridgeAt_congr _ headers valid (by decide), noBridge] at bridge
      rw [isMultifunctionAt_congr _ headers valid (by decide)] at multifunction
      have marked := probed_isBridge headers valid (by decide) probed
      cases several : isMultifunctionAt config bus device 0 with
      | false =>
          rw [several] at multifunction
          refine ⟨[found], ?_, ?_, ?_⟩
          · rw [scanDevice, probed]
            simp [bridge, multifunction, pushDevice]
          · rw [functionsAt, present, noBridge, several]
            simp [PCIDevice.place, onBus, onDevice, first]
          · intro other member
            rw [List.mem_singleton.mp member]
            exact marked
      | true =>
          rw [several] at multifunction
          refine ⟨found :: (List.range' 1 pciMaxFunction).filterMap
            (probeDevice state.configSpace bus device), ?_, ?_, ?_⟩
          · rw [scanDevice, probed]
            simp [bridge, multifunction, pushDevice, probeFunctions_eq]
          · rw [functionsAt, present, noBridge, several, List.map_cons,
              furtherFunctions_probed headers valid]
            simp [PCIDevice.place, onBus, onDevice, first]
          · intro other member
            rcases List.mem_cons.mp member with rfl | later
            · exact marked
            · rcases List.mem_filterMap.mp later with ⟨function, range, probed'⟩
              exact probed_isBridge headers valid (function_lt function range) probed'

/-- A bridge is discovered and given the next bus number, and its bus is
entered. -/
theorem scanDevice_bridge (enter : Nat → PCIEnumerator → Outcome) (maxBus : Nat)
    (headers : SameHeaders config state.configSpace) (valid : device < 32)
    (isBridge : isBridgeAt config bus device 0 = true) :
    ∃ bridge : PCIDevice, bridge.place = (bus, device, 0) ∧ bridge.isBridge = true ∧
      scanDevice enter bus device maxBus state =
        (enter (behind bridge bus state).lastBusNumber (behind bridge bus state)).andThen
          fun subordinateBus after => .done (max maxBus subordinateBus)
            (after.updateBridgeSubordinate state.discoveredDevices.length bridge
              subordinateBus) := by
  have here := deviceExists_congr bus headers valid (show 0 < 8 by decide)
  have present : deviceExists config bus device 0 = true :=
    (Bool.and_eq_true_iff.mp isBridge).1
  rw [present] at here
  rcases probeDevice_eq_some here with ⟨bridge, probed, onBus, onDevice, first, marked, -⟩
  rw [isBridgeAt_congr _ headers valid (by decide), isBridge] at marked
  refine ⟨bridge, ?_, marked, ?_⟩
  · rw [PCIDevice.place, onBus, onDevice, first]
  · rw [scanDevice, probed]
    dsimp only
    rw [if_pos marked]
    rfl

/-! ## What is only added to -/

/-- Buses entered and bridges configured stay in the record. -/
def Grows (before after : PCIEnumerator) : Prop :=
  before.scanned <+: after.scanned ∧ before.configured <+: after.configured

theorem Grows.refl (state : PCIEnumerator) : Grows state state :=
  ⟨List.prefix_refl _, List.prefix_refl _⟩

theorem Grows.trans {first second third : PCIEnumerator} (before : Grows first second)
    (after : Grows second third) : Grows first third :=
  ⟨before.1.trans after.1, before.2.trans after.2⟩

theorem grows_behind (bridge : PCIDevice) (bus : Nat) (state : PCIEnumerator) :
    Grows state (behind bridge bus state) :=
  ⟨List.prefix_refl _, List.prefix_append _ _⟩

section Grows

variable {enter : Nat → PCIEnumerator → Outcome}

theorem scanDevice_grows (recursion : ∀ bus state, Grows state (enter bus state).state)
    (bus device maxBus : Nat) (state : PCIEnumerator) :
    Grows state (scanDevice enter bus device maxBus state).state := by
  rw [scanDevice]
  cases probeDevice state.configSpace bus device 0 with
  | none => exact Grows.refl state
  | some found =>
      dsimp only
      split_ifs
      · change Grows state ((enter (behind found bus state).lastBusNumber
          (behind found bus state)).andThen _).state
        have below := (grows_behind found bus state).trans
          (recursion (behind found bus state).lastBusNumber (behind found bus state))
        cases entered : enter (behind found bus state).lastBusNumber (behind found bus state) with
        | running after =>
            rw [entered] at below
            exact below
        | done subordinateBus after =>
            rw [entered] at below
            exact below
      · rw [probeFunctions_eq]
        exact Grows.refl state
      · exact Grows.refl state

theorem scanDevices_grows (recursion : ∀ bus state, Grows state (enter bus state).state)
    (bus : Nat) (devices : List Nat) (maxBus : Nat) (state : PCIEnumerator) :
    Grows state (scanDevices enter bus devices maxBus state).state := by
  induction devices generalizing maxBus state with
  | nil => exact Grows.refl state
  | cons device rest ih =>
      have first := scanDevice_grows recursion bus device maxBus state
      rw [scanDevices]
      cases scanned : scanDevice enter bus device maxBus state with
      | running after =>
          rw [scanned] at first
          exact first
      | done maxBus' after =>
          rw [scanned] at first
          exact first.trans (ih maxBus' after)

end Grows

theorem enumerateBus_grows (fuel bus : Nat) (state : PCIEnumerator) :
    Grows state (enumerateBus fuel bus state).state := by
  induction fuel generalizing bus state with
  | zero => exact Grows.refl state
  | succ fuel ih =>
      have entered : Grows state (state.enterBus bus) :=
        ⟨List.prefix_append _ _, List.prefix_refl _⟩
      exact entered.trans (scanDevices_grows ih bus _ _ _)

/-! ## More fuel -/

section Fuel

variable {enter enter' : Nat → PCIEnumerator → Outcome}

/-- What follows a call that returns is the same wherever the call returns the
same. -/
theorem andThen_eq_done {outcome outcome' : Outcome} {next next' : Nat → PCIEnumerator → Outcome}
    {maxBus : Nat} {after : PCIEnumerator}
    (agree : ∀ maxBus state, outcome = .done maxBus state → outcome' = .done maxBus state)
    (agreeNext : ∀ maxBus' state', next maxBus' state' = .done maxBus after →
      next' maxBus' state' = .done maxBus after)
    (returns : outcome.andThen next = .done maxBus after) :
    outcome'.andThen next' = .done maxBus after := by
  cases first : outcome with
  | running now =>
      rw [first] at returns
      exact Outcome.noConfusion returns
  | done maxBus' now =>
      rw [first] at returns
      rw [agree maxBus' now first]
      exact agreeNext maxBus' now returns

theorem scanDevices_mono
    (agree : ∀ bus state maxBus after, enter bus state = .done maxBus after →
      enter' bus state = .done maxBus after)
    {devices : List Nat} {maxBus maxBus' : Nat} {after : PCIEnumerator}
    (returns : scanDevices enter bus devices maxBus state = .done maxBus' after) :
    scanDevices enter' bus devices maxBus state = .done maxBus' after := by
  induction devices generalizing maxBus state with
  | nil => exact returns
  | cons device rest ih =>
      rw [scanDevices] at returns ⊢
      apply andThen_eq_done _ (fun _ _ => ih) returns
      intro maxBus'' now
      rw [scanDevice, scanDevice]
      cases probeDevice state.configSpace bus device 0 with
      | none => exact id
      | some found =>
          dsimp only
          split_ifs
          · exact andThen_eq_done (agree _ _) fun _ _ => id
          · exact id
          · exact id

end Fuel

/-- A call that returns does the same with more fuel. -/
theorem enumerateBus_mono {fuel fuel' maxBus : Nat} {after : PCIEnumerator} (more : fuel ≤ fuel')
    (returns : enumerateBus fuel bus state = .done maxBus after) :
    enumerateBus fuel' bus state = .done maxBus after := by
  induction fuel generalizing fuel' bus state maxBus after with
  | zero => exact Outcome.noConfusion returns
  | succ fuel ih =>
      rcases Nat.exists_eq_succ_of_ne_zero (show fuel' ≠ 0 by omega) with ⟨fuel', rfl⟩
      rw [enumerateBus] at returns ⊢
      exact scanDevices_mono (fun _ _ _ _ => ih (by omega)) returns

/-! ## How a call ends -/

/-- The devices of `bus` from `start` on have been scanned, and all that is
behind them. -/
def Explores (config : ConfigSpace) (bus : Nat) (devices : List Nat) (start : PCIEnumerator)
    (outcome : Outcome) : Prop :=
  ∃ now new assigned, outcome = .done now.lastBusNumber now ∧
    Progress config bus devices start new assigned now

/-- The fuel was spent on a bus numbered `depth` or above. -/
def Spent (config : ConfigSpace) (depth : Nat) (outcome : Outcome) : Prop :=
  ∃ now, outcome = .running now ∧ Ready config now ∧ depth ≤ now.lastBusNumber ∧
    now.lastBusNumber ≤ 255

/-- The bus numbers ran out, and a bus was entered twice. -/
structure Overflowed (config : ConfigSpace) (outcome : Outcome) : Prop where
  reaches : Reaches config 256
  assigned : 256 ≤ outcome.state.configured.length
  twice : ∀ maxBus state, outcome = .done maxBus state → ¬ state.scanned.Nodup

/-- The three ends of a call. -/
def Ends (config : ConfigSpace) (bus : Nat) (devices : List Nat) (depth : Nat)
    (start : PCIEnumerator) (outcome : Outcome) : Prop :=
  Explores config bus devices start outcome ∨ Spent config depth outcome ∨
    Overflowed config outcome

theorem Spent.mono {depth depth' : Nat} {outcome : Outcome} (spent : Spent config depth outcome)
    (lower : depth' ≤ depth) : Spent config depth' outcome := by
  rcases spent with ⟨now, running, ready, deep, bound⟩
  exact ⟨now, running, ready, lower.trans deep, bound⟩

/-- A bus that is entered twice stays so. -/
theorem Overflowed.andThen {outcome : Outcome} (overflowed : Overflowed config outcome)
    {next : Nat → PCIEnumerator → Outcome}
    (grows : ∀ maxBus state, Grows state (next maxBus state).state) :
    Overflowed config (outcome.andThen next) := by
  cases outcome with
  | running state => exact ⟨overflowed.reaches, overflowed.assigned, by simp⟩
  | done maxBus state =>
      have later := grows maxBus state
      constructor
      · exact overflowed.reaches
      · exact overflowed.assigned.trans later.2.length_le
      · intro maxBus' state' done distinct
        rw [andThen_done] at done
        rw [done] at later
        exact overflowed.twice maxBus state rfl (distinct.sublist later.1.sublist)

/-! ## A bridge that has no number yet -/

/-- Configuring a bridge leaves what the buses show. -/
theorem sameHeaders_behind (headers : SameHeaders config state.configSpace) {bridge : PCIDevice}
    (valid : bridge.device < 32) (first : bridge.function = 0) :
    SameHeaders config (behind bridge bus state).configSpace := by
  intro bus' device' function offset validDevice validFunction validOffset header
  rw [find_behind]
  · exact headers bus' device' function offset validDevice validFunction validOffset header
  · exact Assignment.address_ne_header ⟨valid, first⟩ validDevice validFunction validOffset header

/-- A bridge that has not been configured. -/
structure Unassigned (config : ConfigSpace) (bus device : Nat) (state : PCIEnumerator) : Prop where
  bus_le : bus ≤ state.lastBusNumber
  device_lt : device < 32
  isBridge : isBridgeAt config bus device 0 = true
  fresh : (bus, device, 0) ∉ state.configured.map Assignment.place

section Unassigned

variable {bridge : PCIDevice}

/-- The assignments with one more, which gets the number after the last. -/
theorem Unassigned.extended (unassigned : Unassigned config bus device state)
    (ready : Ready config state) {assignment : Assignment}
    (place : assignment.place = (bus, device, 0))
    (number : assignment.secondary = state.lastBusNumber + 1) :
    (state.configured ++ [assignment]).map Assignment.secondary =
        List.range' 1 (state.lastBusNumber + 1) ∧
      (∀ other ∈ state.configured ++ [assignment], other.bus < other.secondary) ∧
      (∀ other ∈ state.configured ++ [assignment],
        other.place ∈ onBus (bridgeAt config) other.bus) ∧
      ((state.configured ++ [assignment]).map Assignment.place).Nodup := by
  have onBus : assignment.bus = bus := congrArg Prod.fst place
  refine ⟨?_, ?_, ?_, ?_⟩
  · rw [List.map_append, ready.secondaries, List.range'_1_concat, List.map_singleton, number,
      Nat.add_comm 1]
  · intro other member
    rcases List.mem_append.mp member with old | new
    · exact ready.below other old
    · rw [List.mem_singleton.mp new, onBus, number]
      exact Nat.lt_succ_of_le unassigned.bus_le
  · intro other member
    rcases List.mem_append.mp member with old | new
    · exact ready.bridges other old
    · rw [List.mem_singleton.mp new, place, mem_onBus_bridgeAt_iff, onBus]
      exact ⟨rfl, unassigned.device_lt, rfl, unassigned.isBridge⟩
  · rw [List.map_append, List.nodup_append']
    refine ⟨ready.distinct, List.nodup_singleton _, ?_⟩
    intro other old new
    rw [List.map_singleton, List.mem_singleton, place] at new
    exact unassigned.fresh (new ▸ old)

/-- A number after the last is needed. -/
theorem Unassigned.reaches (unassigned : Unassigned config bus device state)
    (ready : Ready config state) : Reaches config (state.lastBusNumber + 1) := by
  obtain ⟨secondaries, below, bridges, distinct⟩ := unassigned.extended ready
    (show Assignment.place ⟨bus, device, 0, state.lastBusNumber + 1⟩ = _ from rfl) rfl
  exact reaches_of_assigned secondaries below bridges distinct

/-- While there are numbers left, the bus behind the bridge is entered in order. -/
theorem Unassigned.ready (unassigned : Unassigned config bus device state)
    (ready : Ready config state) (more : state.lastBusNumber < 255)
    (place : bridge.place = (bus, device, 0)) : Ready config (behind bridge bus state) := by
  have number := secondary_assignmentOf bridge more
  obtain ⟨secondaries, below, bridges, distinct⟩ := unassigned.extended ready
    (show (assignmentOf bridge state).place = _ from place) number
  have last : (behind bridge bus state).lastBusNumber = state.lastBusNumber + 1 := number
  have configured : (behind bridge bus state).configured =
      state.configured ++ [assignmentOf bridge state] := rfl
  exact {
    headers := by
      rcases (place_eq_iff bridge).mp place with ⟨-, onDevice, first⟩
      exact sameHeaders_behind ready.headers (onDevice.trans_lt unassigned.device_lt) first
    secondaries := by
      rw [last, configured]
      exact secondaries
    below := configured ▸ below
    bridges := configured ▸ bridges
    distinct := configured ▸ distinct }

end Unassigned

/-! ## The induction -/

/-- A call that returns has entered its bus. -/
theorem enumerateBus_enters {fuel maxBus : Nat} {after : PCIEnumerator}
    (returns : enumerateBus fuel bus state = .done maxBus after) :
    state.scanned ++ [bus] <+: after.scanned := by
  cases fuel with
  | zero => exact absurd returns (by simp [enumerateBus])
  | succ fuel =>
      have later := scanDevices_grows (enumerateBus_grows fuel) bus
        (List.range (pciMaxDevice + 1)) bus (state.enterBus bus)
      rw [enumerateBus] at returns
      rw [returns] at later
      exact later.1

/-- The bridge that needs a 257th number gets number 0. -/
theorem overflowed_behind (fuel : Nat) (unassigned : Unassigned config bus device state)
    (ready : Ready config state) (full : state.lastBusNumber = 255)
    (scanned : state.scanned = List.range 256) (bridge : PCIDevice) :
    Overflowed config (enumerateBus fuel (behind bridge bus state).lastBusNumber
      (behind bridge bus state)) where
  reaches := by
    have needed := unassigned.reaches ready
    rwa [full] at needed
  assigned := by
    have grown := (enumerateBus_grows fuel (behind bridge bus state).lastBusNumber
      (behind bridge bus state)).2.length_le
    have configured : (behind bridge bus state).configured.length =
        state.configured.length + 1 := List.length_append
    rw [configured, ready.length_configured, full] at grown
    exact grown
  twice := by
    intro maxBus after returns distinct
    have entered := distinct.sublist (enumerateBus_enters returns).sublist
    have again : (behind bridge bus state).lastBusNumber = 0 := by
      change (state.lastBusNumber + 1) % 256 = 0
      rw [full]
    have before : (behind bridge bus state).scanned = List.range 256 := scanned
    rw [again, before, List.nodup_append'] at entered
    exact entered.2.2 (List.mem_range.mpr (by decide)) (List.mem_singleton_self 0)

section Induction

variable {fuel : Nat} {devices : List Nat} {start : PCIEnumerator} {new : List PCIDevice}
  {assigned : List Assignment}

/-- What the recursive calls are known to do. -/
def Recursion (config : ConfigSpace) (fuel : Nat) : Prop :=
  ∀ start : PCIEnumerator, Ready config start → start.lastBusNumber ≤ 255 →
    start.scanned = List.range start.lastBusNumber →
    Ends config start.lastBusNumber (List.range (pciMaxDevice + 1)) (start.lastBusNumber + fuel)
      start (enumerateBus fuel start.lastBusNumber start)

/-- The next device. -/
theorem scanDevice_ends (recursion : Recursion config fuel)
    (progress : Progress config bus devices start new assigned state)
    (ready : Ready config start) (entered : start.lastBusNumber = bus)
    (valid : ∀ other ∈ devices ++ [device], other < 32) (distinct : (devices ++ [device]).Nodup) :
    Ends config bus (devices ++ [device]) (bus + fuel + 1) start
      (scanDevice (enumerateBus fuel) bus device state.lastBusNumber state) := by
  have validBefore : ∀ other ∈ devices, other < 32 :=
    fun other member => valid other (List.mem_append_left _ member)
  have validDevice := valid device (by simp)
  have distinctBefore := distinct.sublist (List.sublist_append_left _ _)
  have fresh : device ∉ devices :=
    fun member => List.disjoint_of_nodup_append distinct member (List.mem_singleton_self _)
  have now := progress.ready validBefore distinctBefore ready entered
  cases isBridge : isBridgeAt config bus device 0 with
  | false =>
      obtain ⟨more, scans, found, probed⟩ :=
        scanDevice_endpoint (enumerateBus fuel) state.lastBusNumber now.headers validDevice isBridge
      exact Or.inl ⟨_, _, _, scans, progress.endpoint isBridge found probed⟩
  | true =>
      obtain ⟨bridge, place, marked, scans⟩ :=
        scanDevice_bridge (enumerateBus fuel) state.lastBusNumber now.headers validDevice isBridge
      have unassigned : Unassigned config bus device state := {
        bus_le := progress.bus_le
        device_lt := validDevice
        isBridge := isBridge
        fresh := by
          intro used
          rcases List.mem_map.mp used with ⟨other, member, place⟩
          have sameBus : other.bus = bus := congrArg Prod.fst place
          have sameDevice : other.device = device := congrArg (fun place => place.2.1) place
          rw [progress.configured, List.mem_append] at member
          rcases member with before | later
          · have lower := ready.bus_lt before
            omega
          · rcases (progress.place validBefore later).2 with ⟨-, scanned⟩ | higher
            · rw [sameDevice] at scanned
              exact fresh scanned
            · omega }
      rw [scans]
      rcases progress.last_le.lt_or_eq with more | full
      · have last : (behind bridge bus state).lastBusNumber = state.lastBusNumber + 1 :=
          secondary_assignmentOf bridge more
        have ends := recursion (behind bridge bus state) (unassigned.ready now more place)
          (by omega) (by rw [last]; exact progress.scanned)
        rcases ends with ⟨after, childNew, childAssigned, returns, child⟩ | spent | overflowed
        · rw [last] at child
          have further := child.bus_le
          left
          rw [returns, andThen_done, Nat.max_eq_right (by omega)]
          exact ⟨_, _, _, rfl, BridgeStep.progress_after ⟨progress, validBefore, validDevice, fresh,
            more, place, isBridge, marked, child⟩⟩
        · obtain ⟨after, running, rest⟩ := spent.mono (show bus + fuel + 1 ≤ _ by
            have inside := progress.bus_le
            omega)
          right; left
          rw [running, andThen_running]
          exact ⟨after, rfl, rest⟩
        · right; right
          exact overflowed.andThen fun _ after => Grows.refl after
      · right; right
        apply (overflowed_behind fuel unassigned now full _ bridge).andThen
        · exact fun _ after => Grows.refl after
        · rw [progress.scanned, full]

/-- The rest of the devices. -/
theorem scanDevices_ends (recursion : Recursion config fuel) {rest : List Nat}
    (progress : Progress config bus devices start new assigned state)
    (ready : Ready config start) (entered : start.lastBusNumber = bus)
    (valid : ∀ other ∈ devices ++ rest, other < 32) (distinct : (devices ++ rest).Nodup) :
    Ends config bus (devices ++ rest) (bus + fuel + 1) start
      (scanDevices (enumerateBus fuel) bus rest state.lastBusNumber state) := by
  induction rest generalizing devices new assigned state with
  | nil =>
      rw [List.append_nil]
      exact Or.inl ⟨state, new, assigned, rfl, progress⟩
  | cons device rest ih =>
      rw [List.append_cons] at valid distinct ⊢
      have ends := scanDevice_ends recursion progress ready entered
        (fun other member => valid other (List.mem_append_left _ member))
        (distinct.sublist (List.sublist_append_left _ _))
      rw [scanDevices]
      rcases ends with ⟨now, new', assigned', scans, further⟩ | ⟨now, running, rest⟩ | overflowed
      · rw [scans, andThen_done]
        exact ih further valid distinct
      · rw [running, andThen_running]
        exact Or.inr (Or.inl ⟨now, rfl, rest⟩)
      · right; right
        exact overflowed.andThen fun maxBus after =>
          scanDevices_grows (enumerateBus_grows fuel) bus rest maxBus after

/-- Every call of `enumerateBus` on the bus with the last number given out ends in
one of the three ways. -/
theorem enumerateBus_ends (config : ConfigSpace) (fuel : Nat) : Recursion config fuel := by
  induction fuel with
  | zero =>
      intro start ready bound _
      exact Or.inr (Or.inl ⟨start, rfl, ready, le_refl _, bound⟩)
  | succ fuel ih =>
      intro start ready bound scanned
      have valid : ∀ other ∈ [] ++ List.range (pciMaxDevice + 1), other < 32 :=
        fun _ => List.mem_range.mp
      have distinct : ([] ++ List.range (pciMaxDevice + 1)).Nodup := List.nodup_range
      exact scanDevices_ends ih (progress_nil config bound scanned) ready rfl valid distinct

end Induction

/-- Where every bus has a bridge at its first device, no call returns. -/
theorem enumerateBus_running (everywhere : ∀ bus < 256, isBridgeAt config bus 0 0 = true)
    (fuel : Nat) (bound : bus < 256) (headers : SameHeaders config state.configSpace) :
    ∃ now, enumerateBus fuel bus state = .running now := by
  induction fuel generalizing bus state with
  | zero => exact ⟨state, rfl⟩
  | succ fuel ih =>
      have entered : SameHeaders config (state.enterBus bus).configSpace := headers
      obtain ⟨bridge, place, -, scans⟩ := scanDevice_bridge (enumerateBus fuel) bus entered
        (show 0 < 32 by decide) (everywhere bus bound)
      rcases (place_eq_iff bridge).mp place with ⟨-, onDevice, first⟩
      have number : (behind bridge bus (state.enterBus bus)).lastBusNumber < 256 :=
        Nat.mod_lt _ (by decide)
      obtain ⟨now, running⟩ := ih number
        (sameHeaders_behind entered (onDevice.trans_lt (show 0 < 32 by decide)) first)
      refine ⟨now, ?_⟩
      rw [enumerateBus, List.range_succ_eq_map, scanDevices, scans, running, andThen_running,
        andThen_running]

/-! ## The whole enumeration -/

theorem ready_initial (config : ConfigSpace) : Ready config (initial config) where
  headers := fun _ _ _ _ _ _ _ _ => rfl
  secondaries := rfl
  below := by simp [initial]
  bridges := by simp [initial]
  distinct := List.nodup_nil

theorem enumerateSystem_ends (fuel : Nat) (config : ConfigSpace) :
    Ends config 0 (List.range (pciMaxDevice + 1)) fuel (initial config)
      (enumerateSystem fuel config) := by
  have ends := enumerateBus_ends config fuel (initial config) (ready_initial config)
    (Nat.zero_le _) rfl
  rwa [show (initial config).lastBusNumber + fuel = fuel from Nat.zero_add fuel] at ends

/-- The state that an enumeration leaves when it returns in order. -/
structure Enumerated (config : ConfigSpace) (state : PCIEnumerator) : Prop where
  last_le : state.lastBusNumber ≤ 255
  scanned : state.scanned = List.range (state.lastBusNumber + 1)
  functions : (state.discoveredDevices.map PCIDevice.place).Perm
    ((List.range (state.lastBusNumber + 1)).flatMap (onBus (functionsAt config)))
  probed : ∀ found ∈ state.discoveredDevices, found.isBridge =
    isBridgeAt config found.bus found.device found.function
  bridges : (state.configured.map Assignment.place).Perm
    ((List.range (state.lastBusNumber + 1)).flatMap (onBus (bridgeAt config)))
  secondaries : state.configured.map Assignment.secondary = List.range' 1 state.lastBusNumber
  below : ∀ assignment ∈ state.configured, assignment.bus < assignment.secondary
  settled : ∀ assignment ∈ state.configured,
    Settled state.discoveredDevices state.configured state assignment

theorem enumerated_of_explores {outcome : Outcome}
    (explores : Explores config 0 (List.range (pciMaxDevice + 1)) (initial config) outcome) :
    ∃ now, outcome = .done now.lastBusNumber now ∧ Enumerated config now := by
  rcases explores with ⟨now, new, assigned, returns, progress⟩
  have discovered : now.discoveredDevices = new := progress.discovered
  have configured : now.configured = assigned := progress.configured
  have functions := progress.functions
  have bridges := progress.bridges
  rw [explored_all (Nat.zero_le _), Nat.sub_zero, ← List.range_eq_range'] at functions bridges
  refine ⟨now, returns, ?_⟩
  exact {
    last_le := progress.last_le
    scanned := progress.scanned
    functions := discovered ▸ functions
    probed := discovered ▸ progress.probed
    bridges := configured ▸ bridges
    secondaries := configured ▸ progress.secondaries
    below := configured ▸ progress.below
    settled := by
      rw [discovered, configured]
      exact progress.settled }

section Enumerated

theorem Enumerated.place_mem (enumerated : Enumerated config state) {assignment : Assignment}
    (member : assignment ∈ state.configured) :
    assignment.place ∈ onBus (bridgeAt config) assignment.bus := by
  have known := enumerated.bridges.subset (List.mem_map_of_mem member)
  rcases List.mem_flatMap.mp known with ⟨bus, -, found⟩
  have sameBus : assignment.bus = bus := (mem_onBus_bridgeAt_iff.mp found).1
  rwa [sameBus]

theorem Enumerated.reaches (enumerated : Enumerated config state) :
    Reaches config state.lastBusNumber := by
  apply reaches_of_assigned enumerated.secondaries enumerated.below
  · exact fun assignment member => enumerated.place_mem member
  · exact enumerated.bridges.nodup_iff.mpr (nodup_buses (keyed_bridgeAt config) List.nodup_range)

/-- Every number given out is used by one bridge. -/
theorem Enumerated.bridgeCount_eq (enumerated : Enumerated config state) :
    bridgeCount config state.lastBusNumber = state.lastBusNumber := by
  have numbers := congrArg List.length enumerated.secondaries
  rw [List.length_map, List.length_range'] at numbers
  rw [bridgeCount, ← enumerated.bridges.length_eq, List.length_map, numbers]

/-- An enumeration with enough numbers returns in order, and gives out at most
255 on the way. -/
theorem bounded_of_bridgeCount {top : Nat} (bound : top ≤ 255)
    (few : bridgeCount config top ≤ top) (fuel : Nat) :
    (enumerateSystem fuel config).state.configured.length ≤ 255 := by
  rcases enumerateSystem_ends fuel config with
    explores | ⟨now, running, ready, -, last⟩ | overflowed
  · rcases enumerated_of_explores explores with ⟨now, returns, enumerated⟩
    have numbers := congrArg List.length enumerated.secondaries
    rw [List.length_map, List.length_range'] at numbers
    rw [returns]
    exact numbers.trans_le enumerated.last_le
  · rw [running]
    exact ready.length_configured.trans_le last
  · have further := overflowed.reaches top (by omega)
    omega

/-- With at most 255 numbers a fuel of 256 is enough. -/
theorem enumerated_of_bounded
    (bounded : ∀ fuel, (enumerateSystem fuel config).state.configured.length ≤ 255) :
    ∃ now, (∀ fuel, 256 ≤ fuel → enumerateSystem fuel config = .done now.lastBusNumber now) ∧
      Enumerated config now := by
  rcases enumerateSystem_ends 256 config with explores | ⟨now, -, -, deep, last⟩ | overflowed
  · rcases enumerated_of_explores explores with ⟨now, returns, enumerated⟩
    exact ⟨now, fun fuel more => enumerateBus_mono more returns, enumerated⟩
  · omega
  · have enough := bounded 256
    have more := overflowed.assigned
    omega

/-- With at most 255 numbers, whatever returns has returned in order. -/
theorem enumerated_of_done
    (bounded : ∀ fuel, (enumerateSystem fuel config).state.configured.length ≤ 255)
    {fuel maxBus : Nat} (returns : enumerateSystem fuel config = .done maxBus state) :
    Enumerated config state := by
  rcases enumerateSystem_ends fuel config with explores | ⟨now, running, -⟩ | overflowed
  · rcases enumerated_of_explores explores with ⟨now, returns', enumerated⟩
    rw [returns] at returns'
    rw [(Outcome.done.inj returns').2]
    exact enumerated
  · rw [running] at returns
    exact Outcome.noConfusion returns
  · have enough := bounded fuel
    have more := overflowed.assigned
    omega

end Enumerated

end SystemcTlm.Pci.PCIEnumerator
