import SystemcTlm.Transition.Run
import Mathlib.Logic.Function.Basic

/-!
# `node`

Two nodes whose sockets are bound crosswise.  An activation sends a `DATA`
message against a credit and gives back one credit that it owes.  A message is a
synchronous call of the other node's `nb_transport_fw`, which changes the
counters of that node in the middle of the activation of this one.

What one side holds in credits and the other owes is constant, and nothing is on
the way between two activations.
-/

namespace SystemcTlm.CreditLoop

open SystemcTlm.Transition

/-- `MY_API_T` -/
inductive Api
  | ctrl (credit : Int)
  | data (a b c : Int)

/-- The counters of a `node`, and what it has printed. -/
structure Node where
  val : Int
  credit : Int
  creditRet : Int
  /-- The values of the lines `snd value`. -/
  sent : List Int
  /-- The values of the lines `rcv data`. -/
  received : List Int

namespace Node

/-- The constructor, with the credit of the configuration file. -/
def new (credit : Int) : Node where
  val := 0
  credit := credit
  creditRet := 0
  sent := []
  received := []

/-- `nb_transport_fw`.  Credits are added up, and data is taken against a credit
that the node then owes. -/
def nbTransportFw (api : Api) (node : Node) : Node :=
  match api with
  | .ctrl credit => { node with credit := node.credit + credit }
  | .data a _ _ =>
      { node with
        creditRet := node.creditRet + 1
        received := node.received ++ [a] }

end Node

/-- The two nodes. -/
inductive Side
  | a
  | b
  deriving DecidableEq

/-- The node at the other end of `tx`. -/
def Side.other : Side → Side
  | .a => .b
  | .b => .a

/-- The states of the nodes. -/
abbrev System :=
  Side → Node

namespace System

/-- `tx->nb_transport_fw(trans, phase, time)` in the node at `side`. -/
def transport (side : Side) (api : Api) (system : System) : System :=
  Function.update system side.other ((system side.other).nbTransportFw api)

/-- The `DATA` half of `mth_entry`. -/
def sendData (side : Side) (system : System) : System :=
  if 0 < (system side).credit then
    let value := 10 + (system side).val
    let transported := system.transport side (.data value 97 101)
    Function.update transported side
      { transported side with
        credit := (transported side).credit - 1
        val := (transported side).val + 1
        sent := (transported side).sent ++ [value] }
  else system

/-- The `CTRL` half of `mth_entry`. -/
def sendCredit (side : Side) (system : System) : System :=
  if 0 < (system side).creditRet then
    let transported := system.transport side (.ctrl 1)
    Function.update transported side
      { transported side with creditRet := (transported side).creditRet - 1 }
  else system

/-- `mth_entry`, one activation of the node at `side`. -/
def mthEntry (side : Side) (system : System) : System :=
  (system.sendData side).sendCredit side

/-- Both nodes after construction. -/
def start (credit : Side → Int) : System :=
  fun side => Node.new (credit side)

/-- The state after the activations, in their order. -/
def run (credit : Side → Int) (order : List Side) : System :=
  runCalls mthEntry order (start credit)

/-- A clock cycle in which `first` is activated before the other node. -/
def cycle (first : Side) (system : System) : System :=
  (system.mthEntry first).mthEntry first.other

/-- The state after the cycles, each with the node that is first in it. -/
def runCycles (credit : Side → Int) (firsts : List Side) : System :=
  runCalls cycle firsts (start credit)

end System

/-! ## One activation -/

@[simp]
theorem Side.other_other (side : Side) : side.other.other = side := by
  cases side <;> rfl

@[simp]
theorem Side.other_ne (side : Side) : side.other ≠ side := by
  cases side <;> decide

@[simp]
theorem Side.ne_other (side : Side) : side ≠ side.other :=
  side.other_ne.symm

/-- Both nodes, as seen from one of them. -/
theorem Side.forall_iff (side : Side) {P : Side → Prop} :
    (∀ place, P place) ↔ P side ∧ P side.other := by
  constructor
  · exact fun all => ⟨all side, all side.other⟩
  · rintro ⟨self, other⟩ place
    cases side <;> cases place
    · exact self
    · exact other
    · exact other
    · exact self

namespace System

variable {credit : Side → Int} {system : System} {side : Side}

theorem sendData_self (side : Side) (system : System) :
    system.sendData side side =
      if 0 < (system side).credit then
        { system side with
          credit := (system side).credit - 1
          val := (system side).val + 1
          sent := (system side).sent ++ [10 + (system side).val] }
      else system side := by
  rw [sendData]
  split_ifs
  · rw [Function.update_self]
    simp [transport]
  · rfl

theorem sendData_other (side : Side) (system : System) :
    system.sendData side side.other =
      if 0 < (system side).credit then
        { system side.other with
          creditRet := (system side.other).creditRet + 1
          received := (system side.other).received ++ [10 + (system side).val] }
      else system side.other := by
  rw [sendData]
  split_ifs
  · rw [Function.update_of_ne side.other_ne, transport, Function.update_self]
    rfl
  · rfl

theorem sendCredit_self (side : Side) (system : System) :
    system.sendCredit side side =
      if 0 < (system side).creditRet then
        { system side with creditRet := (system side).creditRet - 1 }
      else system side := by
  rw [sendCredit]
  split_ifs
  · rw [Function.update_self]
    simp [transport]
  · rfl

theorem sendCredit_other (side : Side) (system : System) :
    system.sendCredit side side.other =
      if 0 < (system side).creditRet then
        { system side.other with credit := (system side.other).credit + 1 }
      else system side.other := by
  rw [sendCredit]
  split_ifs
  · rw [Function.update_of_ne side.other_ne, transport, Function.update_self]
    rfl
  · rfl

/-! ## Conservation -/

/-- What holds between the activations of nodes that began with `credit`. -/
structure Balanced (credit : Side → Int) (system : System) : Prop where
  conserved : ∀ side, (system side).credit + (system side.other).creditRet = credit side
  credit_nonneg : ∀ side, 0 ≤ (system side).credit
  creditRet_nonneg : ∀ side, 0 ≤ (system side).creditRet
  received_eq : ∀ side, (system side.other).received = (system side).sent
  val_eq : ∀ side, (system side).val = (system side).sent.length
  sent_eq : ∀ side, (system side).sent =
    (List.range (system side).sent.length).map fun k : Nat => 10 + (k : Int)

theorem balanced_start (nonneg : ∀ side, 0 ≤ credit side) : Balanced credit (start credit) where
  conserved _ := Int.add_zero _
  credit_nonneg := nonneg
  creditRet_nonneg _ := Int.le_refl 0
  received_eq _ := rfl
  val_eq _ := rfl
  sent_eq _ := rfl

/-- The values sent, with one more. -/
theorem sent_concat {sent : List Int} {val : Int} (counted : val = sent.length)
    (consecutive : sent = (List.range sent.length).map fun k : Nat => 10 + (k : Int)) :
    sent ++ [10 + val] =
      (List.range (sent ++ [10 + val]).length).map fun k : Nat => 10 + (k : Int) := by
  rw [List.length_append, List.length_singleton, List.range_succ, List.map_append, ← consecutive,
    counted]
  rfl

/-- A `DATA` message moves a credit to what the receiver owes. -/
theorem Balanced.sendData (balanced : Balanced credit system) (side : Side) :
    Balanced credit (system.sendData side) := by
  by_cases sends : 0 < (system side).credit
  · have self := sendData_self side system
    have other := sendData_other side system
    rw [if_pos sends] at self other
    have conserved := side.forall_iff.mp balanced.conserved
    have held := side.forall_iff.mp balanced.credit_nonneg
    have owed := side.forall_iff.mp balanced.creditRet_nonneg
    have received := side.forall_iff.mp balanced.received_eq
    have val := side.forall_iff.mp balanced.val_eq
    have sent := side.forall_iff.mp balanced.sent_eq
    rw [Side.other_other] at conserved received
    constructor <;> rw [side.forall_iff, self, other]
    · rw [Side.other_other, self]
      dsimp only
      omega
    · dsimp only
      omega
    · dsimp only
      omega
    · rw [Side.other_other, self]
      exact ⟨congrArg (· ++ _) received.1, received.2⟩
    · refine ⟨?_, val.2⟩
      dsimp only
      rw [List.length_append, List.length_singleton]
      omega
    · exact ⟨sent_concat val.1 sent.1, sent.2⟩
  · rwa [show system.sendData side = system from if_neg sends]

/-- A `CTRL` message moves what the sender owes back to the receiver. -/
theorem Balanced.sendCredit (balanced : Balanced credit system) (side : Side) :
    Balanced credit (system.sendCredit side) := by
  by_cases owes : 0 < (system side).creditRet
  · have self := sendCredit_self side system
    have other := sendCredit_other side system
    rw [if_pos owes] at self other
    have conserved := side.forall_iff.mp balanced.conserved
    have held := side.forall_iff.mp balanced.credit_nonneg
    have owed := side.forall_iff.mp balanced.creditRet_nonneg
    have received := side.forall_iff.mp balanced.received_eq
    rw [Side.other_other] at conserved received
    constructor <;> rw [side.forall_iff, self, other]
    · rw [Side.other_other, self]
      dsimp only
      omega
    · dsimp only
      omega
    · dsimp only
      omega
    · rw [Side.other_other, self]
      exact received
    · exact side.forall_iff.mp balanced.val_eq
    · exact side.forall_iff.mp balanced.sent_eq
  · rwa [show system.sendCredit side = system from if_neg owes]

theorem Balanced.mthEntry (balanced : Balanced credit system) (side : Side) :
    Balanced credit (system.mthEntry side) :=
  (balanced.sendData side).sendCredit side

theorem balanced_run (nonneg : ∀ side, 0 ≤ credit side) (order : List Side) :
    Balanced credit (run credit order) :=
  runCalls_invariant (Balanced credit) (balanced_start nonneg)
    fun side _ balanced => balanced.mthEntry side

/-- Credit conservation: after any activations, in any order, what a node holds
and what the other owes it are its initial credit together, no counter is
negative, and each node has received 10, 11, 12 and so on, as many values as the
other has sent. -/
theorem credit_conserved (nonneg : ∀ side, 0 ≤ credit side) (order : List Side) (side : Side) :
    (run credit order side).credit + (run credit order side.other).creditRet = credit side ∧
    0 ≤ (run credit order side).credit ∧ 0 ≤ (run credit order side).creditRet ∧
    (run credit order side.other).received =
      (List.range (run credit order side).sent.length).map fun k : Nat => 10 + (k : Int) := by
  have balanced := balanced_run nonneg order
  refine ⟨balanced.conserved side, balanced.credit_nonneg side, balanced.creditRet_nonneg side, ?_⟩
  rw [balanced.received_eq, ← balanced.sent_eq]

/-- Three activations of one node and one of the other. -/
theorem credit_conserved_uneven :
    (run (fun _ => 2) [.a, .a, .a, .b] .a).credit +
      (run (fun _ => 2) [.a, .a, .a, .b] .b).creditRet = 2 :=
  (credit_conserved (fun _ => by decide) [.a, .a, .a, .b] .a).1

/-! ## Throughput -/

/-- What one activation does to the counters, if the node has a credit. -/
theorem mthEntry_counters (side : Side) (sends : 0 < (system side).credit) :
    (system.mthEntry side side).sent.length = (system side).sent.length + 1 ∧
    (system.mthEntry side side).creditRet =
      (if 0 < (system side).creditRet then (system side).creditRet - 1
        else (system side).creditRet) ∧
    (system.mthEntry side side.other).sent = (system side.other).sent ∧
    (system.mthEntry side side.other).creditRet = (system side.other).creditRet + 1 ∧
    (system side.other).credit ≤ (system.mthEntry side side.other).credit := by
  have self := sendData_self side system
  have other := sendData_other side system
  rw [if_pos sends] at self other
  rw [mthEntry, sendCredit_self, sendCredit_other, self, other]
  have length : ((system side).sent ++ [10 + (system side).val]).length =
      (system side).sent.length + 1 := List.length_append
  split_ifs
  · exact ⟨length, rfl, rfl, rfl, Int.le_add_one (Int.le_refl _)⟩
  · exact ⟨length, rfl, rfl, rfl, Int.le_refl _⟩

/-- What holds between the cycles: each node has sent once in every cycle, and
owes at most one credit. -/
structure Flowing (credit : Side → Int) (cycles : Nat) (system : System) : Prop
    extends Balanced credit system where
  creditRet_le : ∀ side, (system side).creditRet ≤ 1
  sent_length : ∀ side, (system side).sent.length = cycles

theorem Flowing.cycle {cycles : Nat} (flowing : Flowing credit cycles system)
    (enough : ∀ side, 2 ≤ credit side) (first : Side) :
    Flowing credit (cycles + 1) (system.cycle first) := by
  have middle := flowing.toBalanced.mthEntry first
  have after := middle.mthEntry first.other
  have held : ∀ side, 0 < (system side).credit := by
    intro side
    have total := flowing.conserved side
    have owed := flowing.creditRet_le side.other
    have least := enough side
    omega
  rcases mthEntry_counters first (held first) with ⟨sent, owes, sent', owes', holds'⟩
  have held' : 0 < (system.mthEntry first first.other).credit :=
    Int.lt_of_lt_of_le (held first.other) holds'
  rcases mthEntry_counters first.other held' with ⟨last, lastOwes, first', firstOwes, -⟩
  rw [Side.other_other] at first' firstOwes
  have before := first.forall_iff.mp flowing.creditRet_le
  have owed := first.forall_iff.mp flowing.creditRet_nonneg
  have counts := first.forall_iff.mp flowing.sent_length
  refine ⟨after, ?_, ?_⟩
  · rw [first.forall_iff]
    change (((system.mthEntry first).mthEntry first.other) first).creditRet ≤ 1 ∧
      (((system.mthEntry first).mthEntry first.other) first.other).creditRet ≤ 1
    rw [firstOwes, lastOwes, owes, owes']
    split_ifs <;> omega
  · rw [first.forall_iff]
    change (((system.mthEntry first).mthEntry first.other) first).sent.length = cycles + 1 ∧
      (((system.mthEntry first).mthEntry first.other) first.other).sent.length = cycles + 1
    rw [first', last, sent, sent', counts.1, counts.2]
    exact ⟨rfl, rfl⟩

theorem flowing_runCycles (enough : ∀ side, 2 ≤ credit side) (firsts : List Side) :
    Flowing credit firsts.length (runCycles credit firsts) := by
  have nonneg : ∀ side, 0 ≤ credit side := by
    intro side
    have least := enough side
    omega
  have initial : Flowing credit 0 (start credit) := {
    toBalanced := balanced_start nonneg
    creditRet_le := fun _ => (by decide : (0 : Int) ≤ 1)
    sent_length := fun _ => rfl
  }
  exact runCalls_counted (Flowing credit) initial fun _ first _ flowing =>
    flowing.cycle enough first

/-- Full throughput: with two credits or more each node sends one `DATA` message
in every cycle, whatever the order of the activations in each of them. -/
theorem sends_every_cycle (enough : ∀ side, 2 ≤ credit side) (firsts : List Side)
    (first side : Side) :
    (runCycles credit (firsts ++ [first]) side).sent.length =
      (runCycles credit firsts side).sent.length + 1 := by
  rw [(flowing_runCycles enough (firsts ++ [first])).sent_length,
    (flowing_runCycles enough firsts).sent_length, List.length_append, List.length_singleton]

/-- Two credits each, and the order changes. -/
theorem sends_every_cycle_alternating :
    (runCycles (fun _ => 2) ([.a, .b] ++ [.a]) .b).sent.length =
      (runCycles (fun _ => 2) [.a, .b] .b).sent.length + 1 :=
  sends_every_cycle (fun _ => by decide) [.a, .b] .a .b

end System

end SystemcTlm.CreditLoop
