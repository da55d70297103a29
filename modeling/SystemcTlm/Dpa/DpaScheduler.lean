import SystemcTlm.Loop.Tables
import SystemcTlm.Transition.Run

/-!
# `dpa_scheduler`

The diagonal propagation arbiter.  An arbitration visits the cells of the
crossbar diagonal by diagonal, beginning at `m_ptr`, and reads off the next cell
from the table `m_dpa_map` that the constructor has filled.  Every access of the
vectors is checked: `none` is an index out of range.
-/

namespace SystemcTlm.Dpa

open SystemcTlm.Loop SystemcTlm.Transition

/-- The members of `dpa_scheduler`. -/
structure DpaScheduler where
  ptr : Nat
  rowMask : Nat → Int
  colMask : Nat → Int
  numPorts : Nat
  requests : Nat → Nat → Int
  grants : Nat → Nat → Int
  dpaMap : Nat → Nat → Int
  schResult : List (Int × Int)

/-- `arbiter_cell::grant`. -/
def arbiterCellGrant (request rm lm : Int) : Int :=
  if rm ≠ 0 ∧ lm ≠ 0 then request else 0

namespace DpaScheduler

/-- `m_dpa_map[row][col] = num; num++;` -/
def fillCell (row col : Nat) (current : Int × (Nat → Nat → Int)) : Int × (Nat → Nat → Int) :=
  (current.1 + 1, update₂ current.2 row col current.1)

/-- The rows of `m_dpa_map` from `m_num_ports - 1` on hold consecutive
numbers. -/
def fillMap (n : Nat) : Int × (Nat → Nat → Int) :=
  forRange n (fun k => forRange n (fillCell (n - 1 + k))) (0, fun _ _ => 0)

/-- The rows before are copies. -/
def constructMap (n : Nat) : Nat → Nat → Int :=
  forRange (n - 1) (fun row map => Function.update map row (map (row + n))) (fillMap n).2

/-- The constructor. -/
def new (inputPort outputPort : Nat) : DpaScheduler where
  ptr := 0
  rowMask := fun _ => 1
  colMask := fun _ => 1
  numPorts := max inputPort outputPort
  requests := fun _ _ => 0
  grants := fun _ _ => 0
  dpaMap := constructMap (max inputPort outputPort)
  schResult := []

/-- `is_valid_port` -/
def isValidPort (sch : DpaScheduler) (port : Int) : Bool :=
  decide (0 ≤ port ∧ port < sch.numPorts)

/-- `request`.  Ports that are out of range are ignored. -/
def request (inputPort outputPort : Int) (sch : DpaScheduler) : DpaScheduler :=
  if sch.isValidPort inputPort ∧ sch.isValidPort outputPort then
    { sch with requests := update₂ sch.requests inputPort.toNat outputPort.toNat 1 }
  else sch

/-- `has_granted`, which is zero for a port out of range. -/
def hasGranted (inputPort outputPort : Int) (sch : DpaScheduler) : Int :=
  if sch.isValidPort inputPort ∧ sch.isValidPort outputPort then
    sch.grants inputPort.toNat outputPort.toNat
  else 0

/-- `init`.  The grants are kept. -/
def init (sch : DpaScheduler) : DpaScheduler :=
  { sch with
    rowMask := fun _ => 1
    colMask := fun _ => 1
    schResult := [] }

/-- The body of both loops of `arbitration`. -/
def decideCell (row : Nat) (sch : DpaScheduler) (col : Nat) : Option DpaScheduler := do
  let n := sch.numPorts
  let curIndex ← get₂ (2 * n - 1) n sch.dpaMap (row + n - 1 - col) col
  let i := curIndex.tdiv n
  let j := curIndex.tmod n
  let request ← get₂ n n sch.requests i j
  let rm ← get₁ n sch.rowMask i
  let lm ← get₁ n sch.colMask j
  let grant := arbiterCellGrant request rm lm
  let grants ← set₂ n n sch.grants i j grant
  if grant ≠ 0 then
    let rowMask ← set₁ n sch.rowMask i 0
    let colMask ← set₁ n sch.colMask j 0
    some { sch with grants := grants, rowMask := rowMask, colMask := colMask }
  else some { sch with grants := grants }

/-- The inner loop over the columns, undefined where a read is out of bounds. -/
def decideRow (sch : DpaScheduler) (row : Nat) : Option DpaScheduler :=
  (List.range sch.numPorts).foldlM (decideCell row) sch

/-- `count` passes of the outer loop from `row = start`. -/
def decideRows (start count : Nat) (sch : DpaScheduler) : Option DpaScheduler :=
  (List.range' start count).foldlM decideRow sch

/-- `arbitration`.  The rows from `ptr` on are decided, and then those before it. -/
def arbitration (sch : DpaScheduler) : Option DpaScheduler := do
  let times := sch.numPorts - sch.ptr
  let current ← decideRows sch.ptr times sch.init
  let leftTimes := sch.numPorts - times
  let current ← decideRows 0 leftTimes current
  some { current with ptr := (current.ptr + 1) % current.numPorts }

/-! ## Runs -/

/-- The public calls that change the object. -/
inductive Call
  | request (inputPort outputPort : Int)
  | init
  | arbitration
  deriving DecidableEq

/-- An arbitration that left the vectors would leave the object undefined;
`arbitration_decides` shows that none does. -/
def call : Call → DpaScheduler → DpaScheduler
  | .request inputPort outputPort, sch => sch.request inputPort outputPort
  | .init, sch => sch.init
  | .arbitration, sch => sch.arbitration.getD sch

/-- The state after the calls, from construction. -/
def run (inputPort outputPort : Nat) (calls : List Call) : DpaScheduler :=
  runCalls call calls (new inputPort outputPort)

end DpaScheduler

end SystemcTlm.Dpa
