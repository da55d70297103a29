import SystemcTlm.Loop.Tables
import SystemcTlm.Loop.Scan
import SystemcTlm.Transition.Run

/-!
# The class `islip`

The general scheduler: strict priorities, a speedup shared by all levels, and a
switch between the pointer rules of iSLIP and RRM.  Its tables are flat vectors
with the index arithmetic of the source.  Matches consume quota and cells of
the shadow queues; the queues themselves are only read.

A `std::vector` is a function of its index.  In the phases every `at` lies
inside its vector while the pointers are in range.  In `set_ql` the index comes
from outside, and an `at` beyond the vector throws before anything is written.
-/

namespace SystemcTlm.Islip

open SystemcTlm.Loop SystemcTlm.Transition

/-- The members of `islip`. -/
structure PriorityIslip where
  numPort : Nat
  numPrio : Nat
  /-- Grant pointers, at `prio * numPort + output`. -/
  gi : Nat → Nat
  /-- Accept pointers, at `prio * numPort + input`. -/
  ai : Nat → Nat
  /-- Queue lengths, at `(input * numPort + output) * numPrio + prio`. -/
  ql : Nat → Int
  /-- The handshake tables, at `input * numPort + output`. -/
  accept : Nat → Bool
  request : Nat → Bool
  grant : Nat → Bool
  schResult : List (Nat × Nat)
  shadowQl : Nat → Int
  inputMatchCount : Nat → Int
  outputMatchCount : Nat → Int
  currentIter : Nat

namespace PriorityIslip

/-- `(i * m_num_port + j) * m_num_prio + prio`. -/
def qlIndex (sch : PriorityIslip) (i j prio : Nat) : Nat :=
  flatIndex sch.numPrio (flatIndex sch.numPort i j) prio

/-- `m_num_port` is the larger of the two numbers of ports. -/
def new (inputNum outputNum : Nat) (priorityNum : Nat := 1) : PriorityIslip where
  numPort := max inputNum outputNum
  numPrio := priorityNum
  gi := fun _ => 0
  ai := fun _ => 0
  ql := fun _ => 0
  accept := fun _ => false
  request := fun _ => false
  grant := fun _ => false
  schResult := []
  shadowQl := fun _ => 0
  inputMatchCount := fun _ => 0
  outputMatchCount := fun _ => 0
  currentIter := 0

/-- `init_priority_ptr` -/
def initPriorityPtr (sch : PriorityIslip) : PriorityIslip :=
  { sch with
    ai := fun _ => 0
    gi := fun _ => 0 }

/-- `init`.  The pointers are kept. -/
def init (sch : PriorityIslip) : PriorityIslip :=
  { sch with
    accept := fun _ => false
    request := fun _ => false
    grant := fun _ => false
    ql := fun _ => 0
    schResult := [] }

/-- `none` is the `std::out_of_range` of `at`. -/
def setQl (i j prio : Int) (sch : PriorityIslip) : Option PriorityIslip :=
  if sch.numPrio ≤ prio then some sch
  else
    let index := (i * sch.numPort + j) * sch.numPrio + prio
    if 0 ≤ index ∧ index < sch.numPort * sch.numPort * sch.numPrio then
      some { sch with ql := Function.update sch.ql index.toNat (sch.ql index.toNat + 1) }
    else none

/-! ## The phases -/

/-- One cell of `send_request`: the output has a turn left, and the queue a cell. -/
def requestCell (speedup : Int) (prio i j : Nat) (sch : PriorityIslip) : PriorityIslip :=
  if sch.outputMatchCount j < speedup ∧ sch.shadowQl (sch.qlIndex i j prio) > 0 then
    { sch with request := Function.update sch.request (flatIndex sch.numPort i j) true }
  else sch

/-- One input of `send_request`, if it has a turn left. -/
def requestRow (speedup : Int) (prio i : Nat) (sch : PriorityIslip) : PriorityIslip :=
  if speedup ≤ sch.inputMatchCount i then sch
  else forRange sch.numPort (requestCell speedup prio i) sch

/-- `send_request`, over the inputs. -/
def sendRequest (speedup : Int) (prio : Nat) (sch : PriorityIslip) : PriorityIslip :=
  forRange sch.numPort (requestRow speedup prio) sch

/-- `m_grant[i][j] = true`; in RRM mode a grant moves the pointer. -/
def grantTo (prio : Nat) (isIslipMode : Bool) (i j : Nat) (sch : PriorityIslip) :
    PriorityIslip :=
  { sch with
    grant := Function.update sch.grant (flatIndex sch.numPort i j) true
    gi := if isIslipMode then sch.gi
      else Function.update sch.gi (flatIndex sch.numPort prio j) ((i + 1) % sch.numPort) }

/-- One output of `do_grant`. -/
def grantOutput (speedup : Int) (prio : Nat) (isIslipMode : Bool) (j : Nat)
    (sch : PriorityIslip) : PriorityIslip :=
  if speedup ≤ sch.outputMatchCount j then sch
  else
    match scan sch.numPort (fun i => sch.request (flatIndex sch.numPort i j))
        (sch.gi (flatIndex sch.numPort prio j)) with
    | none => sch
    | some i => grantTo prio isIslipMode i j sch

/-- `do_grant`, over the outputs. -/
def doGrant (speedup : Int) (prio : Nat) (isIslipMode : Bool) (sch : PriorityIslip) :
    PriorityIslip :=
  forRange sch.numPort (grantOutput speedup prio isIslipMode) sch

/-- `m_accept[i][j] = true`: an acceptance is charged at once. -/
def acceptFrom (prio i j : Nat) (sch : PriorityIslip) : PriorityIslip :=
  { sch with
    accept := Function.update sch.accept (flatIndex sch.numPort i j) true
    inputMatchCount := Function.update sch.inputMatchCount i (sch.inputMatchCount i + 1)
    outputMatchCount := Function.update sch.outputMatchCount j (sch.outputMatchCount j + 1)
    shadowQl := Function.update sch.shadowQl (sch.qlIndex i j prio)
      (sch.shadowQl (sch.qlIndex i j prio) - 1) }

/-- One input of `do_accept`. -/
def acceptInput (speedup : Int) (prio i : Nat) (sch : PriorityIslip) : PriorityIslip :=
  if speedup ≤ sch.inputMatchCount i then sch
  else
    match scan sch.numPort (fun j => sch.grant (flatIndex sch.numPort i j))
        (sch.ai (flatIndex sch.numPort prio i)) with
    | none => sch
    | some j => acceptFrom prio i j sch

/-- `do_accept`, over the inputs. -/
def doAccept (speedup : Int) (prio : Nat) (sch : PriorityIslip) : PriorityIslip :=
  forRange sch.numPort (acceptInput speedup prio) sch

/-- The body of `update_priority_ptr` for an accepted pair: iSLIP moves both
pointers in the first iteration, RRM the accept pointer in every iteration. -/
def commit (prio : Nat) (isIslipMode : Bool) (i j : Nat) (sch : PriorityIslip) :
    PriorityIslip :=
  { sch with
    gi := if isIslipMode ∧ sch.currentIter = 0 then
        Function.update sch.gi (flatIndex sch.numPort prio j) ((i + 1) % sch.numPort)
      else sch.gi
    ai := if (isIslipMode ∧ sch.currentIter = 0) ∨ ¬isIslipMode then
        Function.update sch.ai (flatIndex sch.numPort prio i) ((j + 1) % sch.numPort)
      else sch.ai
    schResult := sch.schResult ++ [(i, j)] }

/-- One cell of `update_priority_ptr`. -/
def updateCell (prio : Nat) (isIslipMode : Bool) (i j : Nat) (sch : PriorityIslip) :
    PriorityIslip :=
  if sch.accept (flatIndex sch.numPort i j) then commit prio isIslipMode i j sch else sch

/-- One row of `update_priority_ptr`. -/
def updateRow (prio : Nat) (isIslipMode : Bool) (i : Nat) (sch : PriorityIslip) :
    PriorityIslip :=
  forRange sch.numPort (updateCell prio isIslipMode i) sch

/-- `update_priority_ptr` -/
def updatePriorityPtr (prio : Nat) (isIslipMode : Bool) (sch : PriorityIslip) : PriorityIslip :=
  forRange sch.numPort (updateRow prio isIslipMode) sch

/-! ## The scheduling function -/

/-- The handshake tables are cleared before every iteration. -/
def clearHandshake (sch : PriorityIslip) : PriorityIslip :=
  { sch with
    request := fun _ => false
    grant := fun _ => false
    accept := fun _ => false }

/-- One iteration for a priority, from the cleared handshake on. -/
def iteration (speedup : Int) (prio : Nat) (isIslipMode : Bool) (sch : PriorityIslip) :
    PriorityIslip :=
  updatePriorityPtr prio isIslipMode
    (doAccept speedup prio
      (doGrant speedup prio isIslipMode (sendRequest speedup prio (clearHandshake sch))))

/-- The first `k` iterations of a priority level. -/
def iterations (speedup : Int) (isIslipMode : Bool) (prio k : Nat) (sch : PriorityIslip) :
    PriorityIslip :=
  forRange k
    (fun iter current => iteration speedup prio isIslipMode { current with currentIter := iter })
    sch

/-- The inner loop of `islip_sch`; the counter is a member and stands at the
bound afterwards. -/
def level (maxIterations speedup : Int) (isIslipMode : Bool) (prio : Nat)
    (sch : PriorityIslip) : PriorityIslip :=
  { iterations speedup isIslipMode prio maxIterations.toNat sch with
    currentIter := maxIterations.toNat }

/-- The quota, the result and the shadow queues at the start of `islip_sch`. -/
def startSch (sch : PriorityIslip) : PriorityIslip :=
  { sch with
    inputMatchCount := fun _ => 0
    outputMatchCount := fun _ => 0
    schResult := []
    shadowQl := sch.ql }

/-- The state of `islip_sch` after its first `levels` priority levels. -/
def afterLevels (maxIterations speedup : Int) (isIslipMode : Bool) (levels : Nat)
    (sch : PriorityIslip) : PriorityIslip :=
  forRange levels (level maxIterations speedup isIslipMode) (startSch sch)

/-- `islip_sch`, with its defaults. -/
def islipSch (sch : PriorityIslip) (maxIterations : Int := 1) (speedup : Int := 1)
    (isIslipMode : Bool := true) : PriorityIslip :=
  afterLevels maxIterations speedup isIslipMode sch.numPrio sch

theorem iterations_succ (speedup : Int) (isIslipMode : Bool) (prio k : Nat)
    (sch : PriorityIslip) :
    iterations speedup isIslipMode prio (k + 1) sch =
      iteration speedup prio isIslipMode
        { iterations speedup isIslipMode prio k sch with currentIter := k } :=
  rfl

/-- With one priority `islip_sch` is a single level. -/
theorem islipSch_one {sch : PriorityIslip} (one : sch.numPrio = 1) (maxIterations speedup : Int)
    (isIslipMode : Bool) :
    sch.islipSch maxIterations speedup isIslipMode =
      { iterations speedup isIslipMode 0 maxIterations.toNat (startSch sch) with
        currentIter := maxIterations.toNat } := by
  rw [islipSch, one]
  rfl

/-! ## Runs -/

/-- The public calls of the scheduler. -/
inductive Call
  | init
  | initPriorityPtr
  | setQl (i j prio : Int)
  | islipSch (maxIterations speedup : Int) (isIslipMode : Bool)
  deriving DecidableEq

/-- A `set_ql` that throws leaves the object as it was. -/
def call : Call → PriorityIslip → PriorityIslip
  | .init, sch => sch.init
  | .initPriorityPtr, sch => sch.initPriorityPtr
  | .setQl i j prio, sch => (sch.setQl i j prio).getD sch
  | .islipSch maxIterations speedup isIslipMode, sch =>
      sch.islipSch maxIterations speedup isIslipMode

/-- The state after the calls, from construction. -/
def run (inputNum outputNum priorityNum : Nat) (calls : List Call) : PriorityIslip :=
  runCalls call calls (new inputNum outputNum priorityNum)

end PriorityIslip

end SystemcTlm.Islip
