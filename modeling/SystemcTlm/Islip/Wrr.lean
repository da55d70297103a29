import SystemcTlm.Loop.Tables
import SystemcTlm.Loop.Cyclic
import SystemcTlm.Transition.Run
import Mathlib.Algebra.Order.Ring.Unbundled.Rat
import Mathlib.Data.Finset.Defs

/-!
# The class `islip_wrr`

The scheduler with weights.  Every pair of ports has a quota that begins at its
weight and is used up by matches.  An output grants the input, and an input
accepts the output, that has used the least fraction of its weight.  When no
candidate has quota left, `select_wrr_input` gives the inputs with traffic for
its output their weights back, and `select_wrr_output` all the quotas of its
input.

A `double` ratio is the rational it stands for.
-/

namespace SystemcTlm.Islip

open SystemcTlm.Loop SystemcTlm.Transition

/-- The members of `islip_wrr`. -/
structure IslipWrr where
  inputNum : Nat
  outputNum : Nat
  iterations : Int
  /-- Weights, by input and output; so are the quotas, the queues and the
  acceptances. -/
  weights : Nat → Nat → Int
  currentQuota : Nat → Nat → Int
  gPtr : Nat → Nat
  aPtr : Nat → Nat
  voq : Nat → Nat → Int
  /-- Grants, by output and input. -/
  grants : Nat → Nat → Int
  accepts : Nat → Nat → Int
  inputOccupied : Nat → Bool
  outputOccupied : Nat → Bool
  iterCnt : Nat
  schResult : List (Nat × Nat)

namespace IslipWrr

/-- The constructor.  The quotas begin at the weights. -/
def new (inputNum outputNum : Nat) (iterations : Int) (weights : Nat → Nat → Int) :
    IslipWrr where
  inputNum := inputNum
  outputNum := outputNum
  iterations := iterations
  weights := weights
  currentQuota := weights
  gPtr := fun _ => 0
  aPtr := fun _ => 0
  voq := fun _ _ => 0
  grants := fun _ _ => 0
  accepts := fun _ _ => 0
  inputOccupied := fun _ => false
  outputOccupied := fun _ => false
  iterCnt := 0
  schResult := []

/-- `(weight - quota) / weight` -/
def ratio (sch : IslipWrr) (i out : Nat) : ℚ :=
  ((sch.weights i out - sch.currentQuota i out : Int) : ℚ) / (sch.weights i out : ℚ)

/-- The value `min_ratio` begins at. -/
def maxRatio : ℚ :=
  10 ^ 9

/-- `m_current_quota[i][out] = m_weights[i][out]` -/
def renewQuota (i out : Nat) (sch : IslipWrr) : IslipWrr :=
  { sch with currentQuota := update₂ sch.currentQuota i out (sch.weights i out) }

/-! ## `select_wrr_input` -/

/-- The first round: an input with quota left. -/
def leastUsedInput (sch : IslipWrr) (out : Nat) : Option Nat :=
  (leastOf maxRatio
    (fun i => !(sch.inputOccupied i || sch.voq i out == 0) && decide (sch.currentQuota i out > 0))
    (fun i => sch.ratio i out) (cyclic sch.inputNum (sch.gPtr out))).1

/-- One pass of the renewal, with `has_traffic`. -/
def renewInput (out i : Nat) (state : Bool × IslipWrr) : Bool × IslipWrr :=
  if state.2.voq i out > 0 then (true, renewQuota i out state.2) else state

/-- The renewal of the quotas for an output. -/
def renewColumn (out : Nat) (sch : IslipWrr) : Bool × IslipWrr :=
  forRange sch.inputNum (renewInput out) (false, sch)

/-- The second round: the first input with a cell. -/
def nextInput (sch : IslipWrr) (out : Nat) : Option Nat :=
  firstFrom sch.inputNum (fun i => !sch.inputOccupied i && decide (sch.voq i out > 0))
    (sch.gPtr out)

/-- The selection, and the state it leaves. -/
def selectWrrInput (out : Nat) (sch : IslipWrr) : Option Nat × IslipWrr :=
  match sch.leastUsedInput out with
  | some i => (some i, sch)
  | none =>
      let renewed := renewColumn out sch
      (if renewed.1 then renewed.2.nextInput out else none, renewed.2)

/-! ## `select_wrr_output` -/

/-- The first round: a granted output with quota left. -/
def leastUsedOutput (sch : IslipWrr) (i : Nat) : Option Nat :=
  (leastOf maxRatio
    (fun out => !(sch.outputOccupied out || sch.voq i out == 0 || sch.grants out i != 1) &&
      decide (sch.currentQuota i out > 0))
    (fun out => sch.ratio i out) (cyclic sch.outputNum (sch.aPtr i))).1

/-- The input has a grant for a cell. -/
def hasTraffic (sch : IslipWrr) (i : Nat) : Bool :=
  (List.range sch.outputNum).any fun out => decide (sch.voq i out > 0) && sch.grants out i == 1

/-- The renewal of the quotas of an input. -/
def renewRow (i : Nat) (sch : IslipWrr) : IslipWrr :=
  forRange sch.outputNum (renewQuota i) sch

/-- The second round: the first granted output with a cell. -/
def nextOutput (sch : IslipWrr) (i : Nat) : Option Nat :=
  firstFrom sch.outputNum
    (fun out => !sch.outputOccupied out && decide (sch.voq i out > 0) && sch.grants out i == 1)
    (sch.aPtr i)

/-- The selection, and the state it leaves. -/
def selectWrrOutput (i : Nat) (sch : IslipWrr) : Option Nat × IslipWrr :=
  match sch.leastUsedOutput i with
  | some out => (some out, sch)
  | none =>
      if sch.hasTraffic i then
        let renewed := renewRow i sch
        (renewed.nextOutput i, renewed)
      else (none, sch)

/-! ## The calls -/

/-- `request`, without a bound on the queue. -/
def request (input output : Int) (sch : IslipWrr) : IslipWrr :=
  if 0 ≤ input ∧ input < sch.inputNum ∧ 0 ≤ output ∧ output < sch.outputNum then
    { sch with
      voq := update₂ sch.voq input.toNat output.toNat (sch.voq input.toNat output.toNat + 1) }
  else sch

/-- `reset_arbiter`.  The queues, the quotas and the pointers are kept. -/
def resetArbiter (sch : IslipWrr) : IslipWrr :=
  { sch with
    iterCnt := 0
    schResult := []
    inputOccupied := fun _ => false
    outputOccupied := fun _ => false
    grants := fun _ _ => 0
    accepts := fun _ _ => 0 }

/-- `reset_iteration` -/
def resetIteration (sch : IslipWrr) : IslipWrr :=
  { sch with
    grants := fun _ _ => 0
    accepts := fun _ _ => 0 }

/-- One output of the grant phase. -/
def grantOutput (out : Nat) (sch : IslipWrr) : IslipWrr :=
  if sch.outputOccupied out then sch
  else
    match selectWrrInput out sch with
    | (some i, current) => { current with grants := update₂ current.grants out i 1 }
    | (none, current) => current

/-- The grant phase, over the outputs. -/
def grantPhase (sch : IslipWrr) : IslipWrr :=
  forRange sch.outputNum grantOutput sch

/-- One input of the accept phase. -/
def acceptInput (i : Nat) (sch : IslipWrr) : IslipWrr :=
  if sch.inputOccupied i then sch
  else
    match selectWrrOutput i sch with
    | (some out, current) =>
        if current.grants out i = 1 then
          { current with accepts := update₂ current.accepts i out 1 }
        else current
    | (none, current) => current

/-- The accept phase, over the inputs. -/
def acceptPhase (sch : IslipWrr) : IslipWrr :=
  forRange sch.inputNum acceptInput sch

/-- An accepted pair takes a cell and a unit of quota. -/
def commit (i out : Nat) (sch : IslipWrr) : IslipWrr :=
  { sch with
    voq := update₂ sch.voq i out (sch.voq i out - 1)
    currentQuota := update₂ sch.currentQuota i out (sch.currentQuota i out - 1)
    inputOccupied := Function.update sch.inputOccupied i true
    outputOccupied := Function.update sch.outputOccupied out true
    schResult := sch.schResult ++ [(i, out)]
    gPtr := Function.update sch.gPtr out ((i + 1) % sch.inputNum)
    aPtr := Function.update sch.aPtr i ((out + 1) % sch.outputNum) }

/-- One cell of the update phase. -/
def updateCell (i out : Nat) (sch : IslipWrr) : IslipWrr :=
  if sch.accepts i out = 1 then commit i out sch else sch

/-- One row of the update phase. -/
def updateRow (i : Nat) (sch : IslipWrr) : IslipWrr :=
  forRange sch.outputNum (updateCell i) sch

/-- The update phase. -/
def updatePhase (sch : IslipWrr) : IslipWrr :=
  forRange sch.inputNum updateRow sch

/-- One iteration of the three phases. -/
def iteration (sch : IslipWrr) : IslipWrr :=
  resetIteration (updatePhase (acceptPhase (grantPhase sch)))

/-- `actual_iter` is `min(m_iterations, 1)`; the counter is a member and stands
at the bound afterwards. -/
def arbitration (sch : IslipWrr) : IslipWrr :=
  let actualIter := (min sch.iterations 1).toNat
  { forRange actualIter (fun iter current => iteration { current with iterCnt := iter })
      (resetArbiter sch) with
    iterCnt := actualIter }

/-- From the first iteration on the bound is one. -/
theorem arbitration_eq {sch : IslipWrr} (positive : 1 ≤ sch.iterations) :
    sch.arbitration = { iteration (resetArbiter sch) with iterCnt := 1 } := by
  have one : (min sch.iterations 1).toNat = 1 := by omega
  rw [arbitration, one]
  rfl

/-! ## Runs -/

/-- The public calls. -/
inductive Call
  | request (input output : Int)
  | arbitration
  deriving DecidableEq

/-- One of the calls. -/
def call : Call → IslipWrr → IslipWrr
  | .request input output => request input output
  | .arbitration => arbitration

/-- Times the call schedules `(i, out)`. -/
def schedules (next : Call) (sch : IslipWrr) (i out : Nat) : Nat :=
  match next with
  | .request _ _ => 0
  | .arbitration => sch.arbitration.schResult.count (i, out)

/-- Cells scheduled from `i` to `out` over a run. -/
def served (calls : List Call) (start : IslipWrr) (i out : Nat) : Nat :=
  match calls with
  | [] => 0
  | next :: rest => schedules next start i out + served rest (call next start) i out

/-- At the start of each arbitration the inputs with cells for `out` are those
of `inputs`. -/
def Backlogged (inputs : Finset Nat) (out : Nat) (calls : List Call) (start : IslipWrr) : Prop :=
  match calls with
  | [] => True
  | next :: rest =>
      (next = .arbitration → ∀ i, i < start.inputNum → (0 < start.voq i out ↔ i ∈ inputs)) ∧
        Backlogged inputs out rest (call next start)

instance decidableBacklogged (inputs : Finset Nat) (out : Nat) (calls : List Call)
    (start : IslipWrr) : Decidable (Backlogged inputs out calls start) :=
  match calls with
  | [] => inferInstanceAs (Decidable True)
  | next :: rest =>
      have := decidableBacklogged inputs out rest (call next start)
      inferInstanceAs (Decidable ((next = .arbitration →
        ∀ i, i < start.inputNum → (0 < start.voq i out ↔ i ∈ inputs)) ∧
          Backlogged inputs out rest (call next start)))

end IslipWrr

end SystemcTlm.Islip
