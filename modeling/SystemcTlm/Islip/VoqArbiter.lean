import SystemcTlm.Loop.Tables
import SystemcTlm.Loop.Scan

/-!
# The request–grant–accept arbiters

The classes `islip_basic`, `rrm`, `islip_sp`, `islip_threshold` and `pim` share
their members and the shape of their four phases.  `VoqArbiter` holds the
members.  `Discipline` holds what one class decides for itself: how an output
chooses among the inputs, how an input chooses among the grants, which phase
moves the round-robin pointers, and what a scheduled cell takes from its queue
and leaves in the result.  Each class is written in its own module as these
phases at its own discipline.

A `std::vector` is a function of its index.  Indices are the natural numbers
the loops run over, and every access of the phases lies inside the vectors
while the pointers are in range.
-/

namespace SystemcTlm.Islip

open SystemcTlm.Loop

/-- The members of an arbiter whose queues hold `Q` and whose results are
`R`. -/
structure VoqArbiter (Q R : Type) where
  inputNum : Nat
  outputNum : Nat
  voqSize : Int
  iterations : Int
  iterCnt : Nat
  /-- Grant pointer of each output. -/
  gPtr : Nat → Nat
  /-- Accept pointer of each input. -/
  aPtr : Nat → Nat
  /-- `voq input output`. -/
  voq : Nat → Nat → Q
  /-- `grants output input`. -/
  grants : Nat → Nat → Int
  /-- `accepts input output`. -/
  accepts : Nat → Nat → Int
  inputOccupied : Nat → Bool
  outputOccupied : Nat → Bool
  schResult : List R

/-- What the classes decide for themselves. -/
structure Discipline (Q R : Type) where
  /-- The choice of a free output in `do_grant`: from the number of inputs, the
  iteration, the output, its pointer, the occupied inputs and its queues. -/
  selectInput : (inputNum iterCnt output start : Nat) → (inputOccupied : Nat → Bool) →
    (queue : Nat → Q) → Option Nat
  /-- The choice of a free input in `do_accept`, from its grants. -/
  selectOutput : (outputNum iterCnt input start : Nat) → (outputOccupied : Nat → Bool) →
    (granted : Nat → Int) → Option Nat
  /-- `do_grant` moves the grant pointer. -/
  movesOnGrant : Bool
  /-- `do_accept` moves the accept pointer. -/
  movesOnAccept : Bool
  /-- `update_pointers` moves both pointers in this iteration. -/
  movesOnCommit : Nat → Bool
  /-- The queue after one cell has been sent. -/
  takeCell : Q → Q
  /-- The entry of the result for an input, an output and the queue before. -/
  record : Nat → Nat → Q → R

namespace VoqArbiter

variable {Q R : Type}

/-- The constructor. -/
def new (emptyQueue : Q) (inputNum outputNum : Nat) (iterations voqSize : Int) :
    VoqArbiter Q R where
  inputNum := inputNum
  outputNum := outputNum
  voqSize := voqSize
  iterations := iterations
  iterCnt := 0
  gPtr := fun _ => 0
  aPtr := fun _ => 0
  voq := fun _ _ => emptyQueue
  grants := fun _ _ => 0
  accepts := fun _ _ => 0
  inputOccupied := fun _ => false
  outputOccupied := fun _ => false
  schResult := []

/-- `request` of the classes that count cells: out of range or full, nothing
changes. -/
def request (input output : Int) (arbiter : VoqArbiter Int R) : VoqArbiter Int R :=
  if input < 0 ∨ arbiter.inputNum ≤ input ∨ output < 0 ∨ arbiter.outputNum ≤ output then
    arbiter
  else if arbiter.voqSize ≤ arbiter.voq input.toNat output.toNat then
    arbiter
  else
    { arbiter with
      voq := update₂ arbiter.voq input.toNat output.toNat
        (arbiter.voq input.toNat output.toNat + 1) }

/-- `grants[output][input] = 1`, with the move of the grant pointer where the
class makes it. -/
def grantTo (discipline : Discipline Q R) (output input : Nat) (arbiter : VoqArbiter Q R) :
    VoqArbiter Q R :=
  { arbiter with
    grants := update₂ arbiter.grants output input 1
    gPtr := if discipline.movesOnGrant then
        Function.update arbiter.gPtr output ((input + 1) % arbiter.inputNum)
      else arbiter.gPtr }

/-- One output of `do_grant`. -/
def grantOutput (discipline : Discipline Q R) (output : Nat) (arbiter : VoqArbiter Q R) :
    VoqArbiter Q R :=
  if arbiter.outputOccupied output then arbiter
  else
    match discipline.selectInput arbiter.inputNum arbiter.iterCnt output (arbiter.gPtr output)
        arbiter.inputOccupied (fun input => arbiter.voq input output) with
    | none => arbiter
    | some input => grantTo discipline output input arbiter

/-- `do_grant`, over the outputs. -/
def doGrant (discipline : Discipline Q R) (arbiter : VoqArbiter Q R) : VoqArbiter Q R :=
  forRange arbiter.outputNum (grantOutput discipline) arbiter

/-- `accepts[input][output] = 1`, with the move of the accept pointer where the
class makes it. -/
def acceptFrom (discipline : Discipline Q R) (input output : Nat) (arbiter : VoqArbiter Q R) :
    VoqArbiter Q R :=
  { arbiter with
    accepts := update₂ arbiter.accepts input output 1
    aPtr := if discipline.movesOnAccept then
        Function.update arbiter.aPtr input ((output + 1) % arbiter.outputNum)
      else arbiter.aPtr }

/-- One input of `do_accept`. -/
def acceptInput (discipline : Discipline Q R) (input : Nat) (arbiter : VoqArbiter Q R) :
    VoqArbiter Q R :=
  if arbiter.inputOccupied input then arbiter
  else
    match discipline.selectOutput arbiter.outputNum arbiter.iterCnt input (arbiter.aPtr input)
        arbiter.outputOccupied (fun output => arbiter.grants output input) with
    | none => arbiter
    | some output => acceptFrom discipline input output arbiter

/-- `do_accept`, over the inputs. -/
def doAccept (discipline : Discipline Q R) (arbiter : VoqArbiter Q R) : VoqArbiter Q R :=
  forRange arbiter.inputNum (acceptInput discipline) arbiter

/-- The body of `update_pointers` for an accepted pair. -/
def commit (discipline : Discipline Q R) (input output : Nat) (arbiter : VoqArbiter Q R) :
    VoqArbiter Q R :=
  { arbiter with
    inputOccupied := Function.update arbiter.inputOccupied input true
    outputOccupied := Function.update arbiter.outputOccupied output true
    voq := update₂ arbiter.voq input output (discipline.takeCell (arbiter.voq input output))
    gPtr := if discipline.movesOnCommit arbiter.iterCnt then
        Function.update arbiter.gPtr output ((input + 1) % arbiter.inputNum)
      else arbiter.gPtr
    aPtr := if discipline.movesOnCommit arbiter.iterCnt then
        Function.update arbiter.aPtr input ((output + 1) % arbiter.outputNum)
      else arbiter.aPtr
    schResult := arbiter.schResult ++ [discipline.record input output (arbiter.voq input output)] }

/-- One cell of the nested loop of `update_pointers`. -/
def updateCell (discipline : Discipline Q R) (input output : Nat) (arbiter : VoqArbiter Q R) :
    VoqArbiter Q R :=
  if arbiter.outputOccupied output then arbiter
  else if arbiter.accepts input output = 1 then commit discipline input output arbiter
  else arbiter

/-- One row of the nested loop of `update_pointers`. -/
def updateRow (discipline : Discipline Q R) (input : Nat) (arbiter : VoqArbiter Q R) :
    VoqArbiter Q R :=
  if arbiter.inputOccupied input then arbiter
  else forRange arbiter.outputNum (updateCell discipline input) arbiter

/-- `update_pointers` -/
def updatePointers (discipline : Discipline Q R) (arbiter : VoqArbiter Q R) : VoqArbiter Q R :=
  forRange arbiter.inputNum (updateRow discipline) arbiter

/-- `reset_arbiter`.  The queues and the pointers are kept. -/
def resetArbiter (arbiter : VoqArbiter Q R) : VoqArbiter Q R :=
  { arbiter with
    iterCnt := 0
    schResult := []
    inputOccupied := fun _ => false
    outputOccupied := fun _ => false
    grants := fun _ _ => 0
    accepts := fun _ _ => 0 }

/-- `reset_iteration` -/
def resetIteration (arbiter : VoqArbiter Q R) : VoqArbiter Q R :=
  { arbiter with
    grants := fun _ _ => 0
    accepts := fun _ _ => 0 }

/-- The loop of `arbitration` over the phases of a class.  The counter is a
member, so it is written before every pass and stands at the bound after the
last. -/
def arbitrationLoop (doGrant doAccept updatePointers : VoqArbiter Q R → VoqArbiter Q R)
    (rounds : Nat) (arbiter : VoqArbiter Q R) : VoqArbiter Q R :=
  { forRange rounds (fun iter current =>
        resetIteration (updatePointers (doAccept (doGrant { current with iterCnt := iter }))))
      (resetArbiter arbiter) with
    iterCnt := rounds }

/-- `arbitration`: a negative number of iterations makes no pass. -/
def arbitration (doGrant doAccept updatePointers : VoqArbiter Q R → VoqArbiter Q R)
    (arbiter : VoqArbiter Q R) : VoqArbiter Q R :=
  arbitrationLoop doGrant doAccept updatePointers arbiter.iterations.toNat arbiter

/-- `get_sch_result` -/
def getSchResult (arbiter : VoqArbiter Q R) : List R :=
  arbiter.schResult

end VoqArbiter

end SystemcTlm.Islip
