import SystemcTlm.Matching.RoundRobin

/-!
# The class `islip_booksim`

An iSLIP scheduler that marks its requests once, keeps all handshake tables
from one iteration to the next, and skips occupied ports instead of clearing
what they left behind.  With `m_max_match` a phase stops after its first match.
-/

namespace SystemcTlm.Islip

open SystemcTlm.Loop SystemcTlm.Matching

/-- The members of the class. -/
structure IslipBooksim where
  numPort : Nat
  maxMatch : Bool
  iterations : Int
  iterCnt : Nat
  /-- Grant pointer of each output. -/
  gi : Nat → Nat
  /-- Accept pointer of each input. -/
  ai : Nat → Nat
  /-- The tables, at `input * numPort + output`. -/
  ql : Nat → Int
  accept : Nat → Bool
  request : Nat → Bool
  grant : Nat → Bool
  inputOccupied : Nat → Bool
  outputOccupied : Nat → Bool
  schResult : List (Nat × Nat)

namespace IslipBooksim

/-- `init_priority_ptr` -/
def initPriorityPtr (sch : IslipBooksim) : IslipBooksim :=
  { sch with
    ai := fun _ => 0
    gi := fun _ => 0 }

/-- `init`.  The pointers are kept. -/
def init (sch : IslipBooksim) : IslipBooksim :=
  { sch with
    inputOccupied := fun _ => false
    accept := fun _ => false
    request := fun _ => false
    grant := fun _ => false
    ql := fun _ => 0
    outputOccupied := fun _ => false
    schResult := [] }

/-- The members are value-initialised and then reset by the two `init`s. -/
def new (inputNum outputNum : Nat) (iterations : Int := 1) (maxMatch : Bool := false) :
    IslipBooksim where
  numPort := max inputNum outputNum
  maxMatch := maxMatch
  iterations := iterations
  iterCnt := 0
  gi := fun _ => 0
  ai := fun _ => 0
  ql := fun _ => 0
  accept := fun _ => false
  request := fun _ => false
  grant := fun _ => false
  inputOccupied := fun _ => false
  outputOccupied := fun _ => false
  schResult := []

/-- `none` is the `std::out_of_range` of `at`. -/
def setQl (i j : Int) (sch : IslipBooksim) : Option IslipBooksim :=
  let index := i * sch.numPort + j
  if 0 ≤ index ∧ index < sch.numPort * sch.numPort then
    some { sch with ql := Function.update sch.ql index.toNat 1 }
  else none

/-- `set_ql` for each listed pair; a call that throws ends the sequence. -/
def setQls (pairs : List (Nat × Nat)) (sch : IslipBooksim) : Option IslipBooksim :=
  match pairs with
  | [] => some sch
  | pair :: rest => (sch.setQl pair.1 pair.2).bind (setQls rest)

/-! ## The phases -/

/-- One cell of `send_request`. -/
def requestCell (input output : Nat) (sch : IslipBooksim) : IslipBooksim :=
  if sch.ql (flatIndex sch.numPort input output) ≠ 0 then
    { sch with
      request := Function.update sch.request (flatIndex sch.numPort input output) true }
  else sch

/-- `send_request`.  A request is set for each pair with cells, and none is
cleared. -/
def sendRequest (sch : IslipBooksim) : IslipBooksim :=
  forRange sch.numPort
    (fun input current => forRange sch.numPort (requestCell input) current) sch

/-- `m_grant[input][output] = 1`. -/
def grantTo (input output : Nat) (sch : IslipBooksim) : IslipBooksim :=
  { sch with grant := Function.update sch.grant (flatIndex sch.numPort input output) true }

/-- One output of `do_grant`, with the flag `found`; after the `break` of
`m_max_match` the remaining outputs are passed over. -/
def grantOutput (output : Nat) (current : Bool × IslipBooksim) : Bool × IslipBooksim :=
  if current.1 ∧ current.2.maxMatch then current
  else if current.2.outputOccupied output then current
  else
    match scan current.2.numPort
        (fun input => if current.2.inputOccupied input then false
          else current.2.request (flatIndex current.2.numPort input output))
        (current.2.gi output) with
    | none => current
    | some input => (true, grantTo input output current.2)

/-- `do_grant`, over the outputs. -/
def doGrant (sch : IslipBooksim) : IslipBooksim :=
  (forRange sch.numPort grantOutput (false, sch)).2

/-- `m_accept[input][output] = 1`. -/
def acceptFrom (input output : Nat) (sch : IslipBooksim) : IslipBooksim :=
  { sch with accept := Function.update sch.accept (flatIndex sch.numPort input output) true }

/-- One input of `do_accept`, with the flag `found`. -/
def acceptInput (input : Nat) (current : Bool × IslipBooksim) : Bool × IslipBooksim :=
  if current.1 ∧ current.2.maxMatch then current
  else if current.2.inputOccupied input then current
  else
    match scan current.2.numPort
        (fun output => if current.2.outputOccupied output then false
          else current.2.grant (flatIndex current.2.numPort input output))
        (current.2.ai input) with
    | none => current
    | some output => (true, acceptFrom input output current.2)

/-- `do_accept`, over the inputs. -/
def doAccept (sch : IslipBooksim) : IslipBooksim :=
  (forRange sch.numPort acceptInput (false, sch)).2

/-- The body of `update_priority_ptr` for an accepted pair. -/
def commit (input output : Nat) (sch : IslipBooksim) : IslipBooksim :=
  { sch with
    gi := if sch.iterCnt = 0 then Function.update sch.gi output ((input + 1) % sch.numPort)
      else sch.gi
    ai := if sch.iterCnt = 0 then Function.update sch.ai input ((output + 1) % sch.numPort)
      else sch.ai
    inputOccupied := Function.update sch.inputOccupied input true
    outputOccupied := Function.update sch.outputOccupied output true
    schResult := sch.schResult ++ [(input, output)] }

/-- One cell of `update_priority_ptr`. -/
def updateCell (input output : Nat) (sch : IslipBooksim) : IslipBooksim :=
  if sch.outputOccupied output then sch
  else if sch.accept (flatIndex sch.numPort input output) then commit input output sch
  else sch

/-- One row of `update_priority_ptr`. -/
def updateRow (input : Nat) (sch : IslipBooksim) : IslipBooksim :=
  if sch.inputOccupied input then sch
  else forRange sch.numPort (updateCell input) sch

/-- `update_priority_ptr` -/
def updatePriorityPtr (sch : IslipBooksim) : IslipBooksim :=
  forRange sch.numPort updateRow sch

/-! ## The scheduling function -/

/-- The phases of one iteration. -/
def iteration (sch : IslipBooksim) : IslipBooksim :=
  updatePriorityPtr (doAccept (doGrant (sendRequest sch)))

/-- The state after the first `k` iterations. -/
def afterIterations (k : Nat) (sch : IslipBooksim) : IslipBooksim :=
  forRange k (fun iter current => iteration { current with iterCnt := iter }) sch

/-- `islip_sch` clears nothing but its counter. -/
def islipSch (sch : IslipBooksim) : IslipBooksim :=
  { afterIterations sch.iterations.toNat { sch with iterCnt := 0 } with
    iterCnt := sch.iterations.toNat }

/-! ## The choices of an iteration -/

/-- The pointers stand on ports. -/
structure InRange (sch : IslipBooksim) : Prop where
  gi_lt : ∀ output, output < sch.numPort → sch.gi output < sch.numPort
  ai_lt : ∀ input, input < sch.numPort → sch.ai input < sch.numPort

section Choices

variable (sch : IslipBooksim)

/-- Free input, free output, a request. -/
def asked (input output : Nat) : Bool :=
  !sch.inputOccupied input && !sch.outputOccupied output &&
    decide (sch.ql (flatIndex sch.numPort input output) ≠ 0)

/-- The input that the output grants. -/
def grantOf (output : Nat) : Option Nat :=
  scanGrant sch.numPort sch.numPort sch.asked sch.gi output

/-- The output whose grant the input accepts. -/
def acceptOf (input : Nat) : Option Nat :=
  scanAccept sch.numPort sch.numPort sch.asked sch.gi sch.ai input

/-- The matches of an iteration, by input. -/
def roundPairs : List (Nat × Nat) :=
  pairsOf sch.acceptOf (List.range sch.numPort)

/-- What the tables may hold between iterations: requests of queued pairs, and
marks of matched inputs.  An input that is still free holds no grant, since
with a grant it would have accepted one. -/
structure Tidy : Prop where
  request_ql : ∀ input, input < sch.numPort → ∀ output, output < sch.numPort →
    sch.request (flatIndex sch.numPort input output) = true →
      sch.ql (flatIndex sch.numPort input output) ≠ 0
  grant_free : ∀ input, input < sch.numPort → sch.inputOccupied input = false →
    ∀ output, output < sch.numPort → sch.grant (flatIndex sch.numPort input output) = false
  accept_free : ∀ input, input < sch.numPort → sch.inputOccupied input = false →
    ∀ output, output < sch.numPort → sch.accept (flatIndex sch.numPort input output) = false

end Choices

section Round

variable {sch : IslipBooksim} (inRange : sch.InRange)

include inRange

theorem acceptOf_asked {input output : Nat} (accepts : sch.acceptOf input = some output) :
    input < sch.numPort ∧ output < sch.numPort ∧ sch.inputOccupied input = false ∧
      sch.outputOccupied output = false ∧
      sch.ql (flatIndex sch.numPort input output) ≠ 0 := by
  obtain ⟨inputBound, outputBound, asks⟩ :=
    scanAccept_request inRange.gi_lt inRange.ai_lt accepts
  simp only [asked, Bool.and_eq_true, Bool.not_eq_true', decide_eq_true_eq] at asks
  exact ⟨inputBound, outputBound, asks.1.1, asks.1.2, asks.2⟩

theorem mem_roundPairs_iff {input output : Nat} :
    (input, output) ∈ sch.roundPairs ↔ sch.acceptOf input = some output :=
  mem_scanPairs_iff inRange.gi_lt inRange.ai_lt

theorem roundPairs_isMatching : IsMatching sch.roundPairs :=
  scanPairs_isMatching inRange.gi_lt inRange.ai_lt

/-- An input with a fresh grant accepts. -/
theorem acceptOf_isSome {input output : Nat} (granted : sch.grantOf output = some input) :
    (sch.acceptOf input).isSome :=
  (scanRound inRange.gi_lt inRange.ai_lt).accept_isSome granted

theorem grantOf_asked {input output : Nat} (granted : sch.grantOf output = some input) :
    input < sch.numPort ∧ output < sch.numPort ∧ sch.asked input output = true :=
  (scanRound inRange.gi_lt inRange.ai_lt).grant_request granted

end Round

end IslipBooksim

end SystemcTlm.Islip
