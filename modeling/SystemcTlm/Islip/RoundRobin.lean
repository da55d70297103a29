import SystemcTlm.Islip.VoqSlot

/-!
# `islip_basic` and `rrm`

Both classes schedule counted cells with the same round-robin scans.  They
differ in the phase that moves the pointers: `rrm` moves the grant pointer in
`do_grant` and the accept pointer in `do_accept`, whether or not the other side
agrees, while `islip_basic` moves both in `update_pointers` and only in the
first iteration.
-/

namespace SystemcTlm.Islip

open SystemcTlm.Loop SystemcTlm.Matching

/-- An arbiter with counted cells whose results are pairs of ports. -/
abbrev PairArbiter :=
  VoqArbiter Int (Nat × Nat)

/-! ## The scans -/

/-- The scan of `do_grant`: the first input from the pointer that is free and
has a cell for the output. -/
def scanInput (inputNum _iterCnt _output start : Nat) (inputOccupied : Nat → Bool)
    (queue : Nat → Int) : Option Nat :=
  scan inputNum
    (fun input => if inputOccupied input then false else decide (queue input > 0)) start

/-- The scan of `do_accept`: the first output from the pointer that is free and
grants the input. -/
def scanOutput (outputNum _iterCnt _input start : Nat) (outputOccupied : Nat → Bool)
    (granted : Nat → Int) : Option Nat :=
  scan outputNum
    (fun output => if outputOccupied output then false else decide (granted output = 1)) start

/-- The common part of the two classes. -/
def roundRobin (movesOnGrant movesOnAccept : Bool) (movesOnCommit : Nat → Bool) :
    Discipline Int (Nat × Nat) where
  selectInput := scanInput
  selectOutput := scanOutput
  movesOnGrant := movesOnGrant
  movesOnAccept := movesOnAccept
  movesOnCommit := movesOnCommit
  takeCell queue := queue - 1
  record input output _ := (input, output)

theorem scanOutput_sound {m iter input start : Nat} {occupied : Nat → Bool} {granted : Nat → Int}
    {output : Nat} (startBound : start < m)
    (found : scanOutput m iter input start occupied granted = some output) :
    output < m ∧ occupied output = false ∧ granted output = 1 := by
  rcases (scan_eq_some_iff startBound).mp found with ⟨bound, hit, _⟩
  split_ifs at hit with taken
  exact ⟨bound, by simpa using taken, by simpa using hit⟩

theorem scanOutput_complete {m iter input start : Nat} {occupied : Nat → Bool}
    {granted : Nat → Int} {output : Nat} (startBound : start < m) (bound : output < m)
    (free : occupied output = false) (grants : granted output = 1) :
    (scanOutput m iter input start occupied granted).isSome :=
  scan_isSome_of_hit _ startBound bound (by simp [free, grants])

theorem roundRobin_lawful (movesOnGrant movesOnAccept : Bool) (movesOnCommit : Nat → Bool) :
    (roundRobin movesOnGrant movesOnAccept movesOnCommit).Lawful (0 < ·) where
  selectInput_sound startBound found := by
    rcases (scan_eq_some_iff startBound).mp found with ⟨bound, hit, _⟩
    split_ifs at hit with taken
    exact ⟨bound, by simpa using taken, by simpa using hit⟩
  selectInput_complete startBound bound free waits :=
    scan_isSome_of_hit _ startBound bound (by simpa [free] using waits)
  selectOutput_sound := @scanOutput_sound
  selectOutput_complete := @scanOutput_complete

/-! ## The classes -/

namespace IslipBasic

/-- Both pointers move in `update_pointers`, in the first iteration. -/
def discipline : Discipline Int (Nat × Nat) :=
  roundRobin false false fun iterCnt => iterCnt == 0

/-- The constructor. -/
def new (inputNum outputNum : Nat) (iterations : Int := 1) (voqSize : Int := 4) : PairArbiter :=
  VoqArbiter.new 0 inputNum outputNum iterations voqSize

/-- `request` -/
def request (input output : Int) (arbiter : PairArbiter) : PairArbiter :=
  VoqArbiter.request input output arbiter

/-- `do_grant`, which moves no pointer. -/
def doGrant (arbiter : PairArbiter) : PairArbiter :=
  VoqArbiter.doGrant discipline arbiter

/-- `do_accept` -/
def doAccept (arbiter : PairArbiter) : PairArbiter :=
  VoqArbiter.doAccept discipline arbiter

/-- `update_pointers`.  The pointers move in the first iteration only. -/
def updatePointers (arbiter : PairArbiter) : PairArbiter :=
  VoqArbiter.updatePointers discipline arbiter

/-- `arbitration` -/
def arbitration (arbiter : PairArbiter) : PairArbiter :=
  VoqArbiter.arbitration doGrant doAccept updatePointers arbiter

end IslipBasic

namespace Rrm

/-- `do_grant` and `do_accept` move the pointers, `update_pointers` does not. -/
def discipline : Discipline Int (Nat × Nat) :=
  roundRobin true true fun _ => false

/-- The constructor. -/
def new (inputNum outputNum : Nat) (iterations : Int := 1) (voqSize : Int := 4) : PairArbiter :=
  VoqArbiter.new 0 inputNum outputNum iterations voqSize

/-- `request` -/
def request (input output : Int) (arbiter : PairArbiter) : PairArbiter :=
  VoqArbiter.request input output arbiter

/-- Staggers the grant pointers, modulo the number of outputs. -/
def initPriorityPtr (arbiter : PairArbiter) : PairArbiter :=
  forRange arbiter.outputNum (fun i current =>
    { current with gPtr := Function.update current.gPtr i ((i + 1) % current.outputNum) }) arbiter

/-- `do_grant`, which moves the pointers of the outputs that grant. -/
def doGrant (arbiter : PairArbiter) : PairArbiter :=
  VoqArbiter.doGrant discipline arbiter

/-- `do_accept`, which moves the pointers of the inputs that accept. -/
def doAccept (arbiter : PairArbiter) : PairArbiter :=
  VoqArbiter.doAccept discipline arbiter

/-- `update_pointers`, which takes the cells. -/
def updatePointers (arbiter : PairArbiter) : PairArbiter :=
  VoqArbiter.updatePointers discipline arbiter

/-- `arbitration` -/
def arbitration (arbiter : PairArbiter) : PairArbiter :=
  VoqArbiter.arbitration doGrant doAccept updatePointers arbiter

end Rrm

/-- The two classes of this module. -/
inductive PairScheduler
  | islipBasic
  | rrm
  deriving DecidableEq

namespace PairScheduler

/-- How the class chooses. -/
def discipline : PairScheduler → Discipline Int (Nat × Nat)
  | islipBasic => IslipBasic.discipline
  | rrm => Rrm.discipline

/-- The constructor of the class. -/
def new (scheduler : PairScheduler) (inputNum outputNum : Nat) (iterations voqSize : Int) :
    PairArbiter :=
  match scheduler with
  | islipBasic => IslipBasic.new inputNum outputNum iterations voqSize
  | rrm => Rrm.new inputNum outputNum iterations voqSize

/-- `request` of the class. -/
def request : PairScheduler → (input output : Int) → PairArbiter → PairArbiter
  | islipBasic => IslipBasic.request
  | rrm => Rrm.request

/-- `arbitration` of the class. -/
def arbitration : PairScheduler → PairArbiter → PairArbiter
  | islipBasic => IslipBasic.arbitration
  | rrm => Rrm.arbitration

theorem lawful (scheduler : PairScheduler) : scheduler.discipline.Lawful (0 < ·) := by
  cases scheduler
  · exact roundRobin_lawful _ _ _
  · exact roundRobin_lawful _ _ _

theorem new_eq (scheduler : PairScheduler) (inputNum outputNum : Nat)
    (iterations voqSize : Int) :
    scheduler.new inputNum outputNum iterations voqSize =
      VoqArbiter.new 0 inputNum outputNum iterations voqSize := by
  cases scheduler <;> rfl

theorem request_eq (scheduler : PairScheduler) (input output : Int) (arbiter : PairArbiter) :
    scheduler.request input output arbiter = VoqArbiter.request input output arbiter := by
  cases scheduler <;> rfl

/-- Both classes run the shared loop over their own phases. -/
theorem arbitration_eq (scheduler : PairScheduler) (arbiter : PairArbiter) :
    scheduler.arbitration arbiter =
      { VoqArbiter.afterRounds scheduler.discipline arbiter.iterations.toNat arbiter with
        iterCnt := arbiter.iterations.toNat } := by
  cases scheduler <;> rfl

/-- The pairs an arbitration schedules. -/
def scheduledPairs (scheduler : PairScheduler) (arbiter : PairArbiter) : List (Nat × Nat) :=
  VoqArbiter.slotPairs scheduler.discipline arbiter.iterations.toNat arbiter

theorem takeCell_eq (scheduler : PairScheduler) (queue : Int) :
    scheduler.discipline.takeCell queue = queue - 1 := by
  cases scheduler <;> rfl

theorem recordOf_eq (scheduler : PairScheduler) (arbiter : PairArbiter) (pair : Nat × Nat) :
    VoqArbiter.recordOf scheduler.discipline arbiter pair = pair := by
  cases scheduler <;> rfl

theorem slotInv (scheduler : PairScheduler) {arbiter : PairArbiter} (inRange : arbiter.InRange) :
    VoqArbiter.SlotInv scheduler.discipline (0 < ·) arbiter (scheduler.scheduledPairs arbiter)
      (scheduler.arbitration arbiter) := by
  rw [arbitration_eq]
  exact VoqArbiter.slotInv_arbitration scheduler.lawful inRange

/-- `sch_result` is the list of scheduled pairs. -/
theorem schResult_eq (scheduler : PairScheduler) {arbiter : PairArbiter}
    (inRange : arbiter.InRange) :
    (scheduler.arbitration arbiter).schResult = scheduler.scheduledPairs arbiter := by
  rw [(scheduler.slotInv inRange).schResult_eq]
  exact (List.map_congr_left fun pair _ => scheduler.recordOf_eq arbiter pair).trans
    (List.map_id _)

/-- Scheduling is maximal: with as many iterations as the smaller side has
ports, no cell waits between an unmatched input and an unmatched output. -/
theorem arbitration_maximal (scheduler : PairScheduler) {arbiter : PairArbiter}
    (inRange : arbiter.InRange)
    (enough : (min arbiter.inputNum arbiter.outputNum : Int) ≤ arbiter.iterations) :
    ¬ ∃ input output, input < arbiter.inputNum ∧ output < arbiter.outputNum ∧
      input ∉ (scheduler.arbitration arbiter).schResult.map Prod.fst ∧
      output ∉ (scheduler.arbitration arbiter).schResult.map Prod.snd ∧
      0 < (scheduler.arbitration arbiter).voq input output := by
  rintro ⟨input, output, inputBound, outputBound, unmatchedInput, unmatchedOutput, waits⟩
  rw [scheduler.schResult_eq inRange] at unmatchedInput unmatchedOutput
  rw [arbitration_eq] at waits
  exact VoqArbiter.not_waiting_arbitration scheduler.lawful inRange enough inputBound outputBound
    unmatchedInput unmatchedOutput waits

/-- Two iterations of `rrm` on two ports, both inputs waiting for output 0. -/
theorem arbitration_maximal_two_ports :
    ¬ ∃ input output, input < 2 ∧ output < 2 ∧
      input ∉ (rrm.arbitration
        (rrm.request 1 0 (rrm.request 0 0 (rrm.new 2 2 2 4)))).schResult.map Prod.fst ∧
      output ∉ (rrm.arbitration
        (rrm.request 1 0 (rrm.request 0 0 (rrm.new 2 2 2 4)))).schResult.map Prod.snd ∧
      0 < (rrm.arbitration
        (rrm.request 1 0 (rrm.request 0 0 (rrm.new 2 2 2 4)))).voq input output :=
  @arbitration_maximal rrm (rrm.request 1 0 (rrm.request 0 0 (rrm.new 2 2 2 4)))
    ⟨by decide, by decide⟩ (by decide)

end PairScheduler

end SystemcTlm.Islip
