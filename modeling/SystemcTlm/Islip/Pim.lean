import SystemcTlm.Islip.PairAccounting

/-!
# `pim`

Parallel iterative matching: the outputs grant and the inputs accept a random
candidate.  The random choices are a parameter of the phases, so that what is
proved holds for every outcome.  The class has no pointers, and the members of
`VoqArbiter` that hold them stay at zero.
-/

namespace SystemcTlm.Islip

open SystemcTlm.Loop SystemcTlm.Matching SystemcTlm.Transition

namespace Pim

/-- The numbers an arbitration draws: `grant` in the given iteration for an
output, `accept` for an input, each for a number of candidates.  As
`uniform_int_distribution` they lie below that number. -/
structure Draws where
  grant : (iterCnt output candidates : Nat) → Nat
  accept : (iterCnt input candidates : Nat) → Nat
  grant_lt : ∀ iterCnt output {candidates}, 0 < candidates →
    grant iterCnt output candidates < candidates
  accept_lt : ∀ iterCnt input {candidates}, 0 < candidates →
    accept iterCnt input candidates < candidates

/-- `candidates[dis(g)]`, unless there are no candidates. -/
def choose (draw : Nat → Nat) (candidates : List Nat) : Option Nat :=
  if candidates.isEmpty then none else candidates[draw candidates.length]?

/-- The choice of `do_grant`. -/
def selectInput (draws : Draws) (inputNum iterCnt output _start : Nat)
    (inputOccupied : Nat → Bool) (queue : Nat → Int) : Option Nat :=
  choose (draws.grant iterCnt output)
    ((List.range inputNum).filter fun input => !inputOccupied input && decide (queue input > 0))

/-- The choice of `do_accept`. -/
def selectOutput (draws : Draws) (outputNum iterCnt input _start : Nat)
    (outputOccupied : Nat → Bool) (granted : Nat → Int) : Option Nat :=
  choose (draws.accept iterCnt input)
    ((List.range outputNum).filter fun output =>
      !outputOccupied output && decide (granted output = 1))

/-- How `pim` chooses: by its draws, with no pointer to move. -/
def discipline (draws : Draws) : Discipline Int (Nat × Nat) where
  selectInput := selectInput draws
  selectOutput := selectOutput draws
  movesOnGrant := false
  movesOnAccept := false
  movesOnCommit _ := false
  takeCell queue := queue - 1
  record input output _ := (input, output)

/-- The constructor. -/
def new (inputNum outputNum : Nat) (iterations : Int := 1) (voqSize : Int := 4) : PairArbiter :=
  VoqArbiter.new 0 inputNum outputNum iterations voqSize

/-- `pim::request` -/
def request (input output : Int) (arbiter : PairArbiter) : PairArbiter :=
  VoqArbiter.request input output arbiter

/-- `do_grant` -/
def doGrant (draws : Draws) (arbiter : PairArbiter) : PairArbiter :=
  VoqArbiter.doGrant (discipline draws) arbiter

/-- `do_accept` -/
def doAccept (draws : Draws) (arbiter : PairArbiter) : PairArbiter :=
  VoqArbiter.doAccept (discipline draws) arbiter

/-- `update_pointers`, which moves none. -/
def updatePointers (draws : Draws) (arbiter : PairArbiter) : PairArbiter :=
  VoqArbiter.updatePointers (discipline draws) arbiter

/-- `pim::arbitration` -/
def arbitration (draws : Draws) (arbiter : PairArbiter) : PairArbiter :=
  VoqArbiter.arbitration (doGrant draws) (doAccept draws) (updatePointers draws) arbiter

/-! ## Runs -/

/-- The public calls; every arbitration draws its own numbers. -/
inductive Call
  | request (input output : Int)
  | arbitration (draws : Draws)

/-- One of the calls. -/
def call : Call → PairArbiter → PairArbiter
  | .request input output => request input output
  | .arbitration draws => arbitration draws

/-- The state after the calls, from construction. -/
def run (inputNum outputNum : Nat) (iterations voqSize : Int) (calls : List Call) : PairArbiter :=
  runCalls call calls (new inputNum outputNum iterations voqSize)

/-! ## The choices -/

theorem choose_mem {draw : Nat → Nat} {candidates : List Nat} {place : Nat}
    (chosen : choose draw candidates = some place) : place ∈ candidates := by
  unfold choose at chosen
  split_ifs at chosen
  exact List.mem_of_getElem? chosen

/-- A number drawn below the number of candidates chooses one of them. -/
theorem choose_isSome {draw : Nat → Nat} {candidates : List Nat} {place : Nat}
    (drawn : ∀ {n}, 0 < n → draw n < n) (member : place ∈ candidates) :
    (choose draw candidates).isSome := by
  have positive := List.length_pos_of_mem member
  have nonempty : candidates.isEmpty = false := by
    rw [List.isEmpty_eq_false_iff]
    exact List.ne_nil_of_mem member
  rw [choose, nonempty, List.getElem?_eq_getElem (drawn positive)]
  rfl

theorem discipline_lawful (draws : Draws) : (discipline draws).Lawful (0 < ·) where
  selectInput_sound := by
    intro n iter output start occupied queue input _ found
    have member := choose_mem found
    simpa [and_assoc] using member
  selectInput_complete := by
    intro n iter output start occupied queue input _ bound free waits
    have member : input ∈ (List.range n).filter
        fun i => !occupied i && decide (queue i > 0) := by
      simpa [free, bound] using waits
    exact choose_isSome (draws.grant_lt iter output) member
  selectOutput_sound := by
    intro m iter input start occupied granted output _ found
    have member := choose_mem found
    simpa [and_assoc] using member
  selectOutput_complete := by
    intro m iter input start occupied granted output _ bound free grants
    have member : output ∈ (List.range m).filter
        fun j => !occupied j && decide (granted j = 1) := by
      simp [free, bound, grants]
    exact choose_isSome (draws.accept_lt iter input) member

/-! ## Arbitrations -/

/-- The pairs an arbitration schedules. -/
def scheduledPairs (draws : Draws) (arbiter : PairArbiter) : List (Nat × Nat) :=
  VoqArbiter.slotPairs (discipline draws) arbiter.iterations.toNat arbiter

theorem slotInv (draws : Draws) {arbiter : PairArbiter} (inRange : arbiter.InRange) :
    VoqArbiter.SlotInv (discipline draws) (0 < ·) arbiter (scheduledPairs draws arbiter)
      (arbitration draws arbiter) :=
  VoqArbiter.slotInv_arbitration (discipline_lawful draws) inRange

theorem schResult_eq (draws : Draws) {arbiter : PairArbiter} (inRange : arbiter.InRange) :
    (arbitration draws arbiter).schResult = scheduledPairs draws arbiter := by
  rw [(slotInv draws inRange).schResult_eq]
  exact List.map_id _

/-- No call changes the sizes or moves a pointer off the ports. -/
theorem sized_run {inputNum outputNum : Nat} (iterations voqSize : Int) (inputs : 1 ≤ inputNum)
    (outputs : 1 ≤ outputNum) (calls : List Call) :
    PairScheduler.Sized inputNum outputNum iterations voqSize
      (run inputNum outputNum iterations voqSize calls) := by
  apply runCalls_invariant
  · exact ⟨rfl, rfl, rfl, rfl, fun _ _ => inputs, fun _ _ => outputs⟩
  · intro next arbiter sized
    cases next with
    | request input output => exact sized.request input output
    | arbitration draws => exact sized.of_slotInv (slotInv draws sized.inRange)

/-- Whatever is drawn, in this arbitration and before: the result is a matching
of pairs with waiting cells, each of them loses one cell, and with as many
iterations as the smaller side has ports no cell waits between two unmatched
ports. -/
theorem arbitration_correct {inputNum outputNum : Nat} (iterations voqSize : Int)
    (inputs : 1 ≤ inputNum) (outputs : 1 ≤ outputNum) (calls : List Call) (draws : Draws)
    {arbiter : PairArbiter}
    (reached : arbiter = run inputNum outputNum iterations voqSize calls) :
    IsMatching (arbitration draws arbiter).schResult ∧
    (∀ pair ∈ (arbitration draws arbiter).schResult,
      pair.1 < inputNum ∧ pair.2 < outputNum ∧ 0 < arbiter.voq pair.1 pair.2) ∧
    (∀ input output, (arbitration draws arbiter).voq input output =
      arbiter.voq input output -
        if (input, output) ∈ (arbitration draws arbiter).schResult then 1 else 0) ∧
    ((min inputNum outputNum : Int) ≤ iterations →
      ¬ ∃ input output, input < inputNum ∧ output < outputNum ∧
        input ∉ (arbitration draws arbiter).schResult.map Prod.fst ∧
        output ∉ (arbitration draws arbiter).schResult.map Prod.snd ∧
        0 < (arbitration draws arbiter).voq input output) := by
  have sized := sized_run iterations voqSize inputs outputs calls
  rw [← reached] at sized
  have slot := slotInv draws sized.inRange
  rw [schResult_eq draws sized.inRange]
  refine ⟨slot.isMatching, ?_, ?_, ?_⟩
  · intro pair member
    have scheduled := slot.scheduled pair member
    rwa [sized.inputNum_eq, sized.outputNum_eq] at scheduled
  · intro input output
    rw [slot.voq_eq]
    split_ifs
    · rfl
    · exact (Int.sub_zero _).symm
  · rintro enough ⟨input, output, inputBound, outputBound, freeInput, freeOutput, waits⟩
    rw [← sized.inputNum_eq] at inputBound
    rw [← sized.outputNum_eq] at outputBound
    rw [← sized.inputNum_eq, ← sized.outputNum_eq, ← sized.iterations_eq] at enough
    exact VoqArbiter.not_waiting_arbitration (discipline_lawful draws) sized.inRange enough
      inputBound outputBound freeInput freeOutput waits

/-- Every draw takes the last candidate. -/
def lastDraws : Draws where
  grant _ _ candidates := candidates - 1
  accept _ _ candidates := candidates - 1
  grant_lt _ _ _ positive := Nat.sub_one_lt_of_lt positive
  accept_lt _ _ _ positive := Nat.sub_one_lt_of_lt positive

/-- Two inputs that wait for both outputs, with two iterations. -/
theorem arbitration_correct_two_ports :
    ¬ ∃ input output, input < 2 ∧ output < 2 ∧
      input ∉ (arbitration lastDraws (run 2 2 2 4
        [.request 0 0, .request 0 1, .request 1 0, .request 1 1])).schResult.map Prod.fst ∧
      output ∉ (arbitration lastDraws (run 2 2 2 4
        [.request 0 0, .request 0 1, .request 1 0, .request 1 1])).schResult.map Prod.snd ∧
      0 < (arbitration lastDraws (run 2 2 2 4
        [.request 0 0, .request 0 1, .request 1 0, .request 1 1])).voq input output :=
  (arbitration_correct 2 4 (by decide) (by decide)
    [.request 0 0, .request 0 1, .request 1 0, .request 1 1] lastDraws rfl).2.2.2 (by decide)

end Pim

end SystemcTlm.Islip
