import SystemcTlm.Islip.RoundRobin
import SystemcTlm.Transition.Run

/-!
# Whole runs of `islip_basic` and `rrm`

A run is a list of `request` and `arbitration` calls on a constructed arbiter.
Every cell of a queue is accounted for: it entered by a request that found the
queue below `voq_size`, and left by being scheduled.
-/

namespace SystemcTlm.Islip

open SystemcTlm.Loop SystemcTlm.Matching SystemcTlm.Transition

/-- The public calls between construction and destruction. -/
inductive PairCall
  | request (input output : Int)
  | arbitration
  deriving DecidableEq

namespace PairScheduler

variable (scheduler : PairScheduler)

/-- One of the calls. -/
def call : PairCall → PairArbiter → PairArbiter
  | .request input output => scheduler.request input output
  | .arbitration => scheduler.arbitration

/-- The state after the calls, from construction. -/
def run (inputNum outputNum : Nat) (iterations voqSize : Int) (calls : List PairCall) :
    PairArbiter :=
  runCalls scheduler.call calls (scheduler.new inputNum outputNum iterations voqSize)

/-- Cells the call puts into the queue of `(input, output)`. -/
def enqueues (next : PairCall) (arbiter : PairArbiter) (input output : Nat) : Nat :=
  match next with
  | .request i j =>
      if i = input ∧ j = output ∧ input < arbiter.inputNum ∧ output < arbiter.outputNum ∧
        arbiter.voq input output < arbiter.voqSize then 1 else 0
  | .arbitration => 0

/-- Times the call schedules `(input, output)`. -/
def schedules (next : PairCall) (arbiter : PairArbiter) (input output : Nat) : Nat :=
  match next with
  | .request _ _ => 0
  | .arbitration => (scheduler.arbitration arbiter).schResult.count (input, output)

/-- `request` calls for `(input, output)` in range that found the queue below
`voq_size`, over a run. -/
def enqueued (calls : List PairCall) (start : PairArbiter) (input output : Nat) : Nat :=
  match calls with
  | [] => 0
  | next :: rest => enqueues next start input output +
      enqueued rest (scheduler.call next start) input output

/-- Times `(input, output)` has been scheduled over a run. -/
def scheduled (calls : List PairCall) (start : PairArbiter) (input output : Nat) : Nat :=
  match calls with
  | [] => 0
  | next :: rest => scheduler.schedules next start input output +
      scheduled rest (scheduler.call next start) input output

/-! ## One call -/

/-- A request adds at most one cell, to the queue it names. -/
theorem request_voq (i j : Int) (arbiter : PairArbiter) (input output : Nat) :
    (VoqArbiter.request i j arbiter).voq input output =
      arbiter.voq input output + enqueues (.request i j) arbiter input output := by
  simp only [VoqArbiter.request, enqueues]
  by_cases named : i = input ∧ j = output
  · rcases named with ⟨rfl, rfl⟩
    by_cases inside : input < arbiter.inputNum ∧ output < arbiter.outputNum
    · rw [if_neg (by omega)]
      by_cases full : arbiter.voqSize ≤ arbiter.voq input output
      · simp [full]
      · simp [full, inside, not_le.mp full]
    · rw [if_pos (by omega), if_neg (by tauto)]
      simp
  · have zero : ¬ (i = input ∧ j = output ∧ input < arbiter.inputNum ∧
        output < arbiter.outputNum ∧ arbiter.voq input output < arbiter.voqSize) := by tauto
    rw [if_neg zero]
    split_ifs with outside full
    · simp
    · simp
    · have other : ¬ (input = i.toNat ∧ output = j.toNat) := by omega
      simp [update₂, other]

theorem request_sizes (i j : Int) (arbiter : PairArbiter) :
    (VoqArbiter.request i j arbiter).inputNum = arbiter.inputNum ∧
      (VoqArbiter.request i j arbiter).outputNum = arbiter.outputNum ∧
      (VoqArbiter.request i j arbiter).voqSize = arbiter.voqSize ∧
      (VoqArbiter.request i j arbiter).iterations = arbiter.iterations ∧
      (VoqArbiter.request i j arbiter).gPtr = arbiter.gPtr ∧
      (VoqArbiter.request i j arbiter).aPtr = arbiter.aPtr := by
  unfold VoqArbiter.request
  split_ifs <;> exact ⟨rfl, rfl, rfl, rfl, rfl, rfl⟩

/-- An arbitration takes one cell from the queue of every scheduled pair. -/
theorem arbitration_voq {arbiter : PairArbiter} (inRange : arbiter.InRange)
    (input output : Nat) :
    (scheduler.arbitration arbiter).voq input output =
      arbiter.voq input output - scheduler.schedules .arbitration arbiter input output := by
  have inv := scheduler.slotInv inRange
  rw [inv.voq_eq, schedules, scheduler.schResult_eq inRange, inv.isMatching.nodup.count,
    takeCell_eq]
  split_ifs <;> simp

/-- What no call changes: the sizes, and that the pointers stand on ports. -/
structure Sized (inputNum outputNum : Nat) (iterations voqSize : Int) (arbiter : PairArbiter) :
    Prop where
  inputNum_eq : arbiter.inputNum = inputNum
  outputNum_eq : arbiter.outputNum = outputNum
  iterations_eq : arbiter.iterations = iterations
  voqSize_eq : arbiter.voqSize = voqSize
  inRange : arbiter.InRange

/-- What holds between the calls of a run: no queue is negative or above its
size. -/
structure RunInv (inputNum outputNum : Nat) (iterations voqSize : Int) (arbiter : PairArbiter) :
    Prop extends Sized inputNum outputNum iterations voqSize arbiter where
  voq_nonneg : ∀ input output, 0 ≤ arbiter.voq input output
  voq_le : ∀ input output, arbiter.voq input output ≤ voqSize

variable {inputNum outputNum : Nat} {iterations voqSize : Int}

theorem sized_new (iterations voqSize : Int) (inputs : 1 ≤ inputNum) (outputs : 1 ≤ outputNum) :
    Sized inputNum outputNum iterations voqSize
      (scheduler.new inputNum outputNum iterations voqSize) := by
  rw [new_eq]
  exact {
    inputNum_eq := rfl
    outputNum_eq := rfl
    iterations_eq := rfl
    voqSize_eq := rfl
    inRange := ⟨fun _ _ => inputs, fun _ _ => outputs⟩ }

theorem Sized.request {arbiter : PairArbiter}
    (sized : Sized inputNum outputNum iterations voqSize arbiter) (i j : Int) :
    Sized inputNum outputNum iterations voqSize (VoqArbiter.request i j arbiter) := by
  rcases request_sizes i j arbiter with ⟨inputs, outputs, size, rounds, gPtr, aPtr⟩
  exact {
    inputNum_eq := inputs.trans sized.inputNum_eq
    outputNum_eq := outputs.trans sized.outputNum_eq
    iterations_eq := rounds.trans sized.iterations_eq
    voqSize_eq := size.trans sized.voqSize_eq
    inRange := by
      constructor
      · rw [gPtr, inputs, outputs]
        exact sized.inRange.gPtr_lt
      · rw [aPtr, inputs, outputs]
        exact sized.inRange.aPtr_lt }

/-- An arbitration of any discipline keeps the sizes. -/
theorem Sized.of_slotInv {discipline : Discipline Int (Nat × Nat)}
    {waiting : Int → Prop} {pairs : List (Nat × Nat)} {arbiter after : PairArbiter}
    (sized : Sized inputNum outputNum iterations voqSize arbiter)
    (slot : VoqArbiter.SlotInv discipline waiting arbiter pairs after) :
    Sized inputNum outputNum iterations voqSize after where
  inputNum_eq := slot.inputNum_eq.trans sized.inputNum_eq
  outputNum_eq := slot.outputNum_eq.trans sized.outputNum_eq
  iterations_eq := slot.iterations_eq.trans sized.iterations_eq
  voqSize_eq := slot.voqSize_eq.trans sized.voqSize_eq
  inRange := slot.inRange

theorem Sized.arbitration {arbiter : PairArbiter}
    (sized : Sized inputNum outputNum iterations voqSize arbiter) :
    Sized inputNum outputNum iterations voqSize (scheduler.arbitration arbiter) :=
  sized.of_slotInv (scheduler.slotInv sized.inRange)

theorem Sized.call {arbiter : PairArbiter}
    (sized : Sized inputNum outputNum iterations voqSize arbiter) (next : PairCall) :
    Sized inputNum outputNum iterations voqSize (scheduler.call next arbiter) := by
  cases next with
  | request i j =>
      rw [PairScheduler.call, request_eq]
      exact sized.request i j
  | arbitration => exact sized.arbitration scheduler

theorem runInv_new (iterations : Int) (inputs : 1 ≤ inputNum) (outputs : 1 ≤ outputNum)
    (size : 0 ≤ voqSize) :
    RunInv inputNum outputNum iterations voqSize
      (scheduler.new inputNum outputNum iterations voqSize) where
  toSized := scheduler.sized_new iterations voqSize inputs outputs
  voq_nonneg _ _ := by simp [new_eq, VoqArbiter.new]
  voq_le _ _ := by simpa [new_eq, VoqArbiter.new] using size

theorem RunInv.request {arbiter : PairArbiter}
    (inv : RunInv inputNum outputNum iterations voqSize arbiter) (i j : Int) :
    RunInv inputNum outputNum iterations voqSize (VoqArbiter.request i j arbiter) where
  toSized := inv.toSized.request i j
  voq_nonneg input output := by
    have before := inv.voq_nonneg input output
    rw [request_voq]
    omega
  voq_le input output := by
    have before := inv.voq_le input output
    rw [request_voq, enqueues]
    split_ifs with entered
    · have room := entered.2.2.2.2
      rw [inv.voqSize_eq] at room
      omega
    · omega

theorem RunInv.arbitration {arbiter : PairArbiter}
    (inv : RunInv inputNum outputNum iterations voqSize arbiter) :
    RunInv inputNum outputNum iterations voqSize (scheduler.arbitration arbiter) where
  toSized := inv.toSized.arbitration scheduler
  voq_nonneg input output := by
    have slot := scheduler.slotInv inv.inRange
    have before := inv.voq_nonneg input output
    rw [slot.voq_eq, takeCell_eq]
    split_ifs with member
    · have waits : 0 < arbiter.voq input output := (slot.scheduled _ member).2.2
      omega
    · exact before
  voq_le input output := by
    have before := inv.voq_le input output
    rw [(scheduler.slotInv inv.inRange).voq_eq, takeCell_eq]
    split_ifs <;> omega

theorem RunInv.call {arbiter : PairArbiter}
    (inv : RunInv inputNum outputNum iterations voqSize arbiter) (next : PairCall) :
    RunInv inputNum outputNum iterations voqSize (scheduler.call next arbiter) := by
  cases next with
  | request i j =>
      rw [PairScheduler.call, request_eq]
      exact inv.request i j
  | arbitration => exact inv.arbitration scheduler

/-- One call moves a queue by what it enqueues and schedules. -/
theorem call_voq {arbiter : PairArbiter} (inRange : arbiter.InRange) (next : PairCall)
    (input output : Nat) :
    (scheduler.call next arbiter).voq input output =
      arbiter.voq input output + enqueues next arbiter input output -
        scheduler.schedules next arbiter input output := by
  cases next with
  | request i j =>
      rw [PairScheduler.call, request_eq, request_voq, schedules]
      simp
  | arbitration =>
      rw [PairScheduler.call, arbitration_voq scheduler inRange, enqueues]
      simp

/-! ## Whole runs -/

theorem runInv_run (iterations : Int) (inputs : 1 ≤ inputNum) (outputs : 1 ≤ outputNum)
    (size : 0 ≤ voqSize) (calls : List PairCall) :
    RunInv inputNum outputNum iterations voqSize
      (scheduler.run inputNum outputNum iterations voqSize calls) :=
  runCalls_invariant _ (scheduler.runInv_new iterations inputs outputs size)
    fun next _ inv => inv.call scheduler next

theorem sized_run (iterations voqSize : Int) (inputs : 1 ≤ inputNum) (outputs : 1 ≤ outputNum)
    (calls : List PairCall) :
    Sized inputNum outputNum iterations voqSize
      (scheduler.run inputNum outputNum iterations voqSize calls) :=
  runCalls_invariant _ (scheduler.sized_new iterations voqSize inputs outputs)
    fun next _ sized => sized.call scheduler next

/-- The ledger of a run from any state that satisfies the invariant. -/
theorem runCalls_voq {start : PairArbiter}
    (inv : RunInv inputNum outputNum iterations voqSize start) (calls : List PairCall)
    (input output : Nat) :
    (runCalls scheduler.call calls start).voq input output =
      start.voq input output + scheduler.enqueued calls start input output -
        scheduler.scheduled calls start input output := by
  induction calls generalizing start with
  | nil => simp [enqueued, scheduled]
  | cons next rest ih =>
      rw [runCalls_cons, ih (inv.call scheduler next), call_voq scheduler inv.inRange, enqueued,
        scheduled]
      omega

/-- Matching safety and cell accounting over whole runs, for both classes: at
every time each queue is within its size and holds exactly the cells that
entered and were not scheduled, and the next arbitration schedules a matching
of pairs with waiting cells. -/
theorem run_safe_and_accounted (inputs : 1 ≤ inputNum) (outputs : 1 ≤ outputNum)
    (size : 0 ≤ voqSize) (calls : List PairCall) :
    (∀ input output,
      0 ≤ (scheduler.run inputNum outputNum iterations voqSize calls).voq input output ∧
      (scheduler.run inputNum outputNum iterations voqSize calls).voq input output ≤ voqSize ∧
      (scheduler.run inputNum outputNum iterations voqSize calls).voq input output =
        (scheduler.enqueued calls (scheduler.new inputNum outputNum iterations voqSize) input
          output : Int) -
        scheduler.scheduled calls (scheduler.new inputNum outputNum iterations voqSize) input
          output) ∧
    IsMatching (scheduler.arbitration
      (scheduler.run inputNum outputNum iterations voqSize calls)).schResult ∧
    ∀ pair ∈ (scheduler.arbitration
        (scheduler.run inputNum outputNum iterations voqSize calls)).schResult,
      pair.1 < inputNum ∧ pair.2 < outputNum ∧
      0 < (scheduler.run inputNum outputNum iterations voqSize calls).voq pair.1 pair.2 := by
  have inv := scheduler.runInv_run iterations inputs outputs size calls
  have slot := scheduler.slotInv inv.inRange
  refine ⟨fun input output => ⟨inv.voq_nonneg input output, inv.voq_le input output, ?_⟩, ?_, ?_⟩
  · have ledger := scheduler.runCalls_voq
      (scheduler.runInv_new iterations inputs outputs size) calls input output
    rw [run, ledger, new_eq]
    simp [VoqArbiter.new]
  · rw [scheduler.schResult_eq inv.inRange]
    exact slot.isMatching
  · rw [scheduler.schResult_eq inv.inRange]
    intro pair member
    have scheduledPair := slot.scheduled pair member
    rwa [inv.inputNum_eq, inv.outputNum_eq] at scheduledPair

/-- Three requests for output 1 and one out of range, and an arbitration of
`rrm`. -/
def contending : List PairCall :=
  [.request 0 1, .request 1 1, .request 0 1, .request 5 (-1), .arbitration]

/-- The next arbitration takes a cell that waits, and a third is left. -/
theorem run_safe_and_accounted_two_ports :
    (rrm.arbitration (rrm.run 2 2 1 4 contending)).schResult = [(1, 1)] ∧
    (rrm.run 2 2 1 4 contending).voq 0 1 =
      (rrm.enqueued contending (rrm.new 2 2 1 4) 0 1 : Int) -
        rrm.scheduled contending (rrm.new 2 2 1 4) 0 1 ∧
    IsMatching (rrm.arbitration (rrm.run 2 2 1 4 contending)).schResult ∧
    ∀ pair ∈ (rrm.arbitration (rrm.run 2 2 1 4 contending)).schResult,
      pair.1 < 2 ∧ pair.2 < 2 ∧ 0 < (rrm.run 2 2 1 4 contending).voq pair.1 pair.2 := by
  refine ⟨by decide +kernel, ?_, (run_safe_and_accounted rrm (by decide) (by decide) (by decide)
    contending).2⟩
  exact ((run_safe_and_accounted rrm (by decide) (by decide) (by decide) contending).1 0 1).2.2

/-! ## Runs with arrivals before every arbitration -/

/-- Requests made one after the other. -/
def arrive (requests : List (Int × Int)) (arbiter : PairArbiter) : PairArbiter :=
  requests.foldl (fun current next => scheduler.request next.1 next.2 current) arbiter

/-- The state at the start of the `t`-th arbitration, `arrivals t` having been
requested before it. -/
def atCall (arrivals : Nat → List (Int × Int)) (start : PairArbiter) (t : Nat) : PairArbiter :=
  atSlot (fun t => scheduler.arrive (arrivals t)) scheduler.arbitration start t

/-- The result of the `t`-th arbitration. -/
def resultAt (arrivals : Nat → List (Int × Int)) (start : PairArbiter) (t : Nat) :
    List (Nat × Nat) :=
  (scheduler.arbitration (scheduler.atCall arrivals start t)).schResult

/-- Every queue holds a cell at the start of each of the first `calls`
arbitrations. -/
def Saturated (arrivals : Nat → List (Int × Int)) (start : PairArbiter) (calls : Nat) : Prop :=
  ∀ t, t < calls → ∀ input, input < start.inputNum → ∀ output, output < start.outputNum →
    1 ≤ (scheduler.atCall arrivals start t).voq input output

instance (arrivals : Nat → List (Int × Int)) (start : PairArbiter) (calls : Nat) :
    Decidable (scheduler.Saturated arrivals start calls) :=
  inferInstanceAs (Decidable (∀ t, t < calls → ∀ input, input < start.inputNum →
    ∀ output, output < start.outputNum → 1 ≤ (scheduler.atCall arrivals start t).voq input output))

theorem atCall_succ (arrivals : Nat → List (Int × Int)) (start : PairArbiter) (t : Nat) :
    scheduler.atCall arrivals start (t + 1) =
      scheduler.arrive (arrivals (t + 1))
        (scheduler.arbitration (scheduler.atCall arrivals start t)) :=
  rfl

theorem Sized.arrive {arbiter : PairArbiter}
    (sized : Sized inputNum outputNum iterations voqSize arbiter)
    (requests : List (Int × Int)) :
    Sized inputNum outputNum iterations voqSize (scheduler.arrive requests arbiter) := by
  induction requests generalizing arbiter with
  | nil => exact sized
  | cons next rest ih =>
      apply ih
      change Sized _ _ _ _ (scheduler.request next.1 next.2 arbiter)
      rw [request_eq]
      exact sized.request next.1 next.2

theorem Sized.atCall {start : PairArbiter}
    (sized : Sized inputNum outputNum iterations voqSize start)
    (arrivals : Nat → List (Int × Int)) (t : Nat) :
    Sized inputNum outputNum iterations voqSize (scheduler.atCall arrivals start t) :=
  atSlot_invariant _ sized
    (fun t _ before => before.arrive scheduler (arrivals t))
    (fun _ before => before.arbitration scheduler) t

theorem sized_start {start : PairArbiter} (inRange : start.InRange) :
    Sized start.inputNum start.outputNum start.iterations start.voqSize start :=
  ⟨rfl, rfl, rfl, rfl, inRange⟩

theorem resultAt_eq {start : PairArbiter}
    (sized : Sized inputNum outputNum iterations voqSize start)
    (arrivals : Nat → List (Int × Int)) (t : Nat) :
    scheduler.resultAt arrivals start t =
      scheduler.scheduledPairs (scheduler.atCall arrivals start t) :=
  scheduler.schResult_eq (sized.atCall scheduler arrivals t).inRange

/-- Arrivals move no pointer and take no cell. -/
theorem arrive_frame (requests : List (Int × Int)) (arbiter : PairArbiter) :
    (scheduler.arrive requests arbiter).gPtr = arbiter.gPtr ∧
      (scheduler.arrive requests arbiter).aPtr = arbiter.aPtr ∧
      ∀ input output,
        arbiter.voq input output ≤ (scheduler.arrive requests arbiter).voq input output := by
  induction requests generalizing arbiter with
  | nil => exact ⟨rfl, rfl, fun _ _ => le_rfl⟩
  | cons next rest ih =>
      rcases request_sizes next.1 next.2 arbiter with ⟨_, _, _, _, gPtr, aPtr⟩
      rcases ih (VoqArbiter.request next.1 next.2 arbiter) with ⟨gPtrRest, aPtrRest, grows⟩
      have split : scheduler.arrive (next :: rest) arbiter =
          scheduler.arrive rest (VoqArbiter.request next.1 next.2 arbiter) := by
        simp [arrive, request_eq]
      rw [split]
      refine ⟨gPtrRest.trans gPtr, aPtrRest.trans aPtr, fun input output => ?_⟩
      have one := request_voq next.1 next.2 arbiter input output
      have others := grows input output
      omega

end PairScheduler

end SystemcTlm.Islip
