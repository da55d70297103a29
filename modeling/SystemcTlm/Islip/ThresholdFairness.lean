import SystemcTlm.Islip.SlipPointers
import SystemcTlm.Islip.Threshold

/-!
# Fairness of `islip_threshold`

Cells of queues below the threshold move the pointers too.  In the first iteration
an output with a critical queue scans for critical queues only, and an input
accepts round robin whatever the queue holds.  So the rank argument of the iSLIP
classes applies to the critical queues.
-/

namespace SystemcTlm.Islip.IslipThreshold

open SystemcTlm.Loop SystemcTlm.Matching SystemcTlm.Transition
open PairScheduler (Sized)

/-- The queue has reached the threshold. -/
def isCritical (threshold queue : Int) : Bool :=
  decide (queue ≥ threshold)

theorem discipline_slip (threshold : Int) : (discipline threshold).Slip (isCritical threshold) where
  selectInput_eq := by
    intro n iter output start occupied queue input startBound bound free critical
    have same : (fun i => !occupied i && decide (queue i ≥ threshold)) =
        fun i => if occupied i then false else isCritical threshold (queue i) := by
      funext i
      cases occupied i <;> rfl
    have hit : (if occupied input then false else isCritical threshold (queue input)) = true := by
      simpa [free] using critical
    rcases Option.isSome_iff_exists.mp (scan_isSome_of_hit
      (fun i => if occupied i then false else isCritical threshold (queue i))
      startBound bound hit) with ⟨first, found⟩
    change selectInput threshold n iter output start occupied queue = _
    rw [selectInput, scanCritical, same, found]
  selectOutput_eq := rfl
  movesOnGrant_eq := rfl
  movesOnAccept_eq := rfl
  movesOnCommit_eq _ := rfl

/-! ## Runs with arrivals before every arbitration -/

/-- Requests made one after the other. -/
def arrive (requests : List (Int × Int)) (sch : IslipThreshold) : IslipThreshold :=
  requests.foldl (fun current next => request next.1 next.2 current) sch

/-- The state at the start of the `t`-th arbitration, `arrivals t` having been
requested before it. -/
def atCall (arrivals : Nat → List (Int × Int)) (start : IslipThreshold) (t : Nat) :
    IslipThreshold :=
  atSlot (fun t => arrive (arrivals t)) arbitration start t

/-- The result of the `t`-th arbitration. -/
def resultAt (arrivals : Nat → List (Int × Int)) (start : IslipThreshold) (t : Nat) :
    List (Nat × Nat) :=
  (atCall arrivals start t).arbitration.schResult

/-- The sizes and the threshold, and pointers on ports, whatever the threshold is. -/
structure Steady (inputNum outputNum : Nat) (iterations voqSize threshold : Int)
    (sch : IslipThreshold) : Prop where
  sized : Sized inputNum outputNum iterations voqSize sch.toVoqArbiter
  threshold_eq : sch.threshold = threshold

section Slots

variable {inputNum outputNum : Nat} {iterations voqSize threshold : Int}
  {sch start : IslipThreshold}

theorem steady_new (iterations voqSize threshold : Int) (inputs : 1 ≤ inputNum)
    (outputs : 1 ≤ outputNum) :
    Steady inputNum outputNum iterations voqSize threshold
      (new inputNum outputNum iterations voqSize threshold) where
  sized := ⟨rfl, rfl, rfl, rfl, fun _ _ => inputs, fun _ _ => outputs⟩
  threshold_eq := rfl

theorem Steady.request (steady : Steady inputNum outputNum iterations voqSize threshold sch)
    (input output : Int) :
    Steady inputNum outputNum iterations voqSize threshold (sch.request input output) :=
  ⟨steady.sized.request input output, steady.threshold_eq⟩

theorem Steady.arbitration (steady : Steady inputNum outputNum iterations voqSize threshold sch) :
    Steady inputNum outputNum iterations voqSize threshold sch.arbitration :=
  ⟨steady.sized.of_slotInv (slotInv steady.sized.inRange), steady.threshold_eq⟩

theorem steady_run (iterations voqSize threshold : Int) (inputs : 1 ≤ inputNum)
    (outputs : 1 ≤ outputNum) (calls : List PairCall) :
    Steady inputNum outputNum iterations voqSize threshold
      (run inputNum outputNum iterations voqSize threshold calls) := by
  apply runCalls_invariant _ (steady_new iterations voqSize threshold inputs outputs)
  intro next sch steady
  cases next with
  | request input output => exact steady.request input output
  | arbitration => exact steady.arbitration

theorem Steady.arrive (steady : Steady inputNum outputNum iterations voqSize threshold sch)
    (requests : List (Int × Int)) :
    Steady inputNum outputNum iterations voqSize threshold (arrive requests sch) := by
  induction requests generalizing sch with
  | nil => exact steady
  | cons next rest ih => exact ih (steady.request next.1 next.2)

theorem Steady.atCall (steady : Steady inputNum outputNum iterations voqSize threshold start)
    (arrivals : Nat → List (Int × Int)) (t : Nat) :
    Steady inputNum outputNum iterations voqSize threshold (atCall arrivals start t) :=
  atSlot_invariant _ steady (fun t _ before => before.arrive (arrivals t))
    (fun _ before => before.arbitration) t

/-- Requests move no pointer and take no cell. -/
theorem arrive_frame (requests : List (Int × Int)) (sch : IslipThreshold) :
    (arrive requests sch).gPtr = sch.gPtr ∧ (arrive requests sch).aPtr = sch.aPtr ∧
      ∀ input output, sch.voq input output ≤ (arrive requests sch).voq input output := by
  induction requests generalizing sch with
  | nil => exact ⟨rfl, rfl, fun _ _ => le_rfl⟩
  | cons next rest ih =>
      rcases PairScheduler.request_sizes next.1 next.2 sch.toVoqArbiter with
        ⟨-, -, -, -, gPtr, aPtr⟩
      rcases ih (sch.request next.1 next.2) with ⟨gPtrRest, aPtrRest, grows⟩
      refine ⟨gPtrRest.trans gPtr, aPtrRest.trans aPtr, fun input output => ?_⟩
      have one := PairScheduler.request_voq next.1 next.2 sch.toVoqArbiter input output
      have others := grows input output
      change (VoqArbiter.request next.1 next.2 sch.toVoqArbiter).voq input output ≤ _ at others
      change _ ≤ (IslipThreshold.arrive rest (sch.request next.1 next.2)).voq input output
      omega

/-- One arbitration and the requests after it are a slot of the rank argument. -/
theorem follows_atCall (arrivals : Nat → List (Int × Int))
    (steady : Steady inputNum outputNum iterations voqSize threshold start)
    (rounds : 1 ≤ iterations) (t : Nat) :
    VoqArbiter.Follows (discipline threshold) (isCritical threshold)
      (atCall arrivals start t).toVoqArbiter (atCall arrivals start (t + 1)).toVoqArbiter := by
  have before := steady.atCall arrivals t
  have after := steady.atCall arrivals (t + 1)
  have moved := VoqArbiter.arbitration_ptr (discipline_slip threshold)
    (discipline_lawful threshold) before.sized.inRange (before.sized.iterations_eq.symm ▸ rounds)
  obtain ⟨gPtr, aPtr, grows⟩ := arrive_frame (arrivals (t + 1))
    (atCall arrivals start t).arbitration
  have kept := (slotInv before.sized.inRange).voq_eq
  have served : (atCall arrivals start t).arbitration.toVoqArbiter =
      VoqArbiter.arbitration (VoqArbiter.doGrant (discipline threshold))
        (VoqArbiter.doAccept (discipline threshold))
        (VoqArbiter.updatePointers (discipline threshold))
        (atCall arrivals start t).toVoqArbiter := by
    rw [← before.threshold_eq]
    rfl
  rw [← served] at moved
  rw [scheduledPairs, before.threshold_eq] at kept
  exact {
    inputNum_eq := after.sized.inputNum_eq.trans before.sized.inputNum_eq.symm
    outputNum_eq := after.sized.outputNum_eq.trans before.sized.outputNum_eq.symm
    inRange := after.sized.inRange
    gPtr_eq := fun output => (congrFun gPtr output).trans (moved.1 output)
    aPtr_eq := fun input => (congrFun aPtr input).trans (moved.2 input)
    keeps := by
      intro input output unserved critical
      have held := grows input output
      rw [kept, if_neg unserved] at held
      exact decide_eq_true ((of_decide_eq_true critical).trans held) }

end Slots

/-- A critical queue never starves, for any threshold: a pair whose queue has reached
the threshold at the start of `inputNum * inputNum * outputNum` consecutive
arbitrations is scheduled by one of them, whatever is requested in between. -/
theorem no_starvation_critical {inputNum outputNum : Nat} {iterations : Int}
    (voqSize threshold : Int) (inputs : 1 ≤ inputNum) (outputs : 1 ≤ outputNum)
    (rounds : 1 ≤ iterations) (calls : List PairCall) (arrivals : Nat → List (Int × Int))
    {input output : Nat} (inputBound : input < inputNum) (outputBound : output < outputNum)
    (critical : ∀ t, t < inputNum * inputNum * outputNum →
      threshold ≤ (atCall arrivals (run inputNum outputNum iterations voqSize threshold calls)
        t).voq input output) :
    ∃ t, t < inputNum * inputNum * outputNum ∧
      (input, output) ∈ resultAt arrivals
        (run inputNum outputNum iterations voqSize threshold calls) t := by
  have steady := steady_run iterations voqSize threshold inputs outputs calls
  have during := steady.atCall arrivals
  have first := (during 0).sized
  have served := VoqArbiter.exists_scheduled (discipline_slip threshold)
    (discipline_lawful threshold)
    (fun t => (atCall arrivals
      (run inputNum outputNum iterations voqSize threshold calls) t).toVoqArbiter)
    (fun t => (during t).sized.inRange) (fun t => (during t).sized.iterations_eq.symm ▸ rounds)
    (follows_atCall arrivals steady rounds) (first.inputNum_eq.symm ▸ inputBound)
    (first.outputNum_eq.symm ▸ outputBound)
  rw [first.inputNum_eq, first.outputNum_eq] at served
  rcases served fun t within => decide_eq_true (critical t within) with ⟨t, within, member⟩
  refine ⟨t, within, ?_⟩
  rw [resultAt, schResult_eq (during t).sized.inRange, scheduledPairs, (during t).threshold_eq]
  exact member

/-- Two inputs compete for one output, the first always with the longer queue. -/
theorem no_starvation_critical_two_inputs :
    ∃ t, t < 2 * 2 * 1 ∧ (1, 0) ∈ resultAt (fun _ => [(0, 0), (0, 0), (1, 0)])
      (run 2 1 1 10 2 [.request 1 0]) t :=
  no_starvation_critical 10 2 (by decide) (by decide) (by decide) _ _ (by decide) (by decide)
    (by decide)

end SystemcTlm.Islip.IslipThreshold
