import SystemcTlm.Islip.IslipSp
import SystemcTlm.Islip.SlipPointers

/-!
# Runs of `islip_sp`

All levels share the pointers, so cells of lower levels move them too.  In the
first iteration an output that is wanted at level 0 scans for level 0 only, and
an input accepts round robin whatever the level.  This is all the rank argument
of the iSLIP classes asks for, with the queues taken at level 0.
-/

namespace SystemcTlm.Islip.IslipSp

open SystemcTlm.Loop SystemcTlm.Matching SystemcTlm.Transition

/-- The queue holds a cell of the highest level. -/
def wantsTop (queue : Nat → Int) : Bool :=
  decide (0 < queue 0)

theorem discipline_slip {levels : Nat} (positive : 0 < levels) :
    (discipline levels).Slip wantsTop where
  selectInput_eq := by
    intro n iter output start occupied queue input startBound bound free wanted
    rcases Nat.exists_eq_succ_of_ne_zero (Nat.ne_of_gt positive) with ⟨below, rfl⟩
    have served := scan_isSome_of_hit
      (fun i => if occupied i then false else decide (queue i 0 > 0)) startBound bound
      (by simpa [free] using of_decide_eq_true wanted)
    rcases Option.isSome_iff_exists.mp served with ⟨first, found⟩
    change selectInput (below + 1) n iter output start occupied queue = _
    rw [selectInput, List.range_succ_eq_map, List.findSome?_cons, found]
    exact found.symm
  selectOutput_eq := rfl
  movesOnGrant_eq := rfl
  movesOnAccept_eq := rfl
  movesOnCommit_eq _ := rfl

/-! ## Runs with arrivals before every arbitration -/

/-- Requests made one after the other. -/
def arrive (requests : List (Int × Int × Nat)) (sp : IslipSp) : IslipSp :=
  requests.foldl (fun current next => call (.request next.1 next.2.1 next.2.2) current) sp

/-- The state at the start of the `t`-th arbitration, `arrivals t` having been
requested before it. -/
def atCall (arrivals : Nat → List (Int × Int × Nat)) (start : IslipSp) (t : Nat) : IslipSp :=
  atSlot (fun t => arrive (arrivals t)) arbitration start t

/-- The result of the `t`-th arbitration. -/
def resultAt (arrivals : Nat → List (Int × Int × Nat)) (start : IslipSp) (t : Nat) :
    List (Nat × Nat × Int) :=
  (atCall arrivals start t).arbitration.schResult

section Slots

variable {inputNum outputNum priorityLevels : Nat} {iterations voqSize : Int} {sp start : IslipSp}

theorem RunInv.arrive (inv : RunInv inputNum outputNum iterations voqSize priorityLevels sp)
    (requests : List (Int × Int × Nat)) :
    RunInv inputNum outputNum iterations voqSize priorityLevels (arrive requests sp) := by
  induction requests generalizing sp with
  | nil => exact inv
  | cons next rest ih => exact ih (inv.call (.request next.1 next.2.1 next.2.2))

theorem RunInv.atCall (inv : RunInv inputNum outputNum iterations voqSize priorityLevels start)
    (arrivals : Nat → List (Int × Int × Nat)) (t : Nat) :
    RunInv inputNum outputNum iterations voqSize priorityLevels (atCall arrivals start t) :=
  atSlot_invariant _ inv (fun t _ before => before.arrive (arrivals t))
    (fun _ before => before.arbitration) t

/-- A request moves no pointer and takes no cell. -/
theorem request_frame (input output : Int) (priority : Nat) (sp : IslipSp) :
    (call (.request input output priority) sp).gPtr = sp.gPtr ∧
      (call (.request input output priority) sp).aPtr = sp.aPtr ∧
      ∀ i j p, sp.voq i j p ≤ (call (.request input output priority) sp).voq i j p := by
  rcases Option.isSome_iff_exists.mp (request_isSome input output priority sp) with ⟨after, made⟩
  rw [call, made, Option.getD_some]
  obtain rfl | ⟨i, _, j, _, p, _, -, -, -, -, rfl⟩ := request_cases made
  · exact ⟨rfl, rfl, fun _ _ _ => le_rfl⟩
  · refine ⟨rfl, rfl, fun i' j' p' => ?_⟩
    simp only [update₂_apply]
    split_ifs with here
    · rcases here with ⟨rfl, rfl⟩
      rw [Function.update_apply]
      split_ifs with same
      · rw [same]
        omega
      · exact le_rfl
    · exact le_rfl

theorem arrive_frame (requests : List (Int × Int × Nat)) (sp : IslipSp) :
    (arrive requests sp).gPtr = sp.gPtr ∧ (arrive requests sp).aPtr = sp.aPtr ∧
      ∀ i j p, sp.voq i j p ≤ (arrive requests sp).voq i j p := by
  induction requests generalizing sp with
  | nil => exact ⟨rfl, rfl, fun _ _ _ => le_rfl⟩
  | cons next rest ih =>
      rcases request_frame next.1 next.2.1 next.2.2 sp with ⟨gPtr, aPtr, grows⟩
      rcases ih (call (.request next.1 next.2.1 next.2.2) sp) with ⟨gPtrRest, aPtrRest, growsRest⟩
      exact ⟨gPtrRest.trans gPtr, aPtrRest.trans aPtr,
        fun i j p => (grows i j p).trans (growsRest i j p)⟩

/-- One arbitration and the requests after it are a slot of the rank
argument. -/
theorem follows_atCall (arrivals : Nat → List (Int × Int × Nat))
    (inv : RunInv inputNum outputNum iterations voqSize priorityLevels start)
    (positive : 0 < priorityLevels) (rounds : 1 ≤ iterations) (t : Nat) :
    VoqArbiter.Follows (discipline priorityLevels) wantsTop (atCall arrivals start t).toVoqArbiter
      (atCall arrivals start (t + 1)).toVoqArbiter := by
  have before := inv.atCall arrivals t
  have after := inv.atCall arrivals (t + 1)
  have moved := VoqArbiter.arbitration_ptr (discipline_slip positive)
    (discipline_lawful priorityLevels) before.inRange (before.iterations_eq.symm ▸ rounds)
  obtain ⟨gPtr, aPtr, grows⟩ := arrive_frame (arrivals (t + 1))
    (atCall arrivals start t).arbitration
  have kept := (slotInv before.inRange).voq_eq
  rw [scheduledPairs, before.priorityLevels_eq] at kept
  have served : (atCall arrivals start t).arbitration.toVoqArbiter =
      VoqArbiter.arbitration (VoqArbiter.doGrant (discipline priorityLevels))
        (VoqArbiter.doAccept (discipline priorityLevels))
        (VoqArbiter.updatePointers (discipline priorityLevels))
        (atCall arrivals start t).toVoqArbiter := by
    rw [← before.priorityLevels_eq]
    rfl
  rw [← served] at moved
  exact {
    inputNum_eq := after.inputNum_eq.trans before.inputNum_eq.symm
    outputNum_eq := after.outputNum_eq.trans before.outputNum_eq.symm
    inRange := after.inRange
    gPtr_eq := fun output => (congrFun gPtr output).trans (moved.1 output)
    aPtr_eq := fun input => (congrFun aPtr input).trans (moved.2 input)
    keeps := by
      intro input output unserved waits
      have held := grows input output 0
      rw [kept, if_neg unserved] at held
      exact decide_eq_true (lt_of_lt_of_le (of_decide_eq_true waits) held) }

end Slots

/-- The highest level never starves: a pair with a cell of level 0 at the start
of `inputNum * inputNum * outputNum` consecutive arbitrations has one sent by
one of them, whatever is requested in between at any level. -/
theorem no_starvation_top {inputNum outputNum : Nat} {iterations : Int} (voqSize : Int)
    (priorityLevels : Nat) (inputs : 1 ≤ inputNum) (outputs : 1 ≤ outputNum)
    (rounds : 1 ≤ iterations) (calls : List Call) (arrivals : Nat → List (Int × Int × Nat))
    {input output : Nat} (inputBound : input < inputNum) (outputBound : output < outputNum)
    (waits : ∀ t, t < inputNum * inputNum * outputNum →
      1 ≤ (atCall arrivals (run inputNum outputNum iterations voqSize priorityLevels calls)
        t).voq input output 0) :
    ∃ t, t < inputNum * inputNum * outputNum ∧
      (input, output, 0) ∈ resultAt arrivals
        (run inputNum outputNum iterations voqSize priorityLevels calls) t := by
  have inv := runInv_run iterations voqSize priorityLevels inputs outputs calls
  have during := inv.atCall arrivals
  have first := during 0
  -- a cell of level 0 is held only where there is a level 0
  have positive : 0 < priorityLevels := by
    by_contra never
    have cell := waits 0 (Nat.mul_pos (Nat.mul_pos inputs inputs) outputs)
    have empty := first.voq_beyond input output 0 (by omega)
    omega
  have served := VoqArbiter.exists_scheduled (discipline_slip positive)
    (discipline_lawful priorityLevels)
    (fun t => (atCall arrivals
      (run inputNum outputNum iterations voqSize priorityLevels calls) t).toVoqArbiter)
    (fun t => (during t).inRange) (fun t => (during t).iterations_eq.symm ▸ rounds)
    (follows_atCall arrivals inv positive rounds) (first.inputNum_eq.symm ▸ inputBound)
    (first.outputNum_eq.symm ▸ outputBound)
  rw [first.inputNum_eq, first.outputNum_eq] at served
  rcases served fun t within => decide_eq_true (waits t within) with ⟨t, within, member⟩
  refine ⟨t, within, (mem_schResult_iff (during t).inRange).mpr ⟨?_, 0, rfl, ?_⟩⟩
  · rw [scheduledPairs, (during t).priorityLevels_eq]
    exact member
  · rw [firstLevel_eq_some_iff, (during t).priorityLevels_eq]
    exact ⟨positive, waits t within, fun q less => absurd less q.not_lt_zero⟩

/-- Two inputs with cells of both levels, refilled before every arbitration. -/
theorem no_starvation_top_two_inputs :
    ∃ t, t < 2 * 2 * 1 ∧ (1, 0, 0) ∈ resultAt (fun _ => [(0, 0, 0), (1, 0, 0), (1, 0, 1)])
      (run 2 1 1 4 2 [.request 0 0 1, .arbitration]) t :=
  no_starvation_top 4 2 (by decide) (by decide) (by decide) _ _ (by decide) (by decide)
    (by decide)

end SystemcTlm.Islip.IslipSp
