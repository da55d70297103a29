import SystemcTlm.Islip.PairAccounting
import SystemcTlm.Islip.SlipPointers
import SystemcTlm.Ring.Tokens
import Mathlib.Algebra.BigOperators.Group.Finset.Piecewise

/-!
# Runs of `islip_basic`

A run alternates requests with arbitrations.  Over every run no waiting pair
starves, because its rank falls until it is scheduled.  Under saturation the
grant pointers are tokens on the ring of inputs: each output grants the input
its pointer stands on, one of the outputs that grant an input is accepted, and
only its pointer moves on.
-/

namespace SystemcTlm.Islip.IslipBasic

open SystemcTlm.Loop SystemcTlm.Matching SystemcTlm.Transition SystemcTlm.Ring
open PairScheduler (islipBasic Sized)

variable {inputNum outputNum : Nat} {iterations voqSize : Int} {start : PairArbiter}
  {arrivals : Nat → List (Int × Int)}

/-- One arbitration and the requests after it are a slot of the rank argument. -/
theorem follows_atCall (arrivals : Nat → List (Int × Int))
    (sized : Sized inputNum outputNum iterations voqSize start)
    (rounds : 1 ≤ iterations) (t : Nat) :
    VoqArbiter.Follows discipline (0 < ·) (islipBasic.atCall arrivals start t)
      (islipBasic.atCall arrivals start (t + 1)) := by
  have before := sized.atCall islipBasic arrivals t
  have after := sized.atCall islipBasic arrivals (t + 1)
  have moved := VoqArbiter.arbitration_ptr islipBasic_slip islipBasic.lawful before.inRange
    (by rw [before.iterations_eq]; exact rounds)
  obtain ⟨gPtr, aPtr, grows⟩ := islipBasic.arrive_frame (arrivals (t + 1))
    (islipBasic.arbitration (islipBasic.atCall arrivals start t))
  exact {
    inputNum_eq := after.inputNum_eq.trans before.inputNum_eq.symm
    outputNum_eq := after.outputNum_eq.trans before.outputNum_eq.symm
    inRange := after.inRange
    gPtr_eq := fun output => (congrFun gPtr output).trans (moved.1 output)
    aPtr_eq := fun input => (congrFun aPtr input).trans (moved.2 input)
    keeps := by
      intro input output unserved waits
      have kept := (islipBasic.slotInv before.inRange).voq_eq input output
      have unscheduled :
          (input, output) ∉ islipBasic.scheduledPairs (islipBasic.atCall arrivals start t) :=
        unserved
      rw [if_neg unscheduled] at kept
      have held := grows input output
      simp only [decide_eq_true_eq] at waits ⊢
      rw [kept] at held
      exact lt_of_lt_of_le waits held }

/-! ## Starvation -/

/-- No queue starves: a pair whose queue is not empty at the start of any of
`inputNum * inputNum * outputNum` arbitrations is scheduled by one of them,
whatever is requested in between. -/
theorem no_starvation (voqSize : Int) (inputs : 1 ≤ inputNum) (outputs : 1 ≤ outputNum)
    (rounds : 1 ≤ iterations) (calls : List PairCall) (arrivals : Nat → List (Int × Int))
    {input output : Nat} (inputBound : input < inputNum) (outputBound : output < outputNum)
    (waits : ∀ t, t < inputNum * inputNum * outputNum →
      1 ≤ (islipBasic.atCall arrivals
        (islipBasic.run inputNum outputNum iterations voqSize calls) t).voq input output) :
    ∃ t, t < inputNum * inputNum * outputNum ∧
      (input, output) ∈ islipBasic.resultAt arrivals
        (islipBasic.run inputNum outputNum iterations voqSize calls) t := by
  have sized := islipBasic.sized_run iterations voqSize inputs outputs calls
  have during := fun t => sized.atCall islipBasic arrivals t
  have first := during 0
  have served := VoqArbiter.exists_scheduled islipBasic_slip islipBasic.lawful
    (islipBasic.atCall arrivals (islipBasic.run inputNum outputNum iterations voqSize calls))
    (fun t => (during t).inRange) (fun t => (during t).iterations_eq.symm ▸ rounds)
    (follows_atCall arrivals sized rounds) (first.inputNum_eq.symm ▸ inputBound)
    (first.outputNum_eq.symm ▸ outputBound)
  rw [first.inputNum_eq, first.outputNum_eq] at served
  rcases served fun t within => decide_eq_true (waits t within) with ⟨t, within, member⟩
  refine ⟨t, within, ?_⟩
  rw [islipBasic.resultAt_eq sized]
  exact member

/-- Two inputs refilled before every arbitration: the second is served within
the bound. -/
theorem no_starvation_two_inputs :
    ∃ t, t < 2 * 2 * 1 ∧ (1, 0) ∈ islipBasic.resultAt (fun _ => [(0, 0), (1, 0)])
      (islipBasic.run 2 1 1 4 [.request 0 0, .arbitration]) t :=
  no_starvation 4 (by decide) (by decide) (by decide) _ _ (by decide) (by decide) (by decide)

/-! ## Desynchronisation -/

section Saturation

variable {calls : Nat} (inRange : start.InRange) (rounds : 1 ≤ start.iterations)
  (saturated : islipBasic.Saturated arrivals start calls)

include inRange in
theorem gPtr_atCall_lt (t : Nat) {output : Nat} (outputBound : output < start.outputNum) :
    (islipBasic.atCall arrivals start t).gPtr output < start.inputNum := by
  have sized := (PairScheduler.sized_start inRange).atCall islipBasic arrivals t
  rw [← sized.inputNum_eq]
  exact sized.inRange.gPtr_lt output (by rwa [sized.outputNum_eq])

include inRange saturated in
/-- A saturated output grants the input its pointer stands on. -/
theorem grantOf_saturated {t output : Nat} (within : t < calls)
    (outputBound : output < start.outputNum) :
    VoqArbiter.grantOf discipline
        (VoqArbiter.resetArbiter (islipBasic.atCall arrivals start t)) output =
      some ((islipBasic.atCall arrivals start t).gPtr output) := by
  have sized := (PairScheduler.sized_start inRange).atCall islipBasic arrivals t
  have ptr : (islipBasic.atCall arrivals start t).gPtr output <
      (islipBasic.atCall arrivals start t).inputNum :=
    sized.inRange.gPtr_lt output (by rwa [sized.outputNum_eq])
  have held : (0 : Int) < (islipBasic.atCall arrivals start t).voq
      ((islipBasic.atCall arrivals start t).gPtr output) output :=
    saturated t within _ (gPtr_atCall_lt inRange t outputBound) output outputBound
  rw [VoqArbiter.grantOf_first islipBasic_slip sized.inRange ptr (by rwa [sized.outputNum_eq])
    (by simpa using held)]
  exact scan_of_hit ptr (by simpa using held)

include inRange in
theorem mem_resultAt_of_accept (rounds : 1 ≤ start.iterations) {t input output : Nat}
    (accepts : VoqArbiter.acceptOf discipline
      (VoqArbiter.resetArbiter (islipBasic.atCall arrivals start t)) input = some output) :
    (input, output) ∈ islipBasic.resultAt arrivals start t := by
  have sized := (PairScheduler.sized_start inRange).atCall islipBasic arrivals t
  have positive : 1 ≤ (islipBasic.atCall arrivals start t).iterations.toNat := by
    rw [sized.iterations_eq]
    omega
  rw [islipBasic.resultAt_eq (PairScheduler.sized_start inRange)]
  exact VoqArbiter.mem_slotPairs_of_first positive accepts

/-- The grant pointers of a saturated run as tokens on the ring of inputs. -/
def tokenRun : TokenRun start.inputNum (Fin start.outputNum) calls where
  pos t output := (islipBasic.atCall arrivals start t).gPtr output
  moves t output := VoqArbiter.acceptOf discipline
    (VoqArbiter.resetArbiter (islipBasic.atCall arrivals start t))
      ((islipBasic.atCall arrivals start t).gPtr output) = some output.val
  pos_lt t output _ := gPtr_atCall_lt inRange t output.isLt
  pos_of_moves t output within accepts := by
    have sized := (PairScheduler.sized_start inRange).atCall islipBasic arrivals t
    have follows := follows_atCall arrivals (PairScheduler.sized_start inRange) rounds t
    have won : VoqArbiter.winnerOf discipline
        (VoqArbiter.resetArbiter (islipBasic.atCall arrivals start t)) output =
          some ((islipBasic.atCall arrivals start t).gPtr output) :=
      (VoqArbiter.winnerOf_eq_some_iff islipBasic.lawful
        (VoqArbiter.resetArbiter_inRange sized.inRange)).mpr accepts
    rw [follows.gPtr_eq, won, advance_some, sized.inputNum_eq]
  pos_of_stays t output within rejected := by
    have sized := (PairScheduler.sized_start inRange).atCall islipBasic arrivals t
    have resetRange := VoqArbiter.resetArbiter_inRange sized.inRange
    have follows := follows_atCall arrivals (PairScheduler.sized_start inRange) rounds t
    have unmatched : VoqArbiter.winnerOf discipline
        (VoqArbiter.resetArbiter (islipBasic.atCall arrivals start t)) output = none := by
      rw [Option.eq_none_iff_forall_not_mem]
      intro winner won
      have accepted := (VoqArbiter.winnerOf_eq_some_iff islipBasic.lawful resetRange).mp won
      have granted := (VoqArbiter.roundOf islipBasic.lawful resetRange).accept_grant accepted
      have same := granted.symm.trans (grantOf_saturated inRange saturated within output.isLt)
      rw [Option.some.inj same] at accepted
      exact rejected accepted
    rw [follows.gPtr_eq, unmatched, advance_none]
  mover_unique t output output' _ accepts accepts' same := by
    rw [same] at accepts
    exact Fin.ext (Option.some.inj (accepts.symm.trans accepts'))
  mover_exists t output within := by
    have sized := (PairScheduler.sized_start inRange).atCall islipBasic arrivals t
    have resetRange := VoqArbiter.resetArbiter_inRange sized.inRange
    obtain ⟨chosen, accepts⟩ := Option.isSome_iff_exists.mp
      ((VoqArbiter.roundOf islipBasic.lawful resetRange).accept_isSome
        (grantOf_saturated inRange saturated within output.isLt))
    have granted := (VoqArbiter.roundOf islipBasic.lawful resetRange).accept_grant accepts
    have chosenBound : chosen < start.outputNum := by
      rw [← sized.outputNum_eq]
      exact VoqArbiter.grantOf_lt_outputNum discipline
        (VoqArbiter.resetArbiter (islipBasic.atCall arrivals start t)) granted
    have same := granted.symm.trans (grantOf_saturated inRange saturated within chosenBound)
    exact ⟨⟨chosen, chosenBound⟩, (Option.some.inj same).symm,
      by rw [← Option.some.inj same]; exact accepts⟩

include inRange rounds saturated

theorem scheduled_of_moves {t : Nat} {output : Fin start.outputNum}
    (moves : (tokenRun inRange rounds saturated).moves t output) :
    ((tokenRun inRange rounds saturated).pos t output, output.val) ∈
      islipBasic.resultAt arrivals start t := by
  change VoqArbiter.acceptOf discipline
    (VoqArbiter.resetArbiter (islipBasic.atCall arrivals start t))
    ((islipBasic.atCall arrivals start t).gPtr output) = some output.val at moves
  exact mem_resultAt_of_accept inRange rounds moves

/-- Outputs on different inputs are all accepted, and inputs all stood upon
all accept. -/
theorem min_le_length_resultAt {t : Nat} (within : t < calls) (late : start.inputNum ≤ t) :
    min start.inputNum start.outputNum ≤ (islipBasic.resultAt arrivals start t).length := by
  rcases (tokenRun inRange rounds saturated).injective_or_covered within.le (by omega) with
    injective | covered
  · have served : List.range start.outputNum ⊆
        (islipBasic.resultAt arrivals start t).map Prod.snd := by
      intro output member
      have moves := (tokenRun inRange rounds saturated).moves_of_injective within injective
        ⟨output, List.mem_range.mp member⟩
      exact List.mem_map_of_mem (f := Prod.snd)
        (scheduled_of_moves inRange rounds saturated moves)
    have counted := (List.subperm_of_subset List.nodup_range served).length_le
    rw [List.length_range, List.length_map] at counted
    exact (min_le_right _ _).trans counted
  · have served : List.range start.inputNum ⊆
        (islipBasic.resultAt arrivals start t).map Prod.fst := by
      intro input member
      rcases covered input (List.mem_range.mp member) with ⟨output, stands⟩
      obtain ⟨chosen, same, moves⟩ :=
        (tokenRun inRange rounds saturated).mover_exists t output within
      have scheduled := List.mem_map_of_mem (f := Prod.fst)
        (scheduled_of_moves inRange rounds saturated moves)
      rwa [same, stands] at scheduled
    have counted := (List.subperm_of_subset List.nodup_range served).length_le
    rw [List.length_range, List.length_map] at counted
    exact (min_le_left _ _).trans counted

theorem length_resultAt {t : Nat} (within : t < calls) (late : start.inputNum ≤ t) :
    (islipBasic.resultAt arrivals start t).length = min start.inputNum start.outputNum := by
  have sized := (PairScheduler.sized_start inRange).atCall islipBasic arrivals t
  refine Nat.le_antisymm ?_ (min_le_length_resultAt inRange rounds saturated within late)
  rw [islipBasic.resultAt_eq (PairScheduler.sized_start inRange), ← sized.inputNum_eq,
    ← sized.outputNum_eq]
  exact VoqArbiter.slotPairs_length_le islipBasic.lawful sized.inRange _

/-- On a square switch the pointers end up on different inputs. -/
theorem injective_of_square (square : start.inputNum = start.outputNum) {t : Nat}
    (within : t < calls) (late : start.inputNum ≤ t) :
    Function.Injective ((tokenRun inRange rounds saturated).pos t) := by
  rcases (tokenRun inRange rounds saturated).injective_or_covered within.le (by omega) with
    injective | covered
  · exact injective
  · exact (tokenRun inRange rounds saturated).injective_of_covered within.le
      ((Fintype.card_fin _).trans square.symm) covered

/-- Once the pointers stand on different inputs, exactly the inputs stood upon
are scheduled. -/
theorem count_resultAt {t : Nat} (within : t < calls)
    (injective : Function.Injective ((tokenRun inRange rounds saturated).pos t))
    (input : Nat) (output : Fin start.outputNum) :
    (islipBasic.resultAt arrivals start t).count (input, output.val) =
      if (tokenRun inRange rounds saturated).pos t output = input then 1 else 0 := by
  have sized := (PairScheduler.sized_start inRange).atCall islipBasic arrivals t
  have scheduled := scheduled_of_moves inRange rounds saturated
    ((tokenRun inRange rounds saturated).moves_of_injective within injective output)
  have inv := islipBasic.slotInv sized.inRange
  rw [islipBasic.resultAt_eq (PairScheduler.sized_start inRange)] at scheduled ⊢
  rw [inv.isMatching.nodup.count]
  have unique : (input, output.val) ∈
      islipBasic.scheduledPairs (islipBasic.atCall arrivals start t) ↔
      (tokenRun inRange rounds saturated).pos t output = input := by
    constructor
    · intro member
      have same := List.inj_on_of_nodup_map inv.isMatching.outputs_nodup scheduled member rfl
      exact congrArg Prod.fst same
    · rintro rfl
      exact scheduled
  simp only [unique]

end Saturation

/-- Under saturation the pointers desynchronise: from any pointers, every call
from the `inputNum + 1`-th on schedules as many pairs as the smaller side has
ports, and on a square switch any `inputNum` consecutive calls from then on
schedule every pair exactly once. -/
theorem desynchronised {start : PairArbiter} (inRange : start.InRange)
    (rounds : 1 ≤ start.iterations) (arrivals : Nat → List (Int × Int)) {calls : Nat}
    (saturated : islipBasic.Saturated arrivals start calls) :
    (∀ t, start.inputNum ≤ t → t < calls →
      (islipBasic.resultAt arrivals start t).length = min start.inputNum start.outputNum) ∧
    (start.inputNum = start.outputNum →
      ∀ t, start.inputNum ≤ t → t + start.inputNum ≤ calls →
        ∀ input output, input < start.inputNum → output < start.outputNum →
          ∑ k ∈ Finset.range start.inputNum,
            (islipBasic.resultAt arrivals start (t + k)).count (input, output) = 1) := by
  refine ⟨fun t late within => length_resultAt inRange rounds saturated within late, ?_⟩
  intro square t late within input output inputBound outputBound
  have injective : ∀ s, t ≤ s → s < calls →
      Function.Injective ((tokenRun inRange rounds saturated).pos s) := fun s low high =>
    injective_of_square inRange rounds saturated square high (by omega)
  have ptr : (tokenRun inRange rounds saturated).pos t ⟨output, outputBound⟩ < start.inputNum :=
    (tokenRun inRange rounds saturated).pos_lt t ⟨output, outputBound⟩ (by omega)
  have turn : ∀ k, k < start.inputNum →
      (islipBasic.resultAt arrivals start (t + k)).count (input, output) =
        if k = ringDist start.inputNum
            ((tokenRun inRange rounds saturated).pos t ⟨output, outputBound⟩) input
        then 1 else 0 := by
    intro k kBound
    have rotated := (tokenRun inRange rounds saturated).pos_add (t := t) (d := k) (by omega)
      (fun s low high => injective s low (by omega)) ⟨output, outputBound⟩
    have counted := count_resultAt inRange rounds saturated (t := t + k) (by omega)
      (injective (t + k) (by omega) (by omega)) input ⟨output, outputBound⟩
    rw [counted, rotated]
    refine if_congr ?_ rfl rfl
    constructor
    · rintro rfl
      rw [ringDist_add_mod ptr kBound]
    · rintro rfl
      exact add_ringDist_mod ptr inputBound
  rw [Finset.sum_congr rfl fun k member => turn k (Finset.mem_range.mp member)]
  have once := ringDist_lt ptr inputBound
  rw [Finset.sum_ite_eq' (Finset.range start.inputNum), if_pos (Finset.mem_range.mpr once)]

/-- Two inputs and two outputs, refilled before every arbitration. -/
theorem desynchronised_two_ports :
    (∀ t, 2 ≤ t → t < 4 →
      (islipBasic.resultAt (fun _ => [(0, 0), (0, 1), (1, 0), (1, 1)]) (new 2 2 1 4) t).length =
        min 2 2) ∧
    (2 = 2 → ∀ t, 2 ≤ t → t + 2 ≤ 4 → ∀ input output, input < 2 → output < 2 →
      ∑ k ∈ Finset.range 2,
        (islipBasic.resultAt (fun _ => [(0, 0), (0, 1), (1, 0), (1, 1)]) (new 2 2 1 4)
          (t + k)).count (input, output) = 1) :=
  @desynchronised (new 2 2 1 4) ⟨by decide, by decide⟩ (by decide)
    (fun _ => [(0, 0), (0, 1), (1, 0), (1, 1)]) 4 (by decide)

end SystemcTlm.Islip.IslipBasic
