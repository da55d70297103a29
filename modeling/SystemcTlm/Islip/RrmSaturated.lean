import SystemcTlm.Islip.PairAccounting

/-!
# `rrm` under saturation

From a fresh `rrm` all grant pointers stand on input 0.  While every queue holds
a cell every output grants the input under its pointer, so the pointers move
together and one input after the other receives all grants.  It accepts the
output under its accept pointer, which is thus moved once in every turn of the
grant pointers.
-/

namespace SystemcTlm.Islip.Rrm

open SystemcTlm.Loop SystemcTlm.Matching SystemcTlm.Transition
open PairScheduler (rrm Sized)

/-- The pointers before call `t`: the grant pointers have made `t` steps, the
accept pointer of an input one step for each call that was its turn. -/
structure Synchronised (inputNum outputNum t : Nat) (arbiter : PairArbiter) : Prop where
  gPtr_eq : ∀ output, output < outputNum → arbiter.gPtr output = t % inputNum
  aPtr_eq : ∀ input, input < inputNum →
    arbiter.aPtr input = ((t + inputNum - 1 - input) / inputNum) % outputNum

/-- The turns input `i` has had before call `t`. -/
theorem turns_of_turn {n t : Nat} (positive : 0 < n) :
    (t + n - 1 - t % n) / n = t / n := by
  have split := Nat.div_add_mod t n
  have within := Nat.mod_lt t positive
  have sum : t + n - 1 - t % n = (n - 1) + n * (t / n) := by omega
  rw [sum, Nat.add_mul_div_left _ _ positive, Nat.div_eq_of_lt (by omega), Nat.zero_add]

/-- An input has one turn more after call `t` exactly if the call was its
turn. -/
theorem turns_succ {n t i : Nat} (bound : i < n) :
    (t + 1 + n - 1 - i) / n = (t + n - 1 - i) / n + if i = t % n then 1 else 0 := by
  have split := Nat.div_add_mod t n
  have within := Nat.mod_lt t (Nat.zero_lt_of_lt bound)
  have next : t + 1 + n - 1 - i = (t + n - 1 - i) + 1 := by omega
  rw [next, Nat.succ_div]
  congr 1
  refine if_congr ?_ rfl rfl
  have rest : t + n - 1 - i + 1 = (n + t % n - i) + n * (t / n) := by omega
  rw [rest, Nat.dvd_add_left (Nat.dvd_mul_right n (t / n))]
  constructor
  · rintro ⟨k, product⟩
    have one : k = 1 := by
      rcases Nat.lt_trichotomy k 1 with less | same | more
      · obtain rfl : k = 0 := by omega
        omega
      · exact same
      · have large : n * 2 ≤ n * k := Nat.mul_le_mul_left n more
        omega
    subst one
    omega
  · rintro rfl
    exact ⟨1, by omega⟩

section Call

variable {inputNum outputNum t : Nat} {voqSize : Int} {arbiter : PairArbiter}
  (sized : Sized inputNum outputNum 1 voqSize arbiter)
  (synchronised : Synchronised inputNum outputNum t arbiter)
  (full : ∀ input, input < inputNum → ∀ output, output < outputNum →
    1 ≤ arbiter.voq input output)
  (inputs : 1 ≤ inputNum) (outputs : 1 ≤ outputNum)

include sized synchronised full inputs

theorem grantOf_synchronised {output : Nat} (bound : output < outputNum) :
    VoqArbiter.grantOf discipline (VoqArbiter.resetArbiter arbiter) output =
      some (t % inputNum) := by
  have turn : t % inputNum < inputNum := Nat.mod_lt t inputs
  have free : output < (VoqArbiter.resetArbiter arbiter).outputNum ∧
      (VoqArbiter.resetArbiter arbiter).outputOccupied output = false :=
    ⟨sized.outputNum_eq.symm ▸ bound, rfl⟩
  have held : 0 < arbiter.voq (t % inputNum) output := full _ turn output bound
  rw [VoqArbiter.grantOf, if_pos free]
  change scan arbiter.inputNum (fun input => decide (arbiter.voq input output > 0))
    (arbiter.gPtr output) = _
  rw [synchronised.gPtr_eq output bound, sized.inputNum_eq]
  exact scan_of_hit turn (by simpa using held)

include outputs

/-- The input whose turn it is accepts, and no other. -/
theorem acceptOf_synchronised {input : Nat} (bound : input < inputNum) :
    VoqArbiter.acceptOf discipline (VoqArbiter.resetArbiter arbiter) input =
      if input = t % inputNum then some ((t / inputNum) % outputNum) else none := by
  have grants := fun output => @grantOf_synchronised inputNum outputNum t voqSize arbiter sized
    synchronised full inputs output
  split_ifs with turn
  · have free : input < (VoqArbiter.resetArbiter arbiter).inputNum ∧
        (VoqArbiter.resetArbiter arbiter).inputOccupied input = false :=
      ⟨sized.inputNum_eq.symm ▸ bound, rfl⟩
    have ptr : arbiter.aPtr input = (t / inputNum) % outputNum := by
      rw [synchronised.aPtr_eq input bound, turn, turns_of_turn inputs]
    have place : (t / inputNum) % outputNum < outputNum := Nat.mod_lt _ outputs
    rw [VoqArbiter.acceptOf, if_pos free]
    change scan arbiter.outputNum _ (arbiter.aPtr input) = _
    rw [ptr, sized.outputNum_eq]
    have unoccupied : (VoqArbiter.resetArbiter arbiter).outputOccupied
        ((t / inputNum) % outputNum) = false := rfl
    apply scan_of_hit place
    simp [grants _ place, turn, unoccupied]
  · rw [Option.eq_none_iff_forall_not_mem]
    intro output accepted
    have resetRange : (VoqArbiter.resetArbiter arbiter).InRange :=
      ⟨sized.inRange.gPtr_lt, sized.inRange.aPtr_lt⟩
    have granted := (VoqArbiter.roundOf rrm.lawful resetRange).accept_grant accepted
    have outputBound : output < outputNum := by
      rw [← sized.outputNum_eq]
      exact VoqArbiter.grantOf_lt_outputNum discipline (VoqArbiter.resetArbiter arbiter) granted
    exact turn (Option.some.inj (granted.symm.trans (grants output outputBound)))

omit synchronised full inputs outputs in
/-- A single iteration is the first round. -/
theorem arbitration_eq_round :
    rrm.arbitration arbiter =
      { VoqArbiter.applyRound discipline (VoqArbiter.resetArbiter arbiter) with iterCnt := 1 } := by
  have resetRange : (VoqArbiter.resetArbiter arbiter).InRange :=
    ⟨sized.inRange.gPtr_lt, sized.inRange.aPtr_lt⟩
  have one : arbiter.iterations.toNat = 1 := by
    rw [sized.iterations_eq]
    rfl
  have round : VoqArbiter.iteration discipline (VoqArbiter.resetArbiter arbiter) =
      VoqArbiter.applyRound discipline (VoqArbiter.resetArbiter arbiter) :=
    VoqArbiter.iteration_eq rrm.lawful resetRange rfl rfl
  rw [PairScheduler.arbitration_eq, one, ← round]
  rfl

theorem schResult_synchronised :
    (rrm.arbitration arbiter).schResult = [(t % inputNum, (t / inputNum) % outputNum)] := by
  have accepts := fun input => @acceptOf_synchronised inputNum outputNum t voqSize arbiter sized
    synchronised full inputs outputs input
  have turn : t % inputNum < inputNum := Nat.mod_lt t inputs
  have pairs : VoqArbiter.roundPairs discipline (VoqArbiter.resetArbiter arbiter) =
      [(t % inputNum, (t / inputNum) % outputNum)] := by
    change pairsOf _ (List.range arbiter.inputNum) = _
    rw [sized.inputNum_eq]
    refine pairsOf_range_single turn ?_ fun input bound other => ?_
    · rw [accepts _ turn, if_pos rfl]
    · rw [accepts input bound, if_neg other]
  rw [arbitration_eq_round sized]
  change [] ++ (VoqArbiter.roundPairs discipline (VoqArbiter.resetArbiter arbiter)).map _ = _
  rw [pairs]
  rfl

/-- The call moves every grant pointer, and the accept pointer of the input
whose turn it is. -/
theorem synchronised_succ : Synchronised inputNum outputNum (t + 1) (rrm.arbitration arbiter) := by
  rw [arbitration_eq_round sized]
  constructor
  · intro output bound
    change advance arbiter.inputNum (arbiter.gPtr output)
      (VoqArbiter.grantOf discipline (VoqArbiter.resetArbiter arbiter) output) = _
    rw [grantOf_synchronised sized synchronised full inputs bound, sized.inputNum_eq,
      advance_some, Nat.mod_add_mod]
  · intro input bound
    change advance arbiter.outputNum (arbiter.aPtr input)
      (VoqArbiter.acceptOf discipline (VoqArbiter.resetArbiter arbiter) input) = _
    rw [acceptOf_synchronised sized synchronised full inputs outputs bound, turns_succ bound,
      synchronised.aPtr_eq input bound, sized.outputNum_eq]
    split_ifs with turn
    · rw [advance_some, turn, turns_of_turn inputs, Nat.mod_add_mod]
    · rw [advance_none, Nat.add_zero]

end Call

theorem synchronised_new (inputNum outputNum : Nat) (iterations voqSize : Int) :
    Synchronised inputNum outputNum 0 (rrm.new inputNum outputNum iterations voqSize) where
  gPtr_eq _ _ := (Nat.zero_mod inputNum).symm
  aPtr_eq input bound := by
    rw [Nat.zero_add, Nat.div_eq_of_lt (by omega), Nat.zero_mod]
    rfl

theorem Synchronised.arrive {inputNum outputNum t : Nat} {arbiter : PairArbiter}
    (synchronised : Synchronised inputNum outputNum t arbiter) (requests : List (Int × Int)) :
    Synchronised inputNum outputNum t (rrm.arrive requests arbiter) := by
  rcases rrm.arrive_frame requests arbiter with ⟨gPtr, aPtr, _⟩
  exact ⟨gPtr ▸ synchronised.gPtr_eq, aPtr ▸ synchronised.aPtr_eq⟩

/-- The pointers stay synchronised as long as the queues stay filled. -/
theorem synchronised_atCall {inputNum outputNum : Nat} (voqSize : Int) (inputs : 1 ≤ inputNum)
    (outputs : 1 ≤ outputNum) (arrivals : Nat → List (Int × Int)) {calls t : Nat}
    (saturated : rrm.Saturated arrivals (rrm.new inputNum outputNum 1 voqSize) calls)
    (within : t < calls) :
    Synchronised inputNum outputNum t
      (rrm.atCall arrivals (rrm.new inputNum outputNum 1 voqSize) t) := by
  have sized := rrm.sized_new 1 voqSize inputs outputs
  induction t with
  | zero => exact (synchronised_new inputNum outputNum 1 voqSize).arrive (arrivals 0)
  | succ t ih =>
      have before := ih (by omega)
      rw [PairScheduler.atCall_succ]
      exact (synchronised_succ (sized.atCall rrm arrivals t) before (saturated t (by omega))
        inputs outputs).arrive (arrivals (t + 1))

/-- On a fresh `rrm` with one iteration, the `t`-th call of a saturated run
schedules one pair: the inputs take turns, and after every turn of theirs the
outputs move on by one. -/
theorem saturated_resultAt {inputNum outputNum : Nat} (voqSize : Int) (inputs : 1 ≤ inputNum)
    (outputs : 1 ≤ outputNum) (arrivals : Nat → List (Int × Int)) {calls : Nat}
    (saturated : rrm.Saturated arrivals (rrm.new inputNum outputNum 1 voqSize) calls) {t : Nat}
    (within : t < calls) :
    rrm.resultAt arrivals (rrm.new inputNum outputNum 1 voqSize) t =
      [(t % inputNum, (t / inputNum) % outputNum)] :=
  schResult_synchronised ((rrm.sized_new 1 voqSize inputs outputs).atCall rrm arrivals t)
    (synchronised_atCall voqSize inputs outputs arrivals saturated within)
    (saturated t within) inputs outputs

/-- Two ports, refilled before every call. -/
theorem saturated_resultAt_two_ports :
    rrm.resultAt (fun _ => [(0, 0), (0, 1), (1, 0), (1, 1)]) (rrm.new 2 2 1 4) 3 =
      [(1, 1)] :=
  @saturated_resultAt 2 2 4 (by decide) (by decide) _ 4 (by decide) 3 (by decide)

end SystemcTlm.Islip.Rrm
