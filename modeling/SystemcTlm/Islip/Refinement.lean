import SystemcTlm.Islip.PrioritySchedule
import SystemcTlm.Islip.RoundRobin

/-!
# `islip` refines `islip_basic` and `rrm`

With one priority and speedup 1 the general scheduler is `islip_basic` in iSLIP
mode and `rrm` in RRM mode.  `Related` is the simulation relation: a quota
counter is an occupancy flag, the shadow queue of a pair is its queue.  Both
sides of an iteration are the round-robin round over the same requests.
-/

namespace SystemcTlm.Islip

open SystemcTlm.Loop SystemcTlm.Matching

/-! ## The rounds of the pair arbiters -/

namespace VoqArbiter

/-- Free input, free output, a cell. -/
def asked (arbiter : PairArbiter) (input output : Nat) : Bool :=
  !arbiter.inputOccupied input && !arbiter.outputOccupied output &&
    decide (0 < arbiter.voq input output)

variable {arbiter : PairArbiter} {movesOnGrant movesOnAccept : Bool} {movesOnCommit : Nat → Bool}

theorem grantOf_roundRobin (inRange : arbiter.InRange) :
    grantOf (roundRobin movesOnGrant movesOnAccept movesOnCommit) arbiter =
      scanGrant arbiter.inputNum arbiter.outputNum arbiter.asked arbiter.gPtr := by
  funext output
  unfold grantOf scanGrant
  by_cases bound : output < arbiter.outputNum
  · have ptr := inRange.gPtr_lt output bound
    cases occupied : arbiter.outputOccupied output with
    | true =>
        rw [if_neg (by simp), if_pos bound, eq_comm, scan_eq_none_iff ptr]
        simp [asked, occupied]
    | false =>
        rw [if_pos ⟨bound, rfl⟩, if_pos bound]
        apply scan_congr ptr
        intro input _
        cases taken : arbiter.inputOccupied input <;> simp [asked, occupied, taken]
  · rw [if_neg fun both => bound both.1, if_neg bound]

theorem acceptOf_roundRobin (inRange : arbiter.InRange) :
    acceptOf (roundRobin movesOnGrant movesOnAccept movesOnCommit) arbiter =
      scanAccept arbiter.inputNum arbiter.outputNum arbiter.asked arbiter.gPtr arbiter.aPtr := by
  funext input
  have asks : ∀ {output}, scanGrant arbiter.inputNum arbiter.outputNum arbiter.asked arbiter.gPtr
      output = some input → arbiter.asked input output = true := fun granted =>
    ((scanRound inRange.gPtr_lt inRange.aPtr_lt).grant_request granted).2.2
  unfold acceptOf scanAccept
  rw [grantOf_roundRobin inRange]
  by_cases bound : input < arbiter.inputNum
  · have ptr := inRange.aPtr_lt input bound
    cases occupied : arbiter.inputOccupied input with
    | true =>
        rw [if_neg (by simp), if_pos bound, eq_comm, scan_eq_none_iff ptr]
        intro output _
        rw [decide_eq_false_iff_not]
        intro granted
        simpa [asked, occupied] using asks granted
    | false =>
        rw [if_pos ⟨bound, rfl⟩, if_pos bound]
        apply scan_congr ptr
        intro output _
        by_cases granted : scanGrant arbiter.inputNum arbiter.outputNum arbiter.asked arbiter.gPtr
            output = some input
        · have free : arbiter.outputOccupied output = false := by
            have both := asks granted
            simp only [asked, Bool.and_eq_true, Bool.not_eq_true'] at both
            exact both.1.2
          simp [granted, free]
        · simp [granted]
  · rw [if_neg fun both => bound both.1, if_neg bound]

end VoqArbiter

/-! ## The simulation -/

/-- The mode in which `islip` is the scheduler. -/
def PairScheduler.isIslipMode : PairScheduler → Bool
  | islipBasic => true
  | rrm => false

namespace PriorityIslip

/-- The same sizes, pointers and queues, and nothing else in common. -/
structure SameStart (sch : PriorityIslip) (arbiter : PairArbiter) : Prop where
  numPrio_eq : sch.numPrio = 1
  inputNum_eq : arbiter.inputNum = sch.numPort
  outputNum_eq : arbiter.outputNum = sch.numPort
  gi_eq : ∀ j, j < sch.numPort → sch.gi (flatIndex sch.numPort 0 j) = arbiter.gPtr j
  ai_eq : ∀ i, i < sch.numPort → sch.ai (flatIndex sch.numPort 0 i) = arbiter.aPtr i
  ql_eq : ∀ i, i < sch.numPort → ∀ j, j < sch.numPort →
    sch.ql (sch.qlIndex i j 0) = arbiter.voq i j

/-- The simulation relation between iterations. -/
structure Related (sch : PriorityIslip) (arbiter : PairArbiter) : Prop where
  numPrio_eq : sch.numPrio = 1
  inputNum_eq : arbiter.inputNum = sch.numPort
  outputNum_eq : arbiter.outputNum = sch.numPort
  gi_eq : ∀ j, j < sch.numPort → sch.gi (flatIndex sch.numPort 0 j) = arbiter.gPtr j
  ai_eq : ∀ i, i < sch.numPort → sch.ai (flatIndex sch.numPort 0 i) = arbiter.aPtr i
  input_eq : ∀ i, i < sch.numPort →
    sch.inputMatchCount i = if arbiter.inputOccupied i then 1 else 0
  output_eq : ∀ j, j < sch.numPort →
    sch.outputMatchCount j = if arbiter.outputOccupied j then 1 else 0
  shadow_eq : ∀ i, i < sch.numPort → ∀ j, j < sch.numPort →
    sch.shadowQl (sch.qlIndex i j 0) = arbiter.voq i j
  schResult_eq : sch.schResult = arbiter.schResult

section Simulation

variable {sch : PriorityIslip} {arbiter : PairArbiter}

theorem SameStart.related (same : SameStart sch arbiter) :
    Related (startSch sch) (VoqArbiter.resetArbiter arbiter) where
  numPrio_eq := same.numPrio_eq
  inputNum_eq := same.inputNum_eq
  outputNum_eq := same.outputNum_eq
  gi_eq := same.gi_eq
  ai_eq := same.ai_eq
  input_eq _ _ := rfl
  output_eq _ _ := rfl
  shadow_eq := same.ql_eq
  schResult_eq := rfl

theorem Related.inRange (related : Related sch arbiter) (inRange : arbiter.InRange) :
    sch.InRange where
  gi_lt prio prioBound j jBound := by
    obtain rfl : prio = 0 := by
      have one := related.numPrio_eq
      omega
    rw [related.gi_eq j jBound, ← related.inputNum_eq]
    exact inRange.gPtr_lt j (related.outputNum_eq ▸ jBound)
  ai_lt prio prioBound i iBound := by
    obtain rfl : prio = 0 := by
      have one := related.numPrio_eq
      omega
    rw [related.ai_eq i iBound, ← related.outputNum_eq]
    exact inRange.aPtr_lt i (related.inputNum_eq ▸ iBound)

/-- Related states ask for the same pairs. -/
theorem Related.wanted_eq (related : Related sch arbiter) {i j : Nat} (iBound : i < sch.numPort)
    (jBound : j < sch.numPort) : sch.wanted 1 0 i j = arbiter.asked i j := by
  rw [wanted, related.input_eq i iBound, related.output_eq j jBound,
    related.shadow_eq i iBound j jBound, VoqArbiter.asked]
  cases arbiter.inputOccupied i <;> cases arbiter.outputOccupied j <;> simp

theorem Related.prioBound (related : Related sch arbiter) : 0 < sch.numPrio := by
  rw [related.numPrio_eq]
  exact Nat.one_pos

theorem Related.grantOf_eq (scheduler : PairScheduler) (related : Related sch arbiter)
    (inRange : arbiter.InRange) :
    sch.grantOf 1 0 = VoqArbiter.grantOf scheduler.discipline arbiter := by
  have same : sch.grantOf 1 0 =
      scanGrant arbiter.inputNum arbiter.outputNum arbiter.asked arbiter.gPtr := by
    rw [related.inputNum_eq, related.outputNum_eq]
    exact scanGrant_congr (fun i iBound j jBound => related.wanted_eq iBound jBound)
      ((related.inRange inRange).gi_lt 0 related.prioBound) related.gi_eq
  rw [same]
  cases scheduler <;> exact (VoqArbiter.grantOf_roundRobin inRange).symm

theorem Related.acceptOf_eq (scheduler : PairScheduler) (related : Related sch arbiter)
    (inRange : arbiter.InRange) :
    sch.acceptOf 1 0 = VoqArbiter.acceptOf scheduler.discipline arbiter := by
  have same : sch.acceptOf 1 0 = scanAccept arbiter.inputNum arbiter.outputNum arbiter.asked
      arbiter.gPtr arbiter.aPtr := by
    rw [related.inputNum_eq, related.outputNum_eq]
    exact scanAccept_congr (fun i iBound j jBound => related.wanted_eq iBound jBound)
      ((related.inRange inRange).gi_lt 0 related.prioBound) related.gi_eq related.ai_eq
  rw [same]
  cases scheduler <;> exact (VoqArbiter.acceptOf_roundRobin inRange).symm

theorem Related.roundPairs_eq (scheduler : PairScheduler) (related : Related sch arbiter)
    (inRange : arbiter.InRange) :
    sch.roundPairs 1 0 = VoqArbiter.roundPairs scheduler.discipline arbiter := by
  rw [roundPairs, VoqArbiter.roundPairs, related.acceptOf_eq scheduler inRange,
    related.inputNum_eq]

theorem Related.roundPairs_lt (related : Related sch arbiter) (inRange : arbiter.InRange) :
    ∀ pair ∈ sch.roundPairs 1 0, pair.1 < sch.numPort ∧ pair.2 < sch.numPort :=
  fun _ member => PriorityIslip.roundPairs_lt (related.inRange inRange) related.prioBound member

theorem Related.winnerOf_iff (scheduler : PairScheduler) (related : Related sch arbiter)
    (inRange : arbiter.InRange) {i j : Nat} :
    VoqArbiter.winnerOf scheduler.discipline arbiter j = some i ↔
      (i, j) ∈ sch.roundPairs 1 0 := by
  rw [VoqArbiter.winnerOf_eq_some_iff scheduler.lawful inRange,
    related.roundPairs_eq scheduler inRange, VoqArbiter.mem_roundPairs_iff]

/-- The grant pointers: iSLIP moves them past the matches of the first
iteration, RRM past every grant. -/
theorem Related.gi_round (scheduler : PairScheduler) (related : Related sch arbiter)
    (inRange : arbiter.InRange) (sameIter : sch.currentIter = arbiter.iterCnt) {j : Nat}
    (jBound : j < sch.numPort) :
    (applyRound 1 0 scheduler.isIslipMode sch).gi (flatIndex sch.numPort 0 j) =
      (VoqArbiter.applyRound scheduler.discipline arbiter).gPtr j := by
  have isMatching : IsMatching (sch.roundPairs 1 0) :=
    roundPairs_isMatching (related.inRange inRange) related.prioBound
  have matched : ∀ i, VoqArbiter.winnerOf scheduler.discipline arbiter j = some i ↔
      (i, j) ∈ sch.roundPairs 1 0 := fun i => related.winnerOf_iff scheduler inRange
  cases scheduler with
  | islipBasic =>
      have moved := writeAll_matching sch.gi sch.numPort 0 isMatching
        (fun pair member => (related.roundPairs_lt inRange pair member).2) jBound matched
      by_cases first : sch.currentIter = 0
      · have now : (arbiter.iterCnt == 0) = true := by simpa [sameIter] using first
        change (if sch.currentIter = 0 then writeAll _ _ _ sch.gi else sch.gi) _ =
          if (arbiter.iterCnt == 0) = true then advance arbiter.inputNum (arbiter.gPtr j) _
          else arbiter.gPtr j
        rw [if_pos first, if_pos now, moved, related.gi_eq j jBound, related.inputNum_eq]
      · have later : ¬(arbiter.iterCnt == 0) = true := by simpa [sameIter] using first
        change (if sch.currentIter = 0 then writeAll _ _ _ sch.gi else sch.gi) _ =
          if (arbiter.iterCnt == 0) = true then advance arbiter.inputNum (arbiter.gPtr j) _
          else arbiter.gPtr j
        rw [if_neg first, if_neg later, related.gi_eq j jBound]
  | rrm =>
      change writeAll (fun pair => flatIndex sch.numPort 0 pair.1)
        (fun pair => (pair.2 + 1) % sch.numPort)
        (pairsOf (sch.grantOf 1 0) (List.range sch.numPort)) sch.gi _ =
          advance arbiter.inputNum (arbiter.gPtr j) (VoqArbiter.grantOf Rrm.discipline arbiter j)
      rw [writeAll_pairsOf jBound, related.gi_eq j jBound, related.inputNum_eq,
        related.grantOf_eq .rrm inRange]
      rfl

/-- The accept pointers: iSLIP moves them past the matches of the first
iteration, RRM past every match. -/
theorem Related.ai_round (scheduler : PairScheduler) (related : Related sch arbiter)
    (inRange : arbiter.InRange) (sameIter : sch.currentIter = arbiter.iterCnt) {i : Nat}
    (iBound : i < sch.numPort) :
    (applyRound 1 0 scheduler.isIslipMode sch).ai (flatIndex sch.numPort 0 i) =
      (VoqArbiter.applyRound scheduler.discipline arbiter).aPtr i := by
  have moved : writeAll (fun pair => flatIndex sch.numPort 0 pair.1)
      (fun pair => (pair.2 + 1) % sch.numPort) (sch.roundPairs 1 0) sch.ai
        (flatIndex sch.numPort 0 i) =
      advance arbiter.outputNum (arbiter.aPtr i)
        (VoqArbiter.acceptOf scheduler.discipline arbiter i) := by
    rw [roundPairs, writeAll_pairsOf iBound, related.ai_eq i iBound, related.outputNum_eq,
      related.acceptOf_eq scheduler inRange]
  cases scheduler with
  | islipBasic =>
      by_cases first : sch.currentIter = 0
      · have now : (arbiter.iterCnt == 0) = true := by simpa [sameIter] using first
        change (if (true = true ∧ sch.currentIter = 0) ∨ ¬true = true then
          writeAll _ _ _ sch.ai else sch.ai) _ =
            if (arbiter.iterCnt == 0) = true then advance arbiter.outputNum (arbiter.aPtr i) _
            else arbiter.aPtr i
        rw [if_pos (by simp [first]), if_pos now]
        exact moved
      · have later : ¬(arbiter.iterCnt == 0) = true := by simpa [sameIter] using first
        change (if (true = true ∧ sch.currentIter = 0) ∨ ¬true = true then
          writeAll _ _ _ sch.ai else sch.ai) _ =
            if (arbiter.iterCnt == 0) = true then advance arbiter.outputNum (arbiter.aPtr i) _
            else arbiter.aPtr i
        rw [if_neg (by simp [first]), if_neg later, related.ai_eq i iBound]
  | rrm =>
      change (if (false = true ∧ sch.currentIter = 0) ∨ ¬false = true then
        writeAll _ _ _ sch.ai else sch.ai) _ = advance arbiter.outputNum (arbiter.aPtr i) _
      rw [if_pos (by simp)]
      exact moved

/-- One iteration of either side. -/
theorem Related.round (scheduler : PairScheduler) (related : Related sch arbiter)
    (inRange : arbiter.InRange) (sameIter : sch.currentIter = arbiter.iterCnt) :
    Related (applyRound 1 0 scheduler.isIslipMode sch)
      (VoqArbiter.applyRound scheduler.discipline arbiter) where
  numPrio_eq := related.numPrio_eq
  inputNum_eq := related.inputNum_eq
  outputNum_eq := related.outputNum_eq
  gi_eq _ jBound := related.gi_round scheduler inRange sameIter jBound
  ai_eq _ iBound := related.ai_round scheduler inRange sameIter iBound
  input_eq i iBound := by
    have bound : i < sch.numPort := iBound
    simp only [applyRound, VoqArbiter.applyRound, roundPairs, count_map_fst_pairsOf, bound,
      true_and, related.input_eq i iBound, related.acceptOf_eq scheduler inRange]
    refine (count_eq_flag fun occupied => ?_).trans (by simp)
    simp [VoqArbiter.acceptOf_eq_none_of_occupied scheduler.discipline arbiter occupied]
  output_eq j jBound := by
    have isMatching : IsMatching (sch.roundPairs 1 0) :=
      roundPairs_isMatching (related.inRange inRange) related.prioBound
    have matched : j ∈ (sch.roundPairs 1 0).map Prod.snd ↔
        (VoqArbiter.winnerOf scheduler.discipline arbiter j).isSome := by
      rw [Option.isSome_iff_exists]
      simp [related.winnerOf_iff scheduler inRange]
    simp only [applyRound, VoqArbiter.applyRound, isMatching.outputs_nodup.count, matched,
      related.output_eq j jBound]
    refine (count_eq_flag fun occupied => ?_).trans (by simp)
    simp [VoqArbiter.winnerOf,
      VoqArbiter.grantOf_eq_none_of_occupied scheduler.discipline arbiter occupied]
  shadow_eq i iBound j jBound := by
    apply (shadowQl_applyRound 1 _ (related.inRange inRange) related.prioBound jBound
      related.prioBound).trans
    rw [related.shadow_eq i iBound j jBound, related.acceptOf_eq scheduler inRange]
    simp only [VoqArbiter.applyRound, scheduler.takeCell_eq, true_and]
    split_ifs <;> simp
  schResult_eq := by
    simp only [applyRound, VoqArbiter.applyRound, related.schResult_eq,
      related.roundPairs_eq scheduler inRange]
    congr 1
    exact ((List.map_congr_left fun pair _ => scheduler.recordOf_eq arbiter pair).trans
      (List.map_id _)).symm

/-- Every number of iterations of either side. -/
theorem SameStart.related_iterations (scheduler : PairScheduler) (same : SameStart sch arbiter)
    (inRange : arbiter.InRange) (k : Nat) :
    Related (iterations 1 scheduler.isIslipMode 0 k (startSch sch))
      (VoqArbiter.afterRounds scheduler.discipline k arbiter) := by
  induction k with
  | zero => exact same.related
  | succ k ih =>
      have slot := (VoqArbiter.slotInv_afterRounds scheduler.lawful inRange k).setIterCnt k
      have related : Related
          { iterations 1 scheduler.isIslipMode 0 k (startSch sch) with currentIter := k }
          { VoqArbiter.afterRounds scheduler.discipline k arbiter with iterCnt := k } :=
        { ih with }
      rw [iterations_succ, iteration_eq (related.inRange slot.inRange) related.prioBound,
        VoqArbiter.afterRounds_succ scheduler.lawful inRange]
      exact related.round scheduler slot.inRange rfl

end Simulation

/-- The general scheduler refines the simple ones: with one priority and
speedup 1, from the same pointers and queues, `islip_sch` in the mode of the
scheduler gives the result, the pointers and the queues of its arbitration. -/
theorem islipSch_refines (scheduler : PairScheduler) {sch : PriorityIslip} {arbiter : PairArbiter}
    (same : SameStart sch arbiter) (inRange : arbiter.InRange) :
    (sch.islipSch arbiter.iterations 1 scheduler.isIslipMode).schResult =
        (scheduler.arbitration arbiter).schResult ∧
      (∀ j, j < sch.numPort →
        (sch.islipSch arbiter.iterations 1 scheduler.isIslipMode).gi
            (flatIndex sch.numPort 0 j) = (scheduler.arbitration arbiter).gPtr j) ∧
      (∀ i, i < sch.numPort →
        (sch.islipSch arbiter.iterations 1 scheduler.isIslipMode).ai
            (flatIndex sch.numPort 0 i) = (scheduler.arbitration arbiter).aPtr i) ∧
      ∀ i, i < sch.numPort → ∀ j, j < sch.numPort →
        (sch.islipSch arbiter.iterations 1 scheduler.isIslipMode).shadowQl (sch.qlIndex i j 0) =
          (scheduler.arbitration arbiter).voq i j := by
  have related := same.related_iterations scheduler inRange arbiter.iterations.toNat
  have ports : (iterations 1 scheduler.isIslipMode 0 arbiter.iterations.toNat
      (startSch sch)).numPort = sch.numPort := by
    have slot := scheduler.slotInv inRange
    rw [scheduler.arbitration_eq] at slot
    exact related.inputNum_eq.symm.trans (slot.inputNum_eq.trans same.inputNum_eq)
  have index : ∀ i j, qlIndex (iterations 1 scheduler.isIslipMode 0 arbiter.iterations.toNat
      (startSch sch)) i j 0 = sch.qlIndex i j 0 := by
    intro i j
    rw [qlIndex, qlIndex, ports, related.numPrio_eq, same.numPrio_eq]
  rw [islipSch_one same.numPrio_eq, scheduler.arbitration_eq]
  refine ⟨related.schResult_eq, fun j jBound => ?_, fun i iBound => ?_,
    fun i iBound j jBound => ?_⟩
  · rw [← ports] at jBound ⊢
    exact related.gi_eq j jBound
  · rw [← ports] at iBound ⊢
    exact related.ai_eq i iBound
  · rw [← ports] at iBound jBound
    rw [← index]
    exact related.shadow_eq i iBound j jBound

/-- Two inputs that want the same output, in RRM mode. -/
theorem islipSch_refines_two_ports :
    ((run 2 2 1 [.setQl 0 0 0, .setQl 1 0 0]).islipSch 2 1 false).schResult =
      (PairScheduler.rrm.arbitration (Rrm.request 1 0 (Rrm.request 0 0
        (Rrm.new 2 2 2 4)))).schResult :=
  (@islipSch_refines .rrm (run 2 2 1 [.setQl 0 0 0, .setQl 1 0 0])
    (Rrm.request 1 0 (Rrm.request 0 0 (Rrm.new 2 2 2 4)))
    ⟨rfl, rfl, rfl, by decide, by decide, by decide⟩ ⟨by decide, by decide⟩).1

end PriorityIslip

end SystemcTlm.Islip
