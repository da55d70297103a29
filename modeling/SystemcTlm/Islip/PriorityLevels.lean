import SystemcTlm.Islip.PrioritySchedule

/-!
# Independence of the priority levels

A priority level reads the quota that the levels above it have left, its own
cells and its own pointers.  Two schedulers that agree on the cells and the
pointers of the first levels therefore make the same matches there.  The levels
below append to the result and write no pointer of a level above.
-/

namespace SystemcTlm.Islip.PriorityIslip

open SystemcTlm.Loop SystemcTlm.Matching

/-- The pointers of the levels above `levels` are the same. -/
structure SamePointers (levels : Nat) (first second : PriorityIslip) : Prop where
  numPort_eq : second.numPort = first.numPort
  numPrio_eq : second.numPrio = first.numPrio
  gi_eq : ∀ prio, prio < levels → ∀ port, port < first.numPort →
    second.gi (flatIndex first.numPort prio port) = first.gi (flatIndex first.numPort prio port)
  ai_eq : ∀ prio, prio < levels → ∀ port, port < first.numPort →
    second.ai (flatIndex first.numPort prio port) = first.ai (flatIndex first.numPort prio port)

/-- The queues and the pointers of the levels above `levels` are the same. -/
structure AgreeBelow (levels : Nat) (first second : PriorityIslip) : Prop
    extends SamePointers levels first second where
  ql_eq : ∀ i, i < first.numPort → ∀ j, j < first.numPort → ∀ prio, prio < levels →
    second.ql (first.qlIndex i j prio) = first.ql (first.qlIndex i j prio)

/-- Two runs of `islip_sch` during the first `levels` priority levels. -/
structure AgreeDuring (levels : Nat) (first second : PriorityIslip) : Prop
    extends SamePointers levels first second where
  shadowQl_eq : ∀ i, i < first.numPort → ∀ j, j < first.numPort → ∀ prio, prio < levels →
    second.shadowQl (first.qlIndex i j prio) = first.shadowQl (first.qlIndex i j prio)
  inputMatchCount_eq : second.inputMatchCount = first.inputMatchCount
  outputMatchCount_eq : second.outputMatchCount = first.outputMatchCount
  schResult_eq : second.schResult = first.schResult

section Agreement

variable {levels prio : Nat} {speedup : Int} {isIslipMode : Bool} {first second : PriorityIslip}

theorem AgreeBelow.startSch (agree : AgreeBelow levels first second) :
    AgreeDuring levels first.startSch second.startSch where
  numPort_eq := agree.numPort_eq
  numPrio_eq := agree.numPrio_eq
  gi_eq := agree.gi_eq
  ai_eq := agree.ai_eq
  shadowQl_eq := agree.ql_eq
  inputMatchCount_eq := rfl
  outputMatchCount_eq := rfl
  schResult_eq := rfl

theorem AgreeDuring.setCurrentIter (agree : AgreeDuring levels first second) (iter : Nat) :
    AgreeDuring levels { first with currentIter := iter }
      { second with currentIter := iter } where
  numPort_eq := agree.numPort_eq
  numPrio_eq := agree.numPrio_eq
  gi_eq := agree.gi_eq
  ai_eq := agree.ai_eq
  shadowQl_eq := agree.shadowQl_eq
  inputMatchCount_eq := agree.inputMatchCount_eq
  outputMatchCount_eq := agree.outputMatchCount_eq
  schResult_eq := agree.schResult_eq

theorem AgreeDuring.qlIndex_eq (agree : AgreeDuring levels first second) (i j level : Nat) :
    second.qlIndex i j level = first.qlIndex i j level := by
  rw [qlIndex, qlIndex, agree.numPort_eq, agree.numPrio_eq]

/-- A level above asks for the same pairs. -/
theorem AgreeDuring.wanted_eq (agree : AgreeDuring levels first second) (above : prio < levels)
    {i j : Nat} (iBound : i < first.numPort) (jBound : j < first.numPort) :
    first.wanted speedup prio i j = second.wanted speedup prio i j := by
  rw [wanted, wanted, agree.inputMatchCount_eq, agree.outputMatchCount_eq, agree.qlIndex_eq,
    agree.shadowQl_eq i iBound j jBound prio above]

/-- The outputs make the same grants. -/
theorem AgreeDuring.grantOf_eq (agree : AgreeDuring levels first second) (above : prio < levels)
    (inRange : first.InRange) (prioBound : prio < first.numPrio) :
    second.grantOf speedup prio = first.grantOf speedup prio := by
  symm
  unfold grantOf
  rw [agree.numPort_eq]
  apply scanGrant_congr
  · exact fun i iBound j jBound => agree.wanted_eq above iBound jBound
  · exact inRange.gi_lt prio prioBound
  · exact fun j jBound => (agree.gi_eq prio above j jBound).symm

/-- The inputs accept the same grants. -/
theorem AgreeDuring.acceptOf_eq (agree : AgreeDuring levels first second) (above : prio < levels)
    (inRange : first.InRange) (prioBound : prio < first.numPrio) :
    second.acceptOf speedup prio = first.acceptOf speedup prio := by
  symm
  unfold acceptOf
  rw [agree.numPort_eq]
  apply scanAccept_congr
  · exact fun i iBound j jBound => agree.wanted_eq above iBound jBound
  · exact inRange.gi_lt prio prioBound
  · exact fun j jBound => (agree.gi_eq prio above j jBound).symm
  · exact fun i iBound => (agree.ai_eq prio above i iBound).symm

theorem AgreeDuring.roundPairs_eq (agree : AgreeDuring levels first second)
    (above : prio < levels) (inRange : first.InRange) (prioBound : prio < first.numPrio) :
    second.roundPairs speedup prio = first.roundPairs speedup prio := by
  rw [roundPairs, roundPairs, agree.acceptOf_eq above inRange prioBound, agree.numPort_eq]

/-- A round at a level above keeps the agreement. -/
theorem AgreeDuring.applyRound (agree : AgreeDuring levels first second) (above : prio < levels)
    (inRange : first.InRange) (prioBound : prio < first.numPrio)
    (sameIter : second.currentIter = first.currentIter) :
    AgreeDuring levels (applyRound speedup prio isIslipMode first)
      (applyRound speedup prio isIslipMode second) := by
  have pairs : second.roundPairs speedup prio = first.roundPairs speedup prio :=
    agree.roundPairs_eq above inRange prioBound
  have grants : second.grantOf speedup prio = first.grantOf speedup prio :=
    agree.grantOf_eq above inRange prioBound
  exact {
    numPort_eq := agree.numPort_eq
    numPrio_eq := agree.numPrio_eq
    gi_eq := by
      intro level levelAbove port portBound
      have old := agree.gi_eq level levelAbove port portBound
      simp only [PriorityIslip.applyRound, pairs, grants, agree.numPort_eq, sameIter]
      split_ifs
      · exact writeAll_congr old
      · exact old
      · exact writeAll_congr old
    ai_eq := by
      intro level levelAbove port portBound
      have old := agree.ai_eq level levelAbove port portBound
      simp only [PriorityIslip.applyRound, pairs, agree.numPort_eq, sameIter]
      split_ifs
      · exact writeAll_congr old
      · exact old
    shadowQl_eq := by
      intro i iBound j jBound level levelAbove
      have old := agree.shadowQl_eq i iBound j jBound level levelAbove
      simp only [PriorityIslip.applyRound, pairs, agree.qlIndex_eq]
      change second.shadowQl (first.qlIndex i j level) - _ =
        first.shadowQl (first.qlIndex i j level) - _
      rw [old]
    inputMatchCount_eq := by
      simp only [PriorityIslip.applyRound, pairs, agree.inputMatchCount_eq]
    outputMatchCount_eq := by
      simp only [PriorityIslip.applyRound, pairs, agree.outputMatchCount_eq]
    schResult_eq := by
      simp only [PriorityIslip.applyRound, pairs, agree.schResult_eq] }

/-- The iterations of a level above keep the agreement. -/
theorem AgreeDuring.iterations {start start' : PriorityIslip}
    (agree : AgreeDuring levels first second) (above : prio < levels)
    (frame : Frame start first) (frame' : Frame start' second)
    (prioBound : prio < start.numPrio) (prioBound' : prio < start'.numPrio) (k : Nat) :
    AgreeDuring levels (iterations speedup isIslipMode prio k first)
      (iterations speedup isIslipMode prio k second) := by
  induction k with
  | zero => exact agree
  | succ k ih =>
      have before := (frame.iterations prioBound speedup isIslipMode k).setCurrentIter k
      rw [iteration_applyRound frame prioBound, iteration_applyRound frame' prioBound']
      apply (ih.setCurrentIter k).applyRound above before.inRange
      · rwa [before.numPrio_eq]
      · rfl

/-- The first levels keep the agreement. -/
theorem AgreeBelow.afterLevels (agree : AgreeBelow levels first second)
    (inRange : first.InRange) (inRange' : second.InRange) (maxIterations speedup : Int)
    (isIslipMode : Bool) {done : Nat} (above : done ≤ levels) (within : done ≤ first.numPrio) :
    AgreeDuring levels (afterLevels maxIterations speedup isIslipMode done first)
      (afterLevels maxIterations speedup isIslipMode done second) := by
  induction done with
  | zero => exact agree.startSch
  | succ done ih =>
      have within' : done < second.numPrio := by
        rw [agree.numPrio_eq]
        exact within
      have frame := frame_afterLevels inRange maxIterations speedup isIslipMode
        (show done ≤ first.numPrio by omega)
      have frame' := frame_afterLevels inRange' maxIterations speedup isIslipMode within'.le
      have before := ih (by omega) (by omega)
      exact (before.iterations above frame frame' within within' maxIterations.toNat).setCurrentIter
        maxIterations.toNat

end Agreement

/-! ## The levels below -/

section Below

variable {levels prio : Nat} {speedup : Int} {isIslipMode : Bool} {start sch : PriorityIslip}

theorem SamePointers.trans {first second third : PriorityIslip}
    (left : SamePointers levels first second) (right : SamePointers levels second third) :
    SamePointers levels first third where
  numPort_eq := right.numPort_eq.trans left.numPort_eq
  numPrio_eq := right.numPrio_eq.trans left.numPrio_eq
  gi_eq := by
    intro level above port portBound
    have moved := right.gi_eq level above port (left.numPort_eq.symm ▸ portBound)
    rw [left.numPort_eq] at moved
    exact moved.trans (left.gi_eq level above port portBound)
  ai_eq := by
    intro level above port portBound
    have moved := right.ai_eq level above port (left.numPort_eq.symm ▸ portBound)
    rw [left.numPort_eq] at moved
    exact moved.trans (left.ai_eq level above port portBound)

theorem SamePointers.symm {first second : PriorityIslip}
    (same : SamePointers levels first second) : SamePointers levels second first where
  numPort_eq := same.numPort_eq.symm
  numPrio_eq := same.numPrio_eq.symm
  gi_eq := by
    intro level above port portBound
    rw [same.numPort_eq] at portBound ⊢
    exact (same.gi_eq level above port portBound).symm
  ai_eq := by
    intro level above port portBound
    rw [same.numPort_eq] at portBound ⊢
    exact (same.ai_eq level above port portBound).symm

/-- The entries a level writes lie in its own row. -/
theorem writeAll_other_level {entries : List (Nat × Nat)} {port : Nat × Nat → Nat}
    {value : Nat × Nat → Nat} {table : Nat → Nat} {n level place : Nat}
    (inside : ∀ pair ∈ entries, port pair < n) (placeBound : place < n) (other : level ≠ prio) :
    writeAll (fun pair => flatIndex n prio (port pair)) value entries table
      (flatIndex n level place) = table (flatIndex n level place) := by
  apply writeAll_of_not_mem
  intro pair member same
  exact other ((flatIndex_inj (inside pair member) placeBound).mp same).1.symm

variable (speedup isIslipMode) in
/-- A round writes no pointer of a level above. -/
theorem samePointers_applyRound (inRange : sch.InRange) (prioBound : prio < sch.numPrio)
    (below : levels ≤ prio) :
    SamePointers levels sch (applyRound speedup prio isIslipMode sch) := by
  have served : ∀ pair ∈ sch.roundPairs speedup prio,
      pair.1 < sch.numPort ∧ pair.2 < sch.numPort :=
    fun _ member => roundPairs_lt inRange prioBound member
  have granting : ∀ pair ∈ pairsOf (sch.grantOf speedup prio) (List.range sch.numPort),
      pair.1 < sch.numPort := by
    intro pair member
    exact List.mem_range.mp (mem_pairsOf_iff.mp member).1
  exact {
    numPort_eq := rfl
    numPrio_eq := rfl
    gi_eq := by
      intro level above port portBound
      simp only [applyRound]
      split_ifs
      · exact writeAll_other_level (fun pair member => (served pair member).2) portBound (by omega)
      · rfl
      · exact writeAll_other_level granting portBound (by omega)
    ai_eq := by
      intro level above port portBound
      simp only [applyRound]
      split_ifs
      · exact writeAll_other_level (fun pair member => (served pair member).1) portBound (by omega)
      · rfl }

variable (speedup isIslipMode) in
theorem samePointers_iterations (frame : Frame start sch) (prioBound : prio < start.numPrio)
    (below : levels ≤ prio) (k : Nat) :
    SamePointers levels sch (iterations speedup isIslipMode prio k sch) := by
  induction k with
  | zero => exact ⟨rfl, rfl, fun _ _ _ _ => rfl, fun _ _ _ _ => rfl⟩
  | succ k ih =>
      have before := (frame.iterations prioBound speedup isIslipMode k).setCurrentIter k
      rw [iteration_applyRound frame prioBound]
      have step := samePointers_applyRound speedup isIslipMode before.inRange
        (before.numPrio_eq.symm ▸ prioBound) below
      exact ih.trans ⟨step.numPort_eq, step.numPrio_eq, step.gi_eq, step.ai_eq⟩

/-- The levels from `levels` on leave the pointers of the levels above. -/
theorem samePointers_afterLevels (inRange : sch.InRange) (maxIterations speedup : Int)
    (isIslipMode : Bool) {last : Nat} (order : levels ≤ last) (within : last ≤ sch.numPrio) :
    SamePointers levels (afterLevels maxIterations speedup isIslipMode levels sch)
      (afterLevels maxIterations speedup isIslipMode last sch) := by
  induction last, order using Nat.le_induction with
  | base => exact ⟨rfl, rfl, fun _ _ _ _ => rfl, fun _ _ _ _ => rfl⟩
  | succ last order ih =>
      have frame := frame_afterLevels inRange maxIterations speedup isIslipMode
        (show last ≤ sch.numPrio by omega)
      have step := samePointers_iterations speedup isIslipMode frame within order
        maxIterations.toNat
      exact (ih (by omega)).trans ⟨step.numPort_eq, step.numPrio_eq, step.gi_eq, step.ai_eq⟩

end Below

/-- The matches and the pointers of the first levels do not depend on the
queues and the pointers of the others: from two states that agree on the first
`levels` levels, the same list of matches heads both results, and the pointers
of these levels end up the same.  In both states every pointer stands on a port,
as it does in every state the calls reach (`ready_run`). -/
theorem islipSch_levels_independent {levels : Nat} {first second : PriorityIslip}
    (inRange : first.InRange) (inRange' : second.InRange) (within : levels ≤ first.numPrio)
    (agree : AgreeBelow levels first second) (maxIterations speedup : Int) (isIslipMode : Bool) :
    (afterLevels maxIterations speedup isIslipMode levels second).schResult =
        (afterLevels maxIterations speedup isIslipMode levels first).schResult ∧
      (afterLevels maxIterations speedup isIslipMode levels first).schResult <+:
        (first.islipSch maxIterations speedup isIslipMode).schResult ∧
      (afterLevels maxIterations speedup isIslipMode levels second).schResult <+:
        (second.islipSch maxIterations speedup isIslipMode).schResult ∧
      SamePointers levels (first.islipSch maxIterations speedup isIslipMode)
        (second.islipSch maxIterations speedup isIslipMode) := by
  have within' : levels ≤ second.numPrio := by rwa [agree.numPrio_eq]
  have during := agree.afterLevels inRange inRange' maxIterations speedup isIslipMode le_rfl within
  have later := samePointers_afterLevels inRange maxIterations speedup isIslipMode within le_rfl
  have later' := samePointers_afterLevels inRange' maxIterations speedup isIslipMode within' le_rfl
  refine ⟨during.schResult_eq, ?_, ?_, later.symm.trans (during.toSamePointers.trans later')⟩
  · exact schResult_afterLevels_grows inRange maxIterations speedup isIslipMode within le_rfl
  · exact schResult_afterLevels_grows inRange' maxIterations speedup isIslipMode within' le_rfl

/-- A state with a cell and a moved pointer of level 1, and one without. -/
theorem islipSch_levels_independent_two_ports :
    (afterLevels 1 1 true 1 (run 2 2 2 [.setQl 0 0 0])).schResult =
        (afterLevels 1 1 true 1
          (run 2 2 2 [.setQl 1 1 1, .islipSch 1 1 true, .setQl 0 0 0])).schResult ∧
      SamePointers 1
        ((run 2 2 2 [.setQl 1 1 1, .islipSch 1 1 true, .setQl 0 0 0]).islipSch 1 1 true)
        ((run 2 2 2 [.setQl 0 0 0]).islipSch 1 1 true) := by
  have agree : AgreeBelow 1 (run 2 2 2 [.setQl 1 1 1, .islipSch 1 1 true, .setQl 0 0 0])
      (run 2 2 2 [.setQl 0 0 0]) :=
    ⟨⟨by decide +kernel, by decide +kernel, by decide +kernel, by decide +kernel⟩,
      by decide +kernel⟩
  have independent := islipSch_levels_independent (ready_run 2 2 2 _).inRange
    (ready_run 2 2 2 _).inRange (by decide +kernel) agree 1 1 true
  exact ⟨independent.1, independent.2.2.2⟩

end SystemcTlm.Islip.PriorityIslip
