import SystemcTlm.Islip.PriorityLevels
import SystemcTlm.Islip.Refinement
import SystemcTlm.Islip.SlipPointers

/-!
# The highest priority level of `islip`

The first level of `islip_sch` finds no quota used and comes before all others, so
it is an `islip` of its own with one priority: `topOf` takes its cells out of the
queues, and commutes with the iterations.  With speedup 1 the first level is then
`islip_basic`, and no cell of the highest priority starves.
-/

namespace SystemcTlm.Islip.PriorityIslip

open SystemcTlm.Loop SystemcTlm.Matching SystemcTlm.Transition
open PairScheduler (islipBasic)

/-- The scheduler with the cells of the first level only. -/
def topOf (sch : PriorityIslip) : PriorityIslip :=
  { sch with
    numPrio := 1
    ql := fun index => sch.ql (index * sch.numPrio)
    shadowQl := fun index => sch.shadowQl (index * sch.numPrio) }

section TopOf

variable (sch : PriorityIslip) (speedup : Int)

theorem topOf_qlIndex (i j : Nat) :
    (topOf sch).qlIndex i j 0 * sch.numPrio = sch.qlIndex i j 0 := by
  simp [qlIndex, flatIndex, topOf]

theorem topOf_wanted : (topOf sch).wanted speedup 0 = sch.wanted speedup 0 := by
  funext i j
  have cells : (topOf sch).shadowQl ((topOf sch).qlIndex i j 0) =
      sch.shadowQl (sch.qlIndex i j 0) := congrArg sch.shadowQl (topOf_qlIndex sch i j)
  rw [wanted, wanted, cells]
  rfl

theorem topOf_grantOf : (topOf sch).grantOf speedup 0 = sch.grantOf speedup 0 := by
  funext j
  unfold grantOf
  rw [topOf_wanted]
  rfl

theorem topOf_roundPairs : (topOf sch).roundPairs speedup 0 = sch.roundPairs speedup 0 := by
  have accepts : (topOf sch).acceptOf speedup 0 = sch.acceptOf speedup 0 := by
    funext i
    unfold acceptOf
    rw [topOf_wanted]
    rfl
  rw [roundPairs, accepts]
  rfl

/-- The cells that a round takes are those of the first level. -/
theorem topOf_applyRound (positive : 0 < sch.numPrio) (isIslipMode : Bool) :
    topOf (applyRound speedup 0 isIslipMode sch) =
      applyRound speedup 0 isIslipMode (topOf sch) := by
  have taken : ∀ index, ((sch.roundPairs speedup 0).map fun pair =>
        sch.qlIndex pair.1 pair.2 0).count (index * sch.numPrio) =
      ((sch.roundPairs speedup 0).map fun pair =>
        (topOf sch).qlIndex pair.1 pair.2 0).count index := by
    intro index
    have spread := List.count_map_of_injective
      ((sch.roundPairs speedup 0).map fun pair => (topOf sch).qlIndex pair.1 pair.2 0)
      (fun index => index * sch.numPrio)
      (fun _ _ same => Nat.eq_of_mul_eq_mul_right positive same) index
    simpa only [List.map_map, Function.comp_def, topOf_qlIndex] using spread
  unfold applyRound
  rw [topOf_wanted, topOf_grantOf, topOf_roundPairs]
  simp only [topOf, PriorityIslip.mk.injEq, eq_self, true_and, and_true]
  refine ⟨rfl, rfl, ?_⟩
  funext index
  exact congrArg (fun count : Nat => sch.shadowQl (index * sch.numPrio) - (count : Int))
    (taken index)

end TopOf

section FirstLevel

variable {sch : PriorityIslip}

theorem topOf_inRange (inRange : sch.InRange) (positive : 0 < sch.numPrio) :
    (topOf sch).InRange where
  gi_lt prio prioBound := by
    rw [Nat.lt_one_iff.mp prioBound]
    exact inRange.gi_lt 0 positive
  ai_lt prio prioBound := by
    rw [Nat.lt_one_iff.mp prioBound]
    exact inRange.ai_lt 0 positive

theorem topOf_iterations (inRange : sch.InRange) (positive : 0 < sch.numPrio) (speedup : Int)
    (isIslipMode : Bool) (k : Nat) :
    topOf (iterations speedup isIslipMode 0 k sch) =
      iterations speedup isIslipMode 0 k (topOf sch) := by
  have frame : Frame sch sch := ⟨rfl, rfl, rfl, inRange⟩
  have frameTop : Frame (topOf sch) (topOf sch) := ⟨rfl, rfl, rfl, topOf_inRange inRange positive⟩
  induction k with
  | zero => rfl
  | succ k ih =>
      have during := frame.iterations positive speedup isIslipMode k
      rw [iteration_applyRound frame positive, iteration_applyRound frameTop Nat.one_pos, ← ih,
        topOf_applyRound]
      · rfl
      · exact during.numPrio_eq.symm ▸ positive

/-- The first level is the schedule of an `islip` with one priority. -/
theorem islipSch_topOf (inRange : sch.InRange) (positive : 0 < sch.numPrio)
    (maxIterations speedup : Int) (isIslipMode : Bool) :
    (topOf sch).islipSch maxIterations speedup isIslipMode =
      topOf (afterLevels maxIterations speedup isIslipMode 1 sch) := by
  have alone := topOf_iterations (Frame.startSch inRange).inRange positive speedup isIslipMode
    maxIterations.toNat
  rw [islipSch_one rfl]
  change { iterations speedup isIslipMode 0 maxIterations.toNat (topOf (startSch sch)) with
    currentIter := maxIterations.toNat } = _
  rw [← alone]
  rfl

end FirstLevel

/-! ## The first level as `islip_basic` -/

/-- The cells of the highest priority. -/
def topCells (sch : PriorityIslip) (i j : Nat) : Int :=
  if i < sch.numPort ∧ j < sch.numPort then sch.ql (sch.qlIndex i j 0) else 0

/-- `arbiter` has the ports, the pointers and the cells of the first level. -/
structure Beside (maxIterations : Int) (sch : PriorityIslip) (arbiter : PairArbiter) : Prop where
  inputNum_eq : arbiter.inputNum = sch.numPort
  outputNum_eq : arbiter.outputNum = sch.numPort
  iterations_eq : arbiter.iterations = maxIterations
  gPtr_eq : ∀ j, j < sch.numPort → arbiter.gPtr j = sch.gi (flatIndex sch.numPort 0 j)
  aPtr_eq : ∀ i, i < sch.numPort → arbiter.aPtr i = sch.ai (flatIndex sch.numPort 0 i)
  voq_eq : arbiter.voq = sch.topCells

section Beside

variable {maxIterations : Int} {sch : PriorityIslip} {arbiter : PairArbiter}
  (beside : Beside maxIterations sch arbiter) (inRange : sch.InRange)
  (positive : 0 < sch.numPrio)

include beside

theorem Beside.sameStart : SameStart (topOf sch) arbiter where
  numPrio_eq := rfl
  inputNum_eq := beside.inputNum_eq
  outputNum_eq := beside.outputNum_eq
  gi_eq j jBound := (beside.gPtr_eq j jBound).symm
  ai_eq i iBound := (beside.aPtr_eq i iBound).symm
  ql_eq i iBound j jBound := by
    rw [beside.voq_eq, topCells, if_pos ⟨iBound, jBound⟩]
    exact congrArg sch.ql (topOf_qlIndex sch i j)

include inRange positive

theorem Beside.arbiter_inRange : arbiter.InRange where
  gPtr_lt j jBound := by
    rw [beside.outputNum_eq] at jBound
    rw [beside.gPtr_eq j jBound, beside.inputNum_eq]
    exact inRange.gi_lt 0 positive j jBound
  aPtr_lt i iBound := by
    rw [beside.inputNum_eq] at iBound
    rw [beside.aPtr_eq i iBound, beside.outputNum_eq]
    exact inRange.ai_lt 0 positive i iBound

/-- The matches of the first level, and its pointers after all levels. -/
theorem Beside.slot :
    (afterLevels maxIterations 1 true 1 sch).schResult = islipBasic.scheduledPairs arbiter ∧
      (∀ j, j < sch.numPort → (sch.islipSch maxIterations 1 true).gi (flatIndex sch.numPort 0 j) =
        (islipBasic.arbitration arbiter).gPtr j) ∧
      ∀ i, i < sch.numPort → (sch.islipSch maxIterations 1 true).ai (flatIndex sch.numPort 0 i) =
        (islipBasic.arbitration arbiter).aPtr i := by
  have arbiterRange := beside.arbiter_inRange inRange positive
  have related := beside.sameStart.related_iterations islipBasic arbiterRange
    maxIterations.toNat
  have alone := islipSch_topOf inRange positive maxIterations 1 true
  rw [islipSch_one rfl] at alone
  have arbitration := islipBasic.arbitration_eq arbiter
  rw [beside.iterations_eq] at arbitration
  have frame := frame_afterLevels inRange maxIterations 1 true (Nat.succ_le_of_lt positive)
  have below := samePointers_afterLevels inRange maxIterations 1 true
    (Nat.succ_le_of_lt positive) le_rfl
  have ports : (iterations 1 islipBasic.isIslipMode 0 maxIterations.toNat
      (startSch (topOf sch))).numPort = sch.numPort :=
    (congrArg numPort alone).trans frame.numPort_eq
  have grants := congrArg gi alone
  have accepts := congrArg ai alone
  have moved := related.gi_eq
  have moved' := related.ai_eq
  have kept := below.gi_eq 0 Nat.one_pos
  have kept' := below.ai_eq 0 Nat.one_pos
  rw [frame.numPort_eq] at kept kept'
  rw [ports] at moved moved'
  refine ⟨?_, fun j jBound => ?_, fun i iBound => ?_⟩
  · rw [← islipBasic.schResult_eq arbiterRange, arbitration]
    exact (congrArg schResult alone).symm.trans related.schResult_eq
  · rw [arbitration]
    exact ((kept j jBound).trans (congrFun grants _).symm).trans (moved j jBound)
  · rw [arbitration]
    exact ((kept' i iBound).trans (congrFun accepts _).symm).trans
      (moved' i iBound)

end Beside

/-! ## Slots -/

/-- The calls that set up the queues of a slot. -/
def Call.SetsQueues : Call → Prop
  | .init => True
  | .setQl _ _ _ => True
  | _ => False

/-- `current` has the sizes and the pointers of `start`. -/
structure SameTables (start current : PriorityIslip) : Prop where
  numPort_eq : current.numPort = start.numPort
  numPrio_eq : current.numPrio = start.numPrio
  gi_eq : current.gi = start.gi
  ai_eq : current.ai = start.ai

theorem SameTables.call {start current : PriorityIslip} (same : SameTables start current)
    {next : Call} (sets : next.SetsQueues) : SameTables start (call next current) := by
  cases next with
  | init => exact ⟨same.numPort_eq, same.numPrio_eq, same.gi_eq, same.ai_eq⟩
  | setQl i j prio =>
      dsimp only [PriorityIslip.call, setQl]
      split_ifs
      · exact same
      · exact ⟨same.numPort_eq, same.numPrio_eq, same.gi_eq, same.ai_eq⟩
      · exact same
  | initPriorityPtr => exact sets.elim
  | islipSch maxIterations speedup isIslipMode => exact sets.elim

theorem sameTables_runCalls (sch : PriorityIslip) {calls : List Call}
    (sets : ∀ next ∈ calls, next.SetsQueues) : SameTables sch (runCalls call calls sch) := by
  refine runCalls_prefix (fun _ => SameTables sch) ⟨rfl, rfl, rfl, rfl⟩ ?_
  intro before next rest split during
  exact during.call (sets next (split ▸ List.mem_append_right before List.mem_cons_self))

/-- A run of slots, in which the queues of each slot are set up anew.  A pair whose cell
of the highest priority is not served has one again in the next slot. -/
structure SlotRun (maxIterations : Nat → Int) (states : Nat → PriorityIslip) : Prop where
  slots : ∀ t, ∃ calls : List Call, (∀ next ∈ calls, next.SetsQueues) ∧
    states (t + 1) = runCalls call calls ((states t).islipSch (maxIterations t) 1 true)
  stays : ∀ t i j, 0 < (states t).topCells i j →
    (i, j) ∉ (afterLevels (maxIterations t) 1 true 1 (states t)).schResult →
    0 < (states (t + 1)).topCells i j

/-- `islip_basic` beside the run. -/
def besideAt (maxIterations : Nat → Int) (states : Nat → PriorityIslip) : Nat → PairArbiter
  | 0 =>
      { IslipBasic.new (states 0).numPort (states 0).numPort (maxIterations 0) 1 with
        gPtr := (states 0).gi
        aPtr := (states 0).ai
        voq := (states 0).topCells }
  | t + 1 =>
      { islipBasic.arbitration (besideAt maxIterations states t) with
        iterations := maxIterations (t + 1)
        voq := (states (t + 1)).topCells }

/-- What holds at the start of each slot. -/
structure Steady (start : PriorityIslip) (maxIterations : Int) (sch : PriorityIslip)
    (arbiter : PairArbiter) : Prop extends Beside maxIterations sch arbiter where
  numPort_eq : sch.numPort = start.numPort
  positive : 0 < sch.numPrio
  inRange : sch.InRange

section Fairness

variable {maxIterations : Nat → Int} {states : Nat → PriorityIslip}
  (run : SlotRun maxIterations states) (positive : 0 < (states 0).numPrio)
  (inRange : (states 0).InRange)

include run positive inRange

theorem steady_besideAt (t : Nat) :
    Steady (states 0) (maxIterations t) (states t) (besideAt maxIterations states t) := by
  induction t with
  | zero =>
      exact
        { inputNum_eq := rfl
          outputNum_eq := rfl
          iterations_eq := rfl
          gPtr_eq := fun j _ => congrArg (states 0).gi (flatIndex_zero _ j).symm
          aPtr_eq := fun i _ => congrArg (states 0).ai (flatIndex_zero _ i).symm
          voq_eq := rfl
          numPort_eq := rfl
          positive
          inRange }
  | succ t ih =>
      rcases run.slots t with ⟨calls, sets, next⟩
      have same := sameTables_runCalls ((states t).islipSch (maxIterations t) 1 true) sets
      rw [← next] at same
      have frame : Frame (states t) ((states t).islipSch (maxIterations t) 1 true) :=
        frame_afterLevels ih.inRange (maxIterations t) 1 true le_rfl
      have ports := same.numPort_eq.trans frame.numPort_eq
      have prios := same.numPrio_eq.trans frame.numPrio_eq
      have inv := islipBasic.slotInv (ih.arbiter_inRange ih.inRange ih.positive)
      rcases ih.slot ih.inRange ih.positive with ⟨-, grants, accepts⟩
      exact
        { inputNum_eq := inv.inputNum_eq.trans (ih.inputNum_eq.trans ports.symm)
          outputNum_eq := inv.outputNum_eq.trans (ih.outputNum_eq.trans ports.symm)
          iterations_eq := rfl
          gPtr_eq := by
            intro j jBound
            rw [ports] at jBound ⊢
            rw [same.gi_eq, grants j jBound]
            rfl
          aPtr_eq := by
            intro i iBound
            rw [ports] at iBound ⊢
            rw [same.ai_eq, accepts i iBound]
            rfl
          voq_eq := rfl
          numPort_eq := ports.trans ih.numPort_eq
          positive := prios.symm ▸ ih.positive
          inRange := by
            constructor
            · rw [ports, prios, same.gi_eq, ← frame.numPort_eq, ← frame.numPrio_eq]
              exact frame.inRange.gi_lt
            · rw [ports, prios, same.ai_eq, ← frame.numPort_eq, ← frame.numPrio_eq]
              exact frame.inRange.ai_lt }

/-- A slot is one of the rank argument. -/
theorem follows_besideAt (rounds : ∀ t, 1 ≤ maxIterations t) (t : Nat) :
    VoqArbiter.Follows IslipBasic.discipline (0 < ·) (besideAt maxIterations states t)
      (besideAt maxIterations states (t + 1)) := by
  have steady := steady_besideAt run positive inRange t
  apply islipBasic_follows (steady.arbiter_inRange steady.inRange steady.positive)
    ((rounds t).trans_eq steady.iterations_eq.symm)
  intro input output unserved waits
  rw [steady.voq_eq] at waits
  apply run.stays t input output waits
  rwa [(steady.slot steady.inRange steady.positive).1]

/-- No cell of the highest priority starves, whatever the number of levels and what the
other levels hold: with `N` ports and speedup 1, a pair that has such a cell in `N * N * N`
slots is matched by the first level of one of them. -/
theorem top_level_served (rounds : ∀ t, 1 ≤ maxIterations t) {i j : Nat}
    (waits : ∀ t, t < (states 0).numPort * (states 0).numPort * (states 0).numPort →
      0 < (states t).topCells i j) (iBound : i < (states 0).numPort)
    (jBound : j < (states 0).numPort) :
    ∃ t, t < (states 0).numPort * (states 0).numPort * (states 0).numPort ∧
      (i, j) ∈ (afterLevels (maxIterations t) 1 true 1 (states t)).schResult ∧
      (i, j) ∈ ((states t).islipSch (maxIterations t) 1 true).schResult := by
  have during := steady_besideAt run positive inRange
  have served := VoqArbiter.exists_scheduled islipBasic_slip islipBasic.lawful
    (besideAt maxIterations states)
    (fun t => (during t).arbiter_inRange (during t).inRange (during t).positive)
    (fun t => (rounds t).trans_eq (during t).iterations_eq.symm)
    (follows_besideAt run positive inRange rounds) iBound jBound
    (fun t within => by
      rw [decide_eq_true_eq, (during t).voq_eq]
      exact waits t within)
  rcases served with ⟨t, within, member⟩
  have first : (i, j) ∈ (afterLevels (maxIterations t) 1 true 1 (states t)).schResult := by
    rw [((during t).slot (during t).inRange (during t).positive).1]
    exact member
  have grows := schResult_afterLevels_grows (during t).inRange (maxIterations t) 1 true
    (Nat.succ_le_of_lt (during t).positive) le_rfl
  exact ⟨t, within, first, grows.subset first⟩

end Fairness

/-! ## The slots of one set of queues -/

/-- Schedules one after the other, of the same queues. -/
def repeated (maxIterations : Int) (start : PriorityIslip) : Nat → PriorityIslip
  | 0 => start
  | t + 1 => (repeated maxIterations start t).islipSch maxIterations 1 true

theorem frame_repeated {start : PriorityIslip} (inRange : start.InRange) (maxIterations : Int)
    (t : Nat) : Frame start (repeated maxIterations start t) := by
  induction t with
  | zero => exact ⟨rfl, rfl, rfl, inRange⟩
  | succ t ih =>
      have next := frame_afterLevels ih.inRange maxIterations 1 true (Nat.le_refl _)
      exact ⟨next.numPort_eq.trans ih.numPort_eq, next.numPrio_eq.trans ih.numPrio_eq,
        next.ql_eq.trans ih.ql_eq, next.inRange⟩

theorem topCells_repeated {start : PriorityIslip} (inRange : start.InRange) (maxIterations : Int)
    (t : Nat) : (repeated maxIterations start t).topCells = start.topCells := by
  have frame := frame_repeated inRange maxIterations t
  funext i j
  rw [topCells, topCells, qlIndex, qlIndex, frame.numPort_eq, frame.numPrio_eq, frame.ql_eq]

theorem slotRun_repeated {start : PriorityIslip} (inRange : start.InRange) (maxIterations : Int) :
    SlotRun (fun _ => maxIterations) (repeated maxIterations start) where
  slots t := ⟨[], by simp, rfl⟩
  stays t i j waits _ := by
    rw [topCells_repeated inRange] at waits ⊢
    exact waits

/-- Two inputs with cells of the highest priority for one output, and cells of the second
level besides. -/
def twoLevels : PriorityIslip :=
  run 2 2 2 [.setQl 0 0 0, .setQl 0 0 1, .setQl 1 0 0, .setQl 1 1 1]

theorem top_level_served_two_levels :
    ∃ t, t < 2 * 2 * 2 ∧
      (1, 0) ∈ ((repeated 2 twoLevels t).islipSch 2 1 true).schResult := by
  have inRange : twoLevels.InRange := (ready_run 2 2 2 _).inRange
  have waits : ∀ t, t < 2 * 2 * 2 → 0 < (repeated 2 twoLevels t).topCells 1 0 := by
    intro t _
    rw [topCells_repeated inRange]
    decide
  rcases top_level_served (slotRun_repeated inRange 2) (by decide) inRange (fun _ => by decide)
    waits (by decide) (by decide) with ⟨t, within, -, member⟩
  exact ⟨t, within, member⟩

end SystemcTlm.Islip.PriorityIslip
