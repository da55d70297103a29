import SystemcTlm.Islip.PriorityRound
import Mathlib.Algebra.BigOperators.Group.Finset.Piecewise
import Mathlib.Algebra.BigOperators.Ring.Finset

/-!
# One call of `islip_sch`

`SchInv` ties the quota counters, the shadow queues and the result together
while `islip_sch` runs: every match is counted at its two ports and has taken
one cell of its pair, and no port is above the speedup.  A level that has made
as many iterations as matches fit into the switch leaves no cell between two
ports with quota, and later levels do not touch its cells.
-/

namespace SystemcTlm.Islip.PriorityIslip

open SystemcTlm.Loop SystemcTlm.Matching SystemcTlm.Transition

/-- What no phase of `islip_sch` changes, whatever the speedup. -/
structure Frame (start current : PriorityIslip) : Prop where
  numPort_eq : current.numPort = start.numPort
  numPrio_eq : current.numPrio = start.numPrio
  ql_eq : current.ql = start.ql
  inRange : current.InRange

/-- The state during `islip_sch`, begun in `start`. -/
structure SchInv (speedup : Int) (start current : PriorityIslip) : Prop
    extends Frame start current where
  pairs_lt : ∀ pair ∈ current.schResult, pair.1 < start.numPort ∧ pair.2 < start.numPort
  inputMatchCount_eq : ∀ i,
    current.inputMatchCount i = (current.schResult.map Prod.fst).count i
  outputMatchCount_eq : ∀ j,
    current.outputMatchCount j = (current.schResult.map Prod.snd).count j
  input_le : ∀ i, ((current.schResult.map Prod.fst).count i : Int) ≤ speedup
  output_le : ∀ j, ((current.schResult.map Prod.snd).count j : Int) ≤ speedup
  count_eq : ∀ i, i < start.numPort → ∀ j, j < start.numPort →
    (current.schResult.count (i, j) : Int) = ∑ prio ∈ Finset.range start.numPrio,
      (start.ql (start.qlIndex i j prio) - current.shadowQl (start.qlIndex i j prio))
  shadow_le : ∀ index, current.shadowQl index ≤ start.ql index
  shadow_nonneg : ∀ i, i < start.numPort → ∀ j, j < start.numPort →
    ∀ prio, prio < start.numPrio → 0 ≤ start.ql (start.qlIndex i j prio) →
      0 ≤ current.shadowQl (start.qlIndex i j prio)

section Iteration

variable {speedup : Int} {prio : Nat} {isIslipMode : Bool} {start sch : PriorityIslip}

/-- Cells a round takes at an entry of the shadow queues: its own level, its
own pair. -/
theorem count_qlIndex {pairs : List (Nat × Nat)}
    (bound : ∀ pair ∈ pairs, pair.1 < sch.numPort ∧ pair.2 < sch.numPort)
    (prioBound : prio < sch.numPrio) {i j level : Nat} (jBound : j < sch.numPort)
    (levelBound : level < sch.numPrio) :
    (pairs.map fun pair => sch.qlIndex pair.1 pair.2 prio).count (sch.qlIndex i j level) =
      if level = prio then pairs.count (i, j) else 0 := by
  induction pairs with
  | nil => simp
  | cons pair rest ih =>
      have here : sch.qlIndex pair.1 pair.2 prio = sch.qlIndex i j level ↔
          level = prio ∧ pair = (i, j) := by
        rw [qlIndex, qlIndex, flatIndex_inj prioBound levelBound,
          flatIndex_inj (bound pair List.mem_cons_self).2 jBound, Prod.ext_iff]
        tauto
      rw [List.map_cons, List.count_cons, List.count_cons,
        ih fun other member => bound other (List.mem_cons_of_mem pair member)]
      simp only [beq_iff_eq, here]
      by_cases own : level = prio
      · by_cases same : pair = (i, j) <;> simp [own, same]
      · simp [own]

variable (speedup isIslipMode) in
/-- A round takes one cell of each pair it matches, at its level. -/
theorem shadowQl_applyRound (inRange : sch.InRange) (prioBound : prio < sch.numPrio)
    {i j level : Nat} (jBound : j < sch.numPort) (levelBound : level < sch.numPrio) :
    (applyRound speedup prio isIslipMode sch).shadowQl (sch.qlIndex i j level) =
      sch.shadowQl (sch.qlIndex i j level) -
        if level = prio ∧ sch.acceptOf speedup prio i = some j then 1 else 0 := by
  have inside : ∀ pair ∈ sch.roundPairs speedup prio,
      pair.1 < sch.numPort ∧ pair.2 < sch.numPort :=
    fun _ member => roundPairs_lt inRange prioBound member
  simp only [applyRound, count_qlIndex inside prioBound jBound levelBound,
    count_roundPairs inRange prioBound]
  by_cases own : level = prio <;> simp [own]

/-- The cells that are gone from the queues of a pair grow by its match. -/
theorem sum_shadowQl_applyRound (inRange : sch.InRange) (prioBound : prio < sch.numPrio)
    (ql : Nat → Int) {i j : Nat} (jBound : j < sch.numPort) :
    ∑ level ∈ Finset.range sch.numPrio, (ql (sch.qlIndex i j level) -
        (applyRound speedup prio isIslipMode sch).shadowQl (sch.qlIndex i j level)) =
      ∑ level ∈ Finset.range sch.numPrio,
          (ql (sch.qlIndex i j level) - sch.shadowQl (sch.qlIndex i j level)) +
        ((sch.roundPairs speedup prio).count (i, j) : Int) := by
  have cells : ∀ level ∈ Finset.range sch.numPrio,
      ql (sch.qlIndex i j level) -
        (applyRound speedup prio isIslipMode sch).shadowQl (sch.qlIndex i j level) =
      (ql (sch.qlIndex i j level) - sch.shadowQl (sch.qlIndex i j level)) +
        if level = prio then ((sch.roundPairs speedup prio).count (i, j) : Int) else 0 := by
    intro level member
    rw [shadowQl_applyRound speedup isIslipMode inRange prioBound jBound
      (Finset.mem_range.mp member), count_roundPairs inRange prioBound]
    by_cases own : level = prio
    · by_cases accepts : sch.acceptOf speedup prio i = some j
      · simp only [own, accepts, true_and, if_true]
        omega
      · simp [own, accepts]
    · simp [own]
  rw [Finset.sum_congr rfl cells, Finset.sum_add_distrib,
    Finset.sum_ite_eq' (Finset.range sch.numPrio), if_pos (Finset.mem_range.mpr prioBound)]

/-- A round takes a cell of a queue that has one. -/
theorem shadowQl_applyRound_nonneg (inRange : sch.InRange) (prioBound : prio < sch.numPrio)
    {i j level : Nat} (jBound : j < sch.numPort) (levelBound : level < sch.numPrio)
    (held : 0 ≤ sch.shadowQl (sch.qlIndex i j level)) :
    0 ≤ (applyRound speedup prio isIslipMode sch).shadowQl (sch.qlIndex i j level) := by
  rw [shadowQl_applyRound speedup isIslipMode inRange prioBound jBound levelBound]
  split_ifs with taken
  · have cell : 0 < sch.shadowQl (sch.qlIndex i j prio) :=
      (wanted_of_mem_roundPairs inRange prioBound
        ((mem_roundPairs_iff inRange prioBound).mpr taken.2)).2.2
    rw [← taken.1] at cell
    omega
  · simpa using held

/-- A round moves every pointer to a port or leaves it. -/
theorem applyRound_inRange (inRange : sch.InRange) :
    (applyRound speedup prio isIslipMode sch).InRange where
  gi_lt level levelBound j jBound := by
    have old := inRange.gi_lt level levelBound j jBound
    have positive : 0 < sch.numPort := Nat.zero_lt_of_lt jBound
    simp only [applyRound]
    split_ifs
    · exact writeAll_induction (· < sch.numPort) old fun _ _ _ => Nat.mod_lt _ positive
    · exact old
    · exact writeAll_induction (· < sch.numPort) old fun _ _ _ => Nat.mod_lt _ positive
  ai_lt level levelBound i iBound := by
    have old := inRange.ai_lt level levelBound i iBound
    have positive : 0 < sch.numPort := Nat.zero_lt_of_lt iBound
    simp only [applyRound]
    split_ifs
    · exact writeAll_induction (· < sch.numPort) old fun _ _ _ => Nat.mod_lt _ positive
    · exact old

theorem Frame.setCurrentIter (frame : Frame start sch) (iter : Nat) :
    Frame start { sch with currentIter := iter } :=
  ⟨frame.numPort_eq, frame.numPrio_eq, frame.ql_eq, frame.inRange.gi_lt, frame.inRange.ai_lt⟩

theorem SchInv.setCurrentIter (inv : SchInv speedup start sch) (iter : Nat) :
    SchInv speedup start { sch with currentIter := iter } :=
  { inv with toFrame := inv.toFrame.setCurrentIter iter }

theorem Frame.iteration (frame : Frame start sch) (prioBound : prio < start.numPrio)
    (speedup : Int) (isIslipMode : Bool) :
    Frame start (iteration speedup prio isIslipMode sch) := by
  rw [iteration_eq frame.inRange (frame.numPrio_eq.symm ▸ prioBound)]
  exact ⟨frame.numPort_eq, frame.numPrio_eq, frame.ql_eq, applyRound_inRange frame.inRange⟩

/-- A port of a round has had quota left before it. -/
theorem count_add_le {before : List (Nat × Nat)} {counter : Nat → Int}
    {port : Nat × Nat → Nat} {pairs : List (Nat × Nat)}
    (counted : ∀ x, counter x = (before.map port).count x)
    (nodup : (pairs.map port).Nodup) (quota : ∀ pair ∈ pairs, counter (port pair) < speedup)
    (old : ∀ x, ((before.map port).count x : Int) ≤ speedup) (x : Nat) :
    (((before ++ pairs).map port).count x : Int) ≤ speedup := by
  rw [List.map_append, List.count_append, nodup.count]
  split_ifs with member
  · rcases List.mem_map.mp member with ⟨pair, pairMem, rfl⟩
    have left := quota pair pairMem
    rw [counted] at left
    omega
  · simpa using old x

/-- One iteration keeps the books. -/
theorem SchInv.iteration (inv : SchInv speedup start sch) (prioBound : prio < start.numPrio)
    (isIslipMode : Bool) :
    SchInv speedup start (iteration speedup prio isIslipMode sch) := by
  have frame := inv.toFrame.iteration prioBound speedup isIslipMode
  have schPrio : prio < sch.numPrio := inv.numPrio_eq.symm ▸ prioBound
  have isMatching : IsMatching (sch.roundPairs speedup prio) :=
    roundPairs_isMatching inv.inRange schPrio
  have index : ∀ i j level, start.qlIndex i j level = sch.qlIndex i j level := by
    intro i j level
    rw [qlIndex, qlIndex, inv.numPort_eq, inv.numPrio_eq]
  rw [iteration_eq inv.inRange schPrio] at frame ⊢
  exact {
    toFrame := frame
    pairs_lt := by
      intro pair member
      rcases List.mem_append.mp member with old | new
      · exact inv.pairs_lt pair old
      · rw [← inv.numPort_eq]
        exact roundPairs_lt inv.inRange schPrio new
    inputMatchCount_eq := by
      intro i
      simp only [applyRound, List.map_append, List.count_append, inv.inputMatchCount_eq]
      push_cast
      rfl
    outputMatchCount_eq := by
      intro j
      simp only [applyRound, List.map_append, List.count_append, inv.outputMatchCount_eq]
      push_cast
      rfl
    input_le := count_add_le inv.inputMatchCount_eq isMatching.inputs_nodup
      (fun _ member => (wanted_of_mem_roundPairs inv.inRange schPrio member).1) inv.input_le
    output_le := count_add_le inv.outputMatchCount_eq isMatching.outputs_nodup
      (fun _ member => (wanted_of_mem_roundPairs inv.inRange schPrio member).2.1) inv.output_le
    count_eq := by
      intro i iBound j jBound
      have old := inv.count_eq i iBound j jBound
      rw [← inv.numPort_eq] at jBound
      rw [← inv.numPrio_eq] at old ⊢
      simp only [index] at old ⊢
      rw [sum_shadowQl_applyRound inv.inRange schPrio start.ql jBound, ← old]
      simp [applyRound]
    shadow_le := by
      intro entry
      have old := inv.shadow_le entry
      simp only [applyRound]
      omega
    shadow_nonneg := by
      intro i iBound j jBound level levelBound held
      have old := inv.shadow_nonneg i iBound j jBound level levelBound held
      rw [← inv.numPort_eq] at jBound
      rw [← inv.numPrio_eq] at levelBound
      rw [index] at old ⊢
      exact shadowQl_applyRound_nonneg inv.inRange schPrio jBound levelBound old }

end Iteration

/-! ## The loops of `islip_sch` -/

section Loops

variable {maxIterations speedup : Int} {prio : Nat} {isIslipMode : Bool}
  {start sch : PriorityIslip}

theorem Frame.iterations (frame : Frame start sch) (prioBound : prio < start.numPrio)
    (speedup : Int) (isIslipMode : Bool) (k : Nat) :
    Frame start (iterations speedup isIslipMode prio k sch) := by
  induction k with
  | zero => exact frame
  | succ k ih => exact (ih.setCurrentIter k).iteration prioBound speedup isIslipMode

theorem SchInv.iterations (inv : SchInv speedup start sch) (prioBound : prio < start.numPrio)
    (isIslipMode : Bool) (k : Nat) :
    SchInv speedup start (iterations speedup isIslipMode prio k sch) := by
  induction k with
  | zero => exact inv
  | succ k ih => exact (ih.setCurrentIter k).iteration prioBound isIslipMode

theorem Frame.startSch (inRange : sch.InRange) : Frame sch (startSch sch) :=
  ⟨rfl, rfl, rfl, inRange.gi_lt, inRange.ai_lt⟩

theorem SchInv.startSch (inRange : sch.InRange) (nonneg : 0 ≤ speedup) :
    SchInv speedup sch (startSch sch) where
  toFrame := Frame.startSch inRange
  pairs_lt := by simp [PriorityIslip.startSch]
  inputMatchCount_eq := by simp [PriorityIslip.startSch]
  outputMatchCount_eq := by simp [PriorityIslip.startSch]
  input_le := by simpa [PriorityIslip.startSch] using nonneg
  output_le := by simpa [PriorityIslip.startSch] using nonneg
  count_eq := by simp [PriorityIslip.startSch]
  shadow_le _ := le_rfl
  shadow_nonneg _ _ _ _ _ _ held := held

theorem frame_afterLevels (inRange : sch.InRange) (maxIterations speedup : Int)
    (isIslipMode : Bool) {levels : Nat} (within : levels ≤ sch.numPrio) :
    Frame sch (afterLevels maxIterations speedup isIslipMode levels sch) :=
  forRange_induction (fun _ current => Frame sch current) (Frame.startSch inRange)
    fun _ _ bound frame =>
      (frame.iterations (Nat.lt_of_lt_of_le bound within) speedup isIslipMode
        maxIterations.toNat).setCurrentIter _

theorem schInv_afterLevels (inRange : sch.InRange) (maxIterations : Int) (nonneg : 0 ≤ speedup)
    (isIslipMode : Bool) {levels : Nat} (within : levels ≤ sch.numPrio) :
    SchInv speedup sch (afterLevels maxIterations speedup isIslipMode levels sch) :=
  forRange_induction (fun _ current => SchInv speedup sch current)
    (SchInv.startSch inRange nonneg)
    fun _ _ bound inv =>
      (inv.iterations (Nat.lt_of_lt_of_le bound within) isIslipMode
        maxIterations.toNat).setCurrentIter _

end Loops

/-! ## Safety over runs -/

/-- What holds between the calls: pointers on ports, no negative queue. -/
structure Ready (sch : PriorityIslip) : Prop where
  inRange : sch.InRange
  ql_nonneg : ∀ index, 0 ≤ sch.ql index

theorem Ready.call {sch : PriorityIslip} (ready : sch.Ready) (next : Call) :
    (call next sch).Ready := by
  cases next with
  | init => exact ⟨⟨ready.inRange.gi_lt, ready.inRange.ai_lt⟩, fun _ => le_rfl⟩
  | initPriorityPtr =>
      exact ⟨⟨fun _ _ _ jBound => Nat.zero_lt_of_lt jBound,
        fun _ _ _ iBound => Nat.zero_lt_of_lt iBound⟩, ready.ql_nonneg⟩
  | setQl i j prio =>
      simp only [PriorityIslip.call, setQl]
      split_ifs
      · exact ready
      · refine ⟨⟨ready.inRange.gi_lt, ready.inRange.ai_lt⟩, fun index => ?_⟩
        have old := ready.ql_nonneg index
        simp only [Option.getD_some, Function.update_apply]
        split_ifs with here
        · rw [← here]
          omega
        · exact old
      · exact ready
  | islipSch maxIterations speedup isIslipMode =>
      have frame := frame_afterLevels ready.inRange maxIterations speedup isIslipMode
        (le_refl sch.numPrio)
      exact ⟨frame.inRange, fun index => (congrFun frame.ql_eq index).symm ▸ ready.ql_nonneg index⟩

theorem ready_run (inputNum outputNum priorityNum : Nat) (calls : List Call) :
    (run inputNum outputNum priorityNum calls).Ready :=
  runCalls_invariant Ready
    ⟨⟨fun _ _ _ jBound => Nat.zero_lt_of_lt jBound,
      fun _ _ _ iBound => Nat.zero_lt_of_lt iBound⟩, fun _ => le_rfl⟩
    fun next _ ready => ready.call next

/-- Switch constraints and cell conservation: from every state the calls reach,
`islip_sch` matches no port more than `speedup` times, its counters are the
numbers of matches, each match took one cell of its pair from the shadow
queues, which stay between nothing and the queues, the queues are as before,
and the pointers stand on ports. -/
theorem islipSch_safe (inputNum outputNum priorityNum : Nat) (calls : List Call)
    (maxIterations : Int) {speedup : Int} (nonneg : 0 ≤ speedup) (isIslipMode : Bool)
    {sch final : PriorityIslip} (reached : sch = run inputNum outputNum priorityNum calls)
    (scheduled : final = sch.islipSch maxIterations speedup isIslipMode) :
    (∀ port, ((final.schResult.map Prod.fst).count port : Int) ≤ speedup ∧
      ((final.schResult.map Prod.snd).count port : Int) ≤ speedup) ∧
    (∀ port, final.inputMatchCount port = (final.schResult.map Prod.fst).count port ∧
      final.outputMatchCount port = (final.schResult.map Prod.snd).count port) ∧
    (∀ i, i < sch.numPort → ∀ j, j < sch.numPort →
      (final.schResult.count (i, j) : Int) = ∑ prio ∈ Finset.range sch.numPrio,
        (final.ql (sch.qlIndex i j prio) - final.shadowQl (sch.qlIndex i j prio))) ∧
    (∀ i, i < sch.numPort → ∀ j, j < sch.numPort → ∀ prio, prio < sch.numPrio →
      0 ≤ final.shadowQl (sch.qlIndex i j prio) ∧
      final.shadowQl (sch.qlIndex i j prio) ≤ final.ql (sch.qlIndex i j prio)) ∧
    final.ql = sch.ql ∧
    (∀ prio, prio < sch.numPrio → ∀ port, port < sch.numPort →
      final.gi (flatIndex sch.numPort prio port) < sch.numPort ∧
      final.ai (flatIndex sch.numPort prio port) < sch.numPort) := by
  have ready := ready_run inputNum outputNum priorityNum calls
  rw [← reached] at ready
  have inv := schInv_afterLevels ready.inRange maxIterations nonneg isIslipMode
    (le_refl sch.numPrio)
  rw [show afterLevels maxIterations speedup isIslipMode sch.numPrio sch = final from
    scheduled.symm] at inv
  refine ⟨fun port => ⟨inv.input_le port, inv.output_le port⟩,
    fun port => ⟨inv.inputMatchCount_eq port, inv.outputMatchCount_eq port⟩,
    ?_, ?_, inv.ql_eq, ?_⟩
  · intro i iBound j jBound
    rw [inv.ql_eq]
    exact inv.count_eq i iBound j jBound
  · intro i iBound j jBound prio prioBound
    rw [inv.ql_eq]
    exact ⟨inv.shadow_nonneg i iBound j jBound prio prioBound (ready.ql_nonneg _),
      inv.shadow_le _⟩
  · intro prio prioBound port portBound
    rw [← inv.numPort_eq] at portBound ⊢
    rw [← inv.numPrio_eq] at prioBound
    exact ⟨inv.inRange.gi_lt prio prioBound port portBound,
      inv.inRange.ai_lt prio prioBound port portBound⟩

/-- Two inputs that want the same output, and a cell of the lower level. -/
theorem islipSch_safe_two_ports :
    (∀ port, ((((run 2 2 2 [.setQl 0 0 0, .setQl 1 0 0, .setQl 1 1 1]).islipSch 2 1
        true).schResult.map Prod.fst).count port : Int) ≤ 1 ∧
      ((((run 2 2 2 [.setQl 0 0 0, .setQl 1 0 0, .setQl 1 1 1]).islipSch 2 1
        true).schResult.map Prod.snd).count port : Int) ≤ 1) ∧
    ((run 2 2 2 [.setQl 0 0 0, .setQl 1 0 0, .setQl 1 1 1]).islipSch 2 1 true).ql =
      (run 2 2 2 [.setQl 0 0 0, .setQl 1 0 0, .setQl 1 1 1]).ql := by
  have safe := islipSch_safe 2 2 2 [.setQl 0 0 0, .setQl 1 0 0, .setQl 1 1 1] 2
    (show (0 : Int) ≤ 1 by decide) true rfl rfl
  exact ⟨safe.1, safe.2.2.2.2.1⟩

/-! ## Maximality -/

section Maximality

variable {maxIterations speedup : Int} {prio : Nat} {isIslipMode : Bool}
  {start sch : PriorityIslip}

/-- Quotas and cells are only used up. -/
theorem wanted_of_applyRound {i j : Nat}
    (asks : (applyRound speedup prio isIslipMode sch).wanted speedup prio i j = true) :
    sch.wanted speedup prio i j = true := by
  simp only [wanted, decide_eq_true_eq] at asks ⊢
  rcases asks with ⟨input, output, cell⟩
  change sch.inputMatchCount i + _ < speedup at input
  change sch.outputMatchCount j + _ < speedup at output
  change 0 < sch.shadowQl (sch.qlIndex i j prio) - _ at cell
  omega

theorem iteration_applyRound (frame : Frame start sch) (prioBound : prio < start.numPrio)
    (k : Nat) :
    iterations speedup isIslipMode prio (k + 1) sch =
      applyRound speedup prio isIslipMode
        { iterations speedup isIslipMode prio k sch with currentIter := k } := by
  have before := (frame.iterations prioBound speedup isIslipMode k).setCurrentIter k
  exact iteration_eq before.inRange (before.numPrio_eq.symm ▸ prioBound) isIslipMode

/-- A level that has made as many iterations as matches fit into the switch
has no request left. -/
theorem not_wanted_iterations (inv : SchInv speedup start sch) (prioBound : prio < start.numPrio)
    (nonneg : 0 ≤ speedup) {rounds : Nat} (enough : start.numPort * speedup.toNat ≤ rounds)
    {i j : Nat} (iBound : i < start.numPort) (jBound : j < start.numPort) :
    (iterations speedup isIslipMode prio rounds sch).wanted speedup prio i j = false := by
  have during := inv.iterations prioBound isIslipMode
  have exhausted := exhausted_of_growth
    (fun k => (iterations speedup isIslipMode prio k sch).schResult.length)
    (fun k => ∃ i, i < start.numPort ∧ ∃ j, j < start.numPort ∧
      (iterations speedup isIslipMode prio k sch).wanted speedup prio i j = true)
    (fun k => by
      rw [← List.length_map (f := Prod.fst)]
      refine length_le_mul_of_count_le (fun x member => ?_) fun x _ => ?_
      · rcases List.mem_map.mp member with ⟨pair, pairMem, rfl⟩
        exact ((during k).pairs_lt pair pairMem).1
      · have quota := (during k).input_le x
        omega)
    (fun k ⟨i, iBound, j, jBound, asks⟩ => by
      have before := (during k).setCurrentIter k
      have made := roundPairs_length_pos before.inRange
        (before.numPrio_eq.symm ▸ prioBound) (before.numPort_eq.symm ▸ iBound)
        (before.numPort_eq.symm ▸ jBound) asks
      rw [iteration_applyRound inv.toFrame prioBound]
      simp only [applyRound, List.length_append]
      omega)
    (fun k ⟨i, iBound, j, jBound, asks⟩ => by
      rw [iteration_applyRound inv.toFrame prioBound] at asks
      have askedBefore := wanted_of_applyRound asks
      exact ⟨i, iBound, j, jBound, askedBefore⟩)
    enough
  rw [Bool.eq_false_iff]
  exact fun asks => exhausted ⟨i, iBound, j, jBound, asks⟩

variable (speedup isIslipMode) in
/-- A level takes no cell of another level. -/
theorem iterations_other (frame : Frame start sch) (prioBound : prio < start.numPrio)
    (k : Nat) {i j level : Nat} (jBound : j < start.numPort)
    (levelBound : level < start.numPrio) (other : level ≠ prio) :
    (iterations speedup isIslipMode prio k sch).shadowQl (start.qlIndex i j level) =
      sch.shadowQl (start.qlIndex i j level) := by
  induction k with
  | zero => rfl
  | succ k ih =>
      have before := (frame.iterations prioBound speedup isIslipMode k).setCurrentIter k
      have beforePrio := before.numPrio_eq.symm ▸ prioBound
      have index : start.qlIndex i j level =
          qlIndex { iterations speedup isIslipMode prio k sch with currentIter := k }
            i j level := by
        rw [qlIndex, qlIndex, before.numPort_eq, before.numPrio_eq]
      rw [iteration_applyRound frame prioBound, ← ih, index,
        shadowQl_applyRound speedup isIslipMode before.inRange beforePrio
          (before.numPort_eq.symm ▸ jBound) (before.numPrio_eq.symm ▸ levelBound),
        if_neg fun own => other own.1, Int.sub_zero]

/-- A level only adds matches. -/
theorem schResult_iterations_grows (frame : Frame start sch) (prioBound : prio < start.numPrio)
    (speedup : Int) (isIslipMode : Bool) (k : Nat) :
    sch.schResult <+: (iterations speedup isIslipMode prio k sch).schResult := by
  induction k with
  | zero => exact List.prefix_rfl
  | succ k ih =>
      rw [iteration_applyRound frame prioBound]
      exact ih.trans (List.prefix_append _ _)

/-- The levels from `levels` on take no cell of a level above. -/
theorem afterLevels_later (inRange : sch.InRange) (maxIterations speedup : Int)
    (isIslipMode : Bool) {levels last : Nat} (order : levels ≤ last) (within : last ≤ sch.numPrio)
    {i j prio : Nat} (jBound : j < sch.numPort) (above : prio < levels) :
    (afterLevels maxIterations speedup isIslipMode last sch).shadowQl (sch.qlIndex i j prio) =
      (afterLevels maxIterations speedup isIslipMode levels sch).shadowQl
        (sch.qlIndex i j prio) := by
  induction last, order using Nat.le_induction with
  | base => rfl
  | succ last order ih =>
      have frame := frame_afterLevels inRange maxIterations speedup isIslipMode
        (show last ≤ sch.numPrio by omega)
      have step := iterations_other speedup isIslipMode frame
        (show last < sch.numPrio by omega) maxIterations.toNat (i := i) jBound
        (show prio < sch.numPrio by omega) (show prio ≠ last by omega)
      exact step.trans (ih (by omega))

/-- The levels from `levels` on only add matches. -/
theorem schResult_afterLevels_grows (inRange : sch.InRange) (maxIterations speedup : Int)
    (isIslipMode : Bool) {levels last : Nat} (order : levels ≤ last)
    (within : last ≤ sch.numPrio) :
    (afterLevels maxIterations speedup isIslipMode levels sch).schResult <+:
      (afterLevels maxIterations speedup isIslipMode last sch).schResult := by
  induction last, order using Nat.le_induction with
  | base => exact List.prefix_rfl
  | succ last order ih =>
      have frame := frame_afterLevels inRange maxIterations speedup isIslipMode
        (show last ≤ sch.numPrio by omega)
      exact (ih (by omega)).trans
        (schResult_iterations_grows frame within speedup isIslipMode maxIterations.toNat)

/-- Scheduling is maximal at every level: with as many iterations as matches
fit into the switch, a cell left at a level means that the matches made down to
that level, which head the result, have used up the quota of its input or of
its output. -/
theorem islipSch_maximal (inRange : sch.InRange) (positive : 1 ≤ speedup)
    (enough : sch.numPort * speedup ≤ maxIterations) (isIslipMode : Bool) {prio i j : Nat}
    (prioBound : prio < sch.numPrio) (iBound : i < sch.numPort) (jBound : j < sch.numPort)
    (left : 0 < (sch.islipSch maxIterations speedup isIslipMode).shadowQl
      (sch.qlIndex i j prio)) :
    (afterLevels maxIterations speedup isIslipMode (prio + 1) sch).schResult <+:
        (sch.islipSch maxIterations speedup isIslipMode).schResult ∧
      ((((afterLevels maxIterations speedup isIslipMode (prio + 1) sch).schResult.map
          Prod.fst).count i : Int) = speedup ∨
        (((afterLevels maxIterations speedup isIslipMode (prio + 1) sch).schResult.map
          Prod.snd).count j : Int) = speedup) := by
  have later := afterLevels_later inRange maxIterations speedup isIslipMode (i := i)
    (show prio + 1 ≤ sch.numPrio from prioBound) le_rfl jBound prio.lt_succ_self
  have before := schInv_afterLevels inRange maxIterations (show 0 ≤ speedup by omega) isIslipMode
    (show prio ≤ sch.numPrio by omega)
  have after := schInv_afterLevels inRange maxIterations (show 0 ≤ speedup by omega) isIslipMode
    (show prio + 1 ≤ sch.numPrio by omega)
  have rounds : sch.numPort * speedup.toNat ≤ maxIterations.toNat := by
    have lifted : ((sch.numPort * speedup.toNat : Nat) : Int) = sch.numPort * speedup := by
      push_cast
      rw [Int.toNat_of_nonneg (by omega)]
    omega
  have idle : (afterLevels maxIterations speedup isIslipMode (prio + 1) sch).wanted
      speedup prio i j = false :=
    not_wanted_iterations before prioBound (by omega) rounds iBound jBound
  refine ⟨schResult_afterLevels_grows inRange maxIterations speedup isIslipMode
    (show prio + 1 ≤ sch.numPrio from prioBound) le_rfl, ?_⟩
  change 0 < (afterLevels maxIterations speedup isIslipMode sch.numPrio sch).shadowQl _ at left
  have index : (afterLevels maxIterations speedup isIslipMode (prio + 1) sch).qlIndex i j prio =
      sch.qlIndex i j prio := by
    rw [qlIndex, qlIndex, after.numPort_eq, after.numPrio_eq]
  rw [later, ← index] at left
  simp only [wanted, left, and_true, decide_eq_false_iff_not, not_and_or, not_lt,
    after.inputMatchCount_eq, after.outputMatchCount_eq] at idle
  rcases idle with input | output
  · exact Or.inl (le_antisymm (after.input_le i) input)
  · exact Or.inr (le_antisymm (after.output_le j) output)

/-- Two inputs that want the same output: the cell of the second is left. -/
theorem islipSch_maximal_two_ports :
    (afterLevels 2 1 true 1 (run 2 2 1 [.setQl 0 0 0, .setQl 1 0 0])).schResult <+:
        ((run 2 2 1 [.setQl 0 0 0, .setQl 1 0 0]).islipSch 2 1 true).schResult ∧
      ((((afterLevels 2 1 true 1 (run 2 2 1 [.setQl 0 0 0, .setQl 1 0 0])).schResult.map
          Prod.fst).count 1 : Int) = 1 ∨
        (((afterLevels 2 1 true 1 (run 2 2 1 [.setQl 0 0 0, .setQl 1 0 0])).schResult.map
          Prod.snd).count 0 : Int) = 1) :=
  @islipSch_maximal 2 1 (run 2 2 1 [.setQl 0 0 0, .setQl 1 0 0])
    (ready_run 2 2 1 [.setQl 0 0 0, .setQl 1 0 0]).inRange (by decide) (by decide) true 0 1 0
    (by decide) (by decide) (by decide) (by decide +kernel)

end Maximality

end SystemcTlm.Islip.PriorityIslip
