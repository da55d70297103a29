import SystemcTlm.Islip.Wrr
import SystemcTlm.Matching.Round

/-!
# The round of `islip_wrr`

An arbitration makes one round.  `grantOf` and `acceptOf` are its choices, and
`columnQuota` and `rowQuota` the quotas after `select_wrr_input` and
`select_wrr_output`.  Outputs read only their column and inputs only their row,
so each phase has one lemma that gives its state from the state it began in.
-/

namespace SystemcTlm.Islip.IslipWrr

open SystemcTlm.Loop SystemcTlm.Matching

/-- The state in which an iteration begins. -/
structure Fresh (sch : IslipWrr) : Prop where
  inputs_free : sch.inputOccupied = fun _ => false
  outputs_free : sch.outputOccupied = fun _ => false
  grants_clean : sch.grants = fun _ _ => 0
  accepts_clean : sch.accepts = fun _ _ => 0

theorem fresh_resetArbiter (sch : IslipWrr) : (resetArbiter sch).Fresh :=
  ⟨rfl, rfl, rfl, rfl⟩

/-- The state with other quotas. -/
def withQuota (sch : IslipWrr) (quota : Nat → Nat → Int) : IslipWrr :=
  { sch with currentQuota := quota }

theorem withQuota_congr (sch : IslipWrr) {first second : Nat → Nat → Int}
    (agree : ∀ i out, first i out = second i out) :
    sch.withQuota first = sch.withQuota second := by
  rw [show first = second from funext fun i => funext (agree i)]

theorem eq_withQuota {sch : IslipWrr} {quota : Nat → Nat → Int}
    (agree : ∀ i out, sch.currentQuota i out = quota i out) : sch = sch.withQuota quota :=
  withQuota_congr sch agree

/-! ## `select_wrr_input` -/

section Select

variable (sch : IslipWrr)

theorem leastUsedInput_spec {out i : Nat} (selected : sch.leastUsedInput out = some i) :
    i < sch.inputNum ∧ sch.voq i out ≠ 0 ∧ 0 < sch.currentQuota i out := by
  rcases (leastOf_spec _ _ _ _).attained i selected with ⟨member, eligible, _⟩
  simp only [Bool.not_or, Bool.and_eq_true, Bool.not_eq_true', decide_eq_true_eq,
    beq_eq_false_iff_ne] at eligible
  exact ⟨mem_cyclic.mp member, eligible.1.2, eligible.2⟩

theorem nextInput_spec {out i : Nat} (selected : sch.nextInput out = some i) :
    i < sch.inputNum ∧ 0 < sch.voq i out := by
  rcases firstFrom_spec selected with ⟨bound, hit⟩
  simp only [Bool.and_eq_true, decide_eq_true_eq] at hit
  exact ⟨bound, hit.2⟩

/-- Some input has a cell for the output. -/
def ColumnTraffic (k out : Nat) : Prop :=
  ∃ i, i < k ∧ 0 < sch.voq i out

theorem columnTraffic_succ (k out : Nat) :
    sch.ColumnTraffic (k + 1) out ↔ sch.ColumnTraffic k out ∨ 0 < sch.voq k out := by
  constructor
  · rintro ⟨i, less, waits⟩
    rcases Nat.lt_succ_iff_lt_or_eq.mp less with before | rfl
    · exact Or.inl ⟨i, before, waits⟩
    · exact Or.inr waits
  · rintro (⟨i, less, waits⟩ | waits)
    · exact ⟨i, Nat.lt_succ_of_lt less, waits⟩
    · exact ⟨k, k.lt_succ_self, waits⟩

/-- The quota of `(i, out)` after `select_wrr_input(out)`. -/
def columnQuota (i out : Nat) : Int :=
  if sch.leastUsedInput out = none ∧ i < sch.inputNum ∧ 0 < sch.voq i out then sch.weights i out
  else sch.currentQuota i out

theorem renewInput_withQuota (out i : Nat) (flag : Bool) (quota : Nat → Nat → Int) :
    renewInput out i (flag, sch.withQuota quota) =
      if 0 < sch.voq i out then (true, sch.withQuota (update₂ quota i out (sch.weights i out)))
      else (flag, sch.withQuota quota) :=
  rfl

theorem renewColumn_spec (out : Nat) :
    ((renewColumn out sch).1 = true ↔ sch.ColumnTraffic sch.inputNum out) ∧
      (renewColumn out sch).2 = sch.withQuota fun i j =>
        if j = out ∧ i < sch.inputNum ∧ 0 < sch.voq i out then sch.weights i j
        else sch.currentQuota i j := by
  apply forRange_induction
    (fun k (state : Bool × IslipWrr) => (state.1 = true ↔ sch.ColumnTraffic k out) ∧
      state.2 = sch.withQuota fun i j =>
        if j = out ∧ i < k ∧ 0 < sch.voq i out then sch.weights i j else sch.currentQuota i j)
    ⟨by simp [ColumnTraffic], eq_withQuota (by simp)⟩
  rintro k ⟨flag, _⟩ bound ⟨flagged, rfl⟩
  by_cases waits : 0 < sch.voq k out
  · rw [renewInput_withQuota, if_pos waits]
    refine ⟨by simp [columnTraffic_succ, waits], ?_⟩
    apply withQuota_congr sch
    intro i j
    by_cases here : i = k ∧ j = out
    · rcases here with ⟨rfl, rfl⟩
      simp [waits]
    · refine (update₂_of_ne here).trans (if_congr ?_ rfl rfl)
      refine and_congr_right fun column => and_congr_left fun _ => ?_
      have other : i ≠ k := fun row => here ⟨row, column⟩
      omega
  · rw [renewInput_withQuota, if_neg waits]
    refine ⟨by simpa [columnTraffic_succ, waits] using flagged, ?_⟩
    refine withQuota_congr sch fun i j => if_congr ?_ rfl rfl
    refine and_congr_right fun _ => and_congr_left fun full => ?_
    have other : i ≠ k := fun row => waits (row ▸ full)
    omega

/-- The selection, and the column it leaves. -/
theorem selectWrrInput_eq (out : Nat) :
    selectWrrInput out sch =
      ((sch.leastUsedInput out).or (sch.nextInput out),
        sch.withQuota fun i j =>
          if j = out then sch.columnQuota i j else sch.currentQuota i j) := by
  unfold selectWrrInput
  cases selected : sch.leastUsedInput out with
  | some i =>
      refine Prod.ext rfl (eq_withQuota fun i j => ?_)
      by_cases column : j = out
      · simp [column, columnQuota, selected]
      · simp [column]
  | none =>
      rcases sch.renewColumn_spec out with ⟨flag, renewed⟩
      refine Prod.ext ?_ ?_
      · change (if (renewColumn out sch).1 = true then (renewColumn out sch).2.nextInput out
          else none) = sch.nextInput out
        rw [renewed]
        split_ifs with traffic
        · rfl
        · refine (firstFrom_eq_none_iff.mpr fun i bound => ?_).symm
          have empty : ¬ 0 < sch.voq i out := fun waits =>
            traffic (flag.mpr ⟨i, bound, waits⟩)
          simp [empty]
      · refine renewed.trans (withQuota_congr sch fun i j => ?_)
        by_cases column : j = out
        · simp [column, columnQuota, selected]
        · simp [column]

/-! ## `select_wrr_output` -/

theorem leastUsedOutput_spec {i out : Nat} (selected : sch.leastUsedOutput i = some out) :
    out < sch.outputNum ∧ sch.voq i out ≠ 0 ∧ sch.grants out i = 1 ∧
      0 < sch.currentQuota i out := by
  rcases (leastOf_spec _ _ _ _).attained out selected with ⟨member, eligible, _⟩
  simp only [Bool.not_or, Bool.and_eq_true, Bool.not_eq_true', decide_eq_true_eq,
    beq_eq_false_iff_ne, bne_eq_false_iff_eq] at eligible
  exact ⟨mem_cyclic.mp member, eligible.1.1.2, eligible.1.2, eligible.2⟩

theorem nextOutput_spec {i out : Nat} (selected : sch.nextOutput i = some out) :
    out < sch.outputNum ∧ 0 < sch.voq i out ∧ sch.grants out i = 1 := by
  rcases firstFrom_spec selected with ⟨bound, hit⟩
  simp only [Bool.and_eq_true, decide_eq_true_eq, beq_iff_eq] at hit
  exact ⟨bound, hit.1.2, hit.2⟩

theorem hasTraffic_iff (i : Nat) :
    sch.hasTraffic i = true ↔
      ∃ out, out < sch.outputNum ∧ 0 < sch.voq i out ∧ sch.grants out i = 1 := by
  simp [hasTraffic]

/-- The quota of `(i, out)` after `select_wrr_output(i)`. -/
def rowQuota (i out : Nat) : Int :=
  if sch.leastUsedOutput i = none ∧ sch.hasTraffic i = true ∧ out < sch.outputNum then
    sch.weights i out
  else sch.currentQuota i out

theorem renewRow_eq (i : Nat) :
    renewRow i sch = sch.withQuota fun k out =>
      if k = i ∧ out < sch.outputNum then sch.weights k out else sch.currentQuota k out := by
  apply forRange_induction
    (fun l current => current = sch.withQuota fun k out =>
      if k = i ∧ out < l then sch.weights k out else sch.currentQuota k out)
    (eq_withQuota (by simp))
  rintro l _ bound rfl
  apply withQuota_congr sch
  intro k out
  by_cases here : k = i ∧ out = l
  · rcases here with ⟨rfl, rfl⟩
    simp [withQuota]
  · refine (update₂_of_ne here).trans (if_congr (and_congr_right fun row => ?_) rfl rfl)
    have other : out ≠ l := fun column => here ⟨row, column⟩
    omega

/-- The selection, and the row it leaves. -/
theorem selectWrrOutput_eq (i : Nat) :
    selectWrrOutput i sch =
      ((sch.leastUsedOutput i).or (sch.nextOutput i),
        sch.withQuota fun k out =>
          if k = i then sch.rowQuota k out else sch.currentQuota k out) := by
  unfold selectWrrOutput
  cases selected : sch.leastUsedOutput i with
  | some out =>
      refine Prod.ext rfl (eq_withQuota fun k out => ?_)
      by_cases row : k = i
      · simp [row, rowQuota, selected]
      · simp [row]
  | none =>
      simp only [renewRow_eq, Option.none_or]
      split_ifs with traffic
      · refine Prod.ext rfl (withQuota_congr sch fun k out => ?_)
        by_cases row : k = i
        · simp [row, rowQuota, selected, traffic]
        · simp [row]
      · refine Prod.ext ?_ (eq_withQuota fun k out => ?_)
        · refine (firstFrom_eq_none_iff.mpr fun out bound => ?_).symm
          rw [Bool.eq_false_iff]
          intro hit
          simp only [Bool.and_eq_true, decide_eq_true_eq, beq_iff_eq] at hit
          exact traffic ((sch.hasTraffic_iff i).mpr ⟨out, bound, hit.1.2, hit.2⟩)
        · by_cases row : k = i
          · simp [row, rowQuota, traffic]
          · simp [row]

end Select

/-! ## The phases -/

section Phases

variable (sch : IslipWrr)

/-- The input an output grants. -/
def grantOf (out : Nat) : Option Nat :=
  (sch.leastUsedInput out).or (sch.nextInput out)

/-- The state when the first `k` outputs have granted. -/
def granted (k : Nat) : IslipWrr :=
  { sch with
    grants := choiceMarks sch.grantOf k
    currentQuota := fun i out =>
      if out < k then sch.columnQuota i out else sch.currentQuota i out }

/-- An output reads its own column of quotas, which no earlier output has
changed. -/
theorem selectWrrInput_granted (k : Nat) :
    selectWrrInput k (sch.granted k) =
      (sch.grantOf k, (sch.granted k).withQuota (sch.granted (k + 1)).currentQuota) := by
  have least : (sch.granted k).leastUsedInput k = sch.leastUsedInput k := by
    simp only [leastUsedInput, ratio, granted, lt_irrefl, if_false]
  rw [selectWrrInput_eq, least]
  refine Prod.ext rfl (withQuota_congr _ fun i j => ?_)
  by_cases column : j = k
  · subst column
    simp only [if_true, columnQuota, least]
    simp only [granted, lt_irrefl, if_false, Nat.lt_succ_self, if_true, columnQuota]
  · simp only [if_neg column, granted]
    refine if_congr ?_ rfl rfl
    omega

/-- The output an input accepts, once every output has granted. -/
def acceptOf (i : Nat) : Option Nat :=
  ((sch.granted sch.outputNum).leastUsedOutput i).or ((sch.granted sch.outputNum).nextOutput i)

/-- The state when the first `k` inputs have accepted. -/
def accepted (k : Nat) : IslipWrr :=
  { sch.granted sch.outputNum with
    accepts := choiceMarks sch.acceptOf k
    currentQuota := fun i out =>
      if i < k then (sch.granted sch.outputNum).rowQuota i out
      else (sch.granted sch.outputNum).currentQuota i out }

/-- An input reads its own row of quotas, which no earlier input has
changed. -/
theorem selectWrrOutput_accepted (k : Nat) :
    selectWrrOutput k (sch.accepted k) =
      (sch.acceptOf k, (sch.accepted k).withQuota (sch.accepted (k + 1)).currentQuota) := by
  have least : (sch.accepted k).leastUsedOutput k =
      (sch.granted sch.outputNum).leastUsedOutput k := by
    simp only [leastUsedOutput, ratio, accepted, lt_irrefl, if_false]
  have traffic : (sch.accepted k).hasTraffic = (sch.granted sch.outputNum).hasTraffic := rfl
  rw [selectWrrOutput_eq, least]
  refine Prod.ext rfl (withQuota_congr _ fun i out => ?_)
  by_cases row : i = k
  · subst row
    simp only [if_true, rowQuota, least, traffic]
    simp only [accepted, lt_irrefl, if_false, Nat.lt_succ_self, if_true, rowQuota]
  · simp only [if_neg row, accepted]
    refine if_congr ?_ rfl rfl
    omega

theorem grantOf_spec {out i : Nat} (grants : sch.grantOf out = some i) :
    i < sch.inputNum ∧ sch.voq i out ≠ 0 := by
  rcases Option.or_eq_some_iff.mp grants with least | ⟨_, next⟩
  · have spec := sch.leastUsedInput_spec least
    exact ⟨spec.1, spec.2.1⟩
  · have spec := sch.nextInput_spec next
    exact ⟨spec.1, spec.2.ne'⟩

theorem acceptOf_spec {i out : Nat} (accepts : sch.acceptOf i = some out) :
    out < sch.outputNum ∧ sch.grantOf out = some i := by
  have marked : out < sch.outputNum ∧ (sch.granted sch.outputNum).grants out i = 1 := by
    rcases Option.or_eq_some_iff.mp accepts with least | ⟨_, next⟩
    · have spec := leastUsedOutput_spec _ least
      exact ⟨spec.1, spec.2.2.1⟩
    · have spec := nextOutput_spec _ next
      exact ⟨spec.1, spec.2.2⟩
  exact ⟨marked.1, (choiceMarks_eq_one_iff.mp marked.2).2⟩

section Fresh

variable {sch} (fresh : sch.Fresh)

include fresh

theorem granted_zero : sch = sch.granted 0 := by
  rcases fresh with ⟨_, _, grants, _⟩
  simp only [granted, choiceMarks_zero, Nat.not_lt_zero, if_false]
  rw [← grants]

theorem grantPhase_eq : grantPhase sch = sch.granted sch.outputNum := by
  apply forRange_induction (fun k current => current = sch.granted k) (granted_zero fresh)
  rintro k _ bound rfl
  have free : (sch.granted k).outputOccupied k = false := congrFun fresh.outputs_free k
  rw [grantOutput, free, if_neg Bool.false_ne_true, selectWrrInput_granted]
  cases grants : sch.grantOf k with
  | none => simp only [granted, withQuota, choiceMarks_succ_of_none grants]
  | some i => simp only [granted, withQuota, choiceMarks_succ_of_some grants]

theorem accepted_zero : sch.granted sch.outputNum = sch.accepted 0 := by
  rcases fresh with ⟨_, _, _, accepts⟩
  simp only [accepted, choiceMarks_zero, Nat.not_lt_zero, if_false]
  rw [← accepts]
  rfl

theorem acceptPhase_eq :
    acceptPhase (sch.granted sch.outputNum) = sch.accepted sch.inputNum := by
  apply forRange_induction (fun k current => current = sch.accepted k) (accepted_zero fresh)
  rintro k _ bound rfl
  have free : (sch.accepted k).inputOccupied k = false := congrFun fresh.inputs_free k
  rw [acceptInput, free, if_neg Bool.false_ne_true, selectWrrOutput_accepted]
  cases accepts : sch.acceptOf k with
  | none => simp only [accepted, withQuota, choiceMarks_succ_of_none accepts]
  | some out =>
      rcases sch.acceptOf_spec accepts with ⟨outBound, grants⟩
      have marked : (sch.accepted k).grants out k = 1 :=
        choiceMarks_eq_one_iff.mpr ⟨outBound, grants⟩
      simp only [withQuota, marked, if_true]
      simp only [accepted, choiceMarks_succ_of_some accepts]

end Fresh

/-- The state after the listed pairs have been committed. -/
def commitAll (pairs : List (Nat × Nat)) : IslipWrr :=
  { sch with
    voq := fun i out => sch.voq i out - pairs.count (i, out)
    currentQuota := fun i out => sch.currentQuota i out - pairs.count (i, out)
    inputOccupied := writeAll Prod.fst (fun _ => true) pairs sch.inputOccupied
    outputOccupied := writeAll Prod.snd (fun _ => true) pairs sch.outputOccupied
    schResult := sch.schResult ++ pairs
    gPtr := writeAll Prod.snd (fun pair => (pair.1 + 1) % sch.inputNum) pairs sch.gPtr
    aPtr := writeAll Prod.fst (fun pair => (pair.2 + 1) % sch.outputNum) pairs sch.aPtr }

theorem sub_count_concat (table : Nat → Nat → Int) (pairs : List (Nat × Nat)) (i out : Nat) :
    (fun k o => table k o - ((pairs ++ [(i, out)]).count (k, o) : Int)) =
      update₂ (fun k o => table k o - (pairs.count (k, o) : Int)) i out
        (table i out - (pairs.count (i, out) : Int) - 1) := by
  funext k o
  rw [List.count_append, List.count_singleton]
  by_cases here : k = i ∧ o = out
  · rcases here with ⟨rfl, rfl⟩
    simp
    omega
  · rw [update₂_of_ne here]
    have other : ((i, out) == (k, o)) = false := by
      simp only [beq_eq_false_iff_ne, ne_eq, Prod.mk.injEq]
      exact fun same => here ⟨same.1.symm, same.2.symm⟩
    simp [other]

theorem commitAll_concat (pairs : List (Nat × Nat)) (i out : Nat) :
    sch.commitAll (pairs ++ [(i, out)]) = commit i out (sch.commitAll pairs) := by
  simp only [commitAll, commit, sub_count_concat, writeAll_append, writeAll_cons, writeAll_nil,
    List.append_assoc]

/-- A row of acceptances has at most one mark. -/
theorem updatePhase_eq {choice : Nat → Option Nat}
    (marks : sch.accepts = choiceMarks choice sch.inputNum)
    (bound : ∀ i out, choice i = some out → out < sch.outputNum) :
    updatePhase sch = sch.commitAll (pairsOf choice (List.range sch.inputNum)) := by
  apply forRange_induction
    (fun k current => current = sch.commitAll (pairsOf choice (List.range k)))
    (by simp [commitAll, pairsOf])
  rintro k _ kBound rfl
  have cell : ∀ out pairs, updateCell k out (sch.commitAll pairs) =
      if choice k = some out then commit k out (sch.commitAll pairs) else sch.commitAll pairs := by
    intro out pairs
    refine if_congr ?_ rfl rfl
    change sch.accepts k out = 1 ↔ _
    rw [marks, choiceMarks_eq_one_iff]
    exact and_iff_right kBound
  rw [List.range_succ, pairsOf_append, pairsOf_singleton]
  apply forRange_choice (choice k)
  · intro rejects
    simp [rejects]
  · intro out accepts
    refine ⟨bound k out accepts, ?_⟩
    rw [cell, if_pos accepts, ← commitAll_concat, accepts]
    rfl
  · intro out _ other
    exact ⟨(cell out _).trans (if_neg other), (cell out _).trans (if_neg other)⟩

/-- The pairs a round schedules, by input. -/
def roundPairs : List (Nat × Nat) :=
  pairsOf sch.acceptOf (List.range sch.inputNum)

theorem iteration_eq {sch : IslipWrr} (fresh : sch.Fresh) :
    iteration sch =
      resetIteration ((sch.accepted sch.inputNum).commitAll sch.roundPairs) := by
  rw [iteration, grantPhase_eq fresh, acceptPhase_eq fresh]
  congr 1
  exact updatePhase_eq (sch.accepted sch.inputNum) rfl fun i out accepts =>
    (sch.acceptOf_spec accepts).1

/-! ## The arbitration -/

/-- The pairs the next arbitration schedules. -/
def scheduledPairs : List (Nat × Nat) :=
  (resetArbiter sch).roundPairs

variable {sch} (positive : 1 ≤ sch.iterations)

include positive

theorem arbitration_round :
    sch.arbitration =
      { resetIteration (((resetArbiter sch).accepted sch.inputNum).commitAll sch.scheduledPairs)
        with iterCnt := 1 } := by
  rw [arbitration_eq positive, iteration_eq (fresh_resetArbiter sch)]
  rfl

theorem arbitration_schResult : sch.arbitration.schResult = sch.scheduledPairs := by
  rw [arbitration_round positive]
  rfl

theorem arbitration_voq (i out : Nat) :
    sch.arbitration.voq i out = sch.voq i out - sch.scheduledPairs.count (i, out) := by
  rw [arbitration_round positive]
  rfl

theorem arbitration_currentQuota (i out : Nat) :
    sch.arbitration.currentQuota i out =
      ((resetArbiter sch).accepted sch.inputNum).currentQuota i out -
        sch.scheduledPairs.count (i, out) := by
  rw [arbitration_round positive]
  rfl

omit positive

theorem count_scheduledPairs {i : Nat} (bound : i < sch.inputNum) (out : Nat) :
    sch.scheduledPairs.count (i, out) =
      if (resetArbiter sch).acceptOf i = some out then 1 else 0 :=
  count_pairsOf _ List.nodup_range (List.mem_range.mpr bound) out

end Phases

end SystemcTlm.Islip.IslipWrr
