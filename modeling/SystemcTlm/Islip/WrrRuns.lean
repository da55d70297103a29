import SystemcTlm.Islip.WrrRound

/-!
# Runs of `islip_wrr` with any weights

Both selections fall back on the first candidate with a cell.  So an output
grants and an input accepts whatever the quotas are, and the choices of an
arbitration are a `Round` whose requests are the queues that hold a cell.

An accepted pair has quota left, or its row has just been renewed.  A quota is
thus used up below zero by a pair of weight zero alone.
-/

namespace SystemcTlm.Islip.IslipWrr

open SystemcTlm.Loop SystemcTlm.Matching SystemcTlm.Transition

/-! ## The round -/

section Round

variable {sch : IslipWrr}

/-- An output grants an input that has a cell for it. -/
theorem waits_of_grantOf (cells : ∀ i, i < sch.inputNum → ∀ out, 0 ≤ sch.voq i out) {i out : Nat}
    (grants : (if out < sch.outputNum then sch.grantOf out else none) = some i) :
    (i < sch.inputNum ∧ out < sch.outputNum) ∧ 0 < sch.voq i out := by
  rw [Option.ite_none_right_eq_some] at grants
  rcases grants with ⟨outBound, grants⟩
  rcases sch.grantOf_spec grants with ⟨iBound, occupied⟩
  have nonneg := cells i iBound out
  exact ⟨⟨iBound, outBound⟩, by omega⟩

variable (fresh : sch.Fresh)

include fresh

/-- An output with a cell grants, whatever the quotas of its column. -/
theorem grantOf_isSome {i out : Nat} (iBound : i < sch.inputNum) (waits : 0 < sch.voq i out) :
    (sch.grantOf out).isSome := by
  have next : (sch.nextInput out).isSome := by
    by_contra nothing
    have miss := firstFrom_eq_none_iff.mp (Option.not_isSome_iff_eq_none.mp nothing) i iBound
    simp [fresh.inputs_free, waits] at miss
  rw [grantOf, Option.isSome_or, next, Bool.or_true]

/-- An input with a grant accepts, whatever the quotas of its row. -/
theorem acceptOf_isSome {i out : Nat} (outBound : out < sch.outputNum)
    (grants : sch.grantOf out = some i) (waits : 0 < sch.voq i out) :
    (sch.acceptOf i).isSome := by
  have marked : choiceMarks sch.grantOf sch.outputNum out i = 1 :=
    choiceMarks_eq_one_iff.mpr ⟨outBound, grants⟩
  have next : ((sch.granted sch.outputNum).nextOutput i).isSome := by
    by_contra nothing
    have miss := firstFrom_eq_none_iff.mp (Option.not_isSome_iff_eq_none.mp nothing) out outBound
    simp [granted, fresh.outputs_free, waits, marked] at miss
  rw [acceptOf, Option.isSome_or, next, Bool.or_true]

/-- The choices of an arbitration. -/
def roundOf (cells : ∀ i, i < sch.inputNum → ∀ out, 0 ≤ sch.voq i out) : Round Nat Nat where
  request i out := (i < sch.inputNum ∧ out < sch.outputNum) ∧ 0 < sch.voq i out
  grant out := if out < sch.outputNum then sch.grantOf out else none
  accept := sch.acceptOf
  grant_request := fun _ _ grants => waits_of_grantOf cells grants
  grant_isSome := by
    rintro i out ⟨⟨iBound, outBound⟩, waits⟩
    rw [if_pos outBound]
    exact grantOf_isSome fresh iBound waits
  accept_grant := by
    intro i out accepts
    rcases sch.acceptOf_spec accepts with ⟨outBound, grants⟩
    rw [if_pos outBound]
    exact grants
  accept_isSome := by
    intro i out grants
    rcases waits_of_grantOf cells grants with ⟨⟨iBound, outBound⟩, waits⟩
    rw [if_pos outBound] at grants
    exact acceptOf_isSome fresh outBound grants waits

end Round

/-- A pair that an input accepts has quota left, or the weight it was given
back. -/
theorem rowQuota_of_acceptOf (sch : IslipWrr) {i out : Nat} (accepts : sch.acceptOf i = some out) :
    0 < (sch.granted sch.outputNum).rowQuota i out ∨
      (sch.granted sch.outputNum).rowQuota i out = sch.weights i out := by
  rcases Option.or_eq_some_iff.mp accepts with least | ⟨nothing, next⟩
  · left
    rw [rowQuota, if_neg (by simp [least])]
    exact (leastUsedOutput_spec _ least).2.2.2
  · right
    rcases nextOutput_spec _ next with ⟨outBound, waits, marked⟩
    exact if_pos ⟨nothing, (hasTraffic_iff _ i).mpr ⟨out, outBound, waits, marked⟩, outBound⟩

/-- Without an iteration an arbitration only resets. -/
theorem arbitration_of_nonpos {sch : IslipWrr} (idle : sch.iterations ≤ 0) :
    sch.arbitration = resetArbiter sch := by
  have noIteration : (min sch.iterations 1).toNat = 0 := by omega
  rw [arbitration, noIteration]
  rfl

/-- The quota of a pair is what `select_wrr_output` left, less what the pair was
served. -/
theorem arbitration_rowQuota {sch : IslipWrr} (iterate : 1 ≤ sch.iterations) {i : Nat}
    (bound : i < sch.inputNum) (out : Nat) :
    sch.arbitration.currentQuota i out =
      ((IslipWrr.resetArbiter sch).granted sch.outputNum).rowQuota i out -
        sch.scheduledPairs.count (i, out) := by
  rw [arbitration_currentQuota iterate]
  congr 1
  exact if_pos bound

/-- The state after the calls, from construction. -/
def run (inputNum outputNum : Nat) (iterations : Int) (weights : Nat → Nat → Int)
    (calls : List Call) : IslipWrr :=
  runCalls call calls (new inputNum outputNum iterations weights)

/-! ## Cells -/

/-- The sizes and the weights are those of the construction, and no queue is
negative. -/
structure CellInv (inputNum outputNum : Nat) (iterations : Int) (weights : Nat → Nat → Int)
    (sch : IslipWrr) : Prop where
  inputNum_eq : sch.inputNum = inputNum
  outputNum_eq : sch.outputNum = outputNum
  iterations_eq : sch.iterations = iterations
  weights_eq : sch.weights = weights
  voq_nonneg : ∀ i, i < inputNum → ∀ out, 0 ≤ sch.voq i out

/-- An arbitration schedules a matching of queues with cells and takes one cell
of each, and it schedules something if there is a cell. -/
structure Accounted (inputNum outputNum : Nat) (iterations : Int) (sch : IslipWrr) : Prop where
  isMatching : IsMatching sch.arbitration.schResult
  scheduled : ∀ pair ∈ sch.arbitration.schResult,
    (pair.1 < inputNum ∧ pair.2 < outputNum) ∧ 0 < sch.voq pair.1 pair.2
  voq_eq : ∀ i out, sch.arbitration.voq i out =
    if (i, out) ∈ sch.arbitration.schResult then sch.voq i out - 1 else sch.voq i out
  busy : 1 ≤ iterations → ∀ i, i < inputNum → ∀ out, out < outputNum → 0 < sch.voq i out →
    sch.arbitration.schResult ≠ []

/-- A request changes one queue. -/
theorem request_frame (input output : Int) (sch : IslipWrr) :
    ∃ voq, request input output sch = { sch with voq := voq } ∧
      ∀ i out, sch.voq i out ≤ voq i out := by
  unfold request
  split_ifs
  · refine ⟨_, rfl, fun i out => ?_⟩
    rw [update₂_apply]
    split_ifs with here
    · rcases here with ⟨rfl, rfl⟩
      omega
    · exact le_rfl
  · exact ⟨sch.voq, rfl, fun _ _ => le_rfl⟩

section Cells

variable {inputNum outputNum : Nat} {iterations : Int} {weights : Nat → Nat → Int}
  {sch : IslipWrr}

theorem cellInv_new :
    CellInv inputNum outputNum iterations weights (new inputNum outputNum iterations weights) :=
  ⟨rfl, rfl, rfl, rfl, fun _ _ _ => le_rfl⟩

theorem CellInv.request (inv : CellInv inputNum outputNum iterations weights sch)
    (input output : Int) :
    CellInv inputNum outputNum iterations weights (IslipWrr.request input output sch) := by
  rcases request_frame input output sch with ⟨voq, changed, grows⟩
  rw [changed]
  exact { inv with
    voq_nonneg := fun i bound out => (inv.voq_nonneg i bound out).trans (grows i out) }

theorem CellInv.accounted (inv : CellInv inputNum outputNum iterations weights sch) :
    Accounted inputNum outputNum iterations sch := by
  rcases le_or_gt sch.iterations 0 with idle | busy
  · have same := arbitration_of_nonpos idle
    have empty : sch.arbitration.schResult = [] := congrArg schResult same
    refine ⟨empty ▸ IsMatching.nil, by simp [empty], fun i out => ?_, fun iterate => ?_⟩
    · rw [empty, if_neg List.not_mem_nil, same]
      rfl
    · have := inv.iterations_eq
      omega
  · have nonneg : ∀ i, i < sch.inputNum → ∀ out, 0 ≤ sch.voq i out := inv.inputNum_eq ▸
      inv.voq_nonneg
    let round := roundOf (fresh_resetArbiter sch) nonneg
    have isMatching : IsMatching sch.scheduledPairs :=
      pairsOf_isMatching round.matched List.nodup_range
    have result := arbitration_schResult busy
    have scheduled : ∀ pair ∈ sch.scheduledPairs,
        (pair.1 < inputNum ∧ pair.2 < outputNum) ∧ 0 < sch.voq pair.1 pair.2 := by
      rintro ⟨i, out⟩ member
      rw [← inv.inputNum_eq, ← inv.outputNum_eq]
      exact round.accept_request (mem_pairsOf_iff.mp member).2
    constructor
    · rwa [result]
    · rwa [result]
    · intro i out
      rw [arbitration_voq busy, result, isMatching.nodup.count]
      split_ifs <;> simp
    · intro _ i iBound out outBound waits
      rw [← inv.inputNum_eq] at iBound
      rw [← inv.outputNum_eq] at outBound
      rcases round.exists_accept ⟨⟨iBound, outBound⟩, waits⟩ with ⟨i', out', accepts⟩
      have i'Bound := (round.accept_request accepts).1.1
      rw [result]
      exact List.ne_nil_of_mem (mem_pairsOf_iff.mpr ⟨List.mem_range.mpr i'Bound, accepts⟩)

theorem CellInv.arbitration (inv : CellInv inputNum outputNum iterations weights sch) :
    CellInv inputNum outputNum iterations weights sch.arbitration := by
  have accounted := inv.accounted
  have frame : sch.arbitration.inputNum = sch.inputNum ∧
      sch.arbitration.outputNum = sch.outputNum ∧
      sch.arbitration.iterations = sch.iterations ∧ sch.arbitration.weights = sch.weights := by
    rcases le_or_gt sch.iterations 0 with idle | busy
    · rw [arbitration_of_nonpos idle]
      exact ⟨rfl, rfl, rfl, rfl⟩
    · rw [arbitration_round busy]
      simp only [resetIteration, commitAll, accepted, granted, resetArbiter, and_self]
  constructor
  · rw [frame.1, inv.inputNum_eq]
  · rw [frame.2.1, inv.outputNum_eq]
  · rw [frame.2.2.1, inv.iterations_eq]
  · rw [frame.2.2.2, inv.weights_eq]
  · intro i iBound out
    have before := inv.voq_nonneg i iBound out
    rw [accounted.voq_eq]
    split_ifs with member
    · have waits : 0 < sch.voq i out := (accounted.scheduled _ member).2
      omega
    · exact before

theorem cellInv_run (calls : List Call) :
    CellInv inputNum outputNum iterations weights
      (run inputNum outputNum iterations weights calls) := by
  apply runCalls_invariant _ cellInv_new
  intro next sch inv
  cases next with
  | request input output => exact inv.request input output
  | arbitration => exact inv.arbitration

end Cells

/-- In every run, with any weights, the next arbitration schedules a matching of
waiting cells, takes just these cells, and does not idle while one waits. -/
theorem accounted_run (inputNum outputNum : Nat) (iterations : Int) (weights : Nat → Nat → Int)
    (calls : List Call) :
    Accounted inputNum outputNum iterations
      (run inputNum outputNum iterations weights calls) :=
  (cellInv_run calls).accounted

/-! ## Quotas -/

/-- What holds between the calls of a run: the sizes and the weights are those
of the construction, no queue is negative, and the quotas lie between zero and
the weights. -/
structure RunInv (inputNum outputNum : Nat) (iterations : Int) (weights : Nat → Nat → Int)
    (sch : IslipWrr) : Prop where
  inputNum_eq : sch.inputNum = inputNum
  outputNum_eq : sch.outputNum = outputNum
  iterations_eq : sch.iterations = iterations
  weights_eq : sch.weights = weights
  voq_nonneg : ∀ i, i < inputNum → ∀ out, 0 ≤ sch.voq i out
  quota_nonneg : ∀ i, i < inputNum → ∀ out, out < outputNum → 0 ≤ sch.currentQuota i out
  quota_le : ∀ i, i < inputNum → ∀ out, out < outputNum →
    sch.currentQuota i out ≤ weights i out

section Quotas

variable {inputNum outputNum : Nat} {iterations : Int} {weights : Nat → Nat → Int}
  {sch : IslipWrr}

theorem RunInv.cellInv (inv : RunInv inputNum outputNum iterations weights sch) :
    CellInv inputNum outputNum iterations weights sch :=
  ⟨inv.inputNum_eq, inv.outputNum_eq, inv.iterations_eq, inv.weights_eq, inv.voq_nonneg⟩

/-- The invariant of the quotas, over that of the cells. -/
theorem CellInv.runInv (cells : CellInv inputNum outputNum iterations weights sch)
    (quotas : ∀ i, i < inputNum → ∀ out, out < outputNum →
      0 ≤ sch.currentQuota i out ∧ sch.currentQuota i out ≤ weights i out) :
    RunInv inputNum outputNum iterations weights sch where
  inputNum_eq := cells.inputNum_eq
  outputNum_eq := cells.outputNum_eq
  iterations_eq := cells.iterations_eq
  weights_eq := cells.weights_eq
  voq_nonneg := cells.voq_nonneg
  quota_nonneg i iBound out outBound := (quotas i iBound out outBound).1
  quota_le i iBound out outBound := (quotas i iBound out outBound).2

theorem RunInv.request (inv : RunInv inputNum outputNum iterations weights sch)
    (input output : Int) :
    RunInv inputNum outputNum iterations weights (IslipWrr.request input output sch) := by
  apply (inv.cellInv.request input output).runInv
  rcases request_frame input output sch with ⟨voq, changed, -⟩
  rw [changed]
  exact fun i iBound out outBound =>
    ⟨inv.quota_nonneg i iBound out outBound, inv.quota_le i iBound out outBound⟩

theorem RunInv.resetArbiter (inv : RunInv inputNum outputNum iterations weights sch) :
    RunInv inputNum outputNum iterations weights (resetArbiter sch) :=
  { inv with }

variable (nonneg : ∀ i, i < inputNum → ∀ out, out < outputNum → 0 ≤ weights i out)

include nonneg

theorem runInv_new :
    RunInv inputNum outputNum iterations weights
      (new inputNum outputNum iterations weights) :=
  cellInv_new.runInv fun i iBound out outBound => ⟨nonneg i iBound out outBound, le_rfl⟩

section Pair

variable (inv : RunInv inputNum outputNum iterations weights sch) {i out : Nat}
  (iBound : i < inputNum) (outBound : out < outputNum)

include inv iBound outBound

theorem RunInv.columnQuota_mem :
    0 ≤ sch.columnQuota i out ∧ sch.columnQuota i out ≤ weights i out := by
  have weightNonneg := nonneg i iBound out outBound
  have quotaNonneg := inv.quota_nonneg i iBound out outBound
  have within := inv.quota_le i iBound out outBound
  unfold columnQuota
  rw [inv.weights_eq]
  split_ifs
  · exact ⟨weightNonneg, le_rfl⟩
  · exact ⟨quotaNonneg, within⟩

theorem RunInv.rowQuota_mem :
    0 ≤ (sch.granted sch.outputNum).rowQuota i out ∧
      (sch.granted sch.outputNum).rowQuota i out ≤ weights i out := by
  have column : (sch.granted sch.outputNum).currentQuota i out = sch.columnQuota i out :=
    if_pos (inv.outputNum_eq.symm ▸ outBound)
  have weight : (sch.granted sch.outputNum).weights = weights := inv.weights_eq
  unfold rowQuota
  rw [column, weight]
  split_ifs
  · exact ⟨nonneg i iBound out outBound, le_rfl⟩
  · exact inv.columnQuota_mem nonneg iBound outBound

end Pair

variable (inv : RunInv inputNum outputNum iterations weights sch)
  (weighted : ∀ i, i < inputNum → ∀ out, out < outputNum → 0 < sch.voq i out → 0 < weights i out)

include inv weighted

/-- Where only pairs with a weight have cells, a scheduled pair had quota
left. -/
theorem RunInv.count_le_rowQuota {i out : Nat} (iBound : i < inputNum)
    (outBound : out < outputNum) :
    (sch.scheduledPairs.count (i, out) : Int) ≤
      ((IslipWrr.resetArbiter sch).granted sch.outputNum).rowQuota i out := by
  rw [count_scheduledPairs (inv.inputNum_eq.symm ▸ iBound)]
  split_ifs with accepts
  · have occupied := ((IslipWrr.resetArbiter sch).grantOf_spec
      ((IslipWrr.resetArbiter sch).acceptOf_spec accepts).2).2
    have waits : 0 < sch.voq i out :=
      lt_of_le_of_ne (inv.voq_nonneg i iBound out) (Ne.symm occupied)
    have weight := weighted i iBound out outBound waits
    rcases rowQuota_of_acceptOf _ accepts with left | renewed
    · exact left
    · exact weight.trans_eq (renewed.trans (congrFun₂ inv.weights_eq i out)).symm
  · exact (inv.resetArbiter.rowQuota_mem nonneg iBound outBound).1

theorem RunInv.quota_arbitration {i out : Nat} (iBound : i < inputNum)
    (outBound : out < outputNum) :
    0 ≤ sch.arbitration.currentQuota i out ∧
      sch.arbitration.currentQuota i out ≤ weights i out := by
  rcases le_or_gt sch.iterations 0 with idle | busy
  · rw [arbitration_of_nonpos idle]
    exact ⟨inv.quota_nonneg i iBound out outBound, inv.quota_le i iBound out outBound⟩
  · have taken := inv.count_le_rowQuota nonneg weighted iBound outBound
    have within : ((IslipWrr.resetArbiter sch).granted sch.outputNum).rowQuota i out ≤
        weights i out := (inv.resetArbiter.rowQuota_mem nonneg iBound outBound).2
    rw [arbitration_rowQuota busy (inv.inputNum_eq.symm ▸ iBound)]
    omega

theorem RunInv.arbitration : RunInv inputNum outputNum iterations weights sch.arbitration :=
  inv.cellInv.arbitration.runInv fun _ iBound _ outBound =>
    inv.quota_arbitration nonneg weighted iBound outBound

end Quotas

/-! ## Pairs of weight zero -/

/-- The invariant of a run that asks only for pairs with a weight. -/
structure WeightedInv (inputNum outputNum : Nat) (iterations : Int) (weights : Nat → Nat → Int)
    (sch : IslipWrr) : Prop where
  runInv : RunInv inputNum outputNum iterations weights sch
  weighted : ∀ i, i < inputNum → ∀ out, out < outputNum → 0 < sch.voq i out → 0 < weights i out

section Weighted

variable {inputNum outputNum : Nat} {iterations : Int} {weights : Nat → Nat → Int}
  {sch : IslipWrr}

/-- A queue that has grown was asked for. -/
theorem request_voq_pos {input output : Int} {i out : Nat}
    (waits : 0 < (request input output sch).voq i out) :
    0 < sch.voq i out ∨ input = i ∧ output = out := by
  unfold request at waits
  split_ifs at waits with accepted
  · change 0 < update₂ sch.voq input.toNat output.toNat _ i out at waits
    rw [update₂_apply] at waits
    split_ifs at waits with here
    · right
      omega
    · exact Or.inl waits
  · exact Or.inl waits

variable (nonneg : ∀ i, i < inputNum → ∀ out, out < outputNum → 0 ≤ weights i out)

include nonneg

theorem weightedInv_run {calls : List Call}
    (asked : ∀ i, i < inputNum → ∀ out, out < outputNum → Call.request i out ∈ calls →
      0 < weights i out) :
    WeightedInv inputNum outputNum iterations weights
      (run inputNum outputNum iterations weights calls) := by
  apply runCalls_prefix (fun _ => WeightedInv inputNum outputNum iterations weights)
  · refine ⟨runInv_new nonneg, fun i _ out _ waits => ?_⟩
    exact absurd waits (lt_irrefl 0)
  · rintro before next rest split ⟨inv, weighted⟩
    cases next with
    | request input output =>
        refine ⟨inv.request input output, fun i iBound out outBound waits => ?_⟩
        rcases request_voq_pos waits with before | ⟨rfl, rfl⟩
        · exact weighted i iBound out outBound before
        · exact asked i iBound out outBound (by simp [split])
    | arbitration =>
        refine ⟨inv.arbitration nonneg weighted, fun i iBound out outBound waits => ?_⟩
        apply weighted i iBound out outBound
        have taken := inv.cellInv.accounted.voq_eq i out
        change 0 < (runCalls call before _).arbitration.voq i out at waits
        rw [taken] at waits
        split_ifs at waits <;> omega

omit nonneg in
/-- Without an iteration the quotas are never touched. -/
theorem currentQuota_run_of_nonpos (idle : iterations ≤ 0) (calls : List Call) :
    (run inputNum outputNum iterations weights calls).currentQuota = weights := by
  apply runCalls_prefix (fun _ (sch : IslipWrr) => sch.currentQuota = weights) rfl
  intro before next _ _ kept
  cases next with
  | request input output =>
      rcases request_frame input output (runCalls call before _) with ⟨voq, changed, -⟩
      rw [call, changed]
      exact kept
  | arbitration =>
      have same : (runCalls call before
          (new inputNum outputNum iterations weights)).iterations = iterations :=
        (cellInv_run before).iterations_eq
      rw [call, arbitration_of_nonpos (same.trans_le idle)]
      exact kept

/-- The only cell there is is served, and takes quota that a pair of weight zero
does not have. -/
theorem quota_neg_of_weight_zero (iterate : 1 ≤ iterations) {i out : Nat} (iBound : i < inputNum)
    (outBound : out < outputNum) (zero : weights i out ≤ 0) :
    (run inputNum outputNum iterations weights [.request i out, .arbitration]).currentQuota i out <
      0 := by
  let sch := run inputNum outputNum iterations weights [.request i out]
  have inv : RunInv inputNum outputNum iterations weights sch := (runInv_new nonneg).request i out
  have accounted := inv.cellInv.accounted
  have waits : 0 < sch.voq i out := by
    simp [sch, run, call, request, new, iBound, outBound]
  -- the first scheduled pair is the one that was asked for
  have member : (i, out) ∈ sch.arbitration.schResult := by
    rcases List.exists_mem_of_ne_nil _ (accounted.busy iterate i iBound out outBound waits) with
      ⟨⟨i', out'⟩, member⟩
    rcases request_voq_pos (accounted.scheduled _ member).2 with before | ⟨row, column⟩
    · exact absurd before (lt_irrefl 0)
    · rwa [Int.natCast_inj.mp row, Int.natCast_inj.mp column]
  have rounds : 1 ≤ sch.iterations := inv.iterations_eq.symm ▸ iterate
  rw [arbitration_schResult rounds] at member
  have once : 0 < sch.scheduledPairs.count (i, out) := List.count_pos_iff.mpr member
  have within : ((resetArbiter sch).granted sch.outputNum).rowQuota i out ≤ weights i out :=
    (inv.resetArbiter.rowQuota_mem nonneg iBound outBound).2
  change sch.arbitration.currentQuota i out < 0
  rw [arbitration_rowQuota rounds (inv.inputNum_eq.symm ▸ iBound)]
  omega

end Weighted

/-- The quotas stay between zero and the weights in all runs that ask only for
the `asked` pairs, if and only if these have positive weights or no iteration is
ever made. -/
theorem quota_within_iff {inputNum outputNum : Nat} (iterations : Int)
    {weights : Nat → Nat → Int}
    (nonneg : ∀ i, i < inputNum → ∀ out, out < outputNum → 0 ≤ weights i out)
    (asked : Nat → Nat → Prop) :
    (∀ calls : List Call, (∀ i out : Nat, .request i out ∈ calls → asked i out) →
      ∀ i, i < inputNum → ∀ out, out < outputNum →
        0 ≤ (run inputNum outputNum iterations weights calls).currentQuota i out ∧
          (run inputNum outputNum iterations weights calls).currentQuota i out ≤ weights i out) ↔
      iterations ≤ 0 ∨
        ∀ i, i < inputNum → ∀ out, out < outputNum → asked i out → 0 < weights i out := by
  constructor
  · intro throughout
    rw [or_iff_not_imp_left]
    intro iterate i iBound out outBound wanted
    by_contra zero
    have negative := quota_neg_of_weight_zero nonneg (not_le.mp iterate) iBound outBound
      (not_lt.mp zero)
    have within := throughout [.request i out, .arbitration] (by
      intro i' out' member
      obtain ⟨rfl, rfl⟩ : i' = i ∧ out' = out := by simpa using member
      exact wanted) i iBound out outBound
    omega
  · rintro (idle | positive) calls within i iBound out outBound
    · rw [currentQuota_run_of_nonpos idle]
      exact ⟨nonneg i iBound out outBound, le_rfl⟩
    · have kept : WeightedInv inputNum outputNum iterations weights
          (run inputNum outputNum iterations weights calls) :=
        weightedInv_run nonneg fun i iBound out outBound member =>
          positive i iBound out outBound (within i out member)
      exact ⟨kept.runInv.quota_nonneg i iBound out outBound,
        kept.runInv.quota_le i iBound out outBound⟩

/-- Input 1 has no weight for output 0 and does not ask for it. -/
theorem quota_within_iff_two_inputs :
    0 ≤ (run 2 1 1 (fun i _ => if i = 0 then 2 else 0)
      [.request 0 0, .arbitration]).currentQuota 0 0 :=
  ((@quota_within_iff 2 1 1 (fun i _ => if i = 0 then 2 else 0) (by decide)
    fun i _ => i = 0).mpr
    (Or.inr (by decide)) _ (by simp) 0 (by decide) 0 (by decide)).1

/-- A single cell for a pair of weight zero takes a unit of quota that is not
there. -/
theorem not_quota_within_weight_zero :
    ¬ ∀ calls : List Call, 0 ≤ (run 1 1 1 (fun _ _ => 0) calls).currentQuota 0 0 ∧
      (run 1 1 1 (fun _ _ => 0) calls).currentQuota 0 0 ≤ 0 := by
  intro throughout
  have served := (throughout [.request 0 0, .arbitration]).1
  have negative :
      (run 1 1 1 (fun _ _ => 0) [.request 0 0, .arbitration]).currentQuota 0 0 = -1 := by
    decide +kernel
  omega

end SystemcTlm.Islip.IslipWrr
