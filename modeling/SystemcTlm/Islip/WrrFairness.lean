import SystemcTlm.Islip.WrrRuns
import SystemcTlm.Fairness.Credits
import Mathlib.Algebra.Order.Field.Basic

/-!
# The weighted fairness of `islip_wrr`

With positive weights a granted pair has quota left, so that an input with a
grant accepts in its first round and `select_wrr_output` renews nothing.  What
is left is the renewal of a column by `select_wrr_input`, when no input with a
cell for the output has quota left.  For a group of inputs that always have
cells for an output the quotas of its column are therefore credits, and every
arbitration is a step of service by credits.
-/

namespace SystemcTlm.Islip.IslipWrr

open SystemcTlm.Loop SystemcTlm.Matching SystemcTlm.Transition SystemcTlm.Fairness

/-- A quota between one and the weight has a ratio below the initial
minimum. -/
theorem ratio_lt_maxRatio {sch : IslipWrr} {i out : Nat} (left : 0 < sch.currentQuota i out)
    (within : sch.currentQuota i out ≤ sch.weights i out) : sch.ratio i out < maxRatio := by
  have weightPos : (0 : ℚ) < sch.weights i out := by exact_mod_cast left.trans_le within
  have used : ((sch.weights i out - sch.currentQuota i out : Int) : ℚ) ≤ sch.weights i out := by
    exact_mod_cast (by omega : sch.weights i out - sch.currentQuota i out ≤ sch.weights i out)
  calc
    sch.ratio i out ≤ 1 := (div_le_one weightPos).mpr used
    _ < maxRatio := by norm_num [maxRatio]

theorem nonneg_of_positive {inputNum outputNum : Nat} {weights : Nat → Nat → Int}
    (positive : ∀ i, i < inputNum → ∀ out, out < outputNum → 1 ≤ weights i out) :
    ∀ i, i < inputNum → ∀ out, out < outputNum → 0 ≤ weights i out :=
  fun i iBound out outBound => (positive i iBound out outBound).trans' (by decide)

section Round

variable {inputNum outputNum : Nat} {iterations : Int} {weights : Nat → Nat → Int}
  {sch : IslipWrr} (fresh : sch.Fresh)
  (inv : RunInv inputNum outputNum iterations weights sch)

include inv in
theorem RunInv.quota_le_weights {i out : Nat} (iBound : i < sch.inputNum)
    (outBound : out < sch.outputNum) : sch.currentQuota i out ≤ sch.weights i out := by
  rw [inv.weights_eq]
  exact inv.quota_le i (inv.inputNum_eq ▸ iBound) out (inv.outputNum_eq ▸ outBound)

include fresh inv in
/-- The first round of `select_wrr_input` fails only on a column whose quotas
are used up. -/
theorem quota_eq_zero_of_leastUsedInput {i out : Nat} (iBound : i < sch.inputNum)
    (outBound : out < sch.outputNum) (nothing : sch.leastUsedInput out = none)
    (waits : 0 < sch.voq i out) : sch.currentQuota i out = 0 := by
  by_contra used
  have nonneg := inv.quota_nonneg i (inv.inputNum_eq ▸ iBound) out (inv.outputNum_eq ▸ outBound)
  have left : 0 < sch.currentQuota i out := lt_of_le_of_ne nonneg (Ne.symm used)
  have found : (sch.leastUsedInput out).isSome :=
    leastOf_isSome (mem_cyclic.mpr iBound) (by simp [fresh.inputs_free, waits.ne', left])
      (ratio_lt_maxRatio left (inv.quota_le_weights iBound outBound))
  rw [nothing] at found
  exact Bool.false_ne_true found

variable (positive : ∀ i, i < inputNum → ∀ out, out < outputNum → 1 ≤ weights i out)

include inv positive

/-- A granted pair has quota left. -/
theorem RunInv.columnQuota_pos {i out : Nat} (outBound : out < sch.outputNum)
    (grants : sch.grantOf out = some i) : 0 < sch.columnQuota i out := by
  unfold columnQuota
  rcases Option.or_eq_some_iff.mp grants with least | ⟨nothing, next⟩
  · rw [if_neg (by simp [least])]
    exact (sch.leastUsedInput_spec least).2.2
  · rcases sch.nextInput_spec next with ⟨iBound, waits⟩
    rw [if_pos ⟨nothing, iBound, waits⟩, inv.weights_eq]
    exact positive i (inv.inputNum_eq ▸ iBound) out (inv.outputNum_eq ▸ outBound)

include fresh

/-- `select_wrr_output` renews nothing. -/
theorem rowQuota_granted {i out : Nat} (iBound : i < sch.inputNum)
    (outBound : out < sch.outputNum) :
    (sch.granted sch.outputNum).rowQuota i out = sch.columnQuota i out := by
  have column : ∀ j, j < sch.outputNum →
      (sch.granted sch.outputNum).currentQuota i j = sch.columnQuota i j := fun j bound =>
    if_pos bound
  rw [rowQuota, if_neg, column out outBound]
  rintro ⟨nothing, traffic, _⟩
  rcases (hasTraffic_iff _ i).mp traffic with ⟨j, jBound, waits, marked⟩
  have grants := (choiceMarks_eq_one_iff.mp marked).2
  have left : 0 < (sch.granted sch.outputNum).currentQuota i j := by
    rw [column j jBound]
    exact inv.columnQuota_pos positive jBound grants
  have within : (sch.granted sch.outputNum).currentQuota i j ≤ sch.weights i j := by
    rw [column j jBound, inv.weights_eq]
    exact (inv.columnQuota_mem (nonneg_of_positive positive) (inv.inputNum_eq ▸ iBound)
      (inv.outputNum_eq ▸ jBound)).2
  have found : ((sch.granted sch.outputNum).leastUsedOutput i).isSome :=
    leastOf_isSome (mem_cyclic.mpr jBound)
      (by
        have free : (sch.granted sch.outputNum).outputOccupied j = false :=
          congrFun fresh.outputs_free j
        simp [free, waits.ne', marked, left])
      (ratio_lt_maxRatio left within)
  rw [nothing] at found
  exact Bool.false_ne_true found

end Round

/-! ## One call -/

section Call

variable {inputNum outputNum : Nat} {iterations : Int} {weights : Nat → Nat → Int}
  {sch : IslipWrr}

variable (inv : RunInv inputNum outputNum iterations weights sch) (iterate : 1 ≤ iterations)
  (positive : ∀ i, i < inputNum → ∀ out, out < outputNum → 1 ≤ weights i out)

include inv iterate positive

/-- The quota of a pair is what `select_wrr_input` left, less what the pair was
served. -/
theorem RunInv.arbitration_quota {i out : Nat} (iBound : i < sch.inputNum)
    (outBound : out < sch.outputNum) :
    sch.arbitration.currentQuota i out =
      (IslipWrr.resetArbiter sch).columnQuota i out - sch.scheduledPairs.count (i, out) := by
  rw [arbitration_currentQuota (inv.iterations_eq ▸ iterate)]
  congr 1
  exact (if_pos iBound).trans
    (rowQuota_granted (fresh_resetArbiter sch) inv.resetArbiter positive iBound outBound)

omit iterate in
/-- A scheduled pair had quota left. -/
theorem RunInv.count_le_columnQuota {i out : Nat} (iBound : i < sch.inputNum)
    (outBound : out < sch.outputNum) :
    (sch.scheduledPairs.count (i, out) : Int) ≤ (IslipWrr.resetArbiter sch).columnQuota i out := by
  rw [count_scheduledPairs iBound]
  split_ifs with accepts
  · have left := inv.resetArbiter.columnQuota_pos positive outBound
      ((IslipWrr.resetArbiter sch).acceptOf_spec accepts).2
    omega
  · exact (inv.resetArbiter.columnQuota_mem (nonneg_of_positive positive)
      (inv.inputNum_eq ▸ iBound) (inv.outputNum_eq ▸ outBound)).1

/-- For inputs that all have cells, an arbitration is a step of service by
credits. -/
theorem RunInv.creditStep {out : Nat} (outBound : out < outputNum) (group : Nat → Prop)
    (within : ∀ i, group i → i < inputNum) (waits : ∀ i, group i → 0 < sch.voq i out) :
    CreditStep (fun i : Subtype group => weights i out) (fun i => sch.currentQuota i out)
      (fun i => (sch.scheduledPairs.count (i.1, out) : Int))
      fun i => sch.arbitration.currentQuota i out := by
  have inputBound : ∀ i : Subtype group, i.1 < sch.inputNum := fun i =>
    inv.inputNum_eq.symm ▸ within i i.2
  have outputBound : out < sch.outputNum := inv.outputNum_eq.symm ▸ outBound
  have paid := fun i : Subtype group => inv.count_le_columnQuota positive (inputBound i) outputBound
  have quota := fun i : Subtype group =>
    inv.arbitration_quota iterate positive (inputBound i) outputBound
  cases selected : (IslipWrr.resetArbiter sch).leastUsedInput out with
  | some k =>
      have kept : ∀ i, (IslipWrr.resetArbiter sch).columnQuota i out = sch.currentQuota i out :=
        fun i => if_neg (by simp [selected])
      refine CreditStep.keep (fun _ => Int.natCast_nonneg _) (fun i => ?_) fun i => ?_
      · rw [← kept]
        exact paid i
      · rw [← kept]
        exact quota i
  | none =>
      have renewed : ∀ i : Subtype group,
          (IslipWrr.resetArbiter sch).columnQuota i out = weights i out := fun i => by
        rw [← inv.weights_eq]
        exact if_pos ⟨selected, inputBound i, waits i i.2⟩
      refine CreditStep.renew (fun i => ?_) (fun _ => Int.natCast_nonneg _) (fun i => ?_)
        fun i => ?_
      · exact quota_eq_zero_of_leastUsedInput (fresh_resetArbiter sch) inv.resetArbiter
          (inputBound i) outputBound selected (waits i i.2)
      · rw [← renewed]
        exact paid i
      · rw [← renewed]
        exact quota i

end Call

/-! ## Whole runs -/

section Run

variable {inputNum outputNum : Nat} {iterations : Int} {weights : Nat → Nat → Int}
  (iterate : 1 ≤ iterations)
  (positive : ∀ i, i < inputNum → ∀ out, out < outputNum → 1 ≤ weights i out)

include iterate positive

/-- The balance of a run from any state that satisfies the invariant. -/
theorem balanced_runCalls {start : IslipWrr}
    (inv : RunInv inputNum outputNum iterations weights start) {out : Nat}
    (outBound : out < outputNum) {inputs : Finset Nat} {calls : List Call}
    (backlogged : Backlogged inputs out calls start)
    {before : {i // i < inputNum ∧ i ∈ inputs} → Int}
    (balanced : Balanced (fun i => weights i.1 out) (fun i => start.currentQuota i.1 out) before) :
    Balanced (fun i : {i // i < inputNum ∧ i ∈ inputs} => weights i.1 out)
      (fun i => (runCalls call calls start).currentQuota i.1 out)
      fun i => before i + served calls start i.1 out := by
  induction calls generalizing start before with
  | nil => simpa [served] using balanced
  | cons next rest ih =>
      rcases backlogged with ⟨now, later⟩
      cases next with
      | request input output =>
          rcases request_frame input output start with ⟨voq, changed, _⟩
          have requested : RunInv inputNum outputNum iterations weights
              (call (.request input output) start) := inv.request input output
          have same : (call (.request input output) start).currentQuota = start.currentQuota := by
            rw [call, changed]
          rw [← same] at balanced
          simpa [served, schedules] using ih requested later balanced
      | arbitration =>
          have arbitrated : RunInv inputNum outputNum iterations weights
              (call .arbitration start) :=
            inv.arbitration (nonneg_of_positive positive) fun i iBound out outBound _ =>
              positive i iBound out outBound
          have step := inv.creditStep iterate positive outBound
            (fun i => i < inputNum ∧ i ∈ inputs) (fun i member => member.1)
            fun i member => (now rfl i (inv.inputNum_eq.symm ▸ member.1)).mpr member.2
          have rounds : 1 ≤ start.iterations := inv.iterations_eq ▸ iterate
          have after := ih arbitrated later (balanced.step step)
          simpa [served, schedules, arbitration_schResult rounds, add_assoc] using after

/-- Weighted fairness: while the inputs with cells for an output are always
those of one group, any two of them are served in proportion to their weights,
up to the product of the weights. -/
theorem weighted_fairness {out : Nat} (outBound : out < outputNum) (inputs : Finset Nat)
    (calls : List Call)
    (backlogged : Backlogged inputs out calls (new inputNum outputNum iterations weights)) :
    ∀ i ∈ inputs, i < inputNum → ∀ k ∈ inputs, k < inputNum →
      |(served calls (new inputNum outputNum iterations weights) i out : Int) * weights k out -
        served calls (new inputNum outputNum iterations weights) k out * weights i out| ≤
        weights i out * weights k out := by
  intro i iMem iBound k kMem kBound
  have initial : Balanced (fun i : {i // i < inputNum ∧ i ∈ inputs} => weights i.1 out)
      (fun i => weights i.1 out) fun _ => 0 :=
    balanced_start fun i => (positive i i.2.1 out outBound).trans' (by decide)
  have balanced := balanced_runCalls iterate positive
    (runInv_new (nonneg_of_positive positive)) outBound backlogged initial
  simpa using balanced.share ⟨i, iBound, iMem⟩ ⟨k, kBound, kMem⟩

end Run

/-- Weights 2 and 1, in three slots in which both inputs have cells. -/
theorem weighted_fairness_two_inputs :
    |(served [.request 0 0, .request 1 0, .arbitration, .request 0 0, .request 1 0, .arbitration,
          .request 0 0, .request 1 0, .arbitration]
        (new 2 1 2 fun i _ => if i = 0 then 2 else 1) 0 0 : Int) * 1 -
      served [.request 0 0, .request 1 0, .arbitration, .request 0 0, .request 1 0, .arbitration,
          .request 0 0, .request 1 0, .arbitration]
        (new 2 1 2 fun i _ => if i = 0 then 2 else 1) 1 0 * 2| ≤ 2 * 1 :=
  weighted_fairness (by decide) (by decide) (by decide) {0, 1} _ (by decide +kernel)
    0 (by decide) (by decide) 1 (by decide) (by decide)

end SystemcTlm.Islip.IslipWrr
