import SystemcTlm.Islip.PairAccounting

/-!
# `islip_threshold`

The class with critical queues.  An output looks first for a free input whose
queue has reached the threshold, and only then for one whose queue is not empty.
The first search does not ask whether there is a cell at all.  With a threshold
of zero or below every queue is critical, and cells are scheduled that do not
exist.
-/

namespace SystemcTlm.Islip

open SystemcTlm.Loop SystemcTlm.Matching SystemcTlm.Transition

/-- The members of `islip_threshold`. -/
structure IslipThreshold extends PairArbiter where
  threshold : Int

namespace IslipThreshold

/-! ## The phases -/

/-- The first scan of `do_grant`. -/
def scanCritical (threshold : Int) (inputNum start : Nat) (inputOccupied : Nat → Bool)
    (queue : Nat → Int) : Option Nat :=
  scan inputNum (fun input => !inputOccupied input && decide (queue input ≥ threshold)) start

/-- The second scan of `do_grant`. -/
def scanWaiting (inputNum start : Nat) (inputOccupied : Nat → Bool) (queue : Nat → Int) :
    Option Nat :=
  scan inputNum (fun input => !inputOccupied input && decide (queue input > 0)) start

/-- The two scans of an output: a queue at the threshold is preferred. -/
def selectInput (threshold : Int) (inputNum _iterCnt _output start : Nat)
    (inputOccupied : Nat → Bool) (queue : Nat → Int) : Option Nat :=
  match scanCritical threshold inputNum start inputOccupied queue with
  | some input => some input
  | none => scanWaiting inputNum start inputOccupied queue

/-- The pointers move in `update_pointers`, in the first iteration. -/
def discipline (threshold : Int) : Discipline Int (Nat × Nat) where
  selectInput := selectInput threshold
  selectOutput := scanOutput
  movesOnGrant := false
  movesOnAccept := false
  movesOnCommit iterCnt := iterCnt == 0
  takeCell queue := queue - 1
  record input output _ := (input, output)

/-- The constructor. -/
def new (inputNum outputNum : Nat) (iterations voqSize threshold : Int) : IslipThreshold where
  toVoqArbiter := VoqArbiter.new 0 inputNum outputNum iterations voqSize
  threshold := threshold

/-- `request` -/
def request (input output : Int) (sch : IslipThreshold) : IslipThreshold :=
  { sch with toVoqArbiter := VoqArbiter.request input output sch.toVoqArbiter }

/-- `do_grant` -/
def doGrant (threshold : Int) (arbiter : PairArbiter) : PairArbiter :=
  VoqArbiter.doGrant (discipline threshold) arbiter

/-- `do_accept` -/
def doAccept (threshold : Int) (arbiter : PairArbiter) : PairArbiter :=
  VoqArbiter.doAccept (discipline threshold) arbiter

/-- `update_pointers` -/
def updatePointers (threshold : Int) (arbiter : PairArbiter) : PairArbiter :=
  VoqArbiter.updatePointers (discipline threshold) arbiter

/-- `arbitration` -/
def arbitration (sch : IslipThreshold) : IslipThreshold :=
  { sch with
    toVoqArbiter := VoqArbiter.arbitration (doGrant sch.threshold) (doAccept sch.threshold)
      (updatePointers sch.threshold) sch.toVoqArbiter }

/-- One of the calls. -/
def call : PairCall → IslipThreshold → IslipThreshold
  | .request input output => request input output
  | .arbitration => arbitration

/-- The state after the calls, from construction. -/
def run (inputNum outputNum : Nat) (iterations voqSize threshold : Int) (calls : List PairCall) :
    IslipThreshold :=
  runCalls call calls (new inputNum outputNum iterations voqSize threshold)

/-! ## The search for an input -/

/-- What a grant asks of a queue. -/
def Waiting (threshold queue : Int) : Prop :=
  threshold ≤ queue ∨ 0 < queue

section Select

variable {threshold : Int} {n start input : Nat} {occupied : Nat → Bool} {queue : Nat → Int}
  (startBound : start < n)

include startBound

/-- A queue below the threshold is chosen only when no free input has a critical
one. -/
theorem selectInput_spec (iter output : Nat)
    (found : selectInput threshold n iter output start occupied queue = some input) :
    input < n ∧ occupied input = false ∧ Waiting threshold (queue input) ∧
      (queue input < threshold →
        ∀ other, other < n → occupied other = false → queue other < threshold) := by
  rw [selectInput] at found
  cases critical : scanCritical threshold n start occupied queue with
  | some first =>
      rw [critical] at found
      obtain rfl : first = input := by simpa using found
      rcases (scan_eq_some_iff startBound).mp critical with ⟨bound, hit, -⟩
      simp only [Bool.and_eq_true, Bool.not_eq_true', decide_eq_true_eq] at hit
      exact ⟨bound, hit.1, Or.inl hit.2, fun below => absurd hit.2 (by omega)⟩
  | none =>
      rw [critical] at found
      rcases (scan_eq_some_iff startBound).mp found with ⟨bound, hit, -⟩
      simp only [Bool.and_eq_true, Bool.not_eq_true', decide_eq_true_eq] at hit
      refine ⟨bound, hit.1, Or.inr hit.2, fun _ other otherBound free => ?_⟩
      have miss := (scan_eq_none_iff startBound).mp critical other otherBound
      simpa [free] using miss

theorem selectInput_isSome (iter output : Nat) (bound : input < n) (free : occupied input = false)
    (waits : Waiting threshold (queue input)) :
    (selectInput threshold n iter output start occupied queue).isSome := by
  rw [selectInput]
  cases critical : scanCritical threshold n start occupied queue with
  | some first => rfl
  | none =>
      have miss := (scan_eq_none_iff startBound).mp critical input bound
      have below : queue input < threshold := by simpa [free] using miss
      have cell : 0 < queue input := waits.resolve_left (by omega)
      exact scan_isSome_of_hit _ startBound bound (by simp [free, cell])

end Select

theorem discipline_lawful (threshold : Int) :
    (discipline threshold).Lawful (Waiting threshold) where
  selectInput_sound := by
    intro n iter output start occupied queue input startBound found
    rcases selectInput_spec startBound iter output found with ⟨bound, free, waits, -⟩
    exact ⟨bound, free, waits⟩
  selectInput_complete := by
    intro n iter output start occupied queue input startBound bound free waits
    exact selectInput_isSome startBound iter output bound free waits
  selectOutput_sound := @scanOutput_sound
  selectOutput_complete := @scanOutput_complete

/-! ## One arbitration -/

/-- The pairs an arbitration schedules. -/
def scheduledPairs (sch : IslipThreshold) : List (Nat × Nat) :=
  VoqArbiter.slotPairs (discipline sch.threshold) sch.iterations.toNat sch.toVoqArbiter

section Arbitration

variable {sch : IslipThreshold} (inRange : sch.InRange)

include inRange

theorem slotInv :
    VoqArbiter.SlotInv (discipline sch.threshold) (Waiting sch.threshold) sch.toVoqArbiter
      sch.scheduledPairs sch.arbitration.toVoqArbiter :=
  VoqArbiter.slotInv_arbitration (discipline_lawful sch.threshold) inRange

/-- `sch_result` is the list of scheduled pairs. -/
theorem schResult_eq : sch.arbitration.schResult = sch.scheduledPairs := by
  rw [(slotInv inRange).schResult_eq]
  exact List.map_id _

/-- In the round that gives an output to a queue below the threshold no free
input has a critical queue for the output. -/
theorem below_of_roundPairs {r input output : Nat}
    (member : (input, output) ∈ VoqArbiter.roundPairs (discipline sch.threshold)
      { VoqArbiter.afterRounds (discipline sch.threshold) r sch.toVoqArbiter with iterCnt := r })
    (below : sch.voq input output < sch.threshold) {other : Nat}
    (otherBound : other < sch.inputNum)
    (free : other ∉
      (VoqArbiter.slotPairs (discipline sch.threshold) r sch.toVoqArbiter).map Prod.fst) :
    sch.voq other output < sch.threshold := by
  have lawful := discipline_lawful sch.threshold
  have inv := (VoqArbiter.slotInv_afterRounds lawful inRange r).setIterCnt r
  have accepts := VoqArbiter.mem_roundPairs_iff.mp member
  obtain ⟨-, outputBound, -, outputFree, -⟩ :=
    (VoqArbiter.roundOf lawful inv.inRange).accept_request accepts
  have granted : VoqArbiter.grantOf (discipline sch.threshold) _ output = some input :=
    (VoqArbiter.roundOf lawful inv.inRange).accept_grant accepts
  rw [VoqArbiter.grantOf, if_pos ⟨outputBound, outputFree⟩] at granted
  obtain ⟨-, -, -, noneCritical⟩ :=
    selectInput_spec (inv.inRange.gPtr_lt output outputBound) r output granted
  -- queues of pairs that are not scheduled are as they were
  have untouched := inv.voq_eq input output
  have otherUntouched := inv.voq_eq other output
  rw [if_neg fun used => (inv.fresh lawful member).1 (List.mem_map_of_mem used)] at untouched
  rw [if_neg fun used => free (List.mem_map_of_mem used)] at otherUntouched
  have unoccupied := inv.inputOccupied_iff other
  rw [← otherUntouched]
  apply noneCritical (by rwa [untouched]) other (inv.inputNum_eq ▸ otherBound)
  rw [← Bool.not_eq_true, unoccupied]
  exact free

/-- An input with a critical queue for an output that goes to a queue below the
threshold is matched to another output. -/
theorem critical_matched {input output other : Nat}
    (served : (input, output) ∈ sch.scheduledPairs)
    (below : sch.voq input output < sch.threshold) (otherBound : other < sch.inputNum)
    (critical : sch.threshold ≤ sch.voq other output) :
    ∃ output', output' ≠ output ∧ (other, output') ∈ sch.scheduledPairs := by
  have lawful := discipline_lawful sch.threshold
  rcases VoqArbiter.mem_slotPairs_iff.mp served with ⟨r, within, member⟩
  have inv := (VoqArbiter.slotInv_afterRounds lawful inRange r).setIterCnt r
  by_cases occupied : other ∈
      (VoqArbiter.slotPairs (discipline sch.threshold) r sch.toVoqArbiter).map Prod.fst
  · rcases List.mem_map.mp occupied with ⟨⟨i, output'⟩, earlier, rfl⟩
    refine ⟨output', ?_, (VoqArbiter.slotPairs_grow within.le).subset earlier⟩
    rintro rfl
    exact (inv.fresh lawful member).2.1 (List.mem_map.mpr ⟨_, earlier, rfl⟩)
  · have free := below_of_roundPairs inRange member below otherBound occupied
    omega

end Arbitration

/-- Critical queues go first, whatever the queues hold: if an output goes to a
queue below the threshold, then every input with a critical queue for it is
matched to another output. -/
theorem critical_first {sch : IslipThreshold} (inRange : sch.InRange) {input output : Nat}
    (served : (input, output) ∈ sch.arbitration.schResult)
    (below : sch.voq input output < sch.threshold) {other : Nat}
    (otherBound : other < sch.inputNum) (critical : sch.threshold ≤ sch.voq other output) :
    ∃ output', output' ≠ output ∧ (other, output') ∈ sch.arbitration.schResult := by
  rw [schResult_eq inRange] at served ⊢
  exact critical_matched inRange served below otherBound critical

/-- Input 2 has three cells for either output and accepts output 1, so output 0
goes to the single cell of input 0. -/
theorem critical_first_three_inputs :
    ∃ output', output' ≠ 0 ∧ (2, output') ∈ (run 3 2 2 10 3 [.request 2 0, .arbitration,
      .request 0 0, .request 2 0, .request 2 0, .request 2 0, .request 2 1, .request 2 1,
      .request 2 1]).arbitration.schResult :=
  @critical_first _ ⟨by decide +kernel, by decide +kernel⟩ 0 0 (by decide +kernel)
    (by decide +kernel) 2 (by decide +kernel) (by decide +kernel)

/-! ## Whole runs -/

/-- Queues within their size, and an arbitration that schedules a matching of
waiting cells. -/
structure Safe (sch : IslipThreshold) : Prop where
  voq_nonneg : ∀ input output, 0 ≤ sch.voq input output
  voq_le : ∀ input output, sch.voq input output ≤ sch.voqSize
  isMatching : IsMatching sch.arbitration.schResult
  scheduled : ∀ pair ∈ sch.arbitration.schResult,
    pair.1 < sch.inputNum ∧ pair.2 < sch.outputNum ∧ 0 < sch.voq pair.1 pair.2

/-- What holds between the calls of a run. -/
structure RunInv (inputNum outputNum : Nat) (iterations voqSize threshold : Int)
    (sch : IslipThreshold) : Prop where
  arbiter : PairScheduler.RunInv inputNum outputNum iterations voqSize sch.toVoqArbiter
  threshold_eq : sch.threshold = threshold

section Runs

variable {inputNum outputNum : Nat} {iterations voqSize threshold : Int} {sch : IslipThreshold}

theorem runInv_new (iterations threshold : Int) (inputs : 1 ≤ inputNum) (outputs : 1 ≤ outputNum)
    (size : 0 ≤ voqSize) :
    RunInv inputNum outputNum iterations voqSize threshold
      (new inputNum outputNum iterations voqSize threshold) where
  arbiter := {
    inputNum_eq := rfl
    outputNum_eq := rfl
    iterations_eq := rfl
    voqSize_eq := rfl
    inRange := ⟨fun _ _ => inputs, fun _ _ => outputs⟩
    voq_nonneg := fun _ _ => le_rfl
    voq_le := fun _ _ => size }
  threshold_eq := rfl

/-- A queue that is granted holds a cell, unless an empty one is critical. -/
theorem cells_of_scheduled (inRange : sch.InRange)
    (guarded : 1 ≤ sch.threshold ∨ sch.iterations ≤ 0) :
    ∀ pair ∈ sch.scheduledPairs, 0 < sch.voq pair.1 pair.2 := by
  intro pair member
  rcases guarded with critical | idle
  · rcases ((slotInv inRange).scheduled pair member).2.2 with reached | cell
    · omega
    · exact cell
  · have empty : sch.scheduledPairs = [] := by
      rw [scheduledPairs, Int.toNat_of_nonpos idle]
      rfl
    rw [empty] at member
    cases member

theorem RunInv.arbitration (inv : RunInv inputNum outputNum iterations voqSize threshold sch)
    (guarded : 1 ≤ threshold ∨ iterations ≤ 0) :
    RunInv inputNum outputNum iterations voqSize threshold sch.arbitration := by
  have slot := slotInv inv.arbiter.inRange
  rw [← inv.threshold_eq, ← inv.arbiter.iterations_eq] at guarded
  have cells := cells_of_scheduled inv.arbiter.inRange guarded
  have queue : ∀ input output, sch.arbitration.voq input output =
      if (input, output) ∈ sch.scheduledPairs then sch.voq input output - 1
      else sch.voq input output := slot.voq_eq
  refine ⟨?_, inv.threshold_eq⟩
  exact {
    toSized := inv.arbiter.toSized.of_slotInv slot
    voq_nonneg := by
      intro input output
      have before := inv.arbiter.voq_nonneg input output
      rw [queue]
      split_ifs with member
      · have cell : 0 < sch.voq input output := cells _ member
        omega
      · exact before
    voq_le := by
      intro input output
      have before := inv.arbiter.voq_le input output
      rw [queue]
      split_ifs <;> omega }

theorem runInv_run (inputs : 1 ≤ inputNum) (outputs : 1 ≤ outputNum) (size : 0 ≤ voqSize)
    (guarded : 1 ≤ threshold ∨ iterations ≤ 0) (calls : List PairCall) :
    RunInv inputNum outputNum iterations voqSize threshold
      (run inputNum outputNum iterations voqSize threshold calls) := by
  apply runCalls_invariant _ (runInv_new iterations threshold inputs outputs size)
  intro next sch inv
  cases next with
  | request input output => exact ⟨inv.arbiter.request input output, inv.threshold_eq⟩
  | arbitration => exact inv.arbitration guarded

theorem RunInv.safe (inv : RunInv inputNum outputNum iterations voqSize threshold sch)
    (guarded : 1 ≤ threshold ∨ iterations ≤ 0) : sch.Safe where
  voq_nonneg := inv.arbiter.voq_nonneg
  voq_le input output := inv.arbiter.voqSize_eq.symm ▸ inv.arbiter.voq_le input output
  isMatching := by
    rw [schResult_eq inv.arbiter.inRange]
    exact (slotInv inv.arbiter.inRange).isMatching
  scheduled := by
    rw [schResult_eq inv.arbiter.inRange]
    intro pair member
    rw [← inv.threshold_eq, ← inv.arbiter.iterations_eq] at guarded
    rcases (slotInv inv.arbiter.inRange).scheduled pair member with ⟨inputBound, outputBound, -⟩
    exact ⟨inputBound, outputBound, cells_of_scheduled inv.arbiter.inRange guarded pair member⟩

/-- Where empty queues are critical, the first arbitration already schedules
one. -/
theorem not_safe_new (voqSize : Int) (inputs : 1 ≤ inputNum) (outputs : 1 ≤ outputNum)
    (empty : threshold ≤ 0) (iterate : 1 ≤ iterations) :
    ¬ (new inputNum outputNum iterations voqSize threshold).Safe := by
  intro safe
  have inRange : (new inputNum outputNum iterations voqSize threshold).InRange :=
    ⟨fun _ _ => inputs, fun _ _ => outputs⟩
  have lawful := discipline_lawful threshold
  have live : VoqArbiter.Live (Waiting threshold)
      (VoqArbiter.afterRounds (discipline threshold) 0
        (new inputNum outputNum iterations voqSize threshold).toVoqArbiter) 0 0 :=
    ⟨inputs, outputs, rfl, rfl, Or.inl empty⟩
  have first := VoqArbiter.slotPairs_length_lt lawful inRange live
  rcases List.exists_mem_of_length_pos (Nat.zero_lt_of_lt first) with ⟨pair, member⟩
  have rounds : 0 + 1 ≤ iterations.toNat := by omega
  have scheduled : pair ∈ (new inputNum outputNum iterations voqSize threshold).scheduledPairs :=
    (VoqArbiter.slotPairs_grow rounds).subset member
  rw [← schResult_eq inRange] at scheduled
  exact lt_irrefl 0 (safe.scheduled pair scheduled).2.2

end Runs

/-- All runs are safe if and only if an empty queue is not critical, or no
iteration is ever made. -/
theorem safe_throughout_iff {inputNum outputNum : Nat} {voqSize : Int} (iterations threshold : Int)
    (inputs : 1 ≤ inputNum) (outputs : 1 ≤ outputNum) (size : 0 ≤ voqSize) :
    (∀ calls, (run inputNum outputNum iterations voqSize threshold calls).Safe) ↔
      1 ≤ threshold ∨ iterations ≤ 0 := by
  constructor
  · intro throughout
    by_contra unguarded
    rw [not_or] at unguarded
    exact not_safe_new voqSize inputs outputs (by omega) (by omega) (throughout [])
  · intro guarded calls
    exact (runInv_run inputs outputs size guarded calls).safe guarded

/-- Three ports with the threshold of the tests. -/
theorem safe_throughout_iff_three_ports :
    (run 3 3 1 10 3 [.request 0 1, .request 2 1, .arbitration]).Safe :=
  (safe_throughout_iff 1 3 (show 1 ≤ 3 by decide) (show 1 ≤ 3 by decide)
    (show (0 : Int) ≤ 10 by decide)).mpr (Or.inl (by decide)) _

/-- With threshold 0 the first arbitration schedules a cell that does not exist,
and its queue holds one cell less than none. -/
theorem not_safe_threshold_zero :
    ¬ (run 2 2 1 4 0 []).Safe ∧ (0, 0) ∈ (run 2 2 1 4 0 []).arbitration.schResult ∧
      (run 2 2 1 4 0 [.arbitration]).voq 0 0 = -1 :=
  ⟨not_safe_new 4 (by decide) (by decide) (by decide) (by decide), by decide +kernel,
    by decide +kernel⟩

end IslipThreshold

end SystemcTlm.Islip
