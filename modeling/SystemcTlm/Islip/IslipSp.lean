import SystemcTlm.Islip.RoundRobin
import SystemcTlm.Transition.Run

/-!
# `islip_sp`

The class with strict priorities.  A queue holds the cells of one pair by
level, level 0 being the highest.  An output looks for a free input level by
level, an input accepts without regard to levels, and the level that is sent is
read off the queue when the pair is committed.

Whenever a pair takes an output although another input holds a cell of a higher
level for it, that input is matched elsewhere: at the time of the grant it was
occupied, or the output would have chosen its level.
-/

namespace SystemcTlm.Islip

open SystemcTlm.Loop SystemcTlm.Matching SystemcTlm.Transition

/-- The members shared with the other classes.  A queue is a function of the
level, a result is an input, an output and a level. -/
abbrev SpArbiter :=
  VoqArbiter (Nat → Int) (Nat × Nat × Int)

/-- The members of `islip_sp`. -/
structure IslipSp extends SpArbiter where
  priorityLevels : Nat

namespace IslipSp

/-! ## The phases -/

/-- The first level of a queue with a cell. -/
def firstLevel (priorityLevels : Nat) (queue : Nat → Int) : Option Nat :=
  (List.range priorityLevels).find? fun p => decide (queue p > 0)

/-- The search of `do_grant`: level by level, the first input from the pointer
that is free and has a cell of the level. -/
def selectInput (priorityLevels : Nat) (inputNum _iterCnt _output start : Nat)
    (inputOccupied : Nat → Bool) (queue : Nat → Nat → Int) : Option Nat :=
  (List.range priorityLevels).findSome? fun p =>
    scan inputNum
      (fun input => if inputOccupied input then false else decide (queue input p > 0)) start

/-- The pointers move in `update_pointers`, in the first iteration.  The level
sent is the first one with a cell, `-1` if there is none. -/
def discipline (priorityLevels : Nat) : Discipline (Nat → Int) (Nat × Nat × Int) where
  selectInput := selectInput priorityLevels
  selectOutput := scanOutput
  movesOnGrant := false
  movesOnAccept := false
  movesOnCommit iterCnt := iterCnt == 0
  takeCell queue :=
    (firstLevel priorityLevels queue).elim queue fun p => Function.update queue p (queue p - 1)
  record input output queue :=
    (input, output, (firstLevel priorityLevels queue).elim (-1) fun p => (p : Int))

/-- The constructor, with the default of `priority_levels`. -/
def new (inputNum outputNum : Nat) (iterations voqSize : Int) (priorityLevels : Nat := 2) :
    IslipSp where
  toVoqArbiter := VoqArbiter.new (fun _ => 0) inputNum outputNum iterations voqSize
  priorityLevels := priorityLevels

/-- Only the upper end of the levels is checked: `none` is the access before
the first level that a negative one makes. -/
def request (input output : Int) (priority : Int := 0) (sp : IslipSp) : Option IslipSp :=
  if input < 0 ∨ sp.inputNum ≤ input ∨ output < 0 ∨ sp.outputNum ≤ output ∨
      sp.priorityLevels ≤ priority then
    some sp
  else if priority < 0 then none
  else if sp.voqSize ≤ sp.voq input.toNat output.toNat priority.toNat then some sp
  else
    some { sp with
      voq := update₂ sp.voq input.toNat output.toNat
        (Function.update (sp.voq input.toNat output.toNat) priority.toNat
          (sp.voq input.toNat output.toNat priority.toNat + 1)) }

/-- `do_grant` -/
def doGrant (priorityLevels : Nat) (arbiter : SpArbiter) : SpArbiter :=
  VoqArbiter.doGrant (discipline priorityLevels) arbiter

/-- `do_accept` -/
def doAccept (priorityLevels : Nat) (arbiter : SpArbiter) : SpArbiter :=
  VoqArbiter.doAccept (discipline priorityLevels) arbiter

/-- `update_pointers` -/
def updatePointers (priorityLevels : Nat) (arbiter : SpArbiter) : SpArbiter :=
  VoqArbiter.updatePointers (discipline priorityLevels) arbiter

/-- `arbitration` -/
def arbitration (sp : IslipSp) : IslipSp :=
  { sp with
    toVoqArbiter := VoqArbiter.arbitration (doGrant sp.priorityLevels)
      (doAccept sp.priorityLevels) (updatePointers sp.priorityLevels) sp.toVoqArbiter }

/-! ## Runs -/

/-- The public calls, with requests that stay inside the levels. -/
inductive Call
  | request (input output : Int) (priority : Nat)
  | arbitration
  deriving DecidableEq

/-- A request of a level that is not negative does not fail. -/
def call : Call → IslipSp → IslipSp
  | .request input output priority, sp => (sp.request input output priority).getD sp
  | .arbitration, sp => sp.arbitration

/-- The state after the calls, from construction. -/
def run (inputNum outputNum : Nat) (iterations voqSize : Int) (priorityLevels : Nat)
    (calls : List Call) : IslipSp :=
  runCalls call calls (new inputNum outputNum iterations voqSize priorityLevels)

theorem request_isSome (input output : Int) (priority : Nat) (sp : IslipSp) :
    (sp.request input output priority).isSome := by
  unfold request
  split_ifs with outside negative full
  · rfl
  · omega
  · rfl
  · rfl

/-! ## The levels of a queue -/

section Levels

variable {levels n : Nat} {queue : Nat → Int} {p : Nat}

/-- A queue waits if some level has a cell. -/
def Waiting (priorityLevels : Nat) (queue : Nat → Int) : Prop :=
  ∃ p, p < priorityLevels ∧ 0 < queue p

theorem firstLevel_eq_some_iff :
    firstLevel levels queue = some p ↔ p < levels ∧ 0 < queue p ∧ ∀ q, q < p → queue q ≤ 0 := by
  rw [firstLevel, List.find?_range_eq_some]
  simp only [gt_iff_lt, decide_eq_true_eq, List.mem_range, Bool.not_eq_true',
    decide_eq_false_iff_not, not_lt]
  tauto

theorem firstLevel_isSome (waits : Waiting levels queue) : (firstLevel levels queue).isSome := by
  rcases waits with ⟨p, bound, cell⟩
  rw [firstLevel, List.find?_isSome]
  exact ⟨p, List.mem_range.mpr bound, by simpa using cell⟩

/-- The level an output grants at: no free input has a cell of a level
above. -/
theorem selectInput_spec (iter output : Nat) {start : Nat} {occupied : Nat → Bool}
    {queues : Nat → Nat → Int} {input : Nat} (startBound : start < n)
    (found : selectInput levels n iter output start occupied queues = some input) :
    input < n ∧ occupied input = false ∧ ∃ p, p < levels ∧ 0 < queues input p ∧
      ∀ q, q < p → ∀ other, other < n → occupied other = false → queues other q ≤ 0 := by
  rcases findSome?_range_eq_some found with ⟨p, levelBound, hit, above⟩
  rcases (scan_eq_some_iff startBound).mp hit with ⟨bound, cell, _⟩
  split_ifs at cell with taken
  refine ⟨bound, by simpa using taken, p, levelBound, by simpa using cell, ?_⟩
  intro q less other otherBound free
  have empty := (scan_eq_none_iff startBound).mp (above q less) other otherBound
  rw [if_neg (by simp [free])] at empty
  simpa using empty

theorem discipline_lawful (levels : Nat) : (discipline levels).Lawful (Waiting levels) where
  selectInput_sound := by
    intro n iter output start occupied queue input startBound found
    rcases selectInput_spec iter output startBound found with ⟨bound, free, p, levelBound, cell, _⟩
    exact ⟨bound, free, p, levelBound, cell⟩
  selectInput_complete := by
    intro n iter output start occupied queue input startBound bound free waits
    rcases waits with ⟨p, levelBound, cell⟩
    change (selectInput levels n iter output start occupied queue).isSome
    rw [selectInput, List.findSome?_isSome_iff]
    refine ⟨p, List.mem_range.mpr levelBound, ?_⟩
    exact scan_isSome_of_hit _ startBound bound (by simpa [free] using cell)
  selectOutput_sound := @scanOutput_sound
  selectOutput_complete := @scanOutput_complete

end Levels

/-! ## One arbitration -/

/-- The pairs an arbitration schedules. -/
def scheduledPairs (sp : IslipSp) : List (Nat × Nat) :=
  VoqArbiter.slotPairs (discipline sp.priorityLevels) sp.iterations.toNat sp.toVoqArbiter

theorem slotInv {sp : IslipSp} (inRange : sp.InRange) :
    VoqArbiter.SlotInv (discipline sp.priorityLevels) (Waiting sp.priorityLevels)
      sp.toVoqArbiter sp.scheduledPairs sp.arbitration.toVoqArbiter :=
  VoqArbiter.slotInv_arbitration (discipline_lawful sp.priorityLevels) inRange

section Arbitration

variable {sp : IslipSp} (inRange : sp.InRange)

include inRange

/-- The entries of the result are the scheduled pairs with the first level of
their queues. -/
theorem mem_schResult_iff {input output : Nat} {level : Int} :
    (input, output, level) ∈ sp.arbitration.schResult ↔
      (input, output) ∈ sp.scheduledPairs ∧
        ∃ p : Nat, level = p ∧ firstLevel sp.priorityLevels (sp.voq input output) = some p := by
  have inv := slotInv inRange
  rw [inv.schResult_eq, List.mem_map]
  constructor
  · rintro ⟨⟨i, j⟩, member, same⟩
    obtain ⟨p, first⟩ := Option.isSome_iff_exists.mp
      (firstLevel_isSome (inv.scheduled _ member).2.2)
    have entry : VoqArbiter.recordOf (discipline sp.priorityLevels) sp.toVoqArbiter (i, j) =
        (i, j, ((firstLevel sp.priorityLevels (sp.voq i j)).elim (-1) fun p => (p : Int))) := rfl
    rw [entry, first, Option.elim_some] at same
    obtain ⟨rfl, rfl, rfl⟩ : i = input ∧ j = output ∧ (p : Int) = level := by
      simpa using same
    exact ⟨member, p, rfl, first⟩
  · rintro ⟨member, p, rfl, first⟩
    refine ⟨(input, output), member, ?_⟩
    change (input, output, _) = _
    rw [first]
    rfl

/-- A queue loses one cell of its first level if its pair is scheduled. -/
theorem arbitration_voq (input output p : Nat) :
    sp.arbitration.voq input output p = sp.voq input output p -
      if (input, output, (p : Int)) ∈ sp.arbitration.schResult then 1 else 0 := by
  have inv := slotInv inRange
  rw [inv.voq_eq]
  by_cases member : (input, output) ∈ sp.scheduledPairs
  · obtain ⟨q, first⟩ := Option.isSome_iff_exists.mp
      (firstLevel_isSome (inv.scheduled _ member).2.2)
    have taken : (discipline sp.priorityLevels).takeCell (sp.voq input output) =
        Function.update (sp.voq input output) q (sp.voq input output q - 1) := by
      change (firstLevel sp.priorityLevels (sp.voq input output)).elim _ _ = _
      rw [first]
      rfl
    have served : (input, output, (p : Int)) ∈ sp.arbitration.schResult ↔ p = q := by
      rw [mem_schResult_iff inRange]
      constructor
      · rintro ⟨_, p', same, first'⟩
        have equal := Option.some.inj (first.symm.trans first')
        omega
      · rintro rfl
        exact ⟨member, p, rfl, first⟩
    rw [if_pos member, taken, Function.update_apply]
    simp only [served]
    split_ifs with here
    · rw [here]
    · exact (Int.sub_zero _).symm
  · have unserved : (input, output, (p : Int)) ∉ sp.arbitration.schResult := by
      rw [mem_schResult_iff inRange]
      exact fun served => member served.1
    rw [if_neg member, if_neg unserved, Int.sub_zero]

/-- The ports of the result are the ports of the scheduled pairs. -/
theorem schResult_ports :
    sp.arbitration.schResult.map Prod.fst = sp.scheduledPairs.map Prod.fst ∧
      sp.arbitration.schResult.map (fun entry => entry.2.1) =
        sp.scheduledPairs.map Prod.snd := by
  rw [(slotInv inRange).schResult_eq, List.map_map, List.map_map]
  exact ⟨rfl, rfl⟩

/-- An input with a cell of a level above the one served is matched to another
output.  In the round that served the output, the output granted at a level not
above the one served, so every free input had no cell of a higher level. -/
theorem higher_level_matched {input output p : Nat}
    (served : (input, output) ∈ sp.scheduledPairs)
    (first : firstLevel sp.priorityLevels (sp.voq input output) = some p)
    {other q : Nat} (otherBound : other < sp.inputNum) (above : q < p)
    (cell : 0 < sp.voq other output q) :
    ∃ output', output' ≠ output ∧ (other, output') ∈ sp.scheduledPairs := by
  have lawful := discipline_lawful sp.priorityLevels
  rcases firstLevel_eq_some_iff.mp first with ⟨firstBound, _, firstLeast⟩
  rcases VoqArbiter.mem_slotPairs_iff.mp served with ⟨r, within, member⟩
  have inv := (VoqArbiter.slotInv_afterRounds lawful inRange r).setIterCnt r
  have accepts := VoqArbiter.mem_roundPairs_iff.mp member
  obtain ⟨inputBound, outputBound, inputFree, outputFree, _⟩ :=
    (VoqArbiter.roundOf lawful inv.inRange).accept_request accepts
  have granted : VoqArbiter.grantOf (discipline sp.priorityLevels) _ output = some input :=
    (VoqArbiter.roundOf lawful inv.inRange).accept_grant accepts
  rw [VoqArbiter.grantOf, if_pos ⟨outputBound, outputFree⟩] at granted
  obtain ⟨_, _, level, _, levelCell, noneAbove⟩ :=
    selectInput_spec r output (inv.inRange.gPtr_lt output outputBound) granted
  -- the pair was not scheduled before, so its queue is as it was
  have untouched := inv.voq_eq input output
  have fresh := inv.fresh lawful member
  rw [if_neg fun used => fresh.1 (List.mem_map_of_mem used)] at untouched
  have notAbove : p ≤ level := by
    by_contra less
    have empty := firstLeast level (by omega)
    rw [untouched] at levelCell
    omega
  by_cases occupied : other ∈
      (VoqArbiter.slotPairs (discipline sp.priorityLevels) r sp.toVoqArbiter).map Prod.fst
  · rcases List.mem_map.mp occupied with ⟨⟨i, output'⟩, earlier, rfl⟩
    refine ⟨output', ?_, (VoqArbiter.slotPairs_grow within.le).subset earlier⟩
    rintro rfl
    exact fresh.2.1 (List.mem_map.mpr ⟨_, earlier, rfl⟩)
  · have unoccupied := inv.inputOccupied_iff other
    have otherUntouched := inv.voq_eq other output
    rw [if_neg fun used => occupied (List.mem_map_of_mem used)] at otherUntouched
    have empty := noneAbove q (by omega) other (inv.inputNum_eq ▸ otherBound)
      (by rw [← Bool.not_eq_true, unoccupied]; exact occupied)
    rw [otherUntouched] at empty
    omega

end Arbitration

/-! ## Whole runs -/

/-- What holds between the calls: the sizes, pointers on ports, and queues that
are not negative and empty beyond the levels. -/
structure RunInv (inputNum outputNum : Nat) (iterations voqSize : Int) (priorityLevels : Nat)
    (sp : IslipSp) : Prop where
  inputNum_eq : sp.inputNum = inputNum
  outputNum_eq : sp.outputNum = outputNum
  iterations_eq : sp.iterations = iterations
  voqSize_eq : sp.voqSize = voqSize
  priorityLevels_eq : sp.priorityLevels = priorityLevels
  inRange : sp.InRange
  voq_nonneg : ∀ input output p, 0 ≤ sp.voq input output p
  voq_beyond : ∀ input output p, priorityLevels ≤ p → sp.voq input output p = 0

section Runs

variable {inputNum outputNum priorityLevels : Nat} {iterations voqSize : Int} {sp : IslipSp}

theorem runInv_new (iterations voqSize : Int) (priorityLevels : Nat) (inputs : 1 ≤ inputNum)
    (outputs : 1 ≤ outputNum) :
    RunInv inputNum outputNum iterations voqSize priorityLevels
      (new inputNum outputNum iterations voqSize priorityLevels) where
  inputNum_eq := rfl
  outputNum_eq := rfl
  iterations_eq := rfl
  voqSize_eq := rfl
  priorityLevels_eq := rfl
  inRange := ⟨fun _ _ => inputs, fun _ _ => outputs⟩
  voq_nonneg _ _ _ := le_rfl
  voq_beyond _ _ _ _ := rfl

/-- A request that does not fail puts one cell into the queue it names, or
changes nothing. -/
theorem request_cases {input output priority : Int} {next : IslipSp}
    (made : sp.request input output priority = some next) :
    next = sp ∨ ∃ i, i < sp.inputNum ∧ ∃ j, j < sp.outputNum ∧ ∃ p, p < sp.priorityLevels ∧
      input = i ∧ output = j ∧ priority = p ∧ sp.voq i j p < sp.voqSize ∧
      next = { sp with
        voq := update₂ sp.voq i j (Function.update (sp.voq i j) p (sp.voq i j p + 1)) } := by
  unfold request at made
  split_ifs at made with outside negative full
  · exact Or.inl (Option.some.inj made).symm
  · exact Or.inl (Option.some.inj made).symm
  · refine Or.inr ⟨input.toNat, by omega, output.toNat, by omega, priority.toNat, by omega,
      by omega, by omega, by omega, not_le.mp full, (Option.some.inj made).symm⟩

theorem RunInv.request {input output priority : Int} {next : IslipSp}
    (inv : RunInv inputNum outputNum iterations voqSize priorityLevels sp)
    (made : sp.request input output priority = some next) :
    RunInv inputNum outputNum iterations voqSize priorityLevels next := by
  obtain rfl | ⟨i, iBound, j, jBound, p, pBound, -, -, -, -, rfl⟩ := request_cases made
  · exact inv
  · have level := inv.priorityLevels_eq
    exact {
      inputNum_eq := inv.inputNum_eq
      outputNum_eq := inv.outputNum_eq
      iterations_eq := inv.iterations_eq
      voqSize_eq := inv.voqSize_eq
      priorityLevels_eq := inv.priorityLevels_eq
      inRange := ⟨inv.inRange.gPtr_lt, inv.inRange.aPtr_lt⟩
      voq_nonneg := by
        intro i' j' p'
        have old := inv.voq_nonneg i' j' p'
        simp only [update₂_apply]
        split_ifs with here
        · rcases here with ⟨rfl, rfl⟩
          rw [Function.update_apply]
          split_ifs with same
          · rw [same] at old
            omega
          · exact old
        · exact old
      voq_beyond := by
        intro i' j' p' beyond
        have old := inv.voq_beyond i' j' p' beyond
        simp only [update₂_apply]
        split_ifs with here
        · rcases here with ⟨rfl, rfl⟩
          rw [Function.update_of_ne (by omega)]
          exact old
        · exact old }

theorem RunInv.arbitration
    (inv : RunInv inputNum outputNum iterations voqSize priorityLevels sp) :
    RunInv inputNum outputNum iterations voqSize priorityLevels sp.arbitration := by
  have slot := slotInv inv.inRange
  exact {
    inputNum_eq := slot.inputNum_eq.trans inv.inputNum_eq
    outputNum_eq := slot.outputNum_eq.trans inv.outputNum_eq
    iterations_eq := slot.iterations_eq.trans inv.iterations_eq
    voqSize_eq := slot.voqSize_eq.trans inv.voqSize_eq
    priorityLevels_eq := inv.priorityLevels_eq
    inRange := slot.inRange
    voq_nonneg := by
      intro input output p
      have old := inv.voq_nonneg input output p
      rw [arbitration_voq inv.inRange]
      split_ifs with served
      · rcases (mem_schResult_iff inv.inRange).mp served with ⟨_, p', same, first⟩
        have cell := (firstLevel_eq_some_iff.mp first).2.1
        obtain rfl : p = p' := by omega
        omega
      · omega
    voq_beyond := by
      intro input output p beyond
      have old := inv.voq_beyond input output p beyond
      rw [arbitration_voq inv.inRange, if_neg, old, Int.sub_zero]
      intro served
      rcases (mem_schResult_iff inv.inRange).mp served with ⟨_, p', same, first⟩
      have level := (firstLevel_eq_some_iff.mp first).1
      rw [inv.priorityLevels_eq] at level
      omega }

theorem RunInv.call (inv : RunInv inputNum outputNum iterations voqSize priorityLevels sp)
    (next : Call) : RunInv inputNum outputNum iterations voqSize priorityLevels (call next sp) := by
  cases next with
  | request input output priority =>
      obtain ⟨after, made⟩ :=
        Option.isSome_iff_exists.mp (request_isSome input output priority sp)
      rw [IslipSp.call, made, Option.getD_some]
      exact inv.request made
  | arbitration => exact inv.arbitration

theorem runInv_run (iterations voqSize : Int) (priorityLevels : Nat) (inputs : 1 ≤ inputNum)
    (outputs : 1 ≤ outputNum) (calls : List Call) :
    RunInv inputNum outputNum iterations voqSize priorityLevels
      (run inputNum outputNum iterations voqSize priorityLevels calls) :=
  runCalls_invariant _ (runInv_new iterations voqSize priorityLevels inputs outputs)
    fun next _ inv => inv.call next

/-- Matching, accounting and strict priority, from every state the calls reach.
No port is matched twice.  Every entry of the result carries the first level at
which its queue had a cell, and the queues lose exactly these cells.  When an
output goes to a cell of level `p` although another input holds a cell of a
higher level for it, that input is matched to another output. -/
theorem arbitration_strict (iterations voqSize : Int) (priorityLevels : Nat)
    (inputs : 1 ≤ inputNum) (outputs : 1 ≤ outputNum) (calls : List Call) {sp : IslipSp}
    (reached : sp = run inputNum outputNum iterations voqSize priorityLevels calls) :
    (sp.arbitration.schResult.map Prod.fst).Nodup ∧
    (sp.arbitration.schResult.map fun entry => entry.2.1).Nodup ∧
    (∀ input output level, (input, output, level) ∈ sp.arbitration.schResult →
      input < inputNum ∧ output < outputNum ∧ ∃ p : Nat, level = p ∧ p < priorityLevels ∧
        0 < sp.voq input output p ∧ ∀ q, q < p → sp.voq input output q = 0) ∧
    (∀ input output p, sp.arbitration.voq input output p = sp.voq input output p -
      if (input, output, (p : Int)) ∈ sp.arbitration.schResult then 1 else 0) ∧
    ∀ input output, ∀ p : Nat, (input, output, (p : Int)) ∈ sp.arbitration.schResult →
      ∀ other, other < inputNum → other ≠ input → ∀ q, q < p → 0 < sp.voq other output q →
        ∃ output' level, output' ≠ output ∧
          (other, output', level) ∈ sp.arbitration.schResult := by
  have inv := runInv_run iterations voqSize priorityLevels inputs outputs calls
  rw [← reached] at inv
  have slot := slotInv inv.inRange
  rcases schResult_ports inv.inRange with ⟨inputPorts, outputPorts⟩
  refine ⟨?_, ?_, ?_, arbitration_voq inv.inRange, ?_⟩
  · rw [inputPorts]
    exact slot.isMatching.inputs_nodup
  · rw [outputPorts]
    exact slot.isMatching.outputs_nodup
  · intro input output level member
    rcases (mem_schResult_iff inv.inRange).mp member with ⟨scheduled, p, rfl, first⟩
    rcases firstLevel_eq_some_iff.mp first with ⟨levelBound, cell, above⟩
    rcases slot.scheduled _ scheduled with ⟨inputBound, outputBound, _⟩
    rw [inv.inputNum_eq] at inputBound
    rw [inv.outputNum_eq] at outputBound
    rw [inv.priorityLevels_eq] at levelBound
    refine ⟨inputBound, outputBound, p, rfl, levelBound, cell, fun q less => ?_⟩
    exact le_antisymm (above q less) (inv.voq_nonneg input output q)
  · intro input output p member other otherBound _ q above cell
    rcases (mem_schResult_iff inv.inRange).mp member with ⟨scheduled, p', same, first⟩
    obtain rfl : p = p' := by omega
    obtain ⟨output', different, matched⟩ := higher_level_matched inv.inRange scheduled first
      (inv.inputNum_eq.symm ▸ otherBound) above cell
    obtain ⟨level, first'⟩ := Option.isSome_iff_exists.mp
      (firstLevel_isSome (slot.scheduled _ matched).2.2)
    exact ⟨output', level, different,
      (mem_schResult_iff inv.inRange).mpr ⟨matched, level, rfl, first'⟩⟩

/-- Input 1 has moved its pointer to output 1, so output 0 goes to the low cell
of input 0 although input 1 holds a high one. -/
theorem arbitration_strict_two_ports :
    ∃ output' level, output' ≠ 0 ∧ (1, output', level) ∈
      (run 2 2 2 4 2 [.request 1 0 0, .arbitration, .request 0 0 1, .request 1 0 0,
        .request 1 1 0]).arbitration.schResult :=
  (arbitration_strict 2 4 2 (by decide) (by decide) [.request 1 0 0, .arbitration,
    .request 0 0 1, .request 1 0 0, .request 1 1 0] rfl).2.2.2.2 0 0 1 (by decide) 1 (by decide)
    (by decide) 0 (by decide) (by decide)

end Runs

end IslipSp

end SystemcTlm.Islip
