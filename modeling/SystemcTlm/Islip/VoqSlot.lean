import SystemcTlm.Islip.VoqRound

/-!
# One arbitration

An arbitration runs its rounds from cleared flags.  `SlotInv` relates the state
during the loop to the state before it and to the pairs scheduled so far: they
are a matching, the flags mark exactly its ports, and each queue has lost a
cell exactly if its pair is scheduled.  The invariant holds after every number
of rounds, and after as many rounds as the smaller side has ports the matching
is maximal.
-/

namespace SystemcTlm.Islip.VoqArbiter

open SystemcTlm.Loop SystemcTlm.Matching

variable {Q R : Type}

/-- The state after the first `k` rounds of an arbitration. -/
def afterRounds (discipline : Discipline Q R) (k : Nat) (start : VoqArbiter Q R) :
    VoqArbiter Q R :=
  forRange k (fun iter current => iteration discipline { current with iterCnt := iter })
    (resetArbiter start)

/-- The pairs scheduled in the first `k` rounds. -/
def slotPairs (discipline : Discipline Q R) (k : Nat) (start : VoqArbiter Q R) :
    List (Nat × Nat) :=
  match k with
  | 0 => []
  | k + 1 => slotPairs discipline k start ++
      roundPairs discipline { afterRounds discipline k start with iterCnt := k }

/-- The arbitration of a class is its rounds, with the counter at its bound. -/
theorem arbitration_eq (discipline : Discipline Q R) (start : VoqArbiter Q R) :
    arbitration (doGrant discipline) (doAccept discipline) (updatePointers discipline) start =
      { afterRounds discipline start.iterations.toNat start with
        iterCnt := start.iterations.toNat } :=
  rfl

/-- The state during an arbitration that began in `start`, with `pairs`
scheduled so far. -/
structure SlotInv (discipline : Discipline Q R) (waiting : Q → Prop) (start : VoqArbiter Q R)
    (pairs : List (Nat × Nat)) (current : VoqArbiter Q R) : Prop where
  inputNum_eq : current.inputNum = start.inputNum
  outputNum_eq : current.outputNum = start.outputNum
  voqSize_eq : current.voqSize = start.voqSize
  iterations_eq : current.iterations = start.iterations
  inRange : current.InRange
  noGrants : current.grants = fun _ _ => 0
  noAccepts : current.accepts = fun _ _ => 0
  isMatching : IsMatching pairs
  inputOccupied_iff : ∀ input,
    current.inputOccupied input = true ↔ input ∈ pairs.map Prod.fst
  outputOccupied_iff : ∀ output,
    current.outputOccupied output = true ↔ output ∈ pairs.map Prod.snd
  scheduled : ∀ pair ∈ pairs, pair.1 < start.inputNum ∧ pair.2 < start.outputNum ∧
    waiting (start.voq pair.1 pair.2)
  voq_eq : ∀ input output, current.voq input output =
    if (input, output) ∈ pairs then discipline.takeCell (start.voq input output)
    else start.voq input output
  schResult_eq : current.schResult = pairs.map (recordOf discipline start)

section Slot

variable {discipline : Discipline Q R} {waiting : Q → Prop} {start current : VoqArbiter Q R}
  {pairs : List (Nat × Nat)}

theorem SlotInv.reset (inRange : start.InRange) :
    SlotInv discipline waiting start [] (resetArbiter start) where
  inputNum_eq := rfl
  outputNum_eq := rfl
  voqSize_eq := rfl
  iterations_eq := rfl
  inRange := ⟨inRange.gPtr_lt, inRange.aPtr_lt⟩
  noGrants := rfl
  noAccepts := rfl
  isMatching := IsMatching.nil
  inputOccupied_iff := by simp [resetArbiter]
  outputOccupied_iff := by simp [resetArbiter]
  scheduled := by simp
  voq_eq := by simp [resetArbiter]
  schResult_eq := rfl

/-- The counter is no part of the invariant. -/
theorem SlotInv.setIterCnt (inv : SlotInv discipline waiting start pairs current) (iter : Nat) :
    SlotInv discipline waiting start pairs { current with iterCnt := iter } :=
  { inv with inRange := ⟨inv.inRange.gPtr_lt, inv.inRange.aPtr_lt⟩ }

theorem mem_roundPairs_iff {input output : Nat} :
    (input, output) ∈ roundPairs discipline current ↔
      acceptOf discipline current input = some output := by
  rw [roundPairs, mem_pairsOf_iff, List.mem_range]
  exact ⟨fun member => member.2, fun accepts =>
    ⟨acceptOf_lt_inputNum discipline current accepts, accepts⟩⟩

theorem winnerOf_eq_some_iff (lawful : discipline.Lawful waiting) (inRange : current.InRange)
    {input output : Nat} :
    winnerOf discipline current output = some input ↔
      acceptOf discipline current input = some output :=
  (roundOf lawful inRange).matched.eq_some_iff

theorem applyRound_inRange (inRange : current.InRange) :
    (applyRound discipline current).InRange where
  gPtr_lt output bound := by
    have before := inRange.gPtr_lt output bound
    have granted : gPtrGranted discipline current output < current.inputNum := by
      unfold gPtrGranted
      split_ifs
      · exact advance_lt before _
      · exact before
    simp only [applyRound]
    split_ifs
    · exact advance_lt granted _
    · exact granted
  aPtr_lt input bound := by
    have before := inRange.aPtr_lt input bound
    have accepted : aPtrAccepted discipline current input < current.outputNum := by
      unfold aPtrAccepted
      split_ifs
      · exact advance_lt before _
      · exact before
    simp only [applyRound]
    split_ifs
    · exact advance_lt accepted _
    · exact accepted

/-- A pair scheduled by a round joins free ports with a cell that waited when
the arbitration began. -/
theorem SlotInv.fresh (inv : SlotInv discipline waiting start pairs current)
    (lawful : discipline.Lawful waiting) {pair : Nat × Nat}
    (member : pair ∈ roundPairs discipline current) :
    pair.1 ∉ pairs.map Prod.fst ∧ pair.2 ∉ pairs.map Prod.snd ∧
      pair.1 < start.inputNum ∧ pair.2 < start.outputNum ∧
      waiting (start.voq pair.1 pair.2) := by
  obtain ⟨inputBound, outputBound, inputFree, outputFree, waits⟩ :=
    (roundOf lawful inv.inRange).accept_request (mem_roundPairs_iff.mp member)
  have newInput : pair.1 ∉ pairs.map Prod.fst := fun used => by
    simp [(inv.inputOccupied_iff pair.1).mpr used] at inputFree
  have newOutput : pair.2 ∉ pairs.map Prod.snd := fun used => by
    simp [(inv.outputOccupied_iff pair.2).mpr used] at outputFree
  have newPair : pair ∉ pairs := fun used => newInput (List.mem_map_of_mem used)
  rw [inv.voq_eq, if_neg newPair] at waits
  rw [inv.inputNum_eq] at inputBound
  rw [inv.outputNum_eq] at outputBound
  exact ⟨newInput, newOutput, inputBound, outputBound, waits⟩

/-- One round extends the matching by its pairs. -/
theorem SlotInv.round (inv : SlotInv discipline waiting start pairs current)
    (lawful : discipline.Lawful waiting) :
    SlotInv discipline waiting start (pairs ++ roundPairs discipline current)
      (iteration discipline current) := by
  rw [iteration_eq lawful inv.inRange inv.noGrants inv.noAccepts]
  have fresh : ∀ pair ∈ roundPairs discipline current, _ := fun pair => inv.fresh lawful
  exact {
    inputNum_eq := inv.inputNum_eq
    outputNum_eq := inv.outputNum_eq
    voqSize_eq := inv.voqSize_eq
    iterations_eq := inv.iterations_eq
    inRange := applyRound_inRange inv.inRange
    noGrants := rfl
    noAccepts := rfl
    isMatching := inv.isMatching.append
      (pairsOf_isMatching (roundOf lawful inv.inRange).matched List.nodup_range)
      (fun pair member => (fresh pair member).1) (fun pair member => (fresh pair member).2.1)
    inputOccupied_iff := by
      intro input
      have matched : input ∈ (roundPairs discipline current).map Prod.fst ↔
          (acceptOf discipline current input).isSome := by
        rw [Option.isSome_iff_exists]
        simp [← mem_roundPairs_iff]
      rw [List.map_append, List.mem_append, ← inv.inputOccupied_iff, matched]
      simp [applyRound]
    outputOccupied_iff := by
      intro output
      have matched : output ∈ (roundPairs discipline current).map Prod.snd ↔
          (winnerOf discipline current output).isSome := by
        rw [Option.isSome_iff_exists]
        simp [winnerOf_eq_some_iff lawful inv.inRange, ← mem_roundPairs_iff]
      rw [List.map_append, List.mem_append, ← inv.outputOccupied_iff, matched]
      simp [applyRound]
    scheduled := by
      intro pair member
      rcases List.mem_append.mp member with old | new
      · exact inv.scheduled pair old
      · exact (fresh pair new).2.2
    voq_eq := by
      intro input output
      simp only [applyRound, List.mem_append, ← mem_roundPairs_iff]
      by_cases new : (input, output) ∈ roundPairs discipline current
      · have old : (input, output) ∉ pairs := fun used =>
          (fresh _ new).1 (List.mem_map_of_mem used)
        simp [new, old, inv.voq_eq]
      · simp [new, inv.voq_eq]
    schResult_eq := by
      simp only [applyRound, List.map_append, inv.schResult_eq]
      congr 1
      apply List.map_congr_left
      intro pair member
      have old : pair ∉ pairs := fun used =>
        (fresh pair member).1 (List.mem_map_of_mem used)
      simp [recordOf, inv.voq_eq, old] }

/-- The invariant holds after every number of rounds. -/
theorem slotInv_afterRounds (lawful : discipline.Lawful waiting) (inRange : start.InRange)
    (k : Nat) :
    SlotInv discipline waiting start (slotPairs discipline k start)
      (afterRounds discipline k start) := by
  induction k with
  | zero => exact SlotInv.reset inRange
  | succ k ih => exact (ih.setIterCnt k).round lawful

/-- What the first rounds schedule stays scheduled. -/
theorem slotPairs_grow {j k : Nat} (less : j ≤ k) :
    slotPairs discipline j start <+: slotPairs discipline k start := by
  induction k with
  | zero =>
      obtain rfl : j = 0 := by omega
      exact List.prefix_rfl
  | succ k ih =>
      by_cases last : j = k + 1
      · rw [last]
      · exact (ih (by omega)).trans (List.prefix_append _ _)

/-- A scheduled pair was scheduled by one of the rounds. -/
theorem mem_slotPairs_iff {k : Nat} {pair : Nat × Nat} :
    pair ∈ slotPairs discipline k start ↔
      ∃ r, r < k ∧
        pair ∈ roundPairs discipline { afterRounds discipline r start with iterCnt := r } := by
  induction k with
  | zero => simp [slotPairs]
  | succ k ih =>
      rw [slotPairs, List.mem_append, ih]
      constructor
      · rintro (⟨r, before, member⟩ | last)
        · exact ⟨r, by omega, member⟩
        · exact ⟨k, by omega, last⟩
      · rintro ⟨r, within, member⟩
        rcases Nat.lt_succ_iff_lt_or_eq.mp within with before | rfl
        · exact Or.inl ⟨r, before, member⟩
        · exact Or.inr member

/-- One more round carries out the choices made in the state before it. -/
theorem afterRounds_succ (lawful : discipline.Lawful waiting) (inRange : start.InRange)
    (k : Nat) :
    afterRounds discipline (k + 1) start =
      applyRound discipline { afterRounds discipline k start with iterCnt := k } := by
  have inv := (slotInv_afterRounds lawful inRange k).setIterCnt k
  exact iteration_eq lawful inv.inRange inv.noGrants inv.noAccepts

/-- An arbitration ends in the invariant. -/
theorem slotInv_arbitration (lawful : discipline.Lawful waiting) (inRange : start.InRange) :
    SlotInv discipline waiting start (slotPairs discipline start.iterations.toNat start)
      (arbitration (doGrant discipline) (doAccept discipline) (updatePointers discipline)
        start) := by
  rw [arbitration_eq]
  exact (slotInv_afterRounds lawful inRange _).setIterCnt _

/-! ## Maximality -/

theorem slotPairs_length_le (lawful : discipline.Lawful waiting) (inRange : start.InRange)
    (k : Nat) : (slotPairs discipline k start).length ≤ min start.inputNum start.outputNum := by
  have inv := slotInv_afterRounds lawful inRange k
  exact inv.isMatching.length_le_min fun pair member =>
    ⟨(inv.scheduled pair member).1, (inv.scheduled pair member).2.1⟩

/-- A port pair that is live after a round was live before it: flags are only
set, and the queue between two free ports is not touched. -/
theorem live_of_live_succ (lawful : discipline.Lawful waiting) (inRange : start.InRange)
    {k input output : Nat}
    (live : Live waiting (afterRounds discipline (k + 1) start) input output) :
    Live waiting (afterRounds discipline k start) input output := by
  have before := slotInv_afterRounds lawful inRange k
  have after := slotInv_afterRounds lawful inRange (k + 1)
  rcases live with ⟨inputBound, outputBound, inputFree, outputFree, waits⟩
  have unmatchedInput : input ∉ (slotPairs discipline (k + 1) start).map Prod.fst := by
    intro used
    simp [(after.inputOccupied_iff input).mpr used] at inputFree
  have unmatchedOutput : output ∉ (slotPairs discipline (k + 1) start).map Prod.snd := by
    intro used
    simp [(after.outputOccupied_iff output).mpr used] at outputFree
  rw [slotPairs, List.map_append, List.mem_append, not_or] at unmatchedInput unmatchedOutput
  have unscheduled : (input, output) ∉ slotPairs discipline (k + 1) start := fun used => by
    simp [(after.inputOccupied_iff input).mpr (List.mem_map_of_mem used)] at inputFree
  have unscheduledBefore : (input, output) ∉ slotPairs discipline k start := fun used =>
    unmatchedInput.1 (List.mem_map_of_mem used)
  rw [after.inputNum_eq] at inputBound
  rw [after.outputNum_eq] at outputBound
  rw [after.voq_eq, if_neg unscheduled] at waits
  refine ⟨by rwa [before.inputNum_eq], by rwa [before.outputNum_eq], ?_, ?_, ?_⟩
  · rw [← Bool.not_eq_true, before.inputOccupied_iff]
    exact unmatchedInput.1
  · rw [← Bool.not_eq_true, before.outputOccupied_iff]
    exact unmatchedOutput.1
  · rwa [before.voq_eq, if_neg unscheduledBefore]

/-- A round that finds a live pair schedules one. -/
theorem slotPairs_length_lt (lawful : discipline.Lawful waiting) (inRange : start.InRange)
    {k input output : Nat} (live : Live waiting (afterRounds discipline k start) input output) :
    (slotPairs discipline k start).length < (slotPairs discipline (k + 1) start).length := by
  have inv := (slotInv_afterRounds lawful inRange k).setIterCnt k
  have requested : (roundOf lawful inv.inRange).request input output := live
  rcases (roundOf lawful inv.inRange).exists_accept requested with ⟨input', output', accepts⟩
  have member : (input', output') ∈
      roundPairs discipline { afterRounds discipline k start with iterCnt := k } :=
    mem_roundPairs_iff.mpr accepts
  rw [slotPairs, List.length_append]
  have positive := List.length_pos_of_mem member
  omega

/-- As many rounds as the smaller side has ports leave no live pair. -/
theorem not_live_afterRounds (lawful : discipline.Lawful waiting) (inRange : start.InRange)
    {k : Nat} (enough : min start.inputNum start.outputNum ≤ k) (input output : Nat) :
    ¬ Live waiting (afterRounds discipline k start) input output := by
  have exhausted := exhausted_of_growth (fun k => (slotPairs discipline k start).length)
    (fun k => ∃ input output, Live waiting (afterRounds discipline k start) input output)
    (slotPairs_length_le lawful inRange)
    (fun k ⟨_, _, live⟩ => slotPairs_length_lt lawful inRange live)
    (fun k ⟨input, output, live⟩ => ⟨input, output, live_of_live_succ lawful inRange live⟩)
    enough
  exact fun live => exhausted ⟨input, output, live⟩

/-- After enough iterations no cell waits between two unmatched ports. -/
theorem not_waiting_arbitration (lawful : discipline.Lawful waiting) (inRange : start.InRange)
    (enough : (min start.inputNum start.outputNum : Int) ≤ start.iterations) {input output : Nat}
    (inputBound : input < start.inputNum) (outputBound : output < start.outputNum)
    (unmatchedInput :
      input ∉ (slotPairs discipline start.iterations.toNat start).map Prod.fst)
    (unmatchedOutput :
      output ∉ (slotPairs discipline start.iterations.toNat start).map Prod.snd) :
    ¬ waiting ((arbitration (doGrant discipline) (doAccept discipline)
      (updatePointers discipline) start).voq input output) := by
  intro waits
  have inv := slotInv_afterRounds lawful inRange start.iterations.toNat
  have rounds : min start.inputNum start.outputNum ≤ start.iterations.toNat := by omega
  apply not_live_afterRounds lawful inRange rounds input output
  refine ⟨by rwa [inv.inputNum_eq], by rwa [inv.outputNum_eq], ?_, ?_, waits⟩
  · rwa [← Bool.not_eq_true, inv.inputOccupied_iff]
  · rwa [← Bool.not_eq_true, inv.outputOccupied_iff]

end Slot

end SystemcTlm.Islip.VoqArbiter
