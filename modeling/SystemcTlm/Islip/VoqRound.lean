import SystemcTlm.Islip.VoqArbiter
import SystemcTlm.Matching.Round

/-!
# An iteration as a round

One pass of the arbitration loop is a request–grant–accept round: `grantOf` and
`acceptOf` are the choices the phases make, read off the state before the pass,
and `iteration_eq` gives the state after it.  Everything proved about whole
arbitrations goes through this equation and the laws of `Round`.
-/

namespace SystemcTlm.Islip

open SystemcTlm.Loop SystemcTlm.Matching

/-- What the phases rely on.  `waiting` says of a queue that it holds a cell
this class would send. -/
structure Discipline.Lawful {Q R : Type} (discipline : Discipline Q R) (waiting : Q → Prop) :
    Prop where
  selectInput_sound : ∀ {n iter output start : Nat} {occupied : Nat → Bool} {queue : Nat → Q}
    {input : Nat}, start < n →
    discipline.selectInput n iter output start occupied queue = some input →
    input < n ∧ occupied input = false ∧ waiting (queue input)
  selectInput_complete : ∀ {n iter output start : Nat} {occupied : Nat → Bool} {queue : Nat → Q}
    {input : Nat}, start < n → input < n → occupied input = false → waiting (queue input) →
    (discipline.selectInput n iter output start occupied queue).isSome
  selectOutput_sound : ∀ {m iter input start : Nat} {occupied : Nat → Bool} {granted : Nat → Int}
    {output : Nat}, start < m →
    discipline.selectOutput m iter input start occupied granted = some output →
    output < m ∧ occupied output = false ∧ granted output = 1
  selectOutput_complete : ∀ {m iter input start : Nat} {occupied : Nat → Bool}
    {granted : Nat → Int} {output : Nat}, start < m → output < m → occupied output = false →
    granted output = 1 → (discipline.selectOutput m iter input start occupied granted).isSome

namespace VoqArbiter

variable {Q R : Type}

/-- The round-robin pointers stand on ports. -/
structure InRange (arbiter : VoqArbiter Q R) : Prop where
  gPtr_lt : ∀ output, output < arbiter.outputNum → arbiter.gPtr output < arbiter.inputNum
  aPtr_lt : ∀ input, input < arbiter.inputNum → arbiter.aPtr input < arbiter.outputNum

/-- Input and output are free and a cell waits between them. -/
def Live (waiting : Q → Prop) (arbiter : VoqArbiter Q R) (input output : Nat) : Prop :=
  input < arbiter.inputNum ∧ output < arbiter.outputNum ∧
    arbiter.inputOccupied input = false ∧ arbiter.outputOccupied output = false ∧
    waiting (arbiter.voq input output)

section Phases

variable (discipline : Discipline Q R) (arbiter : VoqArbiter Q R)

/-! ## The choices of a round -/

/-- The input an output grants. -/
def grantOf (output : Nat) : Option Nat :=
  if output < arbiter.outputNum ∧ arbiter.outputOccupied output = false then
    discipline.selectInput arbiter.inputNum arbiter.iterCnt output (arbiter.gPtr output)
      arbiter.inputOccupied (fun input => arbiter.voq input output)
  else none

/-- The output an input accepts. -/
def acceptOf (input : Nat) : Option Nat :=
  if input < arbiter.inputNum ∧ arbiter.inputOccupied input = false then
    discipline.selectOutput arbiter.outputNum arbiter.iterCnt input (arbiter.aPtr input)
      arbiter.outputOccupied
      (fun output => if grantOf discipline arbiter output = some input then 1 else 0)
  else none

/-- The grant pointers after `do_grant`. -/
def gPtrGranted (output : Nat) : Nat :=
  if discipline.movesOnGrant then
    advance arbiter.inputNum (arbiter.gPtr output) (grantOf discipline arbiter output)
  else arbiter.gPtr output

/-- The accept pointers after `do_accept`. -/
def aPtrAccepted (input : Nat) : Nat :=
  if discipline.movesOnAccept then
    advance arbiter.outputNum (arbiter.aPtr input) (acceptOf discipline arbiter input)
  else arbiter.aPtr input

/-! ## The phases -/

theorem grantOf_eq_none_of_occupied {output : Nat}
    (occupied : arbiter.outputOccupied output = true) :
    grantOf discipline arbiter output = none := by
  simp [grantOf, occupied]

theorem acceptOf_eq_none_of_occupied {input : Nat}
    (occupied : arbiter.inputOccupied input = true) :
    acceptOf discipline arbiter input = none := by
  simp [acceptOf, occupied]

theorem grantOf_lt_outputNum {output input : Nat}
    (granted : grantOf discipline arbiter output = some input) : output < arbiter.outputNum := by
  by_contra outside
  simp [grantOf, outside] at granted

theorem acceptOf_lt_inputNum {input output : Nat}
    (accepted : acceptOf discipline arbiter input = some output) : input < arbiter.inputNum := by
  by_contra outside
  simp [acceptOf, outside] at accepted

/-- The state `do_grant` leaves. -/
def granted : VoqArbiter Q R :=
  { arbiter with
    grants := fun output input => if grantOf discipline arbiter output = some input then 1 else 0
    gPtr := gPtrGranted discipline arbiter }

/-- The state `do_accept` leaves. -/
def accepted : VoqArbiter Q R :=
  { granted discipline arbiter with
    accepts := fun input output =>
      if acceptOf discipline arbiter input = some output then 1 else 0
    aPtr := aPtrAccepted discipline arbiter }

theorem grantOf_of_lt {output : Nat} (bound : output < arbiter.outputNum) :
    grantOf discipline arbiter output =
      if arbiter.outputOccupied output then none
      else discipline.selectInput arbiter.inputNum arbiter.iterCnt output (arbiter.gPtr output)
        arbiter.inputOccupied (fun input => arbiter.voq input output) := by
  cases occupied : arbiter.outputOccupied output <;> simp [grantOf, bound, occupied]

theorem acceptOf_of_lt {input : Nat} (bound : input < arbiter.inputNum) :
    acceptOf discipline arbiter input =
      if arbiter.inputOccupied input then none
      else discipline.selectOutput arbiter.outputNum arbiter.iterCnt input (arbiter.aPtr input)
        arbiter.outputOccupied
        (fun output => if grantOf discipline arbiter output = some input then 1 else 0) := by
  cases occupied : arbiter.inputOccupied input <;> simp [acceptOf, bound, occupied]

theorem grantOutput_eq {choice : Option Nat} (output : Nat)
    (chosen : choice = if arbiter.outputOccupied output then none
      else discipline.selectInput arbiter.inputNum arbiter.iterCnt output (arbiter.gPtr output)
        arbiter.inputOccupied (fun input => arbiter.voq input output)) :
    grantOutput discipline output arbiter =
      choice.elim arbiter fun input => grantTo discipline output input arbiter :=
  elim_of_guard _ _ chosen

theorem acceptInput_eq {choice : Option Nat} (input : Nat)
    (chosen : choice = if arbiter.inputOccupied input then none
      else discipline.selectOutput arbiter.outputNum arbiter.iterCnt input (arbiter.aPtr input)
        arbiter.outputOccupied (fun output => arbiter.grants output input)) :
    acceptInput discipline input arbiter =
      choice.elim arbiter fun output => acceptFrom discipline input output arbiter :=
  elim_of_guard _ _ chosen

/-- Pointers moved past the choices of the first `n` rows. -/
theorem advance_of_choices {n width : Nat} {ptr : Nat → Nat} {choice : Nat → Option Nat}
    (outside : ∀ k, ¬ k < n → choice k = none) (k : Nat) :
    (if k < n then (choice k).elim (ptr k) fun place => (place + 1) % width else ptr k) =
      advance width (ptr k) (choice k) := by
  split_ifs with bound
  · cases choice k <;> rfl
  · rw [outside k bound]
    rfl

/-- `do_grant` writes row by row, and each output reads only its own pointer. -/
theorem doGrant_eq (clean : arbiter.grants = fun _ _ => 0) :
    doGrant discipline arbiter = granted discipline arbiter := by
  let put (marks : Nat → Nat → Int) (ptr : Nat → Nat) : VoqArbiter Q R :=
    { arbiter with
      grants := marks
      gPtr := if discipline.movesOnGrant then ptr else arbiter.gPtr }
  have start : put (fun _ _ => 0) arbiter.gPtr = arbiter := by
    simp only [put, ite_self, ← clean]
  have pass : ∀ output marks ptr, output < arbiter.outputNum → ptr output = arbiter.gPtr output →
      grantOutput discipline output (put marks ptr) =
        (grantOf discipline arbiter output).elim (put marks ptr) fun input =>
          put (update₂ marks output input 1)
            (Function.update ptr output ((input + 1) % arbiter.inputNum)) := by
    intro output marks ptr bound same
    have own : (put marks ptr).gPtr output = arbiter.gPtr output := by
      simp only [put]
      split_ifs
      · exact same
      · rfl
    have found := grantOf_of_lt discipline arbiter bound
    rw [← own] at found
    rw [grantOutput_eq discipline (put marks ptr) output found]
    cases grantOf discipline arbiter output with
    | none => rfl
    | some input =>
        simp only [Option.elim_some, grantTo, put]
        congr 1
        split_ifs <;> rfl
  have phase := forRange_choices put pass
  rw [start] at phase
  rw [doGrant, phase]
  simp only [put, granted, advance_of_choices fun output outer =>
    show grantOf discipline arbiter output = none from if_neg fun free => outer free.1]
  congr 1
  · funext output
    unfold gPtrGranted
    split_ifs <;> rfl
  · funext output input
    exact if_congr (and_iff_right_of_imp (grantOf_lt_outputNum discipline arbiter)) rfl rfl

/-- `do_accept` writes row by row, and each input reads only its own pointer. -/
theorem doAccept_eq (clean : arbiter.accepts = fun _ _ => 0) :
    doAccept discipline (granted discipline arbiter) = accepted discipline arbiter := by
  let put (marks : Nat → Nat → Int) (ptr : Nat → Nat) : VoqArbiter Q R :=
    { granted discipline arbiter with
      accepts := marks
      aPtr := if discipline.movesOnAccept then ptr else arbiter.aPtr }
  have start : put (fun _ _ => 0) arbiter.aPtr = granted discipline arbiter := by
    simp only [put, ite_self, ← clean]
    rfl
  have pass : ∀ input marks ptr, input < arbiter.inputNum → ptr input = arbiter.aPtr input →
      acceptInput discipline input (put marks ptr) =
        (acceptOf discipline arbiter input).elim (put marks ptr) fun output =>
          put (update₂ marks input output 1)
            (Function.update ptr input ((output + 1) % arbiter.outputNum)) := by
    intro input marks ptr bound same
    have own : (put marks ptr).aPtr input = arbiter.aPtr input := by
      simp only [put]
      split_ifs
      · exact same
      · rfl
    have found := acceptOf_of_lt discipline arbiter bound
    rw [← own] at found
    rw [acceptInput_eq discipline (put marks ptr) input found]
    cases acceptOf discipline arbiter input with
    | none => rfl
    | some output =>
        simp only [Option.elim_some, acceptFrom, put]
        congr 1
        split_ifs <;> rfl
  have phase := forRange_choices put pass
  rw [start] at phase
  refine phase.trans ?_
  simp only [put, accepted, advance_of_choices fun input outer =>
    show acceptOf discipline arbiter input = none from if_neg fun free => outer free.1]
  congr 1
  · funext input
    unfold aPtrAccepted
    split_ifs <;> rfl
  · funext input output
    exact if_congr (and_iff_right_of_imp (acceptOf_lt_inputNum discipline arbiter)) rfl rfl

end Phases

/-! ## The laws of a round -/

/-- The choices of the phases obey the laws of a round. -/
def roundOf {discipline : Discipline Q R} {waiting : Q → Prop}
    (lawful : discipline.Lawful waiting) {arbiter : VoqArbiter Q R} (inRange : arbiter.InRange) :
    Round Nat Nat where
  request := Live waiting arbiter
  grant := grantOf discipline arbiter
  accept := acceptOf discipline arbiter
  grant_request input output granted := by
    unfold grantOf at granted
    split_ifs at granted with free
    obtain ⟨bound, unmatched, waits⟩ :=
      lawful.selectInput_sound (inRange.gPtr_lt output free.1) granted
    exact ⟨bound, free.1, unmatched, free.2, waits⟩
  grant_isSome input output live := by
    rcases live with ⟨inputBound, outputBound, inputFree, outputFree, waits⟩
    rw [grantOf, if_pos ⟨outputBound, outputFree⟩]
    exact lawful.selectInput_complete (inRange.gPtr_lt output outputBound) inputBound inputFree
      waits
  accept_grant input output accepted := by
    unfold acceptOf at accepted
    split_ifs at accepted with free
    rcases lawful.selectOutput_sound (inRange.aPtr_lt input free.1) accepted with ⟨_, _, granted⟩
    by_contra other
    simp [other] at granted
  accept_isSome input output granted := by
    have free := granted
    unfold grantOf at free
    split_ifs at free with outputFree
    obtain ⟨inputBound, inputFree, _⟩ :=
      lawful.selectInput_sound (inRange.gPtr_lt output outputFree.1) free
    rw [acceptOf, if_pos ⟨inputBound, inputFree⟩]
    exact lawful.selectOutput_complete (inRange.aPtr_lt input inputBound) outputFree.1
      outputFree.2 (if_pos granted)

/-! ## The commit phase -/

section Commit

variable (discipline : Discipline Q R) (arbiter : VoqArbiter Q R)

/-- The input an output is matched to, among the first `k`. -/
def winnerUpTo (k output : Nat) : Option Nat :=
  (grantOf discipline arbiter output).filter fun input =>
    input < k ∧ acceptOf discipline arbiter input = some output

/-- The entry a scheduled pair leaves in the result. -/
def recordOf (pair : Nat × Nat) : R :=
  discipline.record pair.1 pair.2 (arbiter.voq pair.1 pair.2)

/-- The state after the first `k` rows of `update_pointers`. -/
def committed (k : Nat) : VoqArbiter Q R :=
  { accepted discipline arbiter with
    inputOccupied := fun input => arbiter.inputOccupied input ||
      (decide (input < k) && (acceptOf discipline arbiter input).isSome)
    outputOccupied := fun output => arbiter.outputOccupied output ||
      (winnerUpTo discipline arbiter k output).isSome
    voq := fun input output =>
      if input < k ∧ acceptOf discipline arbiter input = some output then
        discipline.takeCell (arbiter.voq input output)
      else arbiter.voq input output
    gPtr := fun output =>
      if discipline.movesOnCommit arbiter.iterCnt then
        advance arbiter.inputNum (gPtrGranted discipline arbiter output)
          (winnerUpTo discipline arbiter k output)
      else gPtrGranted discipline arbiter output
    aPtr := fun input =>
      if discipline.movesOnCommit arbiter.iterCnt ∧ input < k then
        advance arbiter.outputNum (aPtrAccepted discipline arbiter input)
          (acceptOf discipline arbiter input)
      else aPtrAccepted discipline arbiter input
    schResult := arbiter.schResult ++
      (pairsOf (acceptOf discipline arbiter) (List.range k)).map
        (recordOf discipline arbiter) }

variable {discipline} {arbiter} {waiting : Q → Prop} (lawful : discipline.Lawful waiting)
  (inRange : arbiter.InRange)

include lawful inRange

theorem winnerUpTo_eq_some_iff {k output input : Nat} :
    winnerUpTo discipline arbiter k output = some input ↔
      input < k ∧ acceptOf discipline arbiter input = some output := by
  simp only [winnerUpTo, Option.filter_eq_some_iff, decide_eq_true_eq]
  exact ⟨fun held => held.2, fun matched =>
    ⟨(roundOf lawful inRange).accept_grant matched.2, matched⟩⟩

theorem winnerUpTo_succ (k output : Nat) :
    winnerUpTo discipline arbiter (k + 1) output =
      if acceptOf discipline arbiter k = some output then some k
      else winnerUpTo discipline arbiter k output := by
  split_ifs with here
  · rw [winnerUpTo_eq_some_iff lawful inRange]
    exact ⟨k.lt_succ_self, here⟩
  · apply Option.ext
    intro input
    rw [winnerUpTo_eq_some_iff lawful inRange, winnerUpTo_eq_some_iff lawful inRange]
    constructor
    · rintro ⟨bound, accepts⟩
      refine ⟨?_, accepts⟩
      have other : input ≠ k := fun same => here (same ▸ accepts)
      omega
    · rintro ⟨bound, accepts⟩
      exact ⟨by omega, accepts⟩

/-- An output is matched to nobody before the row that accepts it. -/
theorem winnerUpTo_eq_none {k output : Nat}
    (accepts : acceptOf discipline arbiter k = some output) :
    winnerUpTo discipline arbiter k output = none := by
  rw [Option.eq_none_iff_forall_not_mem]
  intro input matched
  rcases (winnerUpTo_eq_some_iff lawful inRange).mp matched with ⟨bound, other⟩
  have same : input = k := (roundOf lawful inRange).matched.inj other accepts
  omega

/-- A row without an accepted pair changes nothing. -/
theorem committed_succ_of_none {k : Nat} (rejected : acceptOf discipline arbiter k = none) :
    committed discipline arbiter (k + 1) = committed discipline arbiter k := by
  have below : ∀ input, input ≠ k → (input < k + 1 ↔ input < k) := fun input other => by omega
  simp only [committed]
  congr 1
  · funext output
    simp [winnerUpTo_succ lawful inRange, rejected]
  · funext input
    by_cases here : input = k
    · simp [here, rejected]
    · simp [below input here]
  · funext input output
    by_cases here : input = k
    · simp [here, rejected]
    · simp [below input here]
  · funext input
    by_cases here : input = k
    · simp [here, rejected]
    · simp [below input here]
  · funext output
    simp [winnerUpTo_succ lawful inRange, rejected]
  · rw [List.range_succ, pairsOf_append, pairsOf_singleton, rejected]
    simp

/-- An accepted pair is committed. -/
theorem committed_succ_of_some {k output : Nat}
    (accepts : acceptOf discipline arbiter k = some output) :
    committed discipline arbiter (k + 1) =
      commit discipline k output (committed discipline arbiter k) := by
  have below : ∀ input, input ≠ k → (input < k + 1 ↔ input < k) := fun input other => by omega
  simp only [committed, commit]
  congr 1
  · by_cases moves : discipline.movesOnCommit arbiter.iterCnt = true
    · funext output'
      by_cases here : output' = output
      · simp [accepted, granted, moves, here, winnerUpTo_succ lawful inRange, accepts]
      · have other : ¬ acceptOf discipline arbiter k = some output' := fun same =>
          here (Option.some.inj (same.symm.trans accepts))
        simp [accepted, granted, moves, here, winnerUpTo_succ lawful inRange, other]
    · simp [accepted, granted, moves]
  · by_cases moves : discipline.movesOnCommit arbiter.iterCnt = true
    · funext input
      by_cases here : input = k
      · simp [accepted, granted, moves, here, accepts]
      · simp [accepted, granted, moves, here, below input here]
    · simp [accepted, granted, moves]
  · funext input output'
    by_cases here : input = k
    · by_cases same : output' = output <;>
        simp [here, accepts, update₂, same, Ne.symm (a := output') (b := output)]
    · simp [here, below input here, update₂]
  · funext input
    by_cases here : input = k
    · simp [here, accepts]
    · simp [here, below input here]
  · funext output'
    by_cases here : output' = output
    · simp [here, winnerUpTo_succ lawful inRange, accepts]
    · have other : ¬ acceptOf discipline arbiter k = some output' := fun same =>
        here (Option.some.inj (same.symm.trans accepts))
      simp [here, winnerUpTo_succ lawful inRange, other]
  · rw [List.range_succ, pairsOf_append, pairsOf_singleton, accepts]
    simp [recordOf]

theorem updateRow_committed (k : Nat) :
    updateRow discipline k (committed discipline arbiter k) =
      committed discipline arbiter (k + 1) := by
  have skip : ∀ output rows, acceptOf discipline arbiter k ≠ some output →
      updateCell discipline k output (committed discipline arbiter rows) =
        committed discipline arbiter rows := by
    intro output rows other
    simp [updateCell, committed, accepted, other]
  rw [updateRow]
  split_ifs with occupied
  · cases choice : acceptOf discipline arbiter k with
    | none => exact (committed_succ_of_none lawful inRange choice).symm
    | some output =>
        have live := (roundOf lawful inRange).accept_request choice
        simp [committed, live.2.2.1] at occupied
  · apply forRange_choice (acceptOf discipline arbiter k)
    · exact committed_succ_of_none lawful inRange
    · intro output accepts
      rcases (roundOf lawful inRange).accept_request accepts with ⟨_, outputBound, _, outputFree, _⟩
      refine ⟨outputBound, ?_⟩
      rw [committed_succ_of_some lawful inRange accepts, updateCell, if_neg, if_pos]
      · simp [committed, accepted, accepts]
      · simp [committed, outputFree, winnerUpTo_eq_none lawful inRange accepts]
    · intro output _ other
      exact ⟨skip output k other, skip output (k + 1) other⟩

theorem updatePointers_eq :
    updatePointers discipline (accepted discipline arbiter) =
      committed discipline arbiter arbiter.inputNum := by
  refine forRange_induction (fun k current => current = committed discipline arbiter k) ?_ ?_
  · simp [committed, accepted, granted, winnerUpTo, pairsOf]
  · rintro k _ _ rfl
    exact updateRow_committed lawful inRange k

end Commit

/-! ## The iteration -/

/-- One pass of the arbitration loop. -/
def iteration (discipline : Discipline Q R) (arbiter : VoqArbiter Q R) : VoqArbiter Q R :=
  resetIteration
    (updatePointers discipline (doAccept discipline (doGrant discipline arbiter)))

/-- The input whose acceptance an output receives. -/
def winnerOf (discipline : Discipline Q R) (arbiter : VoqArbiter Q R) (output : Nat) :
    Option Nat :=
  (grantOf discipline arbiter output).filter fun input =>
    acceptOf discipline arbiter input = some output

/-- The pairs an iteration schedules, by input. -/
def roundPairs (discipline : Discipline Q R) (arbiter : VoqArbiter Q R) : List (Nat × Nat) :=
  pairsOf (acceptOf discipline arbiter) (List.range arbiter.inputNum)

/-- The state after the choices of a round have been carried out. -/
def applyRound (discipline : Discipline Q R) (arbiter : VoqArbiter Q R) : VoqArbiter Q R :=
  { arbiter with
    gPtr := fun output =>
      if discipline.movesOnCommit arbiter.iterCnt then
        advance arbiter.inputNum (gPtrGranted discipline arbiter output)
          (winnerOf discipline arbiter output)
      else gPtrGranted discipline arbiter output
    aPtr := fun input =>
      if discipline.movesOnCommit arbiter.iterCnt then
        advance arbiter.outputNum (aPtrAccepted discipline arbiter input)
          (acceptOf discipline arbiter input)
      else aPtrAccepted discipline arbiter input
    voq := fun input output =>
      if acceptOf discipline arbiter input = some output then
        discipline.takeCell (arbiter.voq input output)
      else arbiter.voq input output
    grants := fun _ _ => 0
    accepts := fun _ _ => 0
    inputOccupied := fun input =>
      arbiter.inputOccupied input || (acceptOf discipline arbiter input).isSome
    outputOccupied := fun output =>
      arbiter.outputOccupied output || (winnerOf discipline arbiter output).isSome
    schResult := arbiter.schResult ++
      (roundPairs discipline arbiter).map (recordOf discipline arbiter) }

/-- The phases carry out the round: the code's nested loops, guards and flags
on one side, the choices of the round on the other. -/
theorem iteration_eq {discipline : Discipline Q R} {arbiter : VoqArbiter Q R} {waiting : Q → Prop}
    (lawful : discipline.Lawful waiting) (inRange : arbiter.InRange)
    (noGrants : arbiter.grants = fun _ _ => 0) (noAccepts : arbiter.accepts = fun _ _ => 0) :
    iteration discipline arbiter = applyRound discipline arbiter := by
  have within : ∀ {input output}, acceptOf discipline arbiter input = some output →
      input < arbiter.inputNum := acceptOf_lt_inputNum discipline arbiter
  have winner : ∀ output, winnerUpTo discipline arbiter arbiter.inputNum output =
      winnerOf discipline arbiter output := by
    intro output
    unfold winnerUpTo winnerOf
    congr 1
    funext input
    simpa using within
  rw [iteration, doGrant_eq discipline arbiter noGrants, doAccept_eq discipline arbiter noAccepts,
    updatePointers_eq lawful inRange]
  simp only [resetIteration, committed, accepted, granted, applyRound, winner]
  congr 1
  · funext input
    cases choice : acceptOf discipline arbiter input with
    | none => simp
    | some output => simp [within choice]
  · funext input output
    by_cases accepts : acceptOf discipline arbiter input = some output
    · simp [accepts, within accepts]
    · simp [accepts]
  · funext input
    cases choice : acceptOf discipline arbiter input with
    | none => simp
    | some output => simp [within choice]

end VoqArbiter

end SystemcTlm.Islip
