import SystemcTlm.Islip.RoundRobin
import SystemcTlm.Transition.Run

/-!
# The pointers of the iSLIP classes

The classes built on iSLIP move a grant pointer and an accept pointer together,
past a pair that was matched in the first iteration, and never otherwise.
`Slip` collects what these classes share.  Everything the pointers do in an
arbitration is therefore done by its first round, which starts from free ports.

The rank of a waiting pair falls in every arbitration that does not schedule
it.  It orders lexicographically how far the grant pointer of the output has to
turn, how far the candidate of the output lies from that pointer, and how far
the accept pointer of the candidate has to turn.
-/

namespace SystemcTlm.Islip

open SystemcTlm.Loop SystemcTlm.Matching SystemcTlm.Transition

variable {Q R : Type}

/-- A discipline whose outputs, whenever some free input has a queue they want,
scan for such an input from the grant pointer, and whose pointers move past the
matches of the first iteration. -/
structure Discipline.Slip (discipline : Discipline Q R) (wants : Q → Bool) : Prop where
  selectInput_eq : ∀ {n iter output start : Nat} {occupied : Nat → Bool} {queue : Nat → Q}
    {input : Nat}, start < n → input < n → occupied input = false →
    wants (queue input) = true →
    discipline.selectInput n iter output start occupied queue =
      scan n (fun i => if occupied i then false else wants (queue i)) start
  selectOutput_eq : ∀ {m iter input start : Nat} {occupied : Nat → Bool} {granted : Nat → Int},
    discipline.selectOutput m iter input start occupied granted =
      scanOutput m iter input start occupied granted
  movesOnGrant_eq : discipline.movesOnGrant = false
  movesOnAccept_eq : discipline.movesOnAccept = false
  movesOnCommit_eq : ∀ iter, discipline.movesOnCommit iter = (iter == 0)

theorem islipBasic_slip : IslipBasic.discipline.Slip (0 < ·) where
  selectInput_eq _ _ _ _ := rfl
  selectOutput_eq := rfl
  movesOnGrant_eq := rfl
  movesOnAccept_eq := rfl
  movesOnCommit_eq _ := rfl

namespace VoqArbiter

/-! ## The first round -/

section FirstRound

variable {discipline : Discipline Q R} {wants : Q → Bool} {waiting : Q → Prop}
  {start : VoqArbiter Q R}

theorem resetArbiter_inRange (inRange : start.InRange) : (resetArbiter start).InRange :=
  ⟨inRange.gPtr_lt, inRange.aPtr_lt⟩

theorem slotPairs_one (discipline : Discipline Q R) (start : VoqArbiter Q R) :
    slotPairs discipline 1 start = roundPairs discipline (resetArbiter start) :=
  List.nil_append _

/-- The pairs of the first round are scheduled by every arbitration that makes
a round. -/
theorem mem_slotPairs_of_first {k input output : Nat} (rounds : 1 ≤ k)
    (accepts : acceptOf discipline (resetArbiter start) input = some output) :
    (input, output) ∈ slotPairs discipline k start := by
  apply (slotPairs_grow rounds).subset
  rw [slotPairs_one]
  exact mem_roundPairs_iff.mpr accepts

/-- After the first round no round moves a pointer. -/
theorem afterRounds_ptr (slip : discipline.Slip wants) (lawful : discipline.Lawful waiting)
    (inRange : start.InRange) {k : Nat} (rounds : 1 ≤ k) :
    (afterRounds discipline k start).gPtr = (afterRounds discipline 1 start).gPtr ∧
      (afterRounds discipline k start).aPtr = (afterRounds discipline 1 start).aPtr := by
  induction k, rounds using Nat.le_induction with
  | base => exact ⟨rfl, rfl⟩
  | succ k rounds ih =>
      have later : discipline.movesOnCommit k = false := by
        rw [slip.movesOnCommit_eq]
        simp [Nat.ne_of_gt rounds]
      rw [afterRounds_succ lawful inRange, ← ih.1, ← ih.2]
      simp [applyRound, later, gPtrGranted, aPtrAccepted, slip.movesOnGrant_eq,
        slip.movesOnAccept_eq]

/-- The pointers an arbitration leaves: past the matches of the first round. -/
theorem arbitration_ptr (slip : discipline.Slip wants) (lawful : discipline.Lawful waiting)
    (inRange : start.InRange) (rounds : 1 ≤ start.iterations) :
    (∀ output, (arbitration (doGrant discipline) (doAccept discipline)
        (updatePointers discipline) start).gPtr output =
      advance start.inputNum (start.gPtr output)
        (winnerOf discipline (resetArbiter start) output)) ∧
    ∀ input, (arbitration (doGrant discipline) (doAccept discipline)
        (updatePointers discipline) start).aPtr input =
      advance start.outputNum (start.aPtr input)
        (acceptOf discipline (resetArbiter start) input) := by
  have first : afterRounds discipline 1 start = applyRound discipline (resetArbiter start) :=
    afterRounds_succ lawful inRange 0
  obtain ⟨gPtr, aPtr⟩ := afterRounds_ptr slip lawful inRange
    (k := start.iterations.toNat) (by omega)
  have moves : discipline.movesOnCommit (resetArbiter start).iterCnt = true :=
    slip.movesOnCommit_eq 0
  rw [arbitration_eq]
  constructor
  · intro output
    change (afterRounds discipline start.iterations.toNat start).gPtr output = _
    rw [gPtr, first]
    simp only [applyRound, moves, if_true, gPtrGranted, slip.movesOnGrant_eq,
      Bool.false_eq_true, if_false]
    rfl
  · intro input
    change (afterRounds discipline start.iterations.toNat start).aPtr input = _
    rw [aPtr, first]
    simp only [applyRound, moves, if_true, aPtrAccepted, slip.movesOnAccept_eq,
      Bool.false_eq_true, if_false]
    rfl

/-- In the first round an output that is wanted by some queue grants the first
such input from its pointer. -/
theorem grantOf_first (slip : discipline.Slip wants) (inRange : start.InRange)
    {input output : Nat} (inputBound : input < start.inputNum)
    (outputBound : output < start.outputNum) (wanted : wants (start.voq input output) = true) :
    grantOf discipline (resetArbiter start) output =
      scan start.inputNum (fun i => wants (start.voq i output)) (start.gPtr output) := by
  have free : output < (resetArbiter start).outputNum ∧
      (resetArbiter start).outputOccupied output = false := ⟨outputBound, rfl⟩
  rw [grantOf, if_pos free]
  exact slip.selectInput_eq (inRange.gPtr_lt output outputBound) inputBound rfl wanted

/-- In the first round an input accepts the first granting output from its
pointer. -/
theorem acceptOf_first (slip : discipline.Slip wants) {input : Nat}
    (inputBound : input < start.inputNum) :
    acceptOf discipline (resetArbiter start) input =
      scan start.outputNum
        (fun output => decide (grantOf discipline (resetArbiter start) output = some input))
        (start.aPtr input) := by
  have free : input < (resetArbiter start).inputNum ∧
      (resetArbiter start).inputOccupied input = false := ⟨inputBound, rfl⟩
  rw [acceptOf, if_pos free, slip.selectOutput_eq, scanOutput]
  congr 1
  funext output
  have unoccupied : (resetArbiter start).outputOccupied output = false := rfl
  by_cases granted : grantOf discipline (resetArbiter start) output = some input <;>
    simp [unoccupied, granted]

end FirstRound

/-! ## The rank of a waiting pair -/

/-- The input `output` would grant in the first round; `input` if there is
none. -/
def candidate (wants : Q → Bool) (arbiter : VoqArbiter Q R) (input output : Nat) : Nat :=
  (scan arbiter.inputNum (fun i => wants (arbiter.voq i output)) (arbiter.gPtr output)).getD input

/-- How far the pointers are from serving `(input, output)`. -/
def rank (wants : Q → Bool) (arbiter : VoqArbiter Q R) (input output : Nat) : Nat :=
  rank₃ arbiter.inputNum arbiter.outputNum
    (ringDist arbiter.inputNum (arbiter.gPtr output) input)
    (ringDist arbiter.inputNum (arbiter.gPtr output) (candidate wants arbiter input output))
    (ringDist arbiter.outputNum (arbiter.aPtr (candidate wants arbiter input output)) output)

/-- `next` is the state a slot later: the arbitration of `start` has moved the
pointers, and a queue that was not served wants what it wanted. -/
structure Follows (discipline : Discipline Q R) (wants : Q → Bool)
    (start next : VoqArbiter Q R) : Prop where
  inputNum_eq : next.inputNum = start.inputNum
  outputNum_eq : next.outputNum = start.outputNum
  inRange : next.InRange
  gPtr_eq : ∀ output, next.gPtr output =
    advance start.inputNum (start.gPtr output) (winnerOf discipline (resetArbiter start) output)
  aPtr_eq : ∀ input, next.aPtr input =
    advance start.outputNum (start.aPtr input) (acceptOf discipline (resetArbiter start) input)
  keeps : ∀ input output, (input, output) ∉ slotPairs discipline start.iterations.toNat start →
    wants (start.voq input output) = true → wants (next.voq input output) = true

section Rank

variable {discipline : Discipline Q R} {wants : Q → Bool} {waiting : Q → Prop}
  {start next : VoqArbiter Q R} {input output : Nat}

theorem candidate_lt (wants : Q → Bool) (inRange : start.InRange)
    (inputBound : input < start.inputNum) (outputBound : output < start.outputNum) :
    candidate wants start input output < start.inputNum := by
  unfold candidate
  cases found : scan start.inputNum (fun i => wants (start.voq i output)) (start.gPtr output) with
  | none => exact inputBound
  | some first => exact ((scan_eq_some_iff (inRange.gPtr_lt output outputBound)).mp found).1

/-- A wanted queue of the output bounds the distance of the candidate. -/
theorem ringDist_candidate_le (input : Nat) (inRange : start.InRange) {other : Nat}
    (otherBound : other < start.inputNum) (outputBound : output < start.outputNum)
    (wanted : wants (start.voq other output) = true) :
    ringDist start.inputNum (start.gPtr output) (candidate wants start input output) ≤
      ringDist start.inputNum (start.gPtr output) other := by
  have ptr := inRange.gPtr_lt output outputBound
  obtain ⟨first, found⟩ := Option.isSome_iff_exists.mp
    (scan_isSome_of_hit (fun i => wants (start.voq i output)) ptr otherBound wanted)
  rw [candidate, found]
  exact ringDist_scan_le ptr found otherBound wanted

theorem rank_lt_slots (wants : Q → Bool) (inRange : start.InRange)
    (inputBound : input < start.inputNum) (outputBound : output < start.outputNum) :
    rank wants start input output < start.inputNum * start.inputNum * start.outputNum := by
  have ptr := inRange.gPtr_lt output outputBound
  have first := candidate_lt wants inRange inputBound outputBound
  exact rank₃_lt (ringDist_lt ptr inputBound) (ringDist_lt ptr first)
    (ringDist_lt (inRange.aPtr_lt _ first) outputBound)

/-- An output whose grant goes to an input that takes another output has no
winner. -/
theorem winnerOf_eq_none (lawful : discipline.Lawful waiting) (inRange : start.InRange)
    {first chosen : Nat} (grants : grantOf discipline start output = some first)
    (accepts : acceptOf discipline start first = some chosen) (different : chosen ≠ output) :
    winnerOf discipline start output = none := by
  rw [Option.eq_none_iff_forall_not_mem]
  intro winner won
  have accepted := (winnerOf_eq_some_iff lawful inRange).mp won
  have granted := (roundOf lawful inRange).accept_grant accepted
  obtain rfl : winner = first := Option.some.inj (granted.symm.trans grants)
  exact different (Option.some.inj (accepts.symm.trans accepted))

/-- An input matched in the first round is scheduled to no other output. -/
theorem not_mem_slotPairs_of_first (lawful : discipline.Lawful waiting) (inRange : start.InRange)
    {k chosen : Nat} (rounds : 1 ≤ k)
    (accepts : acceptOf discipline (resetArbiter start) input = some chosen)
    (different : chosen ≠ output) : (input, output) ∉ slotPairs discipline k start := by
  intro served
  have inv := slotInv_afterRounds lawful inRange k
  have same := List.inj_on_of_nodup_map inv.isMatching.inputs_nodup
    (mem_slotPairs_of_first rounds accepts) served rfl
  exact different (congrArg Prod.snd same)

/-- A pair that waits and is not scheduled falls in rank.  Either the output
was accepted by its candidate and its pointer passes it on the way to the pair,
or the candidate accepted another output and its pointer passes that one. -/
theorem rank_lt_rank (slip : discipline.Slip wants) (lawful : discipline.Lawful waiting)
    (inRange : start.InRange) (rounds : 1 ≤ start.iterations)
    (follows : Follows discipline wants start next)
    (inputBound : input < start.inputNum) (outputBound : output < start.outputNum)
    (waits : wants (start.voq input output) = true)
    (passed : (input, output) ∉ slotPairs discipline start.iterations.toNat start) :
    rank wants next input output < rank wants start input output := by
  have resetRange := resetArbiter_inRange inRange
  have ptr := inRange.gPtr_lt output outputBound
  obtain ⟨first, found⟩ := Option.isSome_iff_exists.mp
    (scan_isSome_of_hit (fun i => wants (start.voq i output)) ptr inputBound waits)
  rcases (scan_eq_some_iff ptr).mp found with ⟨firstBound, firstWants, _⟩
  have isCandidate : candidate wants start input output = first := by rw [candidate, found]; rfl
  have grants : grantOf discipline (resetArbiter start) output = some first :=
    (grantOf_first slip inRange inputBound outputBound waits).trans found
  obtain ⟨chosen, accepts⟩ := Option.isSome_iff_exists.mp
    ((roundOf lawful resetRange).accept_isSome grants)
  change acceptOf discipline (resetArbiter start) first = some chosen at accepts
  have nextPtr := follows.inRange.gPtr_lt output (follows.outputNum_eq ▸ outputBound)
  have nextCandidate := candidate_lt wants follows.inRange
    (follows.inputNum_eq ▸ inputBound) (follows.outputNum_eq ▸ outputBound)
  have nextAccept := follows.inRange.aPtr_lt _ nextCandidate
  rw [follows.inputNum_eq] at nextPtr nextCandidate
  rw [follows.outputNum_eq] at nextAccept
  unfold rank
  rw [follows.inputNum_eq, follows.outputNum_eq, isCandidate]
  by_cases matched : chosen = output
  · subst matched
    have different : first ≠ input := by
      rintro rfl
      exact passed (mem_slotPairs_of_first (by omega) accepts)
    have moved : next.gPtr chosen = (first + 1) % start.inputNum := by
      rw [follows.gPtr_eq, (winnerOf_eq_some_iff lawful resetRange).mpr accepts, advance_some]
    apply rank₃_lt_rank₃_of_fst (ringDist_lt nextPtr nextCandidate)
      (ringDist_lt nextAccept outputBound)
    rw [moved]
    exact ringDist_succ_lt_of_scan ptr found inputBound waits different
  · have stands : next.gPtr output = start.gPtr output := by
      rw [follows.gPtr_eq, winnerOf_eq_none lawful resetRange grants accepts matched, advance_none]
    -- the candidate is matched to `chosen`, so its cell for `output` stays
    have firstKept : wants (next.voq first output) = true :=
      follows.keeps first output
        (not_mem_slotPairs_of_first lawful inRange (by omega) accepts matched) firstWants
    have closer := ringDist_candidate_le input follows.inRange
      (follows.inputNum_eq ▸ firstBound) (follows.outputNum_eq ▸ outputBound) firstKept
    rw [follows.inputNum_eq, stands] at closer
    rw [stands]
    by_cases same : candidate wants next input output = first
    · rw [same]
      apply rank₃_lt_rank₃_of_thd
      rw [follows.aPtr_eq, accepts, advance_some]
      exact ringDist_succ_lt_of_scan (inRange.aPtr_lt first firstBound)
        ((acceptOf_first slip firstBound).symm.trans accepts) outputBound (by simp [grants])
        matched
    · apply rank₃_lt_rank₃_of_snd (ringDist_lt nextAccept outputBound)
      apply Nat.lt_of_le_of_ne closer
      rwa [ringDist_inj ptr nextCandidate firstBound]

/-- In a run whose slots follow each other no wanted queue starves: the rank
falls until the pair is scheduled. -/
theorem exists_scheduled (slip : discipline.Slip wants) (lawful : discipline.Lawful waiting)
    (states : Nat → VoqArbiter Q R) (inRange : ∀ t, (states t).InRange)
    (rounds : ∀ t, 1 ≤ (states t).iterations)
    (follows : ∀ t, Follows discipline wants (states t) (states (t + 1)))
    (inputBound : input < (states 0).inputNum) (outputBound : output < (states 0).outputNum)
    (waits : ∀ t, t < (states 0).inputNum * (states 0).inputNum * (states 0).outputNum →
      wants ((states t).voq input output) = true) :
    ∃ t, t < (states 0).inputNum * (states 0).inputNum * (states 0).outputNum ∧
      (input, output) ∈ slotPairs discipline (states t).iterations.toNat (states t) := by
  have sizes : ∀ t, (states t).inputNum = (states 0).inputNum ∧
      (states t).outputNum = (states 0).outputNum := by
    intro t
    induction t with
    | zero => exact ⟨rfl, rfl⟩
    | succ t ih =>
        exact ⟨(follows t).inputNum_eq.trans ih.1, (follows t).outputNum_eq.trans ih.2⟩
  by_contra starved
  simp only [not_exists, not_and] at starved
  have falls := le_of_descent (fun t => rank wants (states t) input output)
    ((states 0).inputNum * (states 0).inputNum * (states 0).outputNum) fun t within =>
      rank_lt_rank slip lawful (inRange t) (rounds t) (follows t) ((sizes t).1 ▸ inputBound)
        ((sizes t).2 ▸ outputBound) (waits t within) (starved t within)
  exact absurd falls (Nat.not_le_of_lt (rank_lt_slots wants (inRange 0) inputBound outputBound))

end Rank

end VoqArbiter

/-- The arbitration of `islip_basic`, and the queues of the next slot. -/
theorem islipBasic_follows {arbiter : PairArbiter} (inRange : arbiter.InRange)
    (rounds : 1 ≤ arbiter.iterations) (iterations : Int) {voq : Nat → Nat → Int}
    (keeps : ∀ input output, (input, output) ∉ PairScheduler.islipBasic.scheduledPairs arbiter →
      0 < arbiter.voq input output → 0 < voq input output) :
    VoqArbiter.Follows IslipBasic.discipline (0 < ·) arbiter
      { PairScheduler.islipBasic.arbitration arbiter with iterations, voq } :=
  have inv := PairScheduler.islipBasic.slotInv inRange
  have moved := VoqArbiter.arbitration_ptr islipBasic_slip PairScheduler.islipBasic.lawful inRange
    rounds
  { inputNum_eq := inv.inputNum_eq
    outputNum_eq := inv.outputNum_eq
    inRange := ⟨inv.inRange.gPtr_lt, inv.inRange.aPtr_lt⟩
    gPtr_eq := moved.1
    aPtr_eq := moved.2
    keeps := by
      intro input output unserved waits
      rw [decide_eq_true_eq] at waits ⊢
      exact keeps input output unserved waits }

end SystemcTlm.Islip
