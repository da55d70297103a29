import SystemcTlm.Islip.BooksimRefinement

/-!
# `islip_booksim` with `m_max_match`

With `m_max_match` a phase stops at its first success.  `do_grant` then marks
one grant, and of all free inputs only the one it went to has a mark to accept,
so that `do_accept` stops at the same pair.  Every iteration therefore commits
one pair, or finds that nothing is asked for.
-/

namespace SystemcTlm.Islip.IslipBooksim

open SystemcTlm.Loop SystemcTlm.Matching

/-! ## The phases -/

section Phases

variable {sch : IslipBooksim} (one : sch.maxMatch = true)

include one

/-- With `m_max_match` one output grants, if any can. -/
theorem doGrant_maxMatch {choice : Nat → Option Nat}
    (chosen : ∀ output, output < sch.numPort → choice output =
      if sch.outputOccupied output then none
      else scan sch.numPort
        (fun input => if sch.inputOccupied input then false
          else sch.request (flatIndex sch.numPort input output)) (sch.gi output)) :
    (doGrant sch = sch ∧ ∀ output, output < sch.numPort → choice output = none) ∨
      ∃ output input, output < sch.numPort ∧ choice output = some input ∧
        doGrant sch = grantTo input output sch := by
  apply forRange_flagged
  · intro output bound
    exact grantOutput_eq sch (Or.inl rfl) output (chosen output bound)
  · intro output other input
    exact if_pos ⟨rfl, one⟩

/-- With `m_max_match` one input accepts, if any can. -/
theorem doAccept_maxMatch {choice : Nat → Option Nat}
    (chosen : ∀ input, input < sch.numPort → choice input =
      if sch.inputOccupied input then none
      else scan sch.numPort
        (fun output => if sch.outputOccupied output then false
          else sch.grant (flatIndex sch.numPort input output)) (sch.ai input)) :
    (doAccept sch = sch ∧ ∀ input, input < sch.numPort → choice input = none) ∨
      ∃ input output, input < sch.numPort ∧ choice input = some output ∧
        doAccept sch = acceptFrom input output sch := by
  apply forRange_flagged
  · intro input bound
    exact acceptInput_eq sch (Or.inl rfl) input (chosen input bound)
  · intro input other output
    exact if_pos ⟨rfl, one⟩

end Phases

/-! ## The iteration -/

/-- The state after the phases have matched one pair. -/
def applyPair (i j : Nat) (sch : IslipBooksim) : IslipBooksim :=
  commit i j (acceptFrom i j (grantTo i j (sendRequest sch)))

/-- Nothing is asked for. -/
def Idle (sch : IslipBooksim) : Prop :=
  ∀ i, i < sch.numPort → ∀ j, j < sch.numPort → sch.asked i j = false

section Iteration

variable {sch : IslipBooksim}

theorem idle_of_grantOf (inRange : sch.InRange)
    (nothing : ∀ output, output < sch.numPort → sch.grantOf output = none) : sch.Idle := by
  intro i iBound j jBound
  rw [← Bool.not_eq_true]
  intro asks
  have granted : (sch.grantOf j).isSome :=
    (scanRound inRange.gi_lt inRange.ai_lt).grant_isSome ⟨iBound, jBound, asks⟩
  rw [nothing j jBound] at granted
  exact Bool.false_ne_true granted

variable (clean : ∀ input, input < sch.numPort → sch.inputOccupied input = false →
  ∀ output, output < sch.numPort → sch.accept (flatIndex sch.numPort input output) = false)

include clean

theorem update_none : updatePriorityPtr sch = sch := by
  have update := updatePriorityPtr_eq sch (fun _ => none) (fun first => absurd first (by simp))
    (fun first => absurd first (by simp)) (by simpa using clean)
  have nothing : pairsOf (fun _ => none) (List.range sch.numPort) = ([] : List (Nat × Nat)) :=
    List.filterMap_eq_nil_iff.mpr fun _ _ => rfl
  rw [update, nothing, commitAll_nil]

/-- The update of a single acceptance. -/
theorem update_single {i j : Nat} (iBound : i < sch.numPort) (jBound : j < sch.numPort)
    (inputFree : sch.inputOccupied i = false) (outputFree : sch.outputOccupied j = false) :
    updatePriorityPtr (acceptFrom i j sch) = commit i j (acceptFrom i j sch) := by
  have pairs : pairsOf (fun input => if input = i then some j else none)
      (List.range sch.numPort) = [(i, j)] :=
    pairsOf_range_single iBound (if_pos rfl) fun other _ differs => if_neg differs
  have update := updatePriorityPtr_eq (acceptFrom i j sch)
    (fun input => if input = i then some j else none) ?_ ?_ ?_
  · rw [update]
    change commitAll _ (pairsOf _ (List.range sch.numPort)) = _
    rw [pairs, ← List.nil_append [(i, j)], commitAll_concat, commitAll_nil]
  · intro input input' output first second
    rw [Option.ite_none_right_eq_some] at first second
    rw [first.1, second.1]
  · intro input output chosen
    rw [Option.ite_none_right_eq_some] at chosen
    rcases chosen with ⟨rfl, same⟩
    cases same
    exact ⟨jBound, inputFree, outputFree⟩
  · intro input (inputBound : input < sch.numPort) free output (outputBound : output < sch.numPort)
    change Function.update sch.accept (flatIndex sch.numPort i j) true
      (flatIndex sch.numPort input output) = _
    by_cases here : input = i ∧ output = j
    · rcases here with ⟨rfl, rfl⟩
      simp
    · rw [Function.update_of_ne fun same => here ((flatIndex_inj outputBound jBound).mp same),
        clean input inputBound free output outputBound]
      symm
      rw [decide_eq_false_iff_not, Option.ite_none_right_eq_some]
      exact fun chosen => here ⟨chosen.1, (Option.some.inj chosen.2).symm⟩

omit clean

variable (tidy : sch.Tidy) (inRange : sch.InRange)

include tidy inRange

/-- The choices that `do_accept` finds after a single grant: only the input that
was granted has a mark to accept. -/
theorem accept_single {i j : Nat} (jBound : j < sch.numPort)
    (inputFree : sch.inputOccupied i = false) (outputFree : sch.outputOccupied j = false)
    {input : Nat} (inputBound : input < sch.numPort) :
    (if input = i then some j else none) =
      if sch.inputOccupied input then none
      else scan sch.numPort
        (fun output => if sch.outputOccupied output then false
          else Function.update sch.grant (flatIndex sch.numPort i j) true
            (flatIndex sch.numPort input output)) (sch.ai input) := by
  have start := inRange.ai_lt input inputBound
  have mark : sch.inputOccupied input = false → ∀ output, output < sch.numPort →
      ¬ (input = i ∧ output = j) →
      Function.update sch.grant (flatIndex sch.numPort i j) true
        (flatIndex sch.numPort input output) = false := by
    intro free output outputBound other
    rw [Function.update_of_ne fun same => other ((flatIndex_inj outputBound jBound).mp same)]
    exact tidy.grant_free input inputBound free output outputBound
  by_cases here : input = i
  · subst here
    rw [if_pos rfl, inputFree, if_neg Bool.false_ne_true]
    symm
    apply (scan_eq_some_iff start).mpr
    refine ⟨jBound, by simp [outputFree], fun output outputBound before => ?_⟩
    have other : output ≠ j := by
      rintro rfl
      exact lt_irrefl _ before
    simp [mark inputFree output outputBound fun both => other both.2]
  · rw [if_neg here]
    split_ifs with occupied
    · rfl
    · symm
      apply (scan_eq_none_iff start).mpr
      intro output outputBound
      simp [mark (by simpa using occupied) output outputBound fun both => here both.1]

/-- Without a grant `do_accept` finds nothing. -/
theorem accept_none {input : Nat} (inputBound : input < sch.numPort) :
    none =
      if sch.inputOccupied input then none
      else scan sch.numPort
        (fun output => if sch.outputOccupied output then false
          else sch.grant (flatIndex sch.numPort input output)) (sch.ai input) := by
  split_ifs with occupied
  · rfl
  · symm
    apply (scan_eq_none_iff (inRange.ai_lt input inputBound)).mpr
    intro output outputBound
    simp [tidy.grant_free input inputBound (by simpa using occupied) output outputBound]

/-- The phases match one pair, or find that nothing is asked for. -/
theorem iteration_maxMatch (one : sch.maxMatch = true) :
    (iteration sch = sendRequest sch ∧ sch.Idle) ∨
      ∃ i j, i < sch.numPort ∧ j < sch.numPort ∧ sch.asked i j = true ∧
        iteration sch = applyPair i j sch := by
  let requesting : IslipBooksim := { sch with
    request := setMarks sch.numPort
      (fun input output => decide (sch.ql (flatIndex sch.numPort input output) ≠ 0))
      sch.request }
  have requested : sendRequest sch = requesting := sendRequest_eq sch
  have grants := @doGrant_maxMatch requesting one sch.grantOf (by
    intro output bound
    have chosen := grantOf_sendRequest tidy inRange bound
    rwa [requested] at chosen)
  rw [iteration, requested]
  rcases grants with ⟨same, nothing⟩ | ⟨j, i, jBound, granted, done⟩
  · have accepts := @doAccept_maxMatch requesting one (fun _ => none) fun input bound =>
      accept_none tidy inRange bound
    rcases accepts with ⟨sameAgain, -⟩ | ⟨i, j, -, impossible, -⟩
    · rw [same, sameAgain]
      exact Or.inl ⟨@update_none requesting tidy.accept_free, idle_of_grantOf inRange nothing⟩
    · cases impossible
  · rcases grantOf_asked inRange granted with ⟨iBound, -, asks⟩
    have free := asks
    simp only [asked, Bool.and_eq_true, Bool.not_eq_true'] at free
    rcases free with ⟨⟨inputFree, outputFree⟩, -⟩
    have accepts := @doAccept_maxMatch (grantTo i j requesting) one _ fun input bound =>
      accept_single tidy inRange jBound inputFree outputFree bound
    right
    refine ⟨i, j, iBound, jBound, asks, ?_⟩
    rcases accepts with ⟨-, missed⟩ | ⟨i', j', -, accepted, doneAgain⟩
    · have hit := missed i iBound
      simp at hit
    · rw [Option.ite_none_right_eq_some] at accepted
      rcases accepted with ⟨rfl, same⟩
      cases same
      rw [done, doneAgain, applyPair, requested]
      exact @update_single (grantTo i' j requesting) tidy.accept_free _ _ iBound jBound inputFree
        outputFree

end Iteration

/-! ## Tables and pointers after a match -/

section Match

variable {sch : IslipBooksim}

/-- An input that is free after the match was free before it, and its row gets
no mark. -/
theorem mark_free {table : Nat → Bool}
    (clean : ∀ input, input < sch.numPort → sch.inputOccupied input = false →
      ∀ output, output < sch.numPort → table (flatIndex sch.numPort input output) = false)
    {i j : Nat} (jBound : j < sch.numPort) {input : Nat} (inputBound : input < sch.numPort)
    (free : Function.update sch.inputOccupied i true input = false) {output : Nat}
    (outputBound : output < sch.numPort) :
    Function.update table (flatIndex sch.numPort i j) true
      (flatIndex sch.numPort input output) = false := by
  have other : input ≠ i := by
    rintro rfl
    simp at free
  rw [Function.update_of_ne other] at free
  rw [Function.update_of_ne fun same => other ((flatIndex_inj outputBound jBound).mp same).1]
  exact clean input inputBound free output outputBound

theorem pointer_lt {numPort : Nat} {ptr : Nat → Nat} (place next : Nat) {index : Nat}
    (bound : index < numPort) (old : ptr index < numPort) (first : Prop) [Decidable first] :
    (if first then Function.update ptr place (next % numPort) else ptr) index < numPort := by
  split_ifs
  · rw [Function.update_apply]
    split_ifs
    · exact Nat.mod_lt _ (Nat.zero_lt_of_lt bound)
    · exact old
  · exact old

theorem applyPair_inRange (inRange : sch.InRange) (i j : Nat) : (applyPair i j sch).InRange := by
  rw [applyPair, sendRequest_eq]
  exact ⟨fun output bound => pointer_lt j (i + 1) bound (inRange.gi_lt output bound) _,
    fun input bound => pointer_lt i (j + 1) bound (inRange.ai_lt input bound) _⟩

theorem applyPair_tidy (tidy : sch.Tidy) (i : Nat) {j : Nat} (jBound : j < sch.numPort) :
    (applyPair i j sch).Tidy := by
  rw [applyPair, sendRequest_eq]
  constructor
  · exact fun _ inputBound _ outputBound => tidy.ql_of_setMarks inputBound outputBound
  · exact fun _ inputBound free _ outputBound =>
      mark_free tidy.grant_free jBound inputBound free outputBound
  · exact fun _ inputBound free _ outputBound =>
      mark_free tidy.accept_free jBound inputBound free outputBound

end Match

/-! ## Whole runs -/

/-- What holds between the iterations: a matching of requested pairs, with a
pair for each iteration unless nothing is asked for any more. -/
structure MatchInv (numPort : Nat) (pairs : List (Nat × Nat)) (k : Nat) (sch : IslipBooksim) :
    Prop where
  numPort_eq : sch.numPort = numPort
  maxMatch_eq : sch.maxMatch = true
  inRange : sch.InRange
  tidy : sch.Tidy
  ql_iff : ∀ i, i < numPort → ∀ j, j < numPort →
    (sch.ql (flatIndex numPort i j) ≠ 0 ↔ (i, j) ∈ pairs)
  isMatching : IsMatching sch.schResult
  scheduled : ∀ pair ∈ sch.schResult, pair.1 < numPort ∧ pair ∈ pairs
  inputOccupied_iff : ∀ i, sch.inputOccupied i = true ↔ i ∈ sch.schResult.map Prod.fst
  outputOccupied_iff : ∀ j, sch.outputOccupied j = true ↔ j ∈ sch.schResult.map Prod.snd
  progress : sch.schResult.length = k ∨ sch.Idle

section Runs

variable {numPort k : Nat} {pairs : List (Nat × Nat)} {sch : IslipBooksim}

theorem MatchInv.setIterCnt (inv : MatchInv numPort pairs k sch) (iter : Nat) :
    MatchInv numPort pairs k { sch with iterCnt := iter } :=
  { inv with
    inRange := ⟨inv.inRange.gi_lt, inv.inRange.ai_lt⟩
    tidy := ⟨inv.tidy.request_ql, inv.tidy.grant_free, inv.tidy.accept_free⟩ }

/-- An iteration that finds nothing to match. -/
theorem MatchInv.idle (inv : MatchInv numPort pairs k sch) (idle : sch.Idle) :
    MatchInv numPort pairs (k + 1) (sendRequest sch) := by
  rw [sendRequest_eq]
  exact { inv with
    inRange := ⟨inv.inRange.gi_lt, inv.inRange.ai_lt⟩
    tidy := ⟨fun _ inputBound _ outputBound => inv.tidy.ql_of_setMarks inputBound outputBound,
      inv.tidy.grant_free, inv.tidy.accept_free⟩
    progress := Or.inr idle }

theorem occupied_iff {occupied : Nat → Bool} {ports : List Nat}
    (before : ∀ port, occupied port = true ↔ port ∈ ports) (matched port : Nat) :
    Function.update occupied matched true port = true ↔ port ∈ ports ++ [matched] := by
  rw [List.mem_append, List.mem_singleton, ← before, Function.update_apply]
  split_ifs with here <;> simp [here]

/-- An iteration that matches a pair. -/
theorem MatchInv.applyPair (inv : MatchInv numPort pairs k sch) {i j : Nat}
    (iBound : i < sch.numPort) (jBound : j < sch.numPort) (asks : sch.asked i j = true) :
    MatchInv numPort pairs (k + 1) (applyPair i j sch) := by
  have free := asks
  simp only [asked, Bool.and_eq_true, Bool.not_eq_true', decide_eq_true_eq] at free
  rcases free with ⟨⟨inputFree, outputFree⟩, queued⟩
  have numPort_eq := inv.numPort_eq
  have member : (i, j) ∈ pairs := by
    rw [numPort_eq] at queued
    exact (inv.ql_iff i (numPort_eq ▸ iBound) j (numPort_eq ▸ jBound)).mp queued
  have freshInput : i ∉ sch.schResult.map Prod.fst := by
    rw [← inv.inputOccupied_iff, inputFree]
    exact Bool.false_ne_true
  have freshOutput : j ∉ sch.schResult.map Prod.snd := by
    rw [← inv.outputOccupied_iff, outputFree]
    exact Bool.false_ne_true
  have inRange := applyPair_inRange inv.inRange i j
  have tidy := applyPair_tidy inv.tidy i jBound
  rw [IslipBooksim.applyPair, sendRequest_eq] at inRange tidy ⊢
  exact {
    numPort_eq := numPort_eq
    maxMatch_eq := inv.maxMatch_eq
    inRange := inRange
    tidy := tidy
    ql_iff := inv.ql_iff
    isMatching := by
      apply inv.isMatching.append (IsMatching.singleton (i, j))
      · intro pair only
        rwa [List.mem_singleton.mp only]
      · intro pair only
        rwa [List.mem_singleton.mp only]
    scheduled := by
      intro pair scheduled
      rcases List.mem_append.mp scheduled with before | new
      · exact inv.scheduled pair before
      · rw [List.mem_singleton.mp new]
        exact ⟨numPort_eq ▸ iBound, member⟩
    inputOccupied_iff := by
      intro input
      refine (occupied_iff inv.inputOccupied_iff i input).trans ?_
      change _ ↔ _ ∈ (sch.schResult ++ [(i, j)]).map Prod.fst
      rw [List.map_append, List.map_singleton]
    outputOccupied_iff := by
      intro output
      refine (occupied_iff inv.outputOccupied_iff j output).trans ?_
      change _ ↔ _ ∈ (sch.schResult ++ [(i, j)]).map Prod.snd
      rw [List.map_append, List.map_singleton]
    progress := by
      rcases inv.progress with length | idle
      · left
        change (sch.schResult ++ [(i, j)]).length = k + 1
        rw [List.length_append, length, List.length_singleton]
      · have idleHere := idle i iBound j jBound
        rw [asks] at idleHere
        exact absurd idleHere.symm Bool.false_ne_true }

theorem MatchInv.iteration (inv : MatchInv numPort pairs k sch) :
    MatchInv numPort pairs (k + 1) (iteration sch) := by
  rcases iteration_maxMatch inv.tidy inv.inRange inv.maxMatch_eq with
    ⟨same, idle⟩ | ⟨i, j, iBound, jBound, asks, same⟩
  · rw [same]
    exact inv.idle idle
  · rw [same]
    exact inv.applyPair iBound jBound asks

theorem matchInv_afterIterations (inv : MatchInv numPort pairs 0 sch) (rounds : Nat) :
    MatchInv numPort pairs rounds (afterIterations rounds sch) := by
  apply forRange_induction (MatchInv numPort pairs) inv
  intro iter current _ before
  exact (before.setIterCnt iter).iteration

/-- Where nothing is asked for any more, the matching is maximal. -/
theorem MatchInv.isMaximal (inv : MatchInv numPort pairs k sch) (idle : sch.Idle)
    (inside : ∀ pair ∈ pairs, pair.1 < numPort ∧ pair.2 < numPort) :
    IsMaximal pairs sch.schResult := by
  rintro ⟨i, j⟩ requested
  rcases inside _ requested with ⟨iBound, jBound⟩
  have idleHere := idle i (inv.numPort_eq.symm ▸ iBound) j (inv.numPort_eq.symm ▸ jBound)
  have queued := (inv.ql_iff i iBound j jBound).mpr requested
  rw [← inv.inputOccupied_iff, ← inv.outputOccupied_iff]
  simp only [asked, inv.numPort_eq, queued, ne_eq, not_false_eq_true, decide_true,
    Bool.and_true, Bool.and_eq_false_iff, Bool.not_eq_false'] at idleHere
  exact idleHere

end Runs

section Start

variable {book : IslipBooksim} {pairs : List (Nat × Nat)}
  (inside : ∀ pair ∈ pairs, pair.1 < book.numPort ∧ pair.2 < book.numPort)

include inside

theorem matchInv_requesting (one : book.maxMatch = true) (inRange : book.InRange) :
    MatchInv book.numPort pairs 0 (requesting pairs book) where
  numPort_eq := rfl
  maxMatch_eq := one
  inRange := ⟨inRange.gi_lt, inRange.ai_lt⟩
  tidy := ⟨fun _ _ _ _ marked => by simp [requesting, init] at marked,
    fun _ _ _ _ _ => rfl, fun _ _ _ _ _ => rfl⟩
  ql_iff _ _ _ jBound := requesting_ql inside jBound
  isMatching := IsMatching.nil
  scheduled _ member := absurd member List.not_mem_nil
  inputOccupied_iff i := by simp [requesting, init]
  outputOccupied_iff j := by simp [requesting, init]
  progress := Or.inl rfl

/-- With `m_max_match`, after `init` and the `set_ql` calls of the requested
pairs, none of which throws, `islip_sch` matches requested pairs: one for each
iteration, or as many as leave no requested pair with both ports free. -/
theorem islipSch_maxMatch (one : book.maxMatch = true) (inRange : book.InRange) :
    ∃ ready, book.init.setQls pairs = some ready ∧
      IsMatching ready.islipSch.schResult ∧
      (∀ pair ∈ ready.islipSch.schResult, pair ∈ pairs) ∧
      (ready.islipSch.schResult.length = book.iterations.toNat ∨
        IsMaximal pairs ready.islipSch.schResult) ∧
      (book.numPort ≤ book.iterations → IsMaximal pairs ready.islipSch.schResult) := by
  have inv := matchInv_afterIterations ((matchInv_requesting inside one inRange).setIterCnt 0)
    book.iterations.toNat
  refine ⟨requesting pairs book, setQls_eq inside, inv.isMatching,
    fun pair member => (inv.scheduled pair member).2, ?_, fun enough => ?_⟩
  · rcases inv.progress with length | idle
    · exact Or.inl length
    · exact Or.inr (inv.isMaximal idle inside)
  · rcases inv.progress with length | idle
    · refine inv.isMatching.isMaximal (fun pair member => (inv.scheduled pair member).1)
        (fun pair member => (inside pair member).1) ?_
      omega
    · exact inv.isMaximal idle inside

end Start

/-- The requests of `TEST_booksim_max_match`. -/
theorem islipSch_maxMatch_four_ports :
    ∃ ready, (new 4 4 4 true).init.setQls [(0, 0), (0, 1), (2, 1), (2, 3), (3, 3)] = some ready ∧
      IsMaximal [(0, 0), (0, 1), (2, 1), (2, 3), (3, 3)] ready.islipSch.schResult := by
  rcases @islipSch_maxMatch (new 4 4 4 true) [(0, 0), (0, 1), (2, 1), (2, 3), (3, 3)]
    (by decide) rfl ⟨by decide, by decide⟩ with ⟨ready, set, -, -, -, enough⟩
  exact ⟨ready, set, enough (by decide)⟩

end SystemcTlm.Islip.IslipBooksim
