import SystemcTlm.Islip.Booksim

/-!
# An iteration of `islip_booksim` as a round

From tidy tables the phases carry out the round-robin round over the requests
of free ports, although the tables still hold the marks of earlier iterations:
every mark left over stands in the row of a matched input, which the phases
pass over.  The iteration leaves the tables tidy again.
-/

namespace SystemcTlm.Islip.IslipBooksim

open SystemcTlm.Loop SystemcTlm.Matching

/-! ## The phases -/

section Phases

variable (sch : IslipBooksim)

theorem sendRequest_eq :
    sendRequest sch =
      { sch with
        request := setMarks sch.numPort
          (fun input output => decide (sch.ql (flatIndex sch.numPort input output) ≠ 0))
          sch.request } := by
  refine @forRange_setMarks IslipBooksim (fun request => { sch with request := request })
    sch.numPort _ _ (fun input request _ => ?_) sch.request
  refine @forRange_setRow IslipBooksim (fun request => { sch with request := request })
    sch.numPort input _ _ (fun output request _ => ?_) request
  by_cases queued : sch.ql (flatIndex sch.numPort input output) ≠ 0
  · rw [if_pos (decide_eq_true queued)]
    exact if_pos queued
  · rw [if_neg (by simpa using queued)]
    exact if_neg queued

/-- The state after the listed grants, each an output with its input. -/
def grantAll (grants : List (Nat × Nat)) : IslipBooksim :=
  { sch with
    grant := writeAll (fun pair => flatIndex sch.numPort pair.2 pair.1) (fun _ => true) grants
      sch.grant }

theorem grantOutput_eq {found : Bool} (goesOn : found = false ∨ sch.maxMatch = false)
    {choice : Option Nat} (output : Nat)
    (chosen : choice = if sch.outputOccupied output then none
      else scan sch.numPort
        (fun input => if sch.inputOccupied input then false
          else sch.request (flatIndex sch.numPort input output)) (sch.gi output)) :
    grantOutput output (found, sch) =
      choice.elim (found, sch) fun input => (true, grantTo input output sch) :=
  (if_neg (by rcases goesOn with no | all <;> simp [*])).trans (elim_of_guard _ _ chosen)

/-- Without `m_max_match` every free output grants. -/
theorem doGrant_eq (all : sch.maxMatch = false) (choice : Nat → Option Nat)
    (chosen : ∀ output, output < sch.numPort → choice output =
      if sch.outputOccupied output then none
      else scan sch.numPort
        (fun input => if sch.inputOccupied input then false
          else sch.request (flatIndex sch.numPort input output)) (sch.gi output)) :
    doGrant sch = grantAll sch (pairsOf choice (List.range sch.numPort)) := by
  apply forRange_induction (fun k (current : Bool × IslipBooksim) =>
    current.2 = grantAll sch (pairsOf choice (List.range k))) rfl
  rintro k ⟨found, current⟩ bound same
  obtain rfl : current = grantAll sch (pairsOf choice (List.range k)) := same
  have pass := @grantOutput_eq (grantAll sch (pairsOf choice (List.range k))) found (Or.inr all) _ k
    (chosen k bound)
  rw [pass, List.range_succ, pairsOf_append, pairsOf_singleton]
  cases choice k with
  | none => simp
  | some input => simp [grantAll, grantTo, writeAll_append]

/-- The state after the listed acceptances. -/
def acceptAll (pairs : List (Nat × Nat)) : IslipBooksim :=
  { sch with
    accept := writeAll (fun pair => flatIndex sch.numPort pair.1 pair.2) (fun _ => true) pairs
      sch.accept }

theorem acceptInput_eq {found : Bool} (goesOn : found = false ∨ sch.maxMatch = false)
    {choice : Option Nat} (input : Nat)
    (chosen : choice = if sch.inputOccupied input then none
      else scan sch.numPort
        (fun output => if sch.outputOccupied output then false
          else sch.grant (flatIndex sch.numPort input output)) (sch.ai input)) :
    acceptInput input (found, sch) =
      choice.elim (found, sch) fun output => (true, acceptFrom input output sch) :=
  (if_neg (by rcases goesOn with no | all <;> simp [*])).trans (elim_of_guard _ _ chosen)

/-- Without `m_max_match` every free input accepts. -/
theorem doAccept_eq (all : sch.maxMatch = false) (choice : Nat → Option Nat)
    (chosen : ∀ input, input < sch.numPort → choice input =
      if sch.inputOccupied input then none
      else scan sch.numPort
        (fun output => if sch.outputOccupied output then false
          else sch.grant (flatIndex sch.numPort input output)) (sch.ai input)) :
    doAccept sch = acceptAll sch (pairsOf choice (List.range sch.numPort)) := by
  apply forRange_induction (fun k (current : Bool × IslipBooksim) =>
    current.2 = acceptAll sch (pairsOf choice (List.range k))) rfl
  rintro k ⟨found, current⟩ bound same
  obtain rfl : current = acceptAll sch (pairsOf choice (List.range k)) := same
  have pass := @acceptInput_eq (acceptAll sch (pairsOf choice (List.range k))) found (Or.inr all) _
    k (chosen k bound)
  rw [pass, List.range_succ, pairsOf_append, pairsOf_singleton]
  cases choice k with
  | none => simp
  | some output => simp [acceptAll, acceptFrom, writeAll_append]

/-- The state after the listed pairs have been committed. -/
def commitAll (pairs : List (Nat × Nat)) : IslipBooksim :=
  { sch with
    gi := if sch.iterCnt = 0 then
        writeAll Prod.snd (fun pair => (pair.1 + 1) % sch.numPort) pairs sch.gi
      else sch.gi
    ai := if sch.iterCnt = 0 then
        writeAll Prod.fst (fun pair => (pair.2 + 1) % sch.numPort) pairs sch.ai
      else sch.ai
    inputOccupied := writeAll Prod.fst (fun _ => true) pairs sch.inputOccupied
    outputOccupied := writeAll Prod.snd (fun _ => true) pairs sch.outputOccupied
    schResult := sch.schResult ++ pairs }

theorem commitAll_nil : commitAll sch [] = sch := by
  simp [commitAll]

theorem commitAll_concat (pairs : List (Nat × Nat)) (input output : Nat) :
    commitAll sch (pairs ++ [(input, output)]) = commit input output (commitAll sch pairs) := by
  simp only [commitAll, commit, writeAll_append, writeAll_cons, writeAll_nil, List.append_assoc]
  congr 1
  · split_ifs <;> rfl
  · split_ifs <;> rfl

/-- Among the free ports the accept table marks a matching. -/
theorem updatePriorityPtr_eq (choice : Nat → Option Nat)
    (inj : ∀ {input input' output}, choice input = some output → choice input' = some output →
      input = input')
    (free : ∀ {input output}, choice input = some output → output < sch.numPort ∧
      sch.inputOccupied input = false ∧ sch.outputOccupied output = false)
    (marked : ∀ input, input < sch.numPort → sch.inputOccupied input = false →
      ∀ output, output < sch.numPort →
        sch.accept (flatIndex sch.numPort input output) = decide (choice input = some output)) :
    updatePriorityPtr sch = commitAll sch (pairsOf choice (List.range sch.numPort)) := by
  apply forRange_induction
    (fun k current => current = commitAll sch (pairsOf choice (List.range k)))
    (commitAll_nil sch).symm
  rintro k _ kBound rfl
  have inputFlag : (commitAll sch (pairsOf choice (List.range k))).inputOccupied k =
      sch.inputOccupied k := by
    apply writeAll_of_not_mem
    intro pair member
    exact Nat.ne_of_lt (List.mem_range.mp (mem_pairsOf_iff.mp member).1)
  rw [updateRow, inputFlag, List.range_succ, pairsOf_append, pairsOf_singleton]
  split_ifs with occupied
  · cases accepts : choice k with
    | none => simp
    | some output => simp [(free accepts).2.1] at occupied
  · have unmatched : sch.inputOccupied k = false := by simpa using occupied
    have reject : ∀ output pairs, output < sch.numPort → choice k ≠ some output →
        updateCell k output (commitAll sch pairs) = commitAll sch pairs := by
      intro output pairs outputBound other
      have mark : (commitAll sch pairs).accept (flatIndex sch.numPort k output) = false :=
        (marked k kBound unmatched output outputBound).trans (decide_eq_false other)
      rw [updateCell]
      split_ifs with _ accepted
      · rfl
      · exact absurd (mark.symm.trans accepted) (by simp)
      · rfl
    apply forRange_choice (choice k)
    · intro rejects
      simp [rejects]
    · intro output accepts
      rcases free accepts with ⟨outputBound, _, outputFree⟩
      have outputFlag :
          (commitAll sch (pairsOf choice (List.range k))).outputOccupied output = false := by
        refine (writeAll_of_not_mem fun pair member same => ?_).trans outputFree
        rcases mem_pairsOf_iff.mp member with ⟨earlier, chosen⟩
        have equal := inj (same ▸ chosen) accepts
        have less := List.mem_range.mp earlier
        omega
      have mark : (commitAll sch (pairsOf choice (List.range k))).accept
          (flatIndex sch.numPort k output) = true :=
        (marked k kBound unmatched output outputBound).trans (decide_eq_true accepts)
      refine ⟨outputBound, ?_⟩
      rw [updateCell, outputFlag, if_neg Bool.false_ne_true, accepts]
      exact (if_pos mark).trans (commitAll_concat sch _ k output).symm
    · intro output outputBound other
      exact ⟨reject output _ outputBound other, reject output _ outputBound other⟩

end Phases

/-! ## The iteration -/

/-- The state after the choices of a round have been carried out. -/
def applyRound (sch : IslipBooksim) : IslipBooksim :=
  { sch with
    request := setMarks sch.numPort
      (fun input output => decide (sch.ql (flatIndex sch.numPort input output) ≠ 0)) sch.request
    grant := writeAll (fun pair => flatIndex sch.numPort pair.2 pair.1) (fun _ => true)
      (pairsOf sch.grantOf (List.range sch.numPort)) sch.grant
    accept := writeAll (fun pair => flatIndex sch.numPort pair.1 pair.2) (fun _ => true)
      sch.roundPairs sch.accept
    gi := if sch.iterCnt = 0 then
        writeAll Prod.snd (fun pair => (pair.1 + 1) % sch.numPort) sch.roundPairs sch.gi
      else sch.gi
    ai := if sch.iterCnt = 0 then
        writeAll Prod.fst (fun pair => (pair.2 + 1) % sch.numPort) sch.roundPairs sch.ai
      else sch.ai
    inputOccupied := writeAll Prod.fst (fun _ => true) sch.roundPairs sch.inputOccupied
    outputOccupied := writeAll Prod.snd (fun _ => true) sch.roundPairs sch.outputOccupied
    schResult := sch.schResult ++ sch.roundPairs }

/-- `send_request` marks requests of queued pairs only. -/
theorem Tidy.ql_of_setMarks {sch : IslipBooksim} (tidy : sch.Tidy) {input output : Nat}
    (inputBound : input < sch.numPort) (outputBound : output < sch.numPort)
    (marked : setMarks sch.numPort
      (fun input output => decide (sch.ql (flatIndex sch.numPort input output) ≠ 0)) sch.request
      (flatIndex sch.numPort input output) = true) :
    sch.ql (flatIndex sch.numPort input output) ≠ 0 := by
  rw [setMarks_flatIndex inputBound outputBound, Bool.or_eq_true, decide_eq_true_eq] at marked
  rcases marked with old | new
  · exact tidy.request_ql input inputBound output outputBound old
  · exact new

section Iteration

variable {sch : IslipBooksim} (tidy : sch.Tidy) (inRange : sch.InRange)

include inRange

/-- `grantOf` is what `do_grant` finds in the request table. -/
theorem grantOf_eq {output : Nat} (bound : output < sch.numPort) (request : Nat → Bool)
    (asks : ∀ input, input < sch.numPort → request (flatIndex sch.numPort input output) =
      decide (sch.ql (flatIndex sch.numPort input output) ≠ 0)) :
    sch.grantOf output =
      if sch.outputOccupied output then none
      else scan sch.numPort
        (fun input => if sch.inputOccupied input then false
          else request (flatIndex sch.numPort input output)) (sch.gi output) := by
  have ptr := inRange.gi_lt output bound
  rw [grantOf, scanGrant, if_pos bound]
  split_ifs with occupied
  · apply (scan_eq_none_iff ptr).mpr
    intro input _
    simp [asked, occupied]
  · apply scan_congr ptr
    intro input inputBound
    rw [asks input inputBound]
    cases taken : sch.inputOccupied input <;> simp [asked, taken, occupied]

/-- `acceptOf` is what `do_accept` finds in the row of a free input. -/
theorem acceptOf_eq {input : Nat} (bound : input < sch.numPort) (grant : Nat → Bool)
    (granted : sch.inputOccupied input = false → ∀ output, output < sch.numPort →
      grant (flatIndex sch.numPort input output) = decide (sch.grantOf output = some input)) :
    sch.acceptOf input =
      if sch.inputOccupied input then none
      else scan sch.numPort
        (fun output => if sch.outputOccupied output then false
          else grant (flatIndex sch.numPort input output)) (sch.ai input) := by
  split_ifs with occupied
  · rw [Option.eq_none_iff_forall_not_mem]
    intro output accepts
    simp [(acceptOf_asked inRange accepts).2.2.1] at occupied
  · rw [acceptOf, scanAccept, if_pos bound]
    apply scan_congr (inRange.ai_lt input bound)
    intro output outputBound
    rw [granted (by simpa using occupied) output outputBound]
    by_cases chosen : sch.grantOf output = some input
    · have asks := (grantOf_asked inRange chosen).2.2
      simp only [asked, Bool.and_eq_true, Bool.not_eq_true'] at asks
      change decide (sch.grantOf output = some input) = _
      simp [asks.1.2]
    · change decide (sch.grantOf output = some input) = _
      simp [chosen]

include tidy

/-- `grantOf` is what `do_grant` finds after `send_request`. -/
theorem grantOf_sendRequest {output : Nat} (bound : output < sch.numPort) :
    sch.grantOf output =
      if sch.outputOccupied output then none
      else scan sch.numPort
        (fun input => if sch.inputOccupied input then false
          else (sendRequest sch).request (flatIndex sch.numPort input output))
        (sch.gi output) := by
  apply grantOf_eq inRange bound
  intro input inputBound
  rw [sendRequest_eq]
  apply (setMarks_flatIndex inputBound bound _ _).trans
  cases marked : sch.request (flatIndex sch.numPort input output) with
  | true => simpa using tidy.request_ql input inputBound output bound marked
  | false => simp

/-- The phases carry out the round. -/
theorem iteration_eq (all : sch.maxMatch = false) : iteration sch = applyRound sch := by
  let requesting : IslipBooksim := { sch with
    request := setMarks sch.numPort
      (fun input output => decide (sch.ql (flatIndex sch.numPort input output) ≠ 0))
      sch.request }
  let granting := grantAll requesting (pairsOf sch.grantOf (List.range sch.numPort))
  let accepting := acceptAll granting sch.roundPairs
  have requested : sendRequest sch = requesting := sendRequest_eq sch
  have granted : doGrant requesting = granting := by
    apply doGrant_eq requesting all sch.grantOf
    intro output bound
    have chosen := grantOf_sendRequest tidy inRange bound
    rwa [requested] at chosen
  have accepted : doAccept granting = accepting := by
    apply doAccept_eq granting all sch.acceptOf
    intro input bound
    apply acceptOf_eq inRange bound granting.grant
    intro free output outputBound
    apply (writeAll_grants outputBound).trans
    change (sch.grant (flatIndex sch.numPort input output) || _) = _
    rw [tidy.grant_free input bound free output outputBound, Bool.false_or]
  have committed : updatePriorityPtr accepting = commitAll accepting sch.roundPairs := by
    refine updatePriorityPtr_eq accepting sch.acceptOf ?_ ?_ ?_
    · exact scanAccept_inj inRange.gi_lt inRange.ai_lt
    · intro input output accepts
      have asks := acceptOf_asked inRange accepts
      exact ⟨asks.2.1, asks.2.2.1, asks.2.2.2.1⟩
    · intro input bound free output outputBound
      refine (writeAll_accepts (fun pair member => ?_) outputBound).trans ?_
      · exact (acceptOf_asked inRange ((mem_roundPairs_iff inRange).mp member)).2.1
      · change (sch.accept (flatIndex sch.numPort input output) || _) = _
        rw [tidy.accept_free input bound free output outputBound, Bool.false_or,
          decide_eq_decide, mem_roundPairs_iff inRange]
  rw [iteration, requested, granted, accepted, committed]
  rfl

omit tidy in
/-- An input that is free after the round was free before it and accepted
nothing. -/
theorem free_of_applyRound {input : Nat}
    (free : (applyRound sch).inputOccupied input = false) :
    sch.inputOccupied input = false ∧ sch.acceptOf input = none := by
  change writeAll Prod.fst (fun _ => true) sch.roundPairs sch.inputOccupied input = false at free
  rw [writeAll_true, Bool.or_eq_false_iff, decide_eq_false_iff_not] at free
  refine ⟨free.1, ?_⟩
  rw [Option.eq_none_iff_forall_not_mem]
  exact fun output accepts =>
    free.2 ⟨(input, output), (mem_roundPairs_iff inRange).mpr accepts, rfl⟩

/-- The round leaves the tables tidy: an input it leaves free was granted
nothing. -/
theorem applyRound_tidy : (applyRound sch).Tidy where
  request_ql input inputBound output outputBound :=
    tidy.ql_of_setMarks inputBound outputBound
  grant_free input (inputBound : input < sch.numPort) free output
      (outputBound : output < sch.numPort) := by
    rcases free_of_applyRound inRange free with ⟨freeBefore, rejected⟩
    have ungranted : sch.grantOf output ≠ some input := fun granted => by
      have accepts := acceptOf_isSome inRange granted
      simp [rejected] at accepts
    apply (writeAll_grants outputBound).trans
    rw [tidy.grant_free input inputBound freeBefore output outputBound, Bool.false_or,
      decide_eq_false ungranted]
  accept_free input (inputBound : input < sch.numPort) free output
      (outputBound : output < sch.numPort) := by
    rcases free_of_applyRound inRange free with ⟨freeBefore, rejected⟩
    have unmatched : (input, output) ∉ sch.roundPairs := fun member => by
      have accepts := (mem_roundPairs_iff inRange).mp member
      simp [rejected] at accepts
    refine (writeAll_accepts (fun pair member => ?_) outputBound).trans ?_
    · exact (acceptOf_asked inRange ((mem_roundPairs_iff inRange).mp member)).2.1
    · rw [tidy.accept_free input inputBound freeBefore output outputBound, Bool.false_or,
        decide_eq_false unmatched]

omit tidy in
theorem applyRound_inRange : (applyRound sch).InRange where
  gi_lt output bound := by
    have old := inRange.gi_lt output bound
    simp only [applyRound]
    split_ifs
    · exact writeAll_induction (· < sch.numPort) old
        fun _ _ _ => Nat.mod_lt _ (Nat.zero_lt_of_lt bound)
    · exact old
  ai_lt input bound := by
    have old := inRange.ai_lt input bound
    simp only [applyRound]
    split_ifs
    · exact writeAll_induction (· < sch.numPort) old
        fun _ _ _ => Nat.mod_lt _ (Nat.zero_lt_of_lt bound)
    · exact old

end Iteration

end SystemcTlm.Islip.IslipBooksim
