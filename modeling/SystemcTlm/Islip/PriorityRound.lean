import SystemcTlm.Islip.PriorityIslip
import SystemcTlm.Matching.RoundRobin

/-!
# An iteration of `islip` as a round

`wanted` is what the inputs of an iteration ask for: a cell of the level in the
shadow queue and quota on both sides.  The phases carry out the round-robin
round over these requests.  Each phase has one lemma that gives the state after
it, table by table at the entries in range, and `iteration_spec` puts them
together.
-/

namespace SystemcTlm.Islip.PriorityIslip

open SystemcTlm.Loop SystemcTlm.Matching

/-- The pointers of every level stand on ports. -/
structure InRange (sch : PriorityIslip) : Prop where
  gi_lt : ∀ prio, prio < sch.numPrio → ∀ j, j < sch.numPort →
    sch.gi (flatIndex sch.numPort prio j) < sch.numPort
  ai_lt : ∀ prio, prio < sch.numPrio → ∀ i, i < sch.numPort →
    sch.ai (flatIndex sch.numPort prio i) < sch.numPort

section Choices

variable (speedup : Int) (prio : Nat) (sch : PriorityIslip)

/-- A request of the level: quota on both sides and a cell. -/
def wanted (i j : Nat) : Bool :=
  decide (sch.inputMatchCount i < speedup ∧ sch.outputMatchCount j < speedup ∧
    0 < sch.shadowQl (sch.qlIndex i j prio))

/-- The input that the output grants. -/
def grantOf (j : Nat) : Option Nat :=
  scanGrant sch.numPort sch.numPort (sch.wanted speedup prio)
    (fun j => sch.gi (flatIndex sch.numPort prio j)) j

/-- The output whose grant the input accepts. -/
def acceptOf (i : Nat) : Option Nat :=
  scanAccept sch.numPort sch.numPort (sch.wanted speedup prio)
    (fun j => sch.gi (flatIndex sch.numPort prio j))
    (fun i => sch.ai (flatIndex sch.numPort prio i)) i

/-- The matches of an iteration, by input. -/
def roundPairs : List (Nat × Nat) :=
  pairsOf (sch.acceptOf speedup prio) (List.range sch.numPort)

end Choices

section Round

variable {speedup : Int} {prio : Nat} {sch : PriorityIslip} (inRange : sch.InRange)
  (prioBound : prio < sch.numPrio)

include inRange prioBound

theorem acceptOf_wanted {i j : Nat} (accepts : sch.acceptOf speedup prio i = some j) :
    i < sch.numPort ∧ j < sch.numPort ∧ sch.wanted speedup prio i j = true :=
  scanAccept_request (inRange.gi_lt prio prioBound) (inRange.ai_lt prio prioBound) accepts

theorem mem_roundPairs_iff {i j : Nat} :
    (i, j) ∈ sch.roundPairs speedup prio ↔ sch.acceptOf speedup prio i = some j :=
  mem_scanPairs_iff (inRange.gi_lt prio prioBound) (inRange.ai_lt prio prioBound)

theorem roundPairs_lt {pair : Nat × Nat} (member : pair ∈ sch.roundPairs speedup prio) :
    pair.1 < sch.numPort ∧ pair.2 < sch.numPort := by
  have accepted := acceptOf_wanted inRange prioBound
    ((mem_roundPairs_iff inRange prioBound).mp member)
  exact ⟨accepted.1, accepted.2.1⟩

/-- A matched pair had quota on both sides and a cell of the level. -/
theorem wanted_of_mem_roundPairs {pair : Nat × Nat}
    (member : pair ∈ sch.roundPairs speedup prio) :
    sch.inputMatchCount pair.1 < speedup ∧ sch.outputMatchCount pair.2 < speedup ∧
      0 < sch.shadowQl (sch.qlIndex pair.1 pair.2 prio) := by
  have accepted := acceptOf_wanted inRange prioBound
    ((mem_roundPairs_iff inRange prioBound).mp member)
  exact of_decide_eq_true accepted.2.2

theorem roundPairs_isMatching : IsMatching (sch.roundPairs speedup prio) :=
  scanPairs_isMatching (inRange.gi_lt prio prioBound) (inRange.ai_lt prio prioBound)

/-- A round matches a pair at most once. -/
theorem count_roundPairs (i j : Nat) :
    (sch.roundPairs speedup prio).count (i, j) =
      if sch.acceptOf speedup prio i = some j then 1 else 0 := by
  rw [(roundPairs_isMatching inRange prioBound).nodup.count]
  simp only [mem_roundPairs_iff inRange prioBound]

theorem roundPairs_length_pos {i j : Nat} (iBound : i < sch.numPort) (jBound : j < sch.numPort)
    (asks : sch.wanted speedup prio i j = true) : 0 < (sch.roundPairs speedup prio).length :=
  scanPairs_length_pos (inRange.gi_lt prio prioBound) (inRange.ai_lt prio prioBound) iBound jBound
    asks

end Round

/-! ## `send_request` -/

section Phases

variable (speedup : Int) (prio : Nat) (isIslipMode : Bool) (sch : PriorityIslip)

theorem requestRow_eq (i : Nat) (request : Nat → Bool) :
    requestRow speedup prio i { sch with request := request } =
      { sch with request := setRow sch.numPort i (sch.wanted speedup prio i) request } := by
  unfold requestRow
  split_ifs with spent
  · have asks : sch.wanted speedup prio i = fun _ => false := by
      funext j
      simp only [wanted, decide_eq_false_iff_not, not_and]
      exact fun quota => absurd quota (not_lt_of_ge spent)
    rw [asks, setRow_none]
  · refine forRange_setRow (fun request => { sch with request := request }) ?_ request
    intro j request _
    have quota : sch.inputMatchCount i < speedup := not_le.mp spent
    by_cases asks : sch.outputMatchCount j < speedup ∧ 0 < sch.shadowQl (sch.qlIndex i j prio)
    · rw [if_pos (by simpa [wanted, quota] using asks)]
      exact if_pos asks
    · rw [if_neg (by simpa [wanted, quota] using asks)]
      exact if_neg asks

theorem sendRequest_eq :
    sendRequest speedup prio sch =
      { sch with request := setMarks sch.numPort (sch.wanted speedup prio) sch.request } :=
  @forRange_setMarks PriorityIslip (fun request => { sch with request := request }) sch.numPort
    (requestRow speedup prio) (sch.wanted speedup prio)
    (fun i request _ => requestRow_eq speedup prio sch i request) sch.request

/-! ## `do_grant` -/

/-- The state after the listed grants, each an output with its input. -/
def grantAll (grants : List (Nat × Nat)) : PriorityIslip :=
  { sch with
    grant := writeAll (fun pair => flatIndex sch.numPort pair.2 pair.1) (fun _ => true) grants
      sch.grant
    gi := if isIslipMode then sch.gi
      else writeAll (fun pair => flatIndex sch.numPort prio pair.1)
        (fun pair => (pair.2 + 1) % sch.numPort) grants sch.gi }

theorem grantAll_concat (grants : List (Nat × Nat)) (i j : Nat) :
    grantAll prio isIslipMode sch (grants ++ [(j, i)]) =
      grantTo prio isIslipMode i j (grantAll prio isIslipMode sch grants) := by
  cases isIslipMode <;> simp [grantAll, grantTo, writeAll_append]

theorem grantOutput_eq {choice : Option Nat} (j : Nat)
    (chosen : choice = if speedup ≤ sch.outputMatchCount j then none
      else scan sch.numPort (fun i => sch.request (flatIndex sch.numPort i j))
        (sch.gi (flatIndex sch.numPort prio j))) :
    grantOutput speedup prio isIslipMode j sch =
      choice.elim sch fun i => grantTo prio isIslipMode i j sch :=
  elim_of_guard _ _ chosen

/-- An output reads only its own pointer, which no earlier output has moved. -/
theorem doGrant_eq (choice : Nat → Option Nat)
    (chosen : ∀ j, j < sch.numPort → choice j =
      if speedup ≤ sch.outputMatchCount j then none
      else scan sch.numPort (fun i => sch.request (flatIndex sch.numPort i j))
        (sch.gi (flatIndex sch.numPort prio j))) :
    doGrant speedup prio isIslipMode sch =
      grantAll prio isIslipMode sch (pairsOf choice (List.range sch.numPort)) := by
  apply forRange_induction
    (fun k current => current = grantAll prio isIslipMode sch (pairsOf choice (List.range k)))
    (by simp [grantAll, pairsOf])
  rintro k _ bound rfl
  have ptr : (grantAll prio isIslipMode sch (pairsOf choice (List.range k))).gi
      (flatIndex sch.numPort prio k) = sch.gi (flatIndex sch.numPort prio k) := by
    cases isIslipMode with
    | true => rfl
    | false =>
        apply writeAll_of_not_mem
        intro pair member same
        have earlier := List.mem_range.mp (mem_pairsOf_iff.mp member).1
        have equal := ((flatIndex_inj (by omega) bound).mp same).2
        omega
  have found : choice k = _ := chosen k bound
  rw [← ptr] at found
  rw [grantOutput_eq speedup prio isIslipMode _ k found, List.range_succ, pairsOf_append,
    pairsOf_singleton]
  cases choice k with
  | none => simp
  | some i => exact (grantAll_concat prio isIslipMode sch _ i k).symm

/-! ## `do_accept` -/

/-- The state after the listed acceptances have been marked and charged. -/
def chargeAll (pairs : List (Nat × Nat)) : PriorityIslip :=
  { sch with
    accept := writeAll (fun pair => flatIndex sch.numPort pair.1 pair.2) (fun _ => true) pairs
      sch.accept
    inputMatchCount := fun i => sch.inputMatchCount i + (pairs.map Prod.fst).count i
    outputMatchCount := fun j => sch.outputMatchCount j + (pairs.map Prod.snd).count j
    shadowQl := fun index => sch.shadowQl index -
      (pairs.map fun pair => sch.qlIndex pair.1 pair.2 prio).count index }

/-- A counter with one more entry counted. -/
theorem count_concat (entries : List Nat) (entry index : Nat) :
    ((entries ++ [entry]).count index : Int) =
      entries.count index + if index = entry then 1 else 0 := by
  rw [List.count_append, List.count_singleton]
  by_cases here : index = entry
  · simp [here]
  · simp [here, Ne.symm here]

theorem chargeAll_concat (pairs : List (Nat × Nat)) (i j : Nat) :
    chargeAll prio sch (pairs ++ [(i, j)]) = acceptFrom prio i j (chargeAll prio sch pairs) := by
  simp only [chargeAll, acceptFrom, writeAll_append, writeAll_cons, writeAll_nil, List.map_append,
    List.map_cons, List.map_nil, count_concat]
  congr 1
  · funext index
    simp only [qlIndex, Function.update_apply]
    split_ifs with here
    · rw [here]
      omega
    · omega
  · funext input
    by_cases here : input = i <;> simp [here, Int.add_assoc]
  · funext output
    by_cases here : output = j <;> simp [here, Int.add_assoc]

theorem acceptInput_eq {choice : Option Nat} (i : Nat)
    (chosen : choice = if speedup ≤ sch.inputMatchCount i then none
      else scan sch.numPort (fun j => sch.grant (flatIndex sch.numPort i j))
        (sch.ai (flatIndex sch.numPort prio i))) :
    acceptInput speedup prio i sch = choice.elim sch fun j => acceptFrom prio i j sch :=
  elim_of_guard _ _ chosen

/-- An input reads its own counter and pointer, which no earlier input has
touched. -/
theorem doAccept_eq (choice : Nat → Option Nat)
    (chosen : ∀ i, i < sch.numPort → choice i =
      if speedup ≤ sch.inputMatchCount i then none
      else scan sch.numPort (fun j => sch.grant (flatIndex sch.numPort i j))
        (sch.ai (flatIndex sch.numPort prio i))) :
    doAccept speedup prio sch =
      chargeAll prio sch (pairsOf choice (List.range sch.numPort)) := by
  apply forRange_induction
    (fun k current => current = chargeAll prio sch (pairsOf choice (List.range k)))
    (by simp [chargeAll, pairsOf])
  rintro k _ bound rfl
  have uncharged : (chargeAll prio sch (pairsOf choice (List.range k))).inputMatchCount k =
      sch.inputMatchCount k := by
    have absent : k ∉ (pairsOf choice (List.range k)).map Prod.fst := by
      rw [map_fst_pairsOf]
      simp
    simp [chargeAll, List.count_eq_zero_of_not_mem absent]
  have found : choice k = _ := chosen k bound
  rw [← uncharged] at found
  rw [acceptInput_eq speedup prio _ k found, List.range_succ, pairsOf_append, pairsOf_singleton]
  cases choice k with
  | none => simp
  | some j => exact (chargeAll_concat prio sch _ k j).symm

/-! ## `update_priority_ptr` -/

/-- The state after the listed pairs have been committed. -/
def commitAll (pairs : List (Nat × Nat)) : PriorityIslip :=
  { sch with
    gi := if isIslipMode ∧ sch.currentIter = 0 then
        writeAll (fun pair => flatIndex sch.numPort prio pair.2)
          (fun pair => (pair.1 + 1) % sch.numPort) pairs sch.gi
      else sch.gi
    ai := if (isIslipMode ∧ sch.currentIter = 0) ∨ ¬isIslipMode then
        writeAll (fun pair => flatIndex sch.numPort prio pair.1)
          (fun pair => (pair.2 + 1) % sch.numPort) pairs sch.ai
      else sch.ai
    schResult := sch.schResult ++ pairs }

theorem commitAll_concat (pairs : List (Nat × Nat)) (i j : Nat) :
    commitAll prio isIslipMode sch (pairs ++ [(i, j)]) =
      commit prio isIslipMode i j (commitAll prio isIslipMode sch pairs) := by
  simp only [commitAll, commit, writeAll_append, writeAll_cons, writeAll_nil, List.append_assoc]
  congr 1
  · split_ifs <;> rfl
  · split_ifs <;> rfl

/-- A row of the accept table has at most one mark. -/
theorem updatePriorityPtr_eq (choice : Nat → Option Nat)
    (bound : ∀ i j, choice i = some j → j < sch.numPort)
    (marked : ∀ i, i < sch.numPort → ∀ j, j < sch.numPort →
      sch.accept (flatIndex sch.numPort i j) = decide (choice i = some j)) :
    updatePriorityPtr prio isIslipMode sch =
      commitAll prio isIslipMode sch (pairsOf choice (List.range sch.numPort)) := by
  apply forRange_induction
    (fun k current => current = commitAll prio isIslipMode sch (pairsOf choice (List.range k)))
    (by simp [commitAll, pairsOf])
  rintro k _ kBound rfl
  have cell : ∀ j pairs, j < sch.numPort →
      updateCell prio isIslipMode k j (commitAll prio isIslipMode sch pairs) =
        if choice k = some j then
          commit prio isIslipMode k j (commitAll prio isIslipMode sch pairs)
        else commitAll prio isIslipMode sch pairs := by
    intro j pairs jBound
    have mark : (commitAll prio isIslipMode sch pairs).accept (flatIndex sch.numPort k j) =
        decide (choice k = some j) := marked k kBound j jBound
    change (if (commitAll prio isIslipMode sch pairs).accept (flatIndex sch.numPort k j) = true
      then _ else _) = _
    rw [mark]
    simp only [decide_eq_true_eq]
  rw [List.range_succ, pairsOf_append, pairsOf_singleton]
  apply forRange_choice (choice k)
  · intro rejects
    simp [rejects]
  · intro j accepts
    have jBound := bound k j accepts
    refine ⟨jBound, ?_⟩
    rw [cell j _ jBound, if_pos accepts, ← commitAll_concat, accepts]
    rfl
  · intro j jBound other
    exact ⟨(cell j _ jBound).trans (if_neg other), (cell j _ jBound).trans (if_neg other)⟩

end Phases

/-! ## The iteration -/

/-- The state after the choices of a round have been carried out. -/
def applyRound (speedup : Int) (prio : Nat) (isIslipMode : Bool) (sch : PriorityIslip) :
    PriorityIslip :=
  { sch with
    request := setMarks sch.numPort (sch.wanted speedup prio) fun _ => false
    grant := writeAll (fun pair => flatIndex sch.numPort pair.2 pair.1) (fun _ => true)
      (pairsOf (sch.grantOf speedup prio) (List.range sch.numPort)) fun _ => false
    accept := writeAll (fun pair => flatIndex sch.numPort pair.1 pair.2) (fun _ => true)
      (sch.roundPairs speedup prio) fun _ => false
    gi := if isIslipMode then
        if sch.currentIter = 0 then
          writeAll (fun pair => flatIndex sch.numPort prio pair.2)
            (fun pair => (pair.1 + 1) % sch.numPort) (sch.roundPairs speedup prio) sch.gi
        else sch.gi
      else
        writeAll (fun pair => flatIndex sch.numPort prio pair.1)
          (fun pair => (pair.2 + 1) % sch.numPort)
          (pairsOf (sch.grantOf speedup prio) (List.range sch.numPort)) sch.gi
    ai := if (isIslipMode ∧ sch.currentIter = 0) ∨ ¬isIslipMode then
        writeAll (fun pair => flatIndex sch.numPort prio pair.1)
          (fun pair => (pair.2 + 1) % sch.numPort) (sch.roundPairs speedup prio) sch.ai
      else sch.ai
    inputMatchCount := fun i =>
      sch.inputMatchCount i + ((sch.roundPairs speedup prio).map Prod.fst).count i
    outputMatchCount := fun j =>
      sch.outputMatchCount j + ((sch.roundPairs speedup prio).map Prod.snd).count j
    shadowQl := fun index => sch.shadowQl index -
      ((sch.roundPairs speedup prio).map fun pair => sch.qlIndex pair.1 pair.2 prio).count index
    schResult := sch.schResult ++ sch.roundPairs speedup prio }

section Iteration

variable {speedup : Int} {prio : Nat} {sch : PriorityIslip} (inRange : sch.InRange)
  (prioBound : prio < sch.numPrio)

include inRange prioBound

/-- `grantOf` is what `do_grant` finds in the request table. -/
theorem grantOf_eq {j : Nat} (jBound : j < sch.numPort) (request : Nat → Bool)
    (asked : ∀ i, i < sch.numPort →
      request (flatIndex sch.numPort i j) = sch.wanted speedup prio i j) :
    sch.grantOf speedup prio j =
      if speedup ≤ sch.outputMatchCount j then none
      else scan sch.numPort (fun i => request (flatIndex sch.numPort i j))
        (sch.gi (flatIndex sch.numPort prio j)) := by
  have gBound := inRange.gi_lt prio prioBound j jBound
  rw [grantOf, scanGrant, if_pos jBound]
  split_ifs with spent
  · apply (scan_eq_none_iff gBound).mpr
    intro i _
    simp only [wanted, decide_eq_false_iff_not, not_and]
    exact fun _ quota => absurd quota (not_lt_of_ge spent)
  · exact scan_congr gBound fun i iBound => (asked i iBound).symm

/-- `acceptOf` is what `do_accept` finds in the grant table. -/
theorem acceptOf_eq {i : Nat} (iBound : i < sch.numPort) (grant : Nat → Bool)
    (granted : ∀ j, j < sch.numPort →
      grant (flatIndex sch.numPort i j) = decide (sch.grantOf speedup prio j = some i)) :
    sch.acceptOf speedup prio i =
      if speedup ≤ sch.inputMatchCount i then none
      else scan sch.numPort (fun j => grant (flatIndex sch.numPort i j))
        (sch.ai (flatIndex sch.numPort prio i)) := by
  split_ifs with spent
  · rw [Option.eq_none_iff_forall_not_mem]
    intro j accepts
    have asks := (acceptOf_wanted inRange prioBound accepts).2.2
    simp only [wanted, decide_eq_true_eq] at asks
    exact absurd asks.1 (not_lt_of_ge spent)
  · rw [acceptOf, scanAccept, if_pos iBound]
    exact scan_congr (inRange.ai_lt prio prioBound i iBound) fun j jBound =>
      (granted j jBound).symm

/-- The phases carry out the round. -/
theorem iteration_eq (isIslipMode : Bool) :
    iteration speedup prio isIslipMode sch = applyRound speedup prio isIslipMode sch := by
  let grants := pairsOf (sch.grantOf speedup prio) (List.range sch.numPort)
  let requesting : PriorityIslip := { sch.clearHandshake with
    request := setMarks sch.numPort (sch.wanted speedup prio) fun _ => false }
  let granting := grantAll prio isIslipMode requesting grants
  let accepting := chargeAll prio granting (sch.roundPairs speedup prio)
  have requested : sendRequest speedup prio sch.clearHandshake = requesting :=
    sendRequest_eq speedup prio sch.clearHandshake
  have granted : doGrant speedup prio isIslipMode requesting = granting := by
    apply doGrant_eq speedup prio isIslipMode requesting (sch.grantOf speedup prio)
    intro j jBound
    apply grantOf_eq inRange prioBound jBound requesting.request
    intro i iBound
    change setMarks _ _ (fun _ => false) _ = _
    rw [setMarks_flatIndex iBound jBound, Bool.false_or]
  have accepted : doAccept speedup prio granting = accepting := by
    apply doAccept_eq speedup prio granting (sch.acceptOf speedup prio)
    intro i iBound
    apply acceptOf_eq inRange prioBound iBound granting.grant
    intro j jBound
    exact (writeAll_grants jBound).trans (Bool.false_or _)
  have committed : updatePriorityPtr prio isIslipMode accepting =
      commitAll prio isIslipMode accepting (sch.roundPairs speedup prio) := by
    apply updatePriorityPtr_eq prio isIslipMode accepting (sch.acceptOf speedup prio)
      (fun i j accepts => (acceptOf_wanted inRange prioBound accepts).2.1)
    intro i iBound j jBound
    refine (writeAll_accepts (fun pair member => ?_) jBound).trans ?_
    · exact (roundPairs_lt inRange prioBound member).2
    · change (false || _) = _
      rw [Bool.false_or, decide_eq_decide, mem_roundPairs_iff inRange prioBound]
  rw [iteration, requested, granted, accepted, committed]
  simp only [commitAll, accepting, chargeAll, granting, grantAll, requesting, clearHandshake,
    applyRound]
  congr 1
  cases isIslipMode <;> simp [grants]

end Iteration

end SystemcTlm.Islip.PriorityIslip
