import SystemcTlm.Islip.IslipSp

/-!
# Levels in one iteration of `islip_sp`

The levels decide which input an output grants.  An input that several outputs
have granted accepts the first of them from its pointer, and the level of the
cell plays no part.
-/

namespace SystemcTlm.Islip.IslipSp

open SystemcTlm.Loop SystemcTlm.Matching

/-- The state in which iteration `r` of `arbitration` begins. -/
def atIteration (sp : IslipSp) (r : Nat) : SpArbiter :=
  { VoqArbiter.afterRounds (discipline sp.priorityLevels) r sp.toVoqArbiter with iterCnt := r }

/-- The state after `do_grant` of iteration `r`. -/
def atGrant (sp : IslipSp) (r : Nat) : SpArbiter :=
  doGrant sp.priorityLevels (sp.atIteration r)

/-- The state after `do_accept` of iteration `r`. -/
def atAccept (sp : IslipSp) (r : Nat) : SpArbiter :=
  doAccept sp.priorityLevels (sp.atGrant r)

/-- The state after `update_pointers` of iteration `r`. -/
def atUpdate (sp : IslipSp) (r : Nat) : SpArbiter :=
  updatePointers sp.priorityLevels (sp.atAccept r)

section Iteration

variable {sp : IslipSp} (inRange : sp.InRange) (r : Nat)

include inRange

theorem slotInv_atIteration :
    VoqArbiter.SlotInv (discipline sp.priorityLevels) (Waiting sp.priorityLevels) sp.toVoqArbiter
      (VoqArbiter.slotPairs (discipline sp.priorityLevels) r sp.toVoqArbiter)
      (sp.atIteration r) :=
  (VoqArbiter.slotInv_afterRounds (discipline_lawful sp.priorityLevels) inRange r).setIterCnt r

theorem atGrant_grants (output input : Nat) :
    (sp.atGrant r).grants output input = 1 ↔
      VoqArbiter.grantOf (discipline sp.priorityLevels) (sp.atIteration r) output = some input := by
  rw [atGrant, doGrant, VoqArbiter.doGrant_eq _ _ (slotInv_atIteration inRange r).noGrants]
  simp [VoqArbiter.granted]

theorem atAccept_accepts (input output : Nat) :
    (sp.atAccept r).accepts input output = 1 ↔
      VoqArbiter.acceptOf (discipline sp.priorityLevels) (sp.atIteration r) input =
        some output := by
  have inv := slotInv_atIteration inRange r
  rw [atAccept, doAccept, atGrant, doGrant, VoqArbiter.doGrant_eq _ _ inv.noGrants,
    VoqArbiter.doAccept_eq _ _ inv.noAccepts]
  simp [VoqArbiter.accepted]

/-- The entry that an accepted pair leaves in the result has the first level of
its queue. -/
theorem firstLevel_of_atUpdate {input output : Nat} {level : Int}
    (accepts : (sp.atAccept r).accepts input output = 1)
    (sent : (input, output, level) ∈ (sp.atUpdate r).schResult) :
    ∃ p : Nat, level = p ∧
      firstLevel sp.priorityLevels ((sp.atIteration r).voq input output) = some p := by
  have inv := slotInv_atIteration inRange r
  have lawful := discipline_lawful sp.priorityLevels
  have chosen := (atAccept_accepts inRange r input output).mp accepts
  have member := VoqArbiter.mem_roundPairs_iff.mpr chosen
  have update : (sp.atUpdate r).schResult =
      (VoqArbiter.iteration (discipline sp.priorityLevels) (sp.atIteration r)).schResult := rfl
  rw [update, VoqArbiter.iteration_eq lawful inv.inRange inv.noGrants inv.noAccepts] at sent
  rcases List.mem_append.mp sent with earlier | now
  · rw [inv.schResult_eq] at earlier
    rcases List.mem_map.mp earlier with ⟨pair, scheduled, same⟩
    have used : input ∈ (VoqArbiter.slotPairs (discipline sp.priorityLevels) r
        sp.toVoqArbiter).map Prod.fst :=
      List.mem_map.mpr ⟨pair, scheduled, congrArg Prod.fst same⟩
    exact absurd used (inv.fresh lawful member).1
  · rcases List.mem_map.mp now with ⟨⟨i, j⟩, scheduled, same⟩
    cases same
    rcases (VoqArbiter.roundOf lawful inv.inRange).accept_request chosen with ⟨-, -, -, -, waits⟩
    rcases Option.isSome_iff_exists.mp (firstLevel_isSome waits) with ⟨p, first⟩
    exact ⟨p, by rw [first]; rfl, first⟩

/-- No free input has a cell above the level at which an accepted output is
sent. -/
theorem free_below_of_accepts {input output p : Nat}
    (accepts : (sp.atAccept r).accepts input output = 1)
    (first : firstLevel sp.priorityLevels ((sp.atIteration r).voq input output) = some p)
    {other q : Nat} (otherBound : other < sp.inputNum)
    (free : (sp.atIteration r).inputOccupied other = false) (above : q < p) :
    (sp.atIteration r).voq other output q ≤ 0 := by
  have inv := slotInv_atIteration inRange r
  have lawful := discipline_lawful sp.priorityLevels
  have chosen := (atAccept_accepts inRange r input output).mp accepts
  obtain ⟨-, outputBound, -, outputFree, -⟩ :=
    (VoqArbiter.roundOf lawful inv.inRange).accept_request chosen
  have granted : VoqArbiter.grantOf (discipline sp.priorityLevels) (sp.atIteration r) output =
      some input :=
    (VoqArbiter.roundOf lawful inv.inRange).accept_grant chosen
  rw [VoqArbiter.grantOf, if_pos ⟨outputBound, outputFree⟩] at granted
  obtain ⟨-, -, level, levelBound, cell, noneAbove⟩ :=
    selectInput_spec r output (inv.inRange.gPtr_lt output outputBound) granted
  have notAbove : p ≤ level := by
    by_contra less
    have empty := (firstLevel_eq_some_iff.mp first).2.2 level (by omega)
    omega
  exact noneAbove q (by omega) other (inv.inputNum_eq.symm ▸ otherBound) free

/-- Of the outputs that granted an input, the accepted one is the first from
the input's pointer. -/
theorem accepts_nearest {input output other : Nat}
    (accepts : (sp.atAccept r).accepts input output = 1)
    (granted : (sp.atGrant r).grants other input = 1) (different : other ≠ output) :
    ringDist sp.outputNum ((sp.atIteration r).aPtr input) output <
      ringDist sp.outputNum ((sp.atIteration r).aPtr input) other := by
  have inv := slotInv_atIteration inRange r
  have lawful := discipline_lawful sp.priorityLevels
  have chosen := (atAccept_accepts inRange r input output).mp accepts
  have grant := (atGrant_grants inRange r other input).mp granted
  obtain ⟨inputBound, outputBound, inputFree, -, -⟩ :=
    (VoqArbiter.roundOf lawful inv.inRange).accept_request chosen
  obtain ⟨-, otherBound, -, otherFree, -⟩ :=
    (VoqArbiter.roundOf lawful inv.inRange).grant_request grant
  have startBound := inv.inRange.aPtr_lt input inputBound
  rw [VoqArbiter.acceptOf, if_pos ⟨inputBound, inputFree⟩] at chosen
  have nearest := ringDist_scan_le startBound chosen otherBound (by simp [otherFree, grant])
  have apart := mt (ringDist_inj startBound outputBound otherBound).mp different.symm
  rw [← inv.outputNum_eq]
  omega

end Iteration

/-- Levels in every iteration, from every state the calls reach.  If an input
accepts an output and a cell of level `p` is sent, then `p` is the first level
of their queue, no free input has a cell above `p` for that output, and every
other output that granted the input comes later from the input's pointer,
whatever the levels of its queue. -/
theorem accept_first_granted (iterations voqSize : Int) (priorityLevels : Nat)
    {inputNum outputNum : Nat} (inputs : 1 ≤ inputNum) (outputs : 1 ≤ outputNum)
    (calls : List Call) {sp : IslipSp}
    (reached : sp = run inputNum outputNum iterations voqSize priorityLevels calls)
    {r input output : Nat} {level : Int}
    (accepts : (sp.atAccept r).accepts input output = 1)
    (sent : (input, output, level) ∈ (sp.atUpdate r).schResult) :
    (∃ p : Nat, level = p ∧
      firstLevel priorityLevels ((sp.atIteration r).voq input output) = some p ∧
      ∀ other q, other < inputNum → (sp.atIteration r).inputOccupied other = false → q < p →
        (sp.atIteration r).voq other output q ≤ 0) ∧
    ∀ other, (sp.atGrant r).grants other input = 1 → other ≠ output →
      ringDist outputNum ((sp.atIteration r).aPtr input) output <
        ringDist outputNum ((sp.atIteration r).aPtr input) other := by
  have inv := runInv_run iterations voqSize priorityLevels inputs outputs calls
  rw [← reached] at inv
  rcases firstLevel_of_atUpdate inv.inRange r accepts sent with ⟨p, same, first⟩
  constructor
  · refine ⟨p, same, inv.priorityLevels_eq ▸ first, fun other q bound free above => ?_⟩
    exact free_below_of_accepts inv.inRange r accepts first (inv.inputNum_eq.symm ▸ bound) free
      above
  · intro other granted different
    rw [← inv.outputNum_eq]
    exact accepts_nearest inv.inRange r accepts granted different

/-- Both outputs grant the only input, which has a low cell for the first and a
high one for the second. -/
theorem accept_first_granted_two_grants : ringDist 2 0 0 < ringDist 2 0 1 := by
  have accepts : ((run 1 2 1 4 2 [.request 0 0 1, .request 0 1 0]).atAccept 0).accepts 0 0 = 1 := by
    decide +kernel
  have sent : (0, 0, 1) ∈
      ((run 1 2 1 4 2 [.request 0 0 1, .request 0 1 0]).atUpdate 0).schResult := by
    decide +kernel
  have granted : ((run 1 2 1 4 2 [.request 0 0 1, .request 0 1 0]).atGrant 0).grants 1 0 = 1 := by
    decide +kernel
  exact (accept_first_granted 1 4 2 (by decide) (by decide) _ rfl accepts sent).2 1 granted
    (by decide)

/-- On the same input the low cell is sent. -/
theorem not_accept_strict :
    ¬ ∀ (inputNum outputNum : Nat) (iterations voqSize : Int) (priorityLevels : Nat)
      (calls : List Call), 1 ≤ inputNum → 1 ≤ outputNum →
      ∀ sp, sp = run inputNum outputNum iterations voqSize priorityLevels calls →
      ∀ r, r < iterations.toNat → ∀ input output, ∀ p : Nat,
        (sp.atAccept r).accepts input output = 1 →
        (input, output, (p : Int)) ∈ (sp.atUpdate r).schResult →
        ∀ other, (sp.atGrant r).grants other input = 1 →
          ∀ q, q < p → (sp.atIteration r).voq input other q ≤ 0 := by
  intro strict
  have empty := strict 1 2 1 4 2 [.request 0 0 1, .request 0 1 0] (by decide) (by decide) _ rfl 0
    (by decide) 0 0 1 (by decide +kernel) (by decide +kernel) 1 (by decide +kernel) 0 (by decide)
  revert empty
  decide +kernel

end SystemcTlm.Islip.IslipSp
