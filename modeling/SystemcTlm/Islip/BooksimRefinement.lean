import SystemcTlm.Islip.BooksimRound
import SystemcTlm.Islip.PrioritySchedule

/-!
# `islip_booksim` agrees with `islip`

`islip_booksim` never clears its handshake tables, and its requests are marks
where `islip` counts cells.  With one priority and speedup 1 both nevertheless
make the same matches: between free ports a cell is left exactly where a request
stands, and the stale marks are in the rows of matched inputs only.
-/

namespace SystemcTlm.Islip.IslipBooksim

open SystemcTlm.Loop SystemcTlm.Matching

/-! ## The calls before `islip_sch` -/

theorem setQl_eq {sch : IslipBooksim} {i j : Nat} (iBound : i < sch.numPort)
    (jBound : j < sch.numPort) :
    setQl i j sch =
      some { sch with ql := Function.update sch.ql (flatIndex sch.numPort i j) 1 } := by
  have index : (i : Int) * sch.numPort + j = (flatIndex sch.numPort i j : Nat) := by
    rw [flatIndex]
    push_cast
    rfl
  have inside : (0 : Int) ≤ (flatIndex sch.numPort i j : Nat) ∧
      ((flatIndex sch.numPort i j : Nat) : Int) < sch.numPort * sch.numPort :=
    ⟨Int.natCast_nonneg _, by exact_mod_cast flatIndex_lt iBound jBound⟩
  simp only [setQl, index]
  rw [if_pos inside, Int.toNat_natCast]

theorem setQls_eq {sch : IslipBooksim} {pairs : List (Nat × Nat)}
    (inside : ∀ pair ∈ pairs, pair.1 < sch.numPort ∧ pair.2 < sch.numPort) :
    setQls pairs sch =
      some { sch with
        ql := writeAll (fun pair => flatIndex sch.numPort pair.1 pair.2) (fun _ => 1) pairs
          sch.ql } := by
  induction pairs generalizing sch with
  | nil => rfl
  | cons pair rest ih =>
      rcases inside pair List.mem_cons_self with ⟨iBound, jBound⟩
      rw [setQls, setQl_eq iBound jBound, Option.bind_some]
      exact ih fun other member => inside other (List.mem_cons_of_mem pair member)

/-- The state in which `islip_sch` is called. -/
def requesting (pairs : List (Nat × Nat)) (sch : IslipBooksim) : IslipBooksim :=
  { sch.init with
    ql := writeAll (fun pair => flatIndex sch.numPort pair.1 pair.2) (fun _ => 1) pairs
      fun _ => 0 }

theorem requesting_ql {pairs : List (Nat × Nat)} {sch : IslipBooksim} {i j : Nat}
    (inside : ∀ pair ∈ pairs, pair.1 < sch.numPort ∧ pair.2 < sch.numPort)
    (jBound : j < sch.numPort) :
    (requesting pairs sch).ql (flatIndex sch.numPort i j) ≠ 0 ↔ (i, j) ∈ pairs := by
  constructor
  · intro queued
    by_contra absent
    refine queued ((writeAll_of_not_mem fun pair member same => ?_).trans rfl)
    rcases (flatIndex_inj (inside pair member).2 jBound).mp same with ⟨rfl, rfl⟩
    exact absent member
  · intro member
    -- the last write to the entry is read back, and every write is 1
    suffices written : ∀ {entries : List (Nat × Nat)} {table : Nat → Int}, (i, j) ∈ entries →
        writeAll (fun pair => flatIndex sch.numPort pair.1 pair.2) (fun _ => 1) entries table
          (flatIndex sch.numPort i j) = 1 by
      change writeAll _ _ pairs _ _ ≠ 0
      rw [written member]
      exact one_ne_zero
    intro entries table entryMem
    induction entries generalizing table with
    | nil => simp at entryMem
    | cons entry rest ih =>
        rw [writeAll_cons]
        rcases List.mem_cons.mp entryMem with rfl | later
        · exact writeAll_induction (· = 1) (Function.update_self _ _ _) fun _ _ _ => rfl
        · exact ih later

/-! ## The simulation -/

/-- One priority, the same ports and pointers, and cells exactly for the
requested pairs. -/
structure SameRequests (book : IslipBooksim) (sch : PriorityIslip) (pairs : List (Nat × Nat)) :
    Prop where
  numPort_eq : sch.numPort = book.numPort
  numPrio_eq : sch.numPrio = 1
  gi_eq : ∀ j, j < book.numPort → sch.gi (flatIndex sch.numPort 0 j) = book.gi j
  ai_eq : ∀ i, i < book.numPort → sch.ai (flatIndex sch.numPort 0 i) = book.ai i
  pairs_lt : ∀ pair ∈ pairs, pair.1 < book.numPort ∧ pair.2 < book.numPort
  ql_iff : ∀ i, i < book.numPort → ∀ j, j < book.numPort →
    (0 < sch.ql (sch.qlIndex i j 0) ↔ (i, j) ∈ pairs)

/-- The simulation relation between iterations. -/
structure Related (book : IslipBooksim) (sch : PriorityIslip) : Prop where
  maxMatch_eq : book.maxMatch = false
  inRange : book.InRange
  tidy : book.Tidy
  numPort_eq : sch.numPort = book.numPort
  numPrio_eq : sch.numPrio = 1
  gi_eq : ∀ j, j < book.numPort → sch.gi (flatIndex sch.numPort 0 j) = book.gi j
  ai_eq : ∀ i, i < book.numPort → sch.ai (flatIndex sch.numPort 0 i) = book.ai i
  input_eq : ∀ i, i < book.numPort →
    sch.inputMatchCount i = if book.inputOccupied i then 1 else 0
  output_eq : ∀ j, j < book.numPort →
    sch.outputMatchCount j = if book.outputOccupied j then 1 else 0
  cells_iff : ∀ i, i < book.numPort → ∀ j, j < book.numPort →
    book.inputOccupied i = false → book.outputOccupied j = false →
      (0 < sch.shadowQl (sch.qlIndex i j 0) ↔ book.ql (flatIndex book.numPort i j) ≠ 0)
  schResult_eq : sch.schResult = book.schResult

section Simulation

variable {book : IslipBooksim} {sch : PriorityIslip} {pairs : List (Nat × Nat)}

theorem SameRequests.related (same : SameRequests book sch pairs) (all : book.maxMatch = false)
    (inRange : book.InRange) : Related (requesting pairs book) (PriorityIslip.startSch sch) where
  maxMatch_eq := all
  inRange := ⟨inRange.gi_lt, inRange.ai_lt⟩
  tidy := ⟨fun _ _ _ _ marked => by simp [requesting, init] at marked,
    fun _ _ _ _ _ => rfl, fun _ _ _ _ _ => rfl⟩
  numPort_eq := same.numPort_eq
  numPrio_eq := same.numPrio_eq
  gi_eq := same.gi_eq
  ai_eq := same.ai_eq
  input_eq _ _ := rfl
  output_eq _ _ := rfl
  cells_iff i iBound j jBound _ _ :=
    (same.ql_iff i iBound j jBound).trans (requesting_ql same.pairs_lt jBound).symm
  schResult_eq := rfl

theorem Related.schRange (related : Related book sch) : sch.InRange where
  gi_lt prio prioBound j jBound := by
    obtain rfl : prio = 0 := by
      have one := related.numPrio_eq
      omega
    rw [related.gi_eq j (related.numPort_eq ▸ jBound), related.numPort_eq]
    exact related.inRange.gi_lt j (related.numPort_eq ▸ jBound)
  ai_lt prio prioBound i iBound := by
    obtain rfl : prio = 0 := by
      have one := related.numPrio_eq
      omega
    rw [related.ai_eq i (related.numPort_eq ▸ iBound), related.numPort_eq]
    exact related.inRange.ai_lt i (related.numPort_eq ▸ iBound)

theorem Related.prioBound (related : Related book sch) : 0 < sch.numPrio := by
  rw [related.numPrio_eq]
  exact Nat.one_pos

/-- Related states ask for the same pairs. -/
theorem Related.wanted_eq (related : Related book sch) {i j : Nat} (iBound : i < book.numPort)
    (jBound : j < book.numPort) : sch.wanted 1 0 i j = book.asked i j := by
  rw [PriorityIslip.wanted, related.input_eq i iBound, related.output_eq j jBound, asked]
  by_cases input : book.inputOccupied i = true
  · simp [input]
  · by_cases output : book.outputOccupied j = true
    · simp [output]
    · have cells := related.cells_iff i iBound j jBound (by simpa using input)
        (by simpa using output)
      simp [input, output, cells]

theorem Related.acceptOf_eq (related : Related book sch) : sch.acceptOf 1 0 = book.acceptOf := by
  have gBound := related.schRange.gi_lt 0 related.prioBound
  unfold PriorityIslip.acceptOf acceptOf
  rw [related.numPort_eq] at gBound ⊢
  exact scanAccept_congr (fun i iBound j jBound => related.wanted_eq iBound jBound) gBound
    (related.numPort_eq ▸ related.gi_eq) (related.numPort_eq ▸ related.ai_eq)

theorem Related.roundPairs_eq (related : Related book sch) :
    sch.roundPairs 1 0 = book.roundPairs := by
  rw [PriorityIslip.roundPairs, roundPairs, related.acceptOf_eq, related.numPort_eq]

/-- One iteration of either side. -/
theorem Related.round (related : Related book sch) (sameIter : sch.currentIter = book.iterCnt) :
    Related (applyRound book) (PriorityIslip.applyRound 1 0 true sch) where
  maxMatch_eq := related.maxMatch_eq
  inRange := applyRound_inRange related.inRange
  tidy := applyRound_tidy related.tidy related.inRange
  numPort_eq := related.numPort_eq
  numPrio_eq := related.numPrio_eq
  gi_eq j jBound := by
    have old := related.gi_eq j jBound
    simp only [PriorityIslip.applyRound, applyRound, if_true, related.roundPairs_eq, sameIter,
      related.numPort_eq, flatIndex_zero] at old ⊢
    split_ifs
    · exact writeAll_congr old
    · exact old
  ai_eq i iBound := by
    have old := related.ai_eq i iBound
    simp only [PriorityIslip.applyRound, applyRound, related.roundPairs_eq, sameIter,
      related.numPort_eq, flatIndex_zero, true_and, not_true_eq_false, or_false] at old ⊢
    split_ifs
    · exact writeAll_congr old
    · exact old
  input_eq i iBound := by
    have isMatching := roundPairs_isMatching related.inRange
    have flag : (applyRound book).inputOccupied i = _ := writeAll_true_mem i
    rw [flag, ← count_eq_flag]
    · simp only [PriorityIslip.applyRound, related.roundPairs_eq, related.input_eq i iBound,
        isMatching.inputs_nodup.count]
    · rintro occupied member
      rcases List.mem_map.mp member with ⟨pair, pairMem, rfl⟩
      have accepts := acceptOf_asked related.inRange
        ((mem_roundPairs_iff related.inRange).mp pairMem)
      simp [accepts.2.2.1] at occupied
  output_eq j jBound := by
    have isMatching := roundPairs_isMatching related.inRange
    have flag : (applyRound book).outputOccupied j = _ := writeAll_true_mem j
    rw [flag, ← count_eq_flag]
    · simp only [PriorityIslip.applyRound, related.roundPairs_eq, related.output_eq j jBound,
        isMatching.outputs_nodup.count]
    · rintro occupied member
      rcases List.mem_map.mp member with ⟨pair, pairMem, rfl⟩
      have accepts := acceptOf_asked related.inRange
        ((mem_roundPairs_iff related.inRange).mp pairMem)
      simp [accepts.2.2.2.1] at occupied
  cells_iff i iBound j jBound inputFree outputFree := by
    rcases free_of_applyRound related.inRange inputFree with ⟨inputBefore, rejected⟩
    have outputBefore : book.outputOccupied j = false := by
      have flag : (applyRound book).outputOccupied j = _ := writeAll_true_mem j
      rw [flag, Bool.or_eq_false_iff] at outputFree
      exact outputFree.1
    have jBound' : j < sch.numPort := related.numPort_eq.symm ▸ jBound
    have kept := PriorityIslip.shadowQl_applyRound 1 true
      related.schRange related.prioBound (i := i) jBound' related.prioBound
    rw [related.acceptOf_eq, rejected, if_neg (by simp), Int.sub_zero] at kept
    exact (iff_of_eq (congrArg (0 < ·) kept)).trans
      (related.cells_iff i iBound j jBound inputBefore outputBefore)
  schResult_eq := by
    simp only [PriorityIslip.applyRound, applyRound, related.schResult_eq, related.roundPairs_eq]

/-- Every number of iterations of either side. -/
theorem SameRequests.related_iterations (same : SameRequests book sch pairs)
    (all : book.maxMatch = false) (inRange : book.InRange) (k : Nat) :
    Related (afterIterations k { requesting pairs book with iterCnt := 0 })
      (PriorityIslip.iterations 1 true 0 k (PriorityIslip.startSch sch)) := by
  have start := same.related all inRange
  refine forRange_relate (fun _ => Related)
    { start with
      inRange := ⟨start.inRange.gi_lt, start.inRange.ai_lt⟩
      tidy := ⟨start.tidy.request_ql, start.tidy.grant_free, start.tidy.accept_free⟩ } ?_
  intro iter first second _ before
  have related : Related { first with iterCnt := iter } { second with currentIter := iter } :=
    { before with
      inRange := ⟨before.inRange.gi_lt, before.inRange.ai_lt⟩
      tidy := ⟨before.tidy.request_ql, before.tidy.grant_free, before.tidy.accept_free⟩ }
  rw [PriorityIslip.iteration_eq related.schRange related.prioBound,
    iteration_eq related.tidy related.inRange related.maxMatch_eq]
  exact related.round rfl

end Simulation

/-- `islip_booksim` agrees with `islip`: after `init` and the `set_ql` calls of
the requested pairs, none of which throws, its `islip_sch` gives the result and
the pointers of `islip` with one priority and speedup 1. -/
theorem islipSch_agrees {book : IslipBooksim} {sch : PriorityIslip} {pairs : List (Nat × Nat)}
    (same : SameRequests book sch pairs) (all : book.maxMatch = false)
    (inRange : book.InRange) :
    ∃ ready, book.init.setQls pairs = some ready ∧
      ready.islipSch.schResult = (sch.islipSch book.iterations 1 true).schResult ∧
      (∀ j, j < book.numPort → ready.islipSch.gi j =
        (sch.islipSch book.iterations 1 true).gi (flatIndex sch.numPort 0 j)) ∧
      ∀ i, i < book.numPort → ready.islipSch.ai i =
        (sch.islipSch book.iterations 1 true).ai (flatIndex sch.numPort 0 i) := by
  have start := same.related all inRange
  have related := same.related_iterations all inRange book.iterations.toNat
  have started : PriorityIslip.Frame sch (PriorityIslip.startSch sch) :=
    PriorityIslip.Frame.startSch ⟨start.schRange.gi_lt, start.schRange.ai_lt⟩
  have frame := started.iterations start.prioBound 1 true book.iterations.toNat
  have ports := related.numPort_eq.symm.trans (frame.numPort_eq.trans same.numPort_eq)
  refine ⟨requesting pairs book, setQls_eq same.pairs_lt, ?_⟩
  rw [PriorityIslip.islipSch_one same.numPrio_eq, ← frame.numPort_eq]
  refine ⟨related.schResult_eq.symm, fun j jBound => ?_, fun i iBound => ?_⟩
  · exact (related.gi_eq j (ports.symm ▸ jBound)).symm
  · exact (related.ai_eq i (ports.symm ▸ iBound)).symm

/-- Two inputs that request the same output. -/
theorem islipSch_agrees_two_ports :
    ∃ ready, (new 2 2 2).init.setQls [(0, 0), (1, 0)] = some ready ∧
      ready.islipSch.schResult =
        ((PriorityIslip.run 2 2 1 [.setQl 0 0 0, .setQl 1 0 0]).islipSch 2 1 true).schResult ∧
      (∀ j, j < 2 → ready.islipSch.gi j =
        ((PriorityIslip.run 2 2 1 [.setQl 0 0 0, .setQl 1 0 0]).islipSch 2 1 true).gi
          (flatIndex 2 0 j)) ∧
      ∀ i, i < 2 → ready.islipSch.ai i =
        ((PriorityIslip.run 2 2 1 [.setQl 0 0 0, .setQl 1 0 0]).islipSch 2 1 true).ai
          (flatIndex 2 0 i) := by
  have agrees := @islipSch_agrees (new 2 2 2)
    (PriorityIslip.run 2 2 1 [.setQl 0 0 0, .setQl 1 0 0]) [(0, 0), (1, 0)]
    ⟨rfl, rfl, by decide, by decide, by decide, by decide⟩ rfl ⟨by decide, by decide⟩
  have iterations : (new 2 2 2).iterations = 2 := rfl
  have ports : (new 2 2 2).numPort = 2 := rfl
  have islipPorts : (PriorityIslip.run 2 2 1 [.setQl 0 0 0, .setQl 1 0 0]).numPort = 2 := rfl
  rwa [iterations, ports, islipPorts] at agrees

end SystemcTlm.Islip.IslipBooksim
