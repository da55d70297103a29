import SystemcTlm.Islip.BooksimRefinement
import SystemcTlm.Islip.Refinement
import SystemcTlm.Islip.SlipPointers

/-!
# Fairness of `islip_booksim`

In each slot the requests are marked anew, and only the pointers are left of the
slot before.  A slot makes the matches that `islip_basic` makes with one cell for
each request: `general` stands between the two, since both have been compared
with `islip`.  The rank of a request that stays until it is served therefore
falls from slot to slot.
-/

namespace SystemcTlm.Islip.IslipBooksim

open SystemcTlm.Loop SystemcTlm.Matching
open PairScheduler (islipBasic)

/-- A slot: `init`, `set_ql` for each requested pair, and `islip_sch`. -/
def slot (pairs : List (Nat × Nat)) (book : IslipBooksim) : Option IslipBooksim :=
  (book.init.setQls pairs).map islipSch

/-! ## What a slot keeps -/

/-- `current` has the sizes of `start`, and pointers on ports. -/
structure Sized (start current : IslipBooksim) : Prop where
  numPort_eq : current.numPort = start.numPort
  maxMatch_eq : current.maxMatch = false
  iterations_eq : current.iterations = start.iterations
  inRange : current.InRange

/-- The state during a slot. -/
structure Keeps (start current : IslipBooksim) : Prop extends Sized start current where
  tidy : current.Tidy

variable {start book current : IslipBooksim} {pairs : List (Nat × Nat)}

theorem Sized.requesting (sized : Sized start book) (pairs : List (Nat × Nat)) :
    Keeps start (requesting pairs book) where
  numPort_eq := sized.numPort_eq
  maxMatch_eq := sized.maxMatch_eq
  iterations_eq := sized.iterations_eq
  inRange := ⟨sized.inRange.gi_lt, sized.inRange.ai_lt⟩
  tidy :=
    { request_ql := fun _ _ _ _ marked => absurd marked Bool.false_ne_true
      grant_free := fun _ _ _ _ _ => rfl
      accept_free := fun _ _ _ _ _ => rfl }

/-- The counter is no part of it. -/
theorem Keeps.setIterCnt (keeps : Keeps start current) (iter : Nat) :
    Keeps start { current with iterCnt := iter } :=
  { keeps with
    inRange := ⟨keeps.inRange.gi_lt, keeps.inRange.ai_lt⟩
    tidy := ⟨keeps.tidy.request_ql, keeps.tidy.grant_free, keeps.tidy.accept_free⟩ }

theorem Keeps.iteration (keeps : Keeps start current) : Keeps start current.iteration := by
  rw [iteration_eq keeps.tidy keeps.inRange keeps.maxMatch_eq]
  exact
    { numPort_eq := keeps.numPort_eq
      maxMatch_eq := keeps.maxMatch_eq
      iterations_eq := keeps.iterations_eq
      inRange := applyRound_inRange keeps.inRange
      tidy := applyRound_tidy keeps.tidy keeps.inRange }

theorem Keeps.afterIterations (keeps : Keeps start current) (k : Nat) :
    Keeps start (afterIterations k current) :=
  forRange_induction (fun _ => Keeps start) keeps fun iter _ _ before =>
    (before.setIterCnt iter).iteration

theorem Sized.islipSch (sized : Sized start book) (pairs : List (Nat × Nat)) :
    Sized start (IslipBooksim.requesting pairs book).islipSch :=
  have keeps := ((sized.requesting pairs).setIterCnt 0).afterIterations book.iterations.toNat
  { numPort_eq := keeps.numPort_eq
    maxMatch_eq := keeps.maxMatch_eq
    iterations_eq := keeps.iterations_eq
    inRange := ⟨keeps.inRange.gi_lt, keeps.inRange.ai_lt⟩ }

/-- The calls of a slot do not throw. -/
theorem slot_eq (inside : ∀ pair ∈ pairs, pair.1 < book.numPort ∧ pair.2 < book.numPort) :
    book.slot pairs = some (requesting pairs book).islipSch := by
  have ready : book.init.setQls pairs = some (requesting pairs book) := setQls_eq inside
  rw [slot, ready]
  rfl

/-! ## The same slot of `islip` and of `islip_basic` -/

/-- The queues with one cell for each requested pair. -/
def cells (pairs : List (Nat × Nat)) (input output : Nat) : Int :=
  if pairs.contains (input, output) then 1 else 0

theorem cells_pos_iff {input output : Nat} : 0 < cells pairs input output ↔
    (input, output) ∈ pairs := by
  rw [cells]
  split_ifs with requested
  · exact iff_of_true Int.one_pos (List.contains_iff_mem.mp requested)
  · exact iff_of_false (Int.lt_irrefl 0) fun member =>
      requested (List.contains_iff_mem.mpr member)

/-- `islip` with one priority, the same pointers and these queues. -/
def general (pairs : List (Nat × Nat)) (book : IslipBooksim) : PriorityIslip where
  numPort := book.numPort
  numPrio := 1
  gi := book.gi
  ai := book.ai
  ql := fun index => cells pairs (index / book.numPort) (index % book.numPort)
  accept := fun _ => false
  request := fun _ => false
  grant := fun _ => false
  schResult := []
  shadowQl := fun _ => 0
  inputMatchCount := fun _ => 0
  outputMatchCount := fun _ => 0
  currentIter := 0

theorem general_ql {i j : Nat} (jBound : j < book.numPort) :
    (general pairs book).ql ((general pairs book).qlIndex i j 0) = cells pairs i j := by
  have index : (general pairs book).qlIndex i j 0 = j + book.numPort * i := by
    change (i * book.numPort + j) * 1 + 0 = _
    rw [Nat.mul_one, Nat.add_zero, Nat.add_comm, Nat.mul_comm]
  have pos : 0 < book.numPort := Nat.zero_lt_of_lt jBound
  rw [index]
  change cells pairs ((j + book.numPort * i) / _) ((j + book.numPort * i) % _) = _
  rw [Nat.add_mul_div_left _ _ pos, Nat.div_eq_of_lt jBound, Nat.zero_add, Nat.add_mul_mod_self_left,
    Nat.mod_eq_of_lt jBound]

/-- `arbiter` has the ports and pointers of the scheduler and these queues. -/
structure Mirrors (pairs : List (Nat × Nat)) (book : IslipBooksim) (arbiter : PairArbiter) :
    Prop where
  inputNum_eq : arbiter.inputNum = book.numPort
  outputNum_eq : arbiter.outputNum = book.numPort
  iterations_eq : arbiter.iterations = book.iterations
  gPtr_eq : ∀ j, j < book.numPort → arbiter.gPtr j = book.gi j
  aPtr_eq : ∀ i, i < book.numPort → arbiter.aPtr i = book.ai i
  voq_eq : arbiter.voq = cells pairs

section Mirror

variable {arbiter : PairArbiter} (mirrors : Mirrors pairs book arbiter)

include mirrors

theorem Mirrors.inRange (inRange : book.InRange) : arbiter.InRange where
  gPtr_lt j jBound := by
    rw [mirrors.outputNum_eq] at jBound
    rw [mirrors.gPtr_eq j jBound, mirrors.inputNum_eq]
    exact inRange.gi_lt j jBound
  aPtr_lt i iBound := by
    rw [mirrors.inputNum_eq] at iBound
    rw [mirrors.aPtr_eq i iBound, mirrors.outputNum_eq]
    exact inRange.ai_lt i iBound

theorem Mirrors.sameStart : PriorityIslip.SameStart (general pairs book) arbiter where
  numPrio_eq := rfl
  inputNum_eq := mirrors.inputNum_eq
  outputNum_eq := mirrors.outputNum_eq
  gi_eq j jBound := by
    rw [flatIndex_zero]
    exact (mirrors.gPtr_eq j jBound).symm
  ai_eq i iBound := by
    rw [flatIndex_zero]
    exact (mirrors.aPtr_eq i iBound).symm
  ql_eq i _ j jBound := by
    rw [general_ql jBound, mirrors.voq_eq]

end Mirror

theorem sameRequests (inside : ∀ pair ∈ pairs, pair.1 < book.numPort ∧ pair.2 < book.numPort) :
    SameRequests book (general pairs book) pairs where
  numPort_eq := rfl
  numPrio_eq := rfl
  gi_eq j _ := congrArg book.gi (flatIndex_zero book.numPort j)
  ai_eq i _ := congrArg book.ai (flatIndex_zero book.numPort i)
  pairs_lt := inside
  ql_iff i _ j jBound := by
    rw [general_ql jBound]
    exact cells_pos_iff

/-! ## Slots -/

/-- The arbitration of a slot, with the queues of the next one. -/
def nextArbiter (pairs : List (Nat × Nat)) (arbiter : PairArbiter) : PairArbiter :=
  { islipBasic.arbitration arbiter with voq := cells pairs }

/-- A slot is defined and gives the result and the pointers of `islip_basic`. -/
theorem Mirrors.slot {arbiter : PairArbiter} (mirrors : Mirrors pairs book arbiter)
    (sized : Sized start book)
    (inside : ∀ pair ∈ pairs, pair.1 < start.numPort ∧ pair.2 < start.numPort) :
    ∃ next, book.slot pairs = some next ∧ Sized start next ∧
      next.schResult = islipBasic.scheduledPairs arbiter ∧
      ∀ later, Mirrors later next (nextArbiter later arbiter) := by
  rw [← sized.numPort_eq] at inside
  have arbiterRange := mirrors.inRange sized.inRange
  have inv := islipBasic.slotInv arbiterRange
  have after := sized.islipSch pairs
  have toIslip := (sameRequests inside).related_iterations sized.maxMatch_eq sized.inRange
    book.iterations.toNat
  have toBasic :=
    mirrors.sameStart.related_iterations islipBasic arbiterRange book.iterations.toNat
  have arbitration := islipBasic.arbitration_eq arbiter
  rw [mirrors.iterations_eq] at arbitration
  have numPort := sized.numPort_eq.trans after.numPort_eq.symm
  refine ⟨(requesting pairs book).islipSch, slot_eq inside, after, ?_, fun later => ?_⟩
  · rw [← islipBasic.schResult_eq arbiterRange, arbitration]
    exact toIslip.schResult_eq.symm.trans toBasic.schResult_eq
  · exact
      { inputNum_eq := inv.inputNum_eq.trans (mirrors.inputNum_eq.trans numPort)
        outputNum_eq := inv.outputNum_eq.trans (mirrors.outputNum_eq.trans numPort)
        iterations_eq := inv.iterations_eq.trans
          (mirrors.iterations_eq.trans (sized.iterations_eq.trans after.iterations_eq.symm))
        gPtr_eq := fun j jBound => by
          have bound := Nat.lt_of_lt_of_eq jBound toIslip.numPort_eq.symm
          change (islipBasic.arbitration arbiter).gPtr j = _
          rw [arbitration]
          exact (toBasic.gi_eq j bound).symm.trans (toIslip.gi_eq j jBound)
        aPtr_eq := fun i iBound => by
          have bound := Nat.lt_of_lt_of_eq iBound toIslip.numPort_eq.symm
          change (islipBasic.arbitration arbiter).aPtr i = _
          rw [arbitration]
          exact (toBasic.ai_eq i bound).symm.trans (toIslip.ai_eq i iBound)
        voq_eq := rfl }

/-! ## Runs -/

/-- A run of slots, each with its requests.  A pair that a slot does not serve is
requested again in the next one. -/
structure Run (requests : Nat → List (Nat × Nat)) (states : Nat → IslipBooksim) : Prop where
  slots : ∀ t, (states t).slot (requests t) = some (states (t + 1))
  inside : ∀ t, ∀ pair ∈ requests t, pair.1 < (states 0).numPort ∧ pair.2 < (states 0).numPort
  stays : ∀ t, ∀ pair ∈ requests t, pair ∉ (states (t + 1)).schResult → pair ∈ requests (t + 1)

/-- `islip_basic` beside the run. -/
def arbiterAt (requests : Nat → List (Nat × Nat)) (start : IslipBooksim) : Nat → PairArbiter
  | 0 =>
      { IslipBasic.new start.numPort start.numPort start.iterations 1 with
        gPtr := start.gi
        aPtr := start.ai
        voq := cells (requests 0) }
  | t + 1 => nextArbiter (requests (t + 1)) (arbiterAt requests start t)

section Fairness

variable {requests : Nat → List (Nat × Nat)} {states : Nat → IslipBooksim}
  (run : Run requests states) (all : (states 0).maxMatch = false) (inRange : (states 0).InRange)

include run all inRange

theorem mirrors_arbiterAt (t : Nat) :
    Sized (states 0) (states t) ∧
      Mirrors (requests t) (states t) (arbiterAt requests (states 0) t) := by
  induction t with
  | zero => exact ⟨⟨rfl, all, rfl, inRange⟩, rfl, rfl, rfl, fun _ _ => rfl, fun _ _ => rfl, rfl⟩
  | succ t ih =>
      rcases ih with ⟨sized, mirrors⟩
      rcases mirrors.slot sized (run.inside t) with ⟨next, made, nextSized, -, nextMirrors⟩
      obtain rfl := Option.some.inj ((run.slots t).symm.trans made)
      exact ⟨nextSized, nextMirrors _⟩

theorem schResult_arbiterAt (t : Nat) :
    (states (t + 1)).schResult =
      islipBasic.scheduledPairs (arbiterAt requests (states 0) t) := by
  rcases mirrors_arbiterAt run all inRange t with ⟨sized, mirrors⟩
  rcases mirrors.slot sized (run.inside t) with ⟨next, made, -, result, -⟩
  rwa [← Option.some.inj ((run.slots t).symm.trans made)] at result

theorem iterations_arbiterAt (t : Nat) :
    (arbiterAt requests (states 0) t).iterations = (states 0).iterations := by
  rcases mirrors_arbiterAt run all inRange t with ⟨sized, mirrors⟩
  exact mirrors.iterations_eq.trans sized.iterations_eq

/-- A slot is one of the rank argument. -/
theorem follows_arbiterAt (rounds : 1 ≤ (states 0).iterations) (t : Nat) :
    VoqArbiter.Follows IslipBasic.discipline (0 < ·) (arbiterAt requests (states 0) t)
      (arbiterAt requests (states 0) (t + 1)) := by
  rcases mirrors_arbiterAt run all inRange t with ⟨sized, mirrors⟩
  apply islipBasic_follows (mirrors.inRange sized.inRange)
    (rounds.trans_eq (iterations_arbiterAt run all inRange t).symm)
  intro input output unserved waits
  rw [mirrors.voq_eq, cells_pos_iff] at waits
  rw [cells_pos_iff]
  apply run.stays t _ waits
  rwa [schResult_arbiterAt run all inRange t]

/-- No request starves: with `N` ports, a pair that is requested in `N * N * N` slots
is served by one of them. -/
theorem slots_serve (rounds : 1 ≤ (states 0).iterations) {input output : Nat}
    (inputBound : input < (states 0).numPort) (outputBound : output < (states 0).numPort)
    (waits : ∀ t, t < (states 0).numPort * (states 0).numPort * (states 0).numPort →
      (input, output) ∈ requests t) :
    ∃ t, t < (states 0).numPort * (states 0).numPort * (states 0).numPort ∧
      (input, output) ∈ (states (t + 1)).schResult := by
  have during := fun t => mirrors_arbiterAt run all inRange t
  have served := VoqArbiter.exists_scheduled islipBasic_slip islipBasic.lawful
    (arbiterAt requests (states 0)) (fun t => (during t).2.inRange (during t).1.inRange)
    (fun t => rounds.trans_eq (iterations_arbiterAt run all inRange t).symm)
    (follows_arbiterAt run all inRange rounds) inputBound outputBound
    (fun t within => by
      rw [decide_eq_true_eq, (during t).2.voq_eq, cells_pos_iff]
      exact waits t within)
  rcases served with ⟨t, within, member⟩
  refine ⟨t, within, ?_⟩
  rw [schResult_arbiterAt run all inRange t]
  exact member

end Fairness

/-! ## The slots of one set of requests -/

/-- The run in which every slot has the same requests. -/
def steady (pairs : List (Nat × Nat)) (start : IslipBooksim) : Nat → IslipBooksim
  | 0 => start
  | t + 1 => (requesting pairs (steady pairs start t)).islipSch

theorem sized_steady (pairs : List (Nat × Nat)) (all : start.maxMatch = false)
    (inRange : start.InRange) (t : Nat) : Sized start (steady pairs start t) := by
  induction t with
  | zero => exact ⟨rfl, all, rfl, inRange⟩
  | succ t ih => exact ih.islipSch pairs

theorem steady_run (all : start.maxMatch = false) (inRange : start.InRange)
    (inside : ∀ pair ∈ pairs, pair.1 < start.numPort ∧ pair.2 < start.numPort) :
    Run (fun _ => pairs) (steady pairs start) where
  slots t := slot_eq ((sized_steady pairs all inRange t).numPort_eq ▸ inside)
  inside _ := inside
  stays _ _ requested _ := requested

/-- The five requests that the test of the source makes in every slot, with its three
ports and two iterations. -/
theorem slots_serve_three_ports :
    ∃ t, t < 3 * 3 * 3 ∧ (0, 1) ∈
      (steady [(0, 0), (0, 1), (0, 2), (1, 1), (2, 1)] (new 3 3 2) (t + 1)).schResult :=
  have inRange : (new 3 3 2).InRange := ⟨by decide, by decide⟩
  @slots_serve (fun _ => [(0, 0), (0, 1), (0, 2), (1, 1), (2, 1)])
    (steady [(0, 0), (0, 1), (0, 2), (1, 1), (2, 1)] (new 3 3 2))
    (steady_run rfl inRange (by decide)) rfl inRange (by decide) 0 1 (by decide) (by decide)
    fun _ _ => by decide

end SystemcTlm.Islip.IslipBooksim
