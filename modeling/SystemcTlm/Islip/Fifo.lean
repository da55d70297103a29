import SystemcTlm.Loop.Range
import SystemcTlm.Loop.Scan
import SystemcTlm.Loop.Tables
import SystemcTlm.Transition.Run
import Mathlib.Data.List.Nodup

/-!
# `fifo`

The input-queued scheduler.  An input keeps its packets in one queue, and only
the packet at the head can be sent.  An output grants the first input from its
pointer whose head is for it.  As a head has one destination, no input is
granted twice, and the heads that are sent one after the other are those the
grants were made for.
-/

namespace SystemcTlm.Islip

open SystemcTlm.Loop SystemcTlm.Transition

/-- The members of `fifo` that its calls read, and the grants of the last
arbitration. -/
structure Fifo where
  inputNum : Nat
  outputNum : Nat
  /-- The destinations of the packets of each input. -/
  fifos : Nat → List Int
  /-- Grant pointer of each output. -/
  gPtr : Nat → Nat
  /-- `grants output input`. -/
  grants : Nat → Nat → Int

/-- A line `Match: In … -> Out …`, with the destination of the packet that is
popped. -/
structure FifoMatch where
  input : Nat
  output : Nat
  destination : Int
  deriving DecidableEq

namespace Fifo

/-- The constructor. -/
def new (inputNum outputNum : Nat) : Fifo where
  inputNum := inputNum
  outputNum := outputNum
  fifos := fun _ => []
  gPtr := fun _ => 0
  grants := fun _ _ => 0

/-- `fifo::request`.  The output is not checked. -/
def request (input output : Int) (fifo : Fifo) : Fifo :=
  if 0 ≤ input ∧ input < fifo.inputNum then
    { fifo with
      fifos := Function.update fifo.fifos input.toNat (fifo.fifos input.toNat ++ [output]) }
  else fifo

/-- `reset` -/
def reset (fifo : Fifo) : Fifo :=
  { fifo with grants := fun _ _ => 0 }

/-- Staggers the grant pointers, modulo the number of outputs. -/
def initPriorityPtr (fifo : Fifo) : Fifo :=
  forRange fifo.outputNum (fun i current =>
    { current with gPtr := Function.update current.gPtr i ((i + 1) % current.outputNum) }) fifo

/-- The input has a packet, and the first one is for the output. -/
def headFor (fifo : Fifo) (output input : Nat) : Bool :=
  decide ((fifo.fifos input).head? = some (output : Int))

/-- One output of `do_grant`. -/
def grantOutput (output : Nat) (fifo : Fifo) : Fifo :=
  match scan fifo.inputNum (fifo.headFor output) (fifo.gPtr output) with
  | none => fifo
  | some input => { fifo with grants := update₂ fifo.grants output input 1 }

/-- `do_grant`, over the outputs. -/
def doGrant (fifo : Fifo) : Fifo :=
  forRange fifo.outputNum grantOutput fifo

/-- The body of `update_pointers` for a grant: `none` is the `pop` of an empty
queue. -/
def popHead (output input : Nat) (current : List FifoMatch × Fifo) :
    Option (List FifoMatch × Fifo) :=
  match current.2.fifos input with
  | [] => none
  | destination :: rest =>
      some (current.1 ++ [⟨input, output, destination⟩],
        { current.2 with
          fifos := Function.update current.2.fifos input rest
          gPtr := Function.update current.2.gPtr output ((input + 1) % current.2.inputNum) })

/-- One output of `update_pointers`: the loop breaks at the first grant. -/
def updateOutput (current : List FifoMatch × Fifo) (output : Nat) :
    Option (List FifoMatch × Fifo) :=
  match (List.range current.2.inputNum).find? fun input =>
      decide (current.2.grants output input = 1) with
  | none => some current
  | some input => popHead output input current

/-- The matches, and the scheduler afterwards. -/
def updatePointers (fifo : Fifo) : Option (List FifoMatch × Fifo) :=
  (List.range fifo.outputNum).foldlM updateOutput ([], fifo)

/-- `arbitration`, undefined where `update_pointers` is. -/
def arbitration (fifo : Fifo) : Option (List FifoMatch × Fifo) :=
  updatePointers (doGrant (reset fifo))

/-! ## Runs -/

/-- The public calls, without `init_priority_ptr`. -/
inductive Call
  | request (input output : Int)
  | arbitration
  deriving DecidableEq

/-- A scheduler with the requests made and the matches so far. -/
structure Logged where
  fifo : Fifo
  requested : List (Int × Int)
  matched : List FifoMatch

/-- No arbitration of a run pops an empty queue, by `arbitration_spec`. -/
def call (next : Call) (state : Logged) : Logged :=
  match next with
  | .request input output =>
      { state with
        fifo := state.fifo.request input output
        requested := state.requested ++ [(input, output)] }
  | .arbitration =>
      match state.fifo.arbitration with
      | none => state
      | some (sent, next) =>
          { state with
            fifo := next
            matched := state.matched ++ sent }

/-- The state after the calls, from construction. -/
def run (inputNum outputNum : Nat) (calls : List Call) : Logged :=
  runCalls call calls ⟨new inputNum outputNum, [], []⟩

/-- The destinations popped at an input. -/
def poppedAt (input : Nat) (matched : List FifoMatch) : List Int :=
  (matched.filter fun entry => entry.input = input).map FifoMatch.destination

/-- The destinations requested at an input. -/
def requestedAt (input : Nat) (requested : List (Int × Int)) : List Int :=
  (requested.filter fun entry => entry.1 = (input : Int)).map Prod.snd

/-! ## The grants -/

/-- The grant pointers stand on inputs. -/
def InRange (fifo : Fifo) : Prop :=
  ∀ output, output < fifo.outputNum → fifo.gPtr output < fifo.inputNum

/-- The input an output grants. -/
def grantOf (fifo : Fifo) (output : Nat) : Option Nat :=
  scan fifo.inputNum (fifo.headFor output) (fifo.gPtr output)

section Grants

variable {fifo : Fifo}

theorem grantOf_spec (inRange : fifo.InRange) {output input : Nat}
    (outputBound : output < fifo.outputNum) (grants : fifo.grantOf output = some input) :
    input < fifo.inputNum ∧ (fifo.fifos input).head? = some (output : Int) := by
  rcases (scan_eq_some_iff (inRange output outputBound)).mp grants with ⟨bound, hit, -⟩
  exact ⟨bound, of_decide_eq_true hit⟩

/-- An input is granted by one output. -/
theorem grantOf_unique (inRange : fifo.InRange) {output output' input : Nat}
    (outputBound : output < fifo.outputNum) (outputBound' : output' < fifo.outputNum)
    (grants : fifo.grantOf output = some input) (grants' : fifo.grantOf output' = some input) :
    output = output' := by
  have head := (grantOf_spec inRange outputBound grants).2
  rw [(grantOf_spec inRange outputBound' grants').2] at head
  exact Int.natCast_inj.mp (Option.some.inj head).symm

theorem grantOf_isSome (inRange : fifo.InRange) {output input : Nat}
    (outputBound : output < fifo.outputNum) (inputBound : input < fifo.inputNum)
    (head : (fifo.fifos input).head? = some (output : Int)) : (fifo.grantOf output).isSome :=
  scan_isSome_of_hit _ (inRange output outputBound) inputBound (decide_eq_true head)

/-- The grants are made for the heads before the arbitration. -/
theorem doGrant_eq (fifo : Fifo) :
    doGrant (reset fifo) =
      { fifo with grants := choiceMarks fifo.grantOf fifo.outputNum } := by
  change forRange fifo.outputNum grantOutput (reset fifo) = _
  apply forRange_induction
    (fun k (current : Fifo) => current = { fifo with grants := choiceMarks fifo.grantOf k })
    (by simp [reset])
  rintro k _ _ rfl
  change (match fifo.grantOf k with
    | none => _
    | some input => _) = _
  cases grants : fifo.grantOf k with
  | none => rw [choiceMarks_succ_of_none grants]
  | some input => rw [choiceMarks_succ_of_some grants]

end Grants

/-! ## The pops -/

/-- The match of an output. -/
def matchOf (fifo : Fifo) (output : Nat) : Option FifoMatch :=
  (fifo.grantOf output).map fun input => ⟨input, output, output⟩

/-- The state when the outputs in `done` have been served, in an arbitration
that began in `start`. -/
structure Served (start : Fifo) (done : List Nat) (current : List FifoMatch × Fifo) : Prop where
  inputNum_eq : current.2.inputNum = start.inputNum
  outputNum_eq : current.2.outputNum = start.outputNum
  grants_eq : current.2.grants = choiceMarks start.grantOf start.outputNum
  inRange : current.2.InRange
  sent_eq : current.1 = done.filterMap start.matchOf
  fifos_eq : ∀ input, current.2.fifos input =
    if ∃ output ∈ done, start.grantOf output = some input then (start.fifos input).tail
    else start.fifos input
  popped_eq : ∀ input, poppedAt input current.1 ++ current.2.fifos input = start.fifos input

section Pops

variable {fifo : Fifo}

theorem poppedAt_append (input : Nat) (first second : List FifoMatch) :
    poppedAt input (first ++ second) = poppedAt input first ++ poppedAt input second := by
  rw [poppedAt, List.filter_append, List.map_append, poppedAt, poppedAt]

theorem poppedAt_singleton (input : Nat) (entry : FifoMatch) :
    poppedAt input [entry] = if entry.input = input then [entry.destination] else [] := by
  by_cases here : entry.input = input <;> simp [poppedAt, here]

/-- The loop over the inputs finds the input that is granted. -/
theorem find?_grants (inRange : fifo.InRange) {output : Nat} (bound : output < fifo.outputNum) :
    ((List.range fifo.inputNum).find? fun input =>
        decide (choiceMarks fifo.grantOf fifo.outputNum output input = 1)) =
      fifo.grantOf output := by
  simp only [choiceMarks_eq_one_iff, bound, true_and]
  cases grants : fifo.grantOf output with
  | none => simp
  | some input =>
      rw [List.find?_range_eq_some]
      have inputBound := (grantOf_spec inRange bound grants).1
      refine ⟨by simp, List.mem_range.mpr inputBound, ?_⟩
      intro other less
      simpa using Nat.ne_of_gt less

/-- One output pops the head it was granted for. -/
theorem Served.updateOutput {start : Fifo} {done : List Nat} {current : List FifoMatch × Fifo}
    (served : Served start done current) (inRange : start.InRange) {output : Nat}
    (bound : output < start.outputNum) (fresh : output ∉ done)
    (within : ∀ other ∈ done, other < start.outputNum) :
    ∃ after, Fifo.updateOutput current output = some after ∧
      Served start (done ++ [output]) after := by
  rw [Fifo.updateOutput, served.inputNum_eq, served.grants_eq, find?_grants inRange bound]
  cases grants : start.grantOf output with
  | none =>
      refine ⟨current, rfl, served.inputNum_eq, served.outputNum_eq, served.grants_eq,
        served.inRange, ?_, ?_, served.popped_eq⟩
      · simp [served.sent_eq, matchOf, grants]
      · intro input
        rw [served.fifos_eq]
        simp [grants]
  | some input =>
      rcases grantOf_spec inRange bound grants with ⟨inputBound, head⟩
      have untouched : ¬ ∃ other ∈ done, start.grantOf other = some input := by
        rintro ⟨other, member, grants'⟩
        have same := grantOf_unique inRange bound (within other member) grants grants'
        rw [same] at fresh
        exact fresh member
      have queue := served.fifos_eq input
      rw [if_neg untouched] at queue
      rcases List.head?_eq_some_iff.mp head with ⟨rest, split⟩
      rw [split] at queue
      have popped : popHead output input current =
          some (current.1 ++ [⟨input, output, output⟩],
            { current.2 with
              fifos := Function.update current.2.fifos input rest
              gPtr := Function.update current.2.gPtr output
                ((input + 1) % current.2.inputNum) }) := by
        rw [popHead, queue]
      refine ⟨_, popped, served.inputNum_eq, served.outputNum_eq, served.grants_eq, ?_, ?_, ?_,
        ?_⟩
      · intro other otherBound
        change Function.update current.2.gPtr output ((input + 1) % current.2.inputNum) other <
          current.2.inputNum
        rw [Function.update_apply]
        split_ifs
        · exact succ_mod_lt input (by rw [served.inputNum_eq]; omega)
        · exact served.inRange other otherBound
      · simp [served.sent_eq, matchOf, grants]
      · intro other
        change Function.update current.2.fifos input rest other = _
        rw [Function.update_apply]
        by_cases same : other = input
        · rw [same, if_pos rfl, if_pos ⟨output, by simp, grants⟩, split]
          rfl
        · have later : some input ≠ some other := fun equal => same (Option.some.inj equal).symm
          rw [if_neg same, served.fifos_eq]
          simp [grants, later]
      · intro other
        change poppedAt other (current.1 ++ [⟨input, output, output⟩]) ++
          Function.update current.2.fifos input rest other = _
        rw [poppedAt_append, poppedAt_singleton, Function.update_apply]
        have before := served.popped_eq other
        by_cases same : other = input
        · rw [same, queue] at before
          simpa [same] using before
        · simpa [same, Ne.symm same] using before

/-- What every output of `update_pointers` keeps holds after the arbitration. -/
theorem arbitration_induction (Inv : List Nat → List FifoMatch × Fifo → Prop)
    (initial : Inv [] ([], doGrant (reset fifo)))
    (pass : ∀ done output current, output < fifo.outputNum → output ∉ done →
      (∀ other ∈ done, other < fifo.outputNum) → Inv done current →
        ∃ after, updateOutput current output = some after ∧ Inv (done ++ [output]) after) :
    ∃ sent next, fifo.arbitration = some (sent, next) ∧
      Inv (List.range fifo.outputNum) (sent, next) := by
  have outputs : (doGrant (reset fifo)).outputNum = fifo.outputNum := by rw [doGrant_eq]
  have inOrder : ∀ done output rest current,
      List.range fifo.outputNum = done ++ output :: rest → Inv done current →
        ∃ after, updateOutput current output = some after ∧ Inv (done ++ [output]) after := by
    intro done output rest current split kept
    have distinct : (done ++ output :: rest).Nodup := split ▸ List.nodup_range
    have bounds : ∀ other ∈ done ++ output :: rest, other < fifo.outputNum :=
      fun other member => List.mem_range.mp (split ▸ member)
    refine pass done output current (bounds output (by simp)) ?_ ?_ kept
    · intro early
      exact distinct.disjoint early List.mem_cons_self
    · exact fun other member => bounds other (List.mem_append_left _ member)
  rcases foldlM_induction Inv initial inOrder with ⟨⟨sent, next⟩, finished, kept⟩
  refine ⟨sent, next, ?_, kept⟩
  rw [arbitration, updatePointers, outputs]
  exact finished

theorem Served.start (inRange : fifo.InRange) : Served fifo [] ([], doGrant (reset fifo)) := by
  rw [doGrant_eq]
  exact ⟨rfl, rfl, rfl, inRange, rfl, by simp, by simp [poppedAt]⟩

/-- What an arbitration does: the matches are the grants, by output, and every
input that is granted loses its head. -/
theorem arbitration_spec (inRange : fifo.InRange) :
    ∃ sent next, fifo.arbitration = some (sent, next) ∧
      Served fifo (List.range fifo.outputNum) (sent, next) :=
  arbitration_induction (Served fifo) (Served.start inRange)
    fun _ _ _ bound fresh within served => served.updateOutput inRange bound fresh within

/-- The matches of an arbitration. -/
theorem Served.mem_sent_iff {sent : List FifoMatch} {next : Fifo}
    (served : Served fifo (List.range fifo.outputNum) (sent, next)) {entry : FifoMatch} :
    entry ∈ sent ↔ entry.output < fifo.outputNum ∧
      fifo.grantOf entry.output = some entry.input ∧ entry.destination = entry.output := by
  rcases entry with ⟨input, output, destination⟩
  rw [show sent = _ from served.sent_eq, List.mem_filterMap]
  simp only [List.mem_range, matchOf, Option.map_eq_some_iff, FifoMatch.mk.injEq]
  constructor
  · rintro ⟨_, bound, _, grants, rfl, rfl, rfl⟩
    exact ⟨bound, grants, rfl⟩
  · rintro ⟨bound, grants, same⟩
    exact ⟨output, bound, input, grants, rfl, rfl, same.symm⟩

/-- An output receives at most one packet. -/
theorem Served.outputs_nodup {sent : List FifoMatch} {next : Fifo}
    (served : Served fifo (List.range fifo.outputNum) (sent, next)) :
    (sent.map FifoMatch.output).Nodup := by
  rw [show sent = _ from served.sent_eq, List.map_filterMap]
  apply List.Nodup.filterMap _ List.nodup_range
  intro first second place one other
  simp only [matchOf, Option.map_map, Option.mem_def, Option.map_eq_some_iff] at one other
  rcases one with ⟨_, -, rfl⟩
  rcases other with ⟨_, -, same⟩
  exact same.symm

/-- An input pops at most one packet. -/
theorem Served.inputs_nodup (inRange : fifo.InRange) {sent : List FifoMatch} {next : Fifo}
    (served : Served fifo (List.range fifo.outputNum) (sent, next)) :
    (sent.map FifoMatch.input).Nodup := by
  apply List.Nodup.map_on _ (List.Nodup.of_map FifoMatch.output served.outputs_nodup)
  intro first member second member' same
  rcases served.mem_sent_iff.mp member with ⟨bound, grants, -⟩
  rcases served.mem_sent_iff.mp member' with ⟨bound', grants', -⟩
  rw [← same] at grants'
  have sameOutput := grantOf_unique inRange bound bound' grants grants'
  exact List.inj_on_of_nodup_map served.outputs_nodup member member' sameOutput

end Pops

/-! ## Whole runs -/

/-- The destinations popped at an input, and those that wait, are those
requested, in their order. -/
structure Delivers (inputNum outputNum : Nat) (state : Logged) : Prop where
  inputNum_eq : state.fifo.inputNum = inputNum
  outputNum_eq : state.fifo.outputNum = outputNum
  inRange : state.fifo.InRange
  delivered : ∀ input, input < inputNum → poppedAt input state.matched ++ state.fifo.fifos input =
    requestedAt input state.requested

section Runs

variable {inputNum outputNum : Nat} {state : Logged}

theorem Delivers.request (delivers : Delivers inputNum outputNum state) (input output : Int) :
    Delivers inputNum outputNum (call (.request input output) state) := by
  have inside : ∀ place, place < inputNum →
      poppedAt place state.matched ++ (state.fifo.request input output).fifos place =
        requestedAt place (state.requested ++ [(input, output)]) := by
    intro place bound
    rw [requestedAt, List.filter_append, List.map_append, ← requestedAt,
      ← delivers.delivered place bound, Fifo.request, delivers.inputNum_eq]
    split_ifs with accepted
    · dsimp only
      rw [Function.update_apply]
      by_cases here : input = place
      · simp [here]
      · have other : place ≠ input.toNat := by omega
        simp [here, other]
    · have other : input ≠ place := by omega
      simp [other]
  exact {
    inputNum_eq := by
      rw [← delivers.inputNum_eq]
      simp only [call, Fifo.request]
      split_ifs <;> rfl
    outputNum_eq := by
      rw [← delivers.outputNum_eq]
      simp only [call, Fifo.request]
      split_ifs <;> rfl
    inRange := by
      have old := delivers.inRange
      simp only [call, Fifo.request]
      split_ifs
      · exact old
      · exact old
    delivered := inside }

theorem Delivers.arbitration (delivers : Delivers inputNum outputNum state) :
    Delivers inputNum outputNum (call .arbitration state) := by
  rcases arbitration_spec delivers.inRange with ⟨sent, next, done, served⟩
  have after : call .arbitration state =
      { state with fifo := next, matched := state.matched ++ sent } := by
    rw [call, done]
  rw [after]
  exact {
    inputNum_eq := served.inputNum_eq.trans delivers.inputNum_eq
    outputNum_eq := served.outputNum_eq.trans delivers.outputNum_eq
    inRange := served.inRange
    delivered := by
      intro input bound
      dsimp only
      rw [poppedAt_append, List.append_assoc, served.popped_eq, delivers.delivered input bound] }

theorem delivers_run (outputNum : Nat) (inputs : 1 ≤ inputNum) (calls : List Call) :
    Delivers inputNum outputNum (run inputNum outputNum calls) := by
  apply runCalls_invariant (Delivers inputNum outputNum)
  · exact ⟨rfl, rfl, fun _ _ => inputs, by simp [poppedAt, requestedAt, new]⟩
  · intro next state delivers
    cases next with
    | request input output => exact delivers.request input output
    | arbitration => exact delivers.arbitration

end Runs

/-- The scheduler delivers in order without loss: after any calls an input has
popped the first of the destinations requested at it and holds the others.  The
next arbitration pops at most one packet at an input and gives at most one to an
output, each the one the output has granted and is the destination of, and it
gives one to every output that is the destination of a head. -/
theorem arbitration_delivers {inputNum outputNum : Nat} (inputs : 1 ≤ inputNum)
    (calls : List Call) {state : Logged} (reached : state = run inputNum outputNum calls) :
    (∀ input, input < inputNum → poppedAt input state.matched ++ state.fifo.fifos input =
      requestedAt input state.requested) ∧
    ∃ sent next, state.fifo.arbitration = some (sent, next) ∧
      (sent.map FifoMatch.input).Nodup ∧ (sent.map FifoMatch.output).Nodup ∧
      (∀ entry ∈ sent, entry.input < inputNum ∧ entry.output < outputNum ∧
        (doGrant (reset state.fifo)).grants entry.output entry.input = 1 ∧
        entry.destination = entry.output) ∧
      (∀ input, poppedAt input sent ++ next.fifos input = state.fifo.fifos input) ∧
      ∀ output, output < outputNum →
        (∃ input, input < inputNum ∧ (state.fifo.fifos input).head? = some (output : Int)) →
          ∃ entry ∈ sent, entry.output = output := by
  have delivers := delivers_run outputNum inputs calls
  rw [← reached] at delivers
  rcases arbitration_spec delivers.inRange with ⟨sent, next, done, served⟩
  refine ⟨delivers.delivered, sent, next, done, served.inputs_nodup delivers.inRange,
    served.outputs_nodup, ?_, served.popped_eq, ?_⟩
  · intro entry member
    rcases served.mem_sent_iff.mp member with ⟨bound, grants, destination⟩
    have inputBound := (grantOf_spec delivers.inRange bound grants).1
    rw [delivers.inputNum_eq] at inputBound
    refine ⟨inputBound, delivers.outputNum_eq ▸ bound, ?_, destination⟩
    rw [doGrant_eq]
    exact choiceMarks_eq_one_iff.mpr ⟨bound, grants⟩
  · rintro output bound ⟨input, inputBound, head⟩
    rw [← delivers.outputNum_eq] at bound
    rw [← delivers.inputNum_eq] at inputBound
    obtain ⟨first, grants⟩ := Option.isSome_iff_exists.mp
      (grantOf_isSome delivers.inRange bound inputBound head)
    exact ⟨⟨first, output, output⟩, served.mem_sent_iff.mpr ⟨bound, grants, rfl⟩, rfl⟩

/-- Two heads for output 0, one of them with a packet for output 1 behind it. -/
theorem arbitration_delivers_two_inputs :
    ∃ sent next, (run 2 2 [.request 0 0, .request 0 1, .request 1 0,
        .arbitration]).fifo.arbitration = some (sent, next) ∧
      (sent.map FifoMatch.output).Nodup := by
  obtain ⟨-, sent, next, done, -, outputs, -⟩ := arbitration_delivers (show 1 ≤ 2 by decide)
    [.request 0 0, .request 0 1, .request 1 0, .arbitration]
    (show run 2 2 [.request 0 0, .request 0 1, .request 1 0, .arbitration] = _ from rfl)
  exact ⟨sent, next, done, outputs⟩

end Fifo

end SystemcTlm.Islip
