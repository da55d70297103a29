import SystemcTlm.Islip.Fifo
import SystemcTlm.Islip.PairAccounting

/-!
# The grant pointers of `fifo` and `rrm`

Both classes scan the inputs from a grant pointer.  The pointers move modulo the
number of inputs, but `init_priority_ptr` writes them modulo the number of
outputs.  With more outputs than inputs one of them is then no input, and the
next scan from it reads outside the vectors.  Otherwise every scan of a run ends.
-/

namespace SystemcTlm.Islip

open SystemcTlm.Loop SystemcTlm.Transition

/-- The public calls of either class. -/
inductive PointerCall
  | initPriorityPtr
  | request (input output : Int)
  | arbitration
  deriving DecidableEq

/-! ## The initial pointers -/

/-- The pointers `init_priority_ptr` leaves. -/
def staggered (outputNum : Nat) (gPtr : Nat → Nat) : Nat → Nat :=
  fun output => if output < outputNum then (output + 1) % outputNum else gPtr output

section Staggered

variable {inputNum outputNum : Nat} {gPtr : Nat → Nat}

theorem staggered_lt (fits : outputNum ≤ inputNum) {output : Nat} (bound : output < outputNum) :
    staggered outputNum gPtr output < inputNum := by
  rw [staggered, if_pos bound]
  exact (succ_mod_lt output (by omega)).trans_le fits

/-- The last output but one points at the number of the last output. -/
theorem le_of_staggered_lt (inputs : 1 ≤ inputNum)
    (within : ∀ output, output < outputNum → staggered outputNum gPtr output < inputNum) :
    outputNum ≤ inputNum := by
  by_contra more
  have last := within (outputNum - 2) (by omega)
  rw [staggered, if_pos (by omega), succ_mod (by omega), if_neg (by omega)] at last
  omega

end Staggered

/-- What both classes share: if every call but `init_priority_ptr` keeps
`Sound`, and that one keeps it only where the outputs fit, then a run is safe
throughout if and only if it does not call it, or the outputs fit. -/
theorem throughout_iff {σ : Type*} {call : PointerCall → σ → σ} {start : σ} {fits : Prop}
    (Sound Safe : σ → Prop) (initial : Sound start)
    (safe : ∀ state, Sound state → Safe state)
    (kept : ∀ next state, next ≠ .initPriorityPtr → Sound state → Sound (call next state))
    (reset : ∀ state, fits → Sound state → Sound (call .initPriorityPtr state))
    (misses : ∀ state, Sound state → Safe (call .initPriorityPtr state) → fits)
    (calls : List PointerCall) :
    (∀ before, before <+: calls → Safe (runCalls call before start)) ↔
      (.initPriorityPtr ∈ calls → fits) := by
  have sound : ∀ before : List PointerCall, (.initPriorityPtr ∈ before → fits) →
      Sound (runCalls call before start) := by
    intro before allowed
    apply runCalls_prefix (fun _ => Sound) initial
    intro earlier next rest split state
    by_cases init : next = .initPriorityPtr
    · subst init
      exact reset _ (allowed (by simp [split])) state
    · exact kept next _ init state
  constructor
  · intro throughout member
    rcases List.eq_append_cons_of_mem member with ⟨before, rest, split, first⟩
    have reached := sound before fun early => absurd early first
    have bad := throughout (before ++ [.initPriorityPtr]) ⟨rest, by simp [split]⟩
    rw [runCalls_concat] at bad
    exact misses _ reached bad
  · intro allowed before earlier
    exact safe _ (sound before fun member => allowed (earlier.subset member))

/-! ## `fifo` -/

namespace Fifo

/-- The state in which `do_grant` turns to an output. -/
def atScan (fifo : Fifo) (output : Nat) : Fifo :=
  forRange output grantOutput (reset fifo)

/-- The grant pointers are inputs, between the calls and whenever `do_grant`
turns to an output, and every scan ends. -/
structure ScansInRange (fifo : Fifo) : Prop where
  inRange : fifo.InRange
  atScan_inRange : ∀ output, output < fifo.outputNum → (fifo.atScan output).InRange
  ends : ∀ output, output < fifo.outputNum →
    Ends fifo.inputNum ((fifo.atScan output).headFor output) ((fifo.atScan output).gPtr output)

/-- No arbitration from pointers in range pops an empty queue. -/
def pointerCall : PointerCall → Fifo → Fifo
  | .initPriorityPtr, fifo => fifo.initPriorityPtr
  | .request input output, fifo => fifo.request input output
  | .arbitration, fifo => (fifo.arbitration).elim fifo Prod.snd

/-- The state after the calls, from construction. -/
def pointerRun (inputNum outputNum : Nat) (calls : List PointerCall) : Fifo :=
  runCalls pointerCall calls (new inputNum outputNum)

/-- What the calls keep. -/
structure Sized (inputNum outputNum : Nat) (fifo : Fifo) : Prop where
  inputNum_eq : fifo.inputNum = inputNum
  outputNum_eq : fifo.outputNum = outputNum
  inRange : fifo.InRange

section Sized

variable {inputNum outputNum : Nat} {fifo : Fifo}

theorem initPriorityPtr_eq (fifo : Fifo) :
    fifo.initPriorityPtr = { fifo with gPtr := staggered fifo.outputNum fifo.gPtr } := by
  let put (gPtr : Nat → Nat) : Fifo := { fifo with gPtr := gPtr }
  have pass : ∀ i gPtr, i < fifo.outputNum →
      { put gPtr with gPtr := Function.update gPtr i ((i + 1) % fifo.outputNum) } =
        put (Function.update gPtr i ((i + 1) % fifo.outputNum)) := fun _ _ _ => rfl
  exact forRange_assign put pass fifo.gPtr

theorem sized_new (outputNum : Nat) (inputs : 1 ≤ inputNum) :
    Sized inputNum outputNum (new inputNum outputNum) :=
  ⟨rfl, rfl, fun _ _ => inputs⟩

/-- A grant moves no pointer. -/
theorem Sized.atScan (sized : Sized inputNum outputNum fifo) (output : Nat) :
    Sized inputNum outputNum (fifo.atScan output) := by
  have start : Sized inputNum outputNum (reset fifo) :=
    ⟨sized.inputNum_eq, sized.outputNum_eq, sized.inRange⟩
  apply forRange_induction (fun _ => Sized inputNum outputNum) start
  intro k current _ before
  rw [grantOutput]
  cases scan current.inputNum (current.headFor k) (current.gPtr k) with
  | none => exact before
  | some input => exact ⟨before.inputNum_eq, before.outputNum_eq, before.inRange⟩

theorem Sized.scansInRange (sized : Sized inputNum outputNum fifo) : fifo.ScansInRange where
  inRange := sized.inRange
  atScan_inRange output _ := (sized.atScan output).inRange
  ends output bound := by
    have pass := sized.atScan output
    rw [ends_iff, sized.inputNum_eq, ← pass.inputNum_eq]
    exact pass.inRange output (by rwa [pass.outputNum_eq, ← sized.outputNum_eq])

theorem Sized.request (sized : Sized inputNum outputNum fifo) (input output : Int) :
    Sized inputNum outputNum (fifo.request input output) := by
  unfold Fifo.request
  split_ifs
  · exact ⟨sized.inputNum_eq, sized.outputNum_eq, sized.inRange⟩
  · exact sized

theorem Sized.arbitration (sized : Sized inputNum outputNum fifo) :
    Sized inputNum outputNum (pointerCall .arbitration fifo) := by
  rcases arbitration_spec sized.inRange with ⟨sent, next, done, served⟩
  rw [pointerCall, done, Option.elim_some]
  exact ⟨served.inputNum_eq.trans sized.inputNum_eq, served.outputNum_eq.trans sized.outputNum_eq,
    served.inRange⟩

end Sized

/-- A run of `fifo` scans safely throughout if and only if it does not stagger
the pointers of more outputs than inputs. -/
theorem throughout_scansInRange_iff {inputNum : Nat} (outputNum : Nat) (inputs : 1 ≤ inputNum)
    (calls : List PointerCall) :
    (∀ before, before <+: calls → (pointerRun inputNum outputNum before).ScansInRange) ↔
      (.initPriorityPtr ∈ calls → outputNum ≤ inputNum) := by
  refine throughout_iff (Sized inputNum outputNum) ScansInRange
    (sized_new outputNum inputs) (fun _ sized => sized.scansInRange) ?_ ?_ ?_ calls
  · intro next fifo other sized
    cases next with
    | initPriorityPtr => exact absurd rfl other
    | request input output => exact sized.request input output
    | arbitration => exact sized.arbitration
  · intro fifo fits sized
    rw [pointerCall, initPriorityPtr_eq]
    refine ⟨sized.inputNum_eq, sized.outputNum_eq, fun output bound => ?_⟩
    exact staggered_lt (by rwa [sized.inputNum_eq, sized.outputNum_eq]) bound
  · intro fifo sized safe
    rw [pointerCall, initPriorityPtr_eq] at safe
    have within := safe.inRange
    rw [← sized.inputNum_eq] at inputs ⊢
    rw [← sized.outputNum_eq]
    exact le_of_staggered_lt inputs within

end Fifo

/-! ## `rrm` -/

namespace Rrm

open PairScheduler (rrm Sized)

/-- The state in which `do_grant` of an iteration turns to an output. -/
def atScan (arbiter : PairArbiter) (iter output : Nat) : PairArbiter :=
  forRange output (VoqArbiter.grantOutput discipline)
    { VoqArbiter.afterRounds discipline iter arbiter with iterCnt := iter }

/-- What the scan of an output stops at. -/
def waitingFor (arbiter : PairArbiter) (output input : Nat) : Bool :=
  if arbiter.inputOccupied input then false else decide (arbiter.voq input output > 0)

/-- Every grant pointer is an input. -/
def GrantsInRange (arbiter : PairArbiter) : Prop :=
  ∀ output, output < arbiter.outputNum → arbiter.gPtr output < arbiter.inputNum

/-- The grant pointers are inputs, between the calls and whenever `do_grant`
turns to an output in an arbitration, and every scan of a free output ends. -/
structure ScansInRange (arbiter : PairArbiter) : Prop where
  inRange : GrantsInRange arbiter
  atScan_inRange : ∀ iter, iter < arbiter.iterations.toNat → ∀ output, output < arbiter.outputNum →
    GrantsInRange (atScan arbiter iter output)
  ends : ∀ iter, iter < arbiter.iterations.toNat → ∀ output, output < arbiter.outputNum →
    (atScan arbiter iter output).outputOccupied output = false →
      Ends arbiter.inputNum (waitingFor (atScan arbiter iter output) output)
        ((atScan arbiter iter output).gPtr output)

/-- One of the calls. -/
def pointerCall : PointerCall → PairArbiter → PairArbiter
  | .initPriorityPtr => initPriorityPtr
  | .request input output => request input output
  | .arbitration => arbitration

/-- The state after the calls, from construction. -/
def pointerRun (inputNum outputNum : Nat) (iterations voqSize : Int) (calls : List PointerCall) :
    PairArbiter :=
  runCalls pointerCall calls (new inputNum outputNum iterations voqSize)

section Sized

variable {inputNum outputNum : Nat} {iterations voqSize : Int} {arbiter : PairArbiter}

theorem initPriorityPtr_eq (arbiter : PairArbiter) :
    initPriorityPtr arbiter =
      { arbiter with gPtr := staggered arbiter.outputNum arbiter.gPtr } := by
  let put (gPtr : Nat → Nat) : PairArbiter := { arbiter with gPtr := gPtr }
  have pass : ∀ i gPtr, i < arbiter.outputNum →
      { put gPtr with gPtr := Function.update gPtr i ((i + 1) % arbiter.outputNum) } =
        put (Function.update gPtr i ((i + 1) % arbiter.outputNum)) := fun _ _ _ => rfl
  exact forRange_assign put pass arbiter.gPtr

/-- A grant moves the pointer of its output past the input it found. -/
theorem atScan_spec (inRange : arbiter.InRange) (iter output : Nat) :
    (atScan arbiter iter output).inputNum = arbiter.inputNum ∧
      (atScan arbiter iter output).outputNum = arbiter.outputNum ∧
      GrantsInRange (atScan arbiter iter output) := by
  have slot : VoqArbiter.SlotInv discipline (0 < ·) arbiter _ _ :=
    (VoqArbiter.slotInv_afterRounds rrm.lawful inRange iter).setIterCnt iter
  apply forRange_induction
    (fun _ (current : PairArbiter) => current.inputNum = arbiter.inputNum ∧
      current.outputNum = arbiter.outputNum ∧ GrantsInRange current)
    ⟨slot.inputNum_eq, slot.outputNum_eq, slot.inRange.gPtr_lt⟩
  rintro k current _ ⟨inputs, outputs, within⟩
  rw [VoqArbiter.grantOutput]
  split_ifs with occupied
  · exact ⟨inputs, outputs, within⟩
  · split
    · exact ⟨inputs, outputs, within⟩
    · rename_i input found
      refine ⟨inputs, outputs, fun other (bound : other < current.outputNum) => ?_⟩
      change Function.update current.gPtr k ((input + 1) % current.inputNum) other <
        current.inputNum
      have before := within other bound
      rw [Function.update_apply]
      split_ifs
      · exact succ_mod_lt input (by omega)
      · exact before

theorem scansInRange (inRange : arbiter.InRange) : ScansInRange arbiter where
  inRange := inRange.gPtr_lt
  atScan_inRange iter _ output _ := (atScan_spec inRange iter output).2.2
  ends iter _ output bound _ := by
    rcases atScan_spec inRange iter output with ⟨inputs, outputs, within⟩
    rw [ends_iff, ← inputs]
    exact within output (outputs.symm ▸ bound)

end Sized

/-- A run of `rrm` scans safely throughout if and only if it does not stagger
the pointers of more outputs than inputs. -/
theorem throughout_scansInRange_iff (iterations voqSize : Int) {inputNum outputNum : Nat}
    (inputs : 1 ≤ inputNum) (outputs : 1 ≤ outputNum) (calls : List PointerCall) :
    (∀ before, before <+: calls →
      ScansInRange (pointerRun inputNum outputNum iterations voqSize before)) ↔
      (.initPriorityPtr ∈ calls → outputNum ≤ inputNum) := by
  refine throughout_iff (Sized inputNum outputNum iterations voqSize) ScansInRange
    (rrm.sized_new iterations voqSize inputs outputs)
    (fun _ sized => scansInRange sized.inRange) ?_ ?_ ?_ calls
  · intro next arbiter other sized
    cases next with
    | initPriorityPtr => exact absurd rfl other
    | request input output => exact sized.request input output
    | arbitration => exact sized.arbitration rrm
  · intro arbiter fits sized
    rw [pointerCall, initPriorityPtr_eq]
    refine ⟨sized.inputNum_eq, sized.outputNum_eq, sized.iterations_eq, sized.voqSize_eq,
      fun output bound => ?_, sized.inRange.aPtr_lt⟩
    exact staggered_lt (by rwa [sized.inputNum_eq, sized.outputNum_eq]) bound
  · intro arbiter sized safe
    rw [pointerCall, initPriorityPtr_eq] at safe
    have within := safe.inRange
    rw [← sized.inputNum_eq] at inputs ⊢
    rw [← sized.outputNum_eq]
    exact le_of_staggered_lt inputs within

end Rrm

/-- The scans of a run of either class stay in range and end if and only if the
run does not call `init_priority_ptr`, or there are no more outputs than
inputs. -/
theorem scansInRange_iff (iterations voqSize : Int) {inputNum outputNum : Nat}
    (inputs : 1 ≤ inputNum) (outputs : 1 ≤ outputNum) (calls : List PointerCall) :
    ((∀ before, before <+: calls → (Fifo.pointerRun inputNum outputNum before).ScansInRange) ↔
      (.initPriorityPtr ∈ calls → outputNum ≤ inputNum)) ∧
    ((∀ before, before <+: calls →
      Rrm.ScansInRange (Rrm.pointerRun inputNum outputNum iterations voqSize before)) ↔
      (.initPriorityPtr ∈ calls → outputNum ≤ inputNum)) :=
  ⟨Fifo.throughout_scansInRange_iff outputNum inputs calls,
    Rrm.throughout_scansInRange_iff iterations voqSize inputs outputs calls⟩

/-- Three inputs and two outputs, the pointers staggered before an
arbitration. -/
theorem scansInRange_iff_three_inputs :
    (Fifo.pointerRun 3 2 [.initPriorityPtr, .request 2 1, .arbitration]).ScansInRange ∧
    Rrm.ScansInRange (Rrm.pointerRun 3 2 1 4 [.initPriorityPtr, .request 2 1, .arbitration]) := by
  have both := scansInRange_iff 1 4 (show 1 ≤ 3 by decide) (show 1 ≤ 2 by decide)
    [.initPriorityPtr, .request 2 1, .arbitration]
  exact ⟨both.1.mpr (by decide) _ List.prefix_rfl, both.2.mpr (by decide) _ List.prefix_rfl⟩

/-- With one input and two outputs the staggered pointer of output 0 is no
input. -/
theorem not_scansInRange_two_outputs :
    ¬ (Fifo.pointerRun 1 2 [.initPriorityPtr]).ScansInRange ∧
      ¬ Rrm.ScansInRange (Rrm.pointerRun 1 2 1 4 [.initPriorityPtr]) :=
  ⟨fun safe => absurd (safe.inRange 0 (by decide)) (by decide),
    fun safe => absurd (safe.inRange 0 (by decide)) (by decide)⟩

end SystemcTlm.Islip
