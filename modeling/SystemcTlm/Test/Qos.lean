import SystemcTlm.Container.Channels
import SystemcTlm.Fairness.Turns

/-!
# The class `Qos` of the tests

Eight channels, a count of their items, and two schedulers that print and drop
one item after the other until the count is zero: strict priority and round
robin.  The loops have a bound on their passes here; `none` is a loop that has
not ended by then.
-/

namespace SystemcTlm.Test

open SystemcTlm.Loop SystemcTlm.Container SystemcTlm.Fairness

/-- `VIRTURL_CHANNEL_NUM`. -/
def virturlChannelNum : Nat :=
  8

/-- The variables of the test and the time. -/
structure Qos where
  vc : Nat → List Int
  cnt : Int
  lastSch : Nat
  time : Nat

/-- A line that `rr_sch` prints. -/
structure RrLine where
  time : Nat
  channel : Nat
  data : Int
  deriving DecidableEq, Repr

namespace Qos

/-- The variables before the first cycle. -/
def new : Qos where
  vc := fun _ => []
  cnt := 0
  lastSch := 0
  time := 0

/-- `Qos::in`, with what it returns. -/
def inData (priority data : Int) (qos : Qos) : Int × Qos :=
  if priority < 0 ∨ virturlChannelNum ≤ priority then (-1, qos)
  else
    (0, { qos with
      vc := Function.update qos.vc priority.toNat (qos.vc priority.toNat ++ [data])
      cnt := qos.cnt + 1 })

/-- `vc[i].pop_front(); cnt--;` -/
def popFront (i : Nat) (qos : Qos) : Qos :=
  { qos with
    vc := Function.update qos.vc i (qos.vc i).tail
    cnt := qos.cnt - 1 }

/-! ## `sp_sch` -/

/-- The `for` loop over the channels below `i`, from the highest one, with the
line that it prints. -/
def spScan : Nat → Qos → Option (Nat × Int) × Qos
  | 0, qos => (none, qos)
  | i + 1, qos =>
      match qos.vc i with
      | data :: _ => (some (i, data), qos.popFront i)
      | [] => spScan i qos

/-- The lines of at most `passes` passes of the `while` loop. -/
def spSch : Nat → Qos → Option (List (Nat × Int) × Qos)
  | passes, qos =>
      if qos.cnt > 0 then
        match passes with
        | 0 => none
        | passes + 1 =>
            let (line, next) := spScan virturlChannelNum qos
            (spSch passes next).map fun (lines, final) => (line.toList ++ lines, final)
      else some ([], qos)

/-! ## `rr_sch` -/

/-- `last_sch++`, back to zero behind the last channel. -/
def nextSch (lastSch : Nat) : Nat :=
  if virturlChannelNum ≤ lastSch + 1 then 0 else lastSch + 1

/-- At most `scans` passes of the inner loop, with the line that it prints. -/
def rrScan : Nat → Qos → Option (Option RrLine × Qos)
  | 0, _ => none
  | scans + 1, qos =>
      if qos.lastSch < virturlChannelNum then
        match qos.vc qos.lastSch with
        | data :: _ =>
            some (some { time := qos.time, channel := qos.lastSch, data },
              { qos.popFront qos.lastSch with lastSch := nextSch qos.lastSch })
        | [] => rrScan scans { qos with lastSch := nextSch qos.lastSch }
      else some (none, qos)

/-- A pass of the outer loop. -/
def rrPass (scans : Nat) (qos : Qos) : Option (Option RrLine × Qos) :=
  rrScan scans { qos with time := qos.time + 1 }

/-- The lines of at most `passes` passes of the outer loop. -/
def rrSch (scans : Nat) : Nat → Qos → Option (List RrLine × Qos)
  | passes, qos =>
      if qos.cnt > 0 then
        match passes with
        | 0 => none
        | passes + 1 =>
            (rrPass scans qos).bind fun (line, next) =>
              (rrSch scans passes next).map fun (lines, final) => (line.toList ++ lines, final)
      else some ([], qos)

/-- The lines of the first `passes` passes of the outer loop, and the state
after them. -/
def rrPasses (scans : Nat) : Nat → Qos → Option (List RrLine × Qos)
  | 0, qos => some ([], qos)
  | passes + 1, qos =>
      if qos.cnt > 0 then
        (rrPass scans qos).bind fun (line, next) =>
          (rrPasses scans passes next).map fun (lines, final) => (line.toList ++ lines, final)
      else none

/-! ## The count -/

/-- The state after the calls of `in`, from construction. -/
def inAll (ins : List (Int × Int)) : Qos :=
  ins.foldl (fun qos next => (qos.inData next.1 next.2).2) new

/-- `cnt` is the number of items, all of them in the eight channels. -/
structure Counted (qos : Qos) : Prop where
  cnt_eq : qos.cnt = (total virturlChannelNum qos.vc : Nat)
  vc_beyond : ∀ i, virturlChannelNum ≤ i → qos.vc i = []

/-- Every channel is empty. -/
structure Drained (qos : Qos) : Prop where
  vc_eq : ∀ i, qos.vc i = []
  cnt_eq : qos.cnt = 0

section Counted

variable {qos : Qos}

theorem counted_new : Counted new where
  cnt_eq := by
    have zero : total virturlChannelNum new.vc = 0 := total_eq_zero_iff.mpr fun _ _ => rfl
    rw [zero]
    rfl
  vc_beyond _ _ := rfl

theorem Counted.inData (counted : Counted qos) (priority data : Int) :
    Counted (qos.inData priority data).2 := by
  rw [Qos.inData]
  split_ifs with outside
  · exact counted
  · have bound : priority.toNat < virturlChannelNum := by omega
    constructor
    · have grown := @total_update Int _ qos.vc _ bound (qos.vc priority.toNat ++ [data])
      rw [List.length_append, List.length_singleton] at grown
      have before := counted.cnt_eq
      dsimp only
      omega
    · intro i beyond
      dsimp only
      rw [Function.update_of_ne (by omega)]
      exact counted.vc_beyond i beyond

theorem counted_inAll (ins : List (Int × Int)) : Counted (inAll ins) := by
  have run : ∀ qos, Counted qos →
      Counted (ins.foldl (fun qos next => (qos.inData next.1 next.2).2) qos) := by
    induction ins with
    | nil => exact fun _ counted => counted
    | cons next ins ih => exact fun qos counted => ih _ (counted.inData next.1 next.2)
  exact run new counted_new

/-- The loops go on exactly while there are items. -/
theorem Counted.pos_iff (counted : Counted qos) :
    qos.cnt > 0 ↔ total virturlChannelNum qos.vc ≠ 0 := by
  rw [counted.cnt_eq]
  omega

theorem Counted.drained (counted : Counted qos) (empty : ¬ qos.cnt > 0) : Drained qos := by
  have zero : total virturlChannelNum qos.vc = 0 := not_not.mp (mt counted.pos_iff.mpr empty)
  refine ⟨fun i => ?_, by rw [counted.cnt_eq, zero]; rfl⟩
  by_cases beyond : virturlChannelNum ≤ i
  · exact counted.vc_beyond i beyond
  · exact total_eq_zero_iff.mp zero i (by omega)

/-- Some channel holds an item while the count is positive. -/
theorem Counted.exists_ne_nil (counted : Counted qos) (positive : qos.cnt > 0) :
    ∃ i, i < virturlChannelNum ∧ qos.vc i ≠ [] := by
  by_contra nothing
  push Not at nothing
  exact counted.pos_iff.mp positive (total_eq_zero_iff.mpr nothing)

/-- An item is taken: the count follows. -/
theorem Counted.popFront (counted : Counted qos) {i : Nat} (bound : i < virturlChannelNum)
    (busy : qos.vc i ≠ []) : Counted (qos.popFront i) := by
  constructor
  · have shrunk := @total_update Int _ qos.vc _ bound (qos.vc i).tail
    have positive := List.length_pos_iff.mpr busy
    rw [List.length_tail] at shrunk
    have before := counted.cnt_eq
    rw [Qos.popFront]
    dsimp only
    omega
  · intro j beyond
    rw [Qos.popFront]
    dsimp only
    rw [Function.update_of_ne (by omega)]
    exact counted.vc_beyond j beyond

/-- Taking an item leaves one item less. -/
theorem Counted.total_popFront (counted : Counted qos) {i : Nat} (bound : i < virturlChannelNum)
    (busy : qos.vc i ≠ []) :
    total virturlChannelNum (qos.popFront i).vc + 1 = total virturlChannelNum qos.vc := by
  have before := counted.cnt_eq
  have after := (counted.popFront bound busy).cnt_eq
  have taken : (qos.popFront i).cnt = qos.cnt - 1 := rfl
  omega

end Counted

end Qos

end SystemcTlm.Test
