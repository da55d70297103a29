import SystemcTlm.Islip.IslipSp
import SystemcTlm.Islip.PriorityIslip
import Mathlib.Algebra.Order.Group.Abs
import Mathlib.Algebra.Order.Group.Int

/-!
# Arguments of the enqueueing calls

`set_ql` and `request` take their indices from outside.  `set_ql` checks the
upper end of the levels only and computes one index from the three arguments, so
that arguments out of range can name the queue of another pair.  The members are
`int`s here, and their arithmetic wraps.  `request` checks everything but a
negative level, with which its access leaves the queue.
-/

namespace SystemcTlm.Islip

open SystemcTlm.Loop

/-- The queues differ in the addressed one only, and there by at most one cell. -/
def AtMostOneCell {κ : Type} (before after : κ → Int) (address : κ) : Prop :=
  (∀ k, k ≠ address → after k = before k) ∧ |after address - before address| ≤ 1

/-! ## `islip::set_ql` -/

/-- The members of `islip` that `set_ql` uses. -/
structure IslipQueues where
  numPort : Int32
  numPrio : Int32
  ql : Nat → Int32

namespace IslipQueues

variable (i j prio : Int32) (queues : IslipQueues)

/-- The size of `m_ql` from construction. -/
def qlSize : Nat :=
  (queues.numPort * queues.numPort * queues.numPrio).toInt.toNat

/-- `(i * m_num_port + j) * m_num_prio + prio`. -/
def index : Int32 :=
  (i * queues.numPort + j) * queues.numPrio + prio

/-- The index lies inside `m_ql`. -/
def Lands : Prop :=
  0 ≤ (queues.index i j prio).toInt ∧ (queues.index i j prio).toInt < queues.qlSize

instance : Decidable (queues.Lands i j prio) :=
  inferInstanceAs (Decidable (_ ∧ _))

/-- `none` is the `std::out_of_range` of `at`, before anything is written. -/
def setQl : Option IslipQueues :=
  if queues.numPrio ≤ prio then some queues
  else if queues.Lands i j prio then
    some { queues with
      ql := Function.update queues.ql (queues.index i j prio).toInt.toNat
        (queues.ql (queues.index i j prio).toInt.toNat + 1) }
  else none

/-- An input, an output and a level of the switch. -/
def InRange : Prop :=
  (0 ≤ i.toInt ∧ i.toInt < queues.numPort.toInt) ∧
    (0 ≤ j.toInt ∧ j.toInt < queues.numPort.toInt) ∧
    0 ≤ prio.toInt ∧ prio.toInt < queues.numPrio.toInt

/-- The place of the queue of an input, an output and a level. -/
def address : Nat :=
  flatIndex queues.numPrio.toInt.toNat
    (flatIndex queues.numPort.toInt.toNat i.toInt.toNat j.toInt.toNat) prio.toInt.toNat

/-- Either the arguments are in range and only their queue changes, by at most
one cell, or no queue changes. -/
def Enqueues (next : IslipQueues) : Prop :=
  (queues.InRange i j prio ∧
    AtMostOneCell (fun k => (queues.ql k).toInt) (fun k => (next.ql k).toInt)
      (queues.address i j prio)) ∨ next.ql = queues.ql

end IslipQueues

theorem toInt_succ (v : Int32) :
    (v + 1).toInt = if v = Int32.maxValue then v.toInt + 1 - 0x100000000 else v.toInt + 1 := by
  have low := v.le_toInt
  have high := v.toInt_lt
  rw [Int32.toInt_add, Int32.toInt_one]
  split_ifs with last
  · rw [last]
    rfl
  · have below : v.toInt ≠ Int32.maxValue.toInt := fun same => last (Int32.toInt_inj.mp same)
    rw [Int32.toInt_maxValue] at below
    exact Int.bmod_eq_of_le (by omega) (by omega)

theorem succ_ne (v : Int32) : v + 1 ≠ v := by
  intro same
  have equal := congrArg Int32.toInt same
  rw [toInt_succ] at equal
  split_ifs at equal
  · omega
  · omega

/-- One more is at most one more, unless the count wraps. -/
theorem abs_succ_sub_le_iff (v : Int32) :
    |(v + 1).toInt - v.toInt| ≤ 1 ↔ v ≠ Int32.maxValue := by
  rw [toInt_succ, abs_le]
  split_ifs with last
  · exact iff_of_false (fun bounds => by omega) (not_not.mpr last)
  · exact iff_of_true ⟨by omega, by omega⟩ last

namespace IslipQueues

variable {i j prio : Int32} {queues : IslipQueues}

/-- `set_ql` changes no other queue than the addressed one if and only if the
level is too high, the index lands outside `m_ql`, or the arguments are in range
and the index is that of their queue, whose count does not wrap. -/
theorem setQl_enqueues_iff :
    (∀ next, queues.setQl i j prio = some next → queues.Enqueues i j prio next) ↔
      queues.numPrio ≤ prio ∨ ¬ queues.Lands i j prio ∨
        queues.InRange i j prio ∧
          (queues.index i j prio).toInt = queues.address i j prio ∧
          queues.ql (queues.address i j prio) ≠ Int32.maxValue := by
  unfold setQl
  split_ifs with high lands
  · refine iff_of_true (fun next made => Or.inr ?_) (Or.inl high)
    rw [Option.some.inj made]
  · rw [or_iff_right high, or_iff_right (not_not.mpr lands)]
    have place : (queues.index i j prio).toInt =
        ((queues.index i j prio).toInt.toNat : Int) := (Int.toNat_of_nonneg lands.1).symm
    generalize (queues.index i j prio).toInt.toNat = k at place ⊢
    rw [place, Int.natCast_inj]
    constructor
    · intro enqueues
      rcases enqueues _ rfl with ⟨inRange, others, one⟩ | same
      · have here : k = queues.address i j prio := by
          by_contra elsewhere
          have kept := Int32.toInt_inj.mp (others k elsewhere)
          dsimp only at kept
          rw [Function.update_self] at kept
          exact succ_ne _ kept
        refine ⟨inRange, here, ?_⟩
        rw [here] at one
        dsimp only at one
        rw [Function.update_self] at one
        exact (abs_succ_sub_le_iff _).mp one
      · have kept := congrFun same k
        dsimp only at kept
        rw [Function.update_self] at kept
        exact absurd kept (succ_ne _)
    · rintro ⟨inRange, rfl, notMax⟩ next made
      cases made
      refine Or.inl ⟨inRange, fun other distinct => ?_, ?_⟩
      · dsimp only
        rw [Function.update_of_ne distinct]
      · dsimp only
        rw [Function.update_self]
        exact (abs_succ_sub_le_iff _).mpr notMax
  · exact iff_of_true (fun next made => nomatch made) (Or.inr (Or.inl lands))

/-- The members as those of the scheduler. -/
def Represents (queues : IslipQueues) (sch : PriorityIslip) : Prop :=
  queues.numPort.toInt = sch.numPort ∧ queues.numPrio.toInt = sch.numPrio ∧
    ∀ k, (queues.ql k).toInt = sch.ql k

/-- Where nothing wraps, `set_ql` is that of the scheduler. -/
theorem Represents.setQl {sch : PriorityIslip} (represents : queues.Represents sch)
    (index : (queues.index i j prio).toInt =
      (i.toInt * sch.numPort + j.toInt) * sch.numPrio + prio.toInt)
    (size : queues.qlSize = sch.numPort * sch.numPort * sch.numPrio)
    (counts : ∀ k, queues.ql k ≠ Int32.maxValue) :
    Option.Rel Represents (queues.setQl i j prio) (sch.setQl i.toInt j.toInt prio.toInt) := by
  rcases represents with ⟨ports, levels, cells⟩
  have lands : queues.Lands i j prio ↔
      0 ≤ (i.toInt * sch.numPort + j.toInt) * sch.numPrio + prio.toInt ∧
        (i.toInt * sch.numPort + j.toInt) * sch.numPrio + prio.toInt <
          (sch.numPort : Int) * sch.numPort * sch.numPrio := by
    rw [Lands, index, size]
    push_cast
    rfl
  have high : queues.numPrio ≤ prio ↔ (sch.numPrio : Int) ≤ prio.toInt := by
    rw [Int32.le_iff_toInt_le, levels]
  rw [IslipQueues.setQl, PriorityIslip.setQl]
  simp only [high, lands, index]
  split_ifs
  · exact Option.Rel.some ⟨ports, levels, cells⟩
  · refine Option.Rel.some ⟨ports, levels, fun k => ?_⟩
    dsimp only
    rw [Function.update_apply, Function.update_apply]
    split_ifs
    · rw [toInt_succ, if_neg (counts _), cells]
    · exact cells k
  · exact Option.Rel.none

end IslipQueues

/-! ## `islip_sp::request` -/

namespace IslipSp

variable (input output priority : Int) (sp : IslipSp)

/-- The queues by input, output and level. -/
def cells (place : Nat × Nat × Nat) : Int :=
  sp.voq place.1 place.2.1 place.2.2

/-- The two ports and the priority of a request are in range. -/
def InRange : Prop :=
  (0 ≤ input ∧ input < sp.inputNum) ∧ (0 ≤ output ∧ output < sp.outputNum) ∧
    0 ≤ priority ∧ priority < sp.priorityLevels

/-- No access leaves the queues, and either the arguments are in range and only
their queue changes, by at most one cell, or no queue changes. -/
def Enqueues : Prop :=
  ∃ next, sp.request input output priority = some next ∧
    (sp.InRange input output priority ∧
        AtMostOneCell sp.cells next.cells (input.toNat, output.toNat, priority.toNat) ∨
      next.voq = sp.voq)

variable {input output priority sp}

theorem cells_update₂ (sp : IslipSp) (i j p : Nat) (value : Int) (place : Nat × Nat × Nat) :
    cells { sp with voq := update₂ sp.voq i j (Function.update (sp.voq i j) p value) } place =
      if place = (i, j, p) then value else sp.cells place := by
  rcases place with ⟨i', j', p'⟩
  simp only [cells, update₂_apply]
  by_cases here : i' = i ∧ j' = j
  · rcases here with ⟨rfl, rfl⟩
    rw [if_pos ⟨rfl, rfl⟩, Function.update_apply]
    simp only [Prod.mk.injEq, true_and]
  · rw [if_neg here, if_neg]
    intro same
    simp only [Prod.mk.injEq] at same
    exact here ⟨same.1, same.2.1⟩

/-- `request` stays inside the queues if and only if the input or the output is
out of range or the level is not negative. -/
theorem request_enqueues_iff :
    sp.Enqueues input output priority ↔
      ¬ (0 ≤ input ∧ input < sp.inputNum) ∨ ¬ (0 ≤ output ∧ output < sp.outputNum) ∨
        0 ≤ priority := by
  rw [Enqueues]
  unfold request
  split_ifs with outside negative full
  · exact iff_of_true ⟨sp, rfl, Or.inr rfl⟩ (by omega)
  · refine iff_of_false ?_ (by omega)
    rintro ⟨next, made, -⟩
    cases made
  · exact iff_of_true ⟨sp, rfl, Or.inr rfl⟩ (by omega)
  · refine iff_of_true ⟨_, rfl, Or.inl ⟨⟨by omega, by omega, by omega⟩, ?_, ?_⟩⟩ (by omega)
    · intro place elsewhere
      rw [cells_update₂, if_neg elsewhere]
    · rw [cells_update₂, if_pos rfl, abs_le, cells]
      dsimp only
      exact ⟨by omega, by omega⟩

end IslipSp

/-- Exactly when the two calls enqueue at the addressed queue only. -/
theorem enqueues_iff (i j prio : Int32) (queues : IslipQueues) (input output priority : Int)
    (sp : IslipSp) :
    ((∀ next, queues.setQl i j prio = some next → queues.Enqueues i j prio next) ↔
        queues.numPrio ≤ prio ∨ ¬ queues.Lands i j prio ∨
          queues.InRange i j prio ∧
            (queues.index i j prio).toInt = queues.address i j prio ∧
            queues.ql (queues.address i j prio) ≠ Int32.maxValue) ∧
      (sp.Enqueues input output priority ↔
        ¬ (0 ≤ input ∧ input < sp.inputNum) ∨ ¬ (0 ≤ output ∧ output < sp.outputNum) ∨
          0 ≤ priority) :=
  ⟨IslipQueues.setQl_enqueues_iff, IslipSp.request_enqueues_iff⟩

/-- A switch of two ports with one level and no cells. -/
def twoPorts : IslipQueues where
  numPort := 2
  numPrio := 1
  ql _ := 0

/-- Output 2 of input 0 is output 0 of input 1, and a negative level leaves the
queue. -/
theorem not_enqueues :
    (twoPorts.setQl 0 2 0).map (fun next => next.ql (twoPorts.address 1 0 0)) = some 1 ∧
      (¬ ∀ (i j prio : Int32) (queues next : IslipQueues),
        queues.setQl i j prio = some next → queues.Enqueues i j prio next) ∧
      (IslipSp.new 2 2 1 4).request 0 0 (-1) = none ∧
      ¬ ∀ (input output priority : Int) (sp : IslipSp), sp.Enqueues input output priority := by
  have aliased : (twoPorts.setQl 0 2 0).map (fun next => next.ql (twoPorts.address 1 0 0)) =
      some 1 := by decide +kernel
  have lost : (IslipSp.new 2 2 1 4).request 0 0 (-1) = none := rfl
  refine ⟨aliased, fun all => ?_, lost, fun all => ?_⟩
  · rcases Option.map_eq_some_iff.mp aliased with ⟨next, made, one⟩
    rcases all 0 2 0 twoPorts next made with ⟨⟨-, ⟨-, high⟩, -⟩, -⟩ | same
    · exact absurd high (by decide)
    · rw [same] at one
      exact absurd one (by decide)
  · rcases all 0 0 (-1) (IslipSp.new 2 2 1 4) with ⟨next, made, -⟩
    rw [lost] at made
    cases made

end SystemcTlm.Islip
