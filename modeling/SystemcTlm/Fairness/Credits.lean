import Mathlib.Algebra.Order.Ring.Abs
import Mathlib.Tactic.Ring
import Mathlib.Tactic.Linarith

/-!
# Service by credits

Every member of a group has a weight, and a credit that begins at the weight
and pays for service.  When all credits are used up they are renewed together.
A step may serve anybody whose credit covers it, in any order and at any pace.
Nevertheless the service the members have received is proportional to their
weights up to one renewal: `Balanced` says that all of them have used up the
same number of whole credits, and `Balanced.share` what follows for any two.
-/

namespace SystemcTlm.Fairness

universe u

variable {ι : Type u} {weight credit served : ι → Int}

/-- One step to the credits `next`: the service `gain` is paid from the credits,
which are renewed first when nobody has any left. -/
inductive CreditStep (weight credit gain next : ι → Int) : Prop
  | keep (gain_nonneg : ∀ i, 0 ≤ gain i) (gain_le : ∀ i, gain i ≤ credit i)
      (next_eq : ∀ i, next i = credit i - gain i)
  | renew (exhausted : ∀ i, credit i = 0) (gain_nonneg : ∀ i, 0 ≤ gain i)
      (gain_le : ∀ i, gain i ≤ weight i) (next_eq : ∀ i, next i = weight i - gain i)

/-- Every member has been served `rounds` whole weights and what is missing
from its credit. -/
structure BalancedAt (weight credit served : ι → Int) (rounds : Int) : Prop where
  credit_nonneg : ∀ i, 0 ≤ credit i
  credit_le : ∀ i, credit i ≤ weight i
  served_eq : ∀ i, served i = rounds * weight i + (weight i - credit i)

/-- Balance at some number of renewals. -/
def Balanced (weight credit served : ι → Int) : Prop :=
  ∃ rounds, BalancedAt weight credit served rounds

theorem balanced_start (weight_nonneg : ∀ i, 0 ≤ weight i) :
    Balanced weight weight fun _ => 0 :=
  ⟨0, weight_nonneg, fun _ => le_rfl, fun _ => by ring⟩

/-- A step keeps the balance. -/
theorem Balanced.step {gain next : ι → Int} (balanced : Balanced weight credit served)
    (step : CreditStep weight credit gain next) :
    Balanced weight next fun i => served i + gain i := by
  rcases balanced with ⟨rounds, level⟩
  cases step with
  | keep gain_nonneg gain_le next_eq =>
      refine ⟨rounds, fun i => ?_, fun i => ?_, fun i => ?_⟩
      · rw [next_eq]
        exact sub_nonneg.mpr (gain_le i)
      · rw [next_eq]
        linarith [level.credit_le i, gain_nonneg i]
      · rw [next_eq, level.served_eq i]
        ring
  | renew exhausted gain_nonneg gain_le next_eq =>
      refine ⟨rounds + 1, fun i => ?_, fun i => ?_, fun i => ?_⟩
      · rw [next_eq]
        exact sub_nonneg.mpr (gain_le i)
      · rw [next_eq]
        linarith [gain_nonneg i]
      · rw [next_eq, level.served_eq i, exhausted i]
        ring

/-- Every member has been served between `r` and `r + 1` whole weights. -/
theorem Balanced.rounds (balanced : Balanced weight credit served)
    (served_nonneg : ∀ i, 0 ≤ served i) :
    ∃ r : Nat, ∀ i, r * weight i ≤ served i ∧ served i ≤ (r + 1) * weight i := by
  rcases balanced with ⟨rounds, level⟩
  by_cases started : 0 ≤ rounds
  · rcases Int.eq_ofNat_of_zero_le started with ⟨r, rfl⟩
    refine ⟨r, fun i => ?_⟩
    have whole : ((r : Int) + 1) * weight i = r * weight i + weight i := by ring
    rw [whole, level.served_eq i]
    constructor
    · linarith [level.credit_le i]
    · linarith [level.credit_nonneg i]
  · refine ⟨0, fun i => ?_⟩
    have weight_nonneg := (level.credit_nonneg i).trans (level.credit_le i)
    have negative : rounds * weight i ≤ 0 :=
      mul_nonpos_of_nonpos_of_nonneg (le_of_not_ge started) weight_nonneg
    rw [Nat.cast_zero, zero_mul, zero_add, one_mul]
    refine ⟨served_nonneg i, ?_⟩
    rw [level.served_eq i]
    linarith [level.credit_nonneg i]

/-- Two members have been served in proportion to their weights, up to the
product of the weights. -/
theorem Balanced.share (balanced : Balanced weight credit served) (i k : ι) :
    |served i * weight k - served k * weight i| ≤ weight i * weight k := by
  rcases balanced with ⟨rounds, level⟩
  have weight_nonneg : ∀ j, 0 ≤ weight j := fun j =>
    (level.credit_nonneg j).trans (level.credit_le j)
  have difference : served i * weight k - served k * weight i =
      credit k * weight i - credit i * weight k := by
    rw [level.served_eq i, level.served_eq k]
    ring
  have product_nonneg : ∀ j l, 0 ≤ credit j * weight l := fun j l =>
    mul_nonneg (level.credit_nonneg j) (weight_nonneg l)
  have product_le : ∀ j l, credit j * weight l ≤ weight j * weight l := fun j l =>
    mul_le_mul_of_nonneg_right (level.credit_le j) (weight_nonneg l)
  rw [difference, abs_le]
  constructor
  · linarith [product_nonneg k i, product_le i k]
  · linarith [product_nonneg i k, product_le k i, mul_comm (weight k) (weight i)]

end SystemcTlm.Fairness
