import Mathlib.Data.Nat.Init
import Mathlib.Logic.Function.Basic
import Mathlib.Logic.Nontrivial.Defs
import Mathlib.Tactic.SplitIfs
import SystemcTlm.Loop.Range

/-!
# Copies in bursts

A copy that goes in bursts of `b` entries, in ascending order, reads each burst
before it writes it.  It agrees with a copy that reads everything first, except
where it writes what a later burst will read.
-/

namespace SystemcTlm.Copy

open SystemcTlm.Loop

universe u

variable {α : Type u}

/-- `n` entries are moved at once. -/
def copyBlock (src dst n : Nat) (table : Nat → α) : Nat → α :=
  fun a => if dst ≤ a ∧ a < dst + n then table (src + (a - dst)) else table a

theorem copyBlock_add {src dst n p : Nat} (table : Nat → α) (inside : p < n) :
    copyBlock src dst n table (dst + p) = table (src + p) := by
  rw [copyBlock, if_pos ⟨by omega, by omega⟩, Nat.add_sub_cancel_left]

theorem copyBlock_outside {src dst n a : Nat} (table : Nat → α)
    (outside : a < dst ∨ dst + n ≤ a) : copyBlock src dst n table a = table a := by
  rw [copyBlock, if_neg (by omega)]

theorem copyBlock_zero (src dst : Nat) (table : Nat → α) : copyBlock src dst 0 table = table :=
  funext fun _ => copyBlock_outside table (by omega)

/-- A loop that enters one value after the other. -/
theorem forRange_update (offset n : Nat) (value table : Nat → α) :
    forRange n (fun i table => Function.update table (offset + i) (value i)) table =
      fun a => if offset ≤ a ∧ a < offset + n then value (a - offset) else table a := by
  induction n with
  | zero =>
      funext a
      rw [if_neg (by omega)]
      rfl
  | succ n ih =>
      funext a
      rw [forRange_succ, ih]
      by_cases last : a = offset + n
      · rw [last, Function.update_self, if_pos ⟨by omega, by omega⟩, Nat.add_sub_cancel_left]
      · rw [Function.update_of_ne last]
        refine if_congr ?_ rfl rfl
        omega

/-! ## Bursts -/

/-- The table after `k` bursts of a copy of `n` entries. -/
def bursts (b src dst n : Nat) (table : Nat → α) : Nat → Nat → α
  | 0 => table
  | k + 1 =>
      copyBlock (src + b * k) (dst + b * k) (min b (n - b * k)) (bursts b src dst n table k)

variable {b src dst n : Nat} (table : Nat → α)

/-- Bursts beyond the end change nothing. -/
theorem bursts_beyond {j k : Nat} (whole : n ≤ b * j) (order : j ≤ k) :
    bursts b src dst n table k = bursts b src dst n table j := by
  induction k, order using Nat.le_induction with
  | base => rfl
  | succ k order ih =>
      have reach : b * j ≤ b * k := Nat.mul_le_mul_left b order
      have finished : min b (n - b * k) = 0 := by omega
      rw [bursts, finished, copyBlock_zero, ih]

/-- What the bursts so far have not reached. -/
theorem bursts_outside {k a : Nat} (outside : a < dst ∨ dst + b * k ≤ a ∨ dst + n ≤ a) :
    bursts b src dst n table k a = table a := by
  induction k with
  | zero => rfl
  | succ k ih =>
      rw [Nat.mul_succ] at outside
      rw [bursts, copyBlock_outside _ (by omega), ih (by omega)]

/-- What has been written stays. -/
theorem bursts_stable {j k a : Nat} (order : j ≤ k) (written : a < dst + b * j) :
    bursts b src dst n table k a = bursts b src dst n table j a := by
  induction k, order using Nat.le_induction with
  | base => rfl
  | succ k order ih =>
      have reach : b * j ≤ b * k := Nat.mul_le_mul_left b order
      rw [bursts, copyBlock_outside _ (by omega), ih]

/-- An entry is read by the burst it belongs to. -/
theorem bursts_add {k p : Nat} (inside : p < n) (reached : p < b * k) :
    bursts b src dst n table k (dst + p) = bursts b src dst n table (p / b) (src + p) := by
  have pos : 0 < b := Nat.pos_of_ne_zero fun zero => by simp [zero] at reached
  have before : b * (p / b) ≤ p := Nat.mul_div_le p b
  have after : p < b * (p / b + 1) := by
    rw [Nat.mul_succ]
    exact Nat.lt_mul_div_succ p pos
  have order : p / b + 1 ≤ k := (Nat.div_lt_iff_lt_mul pos).mpr (by rwa [Nat.mul_comm])
  rw [Nat.mul_succ] at after
  rw [bursts_stable table order (by rw [Nat.mul_succ]; omega), bursts]
  have place : dst + p = dst + b * (p / b) + (p - b * (p / b)) := by omega
  rw [place, copyBlock_add _ (by omega)]
  congr 1
  omega

/-- No burst writes what a later one reads. -/
def ReadsFirst (b src dst n : Nat) : Prop :=
  dst ≤ src ∨ src + n ≤ dst ∨ n ≤ b

instance : Decidable (ReadsFirst b src dst n) :=
  inferInstanceAs (Decidable (_ ∨ _ ∨ _))

theorem bursts_eq_copyBlock {k : Nat} (first : ReadsFirst b src dst n) (whole : n ≤ b * k) :
    bursts b src dst n table k = copyBlock src dst n table := by
  funext a
  by_cases inside : dst ≤ a ∧ a < dst + n
  · have place : a = dst + (a - dst) := by omega
    have below : a - dst < n := by omega
    rw [place, bursts_add table below (by omega), copyBlock_add table below]
    have before : b * ((a - dst) / b) ≤ a - dst := Nat.mul_div_le _ b
    refine bursts_outside table ?_
    rcases first with behind | disjoint | single
    · omega
    · omega
    · rw [Nat.div_eq_of_lt (Nat.lt_of_lt_of_le below single)]
      omega
  · rw [bursts_outside table (by omega), copyBlock_outside table (by omega)]

/-- Otherwise there are tables for which the outcome is another one. -/
theorem exists_bursts_ne [Nontrivial α] {k : Nat} (whole : n ≤ b * k)
    (overlap : ¬ ReadsFirst b src dst n) :
    ∃ table : Nat → α, bursts b src dst n table k ≠ copyBlock src dst n table := by
  rcases exists_pair_ne α with ⟨x, y, distinct⟩
  have ahead : src < dst ∧ dst < src + n ∧ b < n := by
    rw [ReadsFirst] at overlap
    omega
  have pos : 0 < b := Nat.pos_of_ne_zero fun zero => by simp [zero] at whole; omega
  -- The first burst writes the entry that is read at `p`.
  let p := max b (dst - src)
  have inside : p < n := by omega
  let table : Nat → α := fun a => if a = src + p then x else y
  refine ⟨table, fun same => distinct ?_⟩
  have moved := congrFun same (dst + p)
  rw [copyBlock_add table inside, bursts_add table inside (by omega)] at moved
  have later : 1 ≤ p / b := Nat.div_pos (by omega) pos
  have read : bursts b src dst n table (p / b) (src + p) = table (src + p - (dst - src)) := by
    have place : src + p = dst + (p - (dst - src)) := by omega
    rw [bursts_stable table later (by omega), place, bursts_add table (by omega) (by omega),
      Nat.div_eq_of_lt (by omega)]
    change table _ = table _
    congr 1
    omega
  rw [read] at moved
  change (if _ then x else y) = (if _ then x else y) at moved
  rw [if_neg (by omega), if_pos rfl] at moved
  exact moved.symm

theorem bursts_eq_copyBlock_iff [Nontrivial α] {k : Nat} (whole : n ≤ b * k) :
    (∀ table : Nat → α, bursts b src dst n table k = copyBlock src dst n table) ↔
      ReadsFirst b src dst n := by
  constructor
  · intro same
    by_contra overlap
    rcases exists_bursts_ne (α := α) whole overlap with ⟨table, different⟩
    exact different (same table)
  · exact fun first table => bursts_eq_copyBlock table first whole

end SystemcTlm.Copy
