import SystemcTlm.Loop.Range
import Mathlib.Logic.Function.Basic

/-!
# Windows

A loop that writes through a window of width `w` puts position `i` at the place
`i % w` of the window.  At each place the last position stays.
-/

namespace SystemcTlm.Loop

universe u v

variable {κ : Type u} {β : Type v} [DecidableEq κ]

/-- The last of the positions below `n` that falls on this place. -/
def lastPosition (w n place : Nat) : Nat :=
  n - 1 - (n - 1 - place) % w

/-- `n` values are written through a window of width `w` at these keys. -/
def writeWindow (key : Nat → κ) (value : Nat → β) (w n : Nat) (table : κ → β) : κ → β :=
  (List.range n).foldl (fun table i => Function.update table (key (i % w)) (value i)) table

variable {key : Nat → κ} {value : Nat → β} {w n : Nat} {table : κ → β}

theorem writeWindow_succ : writeWindow key value w (n + 1) table =
    Function.update (writeWindow key value w n table) (key (n % w)) (value n) := by
  rw [writeWindow, List.range_succ, List.foldl_append]
  rfl

theorem lastPosition_self (w n : Nat) : lastPosition w (n + 1) (n % w) = n := by
  have whole : (n - n % w) % w = 0 := Nat.sub_mod_eq_zero_of_mod_eq (Nat.mod_mod n w).symm
  rw [lastPosition, Nat.add_sub_cancel, whole, Nat.sub_zero]

theorem lastPosition_succ {place : Nat} (inside : place < w) (before : place < n)
    (apart : place ≠ n % w) : lastPosition w (n + 1) place = lastPosition w n place := by
  have divided := Nat.div_add_mod (n - 1 - place) w
  have less := Nat.mod_lt (n - 1 - place) (Nat.zero_lt_of_lt inside)
  by_cases last : (n - 1 - place) % w + 1 = w
  · refine absurd ?_ apart
    have whole : n = place + w * ((n - 1 - place) / w + 1) := by
      rw [Nat.mul_add, Nat.mul_one]
      omega
    rw [whole, Nat.add_mul_mod_self_left, Nat.mod_eq_of_lt inside]
  · have next : (n - place) % w = (n - 1 - place) % w + 1 := by
      have split : n - place = w * ((n - 1 - place) / w) + ((n - 1 - place) % w + 1) := by omega
      rw [split, Nat.mul_add_mod, Nat.mod_eq_of_lt (by omega)]
    rw [lastPosition, lastPosition, Nat.add_sub_cancel, next]
    omega

/-- The value at a place of the window. -/
theorem writeWindow_key
    (injective : ∀ i j, i < w → j < w → key i = key j → i = j) {place : Nat}
    (inside : place < w) (written : place < n) :
    writeWindow key value w n table (key place) = value (lastPosition w n place) := by
  induction n with
  | zero => omega
  | succ n ih =>
      rw [writeWindow_succ]
      by_cases here : place = n % w
      · rw [here, Function.update_self, lastPosition_self]
      · have before : place < n := by
          by_contra later
          have same : place = n := by omega
          rw [same] at inside
          exact here (same.trans (Nat.mod_eq_of_lt inside).symm)
        have apart : key place ≠ key (n % w) := fun same =>
          here (injective _ _ inside (Nat.mod_lt n (Nat.zero_lt_of_lt inside)) same)
        rw [Function.update_of_ne apart, ih before, lastPosition_succ inside before here]

/-- The rest of the table. -/
theorem writeWindow_of_ne (pos : 0 < w) {other : κ}
    (outside : ∀ place, place < w → place < n → other ≠ key place) :
    writeWindow key value w n table other = table other := by
  induction n with
  | zero => rfl
  | succ n ih =>
      rw [writeWindow_succ]
      have apart := outside (n % w) (Nat.mod_lt n pos) (Nat.lt_succ_of_le (Nat.mod_le n w))
      rw [Function.update_of_ne apart]
      exact ih fun place inside written => outside place inside (Nat.lt_succ_of_lt written)

end SystemcTlm.Loop
