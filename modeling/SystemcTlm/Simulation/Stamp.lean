import Mathlib.Data.Prod.Lex
import Mathlib.Tactic.SplitIfs

/-!
# Stamps

What happens in a simulation is ordered by the time, and at one time by the delta
cycle.  A notification with a delay is due at a later time, one without in the
next delta cycle.
-/

namespace SystemcTlm.Simulation

/-- A time and a delta cycle of it. -/
abbrev Stamp :=
  Nat ×ₗ Nat

namespace Stamp

/-- When a notification with this delay, made now, is due. -/
def after (now : Stamp) (delay : Nat) : Stamp :=
  if delay = 0 then toLex ((ofLex now).1, (ofLex now).2 + 1)
  else toLex ((ofLex now).1 + delay, 0)

theorem lt_after (now : Stamp) (delay : Nat) : now < now.after delay := by
  rw [after, Prod.Lex.lt_iff]
  split_ifs
  · exact Or.inr ⟨rfl, Nat.lt_succ_self _⟩
  · exact Or.inl (Nat.lt_add_of_pos_right (Nat.pos_of_ne_zero ‹_›))

theorem after_le_after_add (now : Stamp) (delay more : Nat) :
    now.after delay ≤ now.after (delay + more) := by
  rw [after, after, Prod.Lex.le_iff]
  split_ifs with first both
  · exact Or.inr ⟨rfl, Nat.le_refl _⟩
  · exact Or.inl (Nat.lt_add_of_pos_right (Nat.pos_of_ne_zero both))
  · omega
  · by_cases zero : more = 0
    · exact Or.inr ⟨by simp [zero], Nat.le_refl _⟩
    · exact Or.inl (Nat.add_lt_add_left (Nat.lt_add_of_pos_right (Nat.pos_of_ne_zero zero)) _)

end Stamp

end SystemcTlm.Simulation
