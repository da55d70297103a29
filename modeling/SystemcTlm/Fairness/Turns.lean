import SystemcTlm.Loop.Scan
import Mathlib.Logic.Function.Basic

/-!
# Service in turn

The members of a ring have loads.  A turn serves the first member with a load
from a position on, takes one from its load and goes on behind it.  Between two
turns of one member every other one that had a load is served exactly once.
-/

namespace SystemcTlm.Fairness

open SystemcTlm.Loop

/-- `member` is the first one with a load from `position` on. -/
structure Turn (n : Nat) (load : Nat → Nat) (position member : Nat) : Prop where
  lt : member < n
  busy : 0 < load member
  first : ∀ other, other < n → ringDist n position other < ringDist n position member →
    load other = 0

/-- The members are served in this order. -/
inductive Turns (n : Nat) : (Nat → Nat) → Nat → List Nat → Prop
  | nil (load : Nat → Nat) (position : Nat) : Turns n load position []
  | cons {load : Nat → Nat} {position member : Nat} {served : List Nat}
      (turn : Turn n load position member)
      (later : Turns n (Function.update load member (load member - 1)) ((member + 1) % n)
        served) :
      Turns n load position (member :: served)

variable {n position member other : Nat} {load : Nat → Nat} {served rest : List Nat}

/-- Who is served had a load from the beginning. -/
theorem Turns.busy_of_mem (turns : Turns n load position served) (inside : member ∈ served) :
    0 < load member := by
  induction turns with
  | nil => nomatch inside
  | @cons load position first served turn _ ih =>
      by_cases same : member = first
      · rw [same]
        exact turn.busy
      · have later := ih ((List.mem_cons.mp inside).resolve_left same)
        rwa [Function.update_of_ne same] at later

theorem Turns.lt_of_mem (turns : Turns n load position served) (inside : member ∈ served) :
    member < n := by
  induction turns with
  | nil => nomatch inside
  | cons turn _ ih =>
      rcases List.mem_cons.mp inside with rfl | later
      · exact turn.lt
      · exact ih later

/-! ## Ranks

The rank of a place is its distance from the place behind `member`, which so has
the last rank. -/

section Rank

variable {base place first : Nat}

/-- A walk that does not come round adds up. -/
theorem ringDist_add_of_le (baseBound : base < n) (positionBound : position < n)
    (placeBound : place < n) (ahead : ringDist n base position ≤ ringDist n base place) :
    ringDist n base place = ringDist n base position + ringDist n position place := by
  unfold ringDist at *
  split_ifs at * <;> omega

/-- The member itself comes last. -/
theorem ringDist_succ_self (memberBound : member < n) :
    ringDist n ((member + 1) % n) member = n - 1 := by
  rw [succ_mod memberBound]
  unfold ringDist
  split_ifs <;> omega

/-- What lies before the member from a position on has no lower rank. -/
theorem ringDist_succ_le_of_lt (memberBound : member < n) (positionBound : position < n)
    (near : ringDist n position first < ringDist n position member) :
    ringDist n ((member + 1) % n) position ≤ ringDist n ((member + 1) % n) first := by
  rw [succ_mod memberBound]
  unfold ringDist at *
  split_ifs at * <;> omega

/-- The place behind another one has the next rank. -/
theorem ringDist_succ_succ (memberBound : member < n) (firstBound : first < n)
    (different : first ≠ member) :
    ringDist n ((member + 1) % n) ((first + 1) % n) = ringDist n ((member + 1) % n) first + 1 := by
  rw [succ_mod memberBound, succ_mod firstBound]
  unfold ringDist
  split_ifs <;> omega

end Rank

/-- Whom a turn passes over has no load. -/
theorem Turn.load_eq_zero {base : Nat} (turn : Turn n load position member) (baseBound : base < n)
    (positionBound : position < n) (otherBound : other < n)
    (ahead : ringDist n base position ≤ ringDist n base other)
    (passed : ringDist n base other < ringDist n base member) : load other = 0 := by
  apply turn.first other otherBound
  have toOther := ringDist_add_of_le baseBound positionBound otherBound ahead
  have toMember := ringDist_add_of_le baseBound positionBound turn.lt (by omega)
  omega

/-- Until the next turn of a member, the walk that began behind it serves the
others that it still has before it, once each. -/
theorem Turns.count_before (turns : Turns n load position (served ++ member :: rest))
    (positionBound : position < n) (absent : member ∉ served) (otherBound : other < n)
    (different : other ≠ member) :
    served.count other =
      if ringDist n ((member + 1) % n) position ≤ ringDist n ((member + 1) % n) other ∧
          0 < load other then 1 else 0 := by
  have memberBound : member < n := turns.lt_of_mem (by simp)
  have baseBound := succ_mod_lt member (Nat.zero_lt_of_lt memberBound)
  have last := ringDist_succ_self memberBound
  induction served generalizing load position with
  | nil =>
      cases turns with
      | cons turn _ =>
          rw [List.count_nil, if_neg]
          rintro ⟨ahead, loaded⟩
          have ranks : ringDist n ((member + 1) % n) other ≠ n - 1 := fun same =>
            different ((ringDist_inj baseBound otherBound memberBound).mp (same.trans last.symm))
          have within := ringDist_lt baseBound otherBound
          have skipped := turn.load_eq_zero baseBound positionBound otherBound ahead (by omega)
          omega
  | cons first served ih =>
      have busy : 0 < load member := turns.busy_of_mem (by simp)
      have firstNe : first ≠ member := fun same => absent (same ▸ List.mem_cons_self)
      cases turns with
      | cons turn later =>
          have firstBound := turn.lt
          -- The member has a load itself, so that the turn does not pass it.
          have near : ringDist n position first < ringDist n position member := by
            by_contra far
            have distinct : ringDist n position first ≠ ringDist n position member := fun same =>
              firstNe ((ringDist_inj positionBound firstBound memberBound).mp same)
            have skipped := turn.first member memberBound (by omega)
            omega
          have forward := ringDist_succ_le_of_lt memberBound positionBound near
          have counted := ih later (succ_mod_lt first (Nat.zero_lt_of_lt firstBound))
            fun inside => absent (List.mem_cons_of_mem first inside)
          rw [ringDist_succ_succ memberBound firstBound firstNe] at counted
          by_cases same : first = other
          · subst same
            rw [List.count_cons_self, counted, if_neg (by omega), if_pos ⟨forward, turn.busy⟩]
          · rw [List.count_cons_of_ne same, counted, Function.update_of_ne (Ne.symm same)]
            have ranks : ringDist n ((member + 1) % n) first ≠
                ringDist n ((member + 1) % n) other := fun equal =>
              same ((ringDist_inj baseBound firstBound otherBound).mp equal)
            apply if_congr _ rfl rfl
            constructor
            · rintro ⟨ahead, loaded⟩
              exact ⟨by omega, loaded⟩
            · rintro ⟨ahead, loaded⟩
              refine ⟨?_, loaded⟩
              by_contra behind
              have skipped := turn.load_eq_zero baseBound positionBound otherBound ahead (by omega)
              omega

/-- Between two turns of a member, every other one with a load is served exactly
once. -/
theorem Turns.count_between
    (turns : Turns n load position (member :: (served ++ member :: rest)))
    (absent : member ∉ served) (otherBound : other < n) (different : other ≠ member)
    (busy : 0 < load other) : served.count other = 1 := by
  cases turns with
  | cons turn later =>
      have behind := succ_mod_lt member (Nat.zero_lt_of_lt turn.lt)
      rw [later.count_before behind absent otherBound different, ringDist_self,
        Function.update_of_ne different, if_pos ⟨Nat.zero_le _, busy⟩]

end SystemcTlm.Fairness
