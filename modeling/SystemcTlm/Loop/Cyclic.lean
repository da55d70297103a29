import SystemcTlm.Loop.Scan
import Mathlib.Data.List.Induction
import Mathlib.Data.Set.Basic
import Mathlib.Order.Lattice

/-!
# Counted loops in cyclic order

The loop

`for (step = 0; step < n; step++) { i = (start + step) % n; … }`

visits every place below `n` once, beginning at `start`.  `cyclic` lists the
places in the order of the visits.  `firstFrom` is the loop that breaks at its
first hit, and `leastOf` the loop that keeps the first eligible place with the
least key below a bound.  Neither depends on `start` in whether it finds
something.

`FirstAfter` is the place that a walk on from `last` meets first.  In a list in
order of the places it is the first beyond `last`, or else the first of all.
-/

namespace SystemcTlm.Loop

universe u

/-- The places the loop visits, in its order. -/
def cyclic (n start : Nat) : List Nat :=
  (List.range n).map fun step => (start + step) % n

theorem mem_cyclic {n start i : Nat} : i ∈ cyclic n start ↔ i < n := by
  simp only [cyclic, List.mem_map, List.mem_range]
  constructor
  · rintro ⟨step, bound, rfl⟩
    exact Nat.mod_lt _ (Nat.zero_lt_of_lt bound)
  · intro bound
    have startBound : start % n < n := Nat.mod_lt _ (Nat.zero_lt_of_lt bound)
    refine ⟨ringDist n (start % n) i, ringDist_lt startBound bound, ?_⟩
    rw [← Nat.mod_add_mod, add_ringDist_mod startBound bound]

/-- `if (hit(i)) { best = i; break; }` -/
def firstFrom (n : Nat) (hit : Nat → Bool) (start : Nat) : Option Nat :=
  (cyclic n start).find? hit

theorem firstFrom_spec {n start i : Nat} {hit : Nat → Bool}
    (found : firstFrom n hit start = some i) : i < n ∧ hit i = true :=
  ⟨mem_cyclic.mp (List.mem_of_find?_eq_some found), List.find?_some found⟩

theorem firstFrom_eq_none_iff {n start : Nat} {hit : Nat → Bool} :
    firstFrom n hit start = none ↔ ∀ i, i < n → hit i = false := by
  simp [firstFrom, List.find?_eq_none, mem_cyclic]

/-! ## The next place in turn -/

/-- `place` is the first of `places` after `last`, which comes last itself. -/
structure FirstAfter (n last : Nat) (places : Set Nat) (place : Nat) : Prop where
  mem : place ∈ places
  first : ∀ other ∈ places, ringDist n ((last + 1) % n) place ≤ ringDist n ((last + 1) % n) other

section FirstAfter

variable {n last last' : Nat} {places : Set Nat} {place : Nat}

/-- The walk meets the places beyond `last` first, and each part in order. -/
theorem ringDist_succ_le_iff {a b : Nat} (lastBound : last < n) (aBound : a < n) (bBound : b < n) :
    ringDist n ((last + 1) % n) a ≤ ringDist n ((last + 1) % n) b ↔
      (last < a ∧ b ≤ last) ∨ (last < a ↔ last < b) ∧ a ≤ b := by
  rw [succ_mod lastBound]
  unfold ringDist
  split_ifs <;> omega

/-- The next place is the same from two places, unless some of `places` lie
between them and some do not. -/
theorem FirstAfter.iff_of_last (next : FirstAfter n last places place) (lastBound : last < n)
    (lastBound' : last' < n) (bound : ∀ p ∈ places, p < n) :
    FirstAfter n last' places place ↔
      (∀ p ∈ places, (last < p ↔ last' < p)) ∨ ∀ p ∈ places, ¬ (last < p ↔ last' < p) := by
  have order : ∀ p ∈ places, (last < place ∧ p ≤ last) ∨
      (last < place ↔ last < p) ∧ place ≤ p := fun p member =>
    (ringDist_succ_le_iff lastBound (bound place next.mem) (bound p member)).mp
      (next.first p member)
  constructor
  · intro next'
    have order' : ∀ p ∈ places, (last' < place ∧ p ≤ last') ∨
        (last' < place ↔ last' < p) ∧ place ≤ p := fun p member =>
      (ringDist_succ_le_iff lastBound' (bound place next.mem) (bound p member)).mp
        (next'.first p member)
    by_contra mixed
    rw [not_or] at mixed
    push Not at mixed
    rcases mixed with ⟨⟨p, pMem, between⟩, q, qMem, outside⟩
    have atP := order p pMem
    have atP' := order' p pMem
    have atQ := order q qMem
    have atQ' := order' q qMem
    omega
  · intro sides
    refine ⟨next.mem, fun p member => ?_⟩
    rw [ringDist_succ_le_iff lastBound' (bound place next.mem) (bound p member)]
    have atP := order p member
    rcases sides with same | opposite
    · have here := same place next.mem
      have there := same p member
      omega
    · have here := opposite place next.mem
      have there := opposite p member
      omega

end FirstAfter

section Sorted

variable {α : Type u} {key : α → Nat} {entries : List α} {n last : Nat} {entry : α}

/-- Of a sorted list, the first entry beyond `last`, or else the first of all:
what comes before it, and how it is ordered with the others. -/
theorem choice_of_sorted (sorted : entries.Pairwise fun a b => key a ≤ key b)
    (found : (entries.find? fun other => decide (key other > last)).or entries.head? =
      some entry) :
    ∃ before rest, entries = before ++ entry :: rest ∧
      (∀ other ∈ before, key other ≤ last ∧ last < key entry) ∧
      (last < key entry ∨ ∀ other ∈ entries, key other ≤ last) ∧
      ∀ other ∈ rest, key entry ≤ key other := by
  cases beyond : entries.find? fun other => decide (key other > last) with
  | some chosen =>
      rw [beyond, Option.some_or] at found
      cases found
      rcases List.find?_eq_some_iff_append.mp beyond with ⟨greater, before, rest, rfl, earlier⟩
      have less := of_decide_eq_true greater
      refine ⟨before, rest, rfl, fun other member => ⟨?_, less⟩, Or.inl less, ?_⟩
      · simpa using earlier other member
      · exact (List.pairwise_cons.mp (List.pairwise_append.mp sorted).2.1).1
  | none =>
      rw [beyond, Option.none_or] at found
      cases entries with
      | nil => cases found
      | cons first rest =>
          cases found
          refine ⟨[], rest, rfl, fun _ member => (nomatch member), Or.inr fun other member => ?_,
            (List.pairwise_cons.mp sorted).1⟩
          simpa using List.find?_eq_none.mp beyond other member

theorem firstAfter_of_sorted (sorted : entries.Pairwise fun a b => key a ≤ key b)
    (bound : ∀ other ∈ entries, key other < n) (lastBound : last < n)
    (found : (entries.find? fun other => decide (key other > last)).or entries.head? =
      some entry) :
    FirstAfter n last { place | ∃ other ∈ entries, key other = place } (key entry) := by
  rcases choice_of_sorted sorted found with ⟨before, rest, rfl, earlier, reaches, later⟩
  have member : entry ∈ before ++ entry :: rest := List.mem_append_right _ List.mem_cons_self
  refine ⟨⟨entry, member, rfl⟩, ?_⟩
  rintro _ ⟨other, otherMem, rfl⟩
  rw [ringDist_succ_le_iff lastBound (bound entry member) (bound other otherMem)]
  rcases List.mem_append.mp otherMem with inFront | behind
  · have passed := earlier other inFront
    exact Or.inl ⟨passed.2, passed.1⟩
  · have atMost : key entry ≤ key other := by
      rcases List.mem_cons.mp behind with rfl | after
      · exact Nat.le_refl _
      · exact later other after
    rcases reaches with less | all
    · omega
    · have low := all other otherMem
      omega

/-- The choice is the first entry with its key. -/
theorem find?_key_of_sorted (sorted : entries.Pairwise fun a b => key a ≤ key b)
    (found : (entries.find? fun other => decide (key other > last)).or entries.head? =
      some entry) : entries.find? (fun other => decide (key other = key entry)) = some entry := by
  rcases choice_of_sorted sorted found with ⟨before, rest, rfl, earlier, -, -⟩
  rw [List.find?_eq_some_iff_append]
  refine ⟨decide_eq_true rfl, before, rest, rfl, fun other member => ?_⟩
  have passed := earlier other member
  simp only [Bool.not_eq_true', decide_eq_false_iff_not]
  omega

end Sorted

/-! ## The least place -/

variable {κ : Type u} [LinearOrder κ]

/-- `if (eligible(i) && key(i) < min) { min = key(i); best = i; }` -/
def takeLess (eligible : Nat → Bool) (key : Nat → κ) (best : Option Nat × κ) (i : Nat) :
    Option Nat × κ :=
  if eligible i ∧ key i < best.2 then (some i, key i) else best

/-- The best place and the least key after the loop, the key beginning at
`bound`. -/
def leastOf (bound : κ) (eligible : Nat → Bool) (key : Nat → κ) (places : List Nat) :
    Option Nat × κ :=
  places.foldl (takeLess eligible key) (none, bound)

/-- What the loop has found: nothing while no eligible key lay below the bound,
and otherwise an eligible place that attains the least key. -/
structure LeastSpec (bound : κ) (eligible : Nat → Bool) (key : Nat → κ) (places : List Nat)
    (best : Option Nat × κ) : Prop where
  le_bound : best.2 ≤ bound
  le_key : ∀ i ∈ places, eligible i = true → best.2 ≤ key i
  eq_bound : best.1 = none → best.2 = bound
  attained : ∀ i, best.1 = some i → i ∈ places ∧ eligible i = true ∧ best.2 = key i

theorem LeastSpec.takeLess {bound : κ} {eligible : Nat → Bool} {key : Nat → κ}
    {places : List Nat} {best : Option Nat × κ}
    (spec : LeastSpec bound eligible key places best) (i : Nat) :
    LeastSpec bound eligible key (places ++ [i]) (takeLess eligible key best i) := by
  unfold Loop.takeLess
  split_ifs with better
  · rcases better with ⟨allowed, less⟩
    exact {
      le_bound := less.le.trans spec.le_bound
      le_key := by
        intro j member eligibleJ
        rcases List.mem_append.mp member with before | last
        · exact less.le.trans (spec.le_key j before eligibleJ)
        · rw [List.mem_singleton.mp last]
      eq_bound := by simp
      attained := by
        rintro _ ⟨⟩
        exact ⟨by simp, allowed, rfl⟩ }
  · exact {
      le_bound := spec.le_bound
      le_key := by
        intro j member eligibleJ
        rcases List.mem_append.mp member with before | last
        · exact spec.le_key j before eligibleJ
        · obtain rfl := List.mem_singleton.mp last
          exact not_lt.mp fun less => better ⟨eligibleJ, less⟩
      eq_bound := spec.eq_bound
      attained := by
        intro j chosen
        rcases spec.attained j chosen with ⟨member, eligibleJ, value⟩
        exact ⟨List.mem_append_left _ member, eligibleJ, value⟩ }

theorem leastOf_spec (bound : κ) (eligible : Nat → Bool) (key : Nat → κ) (places : List Nat) :
    LeastSpec bound eligible key places (leastOf bound eligible key places) := by
  induction places using List.reverseRecOn with
  | nil => exact ⟨le_rfl, by simp, fun _ => rfl, by simp [leastOf]⟩
  | append_singleton places i ih =>
      rw [leastOf, List.foldl_append]
      exact ih.takeLess i

/-- An eligible place with a key below the bound is not passed over. -/
theorem leastOf_isSome {bound : κ} {eligible : Nat → Bool} {key : Nat → κ} {places : List Nat}
    {i : Nat} (member : i ∈ places) (allowed : eligible i = true) (less : key i < bound) :
    (leastOf bound eligible key places).1.isSome := by
  have spec := leastOf_spec bound eligible key places
  by_contra nothing
  have value := spec.eq_bound (Option.not_isSome_iff_eq_none.mp nothing)
  have reached := spec.le_key i member allowed
  rw [value] at reached
  exact absurd reached (not_le.mpr less)

end SystemcTlm.Loop
