import Mathlib.Logic.Relation
import Mathlib.Order.Interval.Set.Basic
import Mathlib.Order.WellFounded

/-!
# Descendants and intervals

In a tree that is numbered depth first, the numbers below a node form an
interval.  `descendants_eq_Icc` is the criterion: edges do not leave the
interval, and every number in it but the first has its parent in it, at a
smaller number.  Two sets of descendants that are intervals are nested or
disjoint.
-/

namespace SystemcTlm.Tree

universe u

variable {α : Type u}

/-- The nodes that can be reached from `root`, itself included. -/
def descendants (edge : α → α → Prop) (root : α) : Set α :=
  { node | Relation.ReflTransGen edge root node }

theorem descendants_subset {edge : α → α → Prop} {root node : α}
    (below : node ∈ descendants edge root) : descendants edge node ⊆ descendants edge root :=
  fun _ further => Relation.ReflTransGen.trans below further

theorem descendants_eq_Icc [LinearOrder α] [WellFoundedLT α] {edge : α → α → Prop} {first last : α}
    (nonempty : first ≤ last)
    (inside : ∀ parent child, edge parent child → parent ∈ Set.Icc first last →
      child ∈ Set.Icc first last)
    (parent : ∀ child ∈ Set.Ioc first last, ∃ parent ∈ Set.Ico first child, edge parent child) :
    descendants edge first = Set.Icc first last := by
  ext node
  constructor
  · intro reachable
    induction reachable with
    | refl => exact ⟨le_refl _, nonempty⟩
    | tail _ step ih => exact inside _ _ step ih
  · intro within
    induction node using WellFoundedLT.induction with
    | ind node ih =>
        rcases within.1.eq_or_lt with rfl | later
        · exact Relation.ReflTransGen.refl
        · rcases parent node ⟨later, within.2⟩ with ⟨above, range, step⟩
          exact (ih above range.2 ⟨range.1, range.2.le.trans within.2⟩).tail step

theorem descendants_nested_or_disjoint [LinearOrder α] {edge : α → α → Prop}
    {first last first' last' : α} (interval : descendants edge first = Set.Icc first last)
    (interval' : descendants edge first' = Set.Icc first' last') :
    Set.Icc first last ⊆ Set.Icc first' last' ∨ Set.Icc first' last' ⊆ Set.Icc first last ∨
      ∀ node ∈ Set.Icc first last, node ∉ Set.Icc first' last' := by
  by_cases inner : first ∈ Set.Icc first' last'
  · left
    rw [← interval, ← interval'] at *
    exact descendants_subset inner
  · by_cases outer : first' ∈ Set.Icc first last
    · right; left
      rw [← interval, ← interval'] at *
      exact descendants_subset outer
    · right; right
      rintro node ⟨low, high⟩ ⟨low', high'⟩
      rcases le_total first first' with before | after
      · exact outer ⟨before, low'.trans high⟩
      · exact inner ⟨after, low.trans high'⟩

end SystemcTlm.Tree
