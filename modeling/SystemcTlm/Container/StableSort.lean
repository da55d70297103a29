import Mathlib.Data.List.Sort
import Mathlib.Order.Basic

/-!
# Stable sorting by a key

An ordered container with repeated keys keeps the entries of one key in the
order of their insertion.  `insertLast` puts an entry behind those whose key is
not greater.  A list is sorted stably if it is sorted and has the entries of
each key in the order of the input, and there is only one such list.
-/

namespace SystemcTlm.Container

universe u v

variable {α : Type u} {κ : Type v} [LinearOrder κ] (key : α → κ)

/-- The insertion behind the entries whose key is not greater. -/
def insertLast (entry : α) : List α → List α
  | [] => [entry]
  | first :: rest =>
      if key entry < key first then entry :: first :: rest else first :: insertLast entry rest

/-- `output` has the entries of `input` by increasing key, those of one key in
the order of `input`. -/
structure IsStableSort (input output : List α) : Prop where
  sorted : output.Pairwise fun first second => key first ≤ key second
  filter_eq : ∀ k, output.filter (fun entry => key entry = k) =
    input.filter fun entry => key entry = k

variable {key}

theorem mem_insertLast {entry other : α} {entries : List α} :
    other ∈ insertLast key entry entries ↔ other = entry ∨ other ∈ entries := by
  induction entries with
  | nil => simp [insertLast]
  | cons first rest ih =>
      rw [insertLast]
      split_ifs
      · simp
      · simp only [List.mem_cons, ih]
        tauto

theorem insertLast_perm (entry : α) (entries : List α) :
    (insertLast key entry entries).Perm (entry :: entries) := by
  induction entries with
  | nil => exact List.Perm.refl _
  | cons first rest ih =>
      rw [insertLast]
      split_ifs
      · exact List.Perm.refl _
      · exact (ih.cons first).trans (List.Perm.swap _ _ _)

theorem insertLast_sorted (entry : α) {entries : List α}
    (sorted : entries.Pairwise fun first second => key first ≤ key second) :
    (insertLast key entry entries).Pairwise fun first second => key first ≤ key second := by
  induction entries with
  | nil => simp [insertLast]
  | cons first rest ih =>
      have later : ∀ other ∈ rest, key first ≤ key other :=
        fun _ member => List.rel_of_pairwise_cons sorted member
      rw [insertLast]
      split_ifs with less
      · constructor
        · intro other member
          rcases List.mem_cons.mp member with rfl | member
          · exact less.le
          · exact less.le.trans (later other member)
        · exact sorted
      · constructor
        · intro other member
          rcases mem_insertLast.mp member with rfl | member
          · exact not_lt.mp less
          · exact later other member
        · exact ih sorted.tail

/-- The entry comes behind those of its key. -/
theorem filter_insertLast (entry : α) {entries : List α}
    (sorted : entries.Pairwise fun first second => key first ≤ key second) (k : κ) :
    (insertLast key entry entries).filter (fun other => key other = k) =
      (entries ++ [entry]).filter fun other => key other = k := by
  induction entries with
  | nil => rfl
  | cons first rest ih =>
      rw [insertLast]
      split_ifs with less
      · have greater : ∀ other ∈ first :: rest, key other ≠ key entry := by
          intro other member
          rcases List.mem_cons.mp member with rfl | member
          · exact less.ne'
          · exact (less.trans_le (List.rel_of_pairwise_cons sorted member)).ne'
        by_cases own : key entry = k
        · subst own
          have unmatched : (first :: rest).filter (fun other => key other = key entry) = [] := by
            rw [List.filter_eq_nil_iff]
            exact fun other member => by simpa using greater other member
          rw [List.filter_append, unmatched, List.filter_cons_of_pos (by simp), unmatched]
          simp
        · rw [List.filter_append, List.filter_cons_of_neg (by simpa using own)]
          simp [own]
      · rw [List.cons_append, List.filter_cons, List.filter_cons, ih sorted.tail]

/-- Behind a list whose keys are not greater, only the rest is searched. -/
theorem insertLast_append {entry : α} {before : List α}
    (notGreater : ∀ other ∈ before, key other ≤ key entry) (rest : List α) :
    insertLast key entry (before ++ rest) = before ++ insertLast key entry rest := by
  induction before with
  | nil => rfl
  | cons first before ih =>
      have here := notGreater first List.mem_cons_self
      rw [List.cons_append, insertLast, if_neg (not_lt.mpr here),
        ih fun other member => notGreater other (List.mem_cons_of_mem first member),
        List.cons_append]

/-- An insertion of images, where the keys of the images are in the order of the keys. -/
theorem insertLast_map {β : Type*} {key' : β → κ} {f : α → β} {entry : α} {entries : List α}
    (agree : ∀ other ∈ entries, key' (f entry) < key' (f other) ↔ key entry < key other) :
    insertLast key' (f entry) (entries.map f) = (insertLast key entry entries).map f := by
  induction entries with
  | nil => rfl
  | cons first rest ih =>
      rw [List.map_cons, insertLast, insertLast,
        ih fun other member => agree other (List.mem_cons_of_mem first member)]
      simp only [agree first List.mem_cons_self]
      split_ifs
      · rfl
      · rfl

namespace IsStableSort

variable {input output : List α}

theorem nil : IsStableSort key [] [] :=
  ⟨List.Pairwise.nil, fun _ => rfl⟩

/-- The insertion of the next entry. -/
theorem insertLast (stable : IsStableSort key input output) (entry : α) :
    IsStableSort key (input ++ [entry]) (insertLast key entry output) where
  sorted := insertLast_sorted entry stable.sorted
  filter_eq k := by
    rw [filter_insertLast entry stable.sorted, List.filter_append, List.filter_append,
      stable.filter_eq]

/-- `mergeSort` is stable. -/
theorem mergeSort (input : List α) :
    IsStableSort key input (input.mergeSort fun first second => key first ≤ key second) := by
  have trans : ∀ a b c : α, decide (key a ≤ key b) = true → decide (key b ≤ key c) = true →
      decide (key a ≤ key c) = true := by
    intro a b c first second
    simp only [decide_eq_true_eq] at first second ⊢
    exact first.trans second
  have total : ∀ a b : α, (decide (key a ≤ key b) || decide (key b ≤ key a)) = true := by
    intro a b
    simpa using le_total (key a) (key b)
  constructor
  · exact (List.pairwise_mergeSort trans total input).imp of_decide_eq_true
  · intro k
    have perm := (List.mergeSort_perm input fun first second => key first ≤ key second).filter
      fun entry => key entry = k
    have ordered : (input.filter fun entry => key entry = k).Pairwise
        fun first second => decide (key first ≤ key second) = true := by
      apply List.pairwise_of_forall_mem_list
      intro first member second member'
      rw [List.mem_filter, decide_eq_true_eq] at member member'
      rw [member.2, member'.2]
      simp
    have sublist := (List.sublist_mergeSort trans total ordered List.filter_sublist).filter
      fun entry => key entry = k
    rw [List.filter_filter] at sublist
    simp only [Bool.and_self] at sublist
    exact (sublist.eq_of_length perm.length_eq.symm).symm

theorem le_first {first other : α} {rest : List α}
    (sorted : (first :: rest).Pairwise fun first second => key first ≤ key second)
    (member : other ∈ first :: rest) : key first ≤ key other := by
  rcases List.mem_cons.mp member with rfl | member
  · exact le_rfl
  · exact List.rel_of_pairwise_cons sorted member

/-- There is one stable sort. -/
theorem unique {other : List α} (stable : IsStableSort key input output)
    (stable' : IsStableSort key input other) : output = other := by
  have same : ∀ k, output.filter (fun entry => key entry = k) =
      other.filter fun entry => key entry = k :=
    fun k => (stable.filter_eq k).trans (stable'.filter_eq k).symm
  have sorted := stable.sorted
  have sorted' := stable'.sorted
  clear stable stable'
  induction output generalizing other with
  | nil =>
      cases other with
      | nil => rfl
      | cons first rest => simpa using same (key first)
  | cons first rest ih =>
      cases other with
      | nil => simpa using same (key first)
      | cons first' rest' =>
          have listed : first ∈ first' :: rest' := by
            have member : first ∈ (first :: rest).filter fun entry => key entry = key first := by
              simp
            rw [same] at member
            exact (List.mem_filter.mp member).1
          have listed' : first' ∈ first :: rest := by
            have member :
                first' ∈ (first' :: rest').filter fun entry => key entry = key first' := by
              simp
            rw [← same] at member
            exact (List.mem_filter.mp member).1
          have sameKey : key first = key first' :=
            le_antisymm (le_first sorted listed') (le_first sorted' listed)
          have heads := same (key first)
          rw [List.filter_cons_of_pos (by simp),
            List.filter_cons_of_pos (by simp [sameKey])] at heads
          rcases List.cons.inj heads with ⟨rfl, -⟩
          have tails : ∀ k, rest.filter (fun entry => key entry = k) =
              rest'.filter fun entry => key entry = k := by
            intro k
            have both := same k
            rw [List.filter_cons, List.filter_cons] at both
            split_ifs at both
            · exact (List.cons.inj both).2
            · exact both
          rw [ih tails sorted.tail sorted'.tail]

theorem perm (stable : IsStableSort key input output) : output.Perm input := by
  rw [stable.unique (mergeSort input)]
  exact List.mergeSort_perm input _

end IsStableSort

end SystemcTlm.Container
