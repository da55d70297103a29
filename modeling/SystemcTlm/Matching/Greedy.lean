import SystemcTlm.Matching.Round

/-!
# Greedy matchings

The cells of a crossbar are decided one after the other.  A wanted cell is taken
if its row and its column are still free.  Whatever the order, the cells taken
are a matching, and no wanted cell among those decided can be added to it.
Cells that come first and do not conflict with each other are taken whenever
they are wanted.
-/

namespace SystemcTlm.Matching

universe u v

variable {I : Type u} {O : Type v}

/-- No pair lies in the row or the column of the cell. -/
def Free (pairs : List (I × O)) (cell : I × O) : Prop :=
  cell.1 ∉ pairs.map Prod.fst ∧ cell.2 ∉ pairs.map Prod.snd

/-- A cell is free of the pairs unless one of them shares its row or column. -/
theorem exists_conflict_of_not_free {pairs : List (I × O)} {cell : I × O}
    (taken : ¬ Free pairs cell) : ∃ pair ∈ pairs, pair.1 = cell.1 ∨ pair.2 = cell.2 := by
  rw [Free, not_and_or, not_not, not_not] at taken
  rcases taken with row | col
  · rcases List.mem_map.mp row with ⟨pair, member, same⟩
    exact ⟨pair, member, Or.inl same⟩
  · rcases List.mem_map.mp col with ⟨pair, member, same⟩
    exact ⟨pair, member, Or.inr same⟩

variable [DecidableEq I] [DecidableEq O]

instance (pairs : List (I × O)) (cell : I × O) : Decidable (Free pairs cell) :=
  inferInstanceAs (Decidable (_ ∧ _))

/-- The decision about one cell. -/
def takeCell (wants : I → O → Bool) (taken : List (I × O)) (cell : I × O) : List (I × O) :=
  if wants cell.1 cell.2 = true ∧ Free taken cell then taken ++ [cell] else taken

/-- The cells taken when the listed ones are decided in order. -/
def greedy (wants : I → O → Bool) (cells : List (I × O)) : List (I × O) :=
  cells.foldl (takeCell wants) []

section Greedy

variable {wants : I → O → Bool} {cells first second : List (I × O)} {cell pair : I × O}

@[simp]
theorem greedy_nil : greedy wants ([] : List (I × O)) = [] :=
  rfl

theorem greedy_concat (cells : List (I × O)) (cell : I × O) :
    greedy wants (cells ++ [cell]) = takeCell wants (greedy wants cells) cell := by
  rw [greedy, greedy, List.foldl_append]
  rfl

theorem mem_greedy_concat_iff :
    pair ∈ greedy wants (cells ++ [cell]) ↔
      pair ∈ greedy wants cells ∨
        pair = cell ∧ wants cell.1 cell.2 = true ∧ Free (greedy wants cells) cell := by
  rw [greedy_concat, takeCell]
  split_ifs with taken
  · simp [taken]
  · simp [taken]

/-- Only wanted cells are taken. -/
theorem mem_of_mem_greedy (member : cell ∈ greedy wants cells) :
    cell ∈ cells ∧ wants cell.1 cell.2 = true := by
  induction cells using List.reverseRecOn with
  | nil => simp at member
  | append_singleton before last ih =>
      rcases mem_greedy_concat_iff.mp member with old | ⟨rfl, wanted, _⟩
      · rcases ih old with ⟨inside, wanted⟩
        exact ⟨List.mem_append_left _ inside, wanted⟩
      · exact ⟨List.mem_append_right _ (List.mem_singleton_self _), wanted⟩

theorem greedy_isMatching (wants : I → O → Bool) (cells : List (I × O)) :
    IsMatching (greedy wants cells) := by
  induction cells using List.reverseRecOn with
  | nil => exact IsMatching.nil
  | append_singleton before last ih =>
      rw [greedy_concat, takeCell]
      split_ifs with taken
      · apply ih.append (IsMatching.singleton last)
        · intro pair member
          rw [List.mem_singleton.mp member]
          exact taken.2.1
        · intro pair member
          rw [List.mem_singleton.mp member]
          exact taken.2.2
      · exact ih

/-- A taken cell stays taken. -/
theorem greedy_grows (first second : List (I × O)) :
    greedy wants first <+: greedy wants (first ++ second) := by
  induction second using List.reverseRecOn with
  | nil => rw [List.append_nil]
  | append_singleton before last ih =>
      rw [← List.append_assoc, greedy_concat, takeCell]
      split_ifs
      · exact ih.trans (List.prefix_append _ _)
      · exact ih

/-- A wanted cell that has been decided is not free afterwards. -/
theorem not_free_greedy (member : cell ∈ cells) (wanted : wants cell.1 cell.2 = true) :
    ¬ Free (greedy wants cells) cell := by
  rcases List.append_of_mem member with ⟨before, after, rfl⟩
  rw [← List.singleton_append, ← List.append_assoc]
  intro free
  have grown : greedy wants (before ++ [cell]) ⊆ greedy wants (before ++ [cell] ++ after) :=
    (greedy_grows (before ++ [cell]) after).subset
  have freeThen : Free (greedy wants (before ++ [cell])) cell := by
    constructor
    · exact fun row => free.1 (List.map_subset _ grown row)
    · exact fun col => free.2 (List.map_subset _ grown col)
  rw [greedy_concat, takeCell] at freeThen
  split_ifs at freeThen with taken
  · exact freeThen.1 (List.mem_map_of_mem (List.mem_append_right _ (List.mem_singleton_self _)))
  · exact taken ⟨wanted, freeThen⟩

/-- A wanted cell that is not taken shares its row or column with one that
is. -/
theorem greedy_maximal (member : cell ∈ cells) (wanted : wants cell.1 cell.2 = true) :
    ∃ pair ∈ greedy wants cells, pair.1 = cell.1 ∨ pair.2 = cell.2 :=
  exists_conflict_of_not_free (not_free_greedy member wanted)

/-- Wanted cells that come first and do not conflict are all taken. -/
theorem mem_greedy_of_isMatching (isMatching : IsMatching first) (member : cell ∈ first)
    (wanted : wants cell.1 cell.2 = true) : cell ∈ greedy wants (first ++ second) := by
  apply (greedy_grows first second).subset
  induction first using List.reverseRecOn with
  | nil => simp at member
  | append_singleton before last ih =>
      rcases isMatching with ⟨inputs, outputs⟩
      rw [List.map_append, List.map_singleton, List.nodup_append] at inputs outputs
      rw [mem_greedy_concat_iff]
      rcases List.mem_append.mp member with early | final
      · exact Or.inl (ih ⟨inputs.1, outputs.1⟩ early)
      · obtain rfl := List.mem_singleton.mp final
        refine Or.inr ⟨rfl, wanted, ?_, ?_⟩
        · intro row
          rcases List.mem_map.mp row with ⟨pair, taken, same⟩
          have old := List.mem_map_of_mem (f := Prod.fst) (mem_of_mem_greedy taken).1
          exact inputs.2.2 _ old _ (List.mem_singleton_self _) same
        · intro col
          rcases List.mem_map.mp col with ⟨pair, taken, same⟩
          have old := List.mem_map_of_mem (f := Prod.snd) (mem_of_mem_greedy taken).1
          exact outputs.2.2 _ old _ (List.mem_singleton_self _) same

end Greedy

end SystemcTlm.Matching
