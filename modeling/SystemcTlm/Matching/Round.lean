import Mathlib.Data.PEquiv
import Mathlib.Data.List.Nodup
import Mathlib.Algebra.BigOperators.Group.Finset.Basic
import Mathlib.Algebra.Order.BigOperators.Group.Finset

/-!
# Request–grant–accept rounds

A crossbar scheduler matches inputs to outputs in rounds.  Every output that is
requested grants one requesting input, and every input that holds grants
accepts one of them.  `Round` is such a round with the laws as fields, over
arbitrary port types.  Its accepted pairs are a partial equivalence between
inputs and outputs, and a round with a request accepts something.

`IsMatching` is the property a list of pairs has when no port occurs twice.
The counting lemmas bound its length by either side, so that one with a pair for
every input is maximal, and `exhausted_of_growth` turns one accepted pair a
round into maximality after as many rounds as there can be pairs.
-/

namespace SystemcTlm.Matching

universe u v

/-- One round: `request` is what the inputs ask for, `grant` the choice of each
output among the requests, `accept` the choice of each input among the
grants. -/
structure Round (I : Type u) (O : Type v) where
  request : I → O → Prop
  grant : O → Option I
  accept : I → Option O
  grant_request : ∀ ⦃i o⦄, grant o = some i → request i o
  grant_isSome : ∀ ⦃i o⦄, request i o → (grant o).isSome
  accept_grant : ∀ ⦃i o⦄, accept i = some o → grant o = some i
  accept_isSome : ∀ ⦃i o⦄, grant o = some i → (accept i).isSome

namespace Round

variable {I : Type u} {O : Type v}

theorem accept_request (round : Round I O) {i : I} {o : O} (accepted : round.accept i = some o) :
    round.request i o :=
  round.grant_request (round.accept_grant accepted)

/-- A round in which something is requested accepts something. -/
theorem exists_accept (round : Round I O) {i : I} {o : O} (requested : round.request i o) :
    ∃ i' o', round.accept i' = some o' := by
  rcases Option.isSome_iff_exists.mp (round.grant_isSome requested) with ⟨i', granted⟩
  rcases Option.isSome_iff_exists.mp (round.accept_isSome granted) with ⟨o', accepted⟩
  exact ⟨i', o', accepted⟩

variable [DecidableEq O]

/-- The input whose acceptance an output receives. -/
def winner (round : Round I O) (o : O) : Option I :=
  (round.grant o).filter fun i => round.accept i = some o

/-- The accepted pairs of a round, as a partial equivalence of ports. -/
def matched (round : Round I O) : I ≃. O where
  toFun := round.accept
  invFun := round.winner
  inv i o := by
    simp only [winner, Option.filter_eq_some_iff, decide_eq_true_eq]
    exact ⟨fun held => held.2, fun accepted => ⟨round.accept_grant accepted, accepted⟩⟩

@[simp]
theorem matched_apply (round : Round I O) (i : I) : round.matched i = round.accept i :=
  rfl

@[simp]
theorem matched_symm_apply (round : Round I O) (o : O) :
    round.matched.symm o = round.winner o :=
  rfl

end Round

/-! ## Lists of pairs -/

section Pairs

variable {I : Type u} {O : Type v}

/-- No input and no output occurs twice. -/
structure IsMatching (pairs : List (I × O)) : Prop where
  inputs_nodup : (pairs.map Prod.fst).Nodup
  outputs_nodup : (pairs.map Prod.snd).Nodup

theorem IsMatching.nil : IsMatching ([] : List (I × O)) :=
  ⟨List.nodup_nil, List.nodup_nil⟩

theorem IsMatching.singleton (pair : I × O) : IsMatching [pair] :=
  ⟨List.nodup_singleton pair.1, List.nodup_singleton pair.2⟩

/-- Pairs on fresh ports extend a matching. -/
theorem IsMatching.append {first second : List (I × O)} (firstMatching : IsMatching first)
    (secondMatching : IsMatching second)
    (freshInputs : ∀ pair ∈ second, pair.1 ∉ first.map Prod.fst)
    (freshOutputs : ∀ pair ∈ second, pair.2 ∉ first.map Prod.snd) :
    IsMatching (first ++ second) := by
  constructor
  · rw [List.map_append]
    apply firstMatching.inputs_nodup.append secondMatching.inputs_nodup
    intro i inFirst inSecond
    rcases List.mem_map.mp inSecond with ⟨pair, pairMem, rfl⟩
    exact freshInputs pair pairMem inFirst
  · rw [List.map_append]
    apply firstMatching.outputs_nodup.append secondMatching.outputs_nodup
    intro o inFirst inSecond
    rcases List.mem_map.mp inSecond with ⟨pair, pairMem, rfl⟩
    exact freshOutputs pair pairMem inFirst

theorem IsMatching.nodup {pairs : List (I × O)} (isMatching : IsMatching pairs) : pairs.Nodup :=
  List.Nodup.of_map _ isMatching.inputs_nodup

/-- The pairs a partial function makes of the listed inputs, in their order. -/
def pairsOf (accept : I → Option O) (inputs : List I) : List (I × O) :=
  inputs.filterMap fun i => (accept i).map (Prod.mk i)

theorem mem_pairsOf_iff {accept : I → Option O} {inputs : List I} {i : I} {o : O} :
    (i, o) ∈ pairsOf accept inputs ↔ i ∈ inputs ∧ accept i = some o := by
  simp only [pairsOf, List.mem_filterMap, Option.map_eq_some_iff, Prod.mk.injEq]
  constructor
  · rintro ⟨_, member, _, accepted, rfl, rfl⟩
    exact ⟨member, accepted⟩
  · rintro ⟨member, accepted⟩
    exact ⟨i, member, o, accepted, rfl, rfl⟩

theorem pairsOf_append (accept : I → Option O) (first second : List I) :
    pairsOf accept (first ++ second) = pairsOf accept first ++ pairsOf accept second :=
  List.filterMap_append

theorem pairsOf_singleton (accept : I → Option O) (i : I) :
    pairsOf accept [i] = ((accept i).map (Prod.mk i)).toList := by
  cases accepted : accept i <;> simp [pairsOf, accepted]

/-- Where one input alone accepts, its pair is the list. -/
theorem pairsOf_range_single {accept : Nat → Option O} {n i : Nat} {o : O} (bound : i < n)
    (accepted : accept i = some o) (others : ∀ j, j < n → j ≠ i → accept j = none) :
    pairsOf accept (List.range n) = [(i, o)] := by
  induction n with
  | zero => exact absurd bound (Nat.not_lt_zero i)
  | succ n ih =>
      rw [List.range_succ, pairsOf_append, pairsOf_singleton]
      by_cases last : i = n
      · subst last
        have before : pairsOf accept (List.range i) = [] := by
          rw [pairsOf, List.filterMap_eq_nil_iff]
          intro j member
          have less := List.mem_range.mp member
          rw [others j (by omega) (by omega), Option.map_none]
        simp [before, accepted]
      · rw [ih (by omega) fun j less => others j (by omega), others n (by omega) (by omega)]
        simp

theorem map_fst_pairsOf (accept : I → Option O) (inputs : List I) :
    (pairsOf accept inputs).map Prod.fst = inputs.filter fun i => (accept i).isSome := by
  induction inputs with
  | nil => rfl
  | cons i rest ih =>
      unfold pairsOf at ih ⊢
      cases accepted : accept i <;> simp [accepted, ih]

theorem count_map_fst_pairsOf (accept : Nat → Option O) (n i : Nat) :
    ((pairsOf accept (List.range n)).map Prod.fst).count i =
      if i < n ∧ (accept i).isSome then 1 else 0 := by
  rw [map_fst_pairsOf, (List.nodup_range.filter _).count]
  simp

/-- A partial equivalence of ports lists a matching. -/
theorem pairsOf_isMatching (matched : I ≃. O) {inputs : List I} (nodup : inputs.Nodup) :
    IsMatching (pairsOf matched inputs) := by
  constructor
  · rw [map_fst_pairsOf]
    exact nodup.filter _
  · refine List.Nodup.map_on ?_ ?_
    · rintro ⟨i, o⟩ first ⟨i', o'⟩ second rfl
      have firstAccepts := (mem_pairsOf_iff.mp first).2
      have secondAccepts := (mem_pairsOf_iff.mp second).2
      rw [matched.inj firstAccepts secondAccepts]
    · apply nodup.filterMap
      intro i i' pair first second
      simp only [Option.mem_def, Option.map_eq_some_iff] at first second
      rcases first with ⟨_, _, rfl⟩
      rcases second with ⟨_, _, same⟩
      exact (congrArg Prod.fst same).symm

/-- Occurrences of one pair among the pairs of a partial function. -/
theorem count_pairsOf [DecidableEq I] [DecidableEq O] (accept : I → Option O) {inputs : List I}
    (nodup : inputs.Nodup) {i : I} (member : i ∈ inputs) (o : O) :
    (pairsOf accept inputs).count (i, o) = if accept i = some o then 1 else 0 := by
  have listNodup : (pairsOf accept inputs).Nodup := by
    apply List.Nodup.of_map Prod.fst
    rw [map_fst_pairsOf]
    exact nodup.filter _
  rw [listNodup.count]
  simp [mem_pairsOf_iff, member]

end Pairs

/-! ## Counting -/

/-- A list over `n` places with at most `b` occurrences of each has at most
`n * b` entries. -/
theorem length_le_mul_of_count_le {n b : Nat} {places : List Nat}
    (bound : ∀ x ∈ places, x < n) (count_le : ∀ x, x < n → places.count x ≤ b) :
    places.length ≤ n * b := by
  have inRange : places.toFinset ⊆ Finset.range n := fun x member =>
    Finset.mem_range.mpr (bound x (List.mem_toFinset.mp member))
  calc
    places.length = ∑ x ∈ places.toFinset, places.count x :=
      (List.sum_toFinset_count_eq_length places).symm
    _ ≤ ∑ _x ∈ places.toFinset, b :=
      Finset.sum_le_sum fun x member => count_le x (Finset.mem_range.mp (inRange member))
    _ = places.toFinset.card * b := Finset.sum_const_nat fun _ _ => rfl
    _ ≤ n * b := Nat.mul_le_mul_right b (by simpa using Finset.card_le_card inRange)

theorem length_le_of_nodup {n : Nat} {places : List Nat} (nodup : places.Nodup)
    (bound : ∀ x ∈ places, x < n) : places.length ≤ n := by
  have counted := length_le_mul_of_count_le (b := 1) bound
    fun x _ => List.nodup_iff_count_le_one.mp nodup x
  rwa [Nat.mul_one] at counted

/-- A matching is no longer than either side. -/
theorem IsMatching.length_le_min {n m : Nat} {pairs : List (Nat × Nat)}
    (isMatching : IsMatching pairs) (bound : ∀ pair ∈ pairs, pair.1 < n ∧ pair.2 < m) :
    pairs.length ≤ min n m := by
  have inputs := length_le_of_nodup (n := n) isMatching.inputs_nodup (by
    intro x member
    rcases List.mem_map.mp member with ⟨pair, pairMem, rfl⟩
    exact (bound pair pairMem).1)
  have outputs := length_le_of_nodup (n := m) isMatching.outputs_nodup (by
    intro x member
    rcases List.mem_map.mp member with ⟨pair, pairMem, rfl⟩
    exact (bound pair pairMem).2)
  rw [List.length_map] at inputs outputs
  exact le_min inputs outputs

/-- No requested pair has both its ports free. -/
def IsMaximal (requests pairs : List (Nat × Nat)) : Prop :=
  ∀ pair ∈ requests, pair.1 ∈ pairs.map Prod.fst ∨ pair.2 ∈ pairs.map Prod.snd

/-- A matching with as many pairs as there are inputs leaves no input free. -/
theorem IsMatching.isMaximal {n : Nat} {requests pairs : List (Nat × Nat)}
    (isMatching : IsMatching pairs) (bound : ∀ pair ∈ pairs, pair.1 < n)
    (inside : ∀ pair ∈ requests, pair.1 < n) (full : n ≤ pairs.length) :
    IsMaximal requests pairs := by
  intro pair requested
  left
  by_contra free
  -- the free input would be one more place below `n`
  have larger : (pair.1 :: pairs.map Prod.fst).length ≤ n := by
    apply length_le_of_nodup
    · exact List.nodup_cons.mpr ⟨free, isMatching.inputs_nodup⟩
    · intro place member
      rcases List.mem_cons.mp member with rfl | used
      · exact inside pair requested
      · rcases List.mem_map.mp used with ⟨other, otherMem, rfl⟩
        exact bound other otherMem
  rw [List.length_cons, List.length_map] at larger
  omega

/-- Something that grows in every round in which work is left, never shrinks
and never passes `bound`, has no work left after `bound` rounds. -/
theorem exhausted_of_growth (size : Nat → Nat) (live : Nat → Prop) {bound rounds : Nat}
    (size_le : ∀ k, size k ≤ bound) (grows : ∀ k, live k → size k < size (k + 1))
    (live_of_live_succ : ∀ k, live (k + 1) → live k) (enough : bound ≤ rounds) :
    ¬ live rounds := by
  intro last
  have alive : ∀ d k, k + d = rounds → live k := by
    intro d
    induction d with
    | zero => rintro k rfl; exact last
    | succ d ih => exact fun k reach => live_of_live_succ k (ih (k + 1) (by omega))
  have large : ∀ k, k ≤ rounds + 1 → k ≤ size k := by
    intro k
    induction k with
    | zero => exact fun _ => Nat.zero_le _
    | succ k ih =>
        intro within
        have step := grows k (alive (rounds - k) k (by omega))
        have before := ih (by omega)
        omega
  have tooLarge := large (rounds + 1) le_rfl
  have capped := size_le (rounds + 1)
  omega

end SystemcTlm.Matching
