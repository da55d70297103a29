import Mathlib.Data.List.Nodup
import Mathlib.Logic.ExistsUnique
import Mathlib.Logic.Function.Basic

/-!
# Chains threaded through a pool of cells

A cell is used or free.  A used cell has an owner and a link to the next cell of
its owner.  `Threaded` says that the used cells of each owner form one chain
along the links, and is kept when a chain loses its first cell and when a free
cell is hung on its end.
-/

namespace SystemcTlm.Container

universe u v

variable {P : Type u} {K : Type v}

/-- The links lead through the cells in order, and end after the last. -/
def Threads (next : P → Option P) : List P → Prop
  | [] => True
  | cell :: rest => next cell = rest.head? ∧ Threads next rest

theorem Threads.congr {next next' : P → Option P} {cells : List P} (threads : Threads next cells)
    (same : ∀ cell, cell ∈ cells → next' cell = next cell) : Threads next' cells := by
  induction cells with
  | nil => exact trivial
  | cons cell rest ih =>
      constructor
      · rw [same cell List.mem_cons_self]
        exact threads.1
      · exact ih threads.2 fun other member => same other (List.mem_cons_of_mem cell member)

/-- A cell hung on the end, to which the last cell is linked. -/
theorem Threads.concat {next next' : P → Option P} {cells : List P} {cell : P}
    (threads : Threads next cells) (nodup : cells.Nodup) (ended : next' cell = none)
    (linked : ∀ last, cells.getLast? = some last → next' last = some cell)
    (same : ∀ other, other ∈ cells → cells.getLast? ≠ some other → next' other = next other) :
    Threads next' (cells ++ [cell]) := by
  induction cells with
  | nil => exact ⟨ended, trivial⟩
  | cons first rest ih =>
      rcases List.nodup_cons.mp nodup with ⟨notIn, restNodup⟩
      cases rest with
      | nil => exact ⟨linked first rfl, ended, trivial⟩
      | cons second rest =>
          rw [List.getLast?_cons_cons] at linked same
          constructor
          · have notLast : (second :: rest).getLast? ≠ some first :=
              fun last => notIn (List.mem_of_getLast? last)
            rw [same first List.mem_cons_self notLast]
            exact threads.1
          · exact ih threads.2 restNodup linked fun other member =>
              same other (List.mem_cons_of_mem first member)

/-- Two chains from one cell are the same. -/
theorem Threads.unique {next : P → Option P} {cells cells' : List P}
    (threads : Threads next cells) (threads' : Threads next cells')
    (first : cells.head? = cells'.head?) : cells = cells' := by
  induction cells generalizing cells' with
  | nil => exact (List.head?_eq_none_iff.mp first.symm).symm
  | cons cell rest ih =>
      cases cells' with
      | nil => cases first
      | cons cell' rest' =>
          obtain rfl : cell = cell' := Option.some.inj first
          rw [ih threads.2 threads'.2 (threads.1.symm.trans threads'.1)]

/-- The cells. -/
structure Pool (P : Type u) (K : Type v) where
  used : P → Bool
  owner : P → K
  next : P → Option P

namespace Pool

/-- `after` differs from `pool` in whether and by whom `cell` is used, and in
links. -/
structure Touches (pool : Pool P K) (cell : P) (after : Pool P K) : Prop where
  used : ∀ other, other ≠ cell → after.used other = pool.used other
  owner : ∀ other, other ≠ cell → after.owner other = pool.owner other

/-- The used cells of each owner are threaded into its chain. -/
structure Threaded (pool : Pool P K) (chain : K → List P) : Prop where
  threads : ∀ key, Threads pool.next (chain key)
  nodup : ∀ key, (chain key).Nodup
  mem_iff : ∀ key cell, cell ∈ chain key ↔ pool.used cell = true ∧ pool.owner cell = key

variable {pool after : Pool P K} {chain : K → List P} {key : K} {cell : P}

theorem Threaded.existsUnique (threaded : pool.Threaded chain) (used : pool.used cell = true) :
    ∃! key, cell ∈ chain key := by
  refine ⟨pool.owner cell, (threaded.mem_iff _ cell).mpr ⟨used, rfl⟩, fun other member => ?_⟩
  exact ((threaded.mem_iff other cell).mp member).2.symm

variable [DecidableEq K]

/-- The first cell of a chain is freed. -/
theorem Threaded.pop (threaded : pool.Threaded chain) {rest : List P}
    (front : chain key = cell :: rest) (touches : pool.Touches cell after)
    (freed : after.used cell = false)
    (links : ∀ other, other ≠ cell → after.next other = pool.next other) :
    after.Threaded (Function.update chain key rest) := by
  have frontThreads := threaded.threads key
  have frontNodup := threaded.nodup key
  rw [front] at frontThreads frontNodup
  rcases List.nodup_cons.mp frontNodup with ⟨notIn, restNodup⟩
  have here := (threaded.mem_iff key cell).mp (front ▸ List.mem_cons_self)
  have elsewhere : ∀ other, other ≠ key → cell ∉ chain other := by
    intro other different member
    exact different (((threaded.mem_iff other cell).mp member).2.symm.trans here.2)
  constructor
  · intro other
    by_cases same : other = key
    · rw [same, Function.update_self]
      apply frontThreads.2.congr
      exact fun place member => links place fun equal => notIn (equal ▸ member)
    · rw [Function.update_of_ne same]
      apply (threaded.threads other).congr
      exact fun place member => links place fun equal => elsewhere other same (equal ▸ member)
  · intro other
    by_cases same : other = key
    · rwa [same, Function.update_self]
    · rw [Function.update_of_ne same]
      exact threaded.nodup other
  · intro other place
    by_cases equal : place = cell
    · rw [equal, freed]
      simp only [Bool.false_eq_true, false_and, iff_false]
      by_cases same : other = key
      · rwa [same, Function.update_self]
      · rw [Function.update_of_ne same]
        exact elsewhere other same
    · rw [touches.used place equal, touches.owner place equal, ← threaded.mem_iff]
      by_cases same : other = key
      · rw [same, Function.update_self, front, List.mem_cons]
        exact (or_iff_right equal).symm
      · rw [Function.update_of_ne same]

/-- A free cell is hung on the end of a chain. -/
theorem Threaded.push (threaded : pool.Threaded chain) (free : pool.used cell = false)
    (touches : pool.Touches cell after) (taken : after.used cell = true)
    (owned : after.owner cell = key) (ended : after.next cell = none)
    (linked : ∀ last, (chain key).getLast? = some last → after.next last = some cell)
    (links : ∀ other, other ≠ cell → (chain key).getLast? ≠ some other →
      after.next other = pool.next other) :
    after.Threaded (Function.update chain key (chain key ++ [cell])) := by
  have fresh : ∀ other, cell ∉ chain other := by
    intro other member
    have used := ((threaded.mem_iff other cell).mp member).1
    rw [free] at used
    cases used
  constructor
  · intro other
    by_cases same : other = key
    · rw [same, Function.update_self]
      apply (threaded.threads key).concat (threaded.nodup key) ended linked
      exact fun place member => links place fun equal => fresh key (equal ▸ member)
    · rw [Function.update_of_ne same]
      apply (threaded.threads other).congr
      intro place member
      refine links place (fun equal => fresh other (equal ▸ member)) fun last => ?_
      have there := (threaded.mem_iff other place).mp member
      have here := (threaded.mem_iff key place).mp (List.mem_of_getLast? last)
      exact same (there.2.symm.trans here.2)
  · intro other
    by_cases same : other = key
    · rw [same, Function.update_self]
      exact (threaded.nodup key).append (List.nodup_singleton cell)
        (List.disjoint_singleton.mpr (fresh key))
    · rw [Function.update_of_ne same]
      exact threaded.nodup other
  · intro other place
    by_cases equal : place = cell
    · rw [equal, taken, owned]
      by_cases same : other = key
      · rw [same, Function.update_self]
        simp
      · rw [Function.update_of_ne same]
        simp only [fresh other, false_iff, true_and]
        exact fun back => same back.symm
    · rw [touches.used place equal, touches.owner place equal, ← threaded.mem_iff]
      by_cases same : other = key
      · rw [same, Function.update_self, List.mem_append, List.mem_singleton]
        exact or_iff_left equal
      · rw [Function.update_of_ne same]

end Pool

/-! ## Counting used cells -/

/-- One more place of the first `n` satisfies the second predicate. -/
theorem countP_range_one_more {n k : Nat} {first second : Nat → Bool} (bound : k < n)
    (off : first k = false) (on : second k = true)
    (same : ∀ j, j ≠ k → second j = first j) :
    (List.range n).countP second = (List.range n).countP first + 1 := by
  induction n with
  | zero => exact absurd bound k.not_lt_zero
  | succ n ih =>
      rw [List.range_succ, List.countP_append, List.countP_append]
      by_cases last : k = n
      · have before : (List.range n).countP second = (List.range n).countP first := by
          apply List.countP_congr
          intro j member
          rw [same j (last ▸ Nat.ne_of_lt (List.mem_range.mp member))]
        rw [before, ← last, List.countP_singleton, List.countP_singleton, off, on]
        rfl
      · rw [ih (by omega), List.countP_singleton, List.countP_singleton,
          same n fun equal => last equal.symm, Nat.add_right_comm]

end SystemcTlm.Container
