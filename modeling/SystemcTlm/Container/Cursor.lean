import SystemcTlm.Container.Threaded

/-!
# Rows of cells and a place in them

A row is linked in both directions.  The place splits it in what lies before and
what lies after, and moves by one cell along either link.  A row that begins at
the place grows by a cell at its front.
-/

namespace SystemcTlm.Container

universe u

variable {P : Type u} {next prev : P → Option P}

/-- The link of a cell leads to what follows it. -/
theorem Threads.next_eq {before rest : List P} {cell : P}
    (threads : Threads next (before ++ cell :: rest)) : next cell = rest.head? := by
  induction before with
  | nil => exact threads.1
  | cons first before ih => exact ih threads.2

/-- The cells `before` and `after` the place are linked in both directions. -/
structure Row (next prev : P → Option P) (before after : List P) : Prop where
  nextThreads : Threads next (before ++ after)
  prevThreads : Threads prev (before ++ after).reverse
  nodup : (before ++ after).Nodup

namespace Row

variable {before after rest : List P} {cell : P}

theorem nil : Row next prev ([] : List P) [] where
  nextThreads := trivial
  prevThreads := trivial
  nodup := List.nodup_nil

theorem next_eq (row : Row next prev before (cell :: rest)) : next cell = rest.head? :=
  row.nextThreads.next_eq

theorem prev_eq (row : Row next prev (before ++ [cell]) after) :
    prev cell = before.getLast? := by
  have threads := row.prevThreads
  rw [List.append_assoc, List.singleton_append, List.reverse_append, List.reverse_cons,
    List.append_assoc, List.singleton_append] at threads
  rw [threads.next_eq, List.head?_reverse]

/-- The place moves to the next cell. -/
theorem forward (row : Row next prev before (cell :: rest)) :
    Row next prev (before ++ [cell]) rest := by
  have same : before ++ [cell] ++ rest = before ++ cell :: rest := by
    rw [List.append_assoc, List.singleton_append]
  constructor <;> rw [same]
  · exact row.nextThreads
  · exact row.prevThreads
  · exact row.nodup

/-- The place moves to the previous cell. -/
theorem back (row : Row next prev (before ++ [cell]) after) :
    Row next prev before (cell :: after) := by
  have same : before ++ cell :: after = before ++ [cell] ++ after := by
    rw [List.append_assoc, List.singleton_append]
  constructor <;> rw [same]
  · exact row.nextThreads
  · exact row.prevThreads
  · exact row.nodup

/-- A cell is put before the first one. -/
theorem cons {next' prev' : P → Option P} (row : Row next prev [] after) (fresh : cell ∉ after)
    (nextCell : next' cell = after.head?) (prevCell : prev' cell = none)
    (prevHead : ∀ head, after.head? = some head → prev' head = some cell)
    (nextSame : ∀ other, other ∈ after → next' other = next other)
    (prevSame : ∀ other, other ∈ after → after.head? ≠ some other → prev' other = prev other) :
    Row next' prev' [] (cell :: after) where
  nextThreads := ⟨nextCell, row.nextThreads.congr nextSame⟩
  prevThreads := by
    rw [List.nil_append, List.reverse_cons]
    refine row.prevThreads.concat (List.nodup_reverse.mpr row.nodup) prevCell ?_ ?_
    · intro last
      rw [List.nil_append, List.getLast?_reverse]
      exact prevHead last
    · intro other member
      rw [List.nil_append, List.mem_reverse] at member
      rw [List.nil_append, List.getLast?_reverse]
      exact prevSame other member
  nodup := List.nodup_cons.mpr ⟨fresh, row.nodup⟩

end Row

end SystemcTlm.Container
