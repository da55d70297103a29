import Mathlib.Data.Multiset.AddSub
import Mathlib.Data.List.Sort

/-!
# Priority queues

What a program may rely on when it uses a priority queue ordered by a
comparison: the contents as a multiset, and a top that no element exceeds.
Which of several equal elements is on top, and how the elements are stored, is
left open.  `popWhile` is the loop that pops while the top satisfies a
condition.  Over a comparison of a total preorder a list in order is such a
queue.
-/

namespace SystemcTlm.Container

universe u v

/-- A priority queue over `less`, in which `less a b` says that `b` is to be
popped before `a`. -/
structure PriorityQueue (α : Type u) (less : α → α → Bool) where
  Queue : Type u
  empty : Queue
  push : α → Queue → Queue
  /-- `none` if the queue is empty. -/
  top : Queue → Option α
  pop : Queue → Queue
  contents : Queue → Multiset α
  contents_empty : contents empty = 0
  contents_push : ∀ entry queue, contents (push entry queue) = entry ::ₘ contents queue
  contents_of_top_none : ∀ {queue}, top queue = none → contents queue = 0
  contents_of_top_some : ∀ {queue first}, top queue = some first →
    contents queue = first ::ₘ contents (pop queue)
  top_greatest : ∀ {queue first}, top queue = some first →
    ∀ entry ∈ contents queue, less first entry = false

namespace PriorityQueue

variable {α : Type u} {less : α → α → Bool} (queues : PriorityQueue α less)

/-- The entries pushed one after the other. -/
def pushAll (entries : List α) (queue : queues.Queue) : queues.Queue :=
  entries.foldl (fun current entry => queues.push entry current) queue

@[simp]
theorem pushAll_nil (queue : queues.Queue) : queues.pushAll [] queue = queue :=
  rfl

theorem contents_pushAll (entries : List α) (queue : queues.Queue) :
    queues.contents (queues.pushAll entries queue) = ↑entries + queues.contents queue := by
  induction entries generalizing queue with
  | nil => simp [pushAll]
  | cons entry rest ih =>
      change queues.contents (queues.pushAll rest (queues.push entry queue)) = _
      rw [ih, contents_push, Multiset.add_cons, ← Multiset.cons_coe, Multiset.cons_add]

/-- `while (!queue.empty() && keep(queue.top())) { …; queue.pop(); }`, with a
bound on the number of passes. -/
def popWhile (keep : α → Bool) : Nat → queues.Queue → List α × queues.Queue
  | 0, queue => ([], queue)
  | passes + 1, queue =>
      match queues.top queue with
      | none => ([], queue)
      | some first =>
          if keep first then
            (first :: (popWhile keep passes (queues.pop queue)).1,
              (popWhile keep passes (queues.pop queue)).2)
          else ([], queue)

theorem popWhile_of_some {keep : α → Bool} {passes : Nat} {queue : queues.Queue} {first : α}
    (found : queues.top queue = some first) (kept : keep first = true) :
    queues.popWhile keep (passes + 1) queue =
      (first :: (queues.popWhile keep passes (queues.pop queue)).1,
        (queues.popWhile keep passes (queues.pop queue)).2) := by
  simp [popWhile, found, kept]

theorem popWhile_of_not {keep : α → Bool} {queue : queues.Queue}
    (stops : ∀ first, queues.top queue = some first → keep first = false) (passes : Nat) :
    queues.popWhile keep passes queue = ([], queue) := by
  cases passes with
  | zero => rfl
  | succ passes =>
      cases found : queues.top queue with
      | none => simp [popWhile, found]
      | some first => simp [popWhile, found, stops first found]

/-- The loop only moves entries out of the queue, and keeps those that satisfy
the condition. -/
theorem popWhile_spec (keep : α → Bool) (passes : Nat) (queue : queues.Queue) :
    queues.contents queue = ↑(queues.popWhile keep passes queue).1 +
        queues.contents (queues.popWhile keep passes queue).2 ∧
      ∀ entry ∈ (queues.popWhile keep passes queue).1, keep entry = true := by
  induction passes generalizing queue with
  | zero => simp [popWhile]
  | succ passes ih =>
      by_cases pops : ∃ first, queues.top queue = some first ∧ keep first = true
      · rcases pops with ⟨first, found, kept⟩
        rcases ih (queues.pop queue) with ⟨contents, keeps⟩
        rw [popWhile_of_some queues found kept]
        constructor
        · rw [queues.contents_of_top_some found, contents, ← Multiset.cons_coe,
            Multiset.cons_add]
        · intro entry member
          rcases List.mem_cons.mp member with rfl | rest
          · exact kept
          · exact keeps entry rest
      · rw [popWhile_of_not queues (by simpa using pops)]
        simp

/-- With a pass for each entry the loop ends by its own test. -/
theorem top_popWhile {keep : α → Bool} {passes : Nat} {queue : queues.Queue}
    (enough : (queues.contents queue).card ≤ passes) {first : α}
    (onTop : queues.top (queues.popWhile keep passes queue).2 = some first) :
    keep first = false := by
  induction passes generalizing queue with
  | zero =>
      rw [popWhile] at onTop
      rw [queues.contents_of_top_some onTop, Multiset.card_cons] at enough
      exact absurd enough (Nat.not_succ_le_zero _)
  | succ passes ih =>
      by_cases pops : ∃ entry, queues.top queue = some entry ∧ keep entry = true
      · rcases pops with ⟨entry, found, kept⟩
        rw [popWhile_of_some queues found kept] at onTop
        rw [queues.contents_of_top_some found, Multiset.card_cons] at enough
        exact ih (Nat.le_of_succ_le_succ enough) onTop
      · have stops : ∀ entry, queues.top queue = some entry → keep entry = false := by
          simpa using pops
        rw [popWhile_of_not queues stops] at onTop
        exact stops first onTop

end PriorityQueue

/-- A sorting function for `less`, which may leave equal entries in any
order. -/
structure Sorting (α : Type u) (less : α → α → Bool) where
  sort : List α → List α
  perm : ∀ entries, (sort entries).Perm entries
  sorted : ∀ entries, (sort entries).Pairwise fun first second => less second first = false

section Ordered

variable {α : Type u} (less : α → α → Bool)
  (total : ∀ a b, less a b = false ∨ less b a = false)
  (trans : ∀ a b c, less a b = false → less b c = false → less a c = false)

/-- The priority queue that keeps its entries in a list, the first on top. -/
def PriorityQueue.ofOrder : PriorityQueue α less where
  Queue := { entries : List α // entries.Pairwise fun first second => less first second = false }
  empty := ⟨[], List.Pairwise.nil⟩
  push := fun entry queue =>
    ⟨queue.1.orderedInsert (fun a b => less a b = false) entry, by
      have : Std.Total fun a b => less a b = false := ⟨total⟩
      have : IsTrans α fun a b => less a b = false := ⟨trans⟩
      exact queue.2.orderedInsert entry queue.1⟩
  top := fun queue => queue.1.head?
  pop := fun queue => ⟨queue.1.tail, queue.2.tail⟩
  contents := fun queue => queue.1
  contents_empty := rfl
  contents_push := fun entry queue => Multiset.coe_eq_coe.mpr (List.perm_orderedInsert _ _ _)
  contents_of_top_none := by
    intro queue nothing
    rw [List.head?_eq_none_iff.mp nothing]
    rfl
  contents_of_top_some := by
    intro queue first onTop
    rw [Multiset.cons_coe, List.cons_head?_tail (Option.mem_def.mpr onTop)]
  top_greatest := by
    intro queue first onTop entry member
    have split := List.cons_head?_tail (Option.mem_def.mpr onTop)
    have ordered := queue.2
    have listed : entry ∈ first :: queue.1.tail := by
      rw [split]
      exact member
    rw [← split] at ordered
    rcases List.mem_cons.mp listed with rfl | later
    · exact (total entry entry).elim id id
    · exact List.rel_of_pairwise_cons ordered later

/-- The sorting by insertion. -/
def Sorting.ofOrder : Sorting α less where
  sort := fun entries => entries.insertionSort fun a b => less b a = false
  perm := fun entries => List.perm_insertionSort _ entries
  sorted := by
    intro entries
    have : Std.Total fun a b => less b a = false := ⟨fun a b => total b a⟩
    have : IsTrans α fun a b => less b a = false :=
      ⟨fun a b c first second => trans c b a second first⟩
    exact List.pairwise_insertionSort _ entries

end Ordered

end SystemcTlm.Container
