import SystemcTlm.Container.Cursor
import SystemcTlm.Transition.Run

/-!
# The memory manager of the initiator

`mm` keeps the transactions that are not in use.  Its `access` cells stand in one
row: `free_list` is the first cell that holds a transaction, and `empties` the
cell before it.  An allocation moves both to the next cell, a call of `free` to
the previous one.
-/

namespace SystemcTlm.AtProtocol

open SystemcTlm.Container SystemcTlm.Transition

/-- A `gp_t*`: the transactions are numbered as they are created. -/
abbrev TransId :=
  Nat

/-- A cell of the linked list. -/
structure Access where
  trans : TransId
  next : Option Nat
  prev : Option Nat

/-- The members of `mm`.  The cells below `accesses` and the transactions below
`created` have been made by `new`. -/
structure Mm where
  freeList : Option Nat
  empties : Option Nat
  count : Int
  access : Nat → Access
  accesses : Nat
  created : Nat

namespace Mm

/-- The constructor: no cell and no payload exists. -/
def new : Mm where
  freeList := none
  empties := none
  count := 0
  access _ := ⟨0, none, none⟩
  accesses := 0
  created := 0

/-- `mm::allocate`.  The first free transaction is taken, and its cell goes to
`empties`; without a free one a new payload is made. -/
def allocate (mm : Mm) : TransId × Mm :=
  let counted := { mm with count := mm.count + 1 }
  match mm.freeList with
  | some node =>
      ((mm.access node).trans,
        { counted with empties := some node, freeList := (mm.access node).next })
  | none => (mm.created, { counted with created := mm.created + 1 })

/-- `if (free_list) free_list->prev = empties` -/
def linkBack (node : Nat) (mm : Mm) : Nat → Access :=
  match mm.freeList with
  | some head => Function.update mm.access head { mm.access head with prev := some node }
  | none => mm.access

/-- The block of `if (!empties)`. -/
def newAccess (mm : Mm) : Mm :=
  let node := mm.accesses
  { mm with
    empties := some node
    accesses := node + 1
    access := Function.update (mm.linkBack node) node
      { mm.linkBack node node with next := mm.freeList, prev := none } }

/-- `free_list` moves to the cell at `empties`, which takes the transaction. -/
def store (trans : TransId) (node : Nat) (mm : Mm) : Mm :=
  { mm with
    freeList := some node
    access := Function.update mm.access node { mm.access node with trans := trans }
    empties := (mm.access node).prev }

/-- `mm::free`.  The transaction goes into the first empty cell, or into a new
one. -/
def free (trans : TransId) (mm : Mm) : Mm :=
  let counted := { mm with count := mm.count - 1 }
  match counted.empties with
  | some node => counted.store trans node
  | none => counted.newAccess.store trans mm.accesses

/-! ## The row of cells -/

/-- The cell behind this one. -/
def next (mm : Mm) (node : Nat) : Option Nat :=
  (mm.access node).next

/-- The cell in front of this one. -/
def prev (mm : Mm) (node : Nat) : Option Nat :=
  (mm.access node).prev

/-- `stack` are the transactions that are not in use, the next one to allocate
first. -/
structure Stacked (mm : Mm) (empty full : List Nat) (stack : List TransId) : Prop where
  row : Row mm.next mm.prev empty full
  freeList_eq : mm.freeList = full.head?
  empties_eq : mm.empties = empty.getLast?
  node_lt : ∀ node ∈ empty ++ full, node < mm.accesses
  accesses_eq : mm.accesses = (empty ++ full).length
  stack_eq : full.map (fun node => (mm.access node).trans) = stack

variable {mm : Mm} {empty full : List Nat} {stack : List TransId}

theorem stacked_new : Stacked new [] [] [] where
  row := Row.nil
  freeList_eq := rfl
  empties_eq := rfl
  node_lt := List.forall_mem_nil _
  accesses_eq := rfl
  stack_eq := rfl

/-- With nothing on the stack, an allocation creates a transaction. -/
theorem Stacked.allocate_nil (stacked : Stacked mm empty full []) :
    mm.allocate.1 = mm.created ∧ mm.allocate.2.created = mm.created + 1 ∧
      Stacked mm.allocate.2 empty full [] := by
  have nothing : full = [] := List.map_eq_nil_iff.mp stacked.stack_eq
  have freeList : mm.freeList = none := by rw [stacked.freeList_eq, nothing]; rfl
  have allocated : mm.allocate =
      (mm.created, { mm with count := mm.count + 1, created := mm.created + 1 }) := by
    rw [allocate, freeList]
  rw [allocated]
  exact ⟨rfl, rfl, stacked.row, stacked.freeList_eq, stacked.empties_eq, stacked.node_lt,
    stacked.accesses_eq, stacked.stack_eq⟩

/-- Else it takes the first transaction of the stack. -/
theorem Stacked.allocate_cons {trans : TransId}
    (stacked : Stacked mm empty full (trans :: stack)) :
    mm.allocate.1 = trans ∧ mm.allocate.2.created = mm.created ∧
      ∃ empty' full', Stacked mm.allocate.2 empty' full' stack := by
  rcases List.map_eq_cons_iff.mp stacked.stack_eq with ⟨node, rest, rfl, holds, below⟩
  have freeList : mm.freeList = some node := stacked.freeList_eq
  have allocated : mm.allocate = ((mm.access node).trans,
      { mm with
        count := mm.count + 1
        empties := some node
        freeList := (mm.access node).next }) := by
    rw [allocate, freeList]
  have same : empty ++ [node] ++ rest = empty ++ node :: rest := by
    rw [List.append_assoc, List.singleton_append]
  rw [allocated]
  refine ⟨holds, rfl, empty ++ [node], rest, ?_⟩
  constructor
  · exact stacked.row.forward
  · exact stacked.row.next_eq
  · exact List.getLast?_concat.symm
  · rw [same]
    exact stacked.node_lt
  · rw [same]
    exact stacked.accesses_eq
  · exact below

section Links

variable (mm : Mm) (node other : Nat)

@[simp]
theorem linkBack_next : (mm.linkBack node other).next = mm.next other := by
  rw [linkBack, next]
  cases mm.freeList with
  | none => rfl
  | some head => by_cases same : other = head <;> simp [same]

@[simp]
theorem linkBack_trans : (mm.linkBack node other).trans = (mm.access other).trans := by
  rw [linkBack]
  cases mm.freeList with
  | none => rfl
  | some head => by_cases same : other = head <;> simp [same]

theorem linkBack_prev :
    (mm.linkBack node other).prev =
      if mm.freeList = some other then some node else mm.prev other := by
  rw [linkBack, prev]
  cases mm.freeList with
  | none => rfl
  | some head =>
      by_cases same : other = head
      · simp [same]
      · simp [same, Ne.symm same]

@[simp]
theorem newAccess_next_self : mm.newAccess.next mm.accesses = mm.freeList := by
  simp [newAccess, next]

@[simp]
theorem newAccess_prev_self : mm.newAccess.prev mm.accesses = none := by
  simp [newAccess, prev]

variable {mm node other}

theorem newAccess_access_of_ne (different : other ≠ mm.accesses) :
    mm.newAccess.access other = mm.linkBack mm.accesses other :=
  Function.update_of_ne different ..

@[simp]
theorem store_next (trans : TransId) : (mm.store trans node).next = mm.next := by
  funext other
  by_cases same : other = node <;> simp [store, next, same]

@[simp]
theorem store_prev (trans : TransId) : (mm.store trans node).prev = mm.prev := by
  funext other
  by_cases same : other = node <;> simp [store, prev, same]

end Links

/-- A new cell, before the first of the full ones. -/
theorem Stacked.newAccess (stacked : Stacked mm [] full stack) :
    Stacked mm.newAccess [mm.accesses] full stack := by
  have fresh : mm.accesses ∉ full :=
    fun member => Nat.lt_irrefl _ (stacked.node_lt _ member)
  have access : ∀ node, node ∈ full →
      mm.newAccess.access node = mm.linkBack mm.accesses node :=
    fun node member => newAccess_access_of_ne fun same => fresh (same ▸ member)
  constructor
  · suffices first : Row mm.newAccess.next mm.newAccess.prev [] (mm.accesses :: full) from
      first.forward
    refine stacked.row.cons fresh ?_ (newAccess_prev_self mm) ?_ ?_ ?_
    · rw [newAccess_next_self]
      exact stacked.freeList_eq
    · intro head first
      rw [prev, access head (List.mem_of_mem_head? first), linkBack_prev,
        if_pos (stacked.freeList_eq.trans first)]
    · intro node member
      rw [next, access node member, linkBack_next]
    · intro node member notFirst
      rw [prev, access node member, linkBack_prev, if_neg (stacked.freeList_eq ▸ notFirst)]
  · exact stacked.freeList_eq
  · rfl
  · intro node member
    rcases List.mem_cons.mp member with rfl | old
    · exact Nat.lt_succ_self _
    · exact Nat.lt_succ_of_lt (stacked.node_lt node old)
  · exact congrArg (· + 1) stacked.accesses_eq
  · rw [← stacked.stack_eq]
    apply List.map_congr_left
    intro node member
    rw [access node member, linkBack_trans]

/-- The last empty cell takes a transaction, and is the first of the full ones. -/
theorem Stacked.store {before : List Nat} {node : Nat} (trans : TransId)
    (stacked : Stacked mm (before ++ [node]) full stack) :
    Stacked (mm.store trans node) before (node :: full) (trans :: stack) := by
  have same : before ++ node :: full = before ++ [node] ++ full := by
    rw [List.append_assoc, List.singleton_append]
  have notFull : ∀ other, other ∈ full → other ≠ node := by
    intro other member equal
    have nodup := stacked.row.nodup
    rw [← same, List.nodup_append] at nodup
    exact (List.nodup_cons.mp nodup.2.1).1 (equal ▸ member)
  constructor
  · rw [store_next, store_prev]
    exact stacked.row.back
  · rfl
  · exact stacked.row.prev_eq
  · rw [same]
    exact stacked.node_lt
  · rw [same]
    exact stacked.accesses_eq
  · rw [List.map_cons, ← stacked.stack_eq]
    congr 1
    · simp [Mm.store]
    · apply List.map_congr_left
      intro other member
      simp [Mm.store, notFull other member]

/-- A freed transaction is the next one to allocate.  A cell is made only if every
cell is full. -/
theorem Stacked.free (stacked : Stacked mm empty full stack) (trans : TransId) :
    (mm.free trans).created = mm.created ∧
      (mm.free trans).accesses = max mm.accesses (stack.length + 1) ∧
      ∃ empty' full', Stacked (mm.free trans) empty' full' (trans :: stack) := by
  have counted : Stacked { mm with count := mm.count - 1 } empty full stack :=
    ⟨stacked.row, stacked.freeList_eq, stacked.empties_eq, stacked.node_lt, stacked.accesses_eq,
      stacked.stack_eq⟩
  have total := stacked.accesses_eq
  have held : full.length = stack.length := by
    rw [← stacked.stack_eq, List.length_map]
  rw [List.length_append] at total
  rw [Mm.free]
  rcases List.eq_nil_or_concat empty with rfl | ⟨before, node, rfl⟩
  · have absent : mm.empties = none := stacked.empties_eq
    simp only [absent]
    have made : Stacked _ ([] ++ [mm.accesses]) full stack := counted.newAccess
    refine ⟨rfl, ?_, [], _, made.store trans⟩
    change mm.accesses + 1 = _
    rw [List.length_nil] at total
    omega
  · rw [List.concat_eq_append] at counted total
    have present : mm.empties = some node := by
      rw [stacked.empties_eq, List.concat_eq_append, List.getLast?_concat]
    simp only [present]
    refine ⟨rfl, ?_, before, _, counted.store trans⟩
    change mm.accesses = _
    rw [List.length_append, List.length_singleton] at total
    omega

@[simp]
theorem allocate_count (mm : Mm) : mm.allocate.2.count = mm.count + 1 := by
  rw [allocate]
  cases mm.freeList <;> rfl

@[simp]
theorem allocate_accesses (mm : Mm) : mm.allocate.2.accesses = mm.accesses := by
  rw [allocate]
  cases mm.freeList <;> rfl

@[simp]
theorem free_count (mm : Mm) (trans : TransId) : (mm.free trans).count = mm.count - 1 := by
  rw [Mm.free]
  cases mm.empties <;> rfl

/-! ## The transactions in use -/

/-- Every transaction that was created is in use or on the stack, and no one is
twice. -/
def Lends (mm : Mm) (inUse : List TransId) : Prop :=
  ∃ empty full stack, Stacked mm empty full stack ∧
    (inUse ++ stack).Perm (List.range mm.created)

variable {inUse : List TransId} {trans : TransId}

theorem lends_new : Lends new [] :=
  ⟨[], [], [], stacked_new, List.Perm.refl []⟩

theorem Lends.nodup (lends : Lends mm inUse) : inUse.Nodup := by
  rcases lends with ⟨_, _, _, -, all⟩
  exact (List.nodup_append.mp (all.nodup_iff.mpr List.nodup_range)).1

/-- An allocation lends a transaction that is not in use, and creates one only if
all are. -/
theorem Lends.allocate (lends : Lends mm inUse) :
    mm.allocate.1 ∉ inUse ∧ Lends mm.allocate.2 (mm.allocate.1 :: inUse) ∧
      mm.allocate.2.created = max mm.created (inUse.length + 1) := by
  rcases lends with ⟨empty, full, stack, stacked, all⟩
  have total := all.length_eq
  rw [List.length_append, List.length_range] at total
  have distinct : (inUse ++ stack).Nodup := all.nodup_iff.mpr List.nodup_range
  cases stack with
  | nil =>
      rcases stacked.allocate_nil with ⟨fresh, created, after⟩
      rw [List.append_nil] at all
      have lent : (mm.allocate.1 :: inUse).Perm (List.range mm.allocate.2.created) := by
        rw [fresh, created, List.range_succ]
        exact (all.cons mm.created).trans (List.perm_append_singleton _ _).symm
      refine ⟨?_, ⟨empty, full, [], after, by rwa [List.append_nil]⟩, ?_⟩
      · exact (List.nodup_cons.mp (lent.nodup_iff.mpr List.nodup_range)).1
      · rw [List.length_nil] at total
        omega
  | cons first rest =>
      rcases stacked.allocate_cons with ⟨rfl, created, empty', full', after⟩
      have lent : (mm.allocate.1 :: inUse ++ rest).Perm (List.range mm.allocate.2.created) := by
        rw [created]
        exact List.perm_middle.symm.trans all
      refine ⟨?_, ⟨empty', full', rest, after, lent⟩, ?_⟩
      · have nodup := lent.nodup_iff.mpr List.nodup_range
        rw [List.cons_append, List.nodup_cons, List.mem_append, not_or] at nodup
        exact nodup.1.1
      · rw [List.length_cons] at total
        omega

theorem Lends.free (lends : Lends mm inUse) (used : trans ∈ inUse) :
    Lends (mm.free trans) (inUse.erase trans) ∧ (mm.free trans).created = mm.created ∧
      (mm.free trans).accesses =
        max mm.accesses (mm.created - (inUse.erase trans).length) := by
  rcases lends with ⟨empty, full, stack, stacked, all⟩
  rcases stacked.free trans with ⟨created, accesses, empty', full', after⟩
  have total := all.length_eq
  rw [List.length_append, List.length_range] at total
  have here := List.length_pos_of_mem used
  refine ⟨⟨empty', full', trans :: stack, after, ?_⟩, created, ?_⟩
  · rw [created]
    refine List.Perm.trans ?_ all
    exact List.perm_middle.trans ((List.perm_cons_erase used).symm.append_right stack)
  · rw [accesses, List.length_erase_of_mem used]
    congr 1
    omega

/-- The next allocation takes what was freed last. -/
theorem Lends.allocate_free (lends : Lends mm inUse) : (mm.free trans).allocate.1 = trans := by
  rcases lends with ⟨_, _, _, stacked, -⟩
  rcases stacked.free trans with ⟨-, -, _, _, after⟩
  exact after.allocate_cons.1

/-! ## Runs -/

/-- The calls of the pool. -/
inductive Call
  | allocate
  | free (trans : TransId)

/-- The memory manager with the transactions that its caller holds, and the
greatest numbers of transactions that were in use and that were not. -/
structure Run where
  mm : Mm
  inUse : List TransId
  mostUsed : Nat
  mostFree : Nat

/-- A transaction that is not in use may not be freed. -/
def call (next : Call) (run : Run) : Option Run :=
  match next with
  | .allocate =>
      let allocated := run.mm.allocate
      some
        { run with
          mm := allocated.2
          inUse := allocated.1 :: run.inUse
          mostUsed := max run.mostUsed (run.inUse.length + 1) }
  | .free trans =>
      if trans ∈ run.inUse then
        let inUse := run.inUse.erase trans
        some
          { run with
            mm := run.mm.free trans
            inUse := inUse
            mostFree := max run.mostFree (run.mm.created - inUse.length) }
      else none

/-- The pool before the first call. -/
def start : Run :=
  ⟨new, [], 0, 0⟩

/-- What holds between the calls. -/
structure Kept (run : Run) : Prop where
  lends : Lends run.mm run.inUse
  count_eq : run.mm.count = run.inUse.length
  created_eq : run.mm.created = run.mostUsed
  accesses_eq : run.mm.accesses = run.mostFree

theorem Kept.call {run after : Run} (kept : Kept run) {next : Call}
    (called : Mm.call next run = some after) : Kept after := by
  cases next with
  | allocate =>
      rcases kept.lends.allocate with ⟨-, lends, created⟩
      cases called
      refine ⟨lends, ?_, ?_, ?_⟩
      · rw [allocate_count, kept.count_eq, List.length_cons, Int.natCast_succ]
      · rw [created, kept.created_eq]
      · rw [allocate_accesses, kept.accesses_eq]
  | free trans =>
      by_cases used : trans ∈ run.inUse
      · rcases kept.lends.free used with ⟨lends, created, accesses⟩
        rw [Mm.call, if_pos used] at called
        cases called
        refine ⟨lends, ?_, ?_, ?_⟩
        · have here := List.length_pos_of_mem used
          rw [free_count, kept.count_eq, List.length_erase_of_mem used]
          omega
        · rw [created, kept.created_eq]
        · rw [accesses, kept.accesses_eq]
      · rw [Mm.call, if_neg used] at called
        cases called

/-- In every run in which only transactions in use are freed, no transaction is
lent twice at a time, as many have been created as were in use at once, and as
many cells made as transactions were out of use at once; and the last one freed
is the next one lent. -/
theorem lends_distinct {calls : List Call} {run : Run}
    (reached : runPartial call calls start = some run) :
    run.inUse.Nodup ∧ run.mm.allocate.1 ∉ run.inUse ∧ run.mm.count = run.inUse.length ∧
      run.mm.created = run.mostUsed ∧ run.mm.accesses = run.mostFree ∧
      ∀ trans, (run.mm.free trans).allocate.1 = trans := by
  have initial : Kept start := ⟨lends_new, rfl, rfl, rfl⟩
  have always : ∀ next state, Made call calls start next state → True := fun _ _ _ => trivial
  have kept : Kept run := runPartial_invariant Kept initial always
    (fun _ _ _ kept _ called => kept.call called) reached
  exact ⟨kept.lends.nodup, kept.lends.allocate.1, kept.count_eq, kept.created_eq,
    kept.accesses_eq, fun _ => kept.lends.allocate_free⟩

/-- Three transactions, of which two are freed and one is lent again. -/
theorem lends_distinct_three :
    ((runPartial call [.allocate, .allocate, .allocate, .free 1, .free 0, .allocate] start).map
      fun run => (run.inUse, run.mm.created, run.mm.accesses)) = some ([0, 2], 3, 2) ∧
    ∀ run, runPartial call [.allocate, .allocate, .allocate, .free 1, .free 0, .allocate] start =
      some run → run.mm.allocate.1 ∉ run.inUse :=
  ⟨rfl, fun _ reached => (lends_distinct reached).2.1⟩

end Mm

end SystemcTlm.AtProtocol
