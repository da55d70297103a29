import SystemcTlm.Dpa.DpaRuns

/-!
# Diagonals at once

The cells of a diagonal lie in distinct rows and columns, so that none of them
sees what another one leaves in the masks.  Deciding them one after the other,
as the loops do, is deciding all of them by the masks that stand when the
diagonal begins.
-/

namespace SystemcTlm.Dpa.DpaScheduler

open SystemcTlm.Loop SystemcTlm.Matching

/-! ## The cells that the loops read off -/

/-- The cell that a pass of the inner loop takes from `m_dpa_map`. -/
def visitedCell (sch : DpaScheduler) (row col : Nat) : Option (Int × Int) := do
  let n := sch.numPorts
  let curIndex ← get₂ (2 * n - 1) n sch.dpaMap (row + n - 1 - col) col
  some (curIndex.tdiv n, curIndex.tmod n)

/-- The rest of the pass. -/
def decideAt (sch : DpaScheduler) (cell : Int × Int) : Option DpaScheduler := do
  let n := sch.numPorts
  let request ← get₂ n n sch.requests cell.1 cell.2
  let rm ← get₁ n sch.rowMask cell.1
  let lm ← get₁ n sch.colMask cell.2
  let grant := arbiterCellGrant request rm lm
  let grants ← set₂ n n sch.grants cell.1 cell.2 grant
  if grant ≠ 0 then
    let rowMask ← set₁ n sch.rowMask cell.1 0
    let colMask ← set₁ n sch.colMask cell.2 0
    some { sch with grants := grants, rowMask := rowMask, colMask := colMask }
  else some { sch with grants := grants }

theorem decideCell_eq_bind (sch : DpaScheduler) (row col : Nat) :
    decideCell row sch col = (sch.visitedCell row col).bind sch.decideAt := by
  rw [decideCell, visitedCell]
  cases get₂ (2 * sch.numPorts - 1) sch.numPorts sch.dpaMap (row + sch.numPorts - 1 - col) col <;>
    rfl

/-- The cells of an arbitration in the order of its two loops. -/
def visits (sch : DpaScheduler) : List (Option (Int × Int)) :=
  let times := sch.numPorts - sch.ptr
  let leftTimes := sch.numPorts - times
  (List.range' sch.ptr times ++ List.range' 0 leftTimes).flatMap fun row =>
    (List.range sch.numPorts).map (sch.visitedCell row)

/-- The body of the loops for a cell that has been read off. -/
def visit (sch : DpaScheduler) (cell : Option (Int × Int)) : Option DpaScheduler :=
  cell.bind sch.decideAt

/-- What a pass leaves alone. -/
structure SameTable (start current : DpaScheduler) : Prop where
  ptr_eq : current.ptr = start.ptr
  numPorts_eq : current.numPorts = start.numPorts
  dpaMap_eq : current.dpaMap = start.dpaMap

section Loops

variable {start current next : DpaScheduler}

theorem SameTable.refl (start : DpaScheduler) : SameTable start start :=
  ⟨rfl, rfl, rfl⟩

theorem SameTable.trans (first : SameTable start current) (second : SameTable current next) :
    SameTable start next :=
  ⟨second.ptr_eq.trans first.ptr_eq, second.numPorts_eq.trans first.numPorts_eq,
    second.dpaMap_eq.trans first.dpaMap_eq⟩

theorem visit_frame {cell : Option (Int × Int)} (done : current.visit cell = some next) :
    SameTable current next := by
  rcases Option.bind_eq_some_iff.mp done with ⟨⟨i, j⟩, -, decided⟩
  simp only [decideAt, Option.bind_eq_bind, Option.bind_eq_some_iff] at decided
  rcases decided with ⟨request, -, rm, -, lm, -, grants, -, decided⟩
  split_ifs at decided
  · rcases Option.bind_eq_some_iff.mp decided with ⟨rowMask, -, decided⟩
    rcases Option.bind_eq_some_iff.mp decided with ⟨colMask, -, decided⟩
    cases decided
    exact ⟨rfl, rfl, rfl⟩
  · cases decided
    exact ⟨rfl, rfl, rfl⟩

theorem foldlM_visit_frame {cells : List (Option (Int × Int))}
    (done : cells.foldlM visit current = some next) : SameTable current next := by
  induction cells generalizing current with
  | nil =>
      cases done
      exact SameTable.refl _
  | cons cell cells ih =>
      rw [List.foldlM_cons] at done
      rcases Option.bind_eq_some_iff.mp done with ⟨middle, visited, rest⟩
      exact (visit_frame visited).trans (ih rest)

theorem SameTable.visitedCell (same : SameTable start current) (row col : Nat) :
    current.visitedCell row col = start.visitedCell row col := by
  rw [DpaScheduler.visitedCell, DpaScheduler.visitedCell, same.numPorts_eq, same.dpaMap_eq]

/-- The inner loop visits the cells of its row. -/
theorem foldlM_decideCell_eq (same : SameTable start current) (row : Nat) (cols : List Nat) :
    cols.foldlM (decideCell row) current =
      (cols.map (start.visitedCell row)).foldlM visit current := by
  induction cols generalizing current with
  | nil => rfl
  | cons col cols ih =>
      rw [List.map_cons, List.foldlM_cons, List.foldlM_cons, decideCell_eq_bind,
        same.visitedCell row col]
      cases visited : (start.visitedCell row col).bind current.decideAt with
      | none => rw [visit, visited]; rfl
      | some middle =>
          rw [visit, visited]
          exact ih (same.trans (visit_frame visited))

/-- The outer loop visits the cells of its rows. -/
theorem foldlM_decideRow_eq (same : SameTable start current) (rows : List Nat) :
    rows.foldlM decideRow current =
      (rows.flatMap fun row => (List.range start.numPorts).map (start.visitedCell row)).foldlM
        visit current := by
  induction rows generalizing current with
  | nil => rfl
  | cons row rows ih =>
      rw [List.flatMap_cons, List.foldlM_append, List.foldlM_cons, decideRow,
        foldlM_decideCell_eq same, same.numPorts_eq]
      cases looped : ((List.range start.numPorts).map (start.visitedCell row)).foldlM visit
          current with
      | none => rfl
      | some middle => exact ih (same.trans (foldlM_visit_frame looped))

end Loops

/-- An arbitration carries out the body of its loops for these cells. -/
theorem arbitration_eq_visits (sch : DpaScheduler) :
    sch.arbitration = (sch.visits.foldlM visit sch.init).map fun current =>
      { current with ptr := (current.ptr + 1) % current.numPorts } := by
  have same : SameTable sch sch.init := ⟨rfl, rfl, rfl⟩
  rw [arbitration, visits, List.flatMap_append, List.foldlM_append]
  dsimp only [decideRows]
  rw [foldlM_decideRow_eq same]
  cases looped : ((List.range' sch.ptr (sch.numPorts - sch.ptr)).flatMap fun row =>
      (List.range sch.numPorts).map (sch.visitedCell row)).foldlM visit sch.init with
  | none => rfl
  | some middle =>
      simp only [Option.bind_eq_bind, Option.bind_some]
      rw [foldlM_decideRow_eq (same.trans (foldlM_visit_frame looped))]
      cases List.foldlM visit middle _ <;> rfl

/-- A cell in the indices of the source. -/
def cellIndex (cell : Nat × Nat) : Int × Int :=
  (cell.1, cell.2)

theorem cellIndex_injective : Function.Injective cellIndex := by
  rintro ⟨i, j⟩ ⟨i', j'⟩ same
  simp only [cellIndex, Prod.mk.injEq, Int.natCast_inj] at same
  rw [same.1, same.2]

section Visits

variable {sch : DpaScheduler}

theorem visitedCell_eq (built : sch.Built) {row col : Nat} (rowBound : row < sch.numPorts)
    (colBound : col < sch.numPorts) :
    sch.visitedCell row col = some (cellIndex (cellAt sch.numPorts row col)) := by
  cases cell : cellAt sch.numPorts row col with
  | mk i j =>
      have jBound := (cellAt_lt colBound cell).2
      simp only [visitedCell, get_dpaMap built rowBound colBound cell, Option.bind_eq_bind,
        Option.bind_some, tdiv_index jBound, tmod_index jBound, cellIndex]

/-- The loops visit the wavefront. -/
theorem visits_eq (built : sch.Built) :
    sch.visits = (wavefront sch.numPorts sch.ptr).map fun cell => some (cellIndex cell) := by
  rw [visits, wavefront, List.map_flatMap]
  refine List.flatMap_congr fun row member => ?_
  rw [diagonal, List.map_map]
  refine List.map_congr_left fun col colMember => ?_
  exact visitedCell_eq built ((mem_rowsFrom_iff built.ptr_lt).mp member)
    (List.mem_range.mp colMember)

theorem visits_nodup (built : sch.Built) : sch.visits.Nodup := by
  rw [visits_eq built]
  exact (wavefront_nodup built.ptr_lt).map ((Option.some_injective _).comp cellIndex_injective)

theorem mem_visits_iff (built : sch.Built) (cell : Option (Int × Int)) :
    cell ∈ sch.visits ↔
      ∃ i, i < sch.numPorts ∧ ∃ j, j < sch.numPorts ∧ cell = some ((i : Int), (j : Int)) := by
  rw [visits_eq built, List.mem_map]
  constructor
  · rintro ⟨⟨i, j⟩, member, rfl⟩
    obtain ⟨iBound, jBound⟩ := (mem_wavefront_iff built.ptr_lt).mp member
    exact ⟨i, iBound, j, jBound, rfl⟩
  · rintro ⟨i, iBound, j, jBound, rfl⟩
    exact ⟨(i, j), (mem_wavefront_iff built.ptr_lt).mpr ⟨iBound, jBound⟩, rfl⟩

/-- The cells of one outer step lie in distinct rows and columns. -/
theorem visitedCell_distinct (built : sch.Built) {row col col' : Nat}
    (rowBound : row < sch.numPorts) (colBound : col < sch.numPorts)
    (colBound' : col' < sch.numPorts) (different : col ≠ col') {cell cell' : Int × Int}
    (visit : sch.visitedCell row col = some cell)
    (visit' : sch.visitedCell row col' = some cell') :
    cell.1 ≠ cell'.1 ∧ cell.2 ≠ cell'.2 := by
  rw [visitedCell_eq built rowBound colBound] at visit
  rw [visitedCell_eq built rowBound colBound'] at visit'
  cases visit
  cases visit'
  have isMatching := diagonal_isMatching rowBound
  have member : ∀ c, c < sch.numPorts →
      cellAt sch.numPorts row c ∈ diagonal sch.numPorts row := fun c bound =>
    List.mem_map_of_mem (List.mem_range.mpr bound)
  constructor
  · intro same
    have equal := List.inj_on_of_nodup_map isMatching.inputs_nodup (member col colBound)
      (member col' colBound') (Int.ofNat.inj same)
    exact different (congrArg Prod.snd equal)
  · exact fun same => different (Int.ofNat.inj same)

end Visits

/-! ## Cells decided at once -/

/-- The grant of a cell by the masks of the state. -/
def grantAt (sch : DpaScheduler) (cell : Nat × Nat) : Int :=
  arbiterCellGrant (sch.requests cell.1 cell.2) (sch.rowMask cell.1) (sch.colMask cell.2)

/-- Some cell of the row is granted. -/
def rowTaken (sch : DpaScheduler) (cells : List (Nat × Nat)) (i : Nat) : Bool :=
  cells.any fun cell => decide (cell.1 = i ∧ sch.grantAt cell ≠ 0)

/-- Some cell of the column is granted. -/
def colTaken (sch : DpaScheduler) (cells : List (Nat × Nat)) (j : Nat) : Bool :=
  cells.any fun cell => decide (cell.2 = j ∧ sch.grantAt cell ≠ 0)

/-- All cells of a list are decided by the masks of one state. -/
def decideTogether (cells : List (Nat × Nat)) (sch : DpaScheduler) : DpaScheduler :=
  { sch with
    grants := fun i j => if (i, j) ∈ cells then sch.grantAt (i, j) else sch.grants i j
    rowMask := fun i => if sch.rowTaken cells i then 0 else sch.rowMask i
    colMask := fun j => if sch.colTaken cells j then 0 else sch.colMask j }

/-- One outer step at once. -/
def decideDiagonal (sch : DpaScheduler) (row : Nat) : DpaScheduler :=
  decideTogether (diagonal sch.numPorts row) sch

section Together

variable {sch : DpaScheduler} {cells : List (Nat × Nat)} {cell : Nat × Nat}

@[simp]
theorem decideTogether_nil (sch : DpaScheduler) : decideTogether [] sch = sch := by
  simp [decideTogether, rowTaken, colTaken]

theorem Built.decideTogether (built : sch.Built) (cells : List (Nat × Nat)) :
    (decideTogether cells sch).Built :=
  ⟨built.ptr_lt, built.dpaMap_eq⟩

theorem rowTaken_eq_false (free : cell.1 ∉ cells.map Prod.fst) :
    sch.rowTaken cells cell.1 = false := by
  rw [rowTaken, List.any_eq_false]
  intro other member taken
  have same := (of_decide_eq_true taken).1
  exact free (same ▸ List.mem_map_of_mem member)

theorem colTaken_eq_false (free : cell.2 ∉ cells.map Prod.snd) :
    sch.colTaken cells cell.2 = false := by
  rw [colTaken, List.any_eq_false]
  intro other member taken
  have same := (of_decide_eq_true taken).1
  exact free (same ▸ List.mem_map_of_mem member)

/-- A cell does not see what cells of other rows and columns leave. -/
theorem grantAt_decideTogether (free : Free cells cell) :
    (decideTogether cells sch).grantAt cell = sch.grantAt cell := by
  have row : (decideTogether cells sch).rowMask cell.1 = sch.rowMask cell.1 :=
    if_neg (by rw [rowTaken_eq_false free.1]; exact Bool.false_ne_true)
  have col : (decideTogether cells sch).colMask cell.2 = sch.colMask cell.2 :=
    if_neg (by rw [colTaken_eq_false free.2]; exact Bool.false_ne_true)
  rw [grantAt, row, col]
  rfl

theorem grants_concat (cells : List (Nat × Nat)) (i j : Nat) (sch : DpaScheduler) :
    (decideTogether (cells ++ [(i, j)]) sch).grants =
      update₂ (decideTogether cells sch).grants i j (sch.grantAt (i, j)) := by
  funext i' j'
  rw [update₂_apply]
  by_cases here : i' = i ∧ j' = j
  · rcases here with ⟨rfl, rfl⟩
    simp [decideTogether]
  · simp [decideTogether, here]

/-- One more place is masked if its cell is granted. -/
theorem mask_concat (taken : Nat → Bool) (mask : Nat → Int) (place : Nat) (grant : Int) :
    (fun k => if taken k || decide (place = k ∧ grant ≠ 0) then 0 else mask k) =
      if grant ≠ 0 then Function.update (fun k => if taken k then 0 else mask k) place 0
      else fun k => if taken k then 0 else mask k := by
  funext k
  by_cases granted : grant = 0
  · simp [granted]
  · by_cases here : k = place
    · simp [granted, here]
    · simp [granted, here, Ne.symm here]

theorem rowMask_concat (cells : List (Nat × Nat)) (cell : Nat × Nat) (sch : DpaScheduler) :
    (decideTogether (cells ++ [cell]) sch).rowMask =
      if sch.grantAt cell ≠ 0 then Function.update (decideTogether cells sch).rowMask cell.1 0
      else (decideTogether cells sch).rowMask := by
  have taken : ∀ i, sch.rowTaken (cells ++ [cell]) i =
      (sch.rowTaken cells i || decide (cell.1 = i ∧ sch.grantAt cell ≠ 0)) := fun i => by
    rw [rowTaken, List.any_append, List.any_cons, List.any_nil, Bool.or_false, rowTaken]
  simp only [decideTogether, taken]
  exact mask_concat (sch.rowTaken cells) sch.rowMask cell.1 (sch.grantAt cell)

theorem colMask_concat (cells : List (Nat × Nat)) (cell : Nat × Nat) (sch : DpaScheduler) :
    (decideTogether (cells ++ [cell]) sch).colMask =
      if sch.grantAt cell ≠ 0 then Function.update (decideTogether cells sch).colMask cell.2 0
      else (decideTogether cells sch).colMask := by
  have taken : ∀ j, sch.colTaken (cells ++ [cell]) j =
      (sch.colTaken cells j || decide (cell.2 = j ∧ sch.grantAt cell ≠ 0)) := fun j => by
    rw [colTaken, List.any_append, List.any_cons, List.any_nil, Bool.or_false, colTaken]
  simp only [decideTogether, taken]
  exact mask_concat (sch.colTaken cells) sch.colMask cell.2 (sch.grantAt cell)

/-- Behind cells of other rows and columns, the pass of the loop decides a cell
as it would be decided together with them. -/
theorem decideCell_decideTogether (built : sch.Built) {row col : Nat}
    (rowBound : row < sch.numPorts) (colBound : col < sch.numPorts)
    (free : Free cells (cellAt sch.numPorts row col)) :
    decideCell row (decideTogether cells sch) col =
      some (decideTogether (cells ++ [cellAt sch.numPorts row col]) sch) := by
  cases cell : cellAt sch.numPorts row col with
  | mk i j =>
      rw [cell] at free
      have pass := decideCell_eq (built.decideTogether cells) rowBound colBound cell
      have grant : arbiterCellGrant ((decideTogether cells sch).requests i j)
          ((decideTogether cells sch).rowMask i) ((decideTogether cells sch).colMask j) =
          sch.grantAt (i, j) := grantAt_decideTogether free
      have together : decideTogether (cells ++ [(i, j)]) sch =
          { decideTogether cells sch with
            grants := (decideTogether (cells ++ [(i, j)]) sch).grants
            rowMask := (decideTogether (cells ++ [(i, j)]) sch).rowMask
            colMask := (decideTogether (cells ++ [(i, j)]) sch).colMask } := rfl
      rw [pass, grant, together, grants_concat, rowMask_concat, colMask_concat]
      split_ifs <;> rfl

/-- The inner loop decides its diagonal at once. -/
theorem decideRow_eq (built : sch.Built) {row : Nat} (rowBound : row < sch.numPorts) :
    decideRow sch row = some (sch.decideDiagonal row) := by
  rw [decideDiagonal, diagonal]
  obtain ⟨final, looped, rfl⟩ : ∃ final, decideRow sch row = some final ∧
      final = decideTogether ((List.range sch.numPorts).map (cellAt sch.numPorts row)) sch := by
    rw [decideRow]
    apply foldlM_induction fun cols state =>
      state = decideTogether (cols.map (cellAt sch.numPorts row)) sch
    · rw [List.map_nil, decideTogether_nil]
    · rintro done col rest state split rfl
      have colBound : col < sch.numPorts := by
        rw [← List.mem_range, split]
        simp
      refine ⟨_, decideCell_decideTogether built rowBound colBound ?_, by
        rw [List.map_append, List.map_singleton]⟩
      have isMatching := diagonal_isMatching rowBound
      rw [diagonal, split, List.map_append, List.map_cons] at isMatching
      constructor
      · have rows := isMatching.inputs_nodup
        rw [List.map_append, List.map_cons] at rows
        exact fun old => rows.disjoint old List.mem_cons_self
      · have cols := isMatching.outputs_nodup
        rw [List.map_append, List.map_cons] at cols
        exact fun old => cols.disjoint old List.mem_cons_self
  exact looped

theorem decideRows_eq (built : sch.Built) {first count : Nat}
    (within : first + count ≤ sch.numPorts) :
    decideRows first count sch = some ((List.range' first count).foldl decideDiagonal sch) := by
  induction count generalizing first sch with
  | zero => rfl
  | succ count ih =>
      have builtNext : (sch.decideDiagonal first).Built := built.decideTogether _
      have withinNext : first + 1 + count ≤ (sch.decideDiagonal first).numPorts :=
        (show first + 1 + count ≤ sch.numPorts by omega)
      have rest := ih builtNext withinNext
      rw [decideRows, List.range'_succ, List.foldlM_cons, decideRow_eq built (by omega),
        List.foldl_cons]
      exact rest

theorem foldl_decideDiagonal_frame (rows : List Nat) (sch : DpaScheduler) :
    (rows.foldl decideDiagonal sch).ptr = sch.ptr ∧
      (rows.foldl decideDiagonal sch).numPorts = sch.numPorts ∧
      (rows.foldl decideDiagonal sch).dpaMap = sch.dpaMap := by
  induction rows generalizing sch with
  | nil => exact ⟨rfl, rfl, rfl⟩
  | cons row rows ih => exact ih (sch.decideDiagonal row)

/-- The diagonals in order from the pointer, with wrap-around. -/
theorem rowsFrom_eq_map {n ptr : Nat} (ptrBound : ptr < n) :
    rowsFrom n ptr = (List.range n).map fun t => (ptr + t) % n := by
  have parts : n = n - ptr + (n - (n - ptr)) := by omega
  have before : (List.range' 0 (n - ptr)).map (fun t => (ptr + t) % n) =
      List.range' ptr (n - ptr) := by
    rw [List.range'_eq_map_range (n := n - ptr) (s := ptr), ← List.range_eq_range']
    refine List.map_congr_left fun t member => Nat.mod_eq_of_lt ?_
    have bound := List.mem_range.mp member
    omega
  have after : (List.range' (n - ptr) (n - (n - ptr))).map (fun t => (ptr + t) % n) =
      List.range' 0 (n - (n - ptr)) := by
    rw [List.range'_eq_map_range, List.range'_eq_map_range, List.map_map]
    refine List.map_congr_left fun t member => ?_
    have bound := List.mem_range.mp member
    rw [Function.comp_apply, show ptr + (n - ptr + t) = n + t by omega, Nat.add_mod_left,
      Nat.mod_eq_of_lt (by omega), Nat.zero_add]
  have whole : List.range n =
      List.range' 0 (n - ptr) ++ List.range' (n - ptr) (n - (n - ptr)) := by
    have joined := List.range'_append_1 (s := 0) (m := n - ptr) (n := n - (n - ptr))
    rw [Nat.zero_add, ← parts] at joined
    rw [List.range_eq_range', joined]
  rw [rowsFrom, whole, List.map_append, before, after]

/-- An arbitration decides diagonal by diagonal, each at once. -/
theorem arbitration_eq_diagonals (built : sch.Built) :
    sch.arbitration = some
      { ((List.range sch.numPorts).map fun t => (sch.ptr + t) % sch.numPorts).foldl
          decideDiagonal sch.init with
        ptr := (sch.ptr + 1) % sch.numPorts } := by
  have ptrBound := built.ptr_lt
  have builtInit : sch.init.Built := ⟨built.ptr_lt, built.dpaMap_eq⟩
  rcases foldl_decideDiagonal_frame (List.range' sch.ptr (sch.numPorts - sch.ptr)) sch.init with
    ⟨ptr, numPorts, dpaMap⟩
  have builtMiddle : ((List.range' sch.ptr (sch.numPorts - sch.ptr)).foldl decideDiagonal
      sch.init).Built := by
    constructor
    · rw [ptr, numPorts]
      exact ptrBound
    · rw [dpaMap, numPorts]
      exact built.dpaMap_eq
  have firstWithin : sch.ptr + (sch.numPorts - sch.ptr) ≤ sch.init.numPorts :=
    (show sch.ptr + (sch.numPorts - sch.ptr) ≤ sch.numPorts by omega)
  have secondWithin : 0 + (sch.numPorts - (sch.numPorts - sch.ptr)) ≤ sch.init.numPorts :=
    (show 0 + (sch.numPorts - (sch.numPorts - sch.ptr)) ≤ sch.numPorts by omega)
  rw [← numPorts] at secondWithin
  have firstLoop := decideRows_eq builtInit firstWithin
  have secondLoop := decideRows_eq builtMiddle secondWithin
  rcases foldl_decideDiagonal_frame (rowsFrom sch.numPorts sch.ptr) sch.init with
    ⟨ptr', numPorts', -⟩
  rw [rowsFrom, List.foldl_append] at ptr' numPorts'
  rw [← rowsFrom_eq_map ptrBound, rowsFrom, List.foldl_append]
  generalize (List.range' 0 (sch.numPorts - (sch.numPorts - sch.ptr))).foldl decideDiagonal
    ((List.range' sch.ptr (sch.numPorts - sch.ptr)).foldl decideDiagonal sch.init) = final
    at secondLoop ptr' numPorts' ⊢
  have turned : (final.ptr + 1) % final.numPorts = (sch.ptr + 1) % sch.numPorts := by
    rw [ptr', numPorts']
    rfl
  rw [← turned]
  simp only [arbitration, firstLoop, secondLoop, Option.bind_eq_bind, Option.bind_some]

end Together

/-- The wavefront is independent of the order inside its diagonals: the loops
decide the cells of `visits`, which are all cells once each, the cells of an outer step lie in distinct rows and
columns, and the arbitration is that of the `n` diagonals in order from the
pointer, each decided at once by the masks that stand when it begins. -/
theorem arbitration_diagonals {inputPort outputPort ptr : Nat}
    (ports : 1 ≤ max inputPort outputPort) (ptrBound : ptr < max inputPort outputPort)
    (requests grants : Nat → Nat → Int) {sch : DpaScheduler}
    (reached : sch = { new inputPort outputPort with
      ptr := ptr, requests := requests, grants := grants }) :
    (sch.visits.Nodup ∧ ∀ cell, cell ∈ sch.visits ↔
      ∃ i, i < sch.numPorts ∧ ∃ j, j < sch.numPorts ∧ cell = some ((i : Int), (j : Int))) ∧
    (∀ row, row < sch.numPorts → ∀ col, col < sch.numPorts → ∀ col', col' < sch.numPorts →
      col ≠ col' → ∀ cell cell', sch.visitedCell row col = some cell →
        sch.visitedCell row col' = some cell' → cell.1 ≠ cell'.1 ∧ cell.2 ≠ cell'.2) ∧
    sch.arbitration = (sch.visits.foldlM visit sch.init).map (fun current =>
      { current with ptr := (current.ptr + 1) % current.numPorts }) ∧
    sch.arbitration = some
      { ((List.range sch.numPorts).map fun t => (ptr + t) % sch.numPorts).foldl
          decideDiagonal sch.init with
        ptr := (ptr + 1) % sch.numPorts } := by
  have built : sch.Built := by
    rw [reached]
    exact ⟨ptrBound, (built_new ports).dpaMap_eq⟩
  have pointer : sch.ptr = ptr := by rw [reached]
  refine ⟨⟨visits_nodup built, mem_visits_iff built⟩, ?_, arbitration_eq_visits sch, ?_⟩
  · intro row rowBound col colBound col' colBound' different cell cell' visit visit'
    exact visitedCell_distinct built rowBound colBound colBound' different visit visit'
  · rw [arbitration_eq_diagonals built, pointer]

/-- Three ports from the second diagonal, with all requests set. -/
def secondDiagonal : DpaScheduler :=
  { new 3 3 with
    ptr := 1
    requests := fun _ _ => 1
    grants := fun _ _ => 0 }

theorem arbitration_diagonals_three_ports :
    secondDiagonal.visits.Nodup ∧
      secondDiagonal.arbitration = some
        { ((List.range 3).map fun t => (1 + t) % 3).foldl decideDiagonal secondDiagonal.init with
          ptr := 2 } := by
  have diagonals := arbitration_diagonals (show 1 ≤ max 3 3 by decide)
    (show 1 < max 3 3 by decide) (fun _ _ => 1) (fun _ _ => 0) (show secondDiagonal = _ from rfl)
  exact ⟨diagonals.1.1, diagonals.2.2.2⟩

end SystemcTlm.Dpa.DpaScheduler
