import SystemcTlm.Dpa.DpaScheduler
import SystemcTlm.Matching.Greedy
import Mathlib.Data.List.Range
import Mathlib.Data.Nat.ModEq
import Mathlib.Tactic.Ring

/-!
# The wavefront

Row `row` of the outer loops visits the cells `((row + n - col) mod n, col)`, a
diagonal of the crossbar with one cell in every row and column.  The loops visit
the diagonals `ptr, …, n - 1, 0, …, ptr - 1` and so every cell once, and decide
it by the masks that the cells before it have left: the grants are the greedy
matching of the requests in this order.
-/

namespace SystemcTlm.Dpa.DpaScheduler

open SystemcTlm.Loop SystemcTlm.Matching SystemcTlm.Transition

/-! ## The table of the constructor -/

theorem fillRow_eq (k row : Nat) (num : Int) (map : Nat → Nat → Int) :
    forRange k (fillCell row) (num, map) =
      (num + k, fun r c => if r = row ∧ c < k then num + c else map r c) := by
  induction k with
  | zero => simp
  | succ k ih =>
      rw [forRange_succ, ih, fillCell, Prod.mk.injEq]
      constructor
      · push_cast
        ring
      · funext r c
        simp only [update₂_apply]
        by_cases last : r = row ∧ c = k
        · rw [if_pos last, if_pos ⟨last.1, by omega⟩, last.2]
        · rw [if_neg last]
          exact if_congr (by omega) rfl rfl

/-- The numbers are handed out row by row. -/
theorem fillRows_eq (n k : Nat) :
    forRange k (fun k => forRange n (fillCell (n - 1 + k))) (0, fun _ _ => 0) =
      (((k * n : Nat) : Int), fun r c =>
        if (n - 1 ≤ r ∧ r < n - 1 + k) ∧ c < n then (((r - (n - 1)) * n + c : Nat) : Int)
        else 0) := by
  induction k with
  | zero =>
      rw [forRange_zero, Prod.mk.injEq]
      constructor
      · simp
      · funext r c
        rw [if_neg (by omega)]
  | succ k ih =>
      rw [forRange_succ, ih, fillRow_eq, Prod.mk.injEq]
      constructor
      · push_cast
        ring
      · funext r c
        by_cases here : r = n - 1 + k ∧ c < n
        · have place : r - (n - 1) = k := by omega
          rw [if_pos here, if_pos ⟨by omega, here.2⟩, place]
          push_cast
          ring
        · rw [if_neg here]
          exact if_congr (by omega) rfl rfl

/-- The copied rows. -/
theorem copyRows_eq {n k : Nat} (within : k ≤ n - 1) (map : Nat → Nat → Int) :
    forRange k (fun row map => Function.update map row (map (row + n))) map =
      fun r => if r < k then map (r + n) else map r := by
  induction k with
  | zero => simp
  | succ k ih =>
      rw [forRange_succ, ih (by omega)]
      funext r
      simp only [Function.update_apply]
      by_cases last : r = k
      · rw [if_pos last, if_neg (by omega), if_pos (by omega), last]
      · rw [if_neg last]
        exact if_congr (by omega) rfl rfl

/-- Row `r` of the table holds the numbers of the matrix row `(r + 1) mod n`. -/
theorem constructMap_eq {n r c : Nat} (rBound : r < 2 * n - 1) (cBound : c < n) :
    constructMap n r c = (((r + 1) % n * n + c : Nat) : Int) := by
  have filled := fillRows_eq n n
  rw [constructMap, copyRows_eq le_rfl, fillMap, filled]
  dsimp only
  by_cases copied : r < n - 1
  · rw [if_pos copied, if_pos ⟨by omega, cBound⟩, Nat.mod_eq_of_lt (by omega)]
    congr 3
    omega
  · have wrapped : (r + 1) % n = r - (n - 1) := by
      rw [Nat.mod_eq_sub_mod (by omega), Nat.mod_eq_of_lt (by omega)]
      omega
    rw [if_neg copied, if_pos ⟨by omega, cBound⟩, wrapped]

/-! ## The cells -/

/-- The cell of diagonal `row` in column `col`. -/
def cellAt (n row col : Nat) : Nat × Nat :=
  ((row + n - col) % n, col)

/-- The cells of a wave, in the order of their visit. -/
def diagonal (n row : Nat) : List (Nat × Nat) :=
  (List.range n).map (cellAt n row)

/-- The diagonals in the order of the loops. -/
def rowsFrom (n ptr : Nat) : List Nat :=
  List.range' ptr (n - ptr) ++ List.range' 0 (n - (n - ptr))

/-- The cells in the order of the loops. -/
def wavefront (n ptr : Nat) : List (Nat × Nat) :=
  (rowsFrom n ptr).flatMap (diagonal n)

section Cells

variable {n ptr row row' col col' : Nat}

/-- The diagonal of a cell is the sum of its coordinates. -/
theorem row_eq_of_cellAt (rowBound : row < n) (colBound : col < n) :
    ((cellAt n row col).1 + col) % n = row := by
  rw [cellAt, Nat.mod_add_mod, Nat.sub_add_cancel (by omega), Nat.add_mod_right,
    Nat.mod_eq_of_lt rowBound]

theorem cellAt_inj (rowBound : row < n) (rowBound' : row' < n) (colBound : col < n)
    (same : cellAt n row col = cellAt n row' col') : row = row' ∧ col = col' := by
  have cols : col = col' := congrArg Prod.snd same
  subst cols
  have rows := row_eq_of_cellAt rowBound colBound
  rw [same, row_eq_of_cellAt rowBound' colBound] at rows
  exact ⟨rows.symm, rfl⟩

theorem cellAt_lt (colBound : col < n) {i j : Nat} (cell : cellAt n row col = (i, j)) :
    i < n ∧ j < n := by
  rw [cellAt, Prod.mk.injEq] at cell
  rcases cell with ⟨rfl, rfl⟩
  exact ⟨Nat.mod_lt _ (by omega), colBound⟩

/-- Every cell lies on the diagonal of its sum. -/
theorem cellAt_of_sum {i j : Nat} (iBound : i < n) (jBound : j < n) :
    cellAt n ((i + j) % n) j = (i, j) := by
  rw [cellAt, Prod.mk.injEq]
  refine ⟨?_, rfl⟩
  rcases Nat.lt_or_ge (i + j) n with less | wraps
  · rw [Nat.mod_eq_of_lt less, show i + j + n - j = i + n by omega, Nat.add_mod_right,
      Nat.mod_eq_of_lt iBound]
  · rw [Nat.mod_eq_sub_mod wraps, Nat.mod_eq_of_lt (a := i + j - n) (by omega),
      show i + j - n + n - j = i by omega, Nat.mod_eq_of_lt iBound]

/-- A diagonal has one cell in every row and every column. -/
theorem diagonal_isMatching (rowBound : row < n) : IsMatching (diagonal n row) := by
  constructor
  · rw [diagonal, List.map_map, List.nodup_map_iff_inj_on List.nodup_range]
    intro col member col' member' same
    have colBound := List.mem_range.mp member
    have colBound' := List.mem_range.mp member'
    have sums := row_eq_of_cellAt rowBound colBound
    have sums' := row_eq_of_cellAt rowBound colBound'
    have rows : (cellAt n row col).1 = (cellAt n row col').1 := same
    rw [rows] at sums
    exact Nat.ModEq.eq_of_lt_of_lt (Nat.ModEq.add_left_cancel' _ (sums.trans sums'.symm))
      colBound colBound'
  · have cols : (diagonal n row).map Prod.snd = List.range n := by
      rw [diagonal, List.map_map]
      exact List.map_id _
    rw [cols]
    exact List.nodup_range

theorem mem_rowsFrom_iff (ptrBound : ptr < n) : row ∈ rowsFrom n ptr ↔ row < n := by
  rw [rowsFrom, List.mem_append, List.mem_range'_1, List.mem_range'_1]
  omega

theorem rowsFrom_nodup (n ptr : Nat) : (rowsFrom n ptr).Nodup := by
  rw [rowsFrom, List.nodup_append]
  refine ⟨List.nodup_range', List.nodup_range', ?_⟩
  intro first early second late
  rw [List.mem_range'_1] at early late
  omega

theorem mem_wavefront_iff (ptrBound : ptr < n) {i j : Nat} :
    (i, j) ∈ wavefront n ptr ↔ i < n ∧ j < n := by
  rw [wavefront, List.mem_flatMap]
  constructor
  · rintro ⟨row, _, member⟩
    rcases List.mem_map.mp member with ⟨col, colMem, cell⟩
    exact cellAt_lt (List.mem_range.mp colMem) cell
  · rintro ⟨iBound, jBound⟩
    refine ⟨(i + j) % n, (mem_rowsFrom_iff ptrBound).mpr (Nat.mod_lt _ (by omega)), ?_⟩
    exact List.mem_map.mpr ⟨j, List.mem_range.mpr jBound, cellAt_of_sum iBound jBound⟩

/-- No cell is visited twice. -/
theorem wavefront_nodup (ptrBound : ptr < n) : (wavefront n ptr).Nodup := by
  rw [wavefront, List.nodup_flatMap]
  constructor
  · intro row member
    exact (diagonal_isMatching ((mem_rowsFrom_iff ptrBound).mp member)).nodup
  · apply (rowsFrom_nodup n ptr).pairwise_of_forall_ne
    intro row member row' member' different cell first second
    rcases List.mem_map.mp first with ⟨col, colMem, rfl⟩
    rcases List.mem_map.mp second with ⟨col', _, same⟩
    exact different (cellAt_inj ((mem_rowsFrom_iff ptrBound).mp member)
      ((mem_rowsFrom_iff ptrBound).mp member') (List.mem_range.mp colMem) same.symm).1

end Cells

/-! ## The decisions -/

/-- A pair is requested if its entry is not zero. -/
def requested (sch : DpaScheduler) (i j : Nat) : Bool :=
  decide (sch.requests i j ≠ 0)

/-- The state of an arbitration begun in `start` that has decided `cells`. -/
structure Decided (start : DpaScheduler) (cells : List (Nat × Nat)) (current : DpaScheduler) :
    Prop where
  ptr_eq : current.ptr = start.ptr
  numPorts_eq : current.numPorts = start.numPorts
  requests_eq : current.requests = start.requests
  dpaMap_eq : current.dpaMap = start.dpaMap
  schResult_eq : current.schResult = []
  rowMask_iff : ∀ i,
    current.rowMask i ≠ 0 ↔ i ∉ (greedy start.requested cells).map Prod.fst
  colMask_iff : ∀ j,
    current.colMask j ≠ 0 ↔ j ∉ (greedy start.requested cells).map Prod.snd
  grants_eq : ∀ i j, current.grants i j =
    if (i, j) ∈ cells then
      if (i, j) ∈ greedy start.requested cells then start.requests i j else 0
    else start.grants i j

/-- The constructor's table, and a pointer on a diagonal. -/
structure Built (sch : DpaScheduler) : Prop where
  ptr_lt : sch.ptr < sch.numPorts
  dpaMap_eq : sch.dpaMap = constructMap sch.numPorts

section Decisions

variable {start current sch : DpaScheduler} {cells : List (Nat × Nat)}

theorem decided_init (start : DpaScheduler) : Decided start [] start.init where
  ptr_eq := rfl
  numPorts_eq := rfl
  requests_eq := rfl
  dpaMap_eq := rfl
  schResult_eq := rfl
  rowMask_iff := by simp [init]
  colMask_iff := by simp [init]
  grants_eq := by simp [init]

/-- The table entry read for a cell. -/
theorem get_dpaMap (built : sch.Built) {row col : Nat} (rowBound : row < sch.numPorts)
    (colBound : col < sch.numPorts) {i j : Nat} (cell : cellAt sch.numPorts row col = (i, j)) :
    get₂ (2 * sch.numPorts - 1) sch.numPorts sch.dpaMap (row + sch.numPorts - 1 - col) col =
      some ((i * sch.numPorts + j : Nat) : Int) := by
  rw [cellAt, Prod.mk.injEq] at cell
  have place : (row + sch.numPorts - 1 - col : Int) =
      ((row + sch.numPorts - 1 - col : Nat) : Int) := by omega
  have inside : row + sch.numPorts - 1 - col < 2 * sch.numPorts - 1 := by omega
  rw [place, get₂_natCast inside colBound, built.dpaMap_eq, constructMap_eq inside colBound,
    show row + sch.numPorts - 1 - col + 1 = row + sch.numPorts - col by omega, cell.1, cell.2]

/-- The row of a number of the matrix. -/
theorem tdiv_index {n i j : Nat} (jBound : j < n) : ((i * n + j : Nat) : Int).tdiv n = i := by
  rw [← Int.ofNat_tdiv, Nat.add_comm, Nat.add_mul_div_right _ _ (by omega),
    Nat.div_eq_of_lt jBound, Nat.zero_add]

/-- The column of a number of the matrix. -/
theorem tmod_index {n i j : Nat} (jBound : j < n) : ((i * n + j : Nat) : Int).tmod n = j := by
  rw [← Int.ofNat_tmod, Nat.mul_add_mod_of_lt jBound]

/-- The accesses of a cell are in range, and it is decided by the masks. -/
theorem decideCell_eq (built : sch.Built) {row col : Nat} (rowBound : row < sch.numPorts)
    (colBound : col < sch.numPorts) {i j : Nat} (cell : cellAt sch.numPorts row col = (i, j)) :
    decideCell row sch col =
      if arbiterCellGrant (sch.requests i j) (sch.rowMask i) (sch.colMask j) ≠ 0 then
        some { sch with
          grants := update₂ sch.grants i j
            (arbiterCellGrant (sch.requests i j) (sch.rowMask i) (sch.colMask j))
          rowMask := Function.update sch.rowMask i 0
          colMask := Function.update sch.colMask j 0 }
      else
        some { sch with
          grants := update₂ sch.grants i j
            (arbiterCellGrant (sch.requests i j) (sch.rowMask i) (sch.colMask j)) } := by
  rcases cellAt_lt colBound cell with ⟨iBound, jBound⟩
  simp only [decideCell, get_dpaMap built rowBound colBound cell, tdiv_index jBound,
    tmod_index jBound,
    get₂_natCast iBound jBound, get₁_natCast iBound, get₁_natCast jBound,
    set₂_natCast iBound jBound, set₁_natCast iBound, set₁_natCast jBound, Option.bind_eq_bind,
    Option.bind_some]

/-- The masks grant what the greedy matching takes. -/
theorem Decided.grant_eq (decided : Decided start cells current) (i j : Nat) :
    arbiterCellGrant (current.requests i j) (current.rowMask i) (current.colMask j) =
      if start.requested i j = true ∧ Free (greedy start.requested cells) (i, j) then
        start.requests i j else 0 := by
  have masks : current.rowMask i ≠ 0 ∧ current.colMask j ≠ 0 ↔
      Free (greedy start.requested cells) (i, j) :=
    and_congr (decided.rowMask_iff i) (decided.colMask_iff j)
  rw [arbiterCellGrant, decided.requests_eq]
  by_cases asks : start.requests i j = 0
  · simp [asks]
  · apply if_congr _ rfl rfl
    rw [masks]
    simp [requested, asks]

theorem Decided.built (decided : Decided start cells current) (built : start.Built) :
    current.Built where
  ptr_lt := by
    rw [decided.ptr_eq, decided.numPorts_eq]
    exact built.ptr_lt
  dpaMap_eq := by
    rw [decided.dpaMap_eq, decided.numPorts_eq]
    exact built.dpaMap_eq

/-- The next cell is decided as the greedy matching decides it. -/
theorem Decided.decideCell (decided : Decided start cells current) (built : start.Built)
    {row col : Nat} (rowBound : row < start.numPorts) (colBound : col < start.numPorts)
    (fresh : cellAt start.numPorts row col ∉ cells) :
    ∃ next, DpaScheduler.decideCell row current col = some next ∧
      Decided start (cells ++ [cellAt start.numPorts row col]) next := by
  cases cell : cellAt start.numPorts row col with
  | mk i j =>
      rw [cell] at fresh
      rw [← decided.numPorts_eq] at rowBound colBound cell
      have step := decideCell_eq (decided.built built) rowBound colBound cell
      have old := decided.grants_eq
      rw [decided.grant_eq] at step
      by_cases taken : start.requested i j = true ∧ Free (greedy start.requested cells) (i, j)
      · have grown : greedy start.requested (cells ++ [(i, j)]) =
            greedy start.requested cells ++ [(i, j)] := by
          rw [greedy_concat, takeCell, if_pos taken]
        have asks : start.requests i j ≠ 0 := of_decide_eq_true taken.1
        rw [if_pos taken, if_pos asks] at step
        refine ⟨_, step, decided.ptr_eq, decided.numPorts_eq, decided.requests_eq,
          decided.dpaMap_eq, decided.schResult_eq, ?_, ?_, ?_⟩
        · intro i'
          rw [grown, List.map_append, List.mem_append, not_or, ← decided.rowMask_iff]
          by_cases here : i' = i <;> simp [here]
        · intro j'
          rw [grown, List.map_append, List.mem_append, not_or, ← decided.colMask_iff]
          by_cases here : j' = j <;> simp [here]
        · intro i' j'
          rw [grown]
          by_cases here : i' = i ∧ j' = j
          · rcases here with ⟨rfl, rfl⟩
            simp
          · simp [update₂_of_ne here, here, old]
      · have grown : greedy start.requested (cells ++ [(i, j)]) =
            greedy start.requested cells := by
          rw [greedy_concat, takeCell, if_neg taken]
        rw [if_neg taken, if_neg (by simp)] at step
        refine ⟨_, step, decided.ptr_eq, decided.numPorts_eq, decided.requests_eq,
          decided.dpaMap_eq, decided.schResult_eq, ?_, ?_, ?_⟩
        · rw [grown]
          exact decided.rowMask_iff
        · rw [grown]
          exact decided.colMask_iff
        · intro i' j'
          rw [grown]
          by_cases here : i' = i ∧ j' = j
          · rcases here with ⟨rfl, rfl⟩
            have untaken : (i', j') ∉ greedy start.requested cells :=
              fun member => fresh (mem_of_mem_greedy member).1
            simp [untaken]
          · simp [update₂_of_ne here, here, old]

/-- The next diagonal. -/
theorem Decided.decideRow (decided : Decided start cells current) (built : start.Built)
    {row : Nat} (rowBound : row < start.numPorts)
    (nodup : (cells ++ diagonal start.numPorts row).Nodup) :
    ∃ next, decideRow current row = some next ∧
      Decided start (cells ++ diagonal start.numPorts row) next := by
  rw [DpaScheduler.decideRow, decided.numPorts_eq]
  apply foldlM_induction fun cols state =>
    Decided start (cells ++ cols.map (cellAt start.numPorts row)) state
  · rw [List.map_nil, List.append_nil]
    exact decided
  · intro done col rest state split during
    have colBound : col < start.numPorts := by
      rw [← List.mem_range, split]
      simp
    rw [List.map_append, ← List.append_assoc]
    apply during.decideCell built rowBound colBound
    rw [diagonal, split, List.map_append, ← List.append_assoc, List.map_cons] at nodup
    exact fun old => nodup.disjoint old List.mem_cons_self

/-- The next passes of the outer loop. -/
theorem Decided.decideRows (decided : Decided start cells current) (built : start.Built)
    {first count : Nat} (within : first + count ≤ start.numPorts)
    (nodup : (cells ++ (List.range' first count).flatMap (diagonal start.numPorts)).Nodup) :
    ∃ next, decideRows first count current = some next ∧
      Decided start (cells ++ (List.range' first count).flatMap (diagonal start.numPorts))
        next := by
  apply foldlM_induction fun rows state =>
    Decided start (cells ++ rows.flatMap (diagonal start.numPorts)) state
  · rw [List.flatMap_nil, List.append_nil]
    exact decided
  · intro done row rest state split during
    have rowBound : row < start.numPorts := by
      have member : row ∈ List.range' first count := by
        rw [split]
        simp
      rw [List.mem_range'_1] at member
      omega
    rw [List.flatMap_append, ← List.append_assoc, List.flatMap_singleton]
    apply during.decideRow built rowBound
    rw [split, List.flatMap_append, List.flatMap_cons, ← List.append_assoc,
      ← List.append_assoc] at nodup
    exact nodup.of_append_left

/-- An arbitration leaves no vector, and decides every cell in the order of the
wavefront. -/
theorem arbitration_decides (built : sch.Built) :
    ∃ current, Decided sch (wavefront sch.numPorts sch.ptr) current ∧
      sch.arbitration = some { current with ptr := (sch.ptr + 1) % sch.numPorts } := by
  have ptrBound := built.ptr_lt
  have nodup := wavefront_nodup ptrBound
  rw [wavefront, rowsFrom, List.flatMap_append] at nodup
  obtain ⟨middle, firstLoop, decided⟩ := (decided_init sch).decideRows built
    (show sch.ptr + (sch.numPorts - sch.ptr) ≤ sch.numPorts by omega)
    (by rw [List.nil_append]; exact nodup.of_append_left)
  rw [List.nil_append] at decided
  obtain ⟨final, secondLoop, decided'⟩ := decided.decideRows built
    (show 0 + (sch.numPorts - (sch.numPorts - sch.ptr)) ≤ sch.numPorts by omega) nodup
  refine ⟨final, ?_, ?_⟩
  · rw [wavefront, rowsFrom, List.flatMap_append]
    exact decided'
  · simp only [arbitration, firstLoop, secondLoop, Option.bind_eq_bind, Option.bind_some,
      decided'.ptr_eq, decided'.numPorts_eq]

end Decisions

end SystemcTlm.Dpa.DpaScheduler
