import SystemcTlm.Loop.Range
import Mathlib.Data.List.Basic
import Mathlib.Tactic.SplitIfs

/-!
# Tables written by loops

A table is a function of its index.  `update₂` is the assignment
`table[row][col] = value`, and `flatIndex` the row-major position of an entry
in a table stored as one vector.  `writeAll` carries out a list of assignments,
`choiceMarks` marks the choice of every row, and `setMarks` sets the marked
entries of a flat table of flags; they are the closed forms of the loops that
write such tables.  The checked accesses fail outside the table.
-/

namespace SystemcTlm.Loop

universe u v

variable {α : Type u} {τ : Type v}

/-- The assignment `table[row][col] = value`. -/
def update₂ (table : Nat → Nat → τ) (row col : Nat) (value : τ) : Nat → Nat → τ :=
  fun i j => if i = row ∧ j = col then value else table i j

theorem update₂_apply (table : Nat → Nat → τ) (row col : Nat) (value : τ) (i j : Nat) :
    update₂ table row col value i j = if i = row ∧ j = col then value else table i j :=
  rfl

@[simp]
theorem update₂_self (table : Nat → Nat → τ) (row col : Nat) (value : τ) :
    update₂ table row col value row col = value := by
  simp [update₂]

theorem update₂_of_ne {table : Nat → Nat → τ} {row col : Nat} {value : τ} {i j : Nat}
    (other : ¬ (i = row ∧ j = col)) : update₂ table row col value i j = table i j :=
  if_neg other

/-! ## Checked accesses -/

/-- `vector[i]` of a vector with `n` entries. -/
def get₁ (n : Nat) (vector : Nat → τ) (i : Int) : Option τ :=
  if 0 ≤ i ∧ i < n then some (vector i.toNat) else none

/-- `vector[i] = value` in a vector with `n` entries. -/
def set₁ (n : Nat) (vector : Nat → τ) (i : Int) (value : τ) : Option (Nat → τ) :=
  if 0 ≤ i ∧ i < n then some (Function.update vector i.toNat value) else none

/-- `table[i][j]` of a table with `n` rows and `m` columns. -/
def get₂ (n m : Nat) (table : Nat → Nat → τ) (i j : Int) : Option τ :=
  if (0 ≤ i ∧ i < n) ∧ 0 ≤ j ∧ j < m then some (table i.toNat j.toNat) else none

/-- `table[i][j] = value` in a table with `n` rows and `m` columns. -/
def set₂ (n m : Nat) (table : Nat → Nat → τ) (i j : Int) (value : τ) :
    Option (Nat → Nat → τ) :=
  if (0 ≤ i ∧ i < n) ∧ 0 ≤ j ∧ j < m then some (update₂ table i.toNat j.toNat value) else none

section Checked

variable {n m i j : Nat} (iBound : i < n) (jBound : j < m)

include iBound

theorem get₁_natCast (vector : Nat → τ) : get₁ n vector i = some (vector i) := by
  rw [get₁, if_pos (by omega), Int.toNat_natCast]

theorem set₁_natCast (vector : Nat → τ) (value : τ) :
    set₁ n vector i value = some (Function.update vector i value) := by
  rw [set₁, if_pos (by omega), Int.toNat_natCast]

include jBound

theorem get₂_natCast (table : Nat → Nat → τ) : get₂ n m table i j = some (table i j) := by
  rw [get₂, if_pos (by omega), Int.toNat_natCast, Int.toNat_natCast]

theorem set₂_natCast (table : Nat → Nat → τ) (value : τ) :
    set₂ n m table i j value = some (update₂ table i j value) := by
  rw [set₂, if_pos (by omega), Int.toNat_natCast, Int.toNat_natCast]

end Checked

/-- Row-major position of `(row, col)` in a table with `width` columns. -/
def flatIndex (width row col : Nat) : Nat :=
  row * width + col

theorem flatIndex_inj {width row col row' col' : Nat} (bound : col < width)
    (bound' : col' < width) :
    flatIndex width row col = flatIndex width row' col' ↔ row = row' ∧ col = col' := by
  constructor
  · intro same
    have positive : 0 < width := by omega
    have rows : row = row' := by
      have := congrArg (· / width) same
      simpa [flatIndex, Nat.add_comm _ col, Nat.add_comm _ col', Nat.add_mul_div_right _ _ positive,
        Nat.div_eq_of_lt bound, Nat.div_eq_of_lt bound'] using this
    subst rows
    exact ⟨rfl, Nat.add_left_cancel same⟩
  · rintro ⟨rfl, rfl⟩
    rfl

theorem flatIndex_lt {height width row col : Nat} (rowBound : row < height)
    (colBound : col < width) : flatIndex width row col < height * width := by
  calc
    flatIndex width row col < row * width + width := Nat.add_lt_add_left colBound _
    _ = (row + 1) * width := (Nat.succ_mul row width).symm
    _ ≤ height * width := Nat.mul_le_mul_right width rowBound

theorem flatIndex_zero (width col : Nat) : flatIndex width 0 col = col := by
  simp [flatIndex]

/-! ## Lists of assignments -/

/-- `table[key(e)] = value(e)` for the entries, in order. -/
def writeAll (key : α → Nat) (value : α → τ) (entries : List α) (table : Nat → τ) : Nat → τ :=
  entries.foldl (fun current entry => Function.update current (key entry) (value entry)) table

@[simp]
theorem writeAll_nil (key : α → Nat) (value : α → τ) (table : Nat → τ) :
    writeAll key value [] table = table :=
  rfl

@[simp]
theorem writeAll_cons (key : α → Nat) (value : α → τ) (entry : α) (rest : List α)
    (table : Nat → τ) :
    writeAll key value (entry :: rest) table =
      writeAll key value rest (Function.update table (key entry) (value entry)) :=
  rfl

theorem writeAll_append (key : α → Nat) (value : α → τ) (first second : List α)
    (table : Nat → τ) :
    writeAll key value (first ++ second) table =
      writeAll key value second (writeAll key value first table) :=
  List.foldl_append

/-- An entry no assignment names stays. -/
theorem writeAll_of_not_mem {key : α → Nat} {value : α → τ} {entries : List α}
    {table : Nat → τ} {index : Nat} (absent : ∀ entry ∈ entries, key entry ≠ index) :
    writeAll key value entries table index = table index := by
  induction entries generalizing table with
  | nil => rfl
  | cons entry rest ih =>
      rw [writeAll_cons, ih fun other member => absent other (List.mem_cons_of_mem entry member),
        Function.update_of_ne (absent entry List.mem_cons_self).symm]

/-- With distinct keys every assignment is read back. -/
theorem writeAll_of_mem {key : α → Nat} {value : α → τ} {entries : List α} {table : Nat → τ}
    (distinct : (entries.map key).Nodup) {entry : α} (member : entry ∈ entries) :
    writeAll key value entries table (key entry) = value entry := by
  induction entries generalizing table with
  | nil => simp at member
  | cons first rest ih =>
      rw [List.map_cons, List.nodup_cons] at distinct
      rw [writeAll_cons]
      rcases List.mem_cons.mp member with rfl | later
      · rw [writeAll_of_not_mem, Function.update_self]
        exact fun other otherMem same =>
          distinct.1 (List.mem_map.mpr ⟨other, otherMem, same⟩)
      · exact ih distinct.2 later

/-- A property of the old entry and of every value written to it holds of the
new entry. -/
theorem writeAll_induction (P : τ → Prop) {key : α → Nat} {value : α → τ} {entries : List α}
    {table : Nat → τ} {index : Nat} (old : P (table index))
    (new : ∀ entry ∈ entries, key entry = index → P (value entry)) :
    P (writeAll key value entries table index) := by
  induction entries generalizing table with
  | nil => exact old
  | cons entry rest ih =>
      rw [writeAll_cons]
      refine ih ?_ fun other member => new other (List.mem_cons_of_mem entry member)
      by_cases here : index = key entry
      · rw [here, Function.update_self]
        exact new entry List.mem_cons_self here.symm
      · rwa [Function.update_of_ne here]

/-- Tables that agree at an entry agree there after the same assignments. -/
theorem writeAll_congr {key : α → Nat} {value : α → τ} {entries : List α}
    {first second : Nat → τ} {index : Nat} (agree : first index = second index) :
    writeAll key value entries first index = writeAll key value entries second index := by
  induction entries generalizing first second with
  | nil => exact agree
  | cons entry rest ih =>
      rw [writeAll_cons, writeAll_cons]
      apply ih
      rw [Function.update_apply, Function.update_apply, agree]

/-- Flags are only set. -/
theorem writeAll_true {key : α → Nat} {entries : List α} {table : Nat → Bool} (index : Nat) :
    writeAll key (fun _ => true) entries table index =
      (table index || decide (∃ entry ∈ entries, key entry = index)) := by
  induction entries generalizing table with
  | nil => simp
  | cons entry rest ih =>
      rw [writeAll_cons, ih]
      by_cases here : index = key entry
      · simp [here]
      · simp [Function.update_of_ne here, Ne.symm here]

theorem writeAll_true_mem {key : α → Nat} {entries : List α} {table : Nat → Bool} (index : Nat) :
    writeAll key (fun _ => true) entries table index =
      (table index || decide (index ∈ entries.map key)) := by
  rw [writeAll_true]
  congr 1
  rw [decide_eq_decide, List.mem_map]

/-- A counter that counts what a flag marks, after one more step of both. -/
theorem count_eq_flag {flag : Bool} {step : Prop} [Decidable step]
    (fresh : flag = true → ¬ step) :
    (if flag then (1 : Int) else 0) + ((if step then 1 else 0 : Nat) : Int) =
      if (flag || decide step) then 1 else 0 := by
  cases flag with
  | true => simp [fresh rfl]
  | false => by_cases now : step <;> simp [now]

/-! ## Choices -/

/-- The table in which each of the first `k` rows marks its choice. -/
def choiceMarks (choice : Nat → Option Nat) (k row col : Nat) : Int :=
  if row < k ∧ choice row = some col then 1 else 0

theorem choiceMarks_eq_one_iff {choice : Nat → Option Nat} {k row col : Nat} :
    choiceMarks choice k row col = 1 ↔ row < k ∧ choice row = some col := by
  unfold choiceMarks
  split_ifs with marked
  · simp [marked]
  · simp [marked]

@[simp]
theorem choiceMarks_zero (choice : Nat → Option Nat) : choiceMarks choice 0 = fun _ _ => 0 := by
  funext row col
  simp [choiceMarks]

theorem choiceMarks_succ_of_none {choice : Nat → Option Nat} {k : Nat}
    (nothing : choice k = none) : choiceMarks choice (k + 1) = choiceMarks choice k := by
  funext row col
  refine if_congr (and_congr_left fun chosen => ?_) rfl rfl
  have other : row ≠ k := by
    rintro rfl
    simp [nothing] at chosen
  omega

theorem choiceMarks_succ_of_some {choice : Nat → Option Nat} {k place : Nat}
    (chosen : choice k = some place) :
    choiceMarks choice (k + 1) = update₂ (choiceMarks choice k) k place 1 := by
  funext row col
  by_cases last : row = k
  · subst last
    simp [choiceMarks, update₂, chosen, eq_comm]
  · rw [update₂_of_ne fun same => last same.1]
    refine if_congr (and_congr_left fun _ => ?_) rfl rfl
    omega

/-- A loop whose pass `k` marks the choice of row `k` and writes entry `k` of a
second table, from what that entry held at the start. -/
theorem forRange_choices {σ : Type u} {τ : Type v}
    (put : (Nat → Nat → Int) → (Nat → τ) → σ) {n : Nat} {body : Nat → σ → σ}
    {choice : Nat → Option Nat} {start : Nat → τ} {next : Nat → τ}
    (pass : ∀ k marks table, k < n → table k = start k → body k (put marks table) =
      (choice k).elim (put marks table) fun place =>
        put (update₂ marks k place 1) (Function.update table k (next place))) :
    forRange n body (put (fun _ _ => 0) start) =
      put (choiceMarks choice n) fun k =>
        if k < n then (choice k).elim (start k) next else start k := by
  apply forRange_induction
    (fun k current => current = put (choiceMarks choice k) fun i =>
      if i < k then (choice i).elim (start i) next else start i) (by simp)
  rintro k _ bound rfl
  rw [pass k _ _ bound (if_neg (Nat.lt_irrefl k))]
  cases chosen : choice k with
  | none =>
      rw [choiceMarks_succ_of_none chosen]
      simp only [Option.elim_none]
      congr 1
      funext i
      by_cases here : i = k
      · simp [here, chosen]
      · simp [show i < k + 1 ↔ i < k by omega]
  | some place =>
      rw [choiceMarks_succ_of_some chosen]
      simp only [Option.elim_some]
      congr 1
      funext i
      by_cases here : i = k
      · simp [here, chosen]
      · rw [Function.update_of_ne here]
        simp [show i < k + 1 ↔ i < k by omega]

/-- A loop whose pass `k` writes entry `k` of a table. -/
theorem forRange_assign {σ : Type u} {τ : Type v} (put : (Nat → τ) → σ) {n : Nat}
    {body : Nat → σ → σ} {value : Nat → τ}
    (pass : ∀ k table, k < n → body k (put table) = put (Function.update table k (value k)))
    (table : Nat → τ) :
    forRange n body (put table) = put fun k => if k < n then value k else table k := by
  apply forRange_induction
    (fun l current => current = put fun k => if k < l then value k else table k) (by simp)
  rintro l _ bound rfl
  rw [pass l _ bound]
  congr 1
  funext k
  by_cases here : k = l
  · simp [here]
  · rw [Function.update_of_ne here]
    simp [show k < l + 1 ↔ k < l by omega]

/-! ## Marks -/

/-- The flat table of flags after `table[row * n + col] = true` for the marked
entries. -/
def setMarks (n : Nat) (mark : Nat → Nat → Bool) (table : Nat → Bool) : Nat → Bool :=
  fun index => table index ||
    decide (∃ row, row < n ∧ ∃ col, col < n ∧ flatIndex n row col = index ∧ mark row col = true)

theorem setMarks_flatIndex {n row col : Nat} (rowBound : row < n) (colBound : col < n)
    (mark : Nat → Nat → Bool) (table : Nat → Bool) :
    setMarks n mark table (flatIndex n row col) =
      (table (flatIndex n row col) || mark row col) := by
  unfold setMarks
  congr 1
  rw [Bool.eq_iff_iff, decide_eq_true_eq]
  constructor
  · rintro ⟨row', _, col', col'Bound, same, marked⟩
    rcases (flatIndex_inj col'Bound colBound).mp same with ⟨rfl, rfl⟩
    exact marked
  · exact fun marked => ⟨row, rowBound, col, colBound, rfl, marked⟩

/-- A loop each of whose passes sets flags, put together. -/
theorem forRange_flags {σ : Type u} (put : (Nat → Bool) → σ) {n : Nat} {body : Nat → σ → σ}
    {flags : Nat → Nat → Bool}
    (write : ∀ k table, k < n → body k (put table) = put fun index => table index || flags k index)
    (table : Nat → Bool) :
    forRange n body (put table) =
      put fun index => table index || decide (∃ k, k < n ∧ flags k index = true) := by
  apply forRange_induction
    (fun l current => current = put fun index => table index ||
      decide (∃ k, k < l ∧ flags k index = true)) (by simp)
  rintro l _ bound rfl
  rw [write l _ bound]
  congr 1
  funext index
  have split : (∃ k, k < l + 1 ∧ flags k index = true) ↔
      (∃ k, k < l ∧ flags k index = true) ∨ flags l index = true := by
    constructor
    · rintro ⟨k, less, flag⟩
      rcases Nat.lt_succ_iff_lt_or_eq.mp less with before | rfl
      · exact Or.inl ⟨k, before, flag⟩
      · exact Or.inr flag
    · rintro (⟨k, less, flag⟩ | flag)
      · exact ⟨k, Nat.lt_succ_of_lt less, flag⟩
      · exact ⟨l, l.lt_succ_self, flag⟩
  simp only [split, Bool.decide_or, Bool.decide_eq_true, Bool.or_assoc]

/-- The flat table after the marked entries of one row have been set. -/
def setRow (n row : Nat) (mark : Nat → Bool) (table : Nat → Bool) : Nat → Bool :=
  fun index => table index ||
    decide (∃ col, col < n ∧ flatIndex n row col = index ∧ mark col = true)

theorem setRow_none (n row : Nat) (table : Nat → Bool) :
    setRow n row (fun _ => false) table = table := by
  funext index
  simp [setRow]

/-- The inner loop: pass `col` writes one flag or nothing. -/
theorem forRange_setRow {σ : Type u} (put : (Nat → Bool) → σ) {n row : Nat}
    {body : Nat → σ → σ} {mark : Nat → Bool}
    (write : ∀ col table, col < n → body col (put table) =
      put (if mark col then Function.update table (flatIndex n row col) true else table))
    (table : Nat → Bool) :
    forRange n body (put table) = put (setRow n row mark table) := by
  have cell : ∀ col table, col < n → body col (put table) =
      put fun index => table index || (decide (flatIndex n row col = index) && mark col) := by
    intro col table bound
    rw [write col table bound]
    congr 1
    funext index
    by_cases marked : mark col = true
    · by_cases here : index = flatIndex n row col
      · simp [marked, here]
      · simp [marked, here, Ne.symm here]
    · simp [marked]
  rw [@forRange_flags _ put n body (fun col index =>
    decide (flatIndex n row col = index) && mark col) cell]
  simp only [Bool.and_eq_true, decide_eq_true_eq]
  rfl

/-- The outer loop: pass `row` sets the marks of its row. -/
theorem forRange_setMarks {σ : Type u} (put : (Nat → Bool) → σ) {n : Nat}
    {body : Nat → σ → σ} {mark : Nat → Nat → Bool}
    (write : ∀ row table, row < n → body row (put table) = put (setRow n row (mark row) table))
    (table : Nat → Bool) :
    forRange n body (put table) = put (setMarks n mark table) := by
  rw [@forRange_flags _ put n body (fun row index => decide (∃ col, col < n ∧
    flatIndex n row col = index ∧ mark row col = true)) write]
  simp only [decide_eq_true_eq]
  rfl

end SystemcTlm.Loop
