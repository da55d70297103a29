import SystemcTlm.BankedBuffer.Process

/-!
# The slices of the packet buffer

`encode_vec` is a pool of cells, and `queue_map` holds the first cell of each
chain.  Freeing the slice at the head of a queue pops its chain, taking a slice
for the packet being written pushes onto its chain, and the depths follow.
-/

namespace SystemcTlm.BankedBuffer

open SystemcTlm.Container SystemcTlm.Loop

/-- The slice that a slice is linked to, `-1` being none. -/
def Slice.next (slice : Slice) : Option Place :=
  if slice.nextBankId = -1 ∨ slice.nextSliceId = -1 then none
  else some (slice.nextBankId, slice.nextSliceId)

/-- The slices as cells. -/
def pool (encodeVec : Place → Slice) : Pool Place Int where
  used place := (encodeVec place).valid
  owner place := (encodeVec place).queueId
  next place := (encodeVec place).next

/-- The place lies inside `encode_vec`. -/
def InBounds (place : Place) : Prop :=
  0 ≤ place.1 ∧ place.1 < bankNum ∧ 0 ≤ place.2 ∧ place.2 < sliceNum

/-- The number of valid slices of a bank. -/
def validCount (encodeVec : Place → Slice) (bankId : Int) : Nat :=
  (List.range sliceNum).countP fun j : Nat => (encodeVec (bankId, (j : Int))).valid

/-- The valid slices form the chains, `queue_map` leads to the first slice of
each, and the depths count the others. -/
structure Memory (b : B) (chain : Int → List Place) : Prop where
  threaded : (pool b.encodeVec).Threaded chain
  inBounds : ∀ place, (b.encodeVec place).valid = true → InBounds place
  deep : ∀ bankId : Int, 0 ≤ bankId → bankId < bankNum →
    b.bankDeepVec bankId + validCount b.encodeVec bankId = sliceNum
  starts : ∀ queueId, (b.queueMap queueId).map QueueInfo.place = (chain queueId).head?

variable {b : B} {chain : Int → List Place}

theorem memory_new : Memory B.new fun _ => [] where
  threaded := by
    refine ⟨fun _ => trivial, fun _ => List.nodup_nil, fun _ _ => ?_⟩
    simp [pool, B.new, Slice.empty]
  inBounds _ valid := nomatch valid
  deep _ _ _ := by
    have empty : validCount B.new.encodeVec = fun _ => 0 := by
      funext bankId
      exact List.countP_eq_zero.mpr fun _ _ => Bool.false_ne_true
    rw [empty]
    exact Int.add_zero _
  starts _ := rfl

theorem Memory.mem_iff (memory : Memory b chain) (queueId : Int) (place : Place) :
    place ∈ chain queueId ↔
      (b.encodeVec place).valid = true ∧ (b.encodeVec place).queueId = queueId :=
  memory.threaded.mem_iff queueId place

theorem Memory.queueMap_isSome_iff (memory : Memory b chain) (queueId : Int) :
    (b.queueMap queueId).isSome = true ↔ chain queueId ≠ [] := by
  rw [← Option.isSome_map, memory.starts, List.isSome_head?]

/-- A slice is valid in the second memory only: the count of its bank is one
more, the others are the same. -/
theorem validCount_flip {first second : Place → Slice} {bankId sliceId : Int}
    (bounds : InBounds (bankId, sliceId)) (off : (first (bankId, sliceId)).valid = false)
    (on : (second (bankId, sliceId)).valid = true)
    (same : ∀ place, place ≠ (bankId, sliceId) → (second place).valid = (first place).valid)
    (bank : Int) :
    validCount second bank = validCount first bank + if bank = bankId then 1 else 0 := by
  unfold validCount
  split_ifs with here
  · rcases bounds with ⟨-, -, low, high⟩
    dsimp only at low high
    rcases Int.eq_ofNat_of_zero_le low with ⟨k, rfl⟩
    subst here
    apply countP_range_one_more (Int.ofNat_lt.mp high) off on
    intro j other
    exact same _ fun equal => other (Int.ofNat.inj (Prod.mk.inj equal).2)
  · rw [Nat.add_zero]
    apply List.countP_congr
    intro j _
    rw [same _ fun equal => here (Prod.mk.inj equal).1]

/-! ## Entries of `queue_map` -/

/-- An entry changes, but not the slice it leads to. -/
theorem Memory.setInfo (memory : Memory b chain) {queueId : Int} {info info' : QueueInfo}
    (found : b.queueMap queueId = some info) (same : info'.place = info.place) :
    Memory (b.setInfo queueId info') chain where
  threaded := memory.threaded
  inBounds := memory.inBounds
  deep := memory.deep
  starts other := by
    by_cases equal : other = queueId
    · rw [equal, ← memory.starts, found, B.setInfo]
      simp [same]
    · rw [← memory.starts, B.setInfo]
      simp [Function.update_of_ne equal]

/-! ## A slice is freed -/

/-- What `release` leaves alone, whether or not the queue is erased. -/
theorem release_eq (queueId bankId sliceId : Int) (b : B) :
    ∃ queueMap, (b.release queueId bankId sliceId).2 = { b with
      readBankIdVec := Function.update b.readBankIdVec bankId true
      encodeVec := Function.update b.encodeVec (bankId, sliceId) Slice.empty
      bankDeepVec := Function.update b.bankDeepVec bankId (b.bankDeepVec bankId + 1)
      released := Function.update b.released queueId (b.released queueId ++ [(bankId, sliceId)])
      queueMap } := by
  rw [B.release]
  dsimp only
  split_ifs
  · exact ⟨_, rfl⟩
  · exact ⟨_, rfl⟩

/-- The entry after `release` leads to the slice that was linked to the one
freed. -/
theorem release_queueMap (queueId bankId sliceId : Int) (b : B) (other : Int) :
    ((b.release queueId bankId sliceId).2.queueMap other).map QueueInfo.place =
      if other = queueId then (pool b.encodeVec).next (bankId, sliceId)
      else (b.queueMap other).map QueueInfo.place := by
  rw [B.release]
  dsimp only [pool, Slice.next]
  by_cases equal : other = queueId
  · rw [if_pos equal, equal]
    split_ifs <;> simp [B.setInfo, QueueInfo.place]
  · rw [if_neg equal]
    split_ifs <;> simp [B.setInfo, Function.update_of_ne equal]

theorem release_erases_iff (queueId bankId sliceId : Int) (b : B) :
    (b.release queueId bankId sliceId).1 = true ↔
      (pool b.encodeVec).next (bankId, sliceId) = none := by
  rw [B.release]
  dsimp only [pool, Slice.next]
  split_ifs <;> simp

/-- `release` pops the chain of the queue. -/
theorem Memory.release (memory : Memory b chain) {queueId bankId sliceId : Int}
    {rest : List Place} (front : chain queueId = (bankId, sliceId) :: rest) :
    Memory (b.release queueId bankId sliceId).2 (Function.update chain queueId rest) ∧
    ((b.release queueId bankId sliceId).1 = true ↔ rest = []) := by
  have threads := memory.threaded.threads queueId
  rw [front] at threads
  rcases (memory.mem_iff queueId (bankId, sliceId)).mp (front ▸ List.mem_cons_self) with ⟨valid, -⟩
  have bounds := memory.inBounds _ valid
  have starts := release_queueMap queueId bankId sliceId b
  have frees : ∀ place, place ≠ (bankId, sliceId) →
      Function.update b.encodeVec (bankId, sliceId) Slice.empty place = b.encodeVec place :=
    fun place other => Function.update_of_ne other _ _
  have freed : Function.update b.encodeVec (bankId, sliceId) Slice.empty (bankId, sliceId) =
      Slice.empty := Function.update_self ..
  constructor
  · rcases release_eq queueId bankId sliceId b with ⟨queueMap, eq⟩
    rw [eq] at starts ⊢
    constructor
    · apply memory.threaded.pop front
      · constructor
        · exact fun place other => congrArg Slice.valid (frees place other)
        · exact fun place other => congrArg Slice.queueId (frees place other)
      · exact congrArg Slice.valid freed
      · exact fun place other => congrArg Slice.next (frees place other)
    · intro place still
      by_cases same : place = (bankId, sliceId)
      · rwa [same]
      · dsimp only at still
        rw [frees place same] at still
        exact memory.inBounds place still
    · intro bank low high
      have deep := memory.deep bank low high
      have count := validCount_flip bounds (congrArg Slice.valid freed) valid
        (fun place other => congrArg Slice.valid (frees place other).symm) bank
      dsimp only
      rw [Function.update_apply]
      split_ifs at count ⊢ with same
      · subst same
        omega
      · omega
    · intro other
      rw [starts other]
      by_cases same : other = queueId
      · rw [if_pos same, same, Function.update_self]
        exact threads.1
      · rw [if_neg same, Function.update_of_ne same]
        exact memory.starts other
  · rw [release_erases_iff, threads.1, List.head?_eq_none_iff]

/-! ## A slice is taken -/

/-- `last_bank_id` and `last_slice_id` are the last slice of a chain, or `-1`
if it is empty. -/
def LastOf (b : B) (cells : List Place) : Prop :=
  (b.lastBankId, b.lastSliceId) = cells.getLast?.getD (-1, -1)

/-- The slices after `allocate`: the new one, the one before it in the chain,
and the others. -/
structure Allocated (b : B) (cells : List Place) (queueId : Int) (new : Place) (after : B) :
    Prop where
  taken : after.encodeVec new = ⟨true, new.1, new.2, -1, -1, queueId⟩
  linked : ∀ last, cells.getLast? = some last → after.encodeVec last =
    { b.encodeVec last with nextBankId := new.1, nextSliceId := new.2 }
  others : ∀ place, place ≠ new → cells.getLast? ≠ some place →
    after.encodeVec place = b.encodeVec place
  queueMap : after.queueMap =
    if cells = [] then Function.update b.queueMap queueId (some ⟨new.1, new.2, delay, 0⟩)
    else b.queueMap

theorem Allocated.slice_of_ne {cells : List Place} {queueId : Int} {new : Place} {after : B}
    (spec : Allocated b cells queueId new after) {place : Place} (other : place ≠ new) :
    ∃ bankId sliceId, after.encodeVec place =
      { b.encodeVec place with nextBankId := bankId, nextSliceId := sliceId } := by
  by_cases ends : cells.getLast? = some place
  · exact ⟨_, _, spec.linked place ends⟩
  · exact ⟨_, _, spec.others place other ends⟩

theorem Allocated.valid_of_ne {cells : List Place} {queueId : Int} {new : Place} {after : B}
    (spec : Allocated b cells queueId new after) {place : Place} (other : place ≠ new) :
    (after.encodeVec place).valid = (b.encodeVec place).valid := by
  rcases spec.slice_of_ne other with ⟨bankId, sliceId, slice⟩
  rw [slice]

theorem Allocated.queueId_of_ne {cells : List Place} {queueId : Int} {new : Place} {after : B}
    (spec : Allocated b cells queueId new after) {place : Place} (other : place ≠ new) :
    (after.encodeVec place).queueId = (b.encodeVec place).queueId := by
  rcases spec.slice_of_ne other with ⟨bankId, sliceId, slice⟩
  rw [slice]

theorem allocate_spec {cells : List Place} {queueId bankId sliceId : Int} (last : LastOf b cells)
    (inBounds : ∀ place, place ∈ cells → InBounds place)
    (fresh : (bankId, sliceId) ∉ cells) :
    Allocated b cells queueId (bankId, sliceId) (b.allocate queueId bankId sliceId) := by
  cases ends : cells.getLast? with
  | none =>
      have empty := List.getLast?_eq_none_iff.mp ends
      rw [LastOf, ends] at last
      rcases Prod.mk.inj last with ⟨bank, slice⟩
      constructor
      · simp [B.allocate, bank]
      · intro place found
        rw [ends] at found
        cases found
      · intro place other _
        simp [B.allocate, bank, Function.update_of_ne other]
      · simp [B.allocate, bank, slice, empty]
  | some end_ =>
      have member := List.mem_of_getLast? ends
      have nonempty : cells ≠ [] := List.ne_nil_of_mem member
      rcases inBounds end_ member with ⟨low, -, low', -⟩
      rw [LastOf, ends, Option.getD_some] at last
      have bank : b.lastBankId ≠ -1 := by
        rw [← last] at low
        dsimp only at low
        omega
      have slice : b.lastSliceId ≠ -1 := by
        rw [← last] at low'
        dsimp only at low'
        omega
      have apart : (bankId, sliceId) ≠ end_ := fun same => fresh (same ▸ member)
      constructor
      · simp [B.allocate, bank, slice, last, Function.update_of_ne apart]
      · intro place found
        rw [ends] at found
        cases found
        simp [B.allocate, bank, slice, last, Function.update_of_ne apart.symm]
      · intro place other notLast
        rw [ends] at notLast
        have different : place ≠ end_ := fun same => notLast (congrArg some same.symm)
        simp [B.allocate, bank, slice, last, Function.update_of_ne different,
          Function.update_of_ne other]
      · simp [B.allocate, bank, nonempty]

/-- `allocate` pushes onto the chain of the queue. -/
theorem Memory.allocate (memory : Memory b chain) {queueId bankId sliceId : Int}
    (last : LastOf b (chain queueId)) (bounds : InBounds (bankId, sliceId))
    (free : (b.encodeVec (bankId, sliceId)).valid = false) :
    Memory (b.allocate queueId bankId sliceId)
      (Function.update chain queueId (chain queueId ++ [(bankId, sliceId)])) := by
  have members : ∀ place, place ∈ chain queueId → (b.encodeVec place).valid = true :=
    fun place member => ((memory.mem_iff queueId place).mp member).1
  have fresh : (bankId, sliceId) ∉ chain queueId := by
    intro member
    rw [members _ member] at free
    cases free
  have spec : Allocated b (chain queueId) queueId (bankId, sliceId) _ :=
    allocate_spec last (fun place member => memory.inBounds place (members place member)) fresh
  constructor
  · apply memory.threaded.push free
    · exact ⟨fun place => spec.valid_of_ne, fun place => spec.queueId_of_ne⟩
    · exact congrArg Slice.valid spec.taken
    · exact congrArg Slice.queueId spec.taken
    · exact (congrArg Slice.next spec.taken).trans (if_pos (Or.inl rfl))
    · intro place ends
      refine (congrArg Slice.next (spec.linked place ends)).trans (if_neg ?_)
      rcases bounds with ⟨bankLow, -, sliceLow, -⟩
      dsimp only at bankLow sliceLow ⊢
      omega
    · exact fun place other ends => congrArg Slice.next (spec.others place other ends)
  · intro place valid
    by_cases same : place = (bankId, sliceId)
    · rwa [same]
    · rw [spec.valid_of_ne same] at valid
      exact memory.inBounds place valid
  · intro bank low high
    have deep := memory.deep bank low high
    have count := validCount_flip bounds free (congrArg Slice.valid spec.taken)
      (fun place => spec.valid_of_ne) bank
    have depth : (b.allocate queueId bankId sliceId).bankDeepVec bank =
        if bank = bankId then b.bankDeepVec bankId - 1 else b.bankDeepVec bank :=
      Function.update_apply ..
    rw [depth]
    split_ifs at count ⊢ with same
    · subst same
      omega
    · omega
  · intro other
    rw [spec.queueMap]
    by_cases same : other = queueId
    · rw [same, Function.update_self]
      split_ifs with empty
      · rw [Function.update_self, empty]
        rfl
      · rw [memory.starts]
        cases cells : chain queueId with
        | nil => exact absurd cells empty
        | cons first rest => rfl
    · rw [Function.update_of_ne same, ← memory.starts]
      split_ifs
      · rw [Function.update_of_ne same]
      · rfl

end SystemcTlm.BankedBuffer
