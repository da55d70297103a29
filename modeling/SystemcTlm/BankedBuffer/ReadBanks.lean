import SystemcTlm.BankedBuffer.Runs

/-!
# Banks that are read while they are written

`process` selects the bank of a slice after the reads of the cycle, and passes
over the banks that are read.  But it starts from bank 0, which stays selected
when it is read itself and bank 1 is read too or is full.
-/

namespace SystemcTlm.BankedBuffer

open SystemcTlm.Container SystemcTlm.Loop SystemcTlm.Transition

/-! ## The members outside the read side -/

/-- A head that is read changes its entry, the slices and the record of reads. -/
theorem readQueue_eq (queueId : Int) (b : B) :
    ∃ queueMap readBankIdVec encodeVec bankDeepVec released, (b.readQueue queueId).2 =
      { b with queueMap, readBankIdVec, encodeVec, bankDeepVec, released } := by
  cases found : b.queueMap queueId with
  | none =>
      rw [B.readQueue, found]
      exact ⟨_, _, _, _, _, rfl⟩
  | some info =>
      rcases readQueue_cases found with ⟨info', -, ⟨waits, -⟩ | ⟨releases, -⟩⟩
      · rw [waits]
        exact ⟨_, _, _, _, _, rfl⟩
      · rcases release_eq queueId info'.bankId info'.sliceId (b.setInfo queueId info') with
          ⟨queueMap, eq⟩
        rw [releases, eq]
        exact ⟨_, _, _, _, _, rfl⟩

theorem readPass_b (loop : B.ReadLoop) (queueId : Int) :
    (B.readPass loop queueId).b = (loop.b.readQueue queueId).2 := by
  rw [B.readPass]
  rcases loop.b.readQueue queueId with ⟨_ | _, after⟩ <;> rfl

theorem readPass_kept (loop : B.ReadLoop) (queueId : Int) :
    (B.readPass loop queueId).kept =
      loop.kept ++ if (loop.b.readQueue queueId).1 = true then [] else [queueId] := by
  rw [B.readPass]
  rcases loop.b.readQueue queueId with ⟨_ | _, after⟩
  · rfl
  · exact (List.append_nil _).symm

theorem foldl_readPass_eq (queueIds : List Int) (loop : B.ReadLoop) :
    (∃ queueMap readBankIdVec encodeVec bankDeepVec released,
      (queueIds.foldl B.readPass loop).b =
        { loop.b with queueMap, readBankIdVec, encodeVec, bankDeepVec, released }) ∧
    ∃ stays : List Int, stays.Sublist queueIds ∧
      (queueIds.foldl B.readPass loop).kept = loop.kept ++ stays := by
  induction queueIds generalizing loop with
  | nil => exact ⟨⟨_, _, _, _, _, rfl⟩, [], List.Sublist.refl _, (List.append_nil _).symm⟩
  | cons queueId rest ih =>
      rcases ih (B.readPass loop queueId) with
        ⟨⟨queueMap, readBankIdVec, encodeVec, bankDeepVec, released, later⟩, stays, sublist, kept⟩
      rcases readQueue_eq queueId loop.b with ⟨_, _, _, _, _, first⟩
      rw [List.foldl_cons]
      constructor
      · refine ⟨queueMap, readBankIdVec, encodeVec, bankDeepVec, released, ?_⟩
        rw [later, readPass_b, first]
      · rw [readPass_kept, List.append_assoc] at kept
        refine ⟨_, ?_, kept⟩
        split_ifs
        · exact sublist.cons queueId
        · exact sublist.cons_cons queueId

theorem promote_eq (wait : Int) (b : B) :
    ∃ queueMap decodeQue decodeQueHead, b.promote wait =
      { b with queueMap, decodeQue, decodeQueHead } := by
  rw [B.promote]
  split
  · exact ⟨_, _, _, rfl⟩
  · exact ⟨_, _, _, rfl⟩

theorem fillHeads_eq (passes : Nat) (wait : Int) (b : B) :
    ∃ queueMap decodeQue decodeQueHead, b.fillHeads passes wait =
      { b with queueMap, decodeQue, decodeQueHead } := by
  induction passes generalizing wait b with
  | zero => exact ⟨_, _, _, rfl⟩
  | succ passes ih =>
      rw [B.fillHeads]
      split_ifs
      · rcases promote_eq wait b with ⟨_, _, _, first⟩
        rcases ih (wait + 1) (b.promote wait) with ⟨queueMap, decodeQue, decodeQueHead, later⟩
        refine ⟨queueMap, decodeQue, decodeQueHead, ?_⟩
        rw [later, first]
      · exact ⟨_, _, _, rfl⟩

theorem fill_eq (b : B) :
    ∃ queueMap decodeQue decodeQueHead, b.fill =
      { b with queueMap, decodeQue, decodeQueHead } := by
  rw [B.fill]
  split_ifs
  · exact fillHeads_eq _ _ b
  · exact ⟨_, _, _, rfl⟩

/-- The read side takes nothing from `encode_que` and writes no slice.  The
heads it promotes at the end are read in a later cycle. -/
theorem readSide_eq (b : B) :
    ∃ queueMap decodeQue decodeQueHead, b.readSide =
      { b.fill.readHeads.b with queueMap, decodeQue, decodeQueHead } := by
  rw [B.readSide]
  dsimp only
  split_ifs
  · rcases promote_eq (4 - (b.fill.readHeads.kept.length + 1))
      { b.fill.readHeads.b with decodeQueHead := b.fill.readHeads.kept } with ⟨_, _, _, eq⟩
    rw [eq]
    exact ⟨_, _, _, rfl⟩
  · exact ⟨_, _, _, rfl⟩

theorem readSide_frame (b : B) : b.readSide.encodeQue = b.encodeQue ∧
    b.readSide.allocated = b.allocated ∧ b.readSide.writeCnt = b.writeCnt := by
  rcases readSide_eq b with ⟨_, _, _, promoted⟩
  rcases (foldl_readPass_eq b.fill.decodeQueHead ⟨[], false, b.fill⟩).1 with ⟨_, _, _, _, _, read⟩
  rcases fill_eq b with ⟨_, _, _, filled⟩
  rw [promoted, B.readHeads, read, filled]
  exact ⟨rfl, rfl, rfl⟩

/-! ## The packets in the queues -/

/-- The packets that are written, that wait, and that are read. -/
def queued (b : B) : List Int :=
  b.encodeQue ++ b.decodeQue ++ b.decodeQueHead

theorem promote_queued (wait : Int) (b : B) : (queued (b.promote wait)).Perm (queued b) := by
  rw [B.promote]
  split
  · exact List.Perm.refl _
  · next queueId rest front =>
      rw [queued, queued, front, List.perm_iff_count]
      intro other
      simp only [B.setInfo, List.count_append, List.count_cons, List.count_nil]
      omega

theorem fillHeads_queued (passes : Nat) (wait : Int) (b : B) :
    (queued (b.fillHeads passes wait)).Perm (queued b) := by
  induction passes generalizing wait b with
  | zero => exact List.Perm.refl _
  | succ passes ih =>
      rw [B.fillHeads]
      split_ifs
      · exact (ih (wait + 1) (b.promote wait)).trans (promote_queued wait b)
      · exact List.Perm.refl _

theorem fill_queued (b : B) : (queued b.fill).Perm (queued b) := by
  rw [B.fill]
  split_ifs
  · exact fillHeads_queued _ _ b
  · exact List.Perm.refl _

/-- A packet that is read to its end leaves the queues. -/
theorem readHeads_queued (b : B) :
    (queued { b.fill.readHeads.b with decodeQueHead := b.fill.readHeads.kept }).Subperm
      (queued b) := by
  rcases foldl_readPass_eq b.fill.decodeQueHead ⟨[], false, b.fill⟩ with
    ⟨⟨_, _, _, _, _, same⟩, stays, sublist, kept⟩
  rw [List.nil_append] at kept
  rw [B.readHeads, same, kept]
  exact (sublist.append_left _).subperm.trans (fill_queued b).subperm

theorem readSide_queued (b : B) : (queued b.readSide).Subperm (queued b) := by
  rw [B.readSide]
  dsimp only
  split_ifs
  · exact (promote_queued _ _).subperm.trans (readHeads_queued b)
  · exact readHeads_queued b

theorem nodup_of_subperm {queueIds queueIds' : List Int} (within : queueIds'.Subperm queueIds)
    (nodup : queueIds.Nodup) : queueIds'.Nodup := by
  rcases within with ⟨same, perm, sublist⟩
  exact perm.nodup_iff.mp (nodup.sublist sublist)

/-- A packet of which all slices are written moves on. -/
theorem countSlice_queued {queueId : Int} {rest : List Int} {b : B}
    (front : b.encodeQue = queueId :: rest) : (queued (b.countSlice queueId)).Perm (queued b) := by
  rw [B.countSlice]
  split_ifs
  · rw [queued, queued, front, List.perm_iff_count]
    intro other
    simp only [List.tail_cons, List.count_append, List.count_cons, List.count_nil]
    omega
  · exact List.Perm.refl _

theorem writeSide_queued (b : B) : (queued b.writeSide).Perm (queued b) := by
  rw [B.writeSide]
  split
  · exact List.Perm.refl _
  · next queueId rest front =>
      split_ifs
      · rw [B.writeSlice]
        split
        · exact countSlice_queued front
        · exact countSlice_queued front
      · exact List.Perm.refl _
      · exact List.Perm.refl _

theorem process_queued (b : B) : (queued b.process).Subperm (queued b) :=
  (writeSide_queued b.readSide).subperm.trans (readSide_queued b)

/-! ## Places -/

/-- The entries of `queue_map` and the links stay inside `encode_vec`. -/
structure Ranged (b : B) : Prop where
  entry : ∀ queueId info, b.queueMap queueId = some info → InBounds info.place
  link : ∀ place next, (b.encodeVec place).next = some next → InBounds next

variable {b : B}

theorem Ranged.setInfo (ranged : Ranged b) {queueId : Int} {info : QueueInfo}
    (inside : InBounds info.place) : Ranged (b.setInfo queueId info) where
  entry other info' found := by
    by_cases same : other = queueId
    · rw [B.setInfo, same] at found
      dsimp only at found
      rw [Function.update_self] at found
      cases found
      exact inside
    · rw [B.setInfo] at found
      dsimp only at found
      rw [Function.update_of_ne same] at found
      exact ranged.entry other info' found
  link := ranged.link

theorem Ranged.promote (ranged : Ranged b) (wait : Int) : Ranged (b.promote wait) := by
  have inside : ∀ queueId, InBounds (b.queueInfo queueId).place := by
    intro queueId
    rw [B.queueInfo]
    cases found : b.queueMap queueId with
    | none => exact ⟨by decide, by decide, by decide, by decide⟩
    | some info => exact ranged.entry queueId info found
  rw [B.promote]
  split
  · exact ranged
  · next queueId rest _ =>
      have moved : Ranged { b with
          decodeQueHead := b.decodeQueHead ++ [queueId]
          decodeQue := rest } := ⟨ranged.entry, ranged.link⟩
      exact moved.setInfo (inside queueId)

theorem Ranged.fillHeads (ranged : Ranged b) (passes : Nat) (wait : Int) :
    Ranged (b.fillHeads passes wait) := by
  induction passes generalizing b wait with
  | zero => exact ranged
  | succ passes ih =>
      rw [B.fillHeads]
      split_ifs
      · exact ih (ranged.promote wait) (wait + 1)
      · exact ranged

theorem Ranged.fill (ranged : Ranged b) : Ranged b.fill := by
  rw [B.fill]
  split_ifs
  · exact ranged.fillHeads _ _
  · exact ranged

theorem Ranged.release (ranged : Ranged b) (queueId bankId sliceId : Int) :
    Ranged (b.release queueId bankId sliceId).2 := by
  have link : ∀ place next,
      (Function.update b.encodeVec (bankId, sliceId) Slice.empty place).next = some next →
        InBounds next := by
    intro place next linked
    rw [Function.update_apply] at linked
    split_ifs at linked
    · cases linked
    · exact ranged.link place next linked
  rw [B.release]
  dsimp only
  split_ifs with last
  · refine ⟨fun other info found => ?_, link⟩
    dsimp only at found
    rw [Function.update_apply] at found
    split_ifs at found
    exact ranged.entry other info found
  · have freed : Ranged { b with
        readBankIdVec := Function.update b.readBankIdVec bankId true
        encodeVec := Function.update b.encodeVec (bankId, sliceId) Slice.empty
        bankDeepVec := Function.update b.bankDeepVec bankId (b.bankDeepVec bankId + 1)
        released :=
          Function.update b.released queueId (b.released queueId ++ [(bankId, sliceId)]) } :=
      ⟨ranged.entry, link⟩
    apply freed.setInfo
    apply ranged.link (bankId, sliceId)
    rw [Slice.next, if_neg last]
    rfl

/-! ## The reads of a cycle -/

/-- The countdowns of the queue end in this cycle, at a slice of the bank. -/
def Reads (b : B) (queueId bankId : Int) : Prop :=
  ∃ info, b.queueMap queueId = some info ∧ info.delay ≤ 1 ∧ info.counter ≤ 1 ∧
    info.bankId = bankId

/-- What the reads of the heads `passed` have made of the members. -/
structure AfterReads (before : B) (passed : List Int) (b : B) : Prop where
  bankRead : ∀ bankId, b.readBankIdVec bankId = true ↔
    ∃ queueId, queueId ∈ passed ∧ Reads before queueId bankId
  depth : ∀ bankId, b.readBankIdVec bankId = false →
    b.bankDeepVec bankId = before.bankDeepVec bankId
  freed : ∀ bankId, b.readBankIdVec bankId = true →
    ∃ j : Nat, j < sliceNum ∧ (b.encodeVec (bankId, (j : Int))).valid = false
  others : ∀ queueId, queueId ∉ passed → b.queueMap queueId = before.queueMap queueId
  ranged : Ranged b

variable {before : B} {passed : List Int} {queueId : Int}

theorem reads_concat_iff (bankId : Int) :
    (∃ other, other ∈ passed ++ [queueId] ∧ Reads before other bankId) ↔
      (∃ other, other ∈ passed ∧ Reads before other bankId) ∨ Reads before queueId bankId := by
  simp only [List.mem_append, List.mem_singleton, or_and_right, exists_or, exists_eq_left]

/-- A head that does not read, or from a bank that is being read. -/
theorem AfterReads.setInfo (after : AfterReads before passed b) {info : QueueInfo}
    (inside : InBounds info.place)
    (known : ∀ bankId, Reads before queueId bankId → b.readBankIdVec bankId = true) :
    AfterReads before (passed ++ [queueId]) (b.setInfo queueId info) where
  bankRead bankId := by
    rw [reads_concat_iff, ← after.bankRead]
    exact ⟨Or.inl, fun read => read.elim id (known bankId)⟩
  depth := after.depth
  freed := after.freed
  others other outside := by
    rw [List.mem_append, List.mem_singleton, not_or] at outside
    rw [← after.others other outside.1]
    exact Function.update_of_ne outside.2 _ _
  ranged := after.ranged.setInfo inside

theorem release_queueMap_of_ne {other : Int} (different : other ≠ queueId) (bankId sliceId : Int)
    (b : B) : (b.release queueId bankId sliceId).2.queueMap other = b.queueMap other := by
  rw [B.release]
  dsimp only
  split_ifs
  · exact Function.update_of_ne different _ _
  · exact Function.update_of_ne different _ _

/-- A head that reads frees a slice of its bank. -/
theorem AfterReads.release (after : AfterReads before passed b) {info : QueueInfo}
    (inside : InBounds info.place)
    (only : ∀ bankId, Reads before queueId bankId ↔ bankId = info.bankId) :
    AfterReads before (passed ++ [queueId])
      ((b.setInfo queueId info).release queueId info.bankId info.sliceId).2 := by
  have counted : Ranged (b.setInfo queueId info) := after.ranged.setInfo inside
  have ranged := counted.release queueId info.bankId info.sliceId
  have others : ∀ other, other ≠ queueId →
      ((b.setInfo queueId info).release queueId info.bankId info.sliceId).2.queueMap other =
        b.queueMap other := fun other different =>
    (release_queueMap_of_ne different _ _ _).trans (Function.update_of_ne different _ _)
  rcases release_eq queueId info.bankId info.sliceId (b.setInfo queueId info) with ⟨queueMap, eq⟩
  rw [eq] at ranged others ⊢
  constructor
  · intro bankId
    rw [reads_concat_iff, ← after.bankRead, only]
    dsimp only [B.setInfo]
    rw [Function.update_apply]
    split_ifs with same
    · exact iff_of_true rfl (Or.inr same)
    · exact (or_iff_left same).symm
  · intro bankId unread
    dsimp only [B.setInfo] at unread ⊢
    rw [Function.update_apply] at unread ⊢
    split_ifs at unread ⊢
    exact after.depth bankId unread
  · intro bankId read
    dsimp only [B.setInfo] at read ⊢
    rw [Function.update_apply] at read
    split_ifs at read with same
    · rcases inside with ⟨-, -, low, high⟩
      rcases Int.eq_ofNat_of_zero_le low with ⟨j, slice⟩
      dsimp only [QueueInfo.place] at high slice
      rw [slice] at high
      refine ⟨j, Int.ofNat_lt.mp high, ?_⟩
      rw [same, slice, Function.update_self]
      rfl
    · rcases after.freed bankId read with ⟨j, bound, free⟩
      refine ⟨j, bound, ?_⟩
      rw [Function.update_of_ne fun equal => same (Prod.mk.inj equal).1]
      exact free
  · intro other outside
    rw [List.mem_append, List.mem_singleton, not_or] at outside
    rw [others other outside.2]
    exact after.others other outside.1
  · exact ranged

/-- One pass of the loop, over a head that has not been passed. -/
theorem AfterReads.readQueue (after : AfterReads before passed b) (new : queueId ∉ passed) :
    AfterReads before (passed ++ [queueId]) (b.readQueue queueId).2 := by
  have entry := after.others queueId new
  cases found : b.queueMap queueId with
  | none =>
      rw [B.readQueue, found]
      exact {
        after with
        bankRead := by
          intro bankId
          rw [reads_concat_iff, ← after.bankRead, Reads, ← entry, found]
          simp
        others := fun other outside =>
          after.others other fun member => outside (List.mem_append_left _ member)
      }
  | some info =>
      have reads_iff : ∀ bankId, Reads before queueId bankId ↔
          info.delay ≤ 1 ∧ info.counter ≤ 1 ∧ info.bankId = bankId := by
        intro bankId
        rw [Reads, ← entry, found]
        simp
      rcases readQueue_cases found with ⟨info', same, ⟨waits, conflict⟩ | ⟨releases, ended⟩⟩
      · rw [waits]
        apply after.setInfo
        · rw [same]
          exact after.ranged.entry queueId info found
        · intro bankId read
          rcases (reads_iff bankId).mp read with ⟨delay, counter, rfl⟩
          exact conflict delay counter
      · rw [releases]
        apply after.release
        · rw [same]
          exact after.ranged.entry queueId info found
        · intro bankId
          rw [reads_iff, (Prod.mk.inj same).1]
          exact ⟨fun reads => reads.2.2.symm, fun same => ⟨ended.1, ended.2, same.symm⟩⟩

theorem AfterReads.foldl_readPass {rest : List Int} {loop : B.ReadLoop}
    (after : AfterReads before passed loop.b) (nodup : (passed ++ rest).Nodup) :
    AfterReads before (passed ++ rest) (rest.foldl B.readPass loop).b := by
  induction rest generalizing passed loop with
  | nil =>
      rw [List.append_nil]
      exact after
  | cons queueId rest ih =>
      have new : queueId ∉ passed := fun member => nodup.disjoint member List.mem_cons_self
      have step := after.readQueue new
      rw [← readPass_b] at step
      rw [List.append_cons] at nodup ⊢
      exact ih step nodup

/-! ## The banks read, from the state before the cycle -/

/-- The packet that `fill` makes a head first.  Its `delay` is 1, and ends in
the same cycle; those of the others do not. -/
def firstFilled (b : B) : Option Int :=
  if decodeLinkNum < b.decodeQue.length ∧ b.decodeQueHead.length < decodeLinkNum then
    b.decodeQue.head?
  else none

/-- A slice of the bank is read in the cycle that begins.  An entry that `fill`
has to make leads to bank 0 and is read at once. -/
def ReadsBank (b : B) (bankId : Int) : Prop :=
  (∃ queueId, queueId ∈ b.decodeQueHead ∧ Reads b queueId bankId) ∨
    ∃ queueId, firstFilled b = some queueId ∧
      (b.queueInfo queueId).counter ≤ 1 ∧ (b.queueInfo queueId).bankId = bankId

theorem promote_reads_iff {rest : List Int} (distinct : (queued b).Nodup)
    (front : b.decodeQue = queueId :: rest) (wait bankId : Int) :
    (∃ other, other ∈ (b.promote wait).decodeQueHead ∧ Reads (b.promote wait) other bankId) ↔
      (∃ other, other ∈ b.decodeQueHead ∧ Reads b other bankId) ∨
        wait ≤ 1 ∧ (b.queueInfo queueId).counter ≤ 1 ∧ (b.queueInfo queueId).bankId = bankId := by
  have notHead : queueId ∉ b.decodeQueHead := by
    have waits : queueId ∈ b.decodeQue := front ▸ List.mem_cons_self
    exact fun member => distinct.disjoint (List.mem_append_right _ waits) member
  have same : ∀ other, other ∈ b.decodeQueHead →
      (Reads (b.promote wait) other bankId ↔ Reads b other bankId) := by
    intro other member
    have different : other ≠ queueId := fun equal => notHead (equal ▸ member)
    have entry : (b.promote wait).queueMap other = b.queueMap other := by
      rw [B.promote, front]
      exact Function.update_of_ne different _ _
    rw [Reads, Reads, entry]
  have new : Reads (b.promote wait) queueId bankId ↔
      wait ≤ 1 ∧ (b.queueInfo queueId).counter ≤ 1 ∧ (b.queueInfo queueId).bankId = bankId := by
    rw [Reads, B.promote, front]
    simp [B.setInfo]
  have heads : (b.promote wait).decodeQueHead = b.decodeQueHead ++ [queueId] := by
    rw [B.promote, front]
    rfl
  rw [heads, reads_concat_iff, new]
  exact or_congr_left (exists_congr fun other => and_congr_right (same other))

/-- The heads added with a `delay` of 2 or more do not read yet. -/
theorem fillHeads_reads_iff (passes : Nat) {wait : Int} (later : 1 < wait)
    (distinct : (queued b).Nodup) (bankId : Int) :
    (∃ other, other ∈ (b.fillHeads passes wait).decodeQueHead ∧
        Reads (b.fillHeads passes wait) other bankId) ↔
      ∃ other, other ∈ b.decodeQueHead ∧ Reads b other bankId := by
  induction passes generalizing wait b with
  | zero => exact Iff.rfl
  | succ passes ih =>
      rw [B.fillHeads]
      split_ifs
      · have still : (queued (b.promote wait)).Nodup :=
          (promote_queued wait b).nodup_iff.mpr distinct
        rw [ih (by omega) still]
        cases front : b.decodeQue with
        | nil => rw [B.promote, front]
        | cons queueId rest =>
            rw [promote_reads_iff distinct front]
            exact or_iff_left fun reads => absurd reads.1 (Int.not_le.mpr later)
      · exact Iff.rfl

/-- `fill` acts if more than four packets wait for a free link. -/
theorem fill_eq_ite (b : B) :
    b.fill = if decodeLinkNum < b.decodeQue.length ∧ b.decodeQueHead.length < decodeLinkNum then
      (b.promote 1).fillHeads 3 2 else b := by
  have opened : b.fillHeads decodeLinkNum 1 =
      if b.decodeQueHead.length < decodeLinkNum then (b.promote 1).fillHeads 3 2 else b := rfl
  rw [B.fill, opened]
  split_ifs with long short both both short
  · rfl
  · exact absurd ⟨long.2, short⟩ both
  · exact absurd both.2 short
  · rfl
  · have waits := List.ne_nil_of_length_pos (Nat.zero_lt_of_lt short.1)
    exact absurd ⟨waits, short.1⟩ long
  · rfl

theorem fill_reads_iff (distinct : (queued b).Nodup) (bankId : Int) :
    (∃ other, other ∈ b.fill.decodeQueHead ∧ Reads b.fill other bankId) ↔
      ReadsBank b bankId := by
  rw [ReadsBank, firstFilled, fill_eq_ite]
  split_ifs with fills
  · have still : (queued (b.promote 1)).Nodup := (promote_queued 1 b).nodup_iff.mpr distinct
    rw [fillHeads_reads_iff 3 (by decide) still]
    cases front : b.decodeQue with
    | nil =>
        rw [front] at fills
        exact absurd fills.1 (Nat.not_lt_zero _)
    | cons queueId rest =>
        rw [promote_reads_iff distinct front]
        simp
  · simp

theorem AfterReads.start (ranged : Ranged b) (unread : ∀ bankId, b.readBankIdVec bankId = false) :
    AfterReads b [] b where
  bankRead bankId := by simp [unread bankId]
  depth _ _ := rfl
  freed bankId read := by
    rw [unread bankId] at read
    cases read
  others _ _ := rfl
  ranged := ranged

/-- What holds between the calls, whether or not the buffer is full. -/
structure Tidy (known : List Int) (b : B) : Prop where
  distinct : (queued b).Nodup
  arrived : ∀ queueId, queueId ∈ queued b → queueId ∈ known
  ranged : Ranged b
  unread : ∀ bankId, b.readBankIdVec bankId = false
  writeCnt : b.writeCnt = 1

variable {known : List Int}

theorem Tidy.afterReads (tidy : Tidy known b) :
    AfterReads b.fill b.fill.decodeQueHead b.fill.readHeads.b := by
  have unread : ∀ bankId, b.fill.readBankIdVec bankId = false := by
    rcases fill_eq b with ⟨_, _, _, eq⟩
    rw [eq]
    exact tidy.unread
  have nodup : b.fill.decodeQueHead.Nodup :=
    ((fill_queued b).nodup_iff.mpr tidy.distinct).of_append_right
  have start : AfterReads b.fill [] (B.ReadLoop.mk [] false b.fill).b :=
    AfterReads.start tidy.ranged.fill unread
  exact start.foldl_readPass nodup

/-- The banks read in the cycle, and what the reads leave for the write. -/
theorem Tidy.readSide (tidy : Tidy known b) :
    (∀ bankId, b.readSide.readBankIdVec bankId = true ↔ ReadsBank b bankId) ∧
    (∀ bankId, ¬ ReadsBank b bankId → b.readSide.bankDeepVec bankId = b.bankDeepVec bankId) ∧
    ∀ bankId, ReadsBank b bankId → (b.readSide.freeSlice bankId).isSome = true := by
  have after := tidy.afterReads
  have reads_iff : ∀ bankId, b.fill.readHeads.b.readBankIdVec bankId = true ↔
      ReadsBank b bankId := fun bankId =>
    (after.bankRead bankId).trans (fill_reads_iff tidy.distinct bankId)
  have depth : b.fill.bankDeepVec = b.bankDeepVec := by
    rcases fill_eq b with ⟨_, _, _, eq⟩
    rw [eq]
  rcases readSide_eq b with ⟨_, _, _, eq⟩
  rw [eq]
  refine ⟨reads_iff, fun bankId idle => ?_, fun bankId reads => ?_⟩
  · rw [← reads_iff, Bool.not_eq_true] at idle
    rw [← depth]
    exact after.depth bankId idle
  · rcases after.freed bankId ((reads_iff bankId).mpr reads) with ⟨j, bound, free⟩
    rw [B.freeSlice, List.find?_isSome]
    refine ⟨j, List.mem_range.mpr bound, ?_⟩
    rw [free]
    rfl

/-! ## The bank selected -/

/-- Bank 0 is selected unless bank 1 is free to write and deeper, or bank 0 is
read. -/
theorem selectBank_eq (b : B) : b.selectBank =
    if b.readBankIdVec 1 = false ∧ 0 < b.bankDeepVec 1 ∧
        (b.readBankIdVec 0 = true ∨ b.bankDeepVec 0 < b.bankDeepVec 1) then 1 else 0 := by
  have first : b.selectPass 0 (0, 0) =
      (0, if b.readBankIdVec 0 = true then 0
        else if 0 < b.bankDeepVec 0 then b.bankDeepVec 0 else 0) := by
    rw [B.selectPass, Int.ofNat_zero]
    split_ifs <;> rfl
  have second : b.selectBank = (b.selectPass 1 (b.selectPass 0 (0, 0))).1 := rfl
  rw [second, first, B.selectPass, Int.ofNat_one]
  cases b.readBankIdVec 1 with
  | true => rfl
  | false =>
      cases b.readBankIdVec 0 with
      | true => simp [apply_ite Prod.fst]
      | false =>
          simp only [Bool.false_eq_true, if_false, true_and, false_or, apply_ite Prod.fst]
          split_ifs <;> omega

theorem readBankIdVec_selectBank_iff (b : B) : b.readBankIdVec b.selectBank = true ↔
    b.readBankIdVec 0 = true ∧ (b.readBankIdVec 1 = true ∨ b.bankDeepVec 1 ≤ 0) := by
  rw [selectBank_eq]
  split_ifs with free
  · simp [free.1, free.2.1]
  · cases second : b.readBankIdVec 1 with
    | true => simp
    | false =>
        simp only [second, true_and] at free
        constructor
        · intro read
          refine ⟨read, Or.inr (Int.not_lt.mp fun deep => free ⟨deep, Or.inl read⟩)⟩
        · exact fun read => read.1

/-- If a slice is written in the cycle that begins, its bank is not read in it. -/
def AvoidsReads (b : B) : Prop :=
  ∀ queueId place, b.process.allocated queueId = b.allocated queueId ++ [place] →
    b.readSide.readBankIdVec place.1 = false

/-- If a slice is to be written and bank 0 is read, then bank 1 is not read and
not full. -/
def LeavesBank (b : B) : Prop :=
  b.encodeQue ≠ [] → ReadsBank b 0 → ¬ ReadsBank b 1 ∧ 0 < b.bankDeepVec 1

theorem allocated_countSlice (queueId : Int) (b : B) :
    (b.countSlice queueId).allocated = b.allocated := by
  rw [B.countSlice]
  split_ifs <;> rfl

/-- The one slice that a cycle writes. -/
theorem allocated_process_iff (writeCnt : b.writeCnt = 1) (place : Place) :
    b.process.allocated queueId = b.allocated queueId ++ [place] ↔
      b.encodeQue.head? = some queueId ∧
        ∃ j : Nat, b.readSide.freeSlice b.readSide.selectBank = some j ∧
          place = (b.readSide.selectBank, (j : Int)) := by
  rcases readSide_frame b with ⟨encodeQue, allocated, sameCnt⟩
  have written : b.process.allocated = b.readSide.writeSide.allocated := rfl
  rw [written, ← encodeQue, ← allocated]
  cases front : b.readSide.encodeQue with
  | nil =>
      rw [B.writeSide, front]
      simp
  | cons first rest =>
      rw [writeSide_of_cons (sameCnt.trans writeCnt) front, B.writeSlice]
      cases b.readSide.freeSlice b.readSide.selectBank with
      | none => simp [allocated_countSlice]
      | some j =>
          by_cases equal : queueId = first
          · simp [allocated_countSlice, B.allocate, equal, eq_comm]
          · simp [allocated_countSlice, B.allocate, equal, Ne.symm equal]

/-- The bank selected is being read exactly if bank 0 is, and bank 1 is no
choice. -/
theorem Tidy.clash_iff (tidy : Tidy known b) :
    b.readSide.readBankIdVec b.readSide.selectBank = true ↔
      ReadsBank b 0 ∧ (ReadsBank b 1 ∨ b.bankDeepVec 1 ≤ 0) := by
  rcases tidy.readSide with ⟨reads_iff, depth, -⟩
  rw [readBankIdVec_selectBank_iff, reads_iff, reads_iff]
  apply and_congr_right'
  by_cases second : ReadsBank b 1
  · exact iff_of_true (Or.inl second) (Or.inl second)
  · rw [depth 1 second]

theorem Tidy.avoidsReads_iff (tidy : Tidy known b) : AvoidsReads b ↔ LeavesBank b := by
  constructor
  · intro avoids waits first
    by_contra unclear
    rw [not_and_or, not_not, Int.not_lt] at unclear
    have clash := tidy.clash_iff.mpr ⟨first, unclear⟩
    have selected : b.readSide.selectBank = 0 := by
      rw [selectBank_eq, if_neg]
      rintro ⟨unread, deep, -⟩
      rcases (readBankIdVec_selectBank_iff _).mp clash with ⟨-, read | full⟩
      · rw [unread] at read
        cases read
      · exact absurd deep (Int.not_lt.mpr full)
    -- The read has freed a slice of bank 0, so that the write finds one.
    have found := tidy.readSide.2.2 0 first
    rw [← selected, Option.isSome_iff_exists] at found
    rcases found with ⟨j, found⟩
    rcases List.exists_cons_of_ne_nil waits with ⟨queueId, rest, front⟩
    have avoided := avoids queueId (b.readSide.selectBank, (j : Int))
      ((allocated_process_iff tidy.writeCnt _).mpr ⟨congrArg List.head? front, j, found, rfl⟩)
    rw [clash] at avoided
    cases avoided
  · intro leaves queueId place written
    rcases (allocated_process_iff tidy.writeCnt place).mp written with ⟨front, j, -, rfl⟩
    by_contra clash
    rw [Bool.not_eq_false, tidy.clash_iff] at clash
    have waits : b.encodeQue ≠ [] := by
      intro empty
      rw [empty] at front
      cases front
    rcases leaves waits clash.1 with ⟨unread, deep⟩
    exact clash.2.elim unread (Int.not_le.mpr deep)

/-! ## Runs -/

theorem Ranged.allocate (ranged : Ranged b) (queueId : Int) {bankId sliceId : Int}
    (inside : InBounds (bankId, sliceId)) : Ranged (b.allocate queueId bankId sliceId) := by
  have taken : ∀ place next, (Function.update b.encodeVec (bankId, sliceId)
      ⟨true, bankId, sliceId, -1, -1, queueId⟩ place).next = some next → InBounds next := by
    intro place next linked
    rw [Function.update_apply] at linked
    split_ifs at linked
    · cases linked
    · exact ranged.link place next linked
  rw [B.allocate]
  constructor
  · intro other info found
    dsimp only at found
    split_ifs at found
    · rw [Function.update_apply] at found
      split_ifs at found
      · cases found
        exact inside
      · exact ranged.entry other info found
    · exact ranged.entry other info found
  · intro place next linked
    dsimp only at linked
    split_ifs at linked
    · rw [Function.update_apply] at linked
      split_ifs at linked
      · rw [Slice.next] at linked
        split_ifs at linked
        cases linked
        exact inside
      · exact taken place next linked
    · exact taken place next linked

theorem Ranged.countSlice (ranged : Ranged b) (queueId : Int) : Ranged (b.countSlice queueId) := by
  rw [B.countSlice]
  split_ifs
  · exact ⟨ranged.entry, ranged.link⟩
  · exact ⟨ranged.entry, ranged.link⟩

theorem Ranged.writeSlice (ranged : Ranged b) (queueId : Int) : Ranged (b.writeSlice queueId) := by
  rw [B.writeSlice]
  split
  · next j found =>
      rcases selectBank_bounds b with ⟨low, high⟩
      have inside : InBounds (b.selectBank, (j : Int)) :=
        ⟨low, high, Int.natCast_nonneg j, Int.ofNat_lt.mpr (freeSlice_spec found).1⟩
      exact (ranged.allocate queueId inside).countSlice queueId
  · exact ranged.countSlice queueId

theorem writeCnt_writeSlice (queueId : Int) (b : B) :
    (b.writeSlice queueId).writeCnt = b.writeCnt := by
  rw [B.writeSlice]
  split
  · rw [B.countSlice]
    split_ifs <;> rfl
  · rw [B.countSlice]
    split_ifs <;> rfl

theorem tidy_new : Tidy [] B.new where
  distinct := List.nodup_nil
  arrived _ member := nomatch member
  ranged := by
    constructor
    · exact fun _ _ found => nomatch found
    · exact fun _ _ linked => nomatch linked
  unread _ := rfl
  writeCnt := rfl

theorem Tidy.rangedReadSide (tidy : Tidy known b) : Ranged b.readSide := by
  have read : Ranged { b.fill.readHeads.b with decodeQueHead := b.fill.readHeads.kept } :=
    ⟨tidy.afterReads.ranged.entry, tidy.afterReads.ranged.link⟩
  rw [B.readSide]
  dsimp only
  split_ifs
  · exact read.promote _
  · exact read

theorem Tidy.process (tidy : Tidy known b) : Tidy known b.process := by
  have within := process_queued b
  have read := tidy.rangedReadSide
  have readCnt : b.readSide.writeCnt = 1 := (readSide_frame b).2.2.trans tidy.writeCnt
  have written : Ranged b.readSide.writeSide ∧ b.readSide.writeSide.writeCnt = 1 := by
    cases front : b.readSide.encodeQue with
    | nil =>
        rw [B.writeSide, front]
        exact ⟨read, readCnt⟩
    | cons queueId rest =>
        rw [writeSide_of_cons readCnt front, writeCnt_writeSlice]
        exact ⟨read.writeSlice queueId, readCnt⟩
  constructor
  · exact nodup_of_subperm within tidy.distinct
  · exact fun queueId member => tidy.arrived queueId (within.subset member)
  · exact ⟨written.1.entry, written.1.link⟩
  · exact fun _ => rfl
  · exact written.2

theorem Tidy.arrive (tidy : Tidy known b) (new : queueId ∉ known) :
    Tidy (known ++ [queueId]) { b with encodeQue := b.encodeQue ++ [queueId] } := by
  have places : (queued { b with encodeQue := b.encodeQue ++ [queueId] }).Perm
      (queueId :: queued b) := perm_arrive b.encodeQue b.decodeQue b.decodeQueHead queueId
  exact {
    tidy with
    distinct := by
      refine places.nodup_iff.mpr (List.nodup_cons.mpr ⟨?_, tidy.distinct⟩)
      exact fun member => new (tidy.arrived queueId member)
    arrived := by
      intro other member
      rcases List.mem_cons.mp (places.mem_iff.mp member) with rfl | earlier
      · exact List.mem_append_right _ List.mem_cons_self
      · exact List.mem_append_left _ (tidy.arrived other earlier)
    ranged := ⟨tidy.ranged.entry, tidy.ranged.link⟩
  }

theorem tidy_run {calls : List Call} (distinct : (arrivals calls).Nodup) :
    Tidy (arrivals calls) (run calls) := by
  apply run_invariant Tidy distinct tidy_new
  · exact fun before rest split tidy => tidy.process
  · exact fun known b queueId new tidy => tidy.arrive new

end SystemcTlm.BankedBuffer
