import SystemcTlm.BankedBuffer.Memory
import Mathlib.Data.List.Perm.Basic

/-!
# Chains of the packet buffer through a cycle

The queues say where a packet stands: it waits in `encode_que`, of which the
first is being written, or it is complete and waits in `decode_que`, or it is
being read in `decode_que_head`, or it is gone.  What has been written of it is
what has been released, followed by its chain.
-/

namespace SystemcTlm.BankedBuffer

open SystemcTlm.Container SystemcTlm.Loop

/-- The slices written so far of the packet at the front of `encode_que`. -/
def writing (b : B) : List Place :=
  match b.encodeQue with
  | [] => []
  | queueId :: _ => b.allocated queueId

/-- What has been written is what has been released and what is still there. -/
structure Ledger (b : B) (chain : Int → List Place) : Prop where
  balance : ∀ queueId, b.allocated queueId = b.released queueId ++ chain queueId
  nodup : ∀ queueId, (b.allocated queueId).Nodup

/-- Where the packets `known` so far stand, `heads` being those that are read. -/
structure Queues (known : List Int) (b : B) (heads : List Int) (chain : Int → List Place) :
    Prop where
  nodup : (b.encodeQue ++ b.decodeQue ++ heads).Nodup
  arrived : ∀ queueId, queueId ∈ b.encodeQue ++ b.decodeQue ++ heads → queueId ∈ known
  unread : ∀ queueId, queueId ∈ b.encodeQue → b.released queueId = []
  unwritten : ∀ queueId, queueId ∈ b.encodeQue.tail → b.allocated queueId = []
  unknown : ∀ queueId, queueId ∉ known → b.allocated queueId = []
  written : ∀ queueId, queueId ∈ known → queueId ∉ b.encodeQue →
    (b.allocated queueId).length = 16
  started : ∀ queueId, queueId ∈ b.decodeQue ∨ queueId ∈ heads → chain queueId ≠ []
  placed : ∀ queueId, chain queueId ≠ [] →
    b.encodeQue.head? = some queueId ∨ queueId ∈ b.decodeQue ∨ queueId ∈ heads
  progress : (writing b).length + b.writeSliceNum = 16
  unfinished : 0 < b.writeSliceNum
  last : LastOf b (writing b)
  writeCnt : b.writeCnt = 1

/-- What holds while `heads` are read. -/
structure Integrity (known : List Int) (b : B) (heads : List Int) (chain : Int → List Place) :
    Prop where
  memory : Memory b chain
  ledger : Ledger b chain
  queues : Queues known b heads chain

/-- What holds between the calls. -/
def Sound (known : List Int) (b : B) : Prop :=
  ∃ chain, Integrity known b b.decodeQueHead chain

variable {known heads : List Int} {b : B} {chain : Int → List Place}

theorem sound_new : Sound [] B.new := by
  refine ⟨fun _ => [], memory_new, ⟨fun _ => rfl, fun _ => List.nodup_nil⟩, ?_⟩
  constructor
  · exact List.nodup_nil
  · exact fun _ member => nomatch member
  · exact fun _ member => nomatch member
  · exact fun _ member => nomatch member
  · exact fun _ _ => rfl
  · exact fun _ member => nomatch member
  · exact fun _ member => (nomatch member)
  · exact fun _ nonempty => absurd rfl nonempty
  · rfl
  · decide
  · rfl
  · rfl

theorem Queues.not_mem_of_head (queues : Queues known b heads chain) {queueId : Int}
    (member : queueId ∈ heads) : queueId ∉ b.encodeQue ∧ queueId ∉ b.decodeQue := by
  have apart := queues.nodup.disjoint
  constructor
  · exact fun waits => apart (List.mem_append_left _ waits) member
  · exact fun waits => apart (List.mem_append_right _ waits) member

/-! ## The read side -/

theorem Integrity.setInfo (integrity : Integrity known b heads chain) {queueId : Int}
    {info info' : QueueInfo} (found : b.queueMap queueId = some info)
    (same : info'.place = info.place) :
    Integrity known (b.setInfo queueId info') heads chain := by
  rcases integrity with ⟨memory, ledger, queues⟩
  exact ⟨memory.setInfo found same, { ledger with }, { queues with }⟩

/-- A packet that is read loses the first slice of its chain.  It stays among
the heads if there is another. -/
theorem Integrity.release (integrity : Integrity known b heads chain) {queueId bankId sliceId : Int}
    {cells : List Place} (front : chain queueId = (bankId, sliceId) :: cells)
    (head : queueId ∈ heads) {heads' : List Int} (sublist : heads'.Sublist heads)
    (others : ∀ other, other ≠ queueId → other ∈ heads → other ∈ heads')
    (stays : queueId ∈ heads' ↔ cells ≠ []) :
    Integrity known (b.release queueId bankId sliceId).2 heads'
      (Function.update chain queueId cells) := by
  rcases integrity with ⟨memory, ledger, queues⟩
  have unqueued := queues.not_mem_of_head head
  have after := (memory.release front).1
  rcases release_eq queueId bankId sliceId b with ⟨queueMap, eq⟩
  rw [eq] at after ⊢
  refine ⟨after, ⟨fun other => ?_, ledger.nodup⟩, ?_⟩
  · dsimp only
    rw [ledger.balance]
    by_cases same : other = queueId
    · rw [same, Function.update_self, Function.update_self, front, List.append_assoc]
      rfl
    · rw [Function.update_of_ne same, Function.update_of_ne same]
  · have within : (b.encodeQue ++ b.decodeQue ++ heads').Sublist
        (b.encodeQue ++ b.decodeQue ++ heads) := sublist.append_left _
    exact {
      queues with
      nodup := queues.nodup.sublist within
      arrived := fun other member => queues.arrived other (within.subset member)
      unread := by
        intro other waits
        have different : other ≠ queueId := fun same => unqueued.1 (same ▸ waits)
        exact (Function.update_of_ne different _ _).trans (queues.unread other waits)
      started := by
        intro other place
        by_cases same : other = queueId
        · rw [same] at place ⊢
          rw [Function.update_self]
          exact stays.mp (place.resolve_left unqueued.2)
        · rw [Function.update_of_ne same]
          exact queues.started other (place.imp_right fun member => sublist.subset member)
      placed := by
        intro other nonempty
        by_cases same : other = queueId
        · rw [same, Function.update_self] at nonempty
          exact Or.inr (Or.inr (same ▸ stays.mpr nonempty))
        · rw [Function.update_of_ne same] at nonempty
          exact (queues.placed other nonempty).imp_right (Or.imp_right (others other same))
    }

theorem countDown_fst_eq_false_iff (count : Int) :
    (B.countDown count).1 = false ↔ 1 < count := by
  rw [B.countDown]
  split_ifs with positive
  · rw [decide_eq_false_iff_not]
    omega
  · simp only [false_iff]
    omega

/-- A head whose countdowns end reads its slice, unless its bank is being read. -/
theorem readQueue_cases {queueId : Int} {info : QueueInfo} (found : b.queueMap queueId = some info) :
    ∃ info' : QueueInfo, info'.place = info.place ∧
      ((b.readQueue queueId = (false, b.setInfo queueId info') ∧
          (info.delay ≤ 1 → info.counter ≤ 1 → b.readBankIdVec info.bankId = true)) ∨
        (b.readQueue queueId =
            (b.setInfo queueId info').release queueId info'.bankId info'.sliceId ∧
          info.delay ≤ 1 ∧ info.counter ≤ 1)) := by
  rw [B.readQueue, found]
  dsimp only
  split_ifs with waits counts conflict
  · rw [countDown_fst_eq_false_iff] at waits
    refine ⟨_, ?_, Or.inl ⟨rfl, fun ended => absurd waits (Int.not_lt.mpr ended)⟩⟩
    rfl
  · rw [countDown_fst_eq_false_iff] at counts
    refine ⟨_, ?_, Or.inl ⟨rfl, fun _ ended => absurd counts (Int.not_lt.mpr ended)⟩⟩
    rfl
  · refine ⟨_, ?_, Or.inl ⟨rfl, fun _ _ => conflict⟩⟩
    rfl
  · rw [countDown_fst_eq_false_iff, Int.not_lt] at waits counts
    refine ⟨_, ?_, Or.inr ⟨rfl, waits, counts⟩⟩
    rfl

/-- One pass over `decode_que_head`: `kept` has been passed, `rest` is to come. -/
theorem Integrity.readQueue {kept rest : List Int} {queueId : Int}
    (integrity : Integrity known b (kept ++ queueId :: rest) chain) :
    ∃ chain', Integrity known (b.readQueue queueId).2
      (if (b.readQueue queueId).1 = true then kept ++ rest else kept ++ queueId :: rest)
      chain' := by
  cases found : b.queueMap queueId with
  | none =>
      rw [B.readQueue, found]
      exact ⟨chain, integrity⟩
  | some info =>
      rcases readQueue_cases found with ⟨info', same, ⟨waits, -⟩ | ⟨releases, -⟩⟩
      · rw [waits]
        exact ⟨chain, integrity.setInfo found same⟩
      · have first := integrity.memory.starts queueId
        rw [found, Option.map_some, ← same] at first
        rcases List.head?_eq_some_iff.mp first.symm with ⟨cells, front⟩
        have counted := integrity.setInfo found same
        have erases := (counted.memory.release front).2
        have headsNodup := integrity.queues.nodup.of_append_right
        have notKept : queueId ∉ kept :=
          fun member => headsNodup.disjoint member List.mem_cons_self
        have notRest := (List.nodup_cons.mp headsNodup.of_append_right).1
        rw [releases]
        refine ⟨_, counted.release front ?_ ?_ ?_ ?_⟩
        · exact List.mem_append_right _ List.mem_cons_self
        · split_ifs
          · exact (List.sublist_cons_self queueId rest).append_left kept
          · exact List.Sublist.refl _
        · intro other different member
          split_ifs
          · rw [List.mem_append, List.mem_cons] at member
            rw [List.mem_append]
            exact member.imp_right fun later => later.resolve_left different
          · exact member
        · split_ifs with erased
          · have empty := erases.mp erased
            simp [notKept, notRest, empty]
          · have nonempty := mt erases.mpr erased
            simp [nonempty]

/-- The loop over `decode_que_head`. -/
theorem Integrity.foldl_readPass {rest : List Int} {loop : B.ReadLoop}
    (integrity : Integrity known loop.b (loop.kept ++ rest) chain) :
    ∃ chain', Integrity known (rest.foldl B.readPass loop).b (rest.foldl B.readPass loop).kept
      chain' := by
  induction rest generalizing loop chain with
  | nil =>
      rw [List.append_nil] at integrity
      exact ⟨chain, integrity⟩
  | cons queueId rest ih =>
      rcases integrity.readQueue with ⟨chain', passed⟩
      rw [List.foldl_cons]
      apply ih
      · rw [B.readPass]
        rcases outcome : loop.b.readQueue queueId with ⟨erased, after⟩
        rw [outcome] at passed
        cases erased with
        | true => exact passed
        | false =>
            dsimp only
            rw [List.append_assoc]
            exact passed

/-- The front of `decode_que` becomes a head. -/
theorem Sound.promote (sound : Sound known b) (wait : Int) : Sound known (b.promote wait) := by
  rcases sound with ⟨chain, integrity⟩
  rw [B.promote]
  split
  · exact ⟨chain, integrity⟩
  · next queueId rest front =>
      have queues := integrity.queues
      have started := queues.started queueId (Or.inl (front ▸ List.mem_cons_self))
      obtain ⟨info, found⟩ :=
        Option.isSome_iff_exists.mp ((integrity.memory.queueMap_isSome_iff queueId).mpr started)
      have places : (b.encodeQue ++ rest ++ (b.decodeQueHead ++ [queueId])).Perm
          (b.encodeQue ++ b.decodeQue ++ b.decodeQueHead) := by
        rw [front, List.perm_iff_count]
        intro other
        simp only [List.count_append, List.count_cons, List.count_nil]
        omega
      have moved : Integrity known
          { b with
            decodeQueHead := b.decodeQueHead ++ [queueId]
            decodeQue := rest } (b.decodeQueHead ++ [queueId]) chain := by
        refine ⟨{ integrity.memory with }, { integrity.ledger with }, ?_⟩
        have split : ∀ other, other ∈ rest ∨ other ∈ b.decodeQueHead ++ [queueId] ↔
            other ∈ b.decodeQue ∨ other ∈ b.decodeQueHead := by
          intro other
          rw [front, List.mem_append, List.mem_singleton, List.mem_cons]
          tauto
        exact {
          queues with
          nodup := places.nodup_iff.mpr queues.nodup
          arrived := fun other member => queues.arrived other (places.mem_iff.mp member)
          started := fun other place => queues.started other ((split other).mp place)
          placed := fun other nonempty =>
            (queues.placed other nonempty).imp_right (split other).mpr
        }
      have entry : b.queueInfo queueId = info := by
        rw [B.queueInfo, found]
        rfl
      rw [entry]
      exact ⟨chain, moved.setInfo found rfl⟩

theorem Sound.fillHeads (sound : Sound known b) (passes : Nat) (wait : Int) :
    Sound known (b.fillHeads passes wait) := by
  induction passes generalizing b wait with
  | zero => exact sound
  | succ passes ih =>
      rw [B.fillHeads]
      split_ifs
      · exact ih (sound.promote wait) (wait + 1)
      · exact sound

theorem Sound.fill (sound : Sound known b) : Sound known b.fill := by
  rw [B.fill]
  split_ifs
  · exact sound.fillHeads _ _
  · exact sound

theorem Sound.readSide (sound : Sound known b) : Sound known b.readSide := by
  rcases sound.fill with ⟨chain, filled⟩
  let before : B.ReadLoop := ⟨[], false, b.fill⟩
  have start : Integrity known before.b (before.kept ++ b.fill.decodeQueHead) chain := filled
  rcases start.foldl_readPass with ⟨chain', memory, ledger, queues⟩
  have read : Sound known { b.fill.readHeads.b with decodeQueHead := b.fill.readHeads.kept } := by
    exact ⟨chain', { memory with }, { ledger with }, { queues with }⟩
  rw [B.readSide]
  dsimp only
  split_ifs
  · exact read.promote _
  · exact read

/-! ## The write side -/

theorem selectBank_bounds (b : B) : 0 ≤ b.selectBank ∧ b.selectBank < bankNum := by
  apply forRange_induction fun _ (best : Int × Int) => 0 ≤ best.1 ∧ best.1 < bankNum
  · exact ⟨Int.le_refl 0, by decide⟩
  · intro i best bound kept
    rw [B.selectPass]
    split_ifs
    · exact kept
    · exact ⟨Int.natCast_nonneg i, Int.ofNat_lt.mpr bound⟩
    · exact kept

theorem freeSlice_spec {bankId : Int} {j : Nat} (found : b.freeSlice bankId = some j) :
    j < sliceNum ∧ (b.encodeVec (bankId, (j : Int))).valid = false := by
  refine ⟨List.mem_range.mp (List.mem_of_find?_eq_some found), ?_⟩
  simpa using List.find?_some found

theorem Ledger.allocate (ledger : Ledger b chain) {queueId bankId sliceId : Int}
    (fresh : (bankId, sliceId) ∉ b.allocated queueId) :
    Ledger (b.allocate queueId bankId sliceId)
      (Function.update chain queueId (chain queueId ++ [(bankId, sliceId)])) := by
  constructor
  · intro other
    by_cases same : other = queueId
    · rw [same, B.allocate]
      dsimp only
      rw [Function.update_self, Function.update_self, ledger.balance, List.append_assoc]
    · rw [B.allocate]
      dsimp only
      rw [Function.update_of_ne same, Function.update_of_ne same]
      exact ledger.balance other
  · intro other
    by_cases same : other = queueId
    · rw [same, B.allocate]
      dsimp only
      rw [Function.update_self]
      exact (ledger.nodup queueId).append (List.nodup_singleton _)
        (List.disjoint_singleton.mpr fresh)
    · rw [B.allocate]
      dsimp only
      rw [Function.update_of_ne same]
      exact ledger.nodup other

theorem writing_eq_nil (unbegun : ∀ queueId, queueId ∈ b.encodeQue → b.allocated queueId = []) :
    writing b = [] := by
  unfold writing
  split
  · rfl
  · next queueId rest front => exact unbegun queueId (front ▸ List.mem_cons_self)

theorem writing_of_cons {queueId : Int} {rest : List Int} (front : b.encodeQue = queueId :: rest) :
    writing b = b.allocated queueId := by
  rw [writing, front]

/-! The queues after a slice of the packet at the front of `encode_que`. -/

section WriteSlice

variable {queueId bankId sliceId : Int} {rest : List Int}

theorem allocated_allocate_self : (b.allocate queueId bankId sliceId).allocated queueId =
    b.allocated queueId ++ [(bankId, sliceId)] :=
  Function.update_self ..

theorem allocated_allocate_of_ne {other : Int} (different : other ≠ queueId) :
    (b.allocate queueId bankId sliceId).allocated other = b.allocated other :=
  Function.update_of_ne different _ _

theorem push_ne_nil_iff (chain : Int → List Place) (place : Place) (other : Int) :
    Function.update chain queueId (chain queueId ++ [place]) other ≠ [] ↔
      other = queueId ∨ chain other ≠ [] := by
  by_cases same : other = queueId
  · rw [same, Function.update_self]
    simp
  · rw [Function.update_of_ne same]
    exact (or_iff_right same).symm

variable (queues : Queues known b heads chain) (front : b.encodeQue = queueId :: rest)

include queues front

theorem Queues.front_not_mem : queueId ∉ rest := by
  have nodup := queues.nodup
  rw [front, List.append_assoc, List.cons_append] at nodup
  exact fun member => (List.nodup_cons.mp nodup).1 (List.mem_append_left _ member)

theorem Queues.front_known : queueId ∈ known := by
  apply queues.arrived
  rw [front]
  exact List.mem_cons_self

theorem Queues.unwritten_allocate {other : Int} (member : other ∈ rest) :
    (b.allocate queueId bankId sliceId).allocated other = [] := by
  have different : other ≠ queueId := fun same => queues.front_not_mem front (same ▸ member)
  rw [allocated_allocate_of_ne different]
  apply queues.unwritten
  rw [front]
  exact member

theorem Queues.unknown_allocate {other : Int} (member : other ∉ known) :
    (b.allocate queueId bankId sliceId).allocated other = [] := by
  have different : other ≠ queueId := fun same => member (same ▸ queues.front_known front)
  rw [allocated_allocate_of_ne different]
  exact queues.unknown other member

theorem Queues.written_allocate {other : Int} (member : other ∈ known)
    (different : other ≠ queueId) (outside : other ∉ rest) :
    ((b.allocate queueId bankId sliceId).allocated other).length = 16 := by
  rw [allocated_allocate_of_ne different]
  apply queues.written other member
  rw [front, List.mem_cons]
  exact fun inside => inside.elim different outside

theorem Queues.length_allocate :
    ((b.allocate queueId bankId sliceId).allocated queueId).length + (b.writeSliceNum - 1) =
      16 := by
  have progress := queues.progress
  rw [writing_of_cons front] at progress
  rw [allocated_allocate_self, List.length_append, List.length_singleton]
  omega

/-- A packet that is not complete stays at the front. -/
theorem Queues.nextSlice (more : ¬ b.writeSliceNum - 1 = 0) :
    Queues known { b.allocate queueId bankId sliceId with writeSliceNum := b.writeSliceNum - 1 }
      heads (Function.update chain queueId (chain queueId ++ [(bankId, sliceId)])) := by
  have unfinished := queues.unfinished
  have now : writing { b.allocate queueId bankId sliceId with
      writeSliceNum := b.writeSliceNum - 1 } =
      (b.allocate queueId bankId sliceId).allocated queueId := writing_of_cons front
  exact {
    queues with
    unwritten := by
      intro other member
      apply queues.unwritten_allocate front
      change other ∈ b.encodeQue.tail at member
      rwa [front] at member
    unknown := fun other member => queues.unknown_allocate front member
    written := by
      intro other member outside
      change other ∉ b.encodeQue at outside
      rw [front, List.mem_cons, not_or] at outside
      exact queues.written_allocate front member outside.1 outside.2
    started := fun other place =>
      (push_ne_nil_iff chain _ other).mpr (Or.inr (queues.started other place))
    placed := by
      intro other nonempty
      rcases (push_ne_nil_iff chain _ other).mp nonempty with rfl | before
      · exact Or.inl (congrArg List.head? front)
      · exact queues.placed other before
    progress := by
      rw [now]
      exact queues.length_allocate front
    unfinished := by
      dsimp only
      omega
    last := by
      rw [LastOf, now, allocated_allocate_self, List.getLast?_concat]
      rfl
  }

/-- A complete packet goes to `decode_que`. -/
theorem Queues.lastSlice (full : b.writeSliceNum - 1 = 0) :
    Queues known
      { b.allocate queueId bankId sliceId with
        writeSliceNum := 16
        encodeQue := rest
        decodeQue := b.decodeQue ++ [queueId]
        lastBankId := -1
        lastSliceId := -1 }
      heads (Function.update chain queueId (chain queueId ++ [(bankId, sliceId)])) := by
  have places : (rest ++ (b.decodeQue ++ [queueId]) ++ heads).Perm
      (b.encodeQue ++ b.decodeQue ++ heads) := by
    rw [front, List.perm_iff_count]
    intro other
    simp only [List.count_append, List.count_cons, List.count_nil]
    omega
  have begun : writing
      { b.allocate queueId bankId sliceId with
        writeSliceNum := 16
        encodeQue := rest
        decodeQue := b.decodeQue ++ [queueId]
        lastBankId := -1
        lastSliceId := -1 } = [] :=
    writing_eq_nil fun other member => queues.unwritten_allocate front member
  constructor
  · exact places.nodup_iff.mpr queues.nodup
  · exact fun other member => queues.arrived other (places.mem_iff.mp member)
  · intro other member
    apply queues.unread
    rw [front]
    exact List.mem_cons_of_mem queueId member
  · exact fun other member => queues.unwritten_allocate front (List.mem_of_mem_tail member)
  · exact fun other member => queues.unknown_allocate front member
  · intro other member outside
    by_cases same : other = queueId
    · have length : ((b.allocate queueId bankId sliceId).allocated queueId).length +
          (b.writeSliceNum - 1) = 16 := queues.length_allocate front
      rw [full, Int.add_zero] at length
      rw [same]
      exact Int.ofNat.inj length
    · exact queues.written_allocate front member same outside
  · intro other place
    rw [push_ne_nil_iff]
    by_cases same : other = queueId
    · exact Or.inl same
    · refine Or.inr (queues.started other (place.imp_left fun member => ?_))
      exact (List.mem_append.mp member).resolve_right (mt List.mem_singleton.mp same)
  · intro other nonempty
    right
    rcases (push_ne_nil_iff chain _ other).mp nonempty with rfl | before
    · exact Or.inl (List.mem_append_right _ List.mem_cons_self)
    · rcases queues.placed other before with head | place
      · rw [front] at head
        cases head
        exact Or.inl (List.mem_append_right _ List.mem_cons_self)
      · exact place.imp_left (List.mem_append_left _)
  · rw [begun]
    rfl
  · exact (by decide : (0 : Int) < 16)
  · rw [LastOf, begun]
    rfl
  · exact queues.writeCnt

theorem Queues.allocate :
    Queues known ((b.allocate queueId bankId sliceId).countSlice queueId) heads
      (Function.update chain queueId (chain queueId ++ [(bankId, sliceId)])) := by
  have tail : (b.allocate queueId bankId sliceId).encodeQue.tail = rest :=
    congrArg List.tail front
  rw [B.countSlice, tail]
  split_ifs with full
  · exact queues.lastSlice front full
  · exact queues.nextSlice front full

end WriteSlice

theorem Memory.countSlice (memory : Memory b chain) (queueId : Int) :
    Memory (b.countSlice queueId) chain := by
  rw [B.countSlice]
  split_ifs <;> exact { memory with }

theorem Ledger.countSlice (ledger : Ledger b chain) (queueId : Int) :
    Ledger (b.countSlice queueId) chain := by
  rw [B.countSlice]
  split_ifs <;> exact { ledger with }

theorem decodeQueHead_countSlice (queueId : Int) (b : B) :
    (b.countSlice queueId).decodeQueHead = b.decodeQueHead := by
  rw [B.countSlice]
  split_ifs <;> rfl

/-- `write_cnt` is 1 throughout: a slice is written in every cycle. -/
theorem writeSide_of_cons {queueId : Int} {rest : List Int} (writeCnt : b.writeCnt = 1)
    (front : b.encodeQue = queueId :: rest) : b.writeSide = b.writeSlice queueId := by
  have same : ({ b with writeCnt := 1 } : B) = b := by
    rw [← writeCnt]
  rw [B.writeSide, front]
  dsimp only
  rw [writeCnt, if_pos (by decide), if_pos (by decide), ← front, same]

/-- The chain of the packet being written is all that has been written of it. -/
theorem Integrity.front_chain (integrity : Integrity known b heads chain) {queueId : Int}
    {rest : List Int} (front : b.encodeQue = queueId :: rest) :
    b.allocated queueId = chain queueId ∧ LastOf b (chain queueId) := by
  have chained : b.allocated queueId = chain queueId := by
    rw [integrity.ledger.balance,
      integrity.queues.unread queueId (front ▸ List.mem_cons_self)]
    rfl
  have last := integrity.queues.last
  rw [writing_of_cons front, chained] at last
  exact ⟨chained, last⟩

/-- A slice is written into a bank that has a free one. -/
theorem Sound.writeSide (sound : Sound known b)
    (finds : b.encodeQue ≠ [] → (b.freeSlice b.selectBank).isSome = true) :
    Sound known b.writeSide := by
  rcases sound with ⟨chain, integrity⟩
  cases front : b.encodeQue with
  | nil =>
      rw [B.writeSide, front]
      exact ⟨chain, integrity⟩
  | cons queueId rest =>
      rcases integrity.front_chain front with ⟨chained, last⟩
      rcases integrity with ⟨memory, ledger, queues⟩
      rcases Option.isSome_iff_exists.mp (finds (front ▸ List.cons_ne_nil _ _)) with ⟨j, found⟩
      rcases freeSlice_spec found with ⟨sliceBound, free⟩
      rcases selectBank_bounds b with ⟨bankLow, bankHigh⟩
      have bounds : InBounds (b.selectBank, (j : Int)) :=
        ⟨bankLow, bankHigh, Int.natCast_nonneg j, Int.ofNat_lt.mpr sliceBound⟩
      have fresh : (b.selectBank, (j : Int)) ∉ b.allocated queueId := by
        rw [chained, memory.mem_iff, free]
        exact fun used => Bool.false_ne_true used.1
      have taken := memory.allocate last bounds free
      have logged := ledger.allocate fresh
      have queued : Queues known ((b.allocate queueId b.selectBank j).countSlice queueId)
          b.decodeQueHead
          (Function.update chain queueId (chain queueId ++ [(b.selectBank, (j : Int))])) :=
        queues.allocate front
      rw [writeSide_of_cons queues.writeCnt front, B.writeSlice, found]
      refine ⟨_, taken.countSlice queueId, logged.countSlice queueId, ?_⟩
      rw [decodeQueHead_countSlice]
      exact queued

end SystemcTlm.BankedBuffer
