import SystemcTlm.BankedBuffer.ReadBanks
import Mathlib.Data.List.Forall2

/-!
# The packet buffer without its slices

Which slice of a bank is taken does not matter to the course of the buffer: the
reads and writes depend on the banks of the slices, the countdowns and the
depths.  `Banks` is the buffer with these alone, and its runs are runs of `B`.
-/

namespace SystemcTlm.BankedBuffer

open SystemcTlm.Container SystemcTlm.Transition

/-- A packet in the queues: the banks of the slices that are left, and the
countdowns of its `queue_info`. -/
structure Packet where
  banks : List Int
  counter : Int
  delay : Int
  deriving DecidableEq

/-- Whether the bank is read in this cycle, and how many of its slices are free. -/
structure Bank where
  read : Bool
  deep : Int
  deriving DecidableEq

/-- `B` without the slices and the ids. -/
structure Banks where
  /-- The length of `encode_que`. -/
  encoding : Nat
  /-- The banks of the packet that is being written. -/
  written : List Int
  decodeQue : List Packet
  decodeQueHead : List Packet
  bank0 : Bank
  bank1 : Bank
  deriving DecidableEq

namespace Banks

/-- Nothing has arrived and both banks are empty. -/
def new : Banks where
  encoding := 0
  written := []
  decodeQue := []
  decodeQueHead := []
  bank0 := ⟨false, sliceNum⟩
  bank1 := ⟨false, sliceNum⟩

/-- The bank with this id. -/
def bank (t : Banks) (bankId : Int) : Bank :=
  if bankId = 0 then t.bank0 else t.bank1

/-- The bank with this id is replaced. -/
def setBank (bankId : Int) (bank : Bank) (t : Banks) : Banks :=
  if bankId = 0 then { t with bank0 := bank } else { t with bank1 := bank }

/-- The front of `decode_que` becomes the last head. -/
def promote (wait : Int) (t : Banks) : Banks :=
  match t.decodeQue with
  | [] => t
  | packet :: rest =>
      { t with
        decodeQueHead := t.decodeQueHead ++ [{ packet with delay := wait }]
        decodeQue := rest }

/-- The loop that fills the heads. -/
def fillHeads : Nat → Int → Banks → Banks
  | 0, _, t => t
  | passes + 1, wait, t =>
      if t.decodeQueHead.length < decodeLinkNum then
        fillHeads passes (wait + 1) (t.promote wait)
      else t

/-- The heads are filled once more packets wait than there are links. -/
def fill (t : Banks) : Banks :=
  if decodeLinkNum < t.decodeQue.length then t.fillHeads decodeLinkNum 1 else t

/-- A head is read: what is left of its packet, if anything. -/
def readQueue (packet : Packet) (t : Banks) : Option Packet × Banks :=
  let waited := { packet with delay := (B.countDown packet.delay).2 }
  if (B.countDown packet.delay).1 = false then (some waited, t)
  else
    let counted := { waited with counter := (B.countDown packet.counter).2 }
    if (B.countDown packet.counter).1 = false then (some counted, t)
    else
      match packet.banks with
      | [] => (some counted, t)
      | bankId :: rest =>
          if (t.bank bankId).read = true then (some { counted with counter := 1 }, t)
          else
            (if rest = [] then none else some ⟨rest, delay, 0⟩,
              t.setBank bankId ⟨true, (t.bank bankId).deep + 1⟩)

/-- The loop over the heads: those that stay, `erase_flag`, and the banks. -/
structure ReadLoop where
  kept : List Packet
  eraseFlag : Bool
  t : Banks

/-- One pass of the loop. -/
def readPass (loop : ReadLoop) (packet : Packet) : ReadLoop :=
  match loop.t.readQueue packet with
  | (none, t) => ⟨loop.kept, true, t⟩
  | (some left, t) => ⟨loop.kept ++ [left], loop.eraseFlag, t⟩

/-- The loop over the heads. -/
def readHeads (t : Banks) : ReadLoop :=
  t.decodeQueHead.foldl readPass ⟨[], false, t⟩

/-- `process` up to the write side. -/
def readSide (t : Banks) : Banks :=
  let loop := t.fill.readHeads
  let read : Banks := { loop.t with decodeQueHead := loop.kept }
  if loop.eraseFlag = true ∧ read.decodeQue ≠ [] then
    read.promote (4 - (read.decodeQueHead.length + 1))
  else read

/-- The bank that the write side takes. -/
def selectBank (t : Banks) : Int :=
  if t.bank1.read = false ∧ 0 < t.bank1.deep ∧
      (t.bank0.read = true ∨ t.bank0.deep < t.bank1.deep) then 1 else 0

/-- The write side, undefined where the bank selected is full. -/
def writeSide (t : Banks) : Option Banks :=
  match t.encoding with
  | 0 => some t
  | rest + 1 =>
      let bankId := t.selectBank
      let bank := t.bank bankId
      if bank.deep ≤ 0 then none
      else
        let written := t.written ++ [bankId]
        let taken := t.setBank bankId { bank with deep := bank.deep - 1 }
        if written.length = 16 then
          some { taken with
            encoding := rest
            written := []
            decodeQue := t.decodeQue ++ [⟨written, delay, 0⟩] }
        else some { taken with written }

/-- A cycle, at the end of which no bank is read. -/
def process (t : Banks) : Option Banks :=
  t.readSide.writeSide.map fun t =>
    { t with bank0 := { t.bank0 with read := false }, bank1 := { t.bank1 with read := false } }

/-- A packet arrives to be encoded. -/
def rcvFrom (addr : Int) (t : Banks) : Banks :=
  if addr = 0x1000 then { t with encoding := t.encoding + 1 } else t

/-- One call on the banks. -/
def call : Call → Banks → Option Banks
  | .rcvFrom addr _, t => some (t.rcvFrom addr)
  | .process, t => t.process

end Banks

/-! ## The relation to `B` -/

/-- The packet is what is left of the queue: the banks of its chain, and the
countdowns of its entry. -/
structure Shows (queueMap : Int → Option QueueInfo) (chain : Int → List Place) (queueId : Int)
    (packet : Packet) : Prop where
  banks : (chain queueId).map Prod.fst = packet.banks
  info : ∃ info, queueMap queueId = some info ∧ info.counter = packet.counter ∧
    info.delay = packet.delay

/-- The flags and depths of the two banks. -/
def SameBanks (b : B) (t : Banks) : Prop :=
  ∀ bankId : Int, 0 ≤ bankId → bankId < bankNum →
    b.readBankIdVec bankId = (t.bank bankId).read ∧ b.bankDeepVec bankId = (t.bank bankId).deep

/-- What is shown of the queues outside `queueIds` still is. -/
def KeepsOthers (queueMap : Int → Option QueueInfo) (chain : Int → List Place)
    (queueIds : List Int) (queueMap' : Int → Option QueueInfo) (chain' : Int → List Place) :
    Prop :=
  ∀ queueId packet, queueId ∉ queueIds → Shows queueMap chain queueId packet →
    Shows queueMap' chain' queueId packet

variable {b : B} {queueMap queueMap' : Int → Option QueueInfo} {chain chain' : Int → List Place}
  {t : Banks} {queueId : Int} {packet : Packet}

theorem Shows.congr (shows : Shows queueMap chain queueId packet)
    (sameChain : chain' queueId = chain queueId)
    (sameInfo : queueMap' queueId = queueMap queueId) : Shows queueMap' chain' queueId packet where
  banks := by
    rw [sameChain]
    exact shows.banks
  info := by
    rw [sameInfo]
    exact shows.info

theorem KeepsOthers.forall₂ {queueIds others : List Int} {packets : List Packet}
    (keeps : KeepsOthers queueMap chain queueIds queueMap' chain')
    (apart : ∀ other, other ∈ others → other ∉ queueIds)
    (shows : List.Forall₂ (Shows queueMap chain) others packets) :
    List.Forall₂ (Shows queueMap' chain') others packets :=
  ((List.forall₂_and_left others packets).mpr ⟨apart, shows⟩).imp fun other packet here =>
    keeps other packet here.1 here.2

/-- What is shown of other queues than the one that changed. -/
theorem KeepsOthers.outside {others : List Int} {packets : List Packet}
    (keeps : KeepsOthers queueMap chain [queueId] queueMap' chain') (apart : queueId ∉ others)
    (shows : List.Forall₂ (Shows queueMap chain) others packets) :
    List.Forall₂ (Shows queueMap' chain') others packets := by
  apply keeps.forall₂ _ shows
  intro other member here
  exact apart (List.mem_singleton.mp here ▸ member)

theorem KeepsOthers.mono {queueIds more : List Int}
    (keeps : KeepsOthers queueMap chain queueIds queueMap' chain') (within : queueIds ⊆ more) :
    KeepsOthers queueMap chain more queueMap' chain' :=
  fun queueId packet outside => keeps queueId packet fun member => outside (within member)

theorem KeepsOthers.trans {queueIds : List Int} {queueMap'' : Int → Option QueueInfo}
    {chain'' : Int → List Place} (first : KeepsOthers queueMap chain queueIds queueMap' chain')
    (second : KeepsOthers queueMap' chain' queueIds queueMap'' chain'') :
    KeepsOthers queueMap chain queueIds queueMap'' chain'' :=
  fun queueId packet outside shows =>
    second queueId packet outside (first queueId packet outside shows)

theorem Memory.unique (memory : Memory b chain) (memory' : Memory b chain') : chain = chain' := by
  funext queueId
  apply (memory.threaded.threads queueId).unique (memory'.threaded.threads queueId)
  rw [← memory.starts, memory'.starts]

@[simp]
theorem Banks.bank_setBank {bankId other : Int} (low : 0 ≤ bankId) (high : bankId < bankNum)
    (low' : 0 ≤ other) (high' : other < bankNum) (bank : Bank) (t : Banks) :
    (t.setBank bankId bank).bank other = if other = bankId then bank else t.bank other := by
  have two : bankNum = 2 := rfl
  rw [Banks.setBank, Banks.bank, Banks.bank]
  split_ifs <;> first | rfl | omega

/-! ## The read side -/

/-- The entry of a packet that is shown, and its first slice. -/
theorem Shows.front (shows : Shows b.queueMap chain queueId packet) (memory : Memory b chain) :
    ∃ info cells, b.queueMap queueId = some info ∧ InBounds info.place ∧
      chain queueId = info.place :: cells ∧
      packet = ⟨info.bankId :: cells.map Prod.fst, info.counter, info.delay⟩ := by
  rcases shows.info with ⟨info, found, counter, delay⟩
  have first := memory.starts queueId
  rw [found] at first
  rcases List.head?_eq_some_iff.mp first.symm with ⟨cells, front⟩
  have member := (memory.mem_iff queueId info.place).mp (front ▸ List.mem_cons_self)
  have banks := shows.banks
  rw [front] at banks
  refine ⟨info, cells, found, memory.inBounds _ member.1, front, ?_⟩
  rw [counter, delay, ← show packet.banks = info.bankId :: cells.map Prod.fst from banks.symm]

/-- An entry changes its countdowns only. -/
theorem Shows.setInfo (shows : Shows b.queueMap chain queueId packet) (memory : Memory b chain)
    {info : QueueInfo} (found : b.queueMap queueId = some info) (counter wait : Int) :
    Memory (b.setInfo queueId { info with counter, delay := wait }) chain ∧
      KeepsOthers b.queueMap chain [queueId] (b.setInfo queueId { info with counter, delay := wait }).queueMap
        chain ∧
      Shows (b.setInfo queueId { info with counter, delay := wait }).queueMap chain queueId
        { packet with counter, delay := wait } := by
  refine ⟨memory.setInfo found rfl, fun other packet outside shows => ?_, shows.banks, ?_⟩
  · apply shows.congr rfl
    exact Function.update_of_ne (List.ne_of_not_mem_cons outside) _ _
  · exact ⟨_, Function.update_self .., rfl, rfl⟩

theorem release_entry {bankId sliceId : Int}
    (more : (b.release queueId bankId sliceId).1 = false) :
    ∃ info, (b.release queueId bankId sliceId).2.queueMap queueId = some info ∧
      info.counter = delay ∧ info.delay = 0 := by
  rw [B.release] at more ⊢
  dsimp only at more ⊢
  split_ifs at more ⊢
  exact ⟨_, Function.update_self .., rfl, rfl⟩

/-- A slice is read: the packet goes on with the next, and the bank is marked. -/
theorem release_shows (memory : Memory b chain) (banks : SameBanks b t) {bankId sliceId : Int}
    {cells : List Place} (front : chain queueId = (bankId, sliceId) :: cells)
    (low : 0 ≤ bankId) (high : bankId < bankNum) :
    ∃ chain', Memory (b.release queueId bankId sliceId).2 chain' ∧
      SameBanks (b.release queueId bankId sliceId).2
        (t.setBank bankId ⟨true, (t.bank bankId).deep + 1⟩) ∧
      KeepsOthers b.queueMap chain [queueId] (b.release queueId bankId sliceId).2.queueMap chain' ∧
      ((b.release queueId bankId sliceId).1 = true ↔ cells = []) ∧
      (cells ≠ [] → Shows (b.release queueId bankId sliceId).2.queueMap chain' queueId
        ⟨cells.map Prod.fst, delay, 0⟩) := by
  rcases memory.release front with ⟨memory', erases⟩
  refine ⟨_, memory', ?_, ?_, erases, ?_⟩
  · intro other low' high'
    rcases release_eq queueId bankId sliceId b with ⟨_, eq⟩
    rw [eq, Banks.bank_setBank low high low' high']
    dsimp only
    rw [Function.update_apply, Function.update_apply]
    split_ifs with same
    · rw [(banks bankId low high).2]
      exact ⟨rfl, rfl⟩
    · exact banks other low' high'
  · intro other packet outside shows
    have different : other ≠ queueId := List.ne_of_not_mem_cons outside
    apply shows.congr
    · exact Function.update_of_ne different _ _
    · exact release_queueMap_of_ne different _ _ _
  · intro more
    constructor
    · rw [Function.update_self]
    · exact release_entry (Bool.not_eq_true _ ▸ mt erases.mp more)

/-- A head is read, and what is left of it is shown. -/
theorem readQueue_shows (memory : Memory b chain) (banks : SameBanks b t)
    (shows : Shows b.queueMap chain queueId packet) :
    ∃ chain', Memory (b.readQueue queueId).2 chain' ∧
      SameBanks (b.readQueue queueId).2 (t.readQueue packet).2 ∧
      KeepsOthers b.queueMap chain [queueId] (b.readQueue queueId).2.queueMap chain' ∧
      (((b.readQueue queueId).1 = true ∧ (t.readQueue packet).1 = none) ∨
        ∃ left, (b.readQueue queueId).1 = false ∧ (t.readQueue packet).1 = some left ∧
          Shows (b.readQueue queueId).2.queueMap chain' queueId left) := by
  rcases shows.front memory with ⟨info, cells, found, inside, front, rfl⟩
  have low : 0 ≤ info.bankId := inside.1
  have high : info.bankId < bankNum := inside.2.1
  have waiting := shows.setInfo memory found
  rw [B.readQueue, found, Banks.readQueue]
  dsimp only
  rw [← (banks info.bankId low high).1]
  split_ifs with waits counts conflict last
  · rcases waiting _ _ with ⟨memory', keeps, left⟩
    exact ⟨chain, memory', banks, keeps, Or.inr ⟨_, rfl, rfl, left⟩⟩
  · rcases waiting _ _ with ⟨memory', keeps, left⟩
    exact ⟨chain, memory', banks, keeps, Or.inr ⟨_, rfl, rfl, left⟩⟩
  · rcases waiting _ _ with ⟨memory', keeps, left⟩
    exact ⟨chain, memory', banks, keeps, Or.inr ⟨_, rfl, rfl, left⟩⟩
  · rcases waiting (B.countDown info.counter).2 (B.countDown info.delay).2 with
      ⟨counted, kept, -⟩
    rcases release_shows counted banks front low high with
      ⟨chain', memory', marked, keeps, erases, -⟩
    exact ⟨chain', memory', marked, kept.trans keeps,
      Or.inl ⟨erases.mpr (List.map_eq_nil_iff.mp last), rfl⟩⟩
  · rcases waiting (B.countDown info.counter).2 (B.countDown info.delay).2 with
      ⟨counted, kept, -⟩
    rcases release_shows counted banks front low high with
      ⟨chain', memory', marked, keeps, erases, left⟩
    have more : cells ≠ [] := mt List.map_eq_nil_iff.mpr last
    exact ⟨chain', memory', marked, kept.trans keeps,
      Or.inr ⟨_, Bool.eq_false_iff.mpr (mt erases.mp more), rfl, left more⟩⟩

/-- What has been passed of the heads is shown as it is left. -/
structure ShowsLoop (loop : B.ReadLoop) (chain : Int → List Place) (read : Banks.ReadLoop) :
    Prop where
  memory : Memory loop.b chain
  banks : SameBanks loop.b read.t
  erase : loop.eraseFlag = read.eraseFlag
  kept : List.Forall₂ (Shows loop.b.queueMap chain) loop.kept read.kept

variable {loop : B.ReadLoop} {read : Banks.ReadLoop}

theorem ShowsLoop.readPass (shown : ShowsLoop loop chain read)
    (first : Shows loop.b.queueMap chain queueId packet) (new : queueId ∉ loop.kept) :
    ∃ chain', ShowsLoop (B.readPass loop queueId) chain' (Banks.readPass read packet) ∧
      KeepsOthers loop.b.queueMap chain [queueId] (B.readPass loop queueId).b.queueMap
        chain' := by
  rcases readQueue_shows shown.memory shown.banks first with
    ⟨chain', memory, banks, keeps, outcome⟩
  have kept := keeps.outside new shown.kept
  refine ⟨chain', ?_, readPass_b loop queueId ▸ keeps⟩
  rw [B.readPass, Banks.readPass]
  generalize loop.b.readQueue queueId = concrete at memory banks kept outcome ⊢
  generalize read.t.readQueue packet = shownAs at banks outcome ⊢
  rcases concrete with ⟨erased, b'⟩
  rcases shownAs with ⟨left?, t'⟩
  dsimp only at memory banks kept outcome ⊢
  rcases outcome with ⟨rfl, rfl⟩ | ⟨left, rfl, rfl, shows⟩
  · exact ⟨memory, banks, rfl, kept⟩
  · exact ⟨memory, banks, shown.erase, List.rel_append kept (.cons shows .nil)⟩

theorem ShowsLoop.foldl_readPass {queueIds : List Int} {packets : List Packet}
    (shown : ShowsLoop loop chain read)
    (rest : List.Forall₂ (Shows loop.b.queueMap chain) queueIds packets)
    (nodup : (loop.kept ++ queueIds).Nodup) :
    ∃ chain', ShowsLoop (queueIds.foldl B.readPass loop) chain'
        (packets.foldl Banks.readPass read) ∧
      KeepsOthers loop.b.queueMap chain queueIds (queueIds.foldl B.readPass loop).b.queueMap
        chain' := by
  induction queueIds generalizing loop read chain packets with
  | nil =>
      cases rest
      exact ⟨chain, shown, fun _ _ _ shows => shows⟩
  | cons queueId queueIds ih =>
      cases rest with
      | @cons _ packet _ packets first later =>
          have notLater := (List.nodup_cons.mp nodup.of_append_right).1
          have notKept : queueId ∉ loop.kept := fun member =>
            nodup.disjoint member List.mem_cons_self
          rcases shown.readPass first notKept with ⟨chain', shown', keeps⟩
          have later' := keeps.outside notLater later
          have distinct : ((B.readPass loop queueId).kept ++ queueIds).Nodup := by
            rw [readPass_kept, List.append_assoc]
            refine List.Nodup.sublist ?_ nodup
            split_ifs
            · exact (List.sublist_cons_self queueId queueIds).append_left _
            · exact List.Sublist.refl _
          rcases ih shown' later' distinct with ⟨last, shown'', keeps'⟩
          refine ⟨last, shown'', KeepsOthers.trans (keeps.mono ?_) (keeps'.mono ?_)⟩
          · exact List.cons_subset_cons queueId (List.nil_subset queueIds)
          · exact List.subset_cons_self queueId queueIds

/-- The buffer is shown as `t`. -/
structure Agrees (b : B) (chain : Int → List Place) (t : Banks) : Prop where
  memory : Memory b chain
  banks : SameBanks b t
  encoding : b.encodeQue.length = t.encoding
  written : (writing b).map Prod.fst = t.written
  begun : ∀ queueId, b.encodeQue.head? = some queueId → t.written ≠ [] →
    Shows b.queueMap chain queueId ⟨t.written, delay, 0⟩
  decodeQue : List.Forall₂ (Shows b.queueMap chain) b.decodeQue t.decodeQue
  heads : List.Forall₂ (Shows b.queueMap chain) b.decodeQueHead t.decodeQueHead

theorem not_mem_of_decodeQue {rest : List Int} (distinct : (queued b).Nodup)
    (front : b.decodeQue = queueId :: rest) :
    queueId ∉ b.encodeQue ++ rest ++ b.decodeQueHead := by
  have places : (queued b).Perm (queueId :: (b.encodeQue ++ rest ++ b.decodeQueHead)) := by
    rw [queued, front, List.append_cons]
    exact perm_arrive b.encodeQue rest b.decodeQueHead queueId
  exact (List.nodup_cons.mp (places.nodup_iff.mp distinct)).1

theorem Agrees.promote (agrees : Agrees b chain t) (distinct : (queued b).Nodup) (wait : Int) :
    Agrees (b.promote wait) chain (t.promote wait) := by
  have waiting := agrees.decodeQue
  rw [B.promote, Banks.promote]
  cases front : b.decodeQue with
  | nil =>
      rw [front, List.forall₂_nil_left_iff] at waiting
      rw [waiting]
      exact agrees
  | cons queueId rest =>
      rw [front, List.forall₂_cons_left_iff] at waiting
      rcases waiting with ⟨packet, packets, first, later, front'⟩
      rw [front']
      rcases first.info with ⟨info, found, counter, -⟩
      have entry : b.queueInfo queueId = info := by
        rw [B.queueInfo, found]
        rfl
      rcases first.setInfo agrees.memory found info.counter wait with ⟨memory, keeps, moved⟩
      have apart := not_mem_of_decodeQue distinct front
      have kept : ∀ others packets, others ⊆ b.encodeQue ++ rest ++ b.decodeQueHead →
          List.Forall₂ (Shows b.queueMap chain) others packets →
          List.Forall₂ (Shows (b.setInfo queueId { info with delay := wait }).queueMap chain) others
            packets :=
        fun others packets within => keeps.outside fun member => apart (within member)
      have same : ({ packet with counter := info.counter, delay := wait } : Packet) =
          { packet with delay := wait } := by
        rw [counter]
      rw [same] at moved
      dsimp only
      rw [entry]
      exact {
        agrees with
        memory := { memory with }
        begun := by
          intro other first begun
          refine keeps other _ (fun here => ?_) (agrees.begun other first begun)
          rw [List.mem_singleton.mp here] at first
          exact apart (List.mem_append_left _ (List.mem_append_left _ (List.mem_of_head? first)))
        decodeQue := kept rest packets
          (fun _ member => List.mem_append_left _ (List.mem_append_right _ member)) later
        heads := List.rel_append (kept _ _ (List.subset_append_right _ _) agrees.heads)
          (.cons moved .nil)
      }

theorem Agrees.fillHeads (agrees : Agrees b chain t) (distinct : (queued b).Nodup) (passes : Nat)
    (wait : Int) : Agrees (b.fillHeads passes wait) chain (t.fillHeads passes wait) := by
  induction passes generalizing b t wait with
  | zero => exact agrees
  | succ passes ih =>
      rw [B.fillHeads, Banks.fillHeads, agrees.heads.length_eq]
      split_ifs
      · exact ih (agrees.promote distinct wait)
          ((promote_queued wait b).nodup_iff.mpr distinct) (wait + 1)
      · exact agrees

theorem Agrees.fill (agrees : Agrees b chain t) (distinct : (queued b).Nodup) :
    Agrees b.fill chain t.fill := by
  have long_iff : b.decodeQue ≠ [] ∧ decodeLinkNum < b.decodeQue.length ↔
      decodeLinkNum < t.decodeQue.length := by
    rw [agrees.decodeQue.length_eq, and_iff_right_iff_imp]
    intro long empty
    rw [← agrees.decodeQue.length_eq, empty] at long
    exact Nat.not_lt_zero _ long
  simp only [B.fill, Banks.fill, long_iff]
  split_ifs
  · exact agrees.fillHeads distinct _ _
  · exact agrees

theorem Banks.setBank_eq (bankId : Int) (bank : Bank) (t : Banks) :
    ∃ bank0 bank1, t.setBank bankId bank = { t with bank0, bank1 } := by
  rw [Banks.setBank]
  split_ifs
  · exact ⟨_, _, rfl⟩
  · exact ⟨_, _, rfl⟩

theorem Banks.readQueue_eq (packet : Packet) (t : Banks) :
    ∃ bank0 bank1, (t.readQueue packet).2 = { t with bank0, bank1 } := by
  rw [Banks.readQueue]
  dsimp only
  split_ifs
  · exact ⟨_, _, rfl⟩
  · exact ⟨_, _, rfl⟩
  · cases packet.banks with
    | nil => exact ⟨_, _, rfl⟩
    | cons bankId rest =>
        dsimp only
        split_ifs
        · exact ⟨_, _, rfl⟩
        · exact Banks.setBank_eq bankId _ t
        · exact Banks.setBank_eq bankId _ t

theorem Banks.foldl_readPass_eq (packets : List Packet) (read : Banks.ReadLoop) :
    ∃ bank0 bank1, (packets.foldl Banks.readPass read).t = { read.t with bank0, bank1 } := by
  induction packets generalizing read with
  | nil => exact ⟨_, _, rfl⟩
  | cons packet packets ih =>
      rcases Banks.readQueue_eq packet read.t with ⟨_, _, first⟩
      have passed : (Banks.readPass read packet).t = (read.t.readQueue packet).2 := by
        rw [Banks.readPass]
        rcases read.t.readQueue packet with ⟨_ | _, _⟩ <;> rfl
      rcases ih (Banks.readPass read packet) with ⟨bank0, bank1, later⟩
      rw [List.foldl_cons, later, passed, first]
      exact ⟨bank0, bank1, rfl⟩

theorem Agrees.readHeads (agrees : Agrees b chain t) (distinct : (queued b).Nodup) :
    ∃ chain', ShowsLoop b.readHeads chain' t.readHeads ∧
      Agrees { b.readHeads.b with decodeQueHead := b.readHeads.kept } chain'
        { t.readHeads.t with decodeQueHead := t.readHeads.kept } := by
  have start : ShowsLoop ⟨[], false, b⟩ chain ⟨[], false, t⟩ :=
    ⟨agrees.memory, agrees.banks, rfl, .nil⟩
  rcases start.foldl_readPass agrees.heads distinct.of_append_right with ⟨chain', shown, keeps⟩
  rcases (foldl_readPass_eq b.decodeQueHead ⟨[], false, b⟩).1 with ⟨_, _, _, _, _, same⟩
  rcases Banks.foldl_readPass_eq t.decodeQueHead ⟨[], false, t⟩ with ⟨_, _, same'⟩
  have encodeQue : b.readHeads.b.encodeQue = b.encodeQue := by
    rw [B.readHeads, same]
  have decodeQue : b.readHeads.b.decodeQue = b.decodeQue := by
    rw [B.readHeads, same]
  have allocated : b.readHeads.b.allocated = b.allocated := by
    rw [B.readHeads, same]
  have frame : t.readHeads.t.encoding = t.encoding ∧ t.readHeads.t.written = t.written ∧
      t.readHeads.t.decodeQue = t.decodeQue := by
    rw [Banks.readHeads, same']
    exact ⟨rfl, rfl, rfl⟩
  refine ⟨chain', shown, ?_⟩
  constructor
  · exact { shown.memory with }
  · exact shown.banks
  · dsimp only
    rw [encodeQue, frame.1]
    exact agrees.encoding
  · rw [writing, encodeQue, allocated, frame.2.1]
    exact agrees.written
  · dsimp only
    rw [encodeQue, frame.2.1]
    intro queueId first begun
    refine keeps queueId _ (fun head => ?_) (agrees.begun queueId first begun)
    exact distinct.disjoint (List.mem_append_left _ (List.mem_of_head? first)) head
  · dsimp only
    rw [decodeQue, frame.2.2]
    refine keeps.forall₂ (fun queueId waits head => ?_) agrees.decodeQue
    exact distinct.disjoint (List.mem_append_right _ waits) head
  · exact shown.kept

theorem Agrees.readSide (agrees : Agrees b chain t) (distinct : (queued b).Nodup) :
    ∃ chain', Agrees b.readSide chain' t.readSide := by
  have still : (queued b.fill).Nodup := (fill_queued b).nodup_iff.mpr distinct
  rcases (agrees.fill distinct).readHeads still with ⟨chain', shown, read⟩
  have promotes_iff : b.fill.readHeads.eraseFlag = true ∧ b.fill.readHeads.b.decodeQue ≠ [] ↔
      t.fill.readHeads.eraseFlag = true ∧ t.fill.readHeads.t.decodeQue ≠ [] := by
    have length : b.fill.readHeads.b.decodeQue.length = t.fill.readHeads.t.decodeQue.length :=
      read.decodeQue.length_eq
    rw [shown.erase, ← List.length_pos_iff, ← List.length_pos_iff, length]
  refine ⟨chain', ?_⟩
  simp only [B.readSide, Banks.readSide, promotes_iff, shown.kept.length_eq]
  split_ifs
  · exact read.promote (nodup_of_subperm (readHeads_queued b) distinct) _
  · exact read

/-! ## The write side -/

theorem SameBanks.selectBank_eq (banks : SameBanks b t) : b.selectBank = t.selectBank := by
  have first := banks 0 (by decide) (by decide)
  have second := banks 1 (by decide) (by decide)
  rw [SystemcTlm.BankedBuffer.selectBank_eq, first.1, first.2, second.1, second.2]
  rfl

/-- A bank that is not full has a slice that is not valid. -/
theorem Memory.freeSlice_isSome (memory : Memory b chain) {bankId : Int} (low : 0 ≤ bankId)
    (high : bankId < bankNum) (deep : 0 < b.bankDeepVec bankId) :
    (b.freeSlice bankId).isSome = true := by
  by_contra full
  rw [B.freeSlice, List.find?_isSome] at full
  have full : validCount b.encodeVec bankId = sliceNum := by
    have all : validCount b.encodeVec bankId = (List.range sliceNum).length := by
      rw [validCount, List.countP_eq_length]
      intro j member
      by_contra free
      exact full ⟨j, member, by simpa using free⟩
    rw [all, List.length_range]
  have depth := memory.deep bankId low high
  rw [full] at depth
  omega

/-- The packet being written after one more slice. -/
theorem Agrees.allocate (agrees : Agrees b chain t) {rest : List Int} {place : Place}
    (front : b.encodeQue = queueId :: rest) (chained : b.allocated queueId = chain queueId)
    (last : LastOf b (chain queueId)) (fresh : place ∉ chain queueId) :
    Shows (b.allocate queueId place.1 place.2).queueMap
        (Function.update chain queueId (chain queueId ++ [place])) queueId
        ⟨t.written ++ [place.1], delay, 0⟩ ∧
      KeepsOthers b.queueMap chain [queueId] (b.allocate queueId place.1 place.2).queueMap
        (Function.update chain queueId (chain queueId ++ [place])) := by
  have inBounds : ∀ other, other ∈ chain queueId → InBounds other := fun other member =>
    agrees.memory.inBounds other ((agrees.memory.mem_iff queueId other).mp member).1
  have spec : Allocated b (chain queueId) queueId place _ := allocate_spec last inBounds fresh
  have written : (chain queueId).map Prod.fst = t.written := by
    rw [← chained, ← writing_of_cons front]
    exact agrees.written
  constructor
  · constructor
    · rw [Function.update_self, List.map_append, written]
      rfl
    · rw [spec.queueMap]
      split_ifs with empty
      · exact ⟨_, Function.update_self .., rfl, rfl⟩
      · apply (agrees.begun queueId (front ▸ rfl) _).info
        rw [← written]
        exact mt List.map_eq_nil_iff.mp empty
  · intro other packet outside shows
    have different : other ≠ queueId := List.ne_of_not_mem_cons outside
    apply shows.congr
    · exact Function.update_of_ne different _ _
    · rw [spec.queueMap]
      split_ifs
      · exact Function.update_of_ne different _ _
      · rfl

theorem SameBanks.allocate (banks : SameBanks b t) {bankId : Int} (low : 0 ≤ bankId)
    (high : bankId < bankNum) (queueId sliceId : Int) :
    SameBanks (b.allocate queueId bankId sliceId)
      (t.setBank bankId { t.bank bankId with deep := (t.bank bankId).deep - 1 }) := by
  intro other low' high'
  rw [Banks.bank_setBank low high low' high', B.allocate]
  dsimp only
  rw [Function.update_apply]
  split_ifs with same
  · rw [same, (banks bankId low high).1, (banks bankId low high).2]
    exact ⟨rfl, rfl⟩
  · exact banks other low' high'

variable {known : List Int}

section WriteSlice

variable {rest : List Int} {bankId sliceId : Int} {bank0 bank1 : Bank}
  (agrees : Agrees b chain t) (front : b.encodeQue = queueId :: rest)
  (distinct : (queued b).Nodup)
  (taken : Memory (b.allocate queueId bankId sliceId) chain')
  (banks : SameBanks (b.allocate queueId bankId sliceId) { t with bank0, bank1 })
  (shows : Shows (b.allocate queueId bankId sliceId).queueMap chain' queueId
    ⟨t.written ++ [bankId], delay, 0⟩)
  (keeps : KeepsOthers b.queueMap chain [queueId]
    (b.allocate queueId bankId sliceId).queueMap chain')

include front distinct in
theorem front_not_mem : queueId ∉ rest ++ b.decodeQue ++ b.decodeQueHead := by
  rw [queued, front] at distinct
  exact (List.nodup_cons.mp distinct).1

include agrees front distinct keeps in
/-- The packets that wait and the heads are as they were. -/
theorem Agrees.queues_allocate :
    List.Forall₂ (Shows (b.allocate queueId bankId sliceId).queueMap chain') b.decodeQue
        t.decodeQue ∧
      List.Forall₂ (Shows (b.allocate queueId bankId sliceId).queueMap chain') b.decodeQueHead
        t.decodeQueHead := by
  have absent := front_not_mem front distinct
  rw [List.mem_append, List.mem_append, not_or, not_or] at absent
  exact ⟨keeps.outside absent.1.2 agrees.decodeQue, keeps.outside absent.2 agrees.heads⟩

include agrees front distinct taken banks shows keeps

/-- A slice that does not complete its packet. -/
theorem Agrees.nextSlice :
    Agrees { b.allocate queueId bankId sliceId with writeSliceNum := b.writeSliceNum - 1 } chain'
      { t with bank0, bank1, written := t.written ++ [bankId] } := by
  rcases agrees.queues_allocate front distinct keeps with ⟨waiting, heads⟩
  constructor
  · exact { taken with }
  · exact banks
  · exact agrees.encoding
  · have now : writing { b.allocate queueId bankId sliceId with
        writeSliceNum := b.writeSliceNum - 1 } =
        (b.allocate queueId bankId sliceId).allocated queueId := writing_of_cons front
    rw [now, allocated_allocate_self, ← writing_of_cons front, List.map_append, agrees.written]
    rfl
  · intro other first _
    have same : other = queueId := by
      dsimp only [B.allocate] at first
      rw [front] at first
      exact (Option.some.inj first).symm
    rw [same]
    exact shows
  · exact waiting
  · exact heads

/-- A slice that completes its packet, which goes to `decode_que`. -/
theorem Agrees.lastSlice (unbegun : ∀ other, other ∈ rest →
      (b.allocate queueId bankId sliceId).allocated other = []) :
    Agrees
      { b.allocate queueId bankId sliceId with
        writeSliceNum := 16
        encodeQue := rest
        decodeQue := b.decodeQue ++ [queueId]
        lastBankId := -1
        lastSliceId := -1 } chain'
      { t with
        bank0, bank1
        encoding := rest.length
        written := []
        decodeQue := t.decodeQue ++ [⟨t.written ++ [bankId], delay, 0⟩] } := by
  rcases agrees.queues_allocate front distinct keeps with ⟨waiting, heads⟩
  constructor
  · exact { taken with }
  · exact banks
  · rfl
  · rw [writing_eq_nil unbegun]
    rfl
  · exact fun _ _ begun => absurd rfl begun
  · exact List.rel_append waiting (.cons shows .nil)
  · exact heads

end WriteSlice

variable {known : List Int}

/-- A slice is written, and its packet moves on if it is complete. -/
theorem Agrees.writeSlice (agrees : Agrees b chain t) (sound : Sound known b)
    (distinct : (queued b).Nodup) {rest : List Int} (front : b.encodeQue = queueId :: rest)
    (deep : 0 < (t.bank t.selectBank).deep) :
    (b.freeSlice b.selectBank).isSome = true ∧
      ∃ chain' t', t.writeSide = some t' ∧ Agrees (b.writeSlice queueId) chain' t' := by
  rcases selectBank_bounds b with ⟨low, high⟩
  have selected := agrees.banks.selectBank_eq
  have found : (b.freeSlice b.selectBank).isSome = true := by
    apply agrees.memory.freeSlice_isSome low high
    rw [(agrees.banks _ low high).2, selected]
    exact deep
  refine ⟨found, ?_⟩
  rcases Option.isSome_iff_exists.mp found with ⟨j, free⟩
  rcases sound with ⟨chain₂, integrity⟩
  obtain rfl : chain = chain₂ := agrees.memory.unique integrity.memory
  rcases integrity.front_chain front with ⟨chained, last⟩
  have inside : InBounds (b.selectBank, (j : Int)) :=
    ⟨low, high, Int.natCast_nonneg j, Int.ofNat_lt.mpr (freeSlice_spec free).1⟩
  have fresh : (b.selectBank, (j : Int)) ∉ chain queueId := by
    rw [agrees.memory.mem_iff, (freeSlice_spec free).2]
    exact fun used => Bool.false_ne_true used.1
  have taken := agrees.memory.allocate last inside (freeSlice_spec free).2
  rcases agrees.allocate front chained last fresh with ⟨shows, keeps⟩
  have banks := agrees.banks.allocate low high queueId j
  have encoding : t.encoding = rest.length + 1 := by
    rw [← agrees.encoding, front]
    rfl
  have complete_iff : (t.written ++ [t.selectBank]).length = 16 ↔ b.writeSliceNum - 1 = 0 := by
    have progress := integrity.queues.progress
    rw [List.length_append, List.length_singleton, ← agrees.written, List.length_map]
    omega
  rw [selected] at banks shows keeps taken
  rcases Banks.setBank_eq t.selectBank
    { t.bank t.selectBank with deep := (t.bank t.selectBank).deep - 1 } t with ⟨bank0, bank1, eq⟩
  rw [eq] at banks
  rw [B.writeSlice, free, Banks.writeSide, encoding, selected]
  dsimp only
  rw [if_neg (Int.not_le.mpr deep), eq, B.countSlice]
  have tail : (b.allocate queueId t.selectBank j).encodeQue.tail = rest := congrArg List.tail front
  refine ⟨Function.update chain queueId (chain queueId ++ [(t.selectBank, (j : Int))]), ?_⟩
  split_ifs with complete full full
  · refine ⟨_, rfl, ?_⟩
    rw [tail]
    exact agrees.lastSlice front distinct taken banks shows keeps
      fun other member => integrity.queues.unwritten_allocate front member
  · exact absurd (complete_iff.mp complete) full
  · exact absurd (complete_iff.mpr full) complete
  · exact ⟨_, rfl, agrees.nextSlice front distinct taken banks shows keeps⟩

/-! ## Runs -/

theorem agrees_new : Agrees B.new (fun _ => []) Banks.new where
  memory := memory_new
  banks _ _ _ := by
    rw [Banks.bank]
    split_ifs <;> exact ⟨rfl, rfl⟩
  encoding := rfl
  written := rfl
  begun _ _ begun := absurd rfl begun
  decodeQue := .nil
  heads := .nil

/-- The flags are cleared at the end of a cycle. -/
theorem Agrees.clear (agrees : Agrees b chain t) :
    Agrees { b with readBankIdVec := fun _ => false } chain
      { t with bank0 := { t.bank0 with read := false }, bank1 := { t.bank1 with read := false } } :=
  { agrees with
    memory := { agrees.memory with }
    banks := by
      intro bankId low high
      have depth := (agrees.banks bankId low high).2
      rw [Banks.bank] at depth ⊢
      split_ifs at depth ⊢ <;> exact ⟨rfl, depth⟩ }

variable {t' : Banks}

theorem Agrees.process (agrees : Agrees b chain t) (sound : Sound known b)
    (tidy : Tidy known b) (defined : t.process = some t') :
    FindsSlice b ∧ ∃ chain', Agrees b.process chain' t' := by
  rcases Option.map_eq_some_iff.mp defined with ⟨written, writes, rfl⟩
  rcases agrees.readSide tidy.distinct with ⟨chain', read⟩
  have distinct := nodup_of_subperm (readSide_queued b) tidy.distinct
  cases front : b.readSide.encodeQue with
  | nil =>
      have encoding : t.readSide.encoding = 0 := by
        rw [← read.encoding, front]
        rfl
      rw [Banks.writeSide, encoding] at writes
      cases writes
      refine ⟨fun waits => absurd front waits, chain', ?_⟩
      rw [B.process, B.writeSide, front]
      exact read.clear
  | cons queueId rest =>
      have deep : 0 < (t.readSide.bank t.readSide.selectBank).deep := by
        have encoding : t.readSide.encoding = rest.length + 1 := by
          rw [← read.encoding, front]
          rfl
        rw [Banks.writeSide, encoding] at writes
        dsimp only at writes
        split_ifs at writes with full
        · exact Int.not_le.mp full
        · exact Int.not_le.mp full
      rcases read.writeSlice sound.readSide distinct front deep with
        ⟨finds, chain'', after, writes', agrees'⟩
      rw [writes'] at writes
      cases writes
      refine ⟨fun _ => finds, chain'', ?_⟩
      have writeCnt := (readSide_frame b).2.2.trans tidy.writeCnt
      rw [B.process, writeSide_of_cons writeCnt front]
      exact agrees'.clear

theorem Agrees.arrive (agrees : Agrees b chain t) (sound : Sound known b)
    (new : queueId ∉ known) :
    Agrees { b with encodeQue := b.encodeQue ++ [queueId] } chain
      { t with encoding := t.encoding + 1 } := by
  rcases sound with ⟨_, integrity⟩
  constructor
  · exact { agrees.memory with }
  · exact agrees.banks
  · rw [← agrees.encoding]
    exact List.length_append
  · rw [writing_arrive (integrity.queues.unknown queueId new)]
    exact agrees.written
  · intro other first begun
    cases front : b.encodeQue with
    | nil =>
        -- Nothing is being written, so that nothing is begun.
        refine absurd ?_ begun
        rw [← agrees.written, writing, front]
        rfl
    | cons head rest =>
        apply agrees.begun other _ begun
        dsimp only at first
        rw [front] at first ⊢
        exact first
  · exact agrees.decodeQue
  · exact agrees.heads

theorem agrees_run {calls : List Call} (distinct : (arrivals calls).Nodup)
    (reached : runPartial Banks.call calls Banks.new = some t) :
    Sound (arrivals calls) (run calls) ∧ ∃ chain, Agrees (run calls) chain t := by
  induction calls using List.reverseRecOn generalizing t with
  | nil =>
      cases reached
      exact ⟨sound_new, _, agrees_new⟩
  | append_singleton calls next ih =>
      rw [runPartial_concat, Option.bind_eq_some_iff] at reached
      rcases reached with ⟨before, earlier, called⟩
      have known : (arrivals calls).Nodup := by
        rw [arrivals_append] at distinct
        exact distinct.of_append_left
      rcases ih known earlier with ⟨sound, chain, agrees⟩
      rw [run, runCalls_concat]
      cases next with
      | process =>
          rcases agrees.process sound (tidy_run known) called with ⟨finds, after⟩
          rw [arrivals_concat_process]
          exact ⟨sound.process finds, after⟩
      | rcvFrom addr queueId =>
          cases called
          rw [arrivals_concat_rcvFrom] at distinct ⊢
          rw [call, B.rcvFrom, Banks.rcvFrom]
          split_ifs at distinct ⊢ with encode
          · have new : queueId ∉ arrivals calls := fun member =>
              distinct.disjoint member List.mem_cons_self
            exact ⟨sound.arrive new, chain, agrees.arrive sound new⟩
          · exact ⟨sound, chain, agrees⟩

/-- A run that is defined on the banks writes into no full bank. -/
theorem findsSlice_of_reached {calls : List Call} (distinct : (arrivals calls).Nodup)
    (reached : runPartial Banks.call calls Banks.new = some t) :
    ∀ before rest, calls = before ++ .process :: rest → FindsSlice (run before) := by
  rintro before rest rfl
  have known : (arrivals before).Nodup := by
    rw [arrivals_append] at distinct
    exact distinct.of_append_left
  rw [runPartial_append, Option.bind_eq_some_iff] at reached
  rcases reached with ⟨middle, earlier, later⟩
  rw [runPartial_cons, Option.bind_eq_some_iff] at later
  rcases later with ⟨after, called, -⟩
  rcases agrees_run known earlier with ⟨sound, chain, agrees⟩
  exact (agrees.process sound (tidy_run known) called).1

theorem exists_shown {queueIds : List Int} {packets : List Packet}
    (shown : List.Forall₂ (Shows queueMap chain) queueIds packets) (member : packet ∈ packets) :
    ∃ queueId, queueId ∈ queueIds ∧ Shows queueMap chain queueId packet := by
  induction shown with
  | nil => cases member
  | @cons first _ _ _ shows _ ih =>
      rcases List.mem_cons.mp member with rfl | later
      · exact ⟨first, List.mem_cons_self, shows⟩
      · rcases ih later with ⟨queueId, inside, shows⟩
        exact ⟨queueId, List.mem_cons_of_mem first inside, shows⟩

/-- Six packets arrive at once.  Reading begins when five are written, so that the
last is written while the first four are read. -/
def sixPackets : List Call :=
  [0, 1, 2, 3, 4, 5].map (.rcvFrom 0x1000) ++ List.replicate 90 .process

theorem sixPackets_heads : ∃ t, runPartial Banks.call sixPackets Banks.new = some t ∧
    ∃ packet ∈ t.decodeQueHead, packet.banks.length = 14 := by
  have left : ((runPartial Banks.call sixPackets Banks.new).map fun t =>
      t.decodeQueHead.map fun packet => packet.banks.length) = some [14, 14, 14, 15] := by
    decide +kernel
  rcases Option.map_eq_some_iff.mp left with ⟨t, reached, lengths⟩
  refine ⟨t, reached, List.mem_map.mp ?_⟩
  rw [lengths]
  exact List.mem_cons_self

end SystemcTlm.BankedBuffer
