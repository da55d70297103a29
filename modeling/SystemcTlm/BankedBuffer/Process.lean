import SystemcTlm.Container.Threaded
import SystemcTlm.Loop.Range
import SystemcTlm.Transition.Run

/-!
# The packet buffer `B` of `bank.cpp`

A packet is written as 16 slices, one a cycle, into whichever bank is deepest
and not being read.  Each slice is linked to the next, and `queue_map` leads to
the first.  Up to four packets are read at once, each slice freed as it is read.
-/

namespace SystemcTlm.BankedBuffer

open SystemcTlm.Container SystemcTlm.Loop SystemcTlm.Transition

/-- A place `[bank_id][slice_id]` of `encode_vec`. -/
abbrev Place :=
  Int × Int

/-- An entry of `encode_vec`. -/
structure Slice where
  valid : Bool
  bankId : Int
  sliceId : Int
  nextBankId : Int
  nextSliceId : Int
  queueId : Int
  deriving DecidableEq

/-- A slice that holds nothing. -/
def Slice.empty : Slice :=
  ⟨false, -1, -1, -1, -1, -1⟩

/-- An entry of `queue_map`: the first slice of a packet and its countdowns. -/
structure QueueInfo where
  bankId : Int
  sliceId : Int
  counter : Int
  delay : Int

/-- The place of the first slice. -/
def QueueInfo.place (info : QueueInfo) : Place :=
  (info.bankId, info.sliceId)

/-! The members that the constructor sets for good. -/

/-- `bank_num` -/
def bankNum : Nat :=
  2

/-- `slice_num`, of each bank. -/
def sliceNum : Nat :=
  128

/-- `decode_link_num` -/
def decodeLinkNum : Nat :=
  4

/-- `delay`, the cycles between two reads of a packet. -/
def delay : Int :=
  4

/-- The other members of `B`, and what it has printed. -/
structure B where
  encodeQue : List Int
  decodeQue : List Int
  encodeVec : Place → Slice
  bankDeepVec : Int → Int
  queueMap : Int → Option QueueInfo
  decodeQueHead : List Int
  readBankIdVec : Int → Bool
  writeCnt : Int
  writeSliceNum : Int
  lastBankId : Int
  lastSliceId : Int
  /-- The places of the lines `write allocate`, by queue. -/
  allocated : Int → List Place
  /-- The places of the lines `read release`, by queue. -/
  released : Int → List Place

namespace B

/-- The constructor. -/
def new : B where
  encodeQue := []
  decodeQue := []
  encodeVec _ := Slice.empty
  bankDeepVec _ := sliceNum
  queueMap _ := none
  decodeQueHead := []
  readBankIdVec _ := false
  writeCnt := 1
  writeSliceNum := 16
  lastBankId := -1
  lastSliceId := -1
  allocated _ := []
  released _ := []

/-- `queue_map[queue_id]`, which makes an entry where there is none. -/
def queueInfo (b : B) (queueId : Int) : QueueInfo :=
  (b.queueMap queueId).getD ⟨0, 0, 0, 0⟩

/-- `queue_map[queue_id] = info` -/
def setInfo (queueId : Int) (info : QueueInfo) (b : B) : B :=
  { b with queueMap := Function.update b.queueMap queueId (some info) }

/-! ## The read side -/

/-- The front of `decode_que` goes to the end of `decode_que_head`. -/
def promote (wait : Int) (b : B) : B :=
  match b.decodeQue with
  | [] => b
  | queueId :: rest =>
      { b with
        decodeQueHead := b.decodeQueHead ++ [queueId]
        decodeQue := rest }.setInfo queueId { b.queueInfo queueId with delay := wait }

/-- The loop that fills `decode_que_head`.  Each pass adds an entry, so as many
passes as there are links are enough. -/
def fillHeads : Nat → Int → B → B
  | 0, _, b => b
  | passes + 1, wait, b =>
      if b.decodeQueHead.length < decodeLinkNum then
        fillHeads passes (wait + 1) (b.promote wait)
      else b

/-- `decode_que_head` is filled once more packets wait than there are links. -/
def fill (b : B) : B :=
  if b.decodeQue ≠ [] ∧ decodeLinkNum < b.decodeQue.length then b.fillHeads decodeLinkNum 1
  else b

/-- The slice at the head of a queue is freed.  The result says whether it was
the last one, so that the queue is erased. -/
def release (queueId bankId sliceId : Int) (b : B) : Bool × B :=
  let slice := b.encodeVec (bankId, sliceId)
  let freed := { b with
    readBankIdVec := Function.update b.readBankIdVec bankId true
    encodeVec := Function.update b.encodeVec (bankId, sliceId) Slice.empty
    bankDeepVec := Function.update b.bankDeepVec bankId (b.bankDeepVec bankId + 1)
    released := Function.update b.released queueId (b.released queueId ++ [(bankId, sliceId)]) }
  if slice.nextBankId = -1 ∨ slice.nextSliceId = -1 then
    (true, { freed with queueMap := Function.update b.queueMap queueId none })
  else (false, freed.setInfo queueId ⟨slice.nextBankId, slice.nextSliceId, delay, 0⟩)

/-- A countdown of `queue_info`: whether it has run out, and what it leaves. -/
def countDown (count : Int) : Bool × Int :=
  if 0 < count then (count - 1 = 0, count - 1) else (true, count)

/-- The body of the loop over `decode_que_head`. -/
def readQueue (queueId : Int) (b : B) : Bool × B :=
  match b.queueMap queueId with
  | none => (false, b)
  | some info =>
      let waited := { info with delay := (countDown info.delay).2 }
      if (countDown info.delay).1 = false then (false, b.setInfo queueId waited)
      else
        let counted := { waited with counter := (countDown info.counter).2 }
        if (countDown info.counter).1 = false then (false, b.setInfo queueId counted)
        else if b.readBankIdVec info.bankId = true then
          (false, b.setInfo queueId { counted with counter := 1 })
        else (b.setInfo queueId counted).release queueId info.bankId info.sliceId

/-- The loop over `decode_que_head`: the entries passed that stay, `erase_flag`,
and the members. -/
structure ReadLoop where
  kept : List Int
  eraseFlag : Bool
  b : B

/-- One pass of the loop over `decode_que_head`. -/
def readPass (loop : ReadLoop) (queueId : Int) : ReadLoop :=
  match loop.b.readQueue queueId with
  | (true, b) => ⟨loop.kept, true, b⟩
  | (false, b) => ⟨loop.kept ++ [queueId], loop.eraseFlag, b⟩

/-- The loop over `decode_que_head`. -/
def readHeads (b : B) : ReadLoop :=
  b.decodeQueHead.foldl readPass ⟨[], false, b⟩

/-- `process` up to the write side. -/
def readSide (b : B) : B :=
  let loop := b.fill.readHeads
  let read : B := { loop.b with decodeQueHead := loop.kept }
  if loop.eraseFlag = true ∧ read.decodeQue ≠ [] then
    read.promote (4 - (read.decodeQueHead.length + 1))
  else read

/-! ## The write side -/

/-- One pass of the selection: the bank so far and its depth. -/
def selectPass (b : B) (i : Nat) (best : Int × Int) : Int × Int :=
  if b.readBankIdVec i = true then best
  else if best.2 < b.bankDeepVec i then (i, b.bankDeepVec i)
  else best

/-- The bank to write: the deepest that is not being read. -/
def selectBank (b : B) : Int :=
  (forRange bankNum b.selectPass (0, 0)).1

/-- The first slice of a bank that is not valid. -/
def freeSlice (b : B) (bankId : Int) : Option Nat :=
  (List.range sliceNum).find? fun j : Nat => !(b.encodeVec (bankId, (j : Int))).valid

/-- The slice is taken and linked to the one before. -/
def allocate (queueId bankId sliceId : Int) (b : B) : B :=
  let taken := Function.update b.encodeVec (bankId, sliceId)
    ⟨true, bankId, sliceId, -1, -1, queueId⟩
  let last := (b.lastBankId, b.lastSliceId)
  { b with
    encodeVec :=
      if b.lastBankId ≠ -1 ∧ b.lastSliceId ≠ -1 then
        Function.update taken last
          { taken last with nextBankId := bankId, nextSliceId := sliceId }
      else taken
    queueMap :=
      if b.lastBankId = -1 ∧ b.lastSliceId = -1 then
        Function.update b.queueMap queueId (some ⟨bankId, sliceId, delay, 0⟩)
      else b.queueMap
    lastBankId := bankId
    lastSliceId := sliceId
    bankDeepVec := Function.update b.bankDeepVec bankId (b.bankDeepVec bankId - 1)
    allocated := Function.update b.allocated queueId (b.allocated queueId ++ [(bankId, sliceId)]) }

/-- A packet whose 16 slices are written goes to `decode_que`. -/
def countSlice (queueId : Int) (b : B) : B :=
  if b.writeSliceNum - 1 = 0 then
    { b with
      writeSliceNum := 16
      encodeQue := b.encodeQue.tail
      decodeQue := b.decodeQue ++ [queueId]
      lastBankId := -1
      lastSliceId := -1 }
  else { b with writeSliceNum := b.writeSliceNum - 1 }

/-- A slice is written if the bank selected has a free one, and is counted in any
case. -/
def writeSlice (queueId : Int) (b : B) : B :=
  match b.freeSlice b.selectBank with
  | some j => (b.allocate queueId b.selectBank j).countSlice queueId
  | none => b.countSlice queueId

/-- `process` from the write side on: a slice of the front of `encode_que`, when
`write_cnt` has run down. -/
def writeSide (b : B) : B :=
  match b.encodeQue with
  | [] => b
  | queueId :: _ =>
      if 0 < b.writeCnt then
        if b.writeCnt - 1 = 0 then { b with writeCnt := 1 }.writeSlice queueId
        else { b with writeCnt := b.writeCnt - 1 }
      else b

/-- `B::process`, one cycle. -/
def process (b : B) : B :=
  { b.readSide.writeSide with readBankIdVec := fun _ => false }

/-- `B::rcv_from`.  A packet at address `0x1000` is to be encoded. -/
def rcvFrom (addr queueId : Int) (b : B) : B :=
  if addr = 0x1000 then { b with encodeQue := b.encodeQue ++ [queueId] } else b

theorem promote_lengths {b : B} (waits : b.decodeQue ≠ []) (wait : Int) :
    (b.promote wait).decodeQueHead.length = b.decodeQueHead.length + 1 ∧
      (b.promote wait).decodeQue.length + 1 = b.decodeQue.length := by
  cases queued : b.decodeQue with
  | nil => exact absurd queued waits
  | cons queueId rest => simp [promote, queued, setInfo]

/-- The passes of `fillHeads` are enough: its loop ends by its own test. -/
theorem decodeLinkNum_le_fillHeads {passes : Nat} {b : B} (waits : passes ≤ b.decodeQue.length)
    (enough : decodeLinkNum ≤ b.decodeQueHead.length + passes) (wait : Int) :
    decodeLinkNum ≤ (b.fillHeads passes wait).decodeQueHead.length := by
  induction passes generalizing b wait with
  | zero => exact enough
  | succ passes ih =>
      rw [fillHeads]
      split_ifs with short
      · have nonempty : b.decodeQue ≠ [] := by
          intro empty
          rw [empty, List.length_nil] at waits
          omega
        rcases promote_lengths nonempty wait with ⟨heads, left⟩
        exact ih (by omega) (by omega) (wait + 1)
      · omega

/-- Once `fill` has found packets enough there are as many heads as links, which
ends the loop of the source. -/
theorem decodeLinkNum_le_fill {b : B} (waits : decodeLinkNum < b.decodeQue.length) :
    decodeLinkNum ≤ b.fill.decodeQueHead.length := by
  have nonempty : b.decodeQue ≠ [] := by
    intro empty
    rw [empty] at waits
    exact Nat.not_lt_zero _ waits
  rw [fill, if_pos ⟨nonempty, waits⟩]
  exact decodeLinkNum_le_fillHeads (Nat.le_of_lt waits) (Nat.le_add_left _ _) 1

end B

/-! ## Runs -/

/-- What changes the buffer. -/
inductive Call
  | rcvFrom (addr queueId : Int)
  | process

/-- One of the calls. -/
def call : Call → B → B
  | .rcvFrom addr queueId, b => b.rcvFrom addr queueId
  | .process, b => b.process

/-- The state after the calls, from construction. -/
def run (calls : List Call) : B :=
  runCalls call calls B.new

/-- The queue ids that arrive to be encoded. -/
def arrivals (calls : List Call) : List Int :=
  calls.filterMap fun
    | .rcvFrom addr queueId => if addr = 0x1000 then some queueId else none
    | .process => none

/-- If a slice is to be written, the bank selected has a free one. -/
def FindsSlice (b : B) : Prop :=
  b.readSide.encodeQue ≠ [] → (b.readSide.freeSlice b.readSide.selectBank).isSome = true

instance (b : B) : Decidable (FindsSlice b) :=
  inferInstanceAs (Decidable (_ → _))

end SystemcTlm.BankedBuffer
