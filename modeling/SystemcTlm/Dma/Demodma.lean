import SystemcTlm.Simulation.Event
import SystemcTlm.TlmMemory.Transport

/-!
# The demo DMA

`demodma` has eight registers that a processor reads and writes at any time, and a
thread that copies bursts of 32 bytes while the `RUN` bit is set.  The thread
starts with the event that a write of the control register notifies.  The targets of
its transactions do not wait.
-/

namespace SystemcTlm.Dma

open SystemcTlm.Simulation SystemcTlm.TlmMemory

/-- `DEMODMA_CTRL_RUN`. -/
def ctrlRun : UInt32 :=
  1

/-- `DEMODMA_CTRL_DONE`. -/
def ctrlDone : UInt32 :=
  2

/-- `DEMODMA_RESP_OKAY`. -/
def respOkay : UInt32 :=
  0

/-- `DEMODMA_RESP_BUS_GENERIC_ERROR`. -/
def respBusGenericError : UInt32 :=
  1

/-- `DEMODMA_RESP_ADDR_DECODE_ERROR`. -/
def respAddrDecodeError : UInt32 :=
  2

/-- `sizeof buf` of the thread. -/
def bufSize : UInt32 :=
  32

/-- A microsecond. -/
def microsecond : Nat :=
  1000

/-! ## Registers -/

/-- `regs`.  The last two words have no name. -/
structure Regs where
  dstAddr : UInt32 := 0
  srcAddr : UInt32 := 0
  len : UInt32 := 0
  ctrl : UInt32 := 0
  byteEn : UInt32 := 0
  errorResp : UInt32 := 0
  word6 : UInt32 := 0
  word7 : UInt32 := 0
deriving DecidableEq, Repr

namespace Regs

/-- The `RUN` bit. -/
def running (regs : Regs) : Bool :=
  regs.ctrl &&& ctrlRun ≠ 0

/-- The `DONE` bit. -/
def done (regs : Regs) : Bool :=
  regs.ctrl &&& ctrlDone ≠ 0

/-- `u32[i]`. -/
def u32 (regs : Regs) : Fin 8 → UInt32
  | 0 => regs.dstAddr
  | 1 => regs.srcAddr
  | 2 => regs.len
  | 3 => regs.ctrl
  | 4 => regs.byteEn
  | 5 => regs.errorResp
  | 6 => regs.word6
  | 7 => regs.word7

/-- `u32[i] = word` -/
def setU32 (regs : Regs) (i : Fin 8) (word : UInt32) : Regs :=
  match i with
  | 0 => { regs with dstAddr := word }
  | 1 => { regs with srcAddr := word }
  | 2 => { regs with len := word }
  | 3 => { regs with ctrl := word }
  | 4 => { regs with byteEn := word }
  | 5 => { regs with errorResp := word }
  | 6 => { regs with word6 := word }
  | 7 => { regs with word7 := word }

end Regs

/-- The bytes of a word, the lowest first. -/
def wordByte (word : UInt32) (i : Nat) : UInt8 :=
  (word >>> UInt32.ofNat (8 * i)).toUInt8

/-- A copy of `len` bytes over the first bytes of a word. -/
def copyToWord (word : UInt32) (data : Nat → UInt8) (len : Nat) : UInt32 :=
  let byte i := if i < len then data i else wordByte word i
  (byte 0).toUInt32 ||| (byte 1).toUInt32 <<< 8 ||| (byte 2).toUInt32 <<< 16 |||
    (byte 3).toUInt32 <<< 24

/-! ## The module -/

universe u

/-- What the initiator socket is bound to.  A call returns at once: a target that
waits, so that the processor may call in the middle of `do_dma_trans`, is left out. -/
abbrev Bus (β : Type u) :=
  β → GenericPayload → β × GenericPayload

/-- Where the thread waits: for its first activation, in `wait(ev_dma_copy)` (in the
first pass of the loop or a later one), or until a time. -/
inductive Thread where
  | start
  | idle (first : Bool)
  | sleeping (due : Nat)
deriving DecidableEq, Repr

/-- The thread waits for the event. -/
def Thread.waits : Thread → Bool
  | .start => true
  | .idle _ => true
  | .sleeping _ => false

/-- The members of `demodma`, what its socket is bound to, and the state of its
thread. -/
structure Demodma (β : Type u) where
  regs : Regs
  irq : Bool
  bus : β
  buf : Nat → UInt8
  now : Nat
  evDmaCopy : Pending
  thread : Thread

variable {β : Type u}

namespace Demodma

/-- The transaction of `do_dma_trans`. -/
def trans (regs : Regs) (cmd : TlmCommand) (buf : Nat → UInt8) (addr len : UInt32) :
    GenericPayload where
  command := cmd
  address := addr.toUInt64
  data := buf
  dataLength := len
  byteEnable := wordByte regs.byteEn
  byteEnableLength := if regs.byteEn ≠ 0 then 4 else 0
  streamingWidth := len
  dmiAllowed := false
  responseStatus := .incomplete

/-- `error_resp` after a transaction. -/
def response : TlmResponseStatus → UInt32
  | .ok => respOkay
  | .addressError => respAddrDecodeError
  | _ => respBusGenericError

/-- `do_dma_trans` and what it leaves in the buffer. -/
def doDmaTrans (bus : Bus β) (cmd : TlmCommand) (buf : Nat → UInt8) (addr len : UInt32)
    (s : Demodma β) : Demodma β × (Nat → UInt8) :=
  let called := bus s.bus (trans s.regs cmd buf addr len)
  ({ s with
      bus := called.1
      regs := { s.regs with errorResp := response called.2.responseStatus } },
    called.2.data)

/-- `update_irqs`.  The line shows the `DONE` bit. -/
def updateIrqs (s : Demodma β) : Demodma β :=
  { s with irq := s.regs.done }

/-! ### The thread -/

/-- A burst. -/
def burst (bus : Bus β) (s : Demodma β) : Demodma β :=
  let tlen := if bufSize < s.regs.len then bufSize else s.regs.len
  let (s, buf) := doDmaTrans bus .read s.buf s.regs.srcAddr tlen s
  let (s, buf) := doDmaTrans bus .write buf s.regs.dstAddr tlen s
  { s with
    buf := buf
    regs := { s.regs with
      dstAddr := s.regs.dstAddr + tlen
      srcAddr := s.regs.srcAddr + tlen
      len := s.regs.len - tlen } }

/-- The thread signals that it is done and comes to `wait(ev_dma_copy)`, since it
has cleared the `RUN` bit. -/
def finish (s : Demodma β) : Demodma β :=
  let s := { s with regs := { s.regs with ctrl := (s.regs.ctrl &&& ~~~ctrlRun) ||| ctrlDone } }
  { s.updateIrqs with thread := .idle false }

/-- The second `if` of the loop of `do_dma_copy`. -/
def copied (bus : Bus β) (s : Demodma β) : Demodma β :=
  if 0 < s.regs.len ∧ s.regs.running then s.burst bus else s

/-- The third `if`, up to the next `wait`. -/
def signalled (s : Demodma β) : Demodma β :=
  if s.regs.len = 0 ∧ s.regs.running then s.finish
  else { s with thread := .sleeping (s.now + microsecond) }

/-- The pass of the loop after the first `if`. -/
def body (bus : Bus β) (s : Demodma β) : Demodma β :=
  (s.copied bus).signalled

/-- The loop from the beginning of a pass up to the next `wait`. -/
def loop (bus : Bus β) (first : Bool) (s : Demodma β) : Demodma β :=
  if s.regs.running then s.body bus else { s with thread := .idle first }

/-- `ev_dma_copy` occurs. -/
def occur (bus : Bus β) (s : Demodma β) : Demodma β :=
  let s := { s with evDmaCopy := .none }
  match s.thread with
  | .start => s.loop bus true
  | .idle _ => s.body bus
  | .sleeping _ => s

/-- The thread wakes up. -/
def wake (bus : Bus β) (s : Demodma β) : Demodma β :=
  s.updateIrqs.loop bus false

/-! ### The processor -/

/-- The arguments of `b_transport`, with whether there is a byte enable pointer,
and what an uninitialised buffer holds. -/
structure Access where
  trans : GenericPayload
  byt : Bool
  delay : Nat
  buffer : Nat → UInt8

/-- The index of the register. -/
def index (addr : UInt64) : Fin 8 :=
  ⟨(addr >>> 2 &&& 7).toNat, by
    rw [UInt64.toNat_and]
    exact Nat.lt_of_le_of_lt Nat.and_le_right (by decide)⟩

/-- A write of the control register reads ahead and notifies the event. -/
def started (bus : Bus β) (access : Access) (s : Demodma β) : Demodma β :=
  let s := (doDmaTrans bus .read access.buffer s.regs.srcAddr 4 s).1
  { s with evDmaCopy := s.evDmaCopy.notifyTimed (s.now + (access.delay + microsecond)) }

/-- `b_transport`: the module and the transaction after the call. -/
def bTransport (bus : Bus β) (access : Access) (s : Demodma β) : Demodma β × GenericPayload :=
  let trans := access.trans
  let len := trans.dataLength
  let addr := index trans.address
  if access.byt then (s, { trans with responseStatus := .byteEnableError })
  else if 4 < len ∨ trans.streamingWidth < len then
    (s, { trans with responseStatus := .burstError })
  else
    match trans.command with
    | .read =>
        (s, { trans with
          data := fun i => if i < len.toNat then wordByte (s.regs.u32 addr) i else trans.data i
          responseStatus := .ok })
    | .write =>
        let word := copyToWord (s.regs.u32 addr) trans.data len.toNat
        let s := { s with regs := s.regs.setU32 addr word }
        (if addr = 3 then s.started bus access else s, { trans with responseStatus := .ok })
    | .ignore => (s, { trans with responseStatus := .ok })

/-! ### Runs -/

/-- The module after construction. -/
def reset (bus : β) (buf : Nat → UInt8) : Demodma β where
  regs := {}
  irq := false
  bus := bus
  buf := buf
  now := 0
  evDmaCopy := .none
  thread := .start

/-- What happens next.  The time goes on up to what is due at the latest. -/
inductive Step (bus : Bus β) : Demodma β → Demodma β → Prop
  | occur {s : Demodma β} (due : s.evDmaCopy = .timed s.now) : Step bus s (s.occur bus)
  | wake {s : Demodma β} (due : s.thread = .sleeping s.now) : Step bus s (s.wake bus)
  | advance {s : Demodma β} {time : Nat} (later : s.now < time)
      (event : ∀ due, s.evDmaCopy = .timed due → time ≤ due)
      (thread : ∀ due, s.thread = .sleeping due → time ≤ due) :
      Step bus s { s with now := time }

end Demodma

end SystemcTlm.Dma
