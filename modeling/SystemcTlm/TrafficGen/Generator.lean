import Mathlib.Data.List.Forall2
import SystemcTlm.TlmMemory.Window
import SystemcTlm.TrafficGen.DataString
import SystemcTlm.TrafficGen.Transfers

/-!
# The traffic generator and its memory

`top` reads the commands of a traffic file, merges them and has the generator
send them to the memory.  The run is compared with one that treats the commands
one by one on the bytes of the address space.
-/

namespace SystemcTlm.TrafficGen

open SystemcTlm.TlmMemory

/-! ## The configuration -/

/-- The attributes of a `cmd` element, as the parser gives them. -/
structure CmdElement where
  name : Option String
  addr : Option UInt64
  data : Option (List Char)
  length : Option UInt64

/-- The body of the loop of `get_config`.  A `WRITE` without data throws: its
string is built from a null pointer. -/
def CmdElement.transfer (cmdElement : CmdElement) : Option DataTransfer :=
  if cmdElement.name = some "WRITE" then
    cmdElement.data.map fun dataStr =>
      let dataBytes := parseDataString dataStr
      { cmd := .write
        addr := cmdElement.addr.getD 0
        data := some fun i => dataBytes.getD i 0
        length := UInt32.ofNat dataBytes.length
        streamingWidth := 4 }
  else if cmdElement.name = some "READ" then
    some
      { cmd := .read
        addr := cmdElement.addr.getD 0
        length := (cmdElement.length.getD 0).toUInt32
        streamingWidth := 4 }
  else some {}

/-- `get_config`, undefined where a `WRITE` has no data. -/
def getConfig (cmdElements : List CmdElement) : Option (List DataTransfer) :=
  cmdElements.mapM CmdElement.transfer

/-! ## The generator -/

/-- `TrafficDesc::getCmd`. -/
def DataTransfer.getCmd (t : DataTransfer) : TlmCommand :=
  match t.cmd with
  | .write => .write
  | .read => .read
  | _ => .ignore

/-- The transaction of a transfer.  `buffer` is what a new buffer holds. -/
def DataTransfer.trans (t : DataTransfer) (buffer : Nat → UInt8) : GenericPayload where
  command := t.getCmd
  address := t.addr
  data := if t.getCmd = .write then t.data.getD buffer else buffer
  dataLength := t.length
  byteEnable := t.byteEnable.getD fun _ => 0
  byteEnableLength := if t.byteEnable.isSome then t.byteEnableLength else 0
  streamingWidth := t.streamingWidth
  dmiAllowed := false
  responseStatus := .incomplete

/-- The bytes in the data buffer. -/
def buffered (trans : GenericPayload) : List UInt8 :=
  (List.range trans.dataLength.toNat).map trans.data

/-- What ends the simulation. -/
inductive Report where
  | unsupportedAccess
  | notAsExpected
deriving DecidableEq, Repr

/-- `buffers` are the contents of the buffers that will be allocated, and
`received` the bytes that `debugRead` prints. -/
structure Generator where
  mem : Memory
  buffers : Nat → Nat → UInt8
  received : List (List UInt8)

/-- The end of a pass. -/
def Generator.next (s : Generator) (call : Call) : Generator where
  mem := call.mem
  buffers := fun i => s.buffers (i + 1)
  received := if call.trans.isRead then s.received ++ [buffered call.trans] else s.received

/-- The body of the loop of `generate`. -/
def Generator.send (s : Generator) (t : DataTransfer) : Except Report Generator :=
  let call := bTransport s.mem (t.trans (s.buffers 0)) 10
  if call.trans.responseStatus ≠ .ok then .error .unsupportedAccess
  else if t.expect.any fun expect =>
      (List.range t.length.toNat).map expect ≠ buffered call.trans then
    .error .notAsExpected
  else .ok (s.next call)

/-- `generate`, up to the first report. -/
def Generator.generate (s : Generator) (transfers : List DataTransfer) : Except Report Generator :=
  transfers.foldlM Generator.send s

/-! ## The commands one by one -/

/-- What a command means: an element without a known name is an empty read. -/
inductive Command where
  | write (address : Nat) (data : List UInt8)
  | read (address length : Nat)

/-- The bytes of the address space, and what has been read. -/
structure Store where
  bytes : Nat → UInt8
  received : List (List UInt8)

/-- The bytes of a command go through a window of four addresses. -/
def Store.run (size : Int) (s : Store) : Command → Option Store
  | .write address data =>
      if Inside size address 4 data.length then
        some { s with bytes := written address 4 data.length (fun i => data.getD i 0) s.bytes }
      else none
  | .read address length =>
      if Inside size address 4 length then
        some { s with
          received := s.received ++ [(List.range length).map fun i => s.bytes (address + i % 4)] }
      else none

/-- The command of an element. -/
def CmdElement.command (cmdElement : CmdElement) : Command :=
  if cmdElement.name = some "WRITE" then
    .write (cmdElement.addr.getD 0).toNat (parseDataString (cmdElement.data.getD []))
  else if cmdElement.name = some "READ" then
    .read (cmdElement.addr.getD 0).toNat (cmdElement.length.getD 0).toNat
  else .read 0 0

/-- The lengths fit the 32 bits of a transfer, and the window does not wrap
around. -/
structure CmdElement.Fits (cmdElement : CmdElement) : Prop where
  data : (parseDataString (cmdElement.data.getD [])).length < 0x100000000
  length : (cmdElement.length.getD 0).toNat < 0x100000000
  window : (cmdElement.addr.getD 0).toNat + 4 < 0x10000000000000000

/-! ## Refinement -/

/-- The generator holds the bytes of the store. -/
structure Simulates (size : Int64) (s : Generator) (store : Store) : Prop where
  size : s.mem.size = size
  represents : Represents s.mem store.bytes
  received : s.received = store.received

/-- The outcome of a run agrees with that of the commands. -/
def Agrees (size : Int64) (outcome : Except Report Generator) : Option Store → Prop
  | none => outcome = .error .unsupportedAccess
  | some store => ∃ s, outcome = .ok s ∧ Simulates size s store

section Send

variable {size : Int64} {s : Generator} {store : Store} {t : DataTransfer}

/-- The call of a transfer. -/
abbrev call (s : Generator) (t : DataTransfer) : Call :=
  bTransport s.mem (t.trans (s.buffers 0)) 10

theorem send_ok (expect : t.expect = none) (status : (call s t).trans.responseStatus = .ok) :
    s.send t = .ok (s.next (call s t)) := by
  rw [Generator.send, expect, status]
  rfl

theorem send_fails (status : (call s t).trans.responseStatus = .addressError) :
    s.send t = .error .unsupportedAccess := by
  rw [Generator.send, status]
  rfl

variable (nonneg : 0 ≤ size.toInt) (simulates : Simulates size s store) (expect : t.expect = none)
  (enables : t.byteEnable = none) (width : t.streamingWidth = 4)
  (window : t.addr.toNat + 4 < 0x10000000000000000)

include enables width window

theorem windowed_trans (transfer : t.getCmd ≠ .ignore) (buffer : Nat → UInt8) :
    Windowed (t.trans buffer) 4 where
  command := transfer
  enables := by
    change (if t.byteEnable.isSome then t.byteEnableLength else 0) = 0
    rw [enables]
    rfl
  width := by
    change (if t.streamingWidth = 0 then t.length else t.streamingWidth).toNat = 4
    rw [width]
    rfl
  pos := by decide
  noWrap := window

include nonneg simulates

theorem send_outside (transfer : t.getCmd ≠ .ignore)
    (outside : ¬ Inside size.toInt t.addr.toNat 4 t.length.toNat) :
    s.send t = .error .unsupportedAccess := by
  rcases simulates with ⟨rfl, -, -⟩
  exact send_fails
    (((windowed_trans enables width window transfer _).bTransport_eq nonneg 10).2 outside)

include expect

theorem send_write (write : t.getCmd = .write) {data : List UInt8}
    (pointer : t.data = some fun i => data.getD i 0) (length : t.length.toNat = data.length) :
    Agrees size (s.send t) (store.run size.toInt (.write t.addr.toNat data)) := by
  have transfer : t.getCmd ≠ .ignore := by
    rw [write]
    decide
  rw [Store.run, ← length]
  split_ifs with inside
  · rcases simulates with ⟨rfl, represents, received⟩
    have windowed := windowed_trans enables width window transfer (s.buffers 0)
    rcases windowed.bTransport_write nonneg write inside represents 10 with
      ⟨trans, same, writes⟩
    have buffer : (t.trans (s.buffers 0)).data = fun i => data.getD i 0 := by
      rw [DataTransfer.trans, if_pos write, pointer]
      rfl
    rw [buffer] at writes
    refine ⟨_, send_ok expect (congrArg GenericPayload.responseStatus trans), same, writes, ?_⟩
    have notRead : (call s t).trans.isRead = false := by
      rw [trans]
      refine decide_eq_false ?_
      change t.getCmd ≠ .read
      rw [write]
      decide
    rw [Generator.next, notRead]
    exact received
  · exact send_outside nonneg simulates enables width window transfer inside

theorem send_read (read : t.getCmd = .read) :
    Agrees size (s.send t) (store.run size.toInt (.read t.addr.toNat t.length.toNat)) := by
  have transfer : t.getCmd ≠ .ignore := by
    rw [read]
    decide
  rw [Store.run]
  split_ifs with inside
  · rcases simulates with ⟨rfl, represents, received⟩
    have windowed := windowed_trans enables width window transfer (s.buffers 0)
    rcases windowed.bTransport_read nonneg read inside represents 10 with
      ⟨trans, same, reads, data⟩
    refine ⟨_, send_ok expect (congrArg GenericPayload.responseStatus trans), same, reads, ?_⟩
    have isRead : (call s t).trans.isRead = true := by
      rw [trans]
      exact decide_eq_true read
    have length : (call s t).trans.dataLength = t.length := congrArg GenericPayload.dataLength trans
    rw [Generator.next, isRead, received, buffered, length]
    exact congrArg (fun bytes => store.received ++ [bytes])
      (List.map_congr_left fun i member => data i (List.mem_range.mp member))
  · exact send_outside nonneg simulates enables width window transfer inside

end Send

/-- The transfer of an element without a known name reads nothing. -/
theorem send_default {size : Int64} {s : Generator} {store : Store}
    (simulates : Simulates size s store) :
    Agrees size (s.send {}) (store.run size.toInt (.read 0 0)) := by
  have empty : call s {} = Call.finish ⟨s.mem, DataTransfer.trans {} (s.buffers 0), 10, []⟩ :=
    bTransport_empty rfl rfl rfl rfl 10
  have inside : Inside size.toInt 0 4 0 := fun _ _ below => absurd below (Nat.not_lt_zero _)
  rw [Store.run, if_pos inside]
  refine ⟨_, send_ok rfl (by rw [empty]; rfl), ?_⟩
  rw [empty]
  exact ⟨simulates.size, simulates.represents,
    congrArg (fun received => received ++ [[]]) simulates.received⟩

/-! ## Runs -/

theorem send_simulates {size : Int64} {s : Generator} {store : Store} {cmdElement : CmdElement}
    {t : DataTransfer} (nonneg : 0 ≤ size.toInt) (simulates : Simulates size s store)
    (fits : cmdElement.Fits) (transfer : cmdElement.transfer = some t) :
    Agrees size (s.send t) (store.run size.toInt cmdElement.command) := by
  rw [CmdElement.transfer] at transfer
  rw [CmdElement.command]
  split_ifs at transfer ⊢ with write read
  · rcases Option.map_eq_some_iff.mp transfer with ⟨dataStr, present, rfl⟩
    rw [present]
    have short := fits.data
    rw [present] at short
    exact send_write nonneg simulates rfl rfl rfl fits.window rfl rfl
      (UInt32.toNat_ofNat_of_lt' short)
  · cases transfer
    have length : (cmdElement.length.getD 0).toUInt32.toNat = (cmdElement.length.getD 0).toNat := by
      rw [UInt64.toNat_toUInt32]
      exact Nat.mod_eq_of_lt fits.length
    rw [← length]
    exact send_read nonneg simulates rfl rfl rfl fits.window rfl
  · cases transfer
    exact send_default simulates

theorem isTransfer_of_transfer {cmdElement : CmdElement} {t : DataTransfer}
    (transfer : cmdElement.transfer = some t) : t.cmd.IsTransfer := by
  rw [CmdElement.transfer] at transfer
  split_ifs at transfer
  · rcases Option.map_eq_some_iff.mp transfer with ⟨dataStr, -, rfl⟩
    exact Or.inr (Or.inl rfl)
  · cases transfer
    exact Or.inl rfl
  · cases transfer
    exact Or.inl rfl

/-- The elements and their transfers. -/
theorem getConfig_forall₂ {cmdElements : List CmdElement} {transfers : List DataTransfer}
    (config : getConfig cmdElements = some transfers) :
    List.Forall₂ (fun cmdElement t => cmdElement.transfer = some t) cmdElements transfers := by
  induction cmdElements generalizing transfers with
  | nil =>
      cases config
      exact .nil
  | cons cmdElement cmdElements ih =>
      rw [getConfig, List.mapM_cons] at config
      rcases Option.bind_eq_some_iff.mp config with ⟨t, transfer, config⟩
      rcases Option.bind_eq_some_iff.mp config with ⟨rest, restConfig, config⟩
      cases config
      exact .cons transfer (ih restConfig)

theorem merge_getConfig {cmdElements : List CmdElement} {transfers : List DataTransfer}
    (config : getConfig cmdElements = some transfers) : merge transfers = transfers := by
  refine merge_eq_self fun t member => ?_
  have elements := getConfig_forall₂ config
  rcases (List.forall₂_iff_get.mp elements) with ⟨length, each⟩
  rcases List.mem_iff_get.mp member with ⟨i, rfl⟩
  exact isTransfer_of_transfer (each i (by omega) i.isLt)

theorem generate_simulates {size : Int64} (nonneg : 0 ≤ size.toInt) {cmdElements : List CmdElement}
    {transfers : List DataTransfer}
    (elements : List.Forall₂ (fun cmdElement t => cmdElement.transfer = some t)
      cmdElements transfers)
    (fits : ∀ cmdElement, cmdElement ∈ cmdElements → cmdElement.Fits) {s : Generator}
    {store : Store} (simulates : Simulates size s store) :
    Agrees size (s.generate transfers)
      ((cmdElements.map CmdElement.command).foldlM (Store.run size.toInt) store) := by
  induction elements generalizing s store with
  | nil => exact ⟨s, rfl, simulates⟩
  | @cons cmdElement t cmdElements transfers transfer elements ih =>
      have step := send_simulates nonneg simulates (fits cmdElement List.mem_cons_self) transfer
      rw [Generator.generate, List.foldlM_cons, List.map_cons, List.foldlM_cons]
      cases ran : store.run size.toInt cmdElement.command with
      | none =>
          rw [ran] at step
          rw [step]
          rfl
      | some after =>
          rw [ran] at step
          rcases step with ⟨s', sent, simulates'⟩
          rw [sent]
          exact ih (fun cmdElement member => fits cmdElement (List.mem_cons_of_mem _ member))
            simulates'

/-- The run of the generator on the merged configuration is the run of the
commands: it ends early at the first command that leaves the memory, and else
reads and leaves the same bytes. -/
theorem generate_config {cmdElements : List CmdElement} {transfers : List DataTransfer}
    (config : getConfig cmdElements = some transfers)
    (fits : ∀ cmdElement, cmdElement ∈ cmdElements → cmdElement.Fits) {size : Int64}
    (nonneg : 0 ≤ size.toInt) {s : Generator} {store : Store}
    (simulates : Simulates size s store) :
    Agrees size (s.generate (merge transfers))
      ((cmdElements.map CmdElement.command).foldlM (Store.run size.toInt) store) := by
  rw [merge_getConfig config]
  exact generate_simulates nonneg (getConfig_forall₂ config) fits simulates

/-- Two bytes are written, and three are read of which one is new. -/
def configured : List CmdElement :=
  [⟨some "WRITE", some 0x1000, some "{0x12, 0x34}".toList, none⟩,
    ⟨some "READ", some 0x1001, none, some 3⟩]

/-- A generator before it runs, on an empty memory. -/
def idle : Generator where
  mem := ⟨0x2000, 0, fun _ => none⟩
  buffers := fun _ _ => 0xcd
  received := []

theorem generate_config_configured :
    ∃ transfers s, getConfig configured = some transfers ∧
      idle.generate (merge transfers) = .ok s ∧ s.received = [[0x34, 0, 0]] := by
  have fits : ∀ cmdElement, cmdElement ∈ configured → cmdElement.Fits := by
    intro cmdElement member
    rcases List.mem_cons.mp member with rfl | later
    · exact ⟨by decide, by decide, by decide⟩
    · cases List.mem_singleton.mp later
      exact ⟨by decide, by decide, by decide⟩
  have agrees := @generate_config configured _ rfl fits 0x2000 (by decide) idle
    ⟨fun _ => 0, []⟩ ⟨rfl, fun _ _ => rfl, rfl⟩
  have ran : ((configured.map CmdElement.command).foldlM
      (Store.run (0x2000 : Int64).toInt) ⟨fun _ => 0, []⟩).map Store.received =
        some [[0x34, 0, 0]] := by
    decide
  rcases Option.map_eq_some_iff.mp ran with ⟨store, run, received⟩
  rw [run] at agrees
  rcases agrees with ⟨s, generated, simulates⟩
  exact ⟨_, s, rfl, generated, simulates.received.trans received⟩

end SystemcTlm.TrafficGen
