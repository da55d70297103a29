import SystemcTlm.Loop.Checked
import Mathlib.Data.Int.Order.Basic
import Mathlib.Logic.Function.Basic

/-!
# The transport call of the memory

`memory::b_transport` moves the bytes of a transaction between its data buffer
and `mem_map`.  With byte enables or a streaming width it goes byte by byte and
checks each address; else it checks the transfer as a whole.
-/

namespace SystemcTlm.TlmMemory

open SystemcTlm.Loop

/-- `tlm_command` -/
inductive TlmCommand where
  | read
  | write
  | ignore
deriving DecidableEq, Repr

/-- `tlm_response_status` -/
inductive TlmResponseStatus where
  | ok
  | incomplete
  | genericError
  | addressError
  | commandError
  | burstError
  | byteEnableError
deriving DecidableEq, Repr

/-- `TLM_BYTE_ENABLED`. -/
def byteEnabled : UInt8 :=
  0xff

/-- A `tlm_generic_payload`: the buffers are functions of the position. -/
structure GenericPayload where
  command : TlmCommand
  address : UInt64
  data : Nat → UInt8
  dataLength : UInt32
  byteEnable : Nat → UInt8
  byteEnableLength : UInt32
  streamingWidth : UInt32
  dmiAllowed : Bool
  responseStatus : TlmResponseStatus

/-- `trans.is_read()` -/
def GenericPayload.isRead (trans : GenericPayload) : Bool :=
  trans.command = .read

/-- The members of `memory`: `size` is an `off_t`. -/
structure Memory where
  size : Int64
  latency : Nat
  memMap : UInt64 → Option UInt8

/-- A call under way.  `accesses` are the keys that `mem_map` was indexed with. -/
structure Call where
  mem : Memory
  trans : GenericPayload
  delay : Nat
  accesses : List UInt64

namespace Call

/-- `mem_map[key] = value`. -/
def store (s : Call) (key : UInt64) (value : UInt8) : Call :=
  { s with
    mem := { s.mem with memMap := Function.update s.mem.memMap key (some value) }
    accesses := s.accesses ++ [key] }

/-- `ptr[pos] = mem_map[key]`, which enters a zero where there is no such key. -/
def readByte (s : Call) (key : UInt64) (pos : Nat) : Call :=
  let value := (s.mem.memMap key).getD 0
  { s.store key value with
    trans := { s.trans with data := Function.update s.trans.data pos value } }

/-- `mem_map[key] = ptr[pos]`. -/
def writeByte (s : Call) (key : UInt64) (pos : Nat) : Call :=
  s.store key (s.trans.data pos)

/-- The status is set, and `SC_REPORT_FATAL` ends the call. -/
def addressError (s : Call) : Call :=
  { s with trans := { s.trans with responseStatus := .addressError } }

end Call

/-! ## The two paths

`trans` is the transaction as it was when the locals were set, and `error` the
state of an early return. -/

/-- `addr + (pos % streaming_width)`. -/
def GenericPayload.byteAddress (trans : GenericPayload) (streamingWidth : UInt32) (pos : Nat) :
    UInt64 :=
  trans.address + UInt64.ofNat (pos % streamingWidth.toNat)

/-- `do_access`: there are no byte enables, or the one of the position is set. -/
def GenericPayload.doAccess (trans : GenericPayload) (pos : Nat) : Bool :=
  trans.byteEnableLength = 0 ∨
    trans.byteEnable (pos % trans.byteEnableLength.toNat) = byteEnabled

/-- The body of the loop of the slow path. -/
def slowByte (trans : GenericPayload) (streamingWidth : UInt32) (s : Call) (pos : Nat) :
    Except Call Call :=
  if trans.doAccess pos then
    if s.mem.size.toUInt64 ≤ trans.byteAddress streamingWidth pos then .error s.addressError
    else if s.trans.isRead then .ok (s.readByte (trans.byteAddress streamingWidth pos) pos)
    else .ok (s.writeByte (trans.byteAddress streamingWidth pos) pos)
  else .ok s

/-- The loop over the bytes, each of which is checked on its own. -/
def slowPath (trans : GenericPayload) (streamingWidth : UInt32) (s : Call) : Except Call Call :=
  (List.range trans.dataLength.toNat).foldlM (slowByte trans streamingWidth) s

/-- The path without byte enables and streaming, with one check for the block. -/
def fastPath (trans : GenericPayload) (s : Call) : Except Call Call :=
  let positions := List.range trans.dataLength.toNat
  if s.mem.size.toUInt64 < trans.address + trans.dataLength.toUInt64 then .error s.addressError
  else if s.trans.command = .read then
    .ok (positions.foldl (fun s i => s.readByte (trans.address + UInt64.ofNat i) i) s)
  else if trans.command = .write then
    .ok (positions.foldl (fun s i => s.writeByte (trans.address + UInt64.ofNat i) i) s)
  else .ok s

/-- A width of zero is the whole length. -/
def GenericPayload.width (trans : GenericPayload) : UInt32 :=
  if trans.streamingWidth = 0 then trans.dataLength else trans.streamingWidth

/-- There are byte enables, or the transfer streams. -/
def GenericPayload.TakesSlowPath (trans : GenericPayload) : Prop :=
  trans.byteEnableLength ≠ 0 ∨ trans.width ≠ trans.dataLength

instance (trans : GenericPayload) : Decidable trans.TakesSlowPath :=
  inferInstanceAs (Decidable (_ ∨ _))

/-- What follows both paths. -/
def Call.finish (s : Call) : Call :=
  { s with
    delay := s.delay + s.mem.latency
    trans := { s.trans with dmiAllowed := true, responseStatus := .ok } }

/-- `memory::b_transport` -/
def bTransport (mem : Memory) (trans : GenericPayload) (delay : Nat) : Call :=
  let s : Call := { mem, trans, delay, accesses := [] }
  match if trans.TakesSlowPath then slowPath trans trans.width s else fastPath trans s with
  | .error s => s
  | .ok s => s.finish

/-! ## The bytes that are moved -/

/-- Where the slow path returns. -/
def slowFails (size : Int64) (trans : GenericPayload) (streamingWidth : UInt32) (pos : Nat) :
    Bool :=
  trans.doAccess pos && decide (size.toUInt64 ≤ trans.byteAddress streamingWidth pos)

/-- The move of a byte by its command. -/
def Call.moveByte (s : Call) (key : UInt64) (pos : Nat) : Call :=
  if s.trans.isRead then s.readByte key pos else s.writeByte key pos

/-- What a byte of the slow path does if its check passes. -/
def slowMove (trans : GenericPayload) (streamingWidth : UInt32) (s : Call) (pos : Nat) : Call :=
  if trans.doAccess pos then s.moveByte (trans.byteAddress streamingWidth pos) pos else s

section Moves

variable (s : Call) (key : UInt64) (pos : Nat)

@[simp]
theorem Call.moveByte_size : (s.moveByte key pos).mem.size = s.mem.size := by
  rw [moveByte]
  split_ifs <;> rfl

@[simp]
theorem Call.moveByte_command : (s.moveByte key pos).trans.command = s.trans.command := by
  rw [moveByte]
  split_ifs <;> rfl

@[simp]
theorem Call.moveByte_accesses : (s.moveByte key pos).accesses = s.accesses ++ [key] := by
  rw [moveByte]
  split_ifs <;> rfl

variable (trans : GenericPayload) (streamingWidth : UInt32)

@[simp]
theorem slowMove_size : (slowMove trans streamingWidth s pos).mem.size = s.mem.size := by
  rw [slowMove]
  split_ifs
  · exact s.moveByte_size _ pos
  · rfl

theorem slowByte_eq :
    slowByte trans streamingWidth s pos =
      if slowFails s.mem.size trans streamingWidth pos then .error s.addressError
      else .ok (slowMove trans streamingWidth s pos) := by
  rw [slowByte, slowFails, slowMove, Call.moveByte]
  cases trans.doAccess pos with
  | false => rfl
  | true =>
      rw [Bool.true_and, if_pos rfl, if_pos rfl]
      simp only [decide_eq_true_eq]
      split_ifs <;> rfl

end Moves

theorem slowPath_eq (trans : GenericPayload) (streamingWidth : UInt32) (s : Call) :
    slowPath trans streamingWidth s =
      checkedLoop (slowFails s.mem.size trans streamingWidth) Call.addressError
        (slowMove trans streamingWidth) (List.range trans.dataLength.toNat) s := by
  rw [slowPath]
  generalize List.range trans.dataLength.toNat = positions
  generalize same : s.mem.size = size
  induction positions generalizing s with
  | nil => rfl
  | cons pos positions ih =>
      rw [List.foldlM_cons, slowByte_eq, same]
      cases check : slowFails size trans streamingWidth pos with
      | true =>
          rw [if_pos rfl, checkedLoop_cons_of_fails check]
          rfl
      | false =>
          rw [if_neg Bool.false_ne_true, checkedLoop_cons_of_not_fails check, ← ih]
          · rfl
          · rw [slowMove_size, same]

/-- The command does not change between the moves. -/
theorem foldl_moveByte_eq (key : Nat → UInt64) (positions : List Nat) (s : Call) :
    positions.foldl (fun s i => s.moveByte (key i) i) s =
      if s.trans.command = .read then positions.foldl (fun s i => s.readByte (key i) i) s
      else positions.foldl (fun s i => s.writeByte (key i) i) s := by
  induction positions generalizing s with
  | nil => exact (ite_self s).symm
  | cons pos positions ih =>
      rw [List.foldl_cons, ih, s.moveByte_command, List.foldl_cons, List.foldl_cons,
        Call.moveByte, GenericPayload.isRead]
      by_cases read : s.trans.command = .read
      · rw [if_pos read, if_pos read, if_pos (decide_eq_true read)]
      · rw [if_neg read, if_neg read, if_neg (by rw [decide_eq_true_iff]; exact read)]

/-- The fast path: one check, and then the moves, of which `IGNORE` makes none. -/
theorem fastPath_eq (trans : GenericPayload) (s : Call) (same : s.trans.command = trans.command) :
    fastPath trans s =
      if s.mem.size.toUInt64 < trans.address + trans.dataLength.toUInt64 then
        .error s.addressError
      else if trans.command = .ignore then .ok s
      else .ok ((List.range trans.dataLength.toNat).foldl
        (fun s i => s.moveByte (trans.address + UInt64.ofNat i) i) s) := by
  rw [fastPath, foldl_moveByte_eq (fun i => trans.address + UInt64.ofNat i), same]
  cases trans.command <;> rfl

/-- The keys that the moves of the slow path use. -/
theorem foldl_slowMove_accesses (trans : GenericPayload) (streamingWidth : UInt32)
    (positions : List Nat) (s : Call) :
    (positions.foldl (slowMove trans streamingWidth) s).accesses =
      s.accesses ++
        (positions.filter trans.doAccess).map (trans.byteAddress streamingWidth) := by
  induction positions generalizing s with
  | nil => exact (List.append_nil _).symm
  | cons pos positions ih =>
      rw [List.foldl_cons, ih, slowMove, List.filter_cons]
      split_ifs
      · rw [s.moveByte_accesses, List.map_cons, List.append_assoc, List.singleton_append]
      · rfl

/-- The keys that the moves of the fast path use. -/
theorem foldl_moveByte_accesses (key : Nat → UInt64) (positions : List Nat) (s : Call) :
    (positions.foldl (fun s i => s.moveByte (key i) i) s).accesses =
      s.accesses ++ positions.map key := by
  induction positions generalizing s with
  | nil => exact (List.append_nil _).symm
  | cons pos positions ih =>
      rw [List.foldl_cons, ih, s.moveByte_accesses, List.map_cons, List.append_assoc,
        List.singleton_append]

/-! ## Addresses -/

theorem toNat_size {size : Int64} (nonneg : 0 ≤ size.toInt) :
    (size.toUInt64.toNat : Int) = size.toInt := by
  rw [Int64.toNat_toUInt64_of_le (Int64.le_iff_toInt_le.mpr nonneg)]
  exact Int.toNat_of_nonneg nonneg

theorem size_lt (size : Int64) : size.toInt < 0x8000000000000000 :=
  size.toInt_lt

theorem dataLength_lt (trans : GenericPayload) : trans.dataLength.toNat < 0x100000000 :=
  trans.dataLength.toNat_lt

theorem toNat_fastAddress (trans : GenericPayload) (i : Nat) :
    (trans.address + UInt64.ofNat i).toNat =
      (trans.address.toNat + i) % 0x10000000000000000 := by
  have offset : (UInt64.ofNat i).toNat = i % 0x10000000000000000 := UInt64.toNat_ofNat'
  rw [UInt64.toNat_add, offset]
  omega

theorem toNat_endAddress (trans : GenericPayload) :
    (trans.address + trans.dataLength.toUInt64).toNat =
      (trans.address.toNat + trans.dataLength.toNat) % 0x10000000000000000 := by
  rw [UInt64.toNat_add, UInt32.toNat_toUInt64]

/-- At the full width, both paths index the map alike. -/
theorem byteAddress_dataLength {trans : GenericPayload} {pos : Nat}
    (inside : pos < trans.dataLength.toNat) :
    trans.byteAddress trans.dataLength pos = trans.address + UInt64.ofNat pos := by
  rw [GenericPayload.byteAddress, Nat.mod_eq_of_lt inside]

end SystemcTlm.TlmMemory
