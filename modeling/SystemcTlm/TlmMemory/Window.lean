import SystemcTlm.Loop.Window
import SystemcTlm.TlmMemory.Paths

/-!
# Transfers through a window

A transaction with all bytes enabled moves its bytes through a window of the
streaming width.  Where the window does not wrap around, a call acts on the bytes
of the address space as on one table, by either path.
-/

namespace SystemcTlm.TlmMemory

open SystemcTlm.Loop

/-- A read or write of bytes that are all enabled, through a window of width `w`. -/
structure Windowed (trans : GenericPayload) (w : Nat) : Prop where
  command : trans.command ≠ .ignore
  enables : trans.byteEnableLength = 0
  width : trans.width.toNat = w
  pos : 0 < w
  noWrap : trans.address.toNat + w < 0x10000000000000000

/-- Every byte lies inside the memory. -/
def Inside (size : Int) (address w n : Nat) : Prop :=
  ∀ place, place < w → place < n → (address + place : Nat) < size

instance (size : Int) (address w n : Nat) : Decidable (Inside size address w n) :=
  inferInstanceAs (Decidable (∀ place, place < w → place < n → (address + place : Nat) < size))

/-- The bytes of the address space.  Those that have not been written are zero. -/
def Represents (mem : Memory) (bytes : Nat → UInt8) : Prop :=
  ∀ a, a < 0x10000000000000000 → (mem.memMap (UInt64.ofNat a)).getD 0 = bytes a

/-- `n` bytes have been written through the window. -/
def written (address w n : Nat) (data bytes : Nat → UInt8) : Nat → UInt8 :=
  fun a => if address ≤ a ∧ a < address + min w n then data (lastPosition w n (a - address))
    else bytes a

/-- A window as wide as the data. -/
theorem written_whole (address n : Nat) (data bytes : Nat → UInt8) :
    written address n n data bytes = fun a =>
      if address ≤ a ∧ a < address + n then data (a - address) else bytes a := by
  funext a
  rw [written, Nat.min_self]
  refine if_ctx_congr Iff.rfl (fun inside => ?_) fun _ => rfl
  rw [lastPosition, Nat.mod_eq_of_lt (by omega)]
  congr 1
  omega

/-- The moves of all bytes. -/
def moves (trans : GenericPayload) (s : Call) : Call :=
  (List.range trans.dataLength.toNat).foldl
    (fun s i => s.moveByte (trans.byteAddress trans.width i) i) s

variable {mem : Memory} {trans : GenericPayload} {w : Nat} {bytes : Nat → UInt8}

namespace Windowed

variable (windowed : Windowed trans w)

include windowed

theorem doAccess (pos : Nat) : trans.doAccess pos = true :=
  decide_eq_true (Or.inl windowed.enables)

/-- The key of a place of the window. -/
theorem toNat_key {place : Nat} (inside : place < w) :
    (trans.address + UInt64.ofNat place).toNat = trans.address.toNat + place := by
  have bound := windowed.noWrap
  rw [toNat_fastAddress]
  omega

theorem byteAddress_eq (pos : Nat) :
    trans.byteAddress trans.width pos = trans.address + UInt64.ofNat (pos % w) := by
  rw [GenericPayload.byteAddress, windowed.width]

theorem key_injective (i j : Nat) (iInside : i < w) (jInside : j < w)
    (same : trans.address + UInt64.ofNat i = trans.address + UInt64.ofNat j) : i = j := by
  have toNat := congrArg UInt64.toNat same
  rw [windowed.toNat_key iInside, windowed.toNat_key jInside] at toNat
  omega

theorem slowFails_iff (nonneg : 0 ≤ mem.size.toInt) (pos : Nat) :
    slowFails mem.size trans trans.width pos = true ↔
      mem.size.toInt ≤ (trans.address.toNat + pos % w : Nat) := by
  have size := toNat_size nonneg
  have key := windowed.toNat_key (Nat.mod_lt pos windowed.pos)
  rw [slowFails, windowed.doAccess, Bool.true_and, decide_eq_true_iff, windowed.byteAddress_eq,
    UInt64.le_iff_toNat_le]
  omega

theorem inside_iff (size : Int) : Inside size trans.address.toNat w trans.dataLength.toNat ↔
    ∀ pos, pos < trans.dataLength.toNat → (trans.address.toNat + pos % w : Nat) < size := by
  constructor
  · intro inside pos below
    exact inside (pos % w) (Nat.mod_lt pos windowed.pos) ((Nat.mod_le pos w).trans_lt below)
  · intro inside place within below
    have here := inside place below
    rwa [Nat.mod_eq_of_lt within] at here

theorem exists_beyond {size : Int}
    (outside : ¬ Inside size trans.address.toNat w trans.dataLength.toNat) :
    ∃ pos, pos < trans.dataLength.toNat ∧ size ≤ (trans.address.toNat + pos % w : Nat) := by
  by_contra never
  refine outside ((windowed.inside_iff size).mpr fun pos below => ?_)
  by_contra beyond
  exact never ⟨pos, below, not_lt.mp beyond⟩

/-- The call moves all bytes if they lie inside the memory, and else returns early. -/
theorem bTransport_eq (nonneg : 0 ≤ mem.size.toInt) (delay : Nat) :
    (Inside mem.size.toInt trans.address.toNat w trans.dataLength.toNat →
      bTransport mem trans delay =
        (moves trans ⟨mem, trans, delay, []⟩).finish) ∧
    (¬ Inside mem.size.toInt trans.address.toNat w trans.dataLength.toNat →
      (bTransport mem trans delay).trans.responseStatus = .addressError) := by
  have size := toNat_size nonneg
  by_cases slow : trans.TakesSlowPath
  · rw [bTransport, if_pos slow, slowPath_eq]
    constructor
    · intro inside
      rw [checkedLoop_eq_ok fun pos member => by
        rw [Bool.eq_false_iff, ne_eq, windowed.slowFails_iff nonneg]
        exact not_le.mpr ((windowed.inside_iff _).mp inside pos (List.mem_range.mp member))]
      refine congrArg Call.finish (List.foldl_ext _ _ _ fun s pos _ => ?_)
      rw [slowMove, if_pos (windowed.doAccess pos)]
    · intro outside
      rcases windowed.exists_beyond outside with ⟨pos, below, beyond⟩
      rw [checkedLoop_eq_error (List.mem_range.mpr below)
        ((windowed.slowFails_iff nonneg pos).mpr beyond)]
      rfl
  · have width : trans.width = trans.dataLength := by
      by_contra narrow
      exact slow (Or.inr narrow)
    have whole : w = trans.dataLength.toNat := by
      rw [← windowed.width, width]
    have noWrap := windowed.noWrap
    have last := toNat_endAddress trans
    rw [bTransport, if_neg slow, fastPath_eq trans ⟨mem, trans, delay, []⟩ rfl]
    constructor
    · intro inside
      have pos := windowed.pos
      have final := inside (trans.dataLength.toNat - 1) (by omega) (by omega)
      have passes : ¬ mem.size.toUInt64 < trans.address + trans.dataLength.toUInt64 := by
        rw [UInt64.lt_iff_toNat_lt]
        omega
      rw [if_neg passes, if_neg windowed.command]
      refine congrArg Call.finish (List.foldl_ext _ _ _ fun s pos member => ?_)
      rw [width, byteAddress_dataLength (List.mem_range.mp member)]
    · intro outside
      rcases windowed.exists_beyond outside with ⟨pos, below, beyond⟩
      rw [Nat.mod_eq_of_lt (whole ▸ below)] at beyond
      have fails : mem.size.toUInt64 < trans.address + trans.dataLength.toUInt64 := by
        rw [UInt64.lt_iff_toNat_lt]
        omega
      rw [if_pos fails]
      rfl

end Windowed

/-! ## Writes -/

theorem writes_memMap (key : Nat → UInt64) (w n : Nat) (s : Call) :
    (writes (fun i => key (i % w)) n s).mem.memMap =
      writeWindow key (fun i => some (s.trans.data i)) w n s.mem.memMap := by
  induction n with
  | zero => rfl
  | succ n ih =>
      rw [writes_succ, writeWindow_succ, ← ih, Call.writeByte, Call.store, writes_trans]

theorem writes_size (key : Nat → UInt64) (n : Nat) (s : Call) :
    (writes key n s).mem.size = s.mem.size := by
  induction n with
  | zero => rfl
  | succ n ih =>
      rw [writes_succ]
      exact ih

/-! ## Reads -/

/-- `n` bytes are read. -/
def reads (key : Nat → UInt64) (n : Nat) (s : Call) : Call :=
  (List.range n).foldl (fun s i => s.readByte (key i) i) s

section Reads

variable (key : Nat → UInt64) (n : Nat) (s : Call)

theorem reads_succ : reads key (n + 1) s = (reads key n s).readByte (key n) n := by
  rw [reads, List.range_succ, List.foldl_append]
  rfl

theorem reads_trans : (reads key n s).trans = { s.trans with data := (reads key n s).trans.data } := by
  induction n with
  | zero => rfl
  | succ n ih =>
      have after : (reads key (n + 1) s).trans = { (reads key n s).trans with
          data := (reads key (n + 1) s).trans.data } := by
        rw [reads_succ]
        rfl
      rw [after, ih]

/-- A read may enter a zero in the map, which stands for the same byte. -/
theorem reads_spec : (reads key n s).mem.size = s.mem.size ∧
    (∀ a, ((reads key n s).mem.memMap a).getD 0 = (s.mem.memMap a).getD 0) ∧
    ∀ i, i < n → (reads key n s).trans.data i = (s.mem.memMap (key i)).getD 0 := by
  induction n with
  | zero => exact ⟨rfl, fun _ => rfl, fun _ below => absurd below (Nat.not_lt_zero _)⟩
  | succ n ih =>
      rcases ih with ⟨size, same, data⟩
      rw [reads_succ]
      refine ⟨size, fun a => ?_, fun i inside => ?_⟩
      · rw [← same a]
        change (Function.update (reads key n s).mem.memMap (key n) _ a).getD 0 = _
        by_cases here : a = key n
        · rw [here, Function.update_self]
          rfl
        · rw [Function.update_of_ne here]
      · change Function.update (reads key n s).trans.data n _ i = _
        by_cases last : i = n
        · rw [last, Function.update_self, same]
        · rw [Function.update_of_ne last]
          exact data i (by omega)

end Reads

/-! ## Calls -/

namespace Windowed

variable (windowed : Windowed trans w)

include windowed

theorem moves_write (write : trans.command = .write) (s : Call)
    (same : s.trans.command = trans.command) :
    moves trans s = writes (fun i => trans.address + UInt64.ofNat (i % w))
      trans.dataLength.toNat s := by
  have notRead : s.trans.command ≠ .read := by
    rw [same, write]
    decide
  rw [moves, foldl_moveByte_eq, if_neg notRead, writes]
  refine List.foldl_ext _ _ _ fun s i _ => ?_
  rw [windowed.byteAddress_eq]

theorem moves_read (read : trans.command = .read) (s : Call)
    (same : s.trans.command = trans.command) :
    moves trans s = reads (fun i => trans.address + UInt64.ofNat (i % w))
      trans.dataLength.toNat s := by
  rw [moves, foldl_moveByte_eq, if_pos (same.trans read), reads]
  refine List.foldl_ext _ _ _ fun s i _ => ?_
  rw [windowed.byteAddress_eq]

/-- A write inside the memory. -/
theorem bTransport_write (nonneg : 0 ≤ mem.size.toInt) (write : trans.command = .write)
    (inside : Inside mem.size.toInt trans.address.toNat w trans.dataLength.toNat)
    (represents : Represents mem bytes) (delay : Nat) :
    (bTransport mem trans delay).trans =
        { trans with dmiAllowed := true, responseStatus := .ok } ∧
      (bTransport mem trans delay).mem.size = mem.size ∧
      Represents (bTransport mem trans delay).mem
        (written trans.address.toNat w trans.dataLength.toNat trans.data bytes) := by
  rw [(windowed.bTransport_eq nonneg delay).1 inside, windowed.moves_write write _ rfl]
  refine ⟨?_, writes_size _ _ _, fun a bound => ?_⟩
  · change { (writes _ _ _).trans with dmiAllowed := true, responseStatus := .ok } = _
    rw [writes_trans]
  change ((writes _ _ _).mem.memMap (UInt64.ofNat a)).getD 0 = _
  have toNat : (UInt64.ofNat a).toNat = a := UInt64.toNat_ofNat_of_lt' bound
  rw [writes_memMap (fun place => trans.address + UInt64.ofNat place), written]
  split_ifs with within
  · have place : UInt64.ofNat a = trans.address + UInt64.ofNat (a - trans.address.toNat) := by
      apply UInt64.toNat_inj.mp
      rw [windowed.toNat_key (by omega), toNat]
      omega
    rw [place, writeWindow_key windowed.key_injective (by omega) (by omega)]
    rfl
  · rw [writeWindow_of_ne windowed.pos]
    · exact represents a bound
    · intro place inWindow written same
      have toNat' := congrArg UInt64.toNat same
      rw [toNat, windowed.toNat_key inWindow] at toNat'
      omega

/-- A read inside the memory. -/
theorem bTransport_read (nonneg : 0 ≤ mem.size.toInt) (read : trans.command = .read)
    (inside : Inside mem.size.toInt trans.address.toNat w trans.dataLength.toNat)
    (represents : Represents mem bytes) (delay : Nat) :
    (bTransport mem trans delay).trans =
        { trans with
          data := (bTransport mem trans delay).trans.data
          dmiAllowed := true
          responseStatus := .ok } ∧
      (bTransport mem trans delay).mem.size = mem.size ∧
      Represents (bTransport mem trans delay).mem bytes ∧
      ∀ i, i < trans.dataLength.toNat →
        (bTransport mem trans delay).trans.data i = bytes (trans.address.toNat + i % w) := by
  rw [(windowed.bTransport_eq nonneg delay).1 inside, windowed.moves_read read _ rfl]
  rcases reads_spec (fun i => trans.address + UInt64.ofNat (i % w)) trans.dataLength.toNat
    ⟨mem, trans, delay, []⟩ with ⟨size, same, data⟩
  refine ⟨?_, size, fun a bound => (same _).trans (represents a bound), fun i below => ?_⟩
  · change { (reads _ _ _).trans with dmiAllowed := true, responseStatus := .ok } =
      { trans with data := (reads _ _ _).trans.data, dmiAllowed := true, responseStatus := .ok }
    rw [reads_trans]
  refine (data i below).trans ?_
  have bound := windowed.noWrap
  have place := Nat.mod_lt i windowed.pos
  have key : trans.address + UInt64.ofNat (i % w) =
      UInt64.ofNat (trans.address.toNat + i % w) := by
    apply UInt64.toNat_inj.mp
    rw [windowed.toNat_key place, UInt64.toNat_ofNat_of_lt' (by change _ < 2 ^ 64; omega)]
  rw [key]
  exact represents _ (by omega)

end Windowed

/-- A call without bytes. -/
theorem bTransport_empty (length : trans.dataLength = 0)
    (enables : trans.byteEnableLength = 0) (width : trans.streamingWidth = 0)
    (address : trans.address = 0) (delay : Nat) :
    bTransport mem trans delay = Call.finish ⟨mem, trans, delay, []⟩ := by
  have fast : ¬ trans.TakesSlowPath := by
    rintro (some | narrow)
    · exact some enables
    · refine narrow ?_
      rw [GenericPayload.width, if_pos width]
  have passes : ¬ mem.size.toUInt64 < trans.address + trans.dataLength.toUInt64 := by
    rw [address, length, UInt64.lt_iff_toNat_lt]
    exact Nat.not_lt_zero _
  rw [bTransport, if_neg fast, fastPath_eq trans ⟨mem, trans, delay, []⟩ rfl, if_neg passes, length]
  split_ifs <;> rfl

end SystemcTlm.TlmMemory
