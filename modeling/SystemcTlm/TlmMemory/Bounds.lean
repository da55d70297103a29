import SystemcTlm.TlmMemory.Transport

/-!
# The address space of the memory

The slow path checks every address that it uses.  The fast path checks the end
of the transfer only, in 64 bits: where the end wraps around to an address
inside the memory, the transfer passes the check and leaves the address space.
-/

namespace SystemcTlm.TlmMemory

open SystemcTlm.Loop

/-- Every byte of the transaction is enabled. -/
def GenericPayload.AllEnabled (trans : GenericPayload) : Prop :=
  ∀ pos, pos < trans.dataLength.toNat → trans.doAccess pos = true

/-- A byte of the transfer lies outside the memory, over the natural numbers. -/
def Outside (mem : Memory) (trans : GenericPayload) : Prop :=
  ∃ i, i < trans.dataLength.toNat ∧ mem.size.toInt ≤ trans.address.toNat + i

/-- Only addresses inside the memory are used, and a whole transfer that does
not lie inside gets the address error. -/
structure StaysInside (mem : Memory) (trans : GenericPayload) (s : Call) : Prop where
  accesses : ∀ key, key ∈ s.accesses → (key.toNat : Int) < mem.size.toInt
  addressError : trans.AllEnabled → trans.width = trans.dataLength → Outside mem trans →
    s.trans.responseStatus = .addressError

/-- The end of the transfer wraps around to an address inside the memory. -/
def WrapsInside (mem : Memory) (trans : GenericPayload) : Prop :=
  0x10000000000000000 ≤ trans.address.toNat + trans.dataLength.toNat ∧
    (trans.address.toNat + trans.dataLength.toNat : Int) - 0x10000000000000000 ≤ mem.size.toInt

variable {mem : Memory} {trans : GenericPayload}

theorem not_slowFails_iff (nonneg : 0 ≤ mem.size.toInt) {pos : Nat}
    (access : trans.doAccess pos = true) :
    slowFails mem.size trans trans.width pos = false ↔
      ((trans.byteAddress trans.width pos).toNat : Int) < mem.size.toInt := by
  have size := toNat_size nonneg
  rw [slowFails, access, Bool.true_and, decide_eq_false_iff_not, UInt64.le_iff_toNat_le]
  omega

/-- The keys of the positions that pass the check lie inside. -/
theorem slow_accesses_inside (nonneg : 0 ≤ mem.size.toInt) {delay : Nat} {positions : List Nat}
    (passed : ∀ pos, pos ∈ positions → slowFails mem.size trans trans.width pos = false)
    (key : UInt64)
    (used : key ∈
      (positions.foldl (slowMove trans trans.width) ⟨mem, trans, delay, []⟩).accesses) :
    (key.toNat : Int) < mem.size.toInt := by
  rw [foldl_slowMove_accesses, List.nil_append, List.mem_map] at used
  rcases used with ⟨pos, member, rfl⟩
  rcases List.mem_filter.mp member with ⟨visited, access⟩
  exact (not_slowFails_iff nonneg access).mp (passed pos visited)

/-- A whole transfer with a byte outside fails some check: at that byte, or at
the first one where the address of that byte wraps around. -/
theorem exists_slowFails (nonneg : 0 ≤ mem.size.toInt) (enabled : trans.AllEnabled)
    (width : trans.width = trans.dataLength) (outside : Outside mem trans) :
    ∃ pos, pos < trans.dataLength.toNat ∧ slowFails mem.size trans trans.width pos = true := by
  rcases outside with ⟨i, inside, beyond⟩
  have small := size_lt mem.size
  have length := dataLength_lt trans
  have fails : ∀ pos, pos < trans.dataLength.toNat →
      mem.size.toInt ≤ ((trans.address + UInt64.ofNat pos).toNat : Int) →
      slowFails mem.size trans trans.width pos = true := by
    intro pos posInside leaves
    rw [← Bool.not_eq_false, not_slowFails_iff nonneg (enabled pos posInside), width,
      byteAddress_dataLength posInside]
    omega
  by_cases wraps : trans.address.toNat + i < 0x10000000000000000
  · refine ⟨i, inside, fails i inside ?_⟩
    rw [toNat_fastAddress]
    omega
  · have first : 0 < trans.dataLength.toNat := by omega
    have address := trans.address.toNat_lt
    refine ⟨0, first, fails 0 first ?_⟩
    rw [toNat_fastAddress]
    omega

theorem staysInside_slow (nonneg : 0 ≤ mem.size.toInt) (slow : trans.TakesSlowPath) (delay : Nat) :
    StaysInside mem trans (bTransport mem trans delay) := by
  rw [bTransport, if_pos slow, slowPath_eq]
  by_cases fails : ∃ pos, pos < trans.dataLength.toNat ∧
      slowFails mem.size trans trans.width pos = true
  · rcases fails with ⟨pos, inside, failed⟩
    rw [checkedLoop_eq_error (List.mem_range.mpr inside) failed]
    refine ⟨slow_accesses_inside nonneg fun pos member => ?_, fun _ _ _ => rfl⟩
    have passed := List.mem_takeWhile_imp member
    rwa [Bool.not_eq_true'] at passed
  · have passed : ∀ pos, pos ∈ List.range trans.dataLength.toNat →
        slowFails mem.size trans trans.width pos = false := fun pos member =>
      Bool.not_eq_true _ ▸ fun failed => fails ⟨pos, List.mem_range.mp member, failed⟩
    rw [checkedLoop_eq_ok passed]
    refine ⟨slow_accesses_inside nonneg passed, fun enabled width outside => ?_⟩
    exact absurd (exists_slowFails nonneg enabled width outside) fails

/-- The keys that a transfer on the fast path uses. -/
theorem fast_accesses (command : trans.command ≠ .ignore) (fast : ¬ trans.TakesSlowPath)
    (delay : Nat)
    (passes : ¬ mem.size.toUInt64 < trans.address + trans.dataLength.toUInt64) :
    (bTransport mem trans delay).accesses =
      (List.range trans.dataLength.toNat).map fun i => trans.address + UInt64.ofNat i := by
  have used := foldl_moveByte_accesses (fun i => trans.address + UInt64.ofNat i)
    (List.range trans.dataLength.toNat) ⟨mem, trans, delay, []⟩
  rw [bTransport, if_neg fast, fastPath_eq trans ⟨mem, trans, delay, []⟩ rfl, if_neg passes, if_neg command]
  exact used

theorem staysInside_fast_iff (nonneg : 0 ≤ mem.size.toInt) (command : trans.command ≠ .ignore)
    (fast : ¬ trans.TakesSlowPath) (delay : Nat) :
    StaysInside mem trans (bTransport mem trans delay) ↔ ¬ WrapsInside mem trans := by
  have size := toNat_size nonneg
  have small := size_lt mem.size
  have length := dataLength_lt trans
  have last := toNat_endAddress trans
  have address := trans.address.toNat_lt
  by_cases passes : mem.size.toUInt64 < trans.address + trans.dataLength.toUInt64
  · have failed : bTransport mem trans delay =
        Call.addressError ⟨mem, trans, delay, []⟩ := by
      rw [bTransport, if_neg fast, fastPath_eq trans ⟨mem, trans, delay, []⟩ rfl, if_pos passes]
    rw [failed]
    refine iff_of_true ⟨fun key => (nomatch ·), fun _ _ _ => rfl⟩ ?_
    rw [UInt64.lt_iff_toNat_lt] at passes
    rintro ⟨wraps, inside⟩
    omega
  · have used := fast_accesses command fast delay passes
    rw [UInt64.lt_iff_toNat_lt] at passes
    by_cases wraps : 0x10000000000000000 ≤ trans.address.toNat + trans.dataLength.toNat
    · refine iff_of_false (fun stays => ?_) (not_not.mpr ⟨wraps, by omega⟩)
      have first : 0 < trans.dataLength.toNat := by omega
      have inside := stays.accesses (trans.address + UInt64.ofNat 0) (by
        rw [used]
        exact List.mem_map_of_mem (List.mem_range.mpr first))
      rw [toNat_fastAddress] at inside
      omega
    · refine iff_of_true ⟨fun key member => ?_, fun _ _ outside => ?_⟩ fun wrapped => wraps wrapped.1
      · rw [used, List.mem_map] at member
        rcases member with ⟨i, inside, rfl⟩
        have below := List.mem_range.mp inside
        rw [toNat_fastAddress]
        omega
      · rcases outside with ⟨i, inside, beyond⟩
        omega

/-- The call stays inside the memory unless it takes the fast path and the end
of its transfer wraps around to an address inside. -/
theorem staysInside_iff (nonneg : 0 ≤ mem.size.toInt) (command : trans.command ≠ .ignore)
    (delay : Nat) :
    StaysInside mem trans (bTransport mem trans delay) ↔
      trans.TakesSlowPath ∨ ¬ WrapsInside mem trans := by
  by_cases slow : trans.TakesSlowPath
  · exact iff_of_true (staysInside_slow nonneg slow delay) (Or.inl slow)
  · rw [staysInside_fast_iff nonneg command slow delay]
    exact (or_iff_right slow).symm

/-- A read of two bytes from the last address. -/
def readLast : GenericPayload where
  command := .read
  address := 0xffffffffffffffff
  data _ := 0
  dataLength := 2
  byteEnable _ := 0
  byteEnableLength := 0
  streamingWidth := 2
  dmiAllowed := false
  responseStatus := .incomplete

/-- An empty memory of sixteen bytes. -/
def smallMemory : Memory where
  size := 16
  latency := 1
  memMap _ := none

theorem staysInside_iff_readLast :
    StaysInside smallMemory readLast (bTransport smallMemory readLast 0) ↔
      readLast.TakesSlowPath ∨ ¬ WrapsInside smallMemory readLast :=
  staysInside_iff (by decide) (by decide) 0

/-- The read uses the last address of the 64 bits and is accepted. -/
theorem not_staysInside_readLast :
    (bTransport smallMemory readLast 0).accesses = [0xffffffffffffffff, 0] ∧
      (bTransport smallMemory readLast 0).trans.responseStatus = .ok ∧
      ¬ ∀ (mem : Memory) (trans : GenericPayload) (delay : Nat), 0 ≤ mem.size.toInt →
        trans.command ≠ .ignore → StaysInside mem trans (bTransport mem trans delay) := by
  have used : (bTransport smallMemory readLast 0).accesses = [0xffffffffffffffff, 0] := by
    decide +kernel
  refine ⟨used, by decide +kernel, fun all => ?_⟩
  have inside := (all smallMemory readLast 0 (by decide) (by decide)).accesses
    0xffffffffffffffff (by rw [used]; exact List.mem_cons_self)
  exact absurd inside (by decide)

end SystemcTlm.TlmMemory
