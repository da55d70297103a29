import SystemcTlm.TlmMemory.Transport
import Mathlib.Data.List.Basic

/-!
# The two paths of a transport call

A transfer at its full width with every byte enabled is the same transfer as
one without byte enables.  The slow path moves the same bytes as the fast one,
except for `IGNORE`: there the fast path moves nothing, and the slow path, which
asks for `READ` only, writes.
-/

namespace SystemcTlm.TlmMemory

open SystemcTlm.Loop

/-- The transaction without its byte enables. -/
def GenericPayload.withoutEnables (trans : GenericPayload) : GenericPayload :=
  { trans with byteEnableLength := 0 }

/-- The call without the byte enables of its transaction. -/
def Call.withoutEnables (s : Call) : Call :=
  { s with trans := s.trans.withoutEnables }

/-- A transfer inside the memory, at its full width and with every byte enabled. -/
structure FullTransfer (mem : Memory) (trans : GenericPayload) : Prop where
  nonempty : 1 ≤ trans.dataLength.toNat
  inside : (trans.address.toNat : Int) + trans.dataLength.toNat ≤ mem.size.toInt
  width : trans.streamingWidth = trans.dataLength
  enables : 1 ≤ trans.byteEnableLength.toNat
  enabled : ∀ i, i < trans.byteEnableLength.toNat → trans.byteEnable i = byteEnabled

/-- The same memory contents, data buffer and status. -/
structure Agree (first second : Call) : Prop where
  memMap : first.mem.memMap = second.mem.memMap
  data : first.trans.data = second.trans.data
  responseStatus : first.trans.responseStatus = second.trans.responseStatus

variable {mem : Memory} {trans : GenericPayload}

/-- The moves of a whole transfer. -/
def transfer (trans : GenericPayload) (s : Call) : Call :=
  (List.range trans.dataLength.toNat).foldl
    (fun s i => s.moveByte (trans.address + UInt64.ofNat i) i) s

namespace FullTransfer

variable (full : FullTransfer mem trans)

include full

theorem size_nonneg : 0 ≤ mem.size.toInt := by
  have inside := full.inside
  omega

theorem width_eq : trans.width = trans.dataLength := by
  rw [GenericPayload.width, full.width]
  split_ifs <;> rfl

theorem doAccess (pos : Nat) : trans.doAccess pos = true :=
  decide_eq_true (Or.inr (full.enabled _ (Nat.mod_lt _ full.enables)))

theorem not_slowFails {pos : Nat} (inside : pos < trans.dataLength.toNat) :
    slowFails mem.size trans trans.width pos = false := by
  have limit := full.inside
  have size := toNat_size full.size_nonneg
  have small := size_lt mem.size
  have address := toNat_fastAddress trans pos
  rw [slowFails, full.doAccess, Bool.true_and, decide_eq_false_iff_not, full.width_eq,
    byteAddress_dataLength inside, UInt64.le_iff_toNat_le]
  omega

theorem slowPath_eq_transfer (s : Call) (same : s.mem.size = mem.size) :
    slowPath trans trans.width s = .ok (transfer trans s) := by
  rw [slowPath_eq, same, checkedLoop_eq_ok fun pos member =>
    full.not_slowFails (List.mem_range.mp member), transfer]
  refine congrArg Except.ok (List.foldl_ext _ _ s fun s pos member => ?_)
  rw [slowMove, if_pos (full.doAccess pos), full.width_eq,
    byteAddress_dataLength (List.mem_range.mp member)]

theorem fastPath_withoutEnables (s : Call) (same : s.mem.size = mem.size)
    (command : s.trans.command = trans.command) :
    fastPath trans.withoutEnables s =
      if trans.command = .ignore then .ok s else .ok (transfer trans s) := by
  have limit := full.inside
  have size := toNat_size full.size_nonneg
  have small := size_lt mem.size
  have last := toNat_endAddress trans
  have passes : ¬ s.mem.size.toUInt64 < trans.address + trans.dataLength.toUInt64 := by
    rw [UInt64.lt_iff_toNat_lt, same]
    omega
  rw [fastPath_eq trans.withoutEnables s command]
  exact if_neg passes

theorem bTransport_slow (delay : Nat) :
    bTransport mem trans delay = (transfer trans ⟨mem, trans, delay, []⟩).finish := by
  have slow : trans.TakesSlowPath := by
    refine Or.inl fun zero => ?_
    have enables := full.enables
    rw [zero] at enables
    exact absurd enables (by decide)
  rw [bTransport, if_pos slow, full.slowPath_eq_transfer _ rfl]

theorem bTransport_fast (delay : Nat) :
    bTransport mem trans.withoutEnables delay =
      (if trans.command = .ignore then ⟨mem, trans.withoutEnables, delay, []⟩
        else transfer trans (Call.withoutEnables ⟨mem, trans, delay, []⟩) : Call).finish := by
  have fast : ¬ trans.withoutEnables.TakesSlowPath := by
    rintro (enables | narrow)
    · exact enables rfl
    · exact narrow full.width_eq
  rw [bTransport, if_neg fast,
    full.fastPath_withoutEnables ⟨mem, trans.withoutEnables, delay, []⟩ rfl rfl]
  cases trans.command <;> rfl

end FullTransfer

/-- The moves do not look at the byte enables. -/
theorem transfer_withoutEnables (trans : GenericPayload) (s : Call) :
    transfer trans s.withoutEnables = (transfer trans s).withoutEnables := by
  refine List.foldl_hom Call.withoutEnables ?_
  intro s i
  rw [Call.moveByte, Call.moveByte]
  change (if s.trans.isRead = true then _ else _) = _
  split_ifs <;> rfl

/-! ## Writes -/

/-- The keys of a transfer are distinct. -/
theorem fastAddress_injective (trans : GenericPayload) {i j : Nat}
    (iInside : i < trans.dataLength.toNat) (jInside : j < trans.dataLength.toNat)
    (same : trans.address + UInt64.ofNat i = trans.address + UInt64.ofNat j) : i = j := by
  have small := dataLength_lt trans
  have toNat := congrArg UInt64.toNat same
  rw [toNat_fastAddress, toNat_fastAddress] at toNat
  omega

section Writes

variable (key : Nat → UInt64) (n : Nat) (s : Call)

/-- `n` bytes of the buffer are written. -/
def writes : Call :=
  (List.range n).foldl (fun s i => s.writeByte (key i) i) s

theorem writes_succ : writes key (n + 1) s = (writes key n s).writeByte (key n) n := by
  rw [writes, List.range_succ, List.foldl_append]
  rfl

theorem writes_trans : (writes key n s).trans = s.trans := by
  induction n with
  | zero => rfl
  | succ n ih =>
      rw [writes_succ]
      exact ih

variable {key n s}

theorem writes_memMap_of_lt (injective : ∀ i j, i < n → j < n → key i = key j → i = j) {i : Nat}
    (inside : i < n) : (writes key n s).mem.memMap (key i) = some (s.trans.data i) := by
  induction n with
  | zero => omega
  | succ n ih =>
      have written : ∀ k, (writes key (n + 1) s).mem.memMap k =
          Function.update (writes key n s).mem.memMap (key n) (some (s.trans.data n)) k := by
        intro k
        rw [writes_succ, Call.writeByte, Call.store, writes_trans]
      rw [written]
      by_cases last : i = n
      · rw [last, Function.update_self]
      · have distinct : key i ≠ key n := fun same => last (injective i n (by omega) (by omega) same)
        rw [Function.update_of_ne distinct]
        exact ih (fun j k jn kn => injective j k (by omega) (by omega)) (by omega)

/-- Writing what is there already changes nothing. -/
theorem writes_memMap_of_present (present : ∀ i, i < n → s.mem.memMap (key i) =
    some (s.trans.data i)) : (writes key n s).mem.memMap = s.mem.memMap := by
  induction n with
  | zero => rfl
  | succ n ih =>
      have before := ih fun i inside => present i (by omega)
      rw [writes_succ, Call.writeByte, Call.store, writes_trans]
      dsimp only
      rw [before, ← present n (by omega), Function.update_eq_self]

end Writes

theorem transfer_ignore (mem : Memory) {trans : GenericPayload} (delay : Nat)
    (ignored : trans.command = .ignore) :
    transfer trans ⟨mem, trans, delay, []⟩ =
      writes (fun i => trans.address + UInt64.ofNat i) trans.dataLength.toNat
        ⟨mem, trans, delay, []⟩ := by
  have other : trans.command ≠ .read := by
    rw [ignored]
    decide
  rw [transfer, foldl_moveByte_eq (fun i => trans.address + UInt64.ofNat i), if_neg other, writes]

/-- The two paths agree on every transfer but an `IGNORE` of bytes that the
memory does not hold already. -/
theorem paths_agree_iff (full : FullTransfer mem trans) (delay : Nat) :
    Agree (bTransport mem trans delay) (bTransport mem trans.withoutEnables delay) ↔
      trans.command ≠ .ignore ∨ ∀ i, i < trans.dataLength.toNat →
        mem.memMap (trans.address + UInt64.ofNat i) = some (trans.data i) := by
  rw [full.bTransport_slow, full.bTransport_fast]
  by_cases ignored : trans.command = .ignore
  · rw [if_pos ignored, transfer_ignore mem delay ignored]
    constructor
    · intro agree
      refine Or.inr fun i inside => ?_
      have written := writes_memMap_of_lt (s := ⟨mem, trans, delay, []⟩)
        (fun i j => fastAddress_injective trans) inside
      rw [← written]
      exact (congrFun agree.memMap _).symm
    · rintro (other | present)
      · exact absurd ignored other
      · have kept := writes_trans (fun i => trans.address + UInt64.ofNat i)
          trans.dataLength.toNat ⟨mem, trans, delay, []⟩
        have data := congrArg GenericPayload.data kept
        exact ⟨writes_memMap_of_present (s := ⟨mem, trans, delay, []⟩) present, data, rfl⟩
  · rw [if_neg ignored, transfer_withoutEnables]
    exact iff_of_true ⟨rfl, rfl, rfl⟩ (Or.inl ignored)

/-- An `IGNORE` of one byte, with a byte enable for it. -/
def ignoreOne : GenericPayload where
  command := .ignore
  address := 0
  data _ := 0xab
  dataLength := 1
  byteEnable _ := byteEnabled
  byteEnableLength := 1
  streamingWidth := 1
  dmiAllowed := false
  responseStatus := .incomplete

/-- A memory of sixteen bytes that holds none. -/
def emptyMemory : Memory where
  size := 16
  latency := 1
  memMap _ := none

theorem fullTransfer_ignoreOne : FullTransfer emptyMemory ignoreOne where
  nonempty := by decide
  inside := by decide
  width := rfl
  enables := by decide
  enabled _ _ := rfl

/-- An `IGNORE` of four bytes, with six byte enables for them. -/
def ignoreFour : GenericPayload :=
  { ignoreOne with
    address := 8
    data i := UInt8.ofNat (i + 1)
    dataLength := 4
    byteEnableLength := 6
    streamingWidth := 4 }

/-- A memory that holds the four bytes. -/
def filledMemory : Memory :=
  { emptyMemory with memMap address := some (address - 7).toUInt8 }

theorem paths_agree_iff_ignoreFour :
    Agree (bTransport filledMemory ignoreFour 5)
        (bTransport filledMemory ignoreFour.withoutEnables 5) ∧
      ¬ Agree (bTransport emptyMemory ignoreFour 5)
        (bTransport emptyMemory ignoreFour.withoutEnables 5) := by
  have full : ∀ mem : Memory, mem.size = 16 → FullTransfer mem ignoreFour := fun mem size =>
    ⟨by decide, by rw [size]; decide, rfl, by decide, fun _ _ => rfl⟩
  constructor
  · exact (paths_agree_iff (full filledMemory rfl) 5).mpr (Or.inr (by decide))
  · intro agree
    rcases (paths_agree_iff (full emptyMemory rfl) 5).mp agree with other | held
    · exact other rfl
    · exact Option.some_ne_none _ (held 0 (by decide)).symm

/-- On the slow path, the `IGNORE` writes its byte. -/
theorem not_paths_agree :
    (bTransport emptyMemory ignoreOne 0).mem.memMap 0 = some 0xab ∧
      (bTransport emptyMemory ignoreOne.withoutEnables 0).mem.memMap 0 = none ∧
      ¬ ∀ (mem : Memory) (trans : GenericPayload) (delay : Nat), FullTransfer mem trans →
        Agree (bTransport mem trans delay) (bTransport mem trans.withoutEnables delay) := by
  have slow : (bTransport emptyMemory ignoreOne 0).mem.memMap 0 = some 0xab := by
    decide +kernel
  have fast : (bTransport emptyMemory ignoreOne.withoutEnables 0).mem.memMap 0 = none := by
    decide +kernel
  refine ⟨slow, fast, fun all => ?_⟩
  have same := congrFun (all _ _ 0 fullTransfer_ignoreOne).memMap 0
  rw [slow, fast] at same
  cases same

end SystemcTlm.TlmMemory
