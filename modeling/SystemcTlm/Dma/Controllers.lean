import SystemcTlm.Copy.Bursts
import SystemcTlm.TlmMemory.Transport

/-!
# The two styles of a DMA controller

`LT_DmaController` moves its bytes with one read and one write and no time passes,
`AT_DmaController` moves them in bursts and waits for the delay of each
transaction.  Their memories differ in the delay only.
-/

namespace SystemcTlm.Dma

open SystemcTlm.Copy SystemcTlm.Loop SystemcTlm.TlmMemory

/-- `MEM_SIZE`. -/
def memSize : UInt64 :=
  1024

/-- What both memories do with a transaction. -/
def access (mem : Nat → UInt8) (trans : GenericPayload) : (Nat → UInt8) × GenericPayload :=
  let addr := trans.address.toNat
  let len := trans.dataLength.toNat
  if memSize ≤ trans.address ∨ memSize < trans.address + trans.dataLength.toUInt64 then
    (mem, { trans with responseStatus := .addressError })
  else
    match trans.command with
    | .read =>
        (mem, { trans with
          data := forRange len (fun i ptr => Function.update ptr (0 + i) (mem (addr + i))) trans.data
          responseStatus := .ok })
    | .write =>
        (forRange len (fun i mem => Function.update mem (addr + i) (trans.data i)) mem,
          { trans with responseStatus := .ok })
    | .ignore => (mem, { trans with responseStatus := .ok })

/-- The styles of a memory and its thread. -/
inductive Style where
  | looselyTimed
  | approximatelyTimed
deriving DecidableEq

/-- The delay after `b_transport`: `LT_Memory` sets it to zero, `AT_Memory` adds ten
units for a transaction and one for a byte. -/
def Style.delay (style : Style) (delay : Nat) (trans : GenericPayload) : Nat :=
  match style with
  | .looselyTimed => 0
  | .approximatelyTimed => delay + 10 + trans.dataLength.toNat

/-- Only `AT_DmaController` waits for the delay. -/
def Style.waits : Style → Bool
  | .looselyTimed => false
  | .approximatelyTimed => true

/-! ## The threads -/

/-- The memory, the buffer of the thread and the time. -/
structure Run where
  mem : Nat → UInt8
  dataBuffer : Nat → UInt8
  time : Nat

/-- The transaction whose data pointer is `&data_buffer[i]`. -/
def payload (command : TlmCommand) (address : UInt64) (i : Nat) (length : UInt32) (s : Run) :
    GenericPayload where
  command := command
  address := address
  data := fun j => s.dataBuffer (i + j)
  dataLength := length
  byteEnable := fun _ => 0
  byteEnableLength := 0
  streamingWidth := length
  dmiAllowed := false
  responseStatus := .incomplete

/-- A call of `b_transport` with a delay of zero, and what follows it.  A failure
stops the simulation. -/
def transact (style : Style) (command : TlmCommand) (address : UInt64) (i : Nat)
    (length : UInt32) (s : Run) : Except Run Run :=
  let trans := payload command address i length s
  let called := access s.mem trans
  let after : Run :=
    { mem := called.1
      dataBuffer := fun j => if i ≤ j then called.2.data (j - i) else s.dataBuffer j
      time := if style.waits then s.time + style.delay 0 trans else s.time }
  if called.2.responseStatus = .ok then .ok after else .error after

/-- A read and a write of the same bytes. -/
def move (style : Style) (src dst : UInt64) (i : Nat) (length : UInt32) (s : Run) :
    Except Run Run :=
  (transact style .read src i length s).bind (transact style .write dst i length)

/-- `LT_DmaController::dma_transfer_thread`. -/
def ltTransfer (srcAddr dstAddr : UInt64) (length : UInt32) : Run → Except Run Run :=
  move .looselyTimed srcAddr dstAddr 0 length

/-- The loop of `AT_DmaController::dma_transfer_thread` from byte `i` on.  The fuel
counts its tests, which do not come to an end for a burst size of zero. -/
def atLoop (srcAddr dstAddr : UInt64) (length burstSize : UInt32) :
    Nat → UInt32 → Run → Option (Except Run Run)
  | 0, _, _ => none
  | fuel + 1, i, s =>
      if i < length then
        match move .approximatelyTimed (srcAddr + i.toUInt64) (dstAddr + i.toUInt64) i.toNat
            (min burstSize (length - i)) s with
        | .ok s' => atLoop srcAddr dstAddr length burstSize fuel (i + burstSize) s'
        | .error s' => some (.error s')
      else some (.ok s)

/-- `AT_DmaController::dma_transfer_thread`. -/
def atTransfer (fuel : Nat) (srcAddr dstAddr : UInt64) (length burstSize : UInt32) (s : Run) :
    Option (Except Run Run) :=
  atLoop srcAddr dstAddr length burstSize fuel 0 s

/-- The first thread with the parameters that both set. -/
def ltThread : Run → Except Run Run :=
  ltTransfer 0x100 0x200 16

/-- The second thread.  Its loop makes five tests. -/
def atThread : Run → Option (Except Run Run) :=
  atTransfer 5 0x100 0x200 16 4

/-! ## A transaction -/

/-- The check of the memories passes. -/
def Fits (address : UInt64) (length : UInt32) : Prop :=
  address.toNat < 1024 ∧ address.toNat + length.toNat ≤ 1024

instance (address : UInt64) (length : UInt32) : Decidable (Fits address length) :=
  inferInstanceAs (Decidable (_ ∧ _))

/-- The sum in the check does not wrap around unless the address is beyond the
memory. -/
theorem fits_iff (address : UInt64) (length : UInt32) :
    ¬ (memSize ≤ address ∨ memSize < address + length.toUInt64) ↔ Fits address length := by
  have short := length.toNat_lt
  have size : memSize.toNat = 1024 := rfl
  rw [UInt64.le_iff_toNat_le, UInt64.lt_iff_toNat_lt, UInt64.toNat_add, UInt32.toNat_toUInt64,
    size, Fits]
  omega

/-- The time that a transaction of this length takes. -/
def Style.cost (style : Style) (length : Nat) : Nat :=
  match style with
  | .looselyTimed => 0
  | .approximatelyTimed => 10 + length

section Transact

variable (style : Style) {address : UInt64} {length : UInt32} (i : Nat) (s : Run)

theorem waited_eq (command : TlmCommand) :
    (if style.waits then s.time + style.delay 0 (payload command address i length s)
      else s.time) = s.time + style.cost length.toNat := by
  cases style with
  | looselyTimed => rfl
  | approximatelyTimed =>
      change s.time + (0 + 10 + length.toNat) = _
      rw [Nat.zero_add]
      rfl

theorem transact_fails (command : TlmCommand) (outside : ¬ Fits address length) :
    ∃ s', transact style command address i length s = .error s' ∧ s'.mem = s.mem := by
  have failed := Decidable.not_not.mp (mt (fits_iff address length).mp outside)
  have called : access s.mem (payload command address i length s) =
      (s.mem, { payload command address i length s with responseStatus := .addressError }) := by
    rw [access]
    exact if_pos failed
  rw [transact, called]
  exact ⟨_, rfl, rfl⟩

variable (fits : Fits address length)

include fits

theorem transact_read : ∃ s', transact style .read address i length s = .ok s' ∧
    s'.mem = s.mem ∧ s'.time = s.time + style.cost length.toNat ∧
      ∀ j, j < length.toNat → s'.dataBuffer (i + j) = s.mem (address.toNat + j) := by
  have called : access s.mem (payload .read address i length s) = _ :=
    if_neg ((fits_iff address length).mpr fits)
  rw [transact, called]
  refine ⟨_, rfl, rfl, waited_eq style i s .read, fun j inside => ?_⟩
  have entered := congrFun (forRange_update 0 length.toNat (fun j => s.mem (address.toNat + j))
    fun j => s.dataBuffer (i + j)) j
  rw [if_pos ⟨Nat.zero_le j, by omega⟩, Nat.sub_zero] at entered
  refine Eq.trans ?_ entered
  dsimp only
  rw [if_pos (Nat.le_add_right i j), Nat.add_sub_cancel_left]
  rfl

theorem transact_write : ∃ s', transact style .write address i length s = .ok s' ∧
    s'.time = s.time + style.cost length.toNat ∧
      s'.mem = fun a =>
        if address.toNat ≤ a ∧ a < address.toNat + length.toNat then
          s.dataBuffer (i + (a - address.toNat))
        else s.mem a := by
  have called : access s.mem (payload .write address i length s) = _ :=
    if_neg ((fits_iff address length).mpr fits)
  rw [transact, called]
  exact ⟨_, rfl, waited_eq style i s .write, forRange_update _ _ _ _⟩

end Transact

section Move

variable (style : Style) {src dst : UInt64} {length : UInt32} (i : Nat) (s : Run)

theorem move_eq (srcFits : Fits src length) (dstFits : Fits dst length) :
    ∃ s', move style src dst i length s = .ok s' ∧
      s'.mem = copyBlock src.toNat dst.toNat length.toNat s.mem ∧
      s'.time = s.time + 2 * style.cost length.toNat := by
  rcases transact_read style i s srcFits with ⟨middle, read, readMem, readTime, buffer⟩
  rcases transact_write style i middle dstFits with ⟨s', written, writeTime, mem⟩
  refine ⟨s', ?_, ?_, by omega⟩
  · rw [move, read]
    exact written
  · rw [mem, readMem]
    funext a
    exact if_ctx_congr Iff.rfl (fun inside => buffer (a - dst.toNat) (by omega)) fun _ => rfl

theorem move_fails (outside : ¬ (Fits src length ∧ Fits dst length)) :
    ∃ s', move style src dst i length s = .error s' ∧ s'.mem = s.mem := by
  by_cases srcFits : Fits src length
  · rcases transact_read style i s srcFits with ⟨middle, read, readMem, -, -⟩
    rcases transact_fails style i middle .write fun dstFits => outside ⟨srcFits, dstFits⟩ with
      ⟨s', failed, mem⟩
    rw [move, read]
    exact ⟨s', failed, mem.trans readMem⟩
  · rcases transact_fails style i s .read srcFits with ⟨s', failed, mem⟩
    rw [move, failed]
    exact ⟨s', rfl, mem⟩

end Move

/-! ## The loop of bursts -/

/-- The address of burst `k`. -/
def burstAddress (address : UInt64) (burstSize : UInt32) (k : Nat) : UInt64 :=
  address + UInt64.ofNat (burstSize.toNat * k)

/-- `current_len` in pass `k`. -/
def burstLength (length burstSize : UInt32) (k : Nat) : UInt32 :=
  UInt32.ofNat (min burstSize.toNat (length.toNat - burstSize.toNat * k))

/-- Pass `k` of the loop. -/
def atBurst (srcAddr dstAddr : UInt64) (length burstSize : UInt32) (s : Run) (k : Nat) :
    Except Run Run :=
  move .approximatelyTimed (burstAddress srcAddr burstSize k) (burstAddress dstAddr burstSize k)
    (burstSize.toNat * k) (burstLength length burstSize k) s

/-- The first `n` passes. -/
def atBursts (srcAddr dstAddr : UInt64) (length burstSize : UInt32) (n : Nat) (s : Run) :
    Except Run Run :=
  (List.range n).foldlM (atBurst srcAddr dstAddr length burstSize) s

/-- The number of passes, if the burst size is positive. -/
def burstCount (length burstSize : UInt32) : Nat :=
  (length.toNat + burstSize.toNat - 1) / burstSize.toNat

section Bursts

variable {srcAddr dstAddr : UInt64} {length burstSize : UInt32}

theorem atBursts_succ (n : Nat) (s : Run) :
    atBursts srcAddr dstAddr length burstSize (n + 1) s =
      (atBursts srcAddr dstAddr length burstSize n s).bind fun middle =>
        atBurst srcAddr dstAddr length burstSize middle n := by
  rw [atBursts, atBursts, List.range_succ, List.foldlM_append]
  congr 1
  funext middle
  exact bind_pure _

/-- Both transactions of burst `k` fit. -/
def BurstFits (srcAddr dstAddr : UInt64) (length burstSize : UInt32) (k : Nat) : Prop :=
  Fits (burstAddress srcAddr burstSize k) (burstLength length burstSize k) ∧
    Fits (burstAddress dstAddr burstSize k) (burstLength length burstSize k)

theorem toNat_burstLength (length burstSize : UInt32) (k : Nat) :
    (burstLength length burstSize k).toNat =
      min burstSize.toNat (length.toNat - burstSize.toNat * k) := by
  have short := length.toNat_lt
  exact UInt32.toNat_ofNat_of_lt' (by change _ < 2 ^ 32; omega)

/-- The loop runs while bytes are left. -/
theorem lt_burstCount_iff (pos : 0 < burstSize.toNat) (k : Nat) :
    k < burstCount length burstSize ↔ burstSize.toNat * k < length.toNat := by
  rw [burstCount, Nat.lt_div_iff_mul_lt pos, Nat.mul_comm]
  omega

theorem le_burstCount (pos : 0 < burstSize.toNat) :
    length.toNat ≤ burstSize.toNat * burstCount length burstSize :=
  Nat.le_of_not_lt (mt (lt_burstCount_iff pos _).mpr (Nat.lt_irrefl _))

theorem toNat_burstAddress {address : UInt64} {k : Nat} (begins : k = 0 ∨ address.toNat < 1024)
    (within : burstSize.toNat * k < length.toNat) :
    (burstAddress address burstSize k).toNat = address.toNat + burstSize.toNat * k := by
  have short := length.toNat_lt
  have bound := address.toNat_lt
  have offset : (UInt64.ofNat (burstSize.toNat * k)).toNat = burstSize.toNat * k :=
    UInt64.toNat_ofNat_of_lt' (by change _ < 2 ^ 64; omega)
  rw [burstAddress, UInt64.toNat_add, offset]
  rcases begins with rfl | begins
  · omega
  · omega

variable (srcAddr dstAddr length burstSize) in
/-- The outcome of the first `n` bursts: all of them fit, or the loop ends at the
first that does not. -/
def AfterBursts (s : Run) (n : Nat) : Except Run Run → Prop
  | .ok s' =>
      (∀ k, k < n → BurstFits srcAddr dstAddr length burstSize k) ∧
        s'.mem = bursts burstSize.toNat srcAddr.toNat dstAddr.toNat length.toNat s.mem n ∧
        s'.time = s.time + 20 * n + 2 * min length.toNat (burstSize.toNat * n)
  | .error s' =>
      ∃ k, k < n ∧ ¬ BurstFits srcAddr dstAddr length burstSize k ∧
        (∀ j, j < k → BurstFits srcAddr dstAddr length burstSize j) ∧
        s'.mem = bursts burstSize.toNat srcAddr.toNat dstAddr.toNat length.toNat s.mem k

/-- The addresses of a burst do not wrap around if the bursts before it fit. -/
theorem toNat_addresses {k : Nat} (within : burstSize.toNat * k < length.toNat)
    (earlier : ∀ j, j < k → BurstFits srcAddr dstAddr length burstSize j) :
    (burstAddress srcAddr burstSize k).toNat = srcAddr.toNat + burstSize.toNat * k ∧
      (burstAddress dstAddr burstSize k).toNat = dstAddr.toNat + burstSize.toNat * k := by
  rcases Nat.eq_zero_or_pos k with first | later
  · exact ⟨toNat_burstAddress (Or.inl first) within, toNat_burstAddress (Or.inl first) within⟩
  · have fits := earlier 0 later
    have start : 0 < length.toNat := by omega
    have src := fits.1.1
    have dst := fits.2.1
    rw [toNat_burstAddress (Or.inl rfl) start] at src dst
    exact ⟨toNat_burstAddress (Or.inr (by omega)) within,
      toNat_burstAddress (Or.inr (by omega)) within⟩

variable (srcAddr dstAddr) in
theorem afterBursts (pos : 0 < burstSize.toNat) (s : Run) {n : Nat}
    (within : n ≤ burstCount length burstSize) :
    AfterBursts srcAddr dstAddr length burstSize s n
      (atBursts srcAddr dstAddr length burstSize n s) := by
  induction n with
  | zero =>
      refine ⟨fun _ below => absurd below (Nat.not_lt_zero _), rfl, ?_⟩
      omega
  | succ n ih =>
      have before := ih (Nat.le_of_succ_le within)
      have inside := (lt_burstCount_iff pos n).mp within
      rw [atBursts_succ]
      cases outcome : atBursts srcAddr dstAddr length burstSize n s with
      | error s' =>
          rw [outcome] at before
          rcases before with ⟨k, earlier, stopped, fit, mem⟩
          exact ⟨k, Nat.lt_succ_of_lt earlier, stopped, fit, mem⟩
      | ok middle =>
          rw [outcome] at before
          rcases before with ⟨fit, mem, time⟩
          rcases toNat_addresses inside fit with ⟨srcEq, dstEq⟩
          change AfterBursts _ _ _ _ _ _ (atBurst srcAddr dstAddr length burstSize middle n)
          by_cases fits : BurstFits srcAddr dstAddr length burstSize n
          · rcases move_eq .approximatelyTimed (burstSize.toNat * n) middle fits.1 fits.2 with
              ⟨s', moved, copied, passed⟩
            rw [atBurst, moved]
            refine ⟨fun k below => ?_, ?_, ?_⟩
            · rcases Nat.lt_succ_iff_lt_or_eq.mp below with earlier | rfl
              · exact fit k earlier
              · exact fits
            · rw [copied, mem, srcEq, dstEq, toNat_burstLength, bursts]
            · rw [toNat_burstLength] at passed
              rw [passed, time, Nat.mul_succ burstSize.toNat]
              change _ + 2 * (10 + _) = _
              omega
          · rcases move_fails .approximatelyTimed (burstSize.toNat * n) middle fits with
              ⟨s', failed, same⟩
            rw [atBurst, failed]
            exact ⟨n, Nat.lt_succ_self n, fits, fit, same.trans mem⟩

/-- A transfer fits if and only if all its bursts do. -/
theorem fits_iff_bursts (pos : 0 < burstSize.toNat) (nonempty : 0 < length.toNat) :
    Fits srcAddr length ∧ Fits dstAddr length ↔
      ∀ k, k < burstCount length burstSize → BurstFits srcAddr dstAddr length burstSize k := by
  constructor
  · intro fits k below
    have inside := (lt_burstCount_iff pos k).mp below
    have srcEq := toNat_burstAddress (Or.inr fits.1.1) inside
    have dstEq := toNat_burstAddress (Or.inr fits.2.1) inside
    have src := fits.1.2
    have dst := fits.2.2
    rw [BurstFits, Fits, Fits, srcEq, dstEq, toNat_burstLength]
    omega
  · intro fit
    -- The last burst ends where the transfer does.
    have count : 0 < burstCount length burstSize :=
      (lt_burstCount_iff pos 0).mpr (by omega)
    have last : burstCount length burstSize - 1 < burstCount length burstSize := by omega
    have inside := (lt_burstCount_iff pos _).mp last
    have ended : length.toNat ≤ burstSize.toNat * burstCount length burstSize := le_burstCount pos
    have reach : burstSize.toNat * burstCount length burstSize =
        burstSize.toNat * (burstCount length burstSize - 1) + burstSize.toNat := by
      rw [← Nat.mul_succ]
      congr 1
      omega
    rcases toNat_addresses inside fun j earlier => fit j (by omega) with ⟨srcEq, dstEq⟩
    have fits := fit _ last
    rw [BurstFits, Fits, Fits, srcEq, dstEq, toNat_burstLength] at fits
    rw [Fits, Fits]
    omega

/-! ## The passes of the loop -/

theorem toNat_offset {k : Nat} (within : burstSize.toNat * k < length.toNat) :
    (UInt32.ofNat (burstSize.toNat * k)).toNat = burstSize.toNat * k :=
  UInt32.toNat_ofNat_of_lt' (within.trans length.toNat_lt)

theorem ofNat_mul_succ (burstSize : UInt32) (k : Nat) :
    UInt32.ofNat (burstSize.toNat * k) + burstSize =
      UInt32.ofNat (burstSize.toNat * (k + 1)) := by
  rw [Nat.mul_succ, UInt32.ofNat_add, UInt32.ofNat_toNat]

/-- `std::min(burst_size, length - i)` -/
theorem min_eq_burstLength {k : Nat} (within : burstSize.toNat * k < length.toNat) :
    min burstSize (length - UInt32.ofNat (burstSize.toNat * k)) =
      burstLength length burstSize k := by
  have rest : (length - UInt32.ofNat (burstSize.toNat * k)).toNat =
      length.toNat - burstSize.toNat * k := by
    rw [UInt32.toNat_sub_of_le _ _ (UInt32.le_iff_toNat_le.mpr (by rw [toNat_offset within]; omega)),
      toNat_offset within]
  apply UInt32.toNat_inj.mp
  rw [toNat_burstLength, ← rest]
  change (if burstSize ≤ length - _ then burstSize else length - _).toNat = _
  split_ifs with first
  · exact (Nat.min_eq_left (UInt32.le_iff_toNat_le.mp first)).symm
  · exact (Nat.min_eq_right (Nat.le_of_not_le (mt UInt32.le_iff_toNat_le.mpr first))).symm

/-- A test that finds bytes left, and the pass after it. -/
theorem atLoop_succ {k : Nat} (within : burstSize.toNat * k < length.toNat) (fuel : Nat)
    (s : Run) :
    atLoop srcAddr dstAddr length burstSize (fuel + 1) (UInt32.ofNat (burstSize.toNat * k)) s =
      match atBurst srcAddr dstAddr length burstSize s k with
      | .ok s' =>
          atLoop srcAddr dstAddr length burstSize fuel
            (UInt32.ofNat (burstSize.toNat * (k + 1))) s'
      | .error s' => some (.error s') := by
  have left : UInt32.ofNat (burstSize.toNat * k) < length :=
    UInt32.lt_iff_toNat_lt.mpr (by rwa [toNat_offset within])
  have offset : (UInt32.ofNat (burstSize.toNat * k)).toUInt64 =
      UInt64.ofNat (burstSize.toNat * k) := by
    rw [← UInt64.ofNat_uInt32ToNat, toNat_offset within]
  rw [atLoop, if_pos left, offset, min_eq_burstLength within, toNat_offset within, ofNat_mul_succ]
  rfl

/-- The loop after `n` passes. -/
theorem atTransfer_add {n : Nat} (within : ∀ k, k < n → burstSize.toNat * k < length.toNat)
    (fuel : Nat) (s : Run) :
    atTransfer (fuel + n) srcAddr dstAddr length burstSize s =
      match atBursts srcAddr dstAddr length burstSize n s with
      | .ok s' =>
          atLoop srcAddr dstAddr length burstSize fuel (UInt32.ofNat (burstSize.toNat * n)) s'
      | .error s' => some (.error s') := by
  induction n generalizing fuel with
  | zero => rfl
  | succ n ih =>
      have before := ih (fun k below => within k (Nat.lt_succ_of_lt below)) (fuel + 1)
      rw [Nat.add_right_comm] at before
      rw [← Nat.add_assoc, before, atBursts_succ]
      cases atBursts srcAddr dstAddr length burstSize n s with
      | error s' => rfl
      | ok middle => exact atLoop_succ (within n (Nat.lt_succ_self n)) fuel middle

/-- The last test finds no bytes left.  The counter does not wrap around, since the
memory is smaller. -/
theorem not_lt_offset (pos : 0 < burstSize.toNat) (fits : length.toNat ≤ 1024) :
    ¬ UInt32.ofNat (burstSize.toNat * burstCount length burstSize) < length := by
  have ended : length.toNat ≤ burstSize.toNat * burstCount length burstSize := le_burstCount pos
  have size := burstSize.toNat_lt
  have bound : burstSize.toNat * burstCount length burstSize < 2 ^ 32 := by
    rcases Nat.eq_zero_or_pos (burstCount length burstSize) with zero | passes
    · rw [zero]
      omega
    · obtain ⟨last, count⟩ := Nat.exists_eq_add_one_of_ne_zero (Nat.ne_of_gt passes)
      have inside := (lt_burstCount_iff pos last).mp (by rw [count]; exact last.lt_succ_self)
      rw [count, Nat.mul_succ]
      rcases Nat.eq_zero_or_pos last with rfl | several
      · omega
      · have shorter := Nat.le_mul_of_pos_right burstSize.toNat several
        omega
  rw [UInt32.lt_iff_toNat_lt, UInt32.toNat_ofNat_of_lt' bound]
  exact Nat.not_lt_of_le ended

/-- The loop ends after its passes. -/
theorem atTransfer_eq (pos : 0 < burstSize.toNat) (s : Run) {fuel : Nat}
    (enough : burstCount length burstSize < fuel) :
    atTransfer fuel srcAddr dstAddr length burstSize s =
      some (atBursts srcAddr dstAddr length burstSize (burstCount length burstSize) s) := by
  obtain ⟨spare, rfl⟩ := Nat.exists_eq_add_of_lt enough
  have after := afterBursts srcAddr dstAddr pos s (Nat.le_refl (burstCount length burstSize))
  have passes := @atTransfer_add srcAddr dstAddr length burstSize (burstCount length burstSize)
    (fun k below => (lt_burstCount_iff pos k).mp below) (spare + 1) s
  rw [Nat.add_comm, ← Nat.add_assoc] at passes
  rw [passes]
  cases outcome : atBursts srcAddr dstAddr length burstSize (burstCount length burstSize) s with
  | error s' => rfl
  | ok s' =>
      rw [outcome] at after
      have short : length.toNat ≤ 1024 := by
        by_cases nonempty : 0 < length.toNat
        · have fits := (fits_iff_bursts pos nonempty).mpr after.1
          exact Nat.le_of_add_left_le fits.1.2
        · omega
      dsimp only
      rw [atLoop, if_neg (not_lt_offset pos short)]

/-- For a burst size of zero the first pass is made again and again. -/
theorem atTransfer_zero (nonempty : 0 < length.toNat) (fuel : Nat) (s : Run) :
    atTransfer (fuel + 1) srcAddr dstAddr length 0 s =
      match move .approximatelyTimed srcAddr dstAddr 0 0 s with
      | .ok s' => atTransfer fuel srcAddr dstAddr length 0 s'
      | .error s' => some (.error s') := by
  have first : atBurst srcAddr dstAddr length 0 s 0 =
      move .approximatelyTimed srcAddr dstAddr 0 0 s := by
    simp [atBurst, burstAddress, burstLength]
  rw [← first]
  exact atLoop_succ (k := 0) nonempty fuel s

variable (srcAddr dstAddr) in
theorem atTransfer_zero_cases (nonempty : 0 < length.toNat) (s : Run) :
    (Fits srcAddr 0 ∧ Fits dstAddr 0 → ∀ fuel, atTransfer fuel srcAddr dstAddr length 0 s = none) ∧
      (¬ (Fits srcAddr 0 ∧ Fits dstAddr 0) → ∃ s', s'.mem = s.mem ∧
        ∀ fuel, 0 < fuel → atTransfer fuel srcAddr dstAddr length 0 s = some (.error s')) := by
  constructor
  · intro fits fuel
    induction fuel generalizing s with
    | zero => rfl
    | succ fuel ih =>
        rcases move_eq .approximatelyTimed 0 s fits.1 fits.2 with ⟨s', moved, -, -⟩
        rw [atTransfer_zero nonempty, moved]
        exact ih s'
  · intro outside
    rcases move_fails .approximatelyTimed 0 s outside with ⟨s', failed, same⟩
    refine ⟨s', same, fun fuel positive => ?_⟩
    obtain ⟨spare, rfl⟩ := Nat.exists_eq_add_one_of_ne_zero (Nat.ne_of_gt positive)
    rw [atTransfer_zero nonempty, failed]

end Bursts

/-! ## Both controllers -/

section Both

variable (srcAddr dstAddr : UInt64) (length burstSize : UInt32) (s : Run)

/-- The outcome of a transfer at once, which takes no time. -/
def AtOnce : Except Run Run → Prop
  | .ok s' =>
      (Fits srcAddr length ∧ Fits dstAddr length) ∧
        s'.mem = copyBlock srcAddr.toNat dstAddr.toNat length.toNat s.mem ∧ s'.time = s.time
  | .error s' => ¬ (Fits srcAddr length ∧ Fits dstAddr length) ∧ s'.mem = s.mem

/-- The outcome of a transfer in bursts, which ends before the first burst that does
not fit. -/
def InBursts : Except Run Run → Prop
  | .ok s' =>
      (Fits srcAddr length ∧ Fits dstAddr length) ∧
        s'.mem = bursts burstSize.toNat srcAddr.toNat dstAddr.toNat length.toNat s.mem
          (burstCount length burstSize) ∧
        s'.time = s.time + 20 * burstCount length burstSize + 2 * length.toNat
  | .error s' =>
      ¬ (Fits srcAddr length ∧ Fits dstAddr length) ∧
        ∃ k, k < burstCount length burstSize ∧
          ¬ BurstFits srcAddr dstAddr length burstSize k ∧
          (∀ j, j < k → BurstFits srcAddr dstAddr length burstSize j) ∧
          s'.mem = bursts burstSize.toNat srcAddr.toNat dstAddr.toNat length.toNat s.mem k

theorem ltTransfer_atOnce :
    AtOnce srcAddr dstAddr length s (ltTransfer srcAddr dstAddr length s) := by
  by_cases fits : Fits srcAddr length ∧ Fits dstAddr length
  · rcases move_eq .looselyTimed 0 s fits.1 fits.2 with ⟨lt, moved, copied, passed⟩
    rw [ltTransfer, moved]
    exact ⟨fits, copied, passed⟩
  · rcases move_fails .looselyTimed 0 s fits with ⟨lt, failed, same⟩
    rw [ltTransfer, failed]
    exact ⟨fits, same⟩

variable {length burstSize} in
theorem atBursts_inBursts (nonempty : 0 < length.toNat) (pos : 0 < burstSize.toNat) :
    InBursts srcAddr dstAddr length burstSize s
      (atBursts srcAddr dstAddr length burstSize (burstCount length burstSize) s) := by
  have after := afterBursts srcAddr dstAddr pos s (Nat.le_refl (burstCount length burstSize))
  have ended : length.toNat ≤ burstSize.toNat * burstCount length burstSize := le_burstCount pos
  have whole : Fits srcAddr length ∧ Fits dstAddr length ↔ _ := fits_iff_bursts pos nonempty
  cases outcome : atBursts srcAddr dstAddr length burstSize (burstCount length burstSize) s with
  | ok at' =>
      rw [outcome] at after
      rcases after with ⟨fit, mem, time⟩
      refine ⟨whole.mpr fit, mem, ?_⟩
      rw [time]
      omega
  | error at' =>
      rw [outcome] at after
      rcases after with ⟨k, below, stopped, fit, mem⟩
      exact ⟨fun fits => stopped (whole.mp fits k below), k, below, stopped, fit, mem⟩

end Both

section Fitting

variable {srcAddr dstAddr : UInt64} {length burstSize : UInt32} {s : Run} {outcome : Except Run Run}
  (fits : Fits srcAddr length ∧ Fits dstAddr length)

include fits

theorem AtOnce.map_mem (once : AtOnce srcAddr dstAddr length s outcome) :
    outcome.map Run.mem = .ok (copyBlock srcAddr.toNat dstAddr.toNat length.toNat s.mem) := by
  cases outcome with
  | error lt' => exact absurd fits once.1
  | ok lt' => exact congrArg Except.ok once.2.1

theorem InBursts.map_mem (inBursts : InBursts srcAddr dstAddr length burstSize s outcome) :
    outcome.map Run.mem = .ok (bursts burstSize.toNat srcAddr.toNat dstAddr.toNat length.toNat
      s.mem (burstCount length burstSize)) := by
  cases outcome with
  | error at' => exact absurd fits inBursts.1
  | ok at' => exact congrArg Except.ok inBursts.2.1

end Fitting

/-- Both transfers, for any parameters.  The one is a copy at once or leaves the
memory as it was.  The other does nothing for a length of zero; for a burst size of
zero it does not end, or fails at once; and otherwise it is a copy in bursts that
takes its time, or ends before the first burst that does not fit. -/
theorem transfers_spec (srcAddr dstAddr : UInt64) (length burstSize : UInt32) (s : Run) :
    AtOnce srcAddr dstAddr length s (ltTransfer srcAddr dstAddr length s) ∧
    (length.toNat = 0 → ∀ fuel, 0 < fuel →
      atTransfer fuel srcAddr dstAddr length burstSize s = some (.ok s)) ∧
    (0 < length.toNat → burstSize = 0 →
      (Fits srcAddr 0 ∧ Fits dstAddr 0 →
        ∀ fuel, atTransfer fuel srcAddr dstAddr length burstSize s = none) ∧
      (¬ (Fits srcAddr 0 ∧ Fits dstAddr 0) → ∃ at', at'.mem = s.mem ∧ ∀ fuel, 0 < fuel →
        atTransfer fuel srcAddr dstAddr length burstSize s = some (.error at'))) ∧
    (0 < length.toNat → 0 < burstSize.toNat →
      ∃ outcome, InBursts srcAddr dstAddr length burstSize s outcome ∧
        ∀ fuel, burstCount length burstSize < fuel →
          atTransfer fuel srcAddr dstAddr length burstSize s = some outcome) := by
  refine ⟨ltTransfer_atOnce srcAddr dstAddr length s, ?_, ?_, ?_⟩
  · intro zero fuel positive
    obtain ⟨spare, rfl⟩ := Nat.exists_eq_add_one_of_ne_zero (Nat.ne_of_gt positive)
    have ended : ¬ 0 < length := by
      rw [UInt32.lt_iff_toNat_lt, zero]
      exact Nat.not_lt_zero _
    rw [atTransfer, atLoop, if_neg ended]
  · rintro nonempty rfl
    exact atTransfer_zero_cases srcAddr dstAddr nonempty s
  · intro nonempty pos
    exact ⟨_, atBursts_inBursts srcAddr dstAddr s nonempty pos,
      fun fuel enough => atTransfer_eq pos s enough⟩

/-- The parameters of the threads, and the same blocks in bursts of no bytes. -/
theorem transfers_spec_threads :
    (∃ lt at', ltThread ⟨fun _ => 0xaa, fun _ => 0, 0⟩ = .ok lt ∧
      atThread ⟨fun _ => 0xaa, fun _ => 0, 0⟩ = some (.ok at') ∧ lt.time = 0 ∧ at'.time = 112) ∧
    ∀ fuel, atTransfer fuel 0x100 0x200 16 0 ⟨fun _ => 0xaa, fun _ => 0, 0⟩ = none := by
  have fits : Fits 0x100 16 ∧ Fits 0x200 16 := by decide
  constructor
  · obtain ⟨once, -, -, ends⟩ := transfers_spec 0x100 0x200 16 4 ⟨fun _ => 0xaa, fun _ => 0, 0⟩
    rcases ends (by decide) (by decide) with ⟨outcome, inBursts, returns⟩
    have ran : atThread ⟨fun _ => 0xaa, fun _ => 0, 0⟩ = some outcome := returns 5 (by decide)
    change AtOnce _ _ _ _ (ltThread _) at once
    cases lt : ltThread ⟨fun _ => 0xaa, fun _ => 0, 0⟩ with
    | error lt' =>
        rw [lt] at once
        exact absurd fits once.1
    | ok lt' =>
        rw [lt] at once
        cases outcome with
        | error at' => exact absurd fits inBursts.1
        | ok at' => exact ⟨lt', at', rfl, ran, once.2.2, inBursts.2.2⟩
  · exact ((transfers_spec 0x100 0x200 16 0 ⟨fun _ => 0xaa, fun _ => 0, 0⟩).2.2.1 (by decide)
      rfl).1 (by decide)

/-- The controllers agree on every memory if and only if no burst writes what a
later one reads. -/
theorem transfers_agree_iff {srcAddr dstAddr : UInt64} {length burstSize : UInt32}
    (nonempty : 0 < length.toNat) (pos : 0 < burstSize.toNat)
    (fits : Fits srcAddr length ∧ Fits dstAddr length) :
    (∀ s fuel, burstCount length burstSize < fuel →
      (atTransfer fuel srcAddr dstAddr length burstSize s).map (Except.map Run.mem) =
        some ((ltTransfer srcAddr dstAddr length s).map Run.mem)) ↔
      ReadsFirst burstSize.toNat srcAddr.toNat dstAddr.toNat length.toNat := by
  have twoBytes : Nontrivial UInt8 := ⟨0, 1, by decide⟩
  have whole : (∀ table : Nat → UInt8, bursts burstSize.toNat srcAddr.toNat dstAddr.toNat
      length.toNat table (burstCount length burstSize) =
        copyBlock srcAddr.toNat dstAddr.toNat length.toNat table) ↔ _ :=
    bursts_eq_copyBlock_iff (le_burstCount pos)
  rw [← whole]
  have each : ∀ s fuel, burstCount length burstSize < fuel →
      ((atTransfer fuel srcAddr dstAddr length burstSize s).map (Except.map Run.mem) =
        some ((ltTransfer srcAddr dstAddr length s).map Run.mem) ↔
        bursts burstSize.toNat srcAddr.toNat dstAddr.toNat length.toNat s.mem
          (burstCount length burstSize) =
            copyBlock srcAddr.toNat dstAddr.toNat length.toNat s.mem) := by
    intro s fuel enough
    rw [atTransfer_eq pos s enough, Option.map_some,
      (atBursts_inBursts srcAddr dstAddr s nonempty pos).map_mem fits,
      (ltTransfer_atOnce srcAddr dstAddr length s).map_mem fits, Option.some_inj,
      Except.ok.injEq]
  constructor
  · intro agree mem
    exact (each ⟨mem, fun _ => 0, 0⟩ _ (Nat.lt_succ_self _)).mp
      (agree _ _ (Nat.lt_succ_self _))
  · exact fun same s fuel enough => (each s fuel enough).mpr (same s.mem)

/-- The blocks of the threads are disjoint; the second is of a destination in the
source, behind its first burst. -/
theorem transfers_agree_iff_threads :
    (∀ s, (atThread s).map (Except.map Run.mem) = some ((ltThread s).map Run.mem)) ∧
      ¬ ∀ s fuel, burstCount 16 4 < fuel →
        (atTransfer fuel 0x100 0x104 16 4 s).map (Except.map Run.mem) =
          some ((ltTransfer 0x100 0x104 16 s).map Run.mem) :=
  ⟨fun s => (transfers_agree_iff (by decide) (by decide) (by decide)).mpr (by decide) s 5
      (by decide),
    mt (transfers_agree_iff (by decide) (by decide) (by decide)).mp (by decide)⟩

end SystemcTlm.Dma
