import Mathlib.Logic.Relation
import SystemcTlm.Copy.Bursts
import SystemcTlm.Dma.Control
import SystemcTlm.TlmMemory.Window

/-!
# A transfer of the demo DMA

Once it has been started and while the processor makes no call, the DMA copies
the block in bursts of 32 bytes, one each microsecond, and then signals that it is
done.  It is connected to the memory here.
-/

namespace SystemcTlm.Dma

open SystemcTlm.Copy SystemcTlm.Loop SystemcTlm.Simulation SystemcTlm.TlmMemory

/-- `init_socket` is bound to a memory. -/
def memoryBus : Bus Memory := fun mem trans =>
  ((TlmMemory.bTransport mem trans 0).mem, (TlmMemory.bTransport mem trans 0).trans)

namespace Demodma

/-! ## A burst -/

/-- The length of the next burst. -/
theorem burstLen_toNat (len : UInt32) :
    (if bufSize < len then bufSize else len).toNat = min 32 len.toNat := by
  have size : bufSize.toNat = 32 := rfl
  split_ifs with long
  · have := UInt32.lt_iff_toNat_lt.mp long
    omega
  · have := mt UInt32.lt_iff_toNat_lt.mpr long
    omega

theorem windowed_trans {regs : Regs} {cmd : TlmCommand} {buf : Nat → UInt8} {addr len : UInt32}
    (transfers : cmd ≠ .ignore) (enables : regs.byteEn = 0) (nonempty : 0 < len.toNat) :
    Windowed (trans regs cmd buf addr len) len.toNat where
  command := transfers
  enables := by
    change (if regs.byteEn ≠ 0 then 4 else 0) = (0 : UInt32)
    rw [enables]
    rfl
  width := by
    change (if len = 0 then len else len).toNat = len.toNat
    rw [ite_self]
  pos := nonempty
  noWrap := by
    have address : (trans regs cmd buf addr len).address.toNat = addr.toNat :=
      UInt32.toNat_toUInt64 addr
    have := addr.toNat_lt
    have := len.toNat_lt
    omega

section Memory

variable (s : Demodma Memory) (buf : Nat → UInt8) (addr len : UInt32) {bytes : Nat → UInt8}
  (nonneg : 0 ≤ s.bus.size.toInt) (enables : s.regs.byteEn = 0) (nonempty : 0 < len.toNat)
  (inside : (addr.toNat + len.toNat : Nat) ≤ s.bus.size.toInt)
  (represents : Represents s.bus bytes)

include inside in
theorem inside_trans (cmd : TlmCommand) :
    Inside s.bus.size.toInt (trans s.regs cmd buf addr len).address.toNat len.toNat
      (trans s.regs cmd buf addr len).dataLength.toNat := by
  intro place below _
  have address : (trans s.regs cmd buf addr len).address.toNat = addr.toNat :=
    UInt32.toNat_toUInt64 addr
  omega

include nonneg enables nonempty inside represents

theorem doDmaTrans_read :
    (doDmaTrans memoryBus .read buf addr len s).1.bus.size = s.bus.size ∧
      Represents (doDmaTrans memoryBus .read buf addr len s).1.bus bytes ∧
      ∀ i, i < len.toNat →
        (doDmaTrans memoryBus .read buf addr len s).2 i = bytes (addr.toNat + i) := by
  have windowed : Windowed (trans s.regs .read buf addr len) len.toNat :=
    windowed_trans (by decide) enables nonempty
  rcases windowed.bTransport_read nonneg rfl (inside_trans s buf addr len inside .read) represents 0 with
    ⟨-, size, kept, data⟩
  refine ⟨size, kept, fun i below => ?_⟩
  have address : (trans s.regs .read buf addr len).address.toNat = addr.toNat :=
    UInt32.toNat_toUInt64 addr
  have read := data i below
  rw [Nat.mod_eq_of_lt below, address] at read
  exact read

theorem doDmaTrans_write :
    (doDmaTrans memoryBus .write buf addr len s).1.regs.errorResp = respOkay ∧
      (doDmaTrans memoryBus .write buf addr len s).1.bus.size = s.bus.size ∧
      Represents (doDmaTrans memoryBus .write buf addr len s).1.bus fun a =>
        if addr.toNat ≤ a ∧ a < addr.toNat + len.toNat then buf (a - addr.toNat) else bytes a := by
  have windowed : Windowed (trans s.regs .write buf addr len) len.toNat :=
    windowed_trans (by decide) enables nonempty
  rcases windowed.bTransport_write nonneg rfl (inside_trans s buf addr len inside .write) represents 0 with
    ⟨answer, size, represents'⟩
  have address : (trans s.regs .write buf addr len).address.toNat = addr.toNat :=
    UInt32.toNat_toUInt64 addr
  refine ⟨?_, size, ?_⟩
  · change response (TlmMemory.bTransport s.bus (trans s.regs .write buf addr len) 0).trans.responseStatus
      = respOkay
    rw [answer]
    rfl
  · rw [address] at represents'
    change Represents _ (written _ len.toNat len.toNat buf bytes) at represents'
    rw [written_whole] at represents'
    exact represents'

end Memory

/-- A burst copies its bytes. -/
theorem burst_copies {s : Demodma Memory} {bytes : Nat → UInt8} {n : Nat}
    (length : n = min 32 s.regs.len.toNat) (nonempty : 0 < n) (nonneg : 0 ≤ s.bus.size.toInt)
    (enables : s.regs.byteEn = 0) (src : (s.regs.srcAddr.toNat + n : Nat) ≤ s.bus.size.toInt)
    (dst : (s.regs.dstAddr.toNat + n : Nat) ≤ s.bus.size.toInt)
    (represents : Represents s.bus bytes) :
    (s.burst memoryBus).regs.errorResp = respOkay ∧
      (s.burst memoryBus).bus.size = s.bus.size ∧
      Represents (s.burst memoryBus).bus
        (copyBlock s.regs.srcAddr.toNat s.regs.dstAddr.toNat n bytes) := by
  let tlen := if bufSize < s.regs.len then bufSize else s.regs.len
  have entries : tlen.toNat = n := (burstLen_toNat s.regs.len).trans length.symm
  have pos : 0 < tlen.toNat := entries.symm ▸ nonempty
  rcases doDmaTrans_read s s.buf s.regs.srcAddr tlen nonneg enables pos
    (by rw [entries]; exact src) represents with ⟨readSize, readKept, data⟩
  rw [entries] at data
  rcases doDmaTrans_write (doDmaTrans memoryBus .read s.buf s.regs.srcAddr tlen s).1
    (doDmaTrans memoryBus .read s.buf s.regs.srcAddr tlen s).2 s.regs.dstAddr tlen
    (readSize.symm ▸ nonneg) enables pos (by rw [entries, readSize]; exact dst) readKept with
    ⟨answer, size, written⟩
  refine ⟨answer, size.trans readSize, ?_⟩
  rw [entries] at written
  refine Eq.mp (congrArg (Represents _) (funext fun a => ?_)) written
  refine if_ctx_congr Iff.rfl (fun inside => ?_) fun _ => rfl
  exact data (a - s.regs.dstAddr.toNat) (by omega)

/-! ## Passes -/

/-- The passes of the loop that a transfer of this length takes. -/
def passes (len : Nat) : Nat :=
  max 1 ((len + 31) / 32)

theorem len_le_passes (len : Nat) : len ≤ 32 * passes len := by
  rw [passes]
  omega

/-- A block that is to be copied. -/
structure Block where
  src : Nat
  dst : Nat
  len : Nat
  bytes : Nat → UInt8
  size : Int64
  nonneg : 0 ≤ size.toInt
  srcInside : (src + len : Nat) ≤ size.toInt
  dstInside : (dst + len : Nat) ≤ size.toInt
  srcBound : src + len ≤ 0x100000000
  dstBound : dst + len ≤ 0x100000000

/-- The bytes after so many bursts. -/
def Block.after (block : Block) (k : Nat) : Nat → UInt8 :=
  bursts 32 block.src block.dst block.len block.bytes k

/-- So many bursts have been copied, and something is left unless the block is
empty. -/
structure Moved (block : Block) (k : Nat) (s : Demodma Memory) : Prop where
  running : s.regs.running = true
  enables : s.regs.byteEn = 0
  size : s.bus.size = block.size
  left : k = 0 ∨ 32 * k < block.len
  len : s.regs.len.toNat = block.len - 32 * k
  src : s.regs.srcAddr.toNat = block.src + 32 * k
  dst : s.regs.dstAddr.toNat = block.dst + 32 * k
  represents : Represents s.bus (block.after k)

/-- The transfer is over and has been signalled. -/
structure Completed (block : Block) (s : Demodma Memory) : Prop where
  running : s.regs.running = false
  done : s.regs.done = true
  irq : s.irq = true
  len : s.regs.len = 0
  resp : 0 < block.len → s.regs.errorResp = respOkay
  started : s.thread ≠ .start
  represents : Represents s.bus (block.after (passes block.len))

section Body

variable {block : Block} {k : Nat} {s : Demodma Memory}

/-- Bursts that are not needed change nothing. -/
theorem Block.after_eq {j k : Nat} (block : Block) (first : block.len ≤ 32 * j)
    (second : block.len ≤ 32 * k) : block.after j = block.after k := by
  rcases Nat.le_total j k with order | order
  · exact (bursts_beyond block.bytes first order).symm
  · exact bursts_beyond block.bytes second order

theorem finish_completed (len : s.regs.len = 0)
    (resp : 0 < block.len → s.regs.errorResp = respOkay) (whole : block.len ≤ 32 * k)
    (represents : Represents s.bus (block.after k)) : Completed block s.finish where
  running := s.finish_running
  done := s.finish_done
  irq := s.finish_done
  len := len
  resp := resp
  started := fun same => by cases same
  represents := block.after_eq whole (len_le_passes block.len) ▸ represents

/-- The last burst, or one of several. -/
theorem Moved.burst (moved : Moved block k s) (nonempty : 0 < s.regs.len.toNat) :
    (s.burst memoryBus).regs.len.toNat = block.len - 32 * (k + 1) ∧
      (s.burst memoryBus).regs.errorResp = respOkay ∧
      (s.burst memoryBus).bus.size = block.size ∧
      Represents (s.burst memoryBus).bus (block.after (k + 1)) ∧
      (32 * (k + 1) < block.len →
        (s.burst memoryBus).regs.srcAddr.toNat = block.src + 32 * (k + 1) ∧
          (s.burst memoryBus).regs.dstAddr.toNat = block.dst + 32 * (k + 1)) := by
  have lenEq := moved.len
  have srcEq := moved.src
  have dstEq := moved.dst
  have srcInside := block.srcInside
  have dstInside := block.dstInside
  rcases burst_copies (s := s) (n := min 32 (block.len - 32 * k)) (by rw [lenEq]) (by omega)
    (moved.size.symm ▸ block.nonneg) moved.enables (by rw [moved.size]; omega)
    (by rw [moved.size]; omega) moved.represents with ⟨answer, size, represents⟩
  have entries := burstLen_toNat s.regs.len
  refine ⟨?_, answer, size.trans moved.size, ?_, fun more => ?_⟩
  · change (s.regs.len - (if bufSize < s.regs.len then bufSize else s.regs.len)).toNat = _
    rw [UInt32.toNat_sub_of_le _ _ (UInt32.le_iff_toNat_le.mpr (by omega)), entries]
    omega
  · rw [srcEq, dstEq] at represents
    exact represents
  · have srcBound := block.srcBound
    have dstBound := block.dstBound
    change (s.regs.srcAddr + (if bufSize < s.regs.len then bufSize else s.regs.len)).toNat = _ ∧
      (s.regs.dstAddr + (if bufSize < s.regs.len then bufSize else s.regs.len)).toNat = _
    rw [UInt32.toNat_add, UInt32.toNat_add, entries]
    omega

/-- A pass copies a burst.  It is the last one or another follows after a
microsecond. -/
theorem Moved.body (moved : Moved block k s) :
    Completed block (s.body memoryBus) ∨
      Moved block (k + 1) (s.body memoryBus) ∧
        (s.body memoryBus).thread = .sleeping (s.now + microsecond) ∧
        passes s.regs.len.toNat = passes (s.body memoryBus).regs.len.toNat + 1 := by
  have lenEq := moved.len
  have left := moved.left
  by_cases nonempty : 0 < s.regs.len.toNat
  · rcases moved.burst nonempty with ⟨len, answer, size, represents, addresses⟩
    have copied : s.copied memoryBus = s.burst memoryBus :=
      if_pos ⟨UInt32.lt_iff_toNat_lt.mpr nonempty, moved.running⟩
    rw [Demodma.body, copied]
    have running : (s.burst memoryBus).regs.running = true := moved.running
    by_cases more : 32 * (k + 1) < block.len
    · have notLast : ¬ ((s.burst memoryBus).regs.len = 0 ∧
          (s.burst memoryBus).regs.running = true) := fun last => by
        have := congrArg UInt32.toNat last.1
        rw [len] at this
        change _ = 0 at this
        omega
      rw [signalled, if_neg notLast]
      refine Or.inr ⟨?_, rfl, ?_⟩
      · exact
          { running := running
            enables := moved.enables
            size := size
            left := Or.inr more
            len := len
            src := (addresses more).1
            dst := (addresses more).2
            represents := represents }
      · change _ = passes (s.burst memoryBus).regs.len.toNat + 1
        rw [len, lenEq, passes, passes]
        omega
    · have last : (s.burst memoryBus).regs.len = 0 := by
        apply UInt32.toNat_inj.mp
        rw [len]
        change _ = 0
        omega
      rw [signalled, if_pos ⟨last, running⟩]
      exact Or.inl (finish_completed last (fun _ => answer) (by omega) represents)
  · have finished : s.regs.len = 0 := UInt32.toNat_inj.mp (by change _ = 0; omega)
    have copied : s.copied memoryBus = s := by
      refine if_neg fun both => nonempty ?_
      have pos := UInt32.lt_iff_toNat_lt.mp both.1
      exact pos
    rw [Demodma.body, copied, signalled, if_pos ⟨finished, moved.running⟩]
    exact Or.inl (finish_completed finished (fun _ => by omega) (by omega) moved.represents)

end Body

/-! ## Runs without the processor -/

/-- The thread goes on at this time. -/
def GoesOn (due : Nat) (s : Demodma Memory) : Prop :=
  s.thread = .sleeping due ∨ s.thread.waits = true ∧ s.evDmaCopy = .timed due

/-- The transfer goes on and will be complete at this time. -/
def InProgress (block : Block) (completion : Nat) (s : Demodma Memory) : Prop :=
  ∃ k due, Moved block k s ∧ GoesOn due s ∧
    completion = due + (passes s.regs.len.toNat - 1) * microsecond

section Steps

variable {block : Block} {completion : Nat} {s s' : Demodma Memory}

/-- The pass that is due. -/
theorem Moved.pass {k : Nat} (moved : Moved block k s)
    (due : completion = s.now + (passes s.regs.len.toNat - 1) * microsecond) :
    InProgress block completion (s.body memoryBus) ∨ Completed block (s.body memoryBus) := by
  rcases moved.body with completed | ⟨moved', sleeping, fewer⟩
  · exact Or.inr completed
  · refine Or.inl ⟨k + 1, s.now + microsecond, moved', Or.inl sleeping, ?_⟩
    have later : 1 ≤ passes (s.body memoryBus).regs.len.toNat := Nat.le_max_left _ _
    rw [due, fewer, Nat.add_sub_cancel]
    obtain ⟨more, eq⟩ := Nat.exists_eq_add_of_le later
    rw [eq, Nat.add_sub_cancel_left, Nat.add_mul, Nat.one_mul]
    omega

theorem InProgress.occur (progress : InProgress block completion s)
    (occurs : s.evDmaCopy = .timed s.now) :
    InProgress block completion (s.occur memoryBus) ∨ Completed block (s.occur memoryBus) := by
  rcases progress with ⟨k, due, moved, goesOn, rfl⟩
  have moved' : Moved block k { s with evDmaCopy := .none } := { moved with }
  rcases goesOn with asleep | ⟨waits, pending⟩
  · rw [occur_of_sleeping asleep]
    exact Or.inl ⟨k, due, moved', Or.inl asleep, rfl⟩
  · rw [occur_of_running waits moved.running]
    have now : due = s.now := by
      rw [pending] at occurs
      exact Pending.timed.inj occurs
    exact moved'.pass (by rw [now])

theorem InProgress.wake (progress : InProgress block completion s)
    (wakes : s.thread = .sleeping s.now) :
    InProgress block completion (s.wake memoryBus) ∨ Completed block (s.wake memoryBus) := by
  rcases progress with ⟨k, due, moved, goesOn, rfl⟩
  have moved' : Moved block k s.updateIrqs := { moved with }
  have now : due = s.now := by
    rcases goesOn with asleep | ⟨waits, -⟩
    · rw [wakes] at asleep
      exact (Thread.sleeping.inj asleep).symm
    · rw [wakes] at waits
      cases waits
  rw [Demodma.wake, loop, if_pos (show s.updateIrqs.regs.running = true from moved.running)]
  exact moved'.pass (by rw [now]; rfl)

/-- Every step goes on with the transfer or completes it. -/
theorem InProgress.step (progress : InProgress block completion s) (step : Step memoryBus s s') :
    InProgress block completion s' ∨ Completed block s' := by
  cases step with
  | occur due => exact progress.occur due
  | wake due => exact progress.wake due
  | advance later event thread =>
      rcases progress with ⟨k, due, moved, goesOn, same⟩
      exact Or.inl ⟨k, due, { moved with }, goesOn, same⟩

/-- After that the module only comes to rest. -/
theorem Completed.step (completed : Completed block s) (step : Step memoryBus s s') :
    Completed block s' := by
  have running := completed.running
  cases step with
  | occur due =>
      rw [Demodma.occur]
      split
      · rename_i start
        exact absurd start completed.started
      · have kept : copied memoryBus { s with evDmaCopy := .none } =
            { s with evDmaCopy := .none } :=
          if_neg fun both => by
            have := running.symm.trans both.2
            cases this
        have quiet : ¬ (s.regs.len = 0 ∧ s.regs.running = true) := fun both => by
          have := running.symm.trans both.2
          cases this
        rw [Demodma.body, kept, signalled, if_neg quiet]
        exact { completed with started := fun same => by cases same }
      · exact { completed with }
  | wake due =>
      rw [Demodma.wake, loop, if_neg (by
        change ¬ s.regs.running = true
        rw [running]
        exact Bool.false_ne_true)]
      exact { completed with
        irq := completed.done
        started := fun same => by cases same }
  | advance later event thread => exact { completed with }

/-- While the transfer goes on, its completion lies ahead. -/
theorem InProgress.now_le (progress : InProgress block completion s) (controlled : Controlled s) :
    s.now ≤ completion := by
  rcases progress with ⟨k, due, -, goesOn, rfl⟩
  rcases goesOn with asleep | ⟨-, pending⟩
  · exact (controlled.sleep due asleep).1.trans (Nat.le_add_right _ _)
  · exact (controlled.event due pending).trans (Nat.le_add_right _ _)

/-- The run of the module while the processor makes no call. -/
def Quiet : Demodma Memory → Demodma Memory → Prop :=
  Relation.ReflTransGen (Step memoryBus)

theorem Quiet.controlled (quiet : Quiet s s') (controlled : Controlled s) : Controlled s' := by
  induction quiet with
  | refl => exact controlled
  | tail _ step ih => exact ih.step step

/-- What a run makes of a transfer. -/
theorem Quiet.progress (quiet : Quiet s s') (progress : InProgress block completion s) :
    InProgress block completion s' ∨ Completed block s' := by
  induction quiet with
  | refl => exact Or.inl progress
  | tail _ step ih =>
      rcases ih with progress | completed
      · exact progress.step step
      · exact Or.inr (completed.step step)

/-- The time can go on to what is due first. -/
theorem exists_advance {time : Nat} (later : s.now ≤ time)
    (event : ∀ due, s.evDmaCopy = .timed due → time ≤ due)
    (thread : ∀ due, s.thread = .sleeping due → time ≤ due) :
    Quiet s { s with now := time } := by
  rcases Nat.eq_or_lt_of_le later with same | less
  · rw [← same]
    exact .refl
  · exact .single (.advance less event thread)

/-- A thread that sleeps wakes up in time, whatever occurs before. -/
theorem exists_wake {k due : Nat} (moved : Moved block k s) (controlled : Controlled s)
    (asleep : s.thread = .sleeping due) :
    ∃ s', Quiet s s' ∧ Moved block k s' ∧ s'.thread = .sleeping s'.now ∧
      s'.regs = s.regs := by
  have thread : ∀ due', s.thread = .sleeping due' → due ≤ due' := fun due' same =>
    Nat.le_of_eq (Thread.sleeping.inj (asleep.symm.trans same))
  have ahead := (controlled.sleep due asleep).1
  by_cases early : ∃ time, s.evDmaCopy = .timed time ∧ time < due
  · rcases early with ⟨time, pending, early⟩
    have toEvent : Quiet s { s with now := time } :=
      exists_advance (controlled.event time pending)
        (fun due' same => Nat.le_of_eq (Pending.timed.inj (pending.symm.trans same)))
        fun due' same => (Nat.le_of_lt early).trans (thread due' same)
    have occurs : Step memoryBus { s with now := time }
        { s with now := time, evDmaCopy := .none } := by
      rw [← occur_of_sleeping (s := { s with now := time }) asleep]
      exact .occur pending
    have toDue : Quiet { s with now := time, evDmaCopy := .none }
        { s with now := due, evDmaCopy := .none } :=
      exists_advance (s := { s with now := time, evDmaCopy := .none }) (Nat.le_of_lt early)
        (fun _ same => by cases same) thread
    exact ⟨_, (toEvent.tail occurs).trans toDue, { moved with }, asleep, rfl⟩
  · refine ⟨_, exists_advance ahead (fun due' same => ?_) thread, { moved with }, asleep, rfl⟩
    by_contra before
    exact early ⟨due', same, by omega⟩

/-- The next pass comes. -/
theorem exists_pass {k due : Nat} (moved : Moved block k s) (controlled : Controlled s)
    (goesOn : GoesOn due s) :
    ∃ s', Quiet s s' ∧ (Completed block s' ∨ Moved block (k + 1) s' ∧
      s'.thread = .sleeping (s'.now + microsecond) ∧
        passes s.regs.len.toNat = passes s'.regs.len.toNat + 1) := by
  rcases goesOn with asleep | ⟨waits, pending⟩
  · rcases exists_wake moved controlled asleep with ⟨s₁, before, moved₁, wakes, regs⟩
    have updated : Moved block k s₁.updateIrqs := { moved₁ with }
    have woken : s₁.wake memoryBus = s₁.updateIrqs.body memoryBus :=
      if_pos (show s₁.updateIrqs.regs.running = true from moved₁.running)
    refine ⟨_, before.tail (.wake wakes), ?_⟩
    rw [woken, (body_pauses memoryBus s₁.updateIrqs).now, ← regs]
    exact updated.body
  · have toEvent : Quiet s { s with now := due } :=
      exists_advance (controlled.event due pending)
        (fun due' same => Nat.le_of_eq (Pending.timed.inj (pending.symm.trans same)))
        fun due' same => by
          rw [same] at waits
          cases waits
    have cleared : Moved block k { s with now := due, evDmaCopy := .none } := { moved with }
    refine ⟨_, toEvent.tail (.occur pending), ?_⟩
    rw [occur_of_running (s := { s with now := due }) waits moved.running,
      (body_pauses memoryBus _).now]
    exact cleared.body

/-- A transfer comes to its end. -/
theorem exists_completed {k due : Nat} (moved : Moved block k s) (controlled : Controlled s)
    (goesOn : GoesOn due s) : ∃ s', Quiet s s' ∧ Completed block s' := by
  induction left : passes s.regs.len.toNat using Nat.strong_induction_on generalizing k due s with
  | _ n ih =>
      rcases exists_pass moved controlled goesOn with
        ⟨s', quiet, completed | ⟨moved', sleeping, fewer⟩⟩
      · exact ⟨s', quiet, completed⟩
      · rcases ih (passes s'.regs.len.toNat) (by omega) moved' (quiet.controlled controlled)
          (Or.inl sleeping) rfl with ⟨s'', later, completed⟩
        exact ⟨s'', quiet.trans later, completed⟩

end Steps

/-- A thread of which the `RUN` bit is set goes on. -/
theorem Controlled.exists_goesOn {s : Demodma Memory} (controlled : Controlled s)
    (running : s.regs.running = true) : ∃ due, GoesOn due s ∧ s.now ≤ due := by
  cases waits : s.thread.waits with
  | true =>
      cases event : s.evDmaCopy with
      | none => exact absurd event (controlled.start waits running)
      | delta => exact absurd event controlled.timed
      | timed due => exact ⟨due, Or.inr ⟨waits, event⟩, controlled.event due event⟩
  | false =>
      cases thread : s.thread with
      | start =>
          rw [thread] at waits
          cases waits
      | idle first =>
          rw [thread] at waits
          cases waits
      | sleeping due => exact ⟨due, Or.inl thread, (controlled.sleep due thread).1⟩

/-- Where no burst writes what a later one reads, the block has been copied. -/
theorem Completed.copied {block : Block} {s : Demodma Memory} (completed : Completed block s)
    (first : ReadsFirst 32 block.src block.dst block.len) :
    Represents s.bus (copyBlock block.src block.dst block.len block.bytes) := by
  rw [← bursts_eq_copyBlock block.bytes first (len_le_passes block.len)]
  exact completed.represents

/-- Once a transfer has been started and while the processor makes no call, it
comes to its end, and it has ended a microsecond for each burst but the first
after the thread goes on.  Then the bursts have been copied one after the other,
which is a copy at once unless a burst writes what a later one reads, the `RUN` bit
is clear, and `DONE` and the interrupt line are set. -/
theorem transfer_completes {s : Demodma Memory} (reachable : Reachable memoryBus s)
    {block : Block} (moved : Moved block 0 s) :
    ∃ due, GoesOn due s ∧ s.now ≤ due ∧ (∃ s', Quiet s s' ∧ Completed block s') ∧
      ∀ s', Quiet s s' → due + (passes block.len - 1) * microsecond < s'.now →
        Completed block s' ∧
          (ReadsFirst 32 block.src block.dst block.len →
            Represents s'.bus (copyBlock block.src block.dst block.len block.bytes)) := by
  have controlled := reachable.controlled
  rcases controlled.exists_goesOn moved.running with ⟨due, goesOn, ahead⟩
  refine ⟨due, goesOn, ahead, exists_completed moved controlled goesOn, fun s' quiet late => ?_⟩
  have progress : InProgress block (due + (passes block.len - 1) * microsecond) s :=
    ⟨0, due, moved, goesOn, by rw [moved.len]; rfl⟩
  rcases quiet.progress progress with progress | completed
  · exact absurd (progress.now_le (quiet.controlled controlled)) (Nat.not_le_of_lt late)
  · exact ⟨completed, completed.copied⟩

/-- A memory in which each byte holds the end of its address. -/
def numbered : Memory :=
  ⟨128, 0, fun key => some key.toUInt8⟩

/-- The processor has written the registers of a copy of 40 bytes. -/
def configured : Demodma Memory :=
  let write i word (s : Demodma Memory) := (s.bTransport memoryBus (writeReg i word)).1
  (reset numbered fun _ => 0) |> write 0 64 |> write 1 8 |> write 2 40

/-- The copy that the processor has asked for. -/
def numberedBlock : Block where
  src := 8
  dst := 64
  len := 40
  bytes := fun a => (UInt64.ofNat a).toUInt8
  size := 128
  nonneg := by decide
  srcInside := by decide
  dstInside := by decide
  srcBound := by decide
  dstBound := by decide

theorem transfer_completes_numbered :
    ∃ s', Quiet (configured.bTransport memoryBus (writeReg 3 ctrlRun)).1 s' ∧
      Completed numberedBlock s' := by
  have represents : Represents (configured.bTransport memoryBus (writeReg 3 ctrlRun)).1.bus
      numberedBlock.bytes :=
    (doDmaTrans_read { configured with regs := configured.regs.setU32 3 ctrlRun } (fun _ => 0) 8 4
      (by decide) rfl (by decide) (by decide) fun _ _ => rfl).2.1
  have moved : Moved numberedBlock 0 (configured.bTransport memoryBus (writeReg 3 ctrlRun)).1 :=
    { running := by decide
      enables := by decide
      size := by decide
      left := Or.inl rfl
      len := by decide
      src := by decide
      dst := by decide
      represents := represents }
  rcases transfer_completes (.call (.call (.call (.call (.reset numbered fun _ => 0) (writeReg 0 64))
    (writeReg 1 8)) (writeReg 2 40)) (writeReg 3 ctrlRun)) moved with ⟨-, -, -, ended, -⟩
  exact ended

end Demodma

end SystemcTlm.Dma
