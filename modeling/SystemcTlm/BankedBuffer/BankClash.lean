import SystemcTlm.BankedBuffer.Banks

/-!
# Writes into a bank that is being read

The selection of the bank starts from bank 0, which stays selected when both
banks are read in a cycle.  The reads of different packets are four cycles
apart, and meet when packets become heads one at a time.
-/

namespace SystemcTlm.BankedBuffer

open SystemcTlm.Transition

/-! ## The reads of the banks -/

/-- The head reads a slice of the bank in the cycle that begins. -/
def Packet.Reads (packet : Packet) (bankId : Int) : Prop :=
  packet.delay ≤ 1 ∧ packet.counter ≤ 1 ∧ packet.banks.head? = some bankId

instance (packet : Packet) (bankId : Int) : Decidable (packet.Reads bankId) :=
  inferInstanceAs (Decidable (_ ∧ _ ∧ _))

namespace Banks

/-- The front of `decode_que`, if `fill` makes it a head. -/
def firstFilled (t : Banks) : Option Packet :=
  if decodeLinkNum < t.decodeQue.length ∧ t.decodeQueHead.length < decodeLinkNum then
    t.decodeQue.head?
  else none

/-- A slice of the bank is read in the cycle that begins. -/
def ReadsBank (t : Banks) (bankId : Int) : Prop :=
  (∃ packet ∈ t.decodeQueHead, packet.Reads bankId) ∨
    ∃ packet ∈ t.firstFilled, packet.counter ≤ 1 ∧ packet.banks.head? = some bankId

instance (t : Banks) (bankId : Int) : Decidable (t.ReadsBank bankId) :=
  inferInstanceAs (Decidable (_ ∨ _))

/-- If a slice is to be written and bank 0 is read, then bank 1 is not read and
not full. -/
def LeavesBank (t : Banks) : Prop :=
  t.encoding ≠ 0 → t.ReadsBank 0 → ¬ t.ReadsBank 1 ∧ 0 < t.bank1.deep

instance (t : Banks) : Decidable t.LeavesBank :=
  inferInstanceAs (Decidable (_ → _ → _ ∧ _))

end Banks

section Agrees

variable {b : B} {t : Banks} {chain : Int → List Place} {packet : Packet} {queueId : Int}

theorem Shows.reads_iff (shows : Shows b.queueMap chain queueId packet) (memory : Memory b chain)
    (bankId : Int) : Reads b queueId bankId ↔ packet.Reads bankId := by
  rcases shows.front memory with ⟨info, cells, found, -, -, rfl⟩
  constructor
  · rintro ⟨info', found', delay, counter, bank⟩
    cases found.symm.trans found'
    exact ⟨delay, counter, congrArg some bank⟩
  · rintro ⟨delay, counter, bank⟩
    exact ⟨info, found, delay, counter, Option.some.inj bank⟩

theorem exists_reads_iff {queueIds : List Int} {packets : List Packet} (memory : Memory b chain)
    (shown : List.Forall₂ (Shows b.queueMap chain) queueIds packets) (bankId : Int) :
    (∃ queueId, queueId ∈ queueIds ∧ Reads b queueId bankId) ↔
      ∃ packet ∈ packets, packet.Reads bankId := by
  induction shown with
  | nil => simp
  | cons shows _ ih =>
      rw [List.exists_mem_cons_iff, List.exists_mem_cons_iff, shows.reads_iff memory, ih]

/-- `fill` makes the same entry a head. -/
theorem Agrees.filled_iff (agrees : Agrees b chain t) (bankId : Int) :
    (∃ queueId, firstFilled b = some queueId ∧
        (b.queueInfo queueId).counter ≤ 1 ∧ (b.queueInfo queueId).bankId = bankId) ↔
      ∃ packet ∈ t.firstFilled, packet.counter ≤ 1 ∧ packet.banks.head? = some bankId := by
  rw [firstFilled, Banks.firstFilled, agrees.decodeQue.length_eq, agrees.heads.length_eq]
  split_ifs with fills
  · have shown := agrees.decodeQue
    generalize b.decodeQue = queueIds at shown ⊢
    generalize t.decodeQue = packets at shown ⊢
    cases shown with
    | nil => simp
    | cons shows _ =>
        rcases shows.front agrees.memory with ⟨info, cells, found, -, -, rfl⟩
        simp [B.queueInfo, found]
  · simp

theorem Agrees.readsBank_iff (agrees : Agrees b chain t) (bankId : Int) :
    ReadsBank b bankId ↔ t.ReadsBank bankId :=
  or_congr (exists_reads_iff agrees.memory agrees.heads bankId) (agrees.filled_iff bankId)

theorem Agrees.leavesBank_iff (agrees : Agrees b chain t) : LeavesBank b ↔ t.LeavesBank := by
  have waits : b.encodeQue ≠ [] ↔ t.encoding ≠ 0 := by
    rw [← agrees.encoding, ne_eq, ne_eq, List.length_eq_zero_iff]
  have depth := (agrees.banks 1 (by decide) (by decide)).2
  rw [LeavesBank, Banks.LeavesBank, waits, agrees.readsBank_iff, agrees.readsBank_iff, depth]
  rfl

end Agrees

/-! ## The condition -/

/-- In a run a slice is never written into a bank that is read in the same
cycle, exactly if every cycle that writes while bank 0 is read finds bank 1 not
read and not full. -/
theorem avoids_reads_iff {calls : List Call} (distinct : (arrivals calls).Nodup) :
    (∀ before rest, calls = before ++ .process :: rest → AvoidsReads (run before)) ↔
      ∀ before rest, calls = before ++ .process :: rest → LeavesBank (run before) := by
  have each : ∀ before rest, calls = before ++ .process :: rest →
      (AvoidsReads (run before) ↔ LeavesBank (run before)) := by
    intro before rest split
    rw [split, arrivals_append] at distinct
    exact (tidy_run distinct.of_append_left).avoidsReads_iff
  constructor
  · intro avoids before rest split
    exact (each before rest split).mp (avoids before rest split)
  · intro leaves before rest split
    exact (each before rest split).mpr (leaves before rest split)

/-- A condition on the banks of a run, at the start of one of its cycles. -/
theorem exists_agrees {calls : List Call} (distinct : (arrivals calls).Nodup) {p : Banks → Bool}
    (holds : (runPartial Banks.call calls Banks.new).any p = true) :
    ∃ chain t, p t = true ∧ Agrees (run calls) chain t := by
  rcases Option.any_eq_true _ _ |>.mp holds with ⟨t, reached, shown⟩
  rcases agrees_run distinct reached with ⟨-, chain, agrees⟩
  exact ⟨chain, t, shown, agrees⟩

/-- While the last of six packets is written and others are read, each cycle
leaves a bank. -/
theorem leavesBank_sixPackets {before rest : List Call}
    (split : sixPackets = before ++ .process :: rest) : LeavesBank (run before) := by
  have leaves : ∀ k, k < 96 →
      ((runPartial Banks.call (sixPackets.take k) Banks.new).any fun t => t.LeavesBank) = true := by
    decide +kernel
  have distinct : (arrivals sixPackets).Nodup := by
    decide +kernel
  have length := congrArg List.length split
  rw [List.length_append, List.length_cons, show sixPackets.length = 96 from rfl] at length
  have here := leaves before.length (by omega)
  rw [split, List.take_left] at here
  rw [split, arrivals_append] at distinct
  rcases exists_agrees distinct.of_append_left here with ⟨chain, t, shown, agrees⟩
  exact agrees.leavesBank_iff.mpr (of_decide_eq_true shown)

/-- In one of the cycles a slice is read from bank 0 and another is written. -/
theorem avoids_reads_iff_six_packets : ∃ before rest, sixPackets = before ++ .process :: rest ∧
    (run before).encodeQue ≠ [] ∧ ReadsBank (run before) 0 ∧ AvoidsReads (run before) := by
  have distinct : (arrivals sixPackets).Nodup ∧ (arrivals (sixPackets.take 91)).Nodup := by
    decide +kernel
  have busy : ((runPartial Banks.call (sixPackets.take 91) Banks.new).any fun t =>
      t.encoding ≠ 0 ∧ t.ReadsBank 0) = true := by
    decide +kernel
  rcases exists_agrees distinct.2 busy with ⟨chain, t, shown, agrees⟩
  rcases of_decide_eq_true shown with ⟨waits, reads⟩
  refine ⟨sixPackets.take 91, List.replicate 4 .process, rfl, ?_,
    (agrees.readsBank_iff 0).mpr reads, ?_⟩
  · rwa [← List.length_pos_iff, agrees.encoding, Nat.pos_iff_ne_zero]
  · exact (avoids_reads_iff distinct.1).mpr (fun _ _ => leavesBank_sixPackets) _ _ rfl

/-- Five packets are written and read, and two more arrive while the reads go
on. -/
def lateArrivals : List Call :=
  [0, 1, 2, 3, 4].map (.rcvFrom 0x1000) ++ List.replicate 130 .process ++
    [5, 6].map (.rcvFrom 0x1000) ++ List.replicate 21 .process

/-- The slice of packet 6 goes into bank 0, from which packet 5 is read. -/
theorem not_avoids_reads_late_arrivals :
    (arrivals (lateArrivals ++ [.process])).Nodup ∧
      ¬ ∀ before rest, lateArrivals ++ [.process] = before ++ .process :: rest →
        AvoidsReads (run before) := by
  have distinct : (arrivals (lateArrivals ++ [.process])).Nodup := by
    decide +kernel
  refine ⟨distinct, fun avoids => ?_⟩
  rw [arrivals_append] at distinct
  have known := distinct.of_append_left
  have leaves := (tidy_run known).avoidsReads_iff.mp (avoids lateArrivals [] rfl)
  -- packets 4 and 5 are read from banks 1 and 0 in the same cycle
  have clash : ((runPartial Banks.call lateArrivals Banks.new).any fun t => ¬ t.LeavesBank) =
      true := by
    decide +kernel
  rcases exists_agrees known clash with ⟨chain, t, shown, agrees⟩
  exact of_decide_eq_true shown (agrees.leavesBank_iff.mp leaves)

end SystemcTlm.BankedBuffer
