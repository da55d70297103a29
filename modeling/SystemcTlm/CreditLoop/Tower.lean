import SystemcTlm.Transition.Run

/-!
# The pair of a sender and a slow receiver

`A` sends a word in each cycle in which it has a credit.  `B` keeps the words in a
queue, takes one out in every second cycle in which the queue is not empty, and
gives the credit back.  In a cycle the two processes run in any order.
-/

namespace SystemcTlm.CreditLoop

open SystemcTlm.Transition

/-- The modules `A` and `B`.  `pushed` and `popped` are the words of the lines that
`B` prints. -/
structure Tower where
  credits : Int
  dataQueue : List Int32
  delayCnt : Int
  pushed : List Int32
  popped : List Int32

namespace Tower

/-- The constructors, with the credits of `A`. -/
def start (credits : Int) : Tower where
  credits := credits
  dataQueue := []
  delayCnt := 0
  pushed := []
  popped := []

/-- The credits in the source. -/
def initialCredits : Int :=
  4

/-- `A::rcv_ctrl_from`. -/
def rcvCtrlFrom (s : Tower) : Tower :=
  { s with credits := s.credits + 1 }

/-- `B::rcv_data_from`. -/
def rcvDataFrom (data : Nat → UInt8) (s : Tower) : Tower :=
  let word := ((data 0).toUInt32 <<< 24 ||| (data 1).toUInt32 <<< 16 |||
    (data 2).toUInt32 <<< 8 ||| (data 3).toUInt32).toInt32
  { s with
    dataQueue := s.dataQueue ++ [word]
    pushed := s.pushed ++ [word] }

/-- The bytes that `A` sends. -/
def sentData : Nat → UInt8
  | 0 => 0x12
  | 1 => 0x34
  | 2 => 0x56
  | _ => 0x78

/-- `A::process`. -/
def processA (s : Tower) : Tower :=
  if 0 < s.credits then rcvDataFrom sentData { s with credits := s.credits - 1 } else s

/-- `B::process`. -/
def processB (s : Tower) : Tower :=
  match s.dataQueue with
  | [] => s
  | data :: rest =>
      if s.delayCnt + 1 = 2 then
        rcvCtrlFrom
          { s with
            dataQueue := rest
            delayCnt := 0
            popped := s.popped ++ [data] }
      else { s with delayCnt := s.delayCnt + 1 }

/-- A cycle, in which `A` or `B` is the first. -/
def cycle (aFirst : Bool) (s : Tower) : Tower :=
  if aFirst then s.processA.processB else s.processB.processA

/-! ## The invariant -/

/-- What `B` has counted in so many cycles with a word in the queue, and where the
words and the credits are. -/
structure Flowing (credits : Int) (counted : Nat) (s : Tower) : Prop where
  nonneg : 0 ≤ s.credits
  conserved : s.credits + s.dataQueue.length = credits
  fifo : s.popped ++ s.dataQueue = s.pushed
  words : ∀ word, word ∈ s.pushed → word = 0x12345678
  popped : s.popped.length = counted / 2
  delayCnt : s.delayCnt = (counted % 2 : Nat)

variable {credits : Int} {counted : Nat} {s : Tower}

theorem Flowing.processA (flowing : Flowing credits counted s) :
    Flowing credits counted s.processA := by
  rw [Tower.processA]
  split_ifs with held
  · exact
      { flowing with
        nonneg := Int.sub_nonneg_of_le held
        conserved := by
          have conserved := flowing.conserved
          change s.credits - 1 + ((s.dataQueue ++ [_]).length : Nat) = credits
          rw [List.length_append, List.length_singleton]
          omega
        fifo := by
          change s.popped ++ (s.dataQueue ++ [_]) = s.pushed ++ [_]
          rw [← List.append_assoc, flowing.fifo]
        words := fun word member => by
          rcases List.mem_append.mp member with earlier | last
          · exact flowing.words word earlier
          · rw [List.mem_singleton.mp last]
            decide }
  · exact flowing

/-- After `A` a word is in the queue, unless all credits are out and none was. -/
theorem Flowing.dataQueue_ne_nil (flowing : Flowing credits counted s) (enough : 1 ≤ credits) :
    s.processA.dataQueue ≠ [] := by
  have conserved := flowing.conserved
  rw [Tower.processA]
  split_ifs with held
  · exact List.concat_ne_nil _ _
  · intro zero
    rw [zero] at conserved
    change s.credits + 0 = credits at conserved
    omega

theorem Flowing.processB (flowing : Flowing credits counted s) (waits : s.dataQueue ≠ []) :
    Flowing credits (counted + 1) s.processB := by
  have conserved := flowing.conserved
  have fifo := flowing.fifo
  have popped := flowing.popped
  have delayCnt := flowing.delayCnt
  rw [Tower.processB]
  cases queue : s.dataQueue with
  | nil => exact absurd queue waits
  | cons data rest =>
      rw [queue] at conserved fifo
      rw [List.length_cons] at conserved
      dsimp only
      split_ifs with second
      · exact
          { nonneg := Int.add_nonneg flowing.nonneg (by decide)
            conserved := by
              change s.credits + 1 + (rest.length : Nat) = credits
              omega
            fifo := by
              change s.popped ++ [data] ++ rest = s.pushed
              rw [List.append_assoc]
              exact fifo
            words := flowing.words
            popped := by
              change (s.popped ++ [data]).length = _
              rw [List.length_append, List.length_singleton]
              omega
            delayCnt := by
              change (0 : Int) = _
              omega }
      · exact
          { nonneg := flowing.nonneg
            conserved := by
              change s.credits + ((data :: rest).length : Nat) = credits
              rw [List.length_cons]
              omega
            fifo := fifo
            words := flowing.words
            popped := by
              change s.popped.length = _
              omega
            delayCnt := by
              change s.delayCnt + 1 = _
              omega }

/-- `B` takes out one word at most. -/
theorem length_processB (s : Tower) : s.dataQueue.length ≤ s.processB.dataQueue.length + 1 := by
  rw [Tower.processB]
  split
  · exact Nat.le_succ _
  · rename_i data rest queue
    rw [queue]
    split_ifs
    · exact Nat.le_refl _
    · exact Nat.le_succ _

/-- After `A` two words are in the queue if one was there before. -/
theorem Flowing.two_le_length (flowing : Flowing credits counted s) (waits : s.dataQueue ≠ [])
    (enough : 2 ≤ credits) : 2 ≤ s.processA.dataQueue.length := by
  have conserved := flowing.conserved
  have pos := List.length_pos_iff.mpr waits
  rw [Tower.processA]
  split_ifs with held
  · change 2 ≤ (s.dataQueue ++ [_]).length
    rw [List.length_append, List.length_singleton]
    omega
  · omega

/-! ## Cycles -/

/-- Between the cycles a word is in the queue. -/
structure Busy (credits : Int) (counted : Nat) (s : Tower) : Prop
    extends Flowing credits counted s where
  some : s.dataQueue ≠ []

theorem Busy.cycle (busy : Busy credits counted s) (enough : 2 ≤ credits) (aFirst : Bool) :
    Busy credits (counted + 1) (s.cycle aFirst) := by
  have one : 1 ≤ credits := Int.le_trans (by decide) enough
  cases aFirst with
  | true =>
      have two := busy.toFlowing.two_le_length busy.some enough
      have left := length_processB s.processA
      exact
        { toFlowing := busy.toFlowing.processA.processB (busy.toFlowing.dataQueue_ne_nil one)
          some := List.ne_nil_of_length_pos (by
            change 0 < s.processA.processB.dataQueue.length
            omega) }
  | false =>
      have after := busy.toFlowing.processB busy.some
      exact { toFlowing := after.processA, some := after.dataQueue_ne_nil one }

theorem flowing_start (nonneg : 0 ≤ credits) : Flowing credits 0 (start credits) where
  nonneg := nonneg
  conserved := Int.add_zero credits
  fifo := rfl
  words := fun _ member => absurd member List.not_mem_nil
  popped := rfl
  delayCnt := rfl

/-- `B` counts the first cycle only if `A` comes before it. -/
theorem busy_first (enough : 2 ≤ credits) (aFirst : Bool) :
    Busy credits aFirst.toNat ((start credits).cycle aFirst) := by
  have one : 1 ≤ credits := Int.le_trans (by decide) enough
  have initial := flowing_start (Int.le_trans (by decide) enough)
  cases aFirst with
  | false => exact { toFlowing := initial.processA, some := initial.dataQueue_ne_nil one }
  | true =>
      have sent : (start credits).processA =
          rcvDataFrom sentData { start credits with credits := credits - 1 } :=
        if_pos (Int.lt_of_lt_of_le (by decide) one)
      refine { toFlowing := initial.processA.processB (initial.dataQueue_ne_nil one), some := ?_ }
      change (start credits).processA.processB.dataQueue ≠ []
      rw [sent]
      exact List.cons_ne_nil _ _

/-- The state after the cycles. -/
def run (credits : Int) (orders : List Bool) : Tower :=
  runCalls cycle orders (start credits)

theorem busy_run (enough : 2 ≤ credits) (aFirst : Bool) (orders : List Bool) :
    Busy credits (orders.length + aFirst.toNat) (run credits (aFirst :: orders)) :=
  runCalls_counted (fun n => Busy credits (n + aFirst.toNat)) (by
      rw [Nat.zero_add]
      exact busy_first enough aFirst)
    fun n aFirst' _ busy => by
      rw [Nat.add_right_comm]
      exact busy.cycle enough aFirst'

/-- Whatever the order in each cycle, a word takes the place of each credit that
is out, so that the queue never holds more words than there are credits; the words
come out in their order and unchanged, and from the first word on exactly one in
two cycles. -/
theorem run_flows (enough : 2 ≤ credits) (aFirst : Bool) (orders : List Bool) :
    0 ≤ (run credits (aFirst :: orders)).credits ∧
      (run credits (aFirst :: orders)).credits +
        (run credits (aFirst :: orders)).dataQueue.length = credits ∧
      (run credits (aFirst :: orders)).popped ++ (run credits (aFirst :: orders)).dataQueue =
        (run credits (aFirst :: orders)).pushed ∧
      (∀ word, word ∈ (run credits (aFirst :: orders)).pushed → word = 0x12345678) ∧
      (run credits (aFirst :: orders)).popped.length = (orders.length + aFirst.toNat) / 2 :=
  have busy := busy_run enough aFirst orders
  ⟨busy.nonneg, busy.conserved, busy.fifo, busy.words, busy.popped⟩

/-- The eleven cycles of the source, with `A` first. -/
theorem run_flows_eleven :
    (run initialCredits (true :: List.replicate 10 true)).popped.length = 5 :=
  (run_flows (by decide) true (List.replicate 10 true)).2.2.2.2

end Tower

end SystemcTlm.CreditLoop
