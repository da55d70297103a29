import SystemcTlm.Dma.Demodma

/-!
# The control of the demo DMA

Whatever the processor writes and whenever, no start is lost and the interrupt
line follows the `DONE` bit: while the thread waits for an event that is not
pending, the `RUN` bit is clear and the line shows the `DONE` bit.
-/

namespace SystemcTlm.Dma

open SystemcTlm.Simulation SystemcTlm.TlmMemory

universe u

variable {β : Type u} {bus : Bus β}

/-! ## The control bits -/

theorem or_and_right (x y z : UInt32) : (x ||| y) &&& z = x &&& z ||| y &&& z :=
  UInt32.toBitVec_inj.mp BitVec.and_or_distrib_right

/-- `RUN` is cleared, and `DONE` set. -/
theorem finish_ctrl (ctrl : UInt32) :
    ((ctrl &&& ~~~ctrlRun) ||| ctrlDone) &&& ctrlRun = 0 ∧
      ((ctrl &&& ~~~ctrlRun) ||| ctrlDone) &&& ctrlDone ≠ 0 := by
  constructor
  · rw [or_and_right, UInt32.and_assoc, UInt32.not_and_self, UInt32.and_zero]
    decide
  · rw [or_and_right, UInt32.and_self]
    intro zero
    exact absurd (UInt32.or_eq_zero_iff.mp zero).2 (by decide)

namespace Demodma

section Calls

variable (s : Demodma β)

theorem finish_running : s.finish.regs.running = false :=
  decide_eq_false (not_not.mpr (finish_ctrl s.regs.ctrl).1)

theorem finish_done : s.finish.regs.done = true :=
  decide_eq_true (finish_ctrl s.regs.ctrl).2

/-! ## The thread -/

/-- The thread has come to a `wait`. -/
structure Pauses (s s' : Demodma β) : Prop where
  now : s'.now = s.now
  event : s'.evDmaCopy = s.evDmaCopy
  started : s'.thread ≠ .start
  idle : s'.thread.waits = true → s'.regs.running = false
  sleeps : ∀ due, s'.thread = .sleeping due → due = s'.now + microsecond
  irq : s'.thread = .idle false → s'.irq = s'.regs.done

theorem copied_now : (s.copied bus).now = s.now := by
  rw [copied]
  split_ifs <;> rfl

theorem copied_event : (s.copied bus).evDmaCopy = s.evDmaCopy := by
  rw [copied]
  split_ifs <;> rfl

theorem signalled_pauses : Pauses s s.signalled := by
  rw [signalled]
  split_ifs
  · exact
      { now := rfl
        event := rfl
        started := fun same => by cases same
        idle := fun _ => s.finish_running
        sleeps := fun _ same => by cases same
        irq := fun _ => rfl }
  · exact
      { now := rfl
        event := rfl
        started := fun same => by cases same
        idle := fun waits => by cases waits
        sleeps := fun _ same => by cases same; rfl
        irq := fun same => by cases same }

variable (bus) in
theorem body_pauses : Pauses s (s.body bus) :=
  let pauses := (s.copied bus).signalled_pauses
  { pauses with
    now := pauses.now.trans s.copied_now
    event := pauses.event.trans s.copied_event }

variable (bus) in
/-- In a later pass the line has been updated before. -/
theorem loop_pauses (first : Bool) (updated : first = false → s.irq = s.regs.done) :
    Pauses s (s.loop bus first) := by
  rw [loop]
  cases running : s.regs.running with
  | true => exact s.body_pauses bus
  | false =>
      exact
        { now := rfl
          event := rfl
          started := fun same => by cases same
          idle := fun _ => running
          sleeps := fun _ same => by cases same
          irq := fun same => updated (by cases same; rfl) }

end Calls

/-! ## The invariant -/

/-- No start is lost, the line follows the `DONE` bit, and what is due lies ahead. -/
structure Controlled (s : Demodma β) : Prop where
  start : s.thread.waits = true → s.regs.running = true → s.evDmaCopy ≠ .none
  irq : s.thread = .idle false → s.evDmaCopy = .none → s.irq = s.regs.done
  timed : s.evDmaCopy ≠ .delta
  event : ∀ due, s.evDmaCopy = .timed due → s.now ≤ due
  sleep : ∀ due, s.thread = .sleeping due → s.now ≤ due ∧ due ≤ s.now + microsecond

theorem Pauses.controlled {s s' : Demodma β} (pauses : Pauses s s')
    (timed : s.evDmaCopy ≠ .delta) (event : ∀ due, s.evDmaCopy = .timed due → s.now ≤ due) :
    Controlled s' where
  start := fun waits running => by
    rw [pauses.idle waits] at running
    cases running
  irq := fun idle _ => pauses.irq idle
  timed := pauses.event ▸ timed
  event := fun due same => by
    rw [pauses.now]
    exact event due (pauses.event ▸ same)
  sleep := fun due same => by
    rw [pauses.sleeps due same]
    exact ⟨Nat.le_add_right _ _, Nat.le_refl _⟩

theorem reset_controlled (target : β) (buf : Nat → UInt8) : Controlled (reset target buf) where
  start := fun _ running => by
    change Regs.running {} = true at running
    exact absurd running (by decide)
  irq := fun same => by cases same
  timed := fun same => by cases same
  event := fun _ same => by cases same
  sleep := fun _ same => by cases same

section Steps

variable {s : Demodma β}

theorem Controlled.occur (controlled : Controlled s) : Controlled (s.occur bus) := by
  have clear : ∀ due, ({ s with evDmaCopy := .none } : Demodma β).evDmaCopy = .timed due →
      s.now ≤ due := fun _ same => by cases same
  rw [Demodma.occur]
  split
  · exact (loop_pauses bus _ true fun later => by cases later).controlled
      (fun same => by cases same) clear
  · exact (body_pauses bus _).controlled (fun same => by cases same) clear
  · rename_i asleep
    change s.thread = _ at asleep
    exact
      { start := fun waits => by
          change s.thread.waits = true at waits
          rw [asleep] at waits
          cases waits
        irq := fun same => by
          change s.thread = _ at same
          rw [asleep] at same
          cases same
        timed := fun same => by cases same
        event := clear
        sleep := controlled.sleep }

theorem Controlled.wake (controlled : Controlled s) : Controlled (s.wake bus) :=
  (loop_pauses bus s.updateIrqs false fun _ => rfl).controlled controlled.timed controlled.event

theorem Controlled.advance (controlled : Controlled s) {time : Nat} (later : s.now < time)
    (event : ∀ due, s.evDmaCopy = .timed due → time ≤ due)
    (thread : ∀ due, s.thread = .sleeping due → time ≤ due) :
    Controlled { s with now := time } :=
  { controlled with
    event := event
    sleep := fun due same =>
      ⟨thread due same, (controlled.sleep due same).2.trans
        (Nat.add_le_add_right (Nat.le_of_lt later) microsecond)⟩ }

theorem Controlled.step {s' : Demodma β} (controlled : Controlled s) (step : Step bus s s') :
    Controlled s' := by
  cases step with
  | occur _ => exact controlled.occur
  | wake _ => exact controlled.wake
  | advance later event thread => exact controlled.advance later event thread

/-- A thread that sleeps misses the event. -/
theorem occur_of_sleeping {due : Nat} (asleep : s.thread = .sleeping due) :
    s.occur bus = { s with evDmaCopy := .none } := by
  rw [Demodma.occur]
  split
  · rename_i other
    exact absurd (asleep.symm.trans other) fun same => by cases same
  · rename_i other
    exact absurd (asleep.symm.trans other) fun same => by cases same
  · rfl

/-- A thread that waits begins a pass if the `RUN` bit is set. -/
theorem occur_of_running (waits : s.thread.waits = true) (running : s.regs.running = true) :
    s.occur bus = Demodma.body bus { s with evDmaCopy := .none } := by
  rw [Demodma.occur]
  split
  · exact if_pos running
  · rfl
  · rename_i asleep
    change s.thread = _ at asleep
    rw [asleep] at waits
    cases waits

/-! ## The processor -/

theorem setU32_ctrl {i : Fin 8} (other : i ≠ 3) (regs : Regs) (word : UInt32) :
    (regs.setU32 i word).ctrl = regs.ctrl := by
  match i, other with
  | 0, _ | 1, _ | 2, _ | 4, _ | 5, _ | 6, _ | 7, _ => rfl
  | 3, same => exact absurd rfl same

/-- A call either leaves the control register and the event, or notifies. -/
theorem bTransport_cases (access : Access) :
    ((s.bTransport bus access).1.thread = s.thread ∧ (s.bTransport bus access).1.irq = s.irq ∧
      (s.bTransport bus access).1.now = s.now) ∧
    ((s.bTransport bus access).1.regs.ctrl = s.regs.ctrl ∧
        (s.bTransport bus access).1.evDmaCopy = s.evDmaCopy ∨
      (s.bTransport bus access).1.evDmaCopy =
        s.evDmaCopy.notifyTimed (s.now + (access.delay + microsecond))) := by
  rw [bTransport]
  dsimp only
  split_ifs with enables burst control
  · exact ⟨⟨rfl, rfl, rfl⟩, Or.inl ⟨rfl, rfl⟩⟩
  · exact ⟨⟨rfl, rfl, rfl⟩, Or.inl ⟨rfl, rfl⟩⟩
  · cases access.trans.command with
    | read => exact ⟨⟨rfl, rfl, rfl⟩, Or.inl ⟨rfl, rfl⟩⟩
    | write => exact ⟨⟨rfl, rfl, rfl⟩, Or.inr rfl⟩
    | ignore => exact ⟨⟨rfl, rfl, rfl⟩, Or.inl ⟨rfl, rfl⟩⟩
  · cases access.trans.command with
    | read => exact ⟨⟨rfl, rfl, rfl⟩, Or.inl ⟨rfl, rfl⟩⟩
    | write => exact ⟨⟨rfl, rfl, rfl⟩, Or.inl ⟨setU32_ctrl control _ _, rfl⟩⟩
    | ignore => exact ⟨⟨rfl, rfl, rfl⟩, Or.inl ⟨rfl, rfl⟩⟩

theorem Controlled.bTransport (controlled : Controlled s) (access : Access) :
    Controlled (s.bTransport bus access).1 := by
  rcases @bTransport_cases _ bus s access with ⟨⟨thread, irq, now⟩, kept | notified⟩
  · rcases kept with ⟨ctrl, event⟩
    exact
      { start := by
          rw [thread, event, Regs.running, ctrl]
          exact controlled.start
        irq := by
          rw [thread, event, irq, Regs.done, ctrl]
          exact controlled.irq
        timed := event ▸ controlled.timed
        event := by
          rw [event, now]
          exact controlled.event
        sleep := by
          rw [thread, now]
          exact controlled.sleep }
  · have pending : (s.bTransport bus access).1.evDmaCopy ≠ .none := by
      rw [notified]
      cases s.evDmaCopy <;> exact fun same => by cases same
    exact
      { start := fun _ _ => pending
        irq := fun _ silent => absurd silent pending
        timed := by
          rw [notified]
          cases event : s.evDmaCopy with
          | none => exact fun same => by cases same
          | delta => exact absurd event controlled.timed
          | timed due => exact fun same => by cases same
        event := by
          intro due same
          rw [now]
          rw [notified] at same
          cases event : s.evDmaCopy with
          | none =>
              rw [event] at same
              cases same
              exact Nat.le_add_right _ _
          | delta => exact absurd event controlled.timed
          | timed earlier =>
              rw [event] at same
              cases same
              exact Nat.le_min.mpr ⟨controlled.event earlier event, Nat.le_add_right _ _⟩
        sleep := by
          rw [thread, now]
          exact controlled.sleep }

end Steps

/-! ## Runs -/

/-- The states of the module under a processor that makes any calls at any time. -/
inductive Reachable (bus : Bus β) : Demodma β → Prop
  | reset (target : β) (buf : Nat → UInt8) : Reachable bus (reset target buf)
  | step {s s' : Demodma β} (before : Reachable bus s) (step : Step bus s s') : Reachable bus s'
  | call {s : Demodma β} (before : Reachable bus s) (access : Access) :
      Reachable bus (s.bTransport bus access).1

theorem Reachable.controlled {s : Demodma β} (reachable : Reachable bus s) : Controlled s := by
  induction reachable with
  | reset target buf => exact reset_controlled target buf
  | step _ step ih => exact ih.step step
  | call _ access ih => exact ih.bTransport access

/-- No start is lost and the interrupt line is right: where the thread waits for
its event, the event is pending, or else the `RUN` bit is clear and, unless the
thread still is in its first pass, the line shows the `DONE` bit. -/
theorem Reachable.waiting_settled {s : Demodma β} (reachable : Reachable bus s)
    (waits : s.thread.waits = true) :
    (∃ due, s.evDmaCopy = .timed due ∧ s.now ≤ due) ∨
      s.regs.running = false ∧ (s.thread = .idle false → s.irq = s.regs.done) := by
  have controlled := reachable.controlled
  cases event : s.evDmaCopy with
  | none =>
      refine Or.inr ⟨?_, fun idle => controlled.irq idle event⟩
      cases running : s.regs.running with
      | true => exact absurd event (controlled.start waits running)
      | false => rfl
  | delta => exact absurd event controlled.timed
  | timed due => exact Or.inl ⟨due, rfl, controlled.event due event⟩

/-- A write of a register. -/
def writeReg (i : Nat) (word : UInt32) : Access where
  trans :=
    { command := .write
      address := UInt64.ofNat (4 * i)
      data := wordByte word
      dataLength := 4
      byteEnable := fun _ => 0
      byteEnableLength := 0
      streamingWidth := 4
      dmiAllowed := false
      responseStatus := .incomplete }
  byt := false
  delay := 0
  buffer := fun _ => 0

/-- A target that answers everything. -/
def idleBus : Bus Unit := fun target trans =>
  (target, { trans with responseStatus := .ok })

theorem waiting_settled_started :
    ∃ due, ((reset () fun _ => 0).bTransport idleBus (writeReg 3 ctrlRun)).1.evDmaCopy =
      .timed due := by
  have reachable : Reachable idleBus ((reset () fun _ => 0).bTransport idleBus
      (writeReg 3 ctrlRun)).1 :=
    .call (.reset () fun _ => 0) (writeReg 3 ctrlRun)
  rcases reachable.waiting_settled rfl with ⟨due, pending, -⟩ | ⟨settled, -⟩
  · exact ⟨due, pending⟩
  · exact absurd settled (by decide)

end Demodma

end SystemcTlm.Dma
