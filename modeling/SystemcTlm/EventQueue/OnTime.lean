import Mathlib.Algebra.Order.Group.Multiset
import Mathlib.Tactic.Abel
import SystemcTlm.EventQueue.PeqWithCb

/-!
# Delivery on time

Every payload is delivered at the stamp at which it is due, and the simulation does
not pass that stamp before.  What has been notified is what has been delivered,
what has been cancelled and what waits.
-/

namespace SystemcTlm.EventQueue

open SystemcTlm.Container SystemcTlm.Simulation SystemcTlm.Transition

universe u v

namespace Kernel

variable {σ : Type v} {α : Type u} {kernel after : Kernel σ α} {awake : Prop}
  {given : Multiset (Note α)}

/-- What is due in this delta cycle. -/
def current (kernel : Kernel σ α) : List (Note α) :=
  if kernel.deltaCount % 2 = 1 then kernel.queue.unevenDelta else kernel.queue.evenDelta

/-- What is due in the next delta cycle. -/
def coming (kernel : Kernel σ α) : List (Note α) :=
  if kernel.deltaCount % 2 = 1 then kernel.queue.evenDelta else kernel.queue.unevenDelta

/-- The elements of `m_ppq` that are due now. -/
def expired (kernel : Kernel σ α) : List (Nat × Note α) :=
  kernel.queue.ppq.filter fun element => element.1 = kernel.time

/-- What is due now is seen to while `awake`, what is due later makes the event
occur.  The notes in `given` have been delivered and not yet removed. -/
structure Keeps (awake : Prop) (given : Multiset (Note α)) (kernel : Kernel σ α) : Prop where
  sorted : kernel.queue.ppq.Pairwise fun first second => first.1 ≤ second.1
  due_eq : ∀ element ∈ kernel.queue.ppq, element.2.due = toLex (element.1, 0)
  later : ∀ element ∈ kernel.queue.ppq,
    kernel.time < element.1 ∨ element.2.due = kernel.now ∧ awake
  current : ∀ note ∈ kernel.current, note.due = kernel.now ∧ awake
  coming : ∀ note ∈ kernel.coming, note.due = kernel.now.after 0
  immediate : ∀ note ∈ kernel.queue.immediateYield, note.due = kernel.now ∧ awake
  timed : ∀ element ∈ kernel.queue.ppq, awake ∨ kernel.queue.event.Covers element.1
  delta : kernel.coming ≠ [] → awake ∨ kernel.queue.event = .delta
  pending : ∀ time, kernel.queue.event = .timed time → kernel.time < time
  owes : (kernel.notified : Multiset (Note α)) + given =
    kernel.delivered.map Prod.fst + kernel.cancelled + kernel.queue.waiting
  on_time : ∀ delivery ∈ kernel.delivered, delivery.2 = delivery.1.due

/-- What a callback leaves as it is. -/
structure Frame (kernel after : Kernel σ α) : Prop where
  now_eq : after.now = kernel.now
  deltaCount_eq : after.deltaCount = kernel.deltaCount
  current_eq : after.current = kernel.current
  immediate_eq : after.queue.immediateYield = kernel.queue.immediateYield
  expired_eq : after.expired = kernel.expired
  /-- The event stays notified for the next delta cycle. -/
  delta : (kernel.coming ≠ [] → kernel.queue.event = .delta) →
    after.coming ≠ [] → after.queue.event = .delta

theorem Frame.refl (kernel : Kernel σ α) : Frame kernel kernel :=
  ⟨rfl, rfl, rfl, rfl, rfl, fun armed => armed⟩

theorem Frame.trans {last : Kernel σ α} (first : Frame kernel after) (second : Frame after last) :
    Frame kernel last where
  now_eq := second.now_eq.trans first.now_eq
  deltaCount_eq := second.deltaCount_eq.trans first.deltaCount_eq
  current_eq := second.current_eq.trans first.current_eq
  immediate_eq := second.immediate_eq.trans first.immediate_eq
  expired_eq := second.expired_eq.trans first.expired_eq
  delta := fun armed => second.delta (first.delta armed)

/-! ## Notifications -/

section Notify

variable (payload : α) (delay : Nat) (kernel : Kernel σ α)

theorem notify_zero_uneven (uneven : kernel.deltaCount % 2 = 1) :
    kernel.notify payload 0 =
      { kernel with
        queue.evenDelta := kernel.queue.evenDelta ++ [⟨payload, kernel.now.after 0⟩]
        queue.event := .delta
        notified := kernel.notified ++ [⟨payload, kernel.now.after 0⟩] } := by
  rw [notify, PeqWithCb.notify, if_pos rfl, if_pos uneven]
  rfl

theorem notify_zero_even (even : ¬ kernel.deltaCount % 2 = 1) :
    kernel.notify payload 0 =
      { kernel with
        queue.unevenDelta := kernel.queue.unevenDelta ++ [⟨payload, kernel.now.after 0⟩]
        queue.event := .delta
        notified := kernel.notified ++ [⟨payload, kernel.now.after 0⟩] } := by
  rw [notify, PeqWithCb.notify, if_pos rfl, if_neg even]
  rfl

theorem notify_timed (later : delay ≠ 0) :
    kernel.notify payload delay =
      { kernel with
        queue.ppq := insertLast Prod.fst
          (delay + kernel.time, ⟨payload, kernel.now.after delay⟩) kernel.queue.ppq
        queue.event := kernel.queue.event.notifyTimed (kernel.time + delay)
        notified := kernel.notified ++ [⟨payload, kernel.now.after delay⟩] } := by
  rw [notify, PeqWithCb.notify, if_neg later]

end Notify

theorem after_eq {now : Stamp} {delay : Nat} (later : delay ≠ 0) :
    now.after delay = toLex (delay + (ofLex now).1, 0) := by
  rw [Stamp.after, if_neg later, Nat.add_comm]

theorem coe_waiting (queue : PeqWithCb (Note α)) :
    (queue.waiting : Multiset (Note α)) =
      queue.ppq.map Prod.snd + queue.unevenDelta + queue.evenDelta + queue.immediateYield := by
  rw [PeqWithCb.waiting, ← Multiset.coe_add, ← Multiset.coe_add, ← Multiset.coe_add, add_assoc,
    add_assoc]

theorem mem_coming_notify {payload : α} {note : Note α} :
    note ∈ (kernel.notify payload 0).coming ↔
      note ∈ kernel.coming ∨ note = ⟨payload, kernel.now.after 0⟩ := by
  by_cases uneven : kernel.deltaCount % 2 = 1
  · rw [notify_zero_uneven _ _ uneven, Kernel.coming, Kernel.coming, if_pos uneven,
      if_pos uneven, List.mem_append, List.mem_singleton]
  · rw [notify_zero_even _ _ uneven, Kernel.coming, Kernel.coming, if_neg uneven,
      if_neg uneven, List.mem_append, List.mem_singleton]

/-- A notification for the next delta cycle. -/
theorem frame_notify_zero (payload : α) : Frame kernel (kernel.notify payload 0) ∧
    (kernel.notify payload 0).queue.ppq = kernel.queue.ppq ∧
    (kernel.notify payload 0).queue.event = .delta := by
  by_cases uneven : kernel.deltaCount % 2 = 1
  · rw [notify_zero_uneven _ _ uneven]
    refine ⟨⟨rfl, rfl, ?_, rfl, rfl, fun _ _ => rfl⟩, rfl, rfl⟩
    rw [Kernel.current, Kernel.current, if_pos uneven, if_pos uneven]
  · rw [notify_zero_even _ _ uneven]
    refine ⟨⟨rfl, rfl, ?_, rfl, rfl, fun _ _ => rfl⟩, rfl, rfl⟩
    rw [Kernel.current, Kernel.current, if_neg uneven, if_neg uneven]

/-- The waiting payloads after a notification. -/
theorem coe_waiting_notify (payload : α) (delay : Nat) (kernel : Kernel σ α) :
    ((kernel.notify payload delay).queue.waiting : Multiset (Note α)) =
      kernel.queue.waiting + {⟨payload, kernel.now.after delay⟩} := by
  by_cases zero : delay = 0
  · subst zero
    by_cases uneven : kernel.deltaCount % 2 = 1
    · rw [notify_zero_uneven _ _ uneven, coe_waiting, coe_waiting]
      dsimp only
      rw [← Multiset.coe_add, Multiset.coe_singleton]
      abel
    · rw [notify_zero_even _ _ uneven, coe_waiting, coe_waiting]
      dsimp only
      rw [← Multiset.coe_add, Multiset.coe_singleton]
      abel
  · rw [notify_timed _ _ _ zero, coe_waiting, coe_waiting]
    have inserted : (insertLast Prod.fst (delay + kernel.time,
        (⟨payload, kernel.now.after delay⟩ : Note α)) kernel.queue.ppq).Perm
          (_ :: kernel.queue.ppq) := insertLast_perm _ _
    dsimp only
    rw [Multiset.coe_eq_coe.mpr (inserted.map Prod.snd), List.map_cons, ← Multiset.cons_coe, ← Multiset.singleton_add]
    abel

theorem notify_notified (payload : α) (delay : Nat) (kernel : Kernel σ α) :
    (kernel.notify payload delay).notified =
      kernel.notified ++ [⟨payload, kernel.now.after delay⟩] :=
  rfl

theorem notify_delivered (payload : α) (delay : Nat) (kernel : Kernel σ α) :
    (kernel.notify payload delay).delivered = kernel.delivered :=
  rfl

theorem frame_notify (keeps : Keeps awake given kernel) (payload : α) (delay : Nat) :
    Frame kernel (kernel.notify payload delay) := by
  by_cases zero : delay = 0
  · subst zero
    exact (frame_notify_zero payload).1
  · rw [notify_timed _ _ _ zero]
    refine ⟨rfl, rfl, rfl, rfl, ?_, fun armed waits =>
      Pending.notifyTimed_eq_delta (armed waits) _⟩
    have apart : ¬ delay + kernel.time = kernel.time := by omega
    change (insertLast Prod.fst _ kernel.queue.ppq).filter
      (fun element => element.1 = kernel.time) = _
    rw [filter_insertLast _ keeps.sorted, List.filter_append,
      List.filter_cons_of_neg (by simpa using apart), List.filter_nil, List.append_nil]
    rfl

theorem Keeps.notify (keeps : Keeps awake given kernel) (payload : α) (delay : Nat) :
    Keeps awake given (kernel.notify payload delay) := by
  have owes : ((kernel.notify payload delay).notified : Multiset (Note α)) + given =
      (kernel.notify payload delay).delivered.map Prod.fst +
        (kernel.notify payload delay).cancelled + (kernel.notify payload delay).queue.waiting := by
    have before := keeps.owes
    rw [coe_waiting_notify, notify_notified, notify_delivered, ← Multiset.coe_add,
      Multiset.coe_singleton, add_right_comm, before]
    exact add_assoc _ _ _
  by_cases zero : delay = 0
  · subst zero
    rcases @frame_notify_zero _ _ kernel payload with ⟨frame, ppq, event⟩
    constructor
    · rw [ppq]
      exact keeps.sorted
    · rw [ppq]
      exact keeps.due_eq
    · rw [ppq]
      exact keeps.later
    · rw [frame.current_eq]
      exact keeps.current
    · intro note member
      rcases mem_coming_notify.mp member with old | rfl
      · exact keeps.coming note old
      · rfl
    · rw [frame.immediate_eq]
      exact keeps.immediate
    · intro element _
      rw [event]
      exact Or.inr trivial
    · exact fun _ => Or.inr event
    · rw [event]
      exact nofun
    · exact owes
    · exact keeps.on_time
  · rw [notify_timed _ _ _ zero] at owes ⊢
    constructor
    · exact insertLast_sorted _ keeps.sorted
    · intro element member
      rcases mem_insertLast.mp member with rfl | old
      · exact after_eq zero
      · exact keeps.due_eq element old
    · intro element member
      rcases mem_insertLast.mp member with rfl | old
      · left
        change kernel.time < delay + kernel.time
        omega
      · exact keeps.later element old
    · exact keeps.current
    · exact keeps.coming
    · exact keeps.immediate
    · intro element member
      rcases mem_insertLast.mp member with rfl | old
      · right
        change (kernel.queue.event.notifyTimed (kernel.time + delay)).Covers (delay + kernel.time)
        rw [Nat.add_comm]
        exact Pending.covers_notifyTimed _ _
      · exact (keeps.timed element old).imp_right fun covers => covers.notifyTimed _
    · intro waits
      exact (keeps.delta waits).imp_right fun delta => Pending.notifyTimed_eq_delta delta _
    · exact Pending.notifyTimed_later keeps.pending
        (Nat.lt_add_of_pos_right (Nat.pos_of_ne_zero zero))
    · exact owes
    · exact keeps.on_time

/-! ## Callbacks -/

variable (cb : Callback σ α)

/-- The notifications that a callback makes. -/
theorem Keeps.notifyAll (requests : List (α × Nat)) (keeps : Keeps awake given kernel) :
    Keeps awake given (requests.foldl (fun k request => k.notify request.1 request.2) kernel) ∧
      Frame kernel (requests.foldl (fun k request => k.notify request.1 request.2) kernel) := by
  induction requests generalizing kernel with
  | nil => exact ⟨keeps, Frame.refl kernel⟩
  | cons request rest ih =>
      rcases ih (keeps.notify request.1 request.2) with ⟨after, frame⟩
      exact ⟨after, (frame_notify keeps request.1 request.2).trans frame⟩

/-- A payload is delivered, but not yet removed. -/
theorem Keeps.callBack (keeps : Keeps awake given kernel) {note : Note α}
    (due : note.due = kernel.now) :
    Keeps awake (given + {note}) (kernel.callBack cb note) ∧
      Frame kernel (kernel.callBack cb note) := by
  let called : Kernel σ α :=
    { kernel with
      owner := (cb note.payload kernel.owner).1
      delivered := kernel.delivered ++ [(note, kernel.now)] }
  have delivered : Keeps awake (given + {note}) called := by
    refine { keeps with owes := ?_, on_time := ?_ }
    · dsimp only [called]
      rw [List.map_append, ← Multiset.coe_add, ← add_assoc, keeps.owes]
      change _ = ((kernel.delivered.map Prod.fst : Multiset (Note α)) + {note}) +
        kernel.cancelled + kernel.queue.waiting
      abel
    · intro delivery member
      rcases List.mem_append.mp member with old | new
      · exact keeps.on_time delivery old
      · rw [List.mem_singleton.mp new]
        exact due.symm
  rcases delivered.notifyAll (cb note.payload kernel.owner).2 with ⟨after, frame⟩
  exact ⟨after, frame.now_eq, frame.deltaCount_eq, frame.current_eq, frame.immediate_eq,
    frame.expired_eq, frame.delta⟩

theorem Keeps.callBackAll (notes : List (Note α)) (keeps : Keeps awake given kernel)
    (due : ∀ note ∈ notes, note.due = kernel.now) :
    Keeps awake (given + (notes : Multiset (Note α))) (kernel.callBackAll cb notes) ∧
      Frame kernel (kernel.callBackAll cb notes) := by
  induction notes generalizing kernel given with
  | nil =>
      rw [Multiset.coe_nil, add_zero]
      exact ⟨keeps, Frame.refl kernel⟩
  | cons note rest ih =>
      rcases keeps.callBack cb (due note List.mem_cons_self) with ⟨called, first⟩
      rcases ih called fun other member => by
          rw [first.now_eq]
          exact due other (List.mem_cons_of_mem _ member) with ⟨after, second⟩
      refine ⟨?_, first.trans second⟩
      rw [add_assoc, Multiset.singleton_add, Multiset.cons_coe] at after
      exact after

/-! ## The process -/

/-- The immediate notifications. -/
theorem Keeps.fecImmediate (keeps : Keeps True 0 kernel) :
    Keeps True 0 (kernel.fecImmediate cb) ∧ (kernel.fecImmediate cb).now = kernel.now ∧
      (kernel.fecImmediate cb).queue.immediateYield = [] := by
  rcases keeps.callBackAll cb kernel.queue.immediateYield
    (fun note member => (keeps.immediate note member).1) with ⟨called, frame⟩
  refine ⟨?_, frame.now_eq, rfl⟩
  refine { called with immediate := fun _ absent => absurd absent List.not_mem_nil, owes := ?_ }
  have owes := called.owes
  rw [coe_waiting, frame.immediate_eq, zero_add, ← add_assoc] at owes
  rw [Kernel.fecImmediate]
  dsimp only
  rw [coe_waiting, add_zero, Multiset.coe_nil, add_zero]
  exact add_right_cancel owes

/-- `reset` of the `delta_list` of this delta cycle. -/
def dropCurrent (kernel : Kernel σ α) : Kernel σ α :=
  if kernel.deltaCount % 2 = 1 then { kernel with queue.unevenDelta := [] }
  else { kernel with queue.evenDelta := [] }

theorem fecDelta_eq (same : (kernel.callBackAll cb kernel.current).deltaCount = kernel.deltaCount) :
    kernel.fecDelta cb =
      let called := (kernel.callBackAll cb kernel.current).dropCurrent
      if called.coming.isEmpty then called
      else { called with queue.event := called.queue.event.notifyDelta } := by
  by_cases uneven : kernel.deltaCount % 2 = 1
  · rw [Kernel.current, if_pos uneven] at same ⊢
    rw [fecDelta, if_pos uneven, dropCurrent, same, if_pos uneven]
    dsimp only
    rw [Kernel.coming, same, if_pos uneven]
  · rw [Kernel.current, if_neg uneven] at same ⊢
    rw [fecDelta, if_neg uneven, dropCurrent, same, if_neg uneven]
    dsimp only
    rw [Kernel.coming, same, if_neg uneven]

/-- What has been delivered in this delta cycle is removed. -/
theorem Keeps.dropCurrent (keeps : Keeps awake kernel.current kernel) :
    Keeps awake 0 kernel.dropCurrent ∧ kernel.dropCurrent.now = kernel.now ∧
      kernel.dropCurrent.queue.immediateYield = kernel.queue.immediateYield ∧
      kernel.dropCurrent.current = [] := by
  have owes := keeps.owes
  have coming := keeps.coming
  have delta := keeps.delta
  by_cases uneven : kernel.deltaCount % 2 = 1
  · rw [Kernel.current, if_pos uneven, coe_waiting] at owes
    rw [Kernel.coming, if_pos uneven] at coming delta
    rw [Kernel.dropCurrent, if_pos uneven]
    have empty : ({ kernel with queue.unevenDelta := [] } : Kernel σ α).current = [] := by
      rw [Kernel.current, if_pos uneven]
    refine ⟨{ keeps with current := ?_, coming := ?_, delta := ?_, owes := ?_ }, rfl, rfl, empty⟩
    · rw [empty]
      exact fun _ absent => absurd absent List.not_mem_nil
    · rw [Kernel.coming, if_pos uneven]
      exact coming
    · rw [Kernel.coming, if_pos uneven]
      exact delta
    · rw [coe_waiting, add_zero]
      dsimp only
      rw [Multiset.coe_nil, add_zero]
      apply add_right_cancel (b := (kernel.queue.unevenDelta : Multiset (Note α)))
      rw [owes]
      abel
  · rw [Kernel.current, if_neg uneven, coe_waiting] at owes
    rw [Kernel.coming, if_neg uneven] at coming delta
    rw [Kernel.dropCurrent, if_neg uneven]
    have empty : ({ kernel with queue.evenDelta := [] } : Kernel σ α).current = [] := by
      rw [Kernel.current, if_neg uneven]
    refine ⟨{ keeps with current := ?_, coming := ?_, delta := ?_, owes := ?_ }, rfl, rfl, empty⟩
    · rw [empty]
      exact fun _ absent => absurd absent List.not_mem_nil
    · rw [Kernel.coming, if_neg uneven]
      exact coming
    · rw [Kernel.coming, if_neg uneven]
      exact delta
    · rw [coe_waiting, add_zero]
      dsimp only
      rw [Multiset.coe_nil, add_zero]
      apply add_right_cancel (b := (kernel.queue.evenDelta : Multiset (Note α)))
      rw [owes]
      abel

/-- The notifications for this delta cycle. -/
theorem Keeps.fecDelta (keeps : Keeps True 0 kernel)
    (immediate : kernel.queue.immediateYield = []) :
    Keeps True 0 (kernel.fecDelta cb) ∧ (kernel.fecDelta cb).now = kernel.now ∧
      (kernel.fecDelta cb).queue.immediateYield = [] ∧ (kernel.fecDelta cb).current = [] ∧
      ((kernel.fecDelta cb).coming ≠ [] → (kernel.fecDelta cb).queue.event = .delta) := by
  rcases keeps.callBackAll cb kernel.current
    (fun note member => (keeps.current note member).1) with ⟨called, frame⟩
  rw [zero_add] at called
  rw [fecDelta_eq cb frame.deltaCount_eq]
  generalize kernel.callBackAll cb kernel.current = after at called frame
  rw [← frame.current_eq] at called
  rcases called.dropCurrent with ⟨dropped, now, yields, empty⟩
  rw [frame.now_eq] at now
  rw [frame.immediate_eq, immediate] at yields
  dsimp only
  by_cases dry : after.dropCurrent.coming.isEmpty = true
  · rw [if_pos dry]
    exact ⟨dropped, now, yields, empty, fun waits => absurd (List.isEmpty_iff.mp dry) waits⟩
  · rw [if_neg dry]
    refine ⟨?_, now, yields, empty, fun _ => rfl⟩
    exact { dropped with
      timed := fun _ _ => Or.inl trivial
      delta := fun _ => Or.inr rfl
      pending := nofun }

/-- The elements that are due come first. -/
theorem Keeps.expired_cons (keeps : Keeps awake given kernel) {element : Nat × Note α}
    {more : List (Nat × Note α)} (expired : kernel.expired = element :: more) :
    kernel.queue.ppq = element :: kernel.queue.ppq.tail ∧
      kernel.queue.ppq.tail.filter (fun other => other.1 = kernel.time) = more := by
  have sorted := keeps.sorted
  have later := keeps.later
  have due := keeps.due_eq
  rw [Kernel.expired] at expired
  cases elements : kernel.queue.ppq with
  | nil =>
      rw [elements] at expired
      cases expired
  | cons first rest =>
      rw [elements] at expired sorted later due
      by_cases here : first.1 = kernel.time
      · rw [List.filter_cons_of_pos (by simpa using here)] at expired
        rcases List.cons.inj expired with ⟨rfl, same⟩
        exact ⟨rfl, same⟩
      · have unexpired : (first :: rest).filter (fun other => other.1 = kernel.time) = [] := by
          rw [List.filter_eq_nil_iff]
          intro other member
          have least : first.1 ≤ other.1 := by
            rcases List.mem_cons.mp member with rfl | inRest
            · exact le_rfl
            · exact List.rel_of_pairwise_cons sorted inRest
          have greater : kernel.time < first.1 := by
            rcases later first List.mem_cons_self with less | ⟨now, -⟩
            · exact less
            · rw [due first List.mem_cons_self] at now
              exact absurd (congrArg (fun stamp => (ofLex stamp).1) now) here
          simpa using (greater.trans_le least).ne'
        rw [unexpired] at expired
        cases expired

/-- The first element has been delivered and is removed. -/
theorem Keeps.dropTop (element : Nat × Note α)
    (keeps : Keeps awake (given + {element.2}) kernel)
    (top : kernel.queue.ppq = element :: kernel.queue.ppq.tail) :
    Keeps awake given { kernel with queue.ppq := kernel.queue.ppq.tail } := by
  have within : ∀ other ∈ kernel.queue.ppq.tail, other ∈ kernel.queue.ppq :=
    fun _ member => List.mem_of_mem_tail member
  refine { keeps with
    sorted := ?_
    due_eq := fun other member => keeps.due_eq other (within other member)
    later := fun other member => keeps.later other (within other member)
    timed := fun other member => keeps.timed other (within other member)
    owes := ?_ }
  · have sorted := keeps.sorted
    rw [top] at sorted
    exact sorted.tail
  · have owes := keeps.owes
    rw [coe_waiting, top, List.map_cons, ← Multiset.cons_coe, ← Multiset.singleton_add] at owes
    rw [coe_waiting]
    dsimp only
    apply add_right_cancel (b := ({element.2} : Multiset (Note α)))
    rw [add_assoc, owes]
    abel

/-- The loop over `m_ppq`. -/
theorem Keeps.fecTimed {rounds : Nat} (keeps : Keeps True 0 kernel)
    (enough : kernel.expired.length ≤ rounds) :
    Keeps True 0 (kernel.fecTimed cb rounds) ∧ (kernel.fecTimed cb rounds).now = kernel.now ∧
      (kernel.fecTimed cb rounds).current = kernel.current ∧
      (kernel.fecTimed cb rounds).queue.immediateYield = kernel.queue.immediateYield ∧
      (kernel.fecTimed cb rounds).expired = [] ∧
      ((kernel.coming ≠ [] → kernel.queue.event = .delta) →
        (kernel.fecTimed cb rounds).coming ≠ [] →
          (kernel.fecTimed cb rounds).queue.event = .delta) := by
  induction rounds generalizing kernel with
  | zero =>
      exact ⟨keeps, rfl, rfl, rfl, List.eq_nil_of_length_eq_zero (Nat.le_zero.mp enough),
        fun armed => armed⟩
  | succ rounds ih =>
      cases expired : kernel.expired with
      | nil =>
          have same : kernel.fecTimed cb (rounds + 1) = kernel := by
            rw [Kernel.fecTimed]
            rw [Kernel.expired] at expired
            cases elements : kernel.queue.ppq with
            | nil => rfl
            | cons first rest =>
                rw [elements, List.filter_eq_nil_iff] at expired
                have apart := expired first List.mem_cons_self
                exact if_neg (by simpa using apart)
          rw [same]
          exact ⟨keeps, rfl, rfl, rfl, expired, fun armed => armed⟩
      | cons element more =>
          rcases keeps.expired_cons expired with ⟨top, -⟩
          have here : element.1 = kernel.time := by
            have member : element ∈ kernel.expired := by simp [expired]
            simpa using (List.mem_filter.mp member).2
          have due : element.2.due = kernel.now := by
            have member : element ∈ kernel.queue.ppq := by rw [top]; exact List.mem_cons_self
            rcases keeps.later element member with less | ⟨now, -⟩
            · exact absurd here less.ne'
            · exact now
          rcases keeps.callBack cb due with ⟨called, frame⟩
          rw [← frame.expired_eq] at expired
          rcases called.expired_cons expired with ⟨front, rest⟩
          have dropped := called.dropTop element front
          have fewer : more.length ≤ rounds := by
            rw [← frame.expired_eq, expired] at enough
            exact Nat.le_of_succ_le_succ enough
          have next : kernel.fecTimed cb (rounds + 1) =
              Kernel.fecTimed cb rounds { kernel.callBack cb element.2 with
                queue.ppq := (kernel.callBack cb element.2).queue.ppq.tail } := by
            rw [Kernel.fecTimed, top]
            exact if_pos here
          rw [next]
          rcases ih dropped ((congrArg List.length rest).le.trans fewer) with
            ⟨after, now, current, immediate, none, armed⟩
          exact ⟨after, now.trans frame.now_eq, current.trans frame.current_eq,
            immediate.trans frame.immediate_eq, none, fun before => armed (frame.delta before)⟩

/-- After `fec`, nothing that is due now waits, and the event is notified for what
waits. -/
theorem Keeps.fec (keeps : Keeps True 0 kernel) :
    Keeps False 0 (kernel.fec cb) ∧ (kernel.fec cb).now = kernel.now := by
  rcases keeps.fecImmediate cb with ⟨first, firstNow, noImmediate⟩
  rcases first.fecDelta cb noImmediate with ⟨second, secondNow, none, empty, armed⟩
  rw [Kernel.fec]
  dsimp only
  generalize (kernel.fecImmediate cb).fecDelta cb = middle at second secondNow none empty armed
  have passed : ∀ last : Kernel σ α, Keeps True 0 last → last.expired = [] →
      ∀ element ∈ last.queue.ppq, last.time < element.1 := by
    intro last keeps expired element member
    rcases keeps.later element member with less | ⟨now, -⟩
    · exact less
    · have apart := List.filter_eq_nil_iff.mp expired element member
      rw [keeps.due_eq element member] at now
      exact absurd (decide_eq_true (congrArg (fun stamp => (ofLex stamp).1) now)) apart
  have settled : ∀ last : Kernel σ α, Keeps True 0 last → last.current = [] →
      last.queue.immediateYield = [] → last.expired = [] →
      (last.coming ≠ [] → last.queue.event = .delta) →
      (∀ element ∈ last.queue.ppq, last.queue.event.Covers element.1) → Keeps False 0 last := by
    intro last keeps current immediate expired armed covers
    refine { keeps with
      later := fun element member => Or.inl (passed last keeps expired element member)
      current := ?_
      immediate := ?_
      timed := fun element member => Or.inr (covers element member)
      delta := fun waits => Or.inr (armed waits) }
    · rw [current]
      exact fun _ absent => absurd absent List.not_mem_nil
    · rw [immediate]
      exact fun _ absent => absurd absent List.not_mem_nil
  by_cases no : middle.queue.ppq.isEmpty = true
  · rw [if_pos no]
    have elements := List.isEmpty_iff.mp no
    refine ⟨settled middle second empty none ?_ armed ?_, secondNow.trans firstNow⟩
    · rw [expired, elements]
      rfl
    · rw [elements]
      exact fun _ absent => absurd absent List.not_mem_nil
  · rw [if_neg no]
    have enough : middle.expired.length ≤ middle.queue.ppq.length := List.length_filter_le _ _
    rcases second.fecTimed cb enough with
      ⟨third, thirdNow, current, immediate, spent, rearmed⟩
    generalize middle.fecTimed cb middle.queue.ppq.length = last at *
    have now := thirdNow.trans (secondNow.trans firstNow)
    have still := rearmed armed
    split
    · rename_i elements
      refine ⟨settled last third (current.trans empty) (immediate.trans none) spent still ?_, now⟩
      rw [elements]
      exact fun _ absent => absurd absent List.not_mem_nil
    · rename_i top note rest elements
      have renotified : Keeps True 0 { last with
          queue.event := last.queue.event.notifyTimed top } := by
        refine { third with
          timed := fun _ _ => Or.inl trivial
          delta := fun _ => Or.inl trivial
          pending := Pending.notifyTimed_later third.pending ?_ }
        exact passed last third spent (top, note) (by rw [elements]; exact List.mem_cons_self)
      refine ⟨settled _ renotified (current.trans empty) (immediate.trans none) spent
        (fun waits => Pending.notifyTimed_eq_delta (still waits) _) ?_, now⟩
      intro element member
      have sorted := third.sorted
      change element ∈ last.queue.ppq at member
      rw [elements] at sorted member
      have least : top ≤ element.1 := by
        rcases List.mem_cons.mp member with rfl | inRest
        · exact le_rfl
        · exact List.rel_of_pairwise_cons sorted inRest
      exact (Pending.covers_notifyTimed last.queue.event top).mono least

/-! ## Runs -/

variable {cb}

theorem Keeps.mono {more : Prop} (keeps : Keeps awake given kernel) (imp : awake → more) :
    Keeps more given kernel :=
  { keeps with
    later := fun element member =>
      (keeps.later element member).imp_right fun both => ⟨both.1, imp both.2⟩
    current := fun note member => ⟨(keeps.current note member).1, imp (keeps.current note member).2⟩
    immediate := fun note member =>
      ⟨(keeps.immediate note member).1, imp (keeps.immediate note member).2⟩
    timed := fun element member => (keeps.timed element member).imp_left imp
    delta := fun waits => (keeps.delta waits).imp_left imp }

theorem Keeps.notifyImmediate (keeps : Keeps awake 0 kernel) (payload : α) :
    Keeps True 0 (kernel.notifyImmediate payload) := by
  have woken := keeps.mono fun _ => trivial
  refine { woken with
    immediate := ?_
    timed := fun _ _ => Or.inl trivial
    delta := fun _ => Or.inl trivial
    pending := nofun
    owes := ?_ }
  · intro note member
    rcases List.mem_append.mp member with old | new
    · exact woken.immediate note old
    · rw [List.mem_singleton.mp new]
      exact ⟨rfl, trivial⟩
  · have owes := woken.owes
    rw [coe_waiting] at owes
    rw [Kernel.notifyImmediate, PeqWithCb.notifyImmediate, coe_waiting]
    dsimp only
    rw [← Multiset.coe_add, ← Multiset.coe_add, add_right_comm, owes]
    abel

theorem Keeps.cancelAll (keeps : Keeps awake 0 kernel) : Keeps awake 0 kernel.cancelAll := by
  have empty : kernel.cancelAll.queue = .empty := rfl
  have noCurrent : kernel.cancelAll.current = [] := by
    rw [Kernel.current, empty]
    exact ite_self _
  have noComing : kernel.cancelAll.coming = [] := by
    rw [Kernel.coming, empty]
    exact ite_self _
  constructor
  · exact List.Pairwise.nil
  · exact fun _ absent => absurd absent List.not_mem_nil
  · exact fun _ absent => absurd absent List.not_mem_nil
  · rw [noCurrent]
    exact fun _ absent => absurd absent List.not_mem_nil
  · rw [noComing]
    exact fun _ absent => absurd absent List.not_mem_nil
  · exact fun _ absent => absurd absent List.not_mem_nil
  · exact fun _ absent => absurd absent List.not_mem_nil
  · exact fun waits => absurd noComing waits
  · exact nofun
  · rw [Kernel.cancelAll]
    dsimp only
    rw [keeps.owes, ← Multiset.coe_add, ← add_assoc]
    exact (add_zero _).symm
  · exact keeps.on_time

/-- What an idle kernel knows of the queue. -/
theorem Keeps.idle (keeps : Keeps False 0 kernel) :
    kernel.current = [] ∧ kernel.queue.immediateYield = [] ∧
      (∀ element ∈ kernel.queue.ppq,
        kernel.time < element.1 ∧ kernel.queue.event.Covers element.1) ∧
      (kernel.coming ≠ [] → kernel.queue.event = .delta) := by
  refine ⟨?_, ?_, fun element member => ⟨?_, ?_⟩, fun waits => ?_⟩
  · exact List.eq_nil_iff_forall_not_mem.mpr fun note member => (keeps.current note member).2
  · exact List.eq_nil_iff_forall_not_mem.mpr fun note member => (keeps.immediate note member).2
  · exact (keeps.later element member).resolve_right fun both => both.2
  · exact (keeps.timed element member).resolve_left fun never => never
  · exact (keeps.delta waits).resolve_left fun never => never

/-- The kernel goes on to another evaluation phase, in which the lists of the delta
cycles change places. -/
theorem Keeps.goOn (keeps : Keeps False 0 kernel) (stamp : Stamp) (event : Pending)
    (woken : Bool)
    (later : ∀ element ∈ kernel.queue.ppq,
      (ofLex stamp).1 < element.1 ∨ element.2.due = stamp ∧ woken = true)
    (coming : ∀ note ∈ kernel.coming, note.due = stamp ∧ woken = true)
    (timed : ∀ element ∈ kernel.queue.ppq, woken = true ∨ event.Covers element.1)
    (pending : ∀ time, event = .timed time → (ofLex stamp).1 < time) :
    Keeps (woken = true) 0 { kernel with
      now := stamp
      deltaCount := kernel.deltaCount + 1
      runnable := woken
      queue.event := event } := by
  let next : Kernel σ α := { kernel with
    now := stamp
    deltaCount := kernel.deltaCount + 1
    runnable := woken
    queue.event := event }
  have swap : next.current = kernel.coming ∧ next.coming = kernel.current := by
    dsimp only [next, Kernel.current, Kernel.coming]
    by_cases uneven : kernel.deltaCount % 2 = 1
    · have even : ¬ (kernel.deltaCount + 1) % 2 = 1 := by omega
      rw [if_pos uneven, if_pos uneven, if_neg even, if_neg even]
      exact ⟨rfl, rfl⟩
    · have uneven' : (kernel.deltaCount + 1) % 2 = 1 := by omega
      rw [if_neg uneven, if_neg uneven, if_pos uneven', if_pos uneven']
      exact ⟨rfl, rfl⟩
  have noCurrent := keeps.idle.1
  refine { keeps with
    later := later
    current := ?_
    coming := ?_
    immediate := fun note member => absurd (keeps.immediate note member).2 fun never => never
    timed := timed
    delta := fun waits => absurd (swap.2.trans noCurrent) waits
    pending := pending }
  · change ∀ note ∈ next.current, _
    rw [swap.1]
    exact coming
  · change ∀ note ∈ next.coming, _
    rw [swap.2, noCurrent]
    exact fun _ absent => absurd absent List.not_mem_nil

/-- The next delta cycle. -/
theorem Keeps.delta_call (keeps : Keeps False 0 kernel)
    (called : Kernel.call cb .delta kernel = some after) (idle : kernel.runnable = false) :
    Keeps (after.runnable = true) 0 after := by
  rcases keeps.idle with ⟨-, -, timed, coming⟩
  rw [Kernel.call, idle] at called
  dsimp only at called
  rw [if_neg Bool.false_ne_true] at called
  have now : (ofLex (kernel.now.after 0)).1 = kernel.time := by
    rw [Stamp.after, if_pos rfl]
    rfl
  have later : ∀ element ∈ kernel.queue.ppq, (ofLex (kernel.now.after 0)).1 < element.1 := by
    rw [now]
    exact fun element member => (timed element member).1
  by_cases delta : kernel.queue.event = .delta
  · rw [if_pos delta] at called
    cases called
    exact keeps.goOn _ .none true (fun element member => Or.inl (later element member))
      (fun note member => ⟨keeps.coming note member, rfl⟩) (fun _ _ => Or.inl rfl)
      (fun _ same => by cases same)
  · rw [if_neg delta] at called
    cases called
    refine keeps.goOn _ kernel.queue.event false
      (fun element member => Or.inl (later element member)) ?_
      (fun element member => Or.inr (timed element member).2) ?_
    · intro note member
      exact absurd (coming (List.ne_nil_of_mem member)) delta
    · rw [now]
      exact keeps.pending

/-- A later time. -/
theorem Keeps.advance_call (keeps : Keeps False 0 kernel) {time : Nat}
    (called : Kernel.call cb (.advance time) kernel = some after)
    (idle : kernel.runnable = false) : Keeps (after.runnable = true) 0 after := by
  rcases keeps.idle with ⟨-, -, timed, coming⟩
  have noComing : kernel.queue.event ≠ .delta → ∀ stamp woken,
      ∀ note ∈ kernel.coming, note.due = stamp ∧ woken = true := by
    intro apart _ _ note member
    exact absurd (coming (List.ne_nil_of_mem member)) apart
  rw [Kernel.call] at called
  by_cases past : kernel.runnable = true ∨ time ≤ kernel.time
  · rw [if_pos past] at called
    cases called
  rw [if_neg past] at called
  -- the event occurs later, if at all
  have quiet : kernel.queue.event ≠ .delta →
      (∀ due, kernel.queue.event = .timed due → time < due) →
      Keeps (kernel.runnable = true) 0 { kernel with
        now := toLex (time, 0)
        deltaCount := kernel.deltaCount + 1 } := by
    intro apart before
    rw [idle]
    refine keeps.goOn _ kernel.queue.event false (fun element member => Or.inl ?_)
      (noComing apart _ _) (fun element member => Or.inr (timed element member).2) before
    have covers := (timed element member).2
    cases event : kernel.queue.event with
    | none =>
        rw [event] at covers
        exact covers.elim
    | delta => exact absurd event apart
    | timed due =>
        rw [event] at covers
        exact (before due event).trans_le covers
  dsimp only at called
  split at called
  · rename_i event
    cases called
    rw [event] at quiet
    exact quiet nofun nofun
  · cases called
  · rename_i due event
    split_ifs at called with before now
    · cases called
      rw [event] at quiet
      exact quiet nofun fun _ same => (Pending.timed.inj same) ▸ before
    · cases called
      refine keeps.goOn _ .none true (fun element member => ?_)
        (noComing (by rw [event]; exact nofun) _ _) (fun _ _ => Or.inl rfl) nofun
      have covers := (timed element member).2
      rw [event, ← now] at covers
      rcases Nat.lt_or_eq_of_le covers with less | same
      · exact Or.inl less
      · exact Or.inr ⟨by rw [keeps.due_eq element member, ← same], rfl⟩

/-- What holds between the calls. -/
theorem Keeps.call {next : Call σ α} (keeps : Keeps (kernel.runnable = true) 0 kernel)
    (called : Kernel.call cb next kernel = some after) :
    Keeps (after.runnable = true) 0 after := by
  cases next with
  | notify payload delay =>
      cases called
      exact keeps.notify payload delay
  | notifyImmediate payload =>
      cases called
      exact (keeps.notifyImmediate payload).mono fun _ => rfl
  | cancelAll =>
      cases called
      exact keeps.cancelAll
  | change owner =>
      cases called
      exact { keeps with }
  | fec =>
      rw [Kernel.call] at called
      split_ifs at called
      cases called
      have woken : Keeps True 0 { kernel with runnable := false } :=
        { keeps.mono fun _ => trivial with }
      exact (woken.fec cb).1.mono False.elim
  | delta =>
      have idle : kernel.runnable = false := by
        rw [Kernel.call] at called
        split_ifs at called with running
        all_goals exact Bool.eq_false_iff.mpr running
      rw [idle] at keeps
      exact (keeps.mono Bool.false_ne_true).delta_call called idle
  | advance time =>
      have idle : kernel.runnable = false := by
        rw [Kernel.call] at called
        split_ifs at called with running
        exact Bool.eq_false_iff.mpr fun runs => running (Or.inl runs)
      rw [idle] at keeps
      exact (keeps.mono Bool.false_ne_true).advance_call called idle

theorem keeps_start (owner : σ) : Keeps False 0 (start owner : Kernel σ α) := by
  have nothing : ∀ note : Note α, note ∉ (if 0 % 2 = 1 then ([] : List (Note α)) else []) := by
    intro note
    rw [ite_self]
    exact List.not_mem_nil
  exact {
    sorted := List.Pairwise.nil
    due_eq := fun _ absent => absurd absent List.not_mem_nil
    later := fun _ absent => absurd absent List.not_mem_nil
    current := fun note absent => absurd absent (nothing note)
    coming := fun note absent => absurd absent (nothing note)
    immediate := fun _ absent => absurd absent List.not_mem_nil
    timed := fun _ absent => absurd absent List.not_mem_nil
    delta := fun waits => absurd (ite_self _) waits
    pending := nofun
    owes := rfl
    on_time := fun _ absent => absurd absent List.not_mem_nil
  }

theorem mem_waiting (kernel : Kernel σ α) {note : Note α} (waits : note ∈ kernel.queue.waiting) :
    (∃ element ∈ kernel.queue.ppq, element.2 = note) ∨ note ∈ kernel.current ∨
      note ∈ kernel.coming ∨ note ∈ kernel.queue.immediateYield := by
  rw [PeqWithCb.waiting, List.mem_append, List.mem_append, List.mem_append, List.mem_map] at waits
  rw [Kernel.current, Kernel.coming]
  by_cases uneven : kernel.deltaCount % 2 = 1
  · rw [if_pos uneven, if_pos uneven]
    exact waits
  · rw [if_neg uneven, if_neg uneven]
    exact waits.imp_right or_left_comm.mp

/-- What waits is not overdue. -/
theorem Keeps.now_le (keeps : Keeps awake given kernel) {note : Note α}
    (waits : note ∈ kernel.queue.waiting) : kernel.now ≤ note.due := by
  rcases kernel.mem_waiting waits with ⟨element, member, rfl⟩ | here | here | here
  · rcases keeps.later element member with less | ⟨now, -⟩
    · rw [keeps.due_eq element member]
      exact (Prod.Lex.lt_iff.mpr (Or.inl less)).le
    · exact now.ge
  · exact (keeps.current note here).1.ge
  · rw [keeps.coming note here]
    exact (kernel.now.lt_after 0).le
  · exact (keeps.immediate note here).1.ge

/-- What waits while the kernel is idle is due later, and the event will occur. -/
theorem Keeps.now_lt (keeps : Keeps False 0 kernel) {note : Note α}
    (waits : note ∈ kernel.queue.waiting) : kernel.now < note.due ∧
      (kernel.queue.event = .delta ∨
        ∃ time, kernel.queue.event = .timed time ∧ kernel.time < time ∧
          time ≤ (ofLex note.due).1) := by
  rcases kernel.mem_waiting waits with ⟨element, member, rfl⟩ | here | here | here
  · have due := keeps.due_eq element member
    rcases keeps.idle.2.2.1 element member with ⟨less, covers⟩
    rw [due]
    refine ⟨Prod.Lex.lt_iff.mpr (Or.inl less), ?_⟩
    cases event : kernel.queue.event with
    | none =>
        rw [event] at covers
        exact covers.elim
    | delta => exact Or.inl rfl
    | timed time =>
        rw [event] at covers
        exact Or.inr ⟨time, rfl, keeps.pending time event, covers⟩
  · exact (keeps.current note here).2.elim
  · rw [keeps.coming note here]
    exact ⟨kernel.now.lt_after 0,
      Or.inl ((keeps.delta (List.ne_nil_of_mem here)).resolve_left fun never => never)⟩
  · exact (keeps.immediate note here).2.elim

/-- The callback of the payload `0` makes two notifications. -/
def answering : Option (Kernel Unit Nat) :=
  let cb : Callback Unit Nat := fun payload owner =>
    (owner, if payload = 0 then [(1, 0), (2, 5)] else [])
  runPartial (call cb)
    [.notify 0 3, .notify 7 0, .delta, .fec, .advance 3, .fec, .delta, .fec, .advance 8,
      .notifyImmediate 9, .fec, .notify 4 6]
    (start ())

end Kernel

end SystemcTlm.EventQueue
