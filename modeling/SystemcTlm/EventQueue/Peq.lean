import SystemcTlm.Container.StableSort
import SystemcTlm.Transition.Run

/-!
# `peq`

The payload event queue.  A payload is pushed with a delay, waits under its due
time, and is popped once the simulation time has reached it.  What has been
popped, followed by what waits, is at any time the list of the pushed payloads
stably sorted by due time.

A `std::multimap` is the list of its entries in order.  An entry is inserted
behind those of its key.  Payloads are the objects the pointers point to, so
none is null.
-/

namespace SystemcTlm.EventQueue

open SystemcTlm.Container SystemcTlm.Transition

universe u

/-- `sc_core::sc_time`, in units of the time resolution. -/
abbrev ScTime := UInt64

/-- `peq<T>` -/
structure Peq (T : Type u) where
  peq : List (ScTime × T)

variable {T : Type u}

/-- The key of an entry of `m_peq`. -/
def dueTime (entry : ScTime × T) : Nat :=
  entry.1.toNat

namespace Peq

/-- `now` is `sc_time_stamp()`. -/
def pushDelayedPayload (now delay : ScTime) (pld : T) (queue : Peq T) : Peq T where
  peq := insertLast dueTime (delay + now, pld) queue.peq

/-- The payload that is popped, if one has expired, and the queue afterwards. -/
def popExpiredPayload (now : ScTime) (queue : Peq T) : Option T × Peq T :=
  match queue.peq with
  | [] => (none, queue)
  | first :: rest =>
      if first.1 > now then (none, queue)
      else (some first.2, ⟨rest⟩)

/-- `get_inflight_count` -/
def getInflightCount (queue : Peq T) : Nat :=
  queue.peq.length

end Peq

/-! ## Runs -/

/-- The public calls that change the queue, and the advance of the simulation
time. -/
inductive Call (T : Type u)
  | pushDelayedPayload (delay : ScTime) (pld : T)
  | popExpiredPayload
  | advance (time : ScTime)

/-- A queue in a simulation. -/
structure Simulation (T : Type u) where
  now : ScTime
  queue : Peq T
  /-- The payloads pushed, with their due times. -/
  pushed : List (ScTime × T)
  /-- The payloads popped, with the times of their pops. -/
  popped : List (ScTime × T)

/-- One call, or a step of the time. -/
def call (next : Call T) (sim : Simulation T) : Simulation T :=
  match next with
  | .pushDelayedPayload delay pld =>
      { sim with
        queue := sim.queue.pushDelayedPayload sim.now delay pld
        pushed := sim.pushed ++ [(delay + sim.now, pld)] }
  | .popExpiredPayload =>
      let outcome := sim.queue.popExpiredPayload sim.now
      { sim with
        queue := outcome.2
        popped := sim.popped ++ outcome.1.toList.map fun pld => (sim.now, pld) }
  | .advance time => { sim with now := time }

/-- The simulation after the calls, from an empty queue at time `start`. -/
def run (start : ScTime) (calls : List (Call T)) : Simulation T :=
  runCalls call calls ⟨start, ⟨[]⟩, [], []⟩

/-- From time `now` on, the time does not go back and no due time overflows. -/
def Admissible : ScTime → List (Call T) → Prop
  | _, [] => True
  | now, .pushDelayedPayload delay _ :: rest =>
      delay.toNat + now.toNat < UInt64.size ∧ Admissible now rest
  | now, .popExpiredPayload :: rest => Admissible now rest
  | now, .advance time :: rest => now ≤ time ∧ Admissible time rest

/-- `taken` are the entries that have been popped. -/
structure Ordered (sim : Simulation T) (taken : List (ScTime × T)) : Prop where
  stable : IsStableSort dueTime sim.pushed (taken ++ sim.queue.peq)
  returned : List.Forall₂ (fun popped entry => popped.2 = entry.2 ∧ entry.1 ≤ popped.1)
    sim.popped taken
  due : ∀ entry ∈ taken, entry.1 ≤ sim.now

section Steps

variable {sim : Simulation T} {taken : List (ScTime × T)}

/-- A due time is not before the time of the push. -/
theorem dueTime_push {now delay : ScTime} (fits : delay.toNat + now.toNat < UInt64.size)
    (pld : T) : now.toNat ≤ dueTime (delay + now, pld) := by
  rw [dueTime, UInt64.toNat_add, Nat.mod_eq_of_lt fits]
  exact Nat.le_add_left _ _

theorem Ordered.push (ordered : Ordered sim taken) {delay : ScTime}
    (fits : delay.toNat + sim.now.toNat < UInt64.size) (pld : T) :
    Ordered (call (.pushDelayedPayload delay pld) sim) taken where
  stable := by
    have notGreater : ∀ other ∈ taken, dueTime other ≤ dueTime (delay + sim.now, pld) :=
      fun other member =>
        (UInt64.le_iff_toNat_le.mp (ordered.due other member)).trans (dueTime_push fits pld)
    have inserted := ordered.stable.insertLast (delay + sim.now, pld)
    rwa [insertLast_append notGreater] at inserted
  returned := ordered.returned
  due := ordered.due

/-- What a pop does: it takes the first entry if that is due, and nothing if
no entry is. -/
theorem popExpiredPayload_cases (now : ScTime) (queue : Peq T) :
    (queue.popExpiredPayload now = (none, queue) ∧
        ∀ first rest, queue.peq = first :: rest → now < first.1) ∨
      ∃ first rest, queue.peq = first :: rest ∧ first.1 ≤ now ∧
        queue.popExpiredPayload now = (some first.2, ⟨rest⟩) := by
  rcases queue with ⟨entries⟩
  cases entries with
  | nil => exact Or.inl ⟨rfl, fun _ _ empty => absurd empty (by simp)⟩
  | cons first rest =>
      by_cases later : first.1 > now
      · left
        constructor
        · exact if_pos later
        · rintro _ _ ⟨⟩
          exact later
      · exact Or.inr ⟨first, rest, rfl, UInt64.not_lt.mp later, if_neg later⟩

theorem Ordered.pop (ordered : Ordered sim taken) :
    ∃ taken', Ordered (call .popExpiredPayload sim) taken' := by
  rcases popExpiredPayload_cases sim.now sim.queue with
    ⟨nothing, -⟩ | ⟨first, rest, split, due, popped⟩
  · refine ⟨taken, ?_, ?_, ordered.due⟩
    · simpa [call, nothing] using ordered.stable
    · simpa [call, nothing] using ordered.returned
  · refine ⟨taken ++ [first], ?_, ?_, ?_⟩
    · have stable := ordered.stable
      rw [split] at stable
      simpa [call, popped] using stable
    · have last : List.Forall₂ (fun popped entry => popped.2 = entry.2 ∧ entry.1 ≤ popped.1)
          [(sim.now, first.2)] [first] := List.Forall₂.cons ⟨rfl, due⟩ List.Forall₂.nil
      simpa [call, popped] using List.rel_append ordered.returned last
    · intro entry member
      rcases List.mem_append.mp member with old | new
      · exact ordered.due entry old
      · rw [List.mem_singleton.mp new]
        exact due

theorem Ordered.advance (ordered : Ordered sim taken) {time : ScTime} (forward : sim.now ≤ time) :
    Ordered (call (.advance time) sim) taken where
  stable := ordered.stable
  returned := ordered.returned
  due entry member := UInt64.le_trans (ordered.due entry member) forward

/-- The order is kept along admissible calls. -/
theorem Ordered.runCalls (ordered : Ordered sim taken) {calls : List (Call T)}
    (admissible : Admissible sim.now calls) :
    ∃ taken', Ordered (runCalls call calls sim) taken' := by
  induction calls generalizing sim taken with
  | nil => exact ⟨taken, ordered⟩
  | cons next rest ih =>
      cases next with
      | pushDelayedPayload delay pld => exact ih (ordered.push admissible.1 pld) admissible.2
      | popExpiredPayload =>
          rcases ordered.pop with ⟨taken', after⟩
          exact ih after admissible
      | advance time => exact ih (ordered.advance admissible.1) admissible.2

end Steps

theorem exists_ordered_run (start : ScTime) {calls : List (Call T)}
    (admissible : Admissible start calls) : ∃ taken, Ordered (run start calls) taken := by
  have initial : Ordered (⟨start, ⟨[]⟩, [], []⟩ : Simulation T) [] :=
    ⟨IsStableSort.nil, List.Forall₂.nil, by simp⟩
  exact initial.runCalls admissible

/-- In flight are the payloads that have been pushed and not popped. -/
theorem getInflightCount_run (start : ScTime) {calls : List (Call T)}
    (admissible : Admissible start calls) :
    (run start calls).queue.getInflightCount =
      (run start calls).pushed.length - (run start calls).popped.length := by
  rcases exists_ordered_run start admissible with ⟨taken, ordered⟩
  have total := ordered.stable.perm.length_eq
  rw [List.length_append, ← ordered.returned.length_eq] at total
  rw [Peq.getInflightCount]
  omega

/-- The payload event queue is a stable sort by due time.  The entries that have
been popped, followed by those that wait, are the pushed ones stably sorted; the
pops have returned their payloads in this order, none before its due time; and a
pop returns nothing only if every entry that waits is due later. -/
theorem popped_append_queue_sorted (start : ScTime) {calls : List (Call T)}
    (admissible : Admissible start calls) {sim : Simulation T} (reached : sim = run start calls) :
    ∃ taken, taken ++ sim.queue.peq = sim.pushed.mergeSort (fun a b => dueTime a ≤ dueTime b) ∧
      List.Forall₂ (fun popped entry => popped.2 = entry.2 ∧ entry.1 ≤ popped.1)
        sim.popped taken ∧
      ((sim.queue.popExpiredPayload sim.now).1 = none →
        ∀ entry ∈ sim.queue.peq, sim.now < entry.1) := by
  rcases exists_ordered_run start admissible with ⟨taken, ordered⟩
  rw [← reached] at ordered
  refine ⟨taken, ordered.stable.unique (IsStableSort.mergeSort sim.pushed), ordered.returned, ?_⟩
  intro nothing entry member
  rcases popExpiredPayload_cases sim.now sim.queue with ⟨-, later⟩ | ⟨first, rest, -, -, popped⟩
  · cases split : sim.queue.peq with
    | nil => simp [split] at member
    | cons first rest =>
        have sorted := ordered.stable.sorted
        rw [split] at member
        rw [List.pairwise_append, split] at sorted
        have least := IsStableSort.le_first sorted.2.1 member
        exact UInt64.lt_of_lt_of_le (later first rest split) (UInt64.le_iff_toNat_le.mpr least)
  · rw [popped] at nothing
    exact absurd nothing (by simp)

/-- A push that is due before a waiting one, two that are due together, and one
that is due while they wait. -/
def fourPayloads : List (Call Char) :=
  [.pushDelayedPayload 10 'a', .pushDelayedPayload 5 'b', .advance 3, .pushDelayedPayload 2 'c',
    .advance 5, .popExpiredPayload, .pushDelayedPayload 0 'd', .popExpiredPayload]

theorem popped_append_queue_sorted_four_payloads :
    (run 0 fourPayloads).queue.peq = [(5, 'd'), (10, 'a')] ∧
      ∃ taken, taken ++ (run 0 fourPayloads).queue.peq =
        (run 0 fourPayloads).pushed.mergeSort (fun a b => dueTime a ≤ dueTime b) := by
  have admissible : Admissible 0 fourPayloads :=
    ⟨by decide, by decide, by decide, by decide, by decide, by decide, trivial⟩
  rcases popped_append_queue_sorted 0 admissible rfl with ⟨taken, sorted, -⟩
  exact ⟨by decide, taken, sorted⟩

end SystemcTlm.EventQueue
