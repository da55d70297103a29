import SystemcTlm.Container.StableSort
import SystemcTlm.Simulation.Event
import SystemcTlm.Transition.Run

/-!
# `peq_with_cb_and_phase`

The payload event queue of the transport calls.  It keeps what is due in the next
delta cycle apart from what is due at a later time, and has one event for all.
When the event occurs, `fec` calls the owner back with every payload that is due.

A payload stands for the pair of a transaction and a phase.  The callback may
notify the queue again with a delay, which may be zero.  That it calls `notify`
without a delay or `cancel_all` is left out.  The times and `sc_delta_count()`
are unbounded.
-/

namespace SystemcTlm.EventQueue

open SystemcTlm.Container SystemcTlm.Simulation SystemcTlm.Transition

universe u v

/-- `peq_with_cb_and_phase`.  A `delta_list` is the list of its entries from `out`
to `size`, `m_ppq` the list of its elements with their times. -/
structure PeqWithCb (α : Type u) where
  ppq : List (Nat × α)
  unevenDelta : List α
  evenDelta : List α
  immediateYield : List α
  event : Pending

namespace PeqWithCb

variable {α : Type u}

/-- A queue that holds nothing, with its event not notified. -/
def empty : PeqWithCb α :=
  ⟨[], [], [], [], .none⟩

/-- `notify` with a delay. -/
def notify (payload : α) (delay time deltaCount : Nat) (queue : PeqWithCb α) : PeqWithCb α :=
  if delay = 0 then
    let queue :=
      if deltaCount % 2 = 1 then { queue with evenDelta := queue.evenDelta ++ [payload] }
      else { queue with unevenDelta := queue.unevenDelta ++ [payload] }
    { queue with event := queue.event.notifyDelta }
  else
    { queue with
      ppq := insertLast Prod.fst (delay + time, payload) queue.ppq
      event := queue.event.notifyTimed (time + delay) }

/-- `notify` without a delay. -/
def notifyImmediate (payload : α) (queue : PeqWithCb α) : PeqWithCb α :=
  { queue with immediateYield := queue.immediateYield ++ [payload], event := .none }

/-- `cancel_all` -/
def cancelAll (_ : PeqWithCb α) : PeqWithCb α :=
  empty

/-- All payloads that the queue holds. -/
def waiting (queue : PeqWithCb α) : List α :=
  queue.ppq.map Prod.snd ++ (queue.unevenDelta ++ (queue.evenDelta ++ queue.immediateYield))

end PeqWithCb

/-- A payload, and when it is due. -/
structure Note (α : Type u) where
  payload : α
  due : Stamp

/-- The queue and its owner in a simulation, with the notifications that have been
made, delivered and cancelled. -/
structure Kernel (σ : Type v) (α : Type u) where
  now : Stamp
  deltaCount : Nat
  /-- `fec` is to run in this evaluation phase. -/
  runnable : Bool
  owner : σ
  queue : PeqWithCb (Note α)
  notified : List (Note α)
  delivered : List (Note α × Stamp)
  cancelled : List (Note α)

namespace Kernel

variable {σ : Type v} {α : Type u}

/-- `sc_time_stamp()` -/
def time (kernel : Kernel σ α) : Nat :=
  (ofLex kernel.now).1

/-- The start of a simulation. -/
def start (owner : σ) : Kernel σ α where
  now := toLex (0, 0)
  deltaCount := 0
  runnable := false
  owner := owner
  queue := .empty
  notified := []
  delivered := []
  cancelled := []

/-- A notification with a delay, made now. -/
def notify (payload : α) (delay : Nat) (kernel : Kernel σ α) : Kernel σ α :=
  let note : Note α := ⟨payload, kernel.now.after delay⟩
  { kernel with
    queue := kernel.queue.notify note delay kernel.time kernel.deltaCount
    notified := kernel.notified ++ [note] }

/-- A notification without a delay.  The event occurs in this evaluation phase. -/
def notifyImmediate (payload : α) (kernel : Kernel σ α) : Kernel σ α :=
  let note : Note α := ⟨payload, kernel.now⟩
  { kernel with
    queue := kernel.queue.notifyImmediate note
    runnable := true
    notified := kernel.notified ++ [note] }

/-- All that waits is cancelled. -/
def cancelAll (kernel : Kernel σ α) : Kernel σ α :=
  { kernel with
    queue := kernel.queue.cancelAll
    cancelled := kernel.cancelled ++ kernel.queue.waiting }

/-! ## The process -/

/-- The function that the owner has registered, with the notifications that it
makes and their delays.  A delay of zero is that of the next delta cycle. -/
abbrev Callback (σ : Type v) (α : Type u) :=
  α → σ → σ × List (α × Nat)

variable (cb : Callback σ α)

/-- `(m_owner->*m_cb)` -/
def callBack (note : Note α) (kernel : Kernel σ α) : Kernel σ α :=
  let outcome := cb note.payload kernel.owner
  outcome.2.foldl (fun kernel request => kernel.notify request.1 request.2)
    { kernel with
      owner := outcome.1
      delivered := kernel.delivered ++ [(note, kernel.now)] }

/-- The loop over a `delta_list`. -/
def callBackAll (notes : List (Note α)) (kernel : Kernel σ α) : Kernel σ α :=
  notes.foldl (fun kernel note => kernel.callBack cb note) kernel

/-- The loop of `fec` over `m_immediate_yield`. -/
def fecImmediate (kernel : Kernel σ α) : Kernel σ α :=
  let kernel := kernel.callBackAll cb kernel.queue.immediateYield
  { kernel with queue.immediateYield := [] }

/-- The part of `fec` for the notifications of the last delta cycle.  Its
`delta_list` is chosen by the parity of the count. -/
def fecDelta (kernel : Kernel σ α) : Kernel σ α :=
  if kernel.deltaCount % 2 = 1 then
    let kernel := kernel.callBackAll cb kernel.queue.unevenDelta
    let kernel := { kernel with queue.unevenDelta := [] }
    if kernel.queue.evenDelta.isEmpty then kernel
    else { kernel with queue.event := kernel.queue.event.notifyDelta }
  else
    let kernel := kernel.callBackAll cb kernel.queue.evenDelta
    let kernel := { kernel with queue.evenDelta := [] }
    if kernel.queue.unevenDelta.isEmpty then kernel
    else { kernel with queue.event := kernel.queue.event.notifyDelta }

/-- The loop over `m_ppq`, which ends within as many rounds as there are
elements. -/
def fecTimed : Nat → Kernel σ α → Kernel σ α
  | 0, kernel => kernel
  | rounds + 1, kernel =>
      match kernel.queue.ppq with
      | [] => kernel
      | (time, note) :: _ =>
          if time = kernel.time then
            let kernel := kernel.callBack cb note
            fecTimed rounds { kernel with queue.ppq := kernel.queue.ppq.tail }
          else kernel

/-- `fec`, which calls the owner back with all that is due. -/
def fec (kernel : Kernel σ α) : Kernel σ α :=
  let kernel := (kernel.fecImmediate cb).fecDelta cb
  if kernel.queue.ppq.isEmpty then kernel
  else
    let kernel := kernel.fecTimed cb kernel.queue.ppq.length
    match kernel.queue.ppq with
    | [] => kernel
    | (top, _) :: _ => { kernel with queue.event := kernel.queue.event.notifyTimed top }

/-! ## Runs -/

/-- What happens to the queue in a simulation. -/
inductive Call (σ : Type v) (α : Type u)
  | notify (payload : α) (delay : Nat)
  | notifyImmediate (payload : α)
  | cancelAll
  /-- The owner is changed by its other processes. -/
  | change (owner : σ)
  /-- The kernel runs `fec`. -/
  | fec
  /-- The kernel goes on to the next delta cycle. -/
  | delta
  /-- The kernel goes on to this time. -/
  | advance (time : Nat)

/-- The kernel leaves an evaluation phase when no process is runnable, and a time
when no notification is pending for the next delta cycle.  It does not pass the
time of a pending notification. -/
def call (next : Call σ α) (kernel : Kernel σ α) : Option (Kernel σ α) :=
  match next with
  | .notify payload delay => some (kernel.notify payload delay)
  | .notifyImmediate payload => some (kernel.notifyImmediate payload)
  | .cancelAll => some kernel.cancelAll
  | .change owner => some { kernel with owner := owner }
  | .fec =>
      if kernel.runnable then some (Kernel.fec cb { kernel with runnable := false }) else none
  | .delta =>
      if kernel.runnable then none
      else
        let later :=
          { kernel with
            now := kernel.now.after 0
            deltaCount := kernel.deltaCount + 1 }
        if kernel.queue.event = .delta then
          some { later with runnable := true, queue.event := .none }
        else some later
  | .advance time =>
      if kernel.runnable ∨ time ≤ kernel.time then none
      else
        let later :=
          { kernel with
            now := toLex (time, 0)
            deltaCount := kernel.deltaCount + 1 }
        match kernel.queue.event with
        | .none => some later
        | .delta => none
        | .timed due =>
            if time < due then some later
            else if time = due then some { later with runnable := true, queue.event := .none }
            else none

end Kernel

end SystemcTlm.EventQueue
