import SystemcTlm.Simulation.Stamp

/-!
# Events

An event has one pending notification at most.  A notification for the next delta
cycle replaces one for a later time, and of two times the earlier one is kept.  An
immediate notification cancels what is pending.
-/

namespace SystemcTlm.Simulation

/-- The pending notification of an event. -/
inductive Pending
  | none
  | delta
  | timed (time : Nat)
  deriving DecidableEq

namespace Pending

/-- A notification for the next delta cycle. -/
def notifyDelta (_ : Pending) : Pending :=
  .delta

/-- A notification for this time. -/
def notifyTimed (time : Nat) : Pending → Pending
  | .none => .timed time
  | .delta => .delta
  | .timed earlier => .timed (min earlier time)

/-- The event occurs at this time at the latest. -/
def Covers (time : Nat) : Pending → Prop
  | .none => False
  | .delta => True
  | .timed earlier => earlier ≤ time

theorem covers_notifyTimed (pending : Pending) (time : Nat) :
    (pending.notifyTimed time).Covers time := by
  cases pending with
  | none => exact Nat.le_refl time
  | delta => exact trivial
  | timed earlier => exact Nat.min_le_right earlier time

theorem Covers.notifyTimed {pending : Pending} {time : Nat} (covers : pending.Covers time)
    (other : Nat) : (pending.notifyTimed other).Covers time := by
  cases pending with
  | none => exact covers.elim
  | delta => exact trivial
  | timed earlier => exact (Nat.min_le_left earlier other).trans covers

theorem Covers.mono {pending : Pending} {time later : Nat} (covers : pending.Covers time)
    (order : time ≤ later) : pending.Covers later := by
  cases pending with
  | none => exact covers
  | delta => exact trivial
  | timed earlier => exact Nat.le_trans covers order

/-- The event does not occur before. -/
theorem notifyTimed_later {pending : Pending} {now time : Nat}
    (later : ∀ other, pending = .timed other → now < other) (after : now < time) (other : Nat)
    (same : pending.notifyTimed time = .timed other) : now < other := by
  cases pending with
  | none =>
      cases same
      exact after
  | delta => cases same
  | timed earlier =>
      cases same
      exact Nat.lt_min.mpr ⟨later earlier rfl, after⟩

theorem notifyTimed_eq_delta {pending : Pending} (delta : pending = .delta) (time : Nat) :
    pending.notifyTimed time = .delta := by
  rw [delta, notifyTimed]

end Pending

end SystemcTlm.Simulation
