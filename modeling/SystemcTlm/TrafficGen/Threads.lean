import SystemcTlm.Transition.Run
import Mathlib.Data.List.Basic
import Mathlib.Logic.Function.Basic

/-!
# The threads of the traffic generator

`run` spawns one process for each entry of `m_tData`.  A process takes the transfers
of its entry, generates them, runs the callback, and waits for its event if no new
transfers are there.  `addTransfers` may be called at any time: before the simulation
runs, by other processes, while a process is in `generate`, and by the callback.

The event is notified immediately, so a notification is lost on a process that does
not wait.
-/

namespace SystemcTlm.TrafficGen

open SystemcTlm.Transition

universe u v

/-- The members of a `ThreadData` that the process uses: `α` are the descriptions of
transfers, `κ` the callbacks. -/
structure ThreadData (α : Type u) (κ : Type v) where
  callback : Option κ := none
  transfers : Option α := none

/-- Where a process stands: not spawned, at the head of its loop, in `generate`, in the
callback, or in the wait for its event. -/
inductive Point where
  | unspawned
  | ready
  | generating
  | calledBack
  | waiting
deriving DecidableEq

/-- A process with its data.  The rest is a log: what has been added, taken, and
replaced before it was taken, the callbacks that have been run, and how often the
process has gone on. -/
structure Thread (α : Type u) (κ : Type v) extends ThreadData α κ where
  point : Point := .unspawned
  added : List α := []
  taken : List α := []
  replaced : List α := []
  called : List κ := []
  resumes : Nat := 0

variable {α : Type u} {κ : Type v}

namespace Thread

/-- `SetTransfers`. -/
def setTransfers (transfers : α) (td : Thread α κ) : Thread α κ :=
  { td with
    transfers := some transfers
    added := td.added ++ [transfers]
    replaced := td.replaced ++ td.transfers.toList }

/-- `SetCallback`. -/
def setCallback (callback : Option κ) (td : Thread α κ) : Thread α κ :=
  { td with callback := callback }

/-- `Proceed`. -/
def proceed (isRunning : Bool) (td : Thread α κ) : Thread α κ :=
  if isRunning ∧ td.point = .waiting then { td with point := .ready } else td

@[simp]
theorem proceed_added (isRunning : Bool) (td : Thread α κ) :
    (td.proceed isRunning).added = td.added := by
  unfold proceed
  split <;> rfl

@[simp]
theorem proceed_resumes (isRunning : Bool) (td : Thread α κ) :
    (td.proceed isRunning).resumes = td.resumes := by
  unfold proceed
  split <;> rfl

/-- The end of a pass: the test of `Done`. -/
def endPass (td : Thread α κ) : Thread α κ :=
  { td with point := if td.transfers.isNone then .waiting else .ready }

/-- `RunCallback` and what follows. -/
def runCallback (td : Thread α κ) : Thread α κ :=
  match td.callback with
  | some callback => { td with point := .calledBack, called := td.called ++ [callback] }
  | none => td.endPass

/-- `process` until it next gives up control. -/
def advance (td : Thread α κ) : Option (Thread α κ) :=
  match td.point with
  | .ready =>
      match td.transfers with
      | some transfers =>
          some { td with point := .generating, transfers := none, taken := td.taken ++ [transfers] }
      | none => some td.runCallback
  | .generating => some td.runCallback
  | .calledBack => some td.endPass
  | .unspawned => none
  | .waiting => none

/-- Counts one more resumption. -/
def count (td : Thread α κ) : Thread α κ :=
  { td with resumes := td.resumes + 1 }

/-- `process` goes on. -/
def resume (td : Thread α κ) : Option (Thread α κ) :=
  td.advance.map count

end Thread

/-- The module.  `spawned` is the end of `run`. -/
structure Threads (α : Type u) (κ : Type v) where
  numThreads : Nat
  tData : Nat → Thread α κ
  isRunning : Bool
  spawned : Bool

namespace Threads

/-- The constructor. -/
def new (numThreads : Nat) : Threads α κ where
  numThreads := numThreads
  tData := fun _ => {}
  isRunning := false
  spawned := false

/-- `addTransfers`.  A negative number is no place of the vector. -/
def addTransfers (transfers : α) (threadId : Int) (c : Option κ) (s : Threads α κ) :
    Option (Threads α κ) :=
  if threadId < s.numThreads then
    if 0 ≤ threadId then
      some { s with
        tData := Function.update s.tData threadId.toNat
          ((((s.tData threadId.toNat).setTransfers transfers).setCallback c).proceed s.isRunning) }
    else none
  else some s

/-- What happens to the generator. -/
inductive Call (α : Type u) (κ : Type v) where
  /-- The simulation starts. -/
  | start
  /-- The delay of `run` is over. -/
  | run
  | addTransfers (transfers : α) (threadId : Int) (c : Option κ)
  | resume (threadId : Nat)

/-- A call is undefined where it cannot happen. -/
def call (next : Call α κ) (s : Threads α κ) : Option (Threads α κ) :=
  match next with
  | .start => if s.isRunning then none else some { s with isRunning := true }
  | .run =>
      if s.isRunning ∧ ¬ s.spawned then
        some { s with
          spawned := true
          tData := fun i => { s.tData i with point := .ready } }
      else none
  | .addTransfers transfers threadId c => s.addTransfers transfers threadId c
  | .resume threadId =>
      if threadId < s.numThreads then
        (s.tData threadId).resume.map fun td =>
          { s with tData := Function.update s.tData threadId td }
      else none

end Threads

namespace Thread

/-- The transfers that have been taken, with those that are to be taken next. -/
def accepted (td : Thread α κ) : List α :=
  td.taken ++ td.transfers.toList

/-- How often the process can still go on for what it has taken. -/
def pending : Point → Nat
  | .generating => 2
  | .calledBack => 1
  | _ => 0

/-- What every call keeps of a process. -/
structure Kept (td : Thread α κ) : Prop where
  waits : td.point = .waiting → td.transfers = none
  idle : td.point = .ready → td.transfers = none →
    td.taken = [] ∧ td.resumes = 0 ∧ td.callback = none
  fresh : td.point = .unspawned → td.taken = [] ∧ td.resumes = 0 ∧ td.called = []
  silent : td.added = [] → td.callback = none
  ordered : td.accepted.Sublist td.added
  latest : td.accepted.getLast? = td.added.getLast?
  all : (td.accepted ++ td.replaced).Perm td.added
  calls : td.called.length + (if td.point = .generating then 1 else 0) ≤ td.taken.length
  steps : td.resumes + pending td.point ≤ 3 * td.taken.length + 1

theorem kept_new : Kept ({} : Thread α κ) where
  waits := fun waiting => by cases waiting
  idle := fun ready => by cases ready
  fresh := fun _ => ⟨rfl, rfl, rfl⟩
  silent := fun _ => rfl
  ordered := List.Sublist.refl _
  latest := rfl
  all := List.Perm.refl _
  calls := Nat.le_refl _
  steps := Nat.zero_le _

variable {td : Thread α κ}

/-- Without transfers to take, the last that were added are the last that were taken. -/
theorem Kept.getLast?_taken (kept : td.Kept) (empty : td.transfers = none) :
    td.taken.getLast? = td.added.getLast? := by
  rw [← kept.latest, accepted, empty, Option.toList_none, List.append_nil]

theorem Kept.added_eq_nil (kept : td.Kept) (empty : td.transfers = none) (untaken : td.taken = []) :
    td.added = [] := by
  have last := kept.getLast?_taken empty
  rw [untaken, List.getLast?_nil] at last
  exact List.getLast?_eq_none_iff.mp last.symm

/-- New transfers take the place of those that have not been taken, and a process that
waits is woken. -/
theorem Kept.setTransfers (kept : td.Kept) (transfers : α) (c : Option κ) {point : Point}
    (awake : point ≠ .waiting)
    (woken : point = td.point ∨ td.point = .waiting ∧ point = .ready) :
    Kept { (td.setTransfers transfers).setCallback c with point := point } where
  waits := fun waiting => absurd waiting awake
  idle := fun _ empty => by cases empty
  fresh := by
    rintro rfl
    rcases woken with same | ⟨-, ready⟩
    · exact kept.fresh same.symm
    · cases ready
  silent := fun empty => by simp [Thread.setTransfers, setCallback] at empty
  ordered := by
    have before : td.taken.Sublist td.added :=
      (List.sublist_append_left _ _).trans kept.ordered
    exact before.append (List.Sublist.refl [transfers])
  latest := by
    change (td.taken ++ [transfers]).getLast? = (td.added ++ [transfers]).getLast?
    rw [List.getLast?_concat, List.getLast?_concat]
  all := by
    change (td.taken ++ [transfers] ++ (td.replaced ++ td.transfers.toList)).Perm
      (td.added ++ [transfers])
    have before := kept.all
    rw [accepted, List.append_assoc] at before
    calc
      (td.taken ++ [transfers] ++ (td.replaced ++ td.transfers.toList)).Perm
          (td.taken ++ (td.transfers.toList ++ td.replaced) ++ [transfers]) := by
        rw [List.append_assoc, List.append_assoc]
        refine List.Perm.append_left _ ?_
        exact (List.perm_append_comm).trans (List.Perm.append_right _ List.perm_append_comm)
      List.Perm _ (td.added ++ [transfers]) := before.append_right _
  calls := by
    rcases woken with rfl | ⟨-, rfl⟩
    · exact kept.calls
    · exact Nat.le_trans (Nat.le_add_right _ _) kept.calls
  steps := by
    rcases woken with rfl | ⟨-, rfl⟩
    · exact kept.steps
    · exact Nat.le_trans (Nat.le_add_right _ _) kept.steps

/-- A process that waits while the simulation runs does not miss the event. -/
theorem Kept.addTransfers (kept : td.Kept) (transfers : α) (c : Option κ) {isRunning : Bool}
    (running : td.point = .waiting → isRunning = true) :
    (((td.setTransfers transfers).setCallback c).proceed isRunning).Kept := by
  unfold proceed
  split
  · rename_i waiting
    exact kept.setTransfers transfers c (by simp) (Or.inr ⟨waiting.2, rfl⟩)
  · rename_i stays
    refine kept.setTransfers transfers c ?_ (Or.inl rfl)
    exact fun waiting => stays ⟨running waiting, waiting⟩

/-- A process goes on without a change to its data. -/
theorem Kept.moves (kept : td.Kept) {point : Point} {called : List κ}
    (taken : td.transfers = none → point ≠ .ready) (spawned : point ≠ .unspawned)
    (waits : point = .waiting → td.transfers = none)
    (calls : called.length + (if point = .generating then 1 else 0) ≤ td.taken.length)
    (steps : td.resumes + 1 + pending point ≤ 3 * td.taken.length + 1) :
    Kept { td with point := point, called := called, resumes := td.resumes + 1 } where
  waits := waits
  idle := fun ready empty => absurd ready (taken empty)
  fresh := fun at_start => absurd at_start spawned
  silent := kept.silent
  ordered := kept.ordered
  latest := kept.latest
  all := kept.all
  calls := calls
  steps := steps

/-- The end of a pass waits only where no transfers have come in. -/
theorem Kept.endPass (kept : td.Kept) (calls : td.called.length ≤ td.taken.length)
    (steps : td.resumes + 1 ≤ 3 * td.taken.length + 1) :
    td.endPass.count.Kept := by
  unfold Thread.endPass
  apply kept.moves
  all_goals split
  all_goals simp_all [pending]

/-- The callback runs where there is one, and the pass goes on to its end otherwise. -/
theorem Kept.runCallback (kept : td.Kept)
    (calls : td.called.length + (if td.callback.isSome then 1 else 0) ≤ td.taken.length)
    (steps : td.resumes + 1 + (if td.callback.isSome then 1 else 0) ≤ 3 * td.taken.length + 1) :
    td.runCallback.count.Kept := by
  unfold Thread.runCallback
  split
  · rename_i callback given
    rw [given] at calls steps
    apply kept.moves (fun _ => by simp) (by simp) (fun waiting => by cases waiting)
    · simpa using calls
    · simpa [pending] using steps
  · rename_i absent
    rw [absent] at calls steps
    exact kept.endPass (by simpa using calls) (by simpa using steps)

/-- The transfers at the head of the loop are taken. -/
theorem Kept.generates (kept : td.Kept) (ready : td.point = .ready) {transfers : α}
    (given : td.transfers = some transfers) :
    Kept { td with
      point := .generating
      transfers := none
      taken := td.taken ++ [transfers]
      resumes := td.resumes + 1 } where
  waits := fun _ => rfl
  idle := fun at_head => by cases at_head
  fresh := fun at_start => by cases at_start
  silent := kept.silent
  ordered := by
    have before := kept.ordered
    rw [accepted, given] at before
    simpa [accepted] using before
  latest := by
    have before := kept.latest
    rw [accepted, given] at before
    simpa [accepted] using before
  all := by
    have before := kept.all
    rw [accepted, given] at before
    simpa [accepted] using before
  calls := by
    have before := kept.calls
    rw [List.length_append, List.length_singleton]
    exact Nat.add_le_add_right (Nat.le_trans (Nat.le_add_right _ _) before) 1
  steps := by
    have before := kept.steps
    rw [ready] at before
    simp only [pending, List.length_append, List.length_singleton] at before ⊢
    omega

theorem Kept.spawn (kept : td.Kept) (unspawned : td.point = .unspawned) :
    Kept { td with point := .ready } where
  waits := fun waiting => by cases waiting
  idle := fun _ empty => by
    rcases kept.fresh unspawned with ⟨untaken, zero, -⟩
    exact ⟨untaken, zero, kept.silent (kept.added_eq_nil empty untaken)⟩
  fresh := fun at_start => by cases at_start
  silent := kept.silent
  ordered := kept.ordered
  latest := kept.latest
  all := kept.all
  calls := Nat.le_trans (Nat.le_add_right _ _) kept.calls
  steps := Nat.le_trans (Nat.le_add_right _ _) kept.steps

theorem unspawned_addTransfers (transfers : α) (c : Option κ) {isRunning : Bool} :
    (((td.setTransfers transfers).setCallback c).proceed isRunning).point = .unspawned ↔
      td.point = .unspawned := by
  unfold proceed
  split
  · rename_i woken
    have waiting : td.point = .waiting := woken.2
    simp [waiting]
  · rfl

/-- Only a process that has been spawned and does not wait goes on. -/
theorem resume_isSome_iff :
    td.resume.isSome = true ↔ td.point ≠ .unspawned ∧ td.point ≠ .waiting := by
  rw [resume, Option.isSome_map, advance]
  cases td.point <;> cases td.transfers <;> simp

theorem endPass_spawned (td : Thread α κ) : td.endPass.point ≠ .unspawned := by
  change (if _ then _ else _) ≠ _
  split <;> simp

theorem runCallback_spawned (td : Thread α κ) : td.runCallback.point ≠ .unspawned := by
  unfold runCallback
  split
  · simp
  · exact endPass_spawned td

theorem runCallback_logs (td : Thread α κ) :
    td.runCallback.added = td.added ∧ td.runCallback.resumes = td.resumes := by
  unfold runCallback
  split <;> exact ⟨rfl, rfl⟩

theorem resume_spawned {after : Thread α κ} (resumed : td.resume = some after) :
    td.point ≠ .unspawned ∧ after.point ≠ .unspawned := by
  refine ⟨(resume_isSome_iff.mp (by rw [resumed]; rfl)).1, ?_⟩
  rw [resume, Option.map_eq_some_iff] at resumed
  rcases resumed with ⟨middle, advanced, rfl⟩
  change middle.point ≠ _
  unfold advance at advanced
  split at advanced
  · split at advanced
    · cases advanced
      simp
    · cases advanced
      exact runCallback_spawned td
  · cases advanced
    exact runCallback_spawned td
  · cases advanced
    exact endPass_spawned td
  · cases advanced
  · cases advanced

theorem resume_logs {after : Thread α κ} (resumed : td.resume = some after) :
    after.added = td.added ∧ after.resumes = td.resumes + 1 := by
  rw [resume, Option.map_eq_some_iff] at resumed
  rcases resumed with ⟨middle, advanced, rfl⟩
  suffices logs : middle.added = td.added ∧ middle.resumes = td.resumes by
    exact ⟨logs.1, congrArg (· + 1) logs.2⟩
  unfold advance at advanced
  split at advanced
  · split at advanced
    · cases advanced
      exact ⟨rfl, rfl⟩
    · cases advanced
      exact runCallback_logs td
  · cases advanced
    exact runCallback_logs td
  · cases advanced
    exact ⟨rfl, rfl⟩
  · cases advanced
  · cases advanced

theorem Kept.resume (kept : td.Kept) {after : Thread α κ} (resumed : td.resume = some after) :
    after.Kept := by
  rw [Thread.resume, Option.map_eq_some_iff] at resumed
  rcases resumed with ⟨middle, advanced, rfl⟩
  have calls := kept.calls
  have steps := kept.steps
  cases at_point : td.point <;> rw [advance, at_point] at advanced <;> rw [at_point] at calls steps
  case unspawned => cases advanced
  case waiting => cases advanced
  case ready =>
    cases offered : td.transfers with
    | some transfers =>
        rw [offered] at advanced
        cases advanced
        exact kept.generates at_point offered
    | none =>
        -- The first pass, with nothing added and no callback.
        rw [offered] at advanced
        cases advanced
        rcases kept.idle at_point offered with ⟨-, zero, silent⟩
        refine kept.runCallback ?_ ?_
        · simpa [silent] using calls
        · simp [silent, zero]
  case generating =>
    cases advanced
    have one : (if td.callback.isSome then 1 else 0) ≤ 1 := by split <;> omega
    simp only [pending, if_true] at calls steps
    exact kept.runCallback (by omega) (by omega)
  case calledBack =>
    cases advanced
    exact kept.endPass (by simpa using calls) steps

end Thread

namespace Threads

/-- What every call keeps of the module. -/
structure Kept (s : Threads α κ) : Prop where
  thread : ∀ i, (s.tData i).Kept
  spawned : ∀ i, (s.tData i).point ≠ .unspawned ↔ s.spawned = true
  running : s.spawned = true → s.isRunning = true

theorem kept_new (numThreads : Nat) : (new numThreads : Threads α κ).Kept where
  thread := fun _ => Thread.kept_new
  spawned := fun _ => by simp [new]
  running := fun spawned => by cases spawned

variable {s : Threads α κ}

/-- One process moves. -/
theorem Kept.update (kept : s.Kept) (i : Nat) {td : Thread α κ} (moved : td.Kept)
    (same : td.point = .unspawned ↔ (s.tData i).point = .unspawned) :
    Kept { s with tData := Function.update s.tData i td } where
  thread := fun j => by
    rcases eq_or_ne j i with rfl | other
    · simpa using moved
    · simpa [other] using kept.thread j
  spawned := fun j => by
    rcases eq_or_ne j i with rfl | other
    · simpa [same] using kept.spawned j
    · simpa [other] using kept.spawned j
  running := kept.running

theorem Kept.addTransfers (kept : s.Kept) {transfers : α} {threadId : Int} {c : Option κ}
    {after : Threads α κ} (added : s.addTransfers transfers threadId c = some after) :
    after.Kept := by
  unfold Threads.addTransfers at added
  split at added
  · split at added
    · cases added
      have thread := kept.thread threadId.toNat
      apply kept.update
      · refine thread.addTransfers transfers c fun waiting => kept.running ?_
        exact (kept.spawned threadId.toNat).mp (by simp [waiting])
      · exact Thread.unspawned_addTransfers transfers c
    · cases added
  · cases added
    exact kept

theorem Kept.call (kept : s.Kept) {next : Call α κ} {after : Threads α κ}
    (called : s.call next = some after) : after.Kept := by
  cases next with
  | start =>
      change (if _ then _ else _) = _ at called
      split at called
      · cases called
      · cases called
        exact ⟨kept.thread, kept.spawned, fun _ => rfl⟩
  | run =>
      change (if _ then _ else _) = _ at called
      split at called
      · rename_i starts
        cases called
        refine ⟨fun i => (kept.thread i).spawn ?_, fun _ => by simp, fun _ => starts.1⟩
        have before := kept.spawned i
        simpa [starts.2] using before
      · cases called
  | addTransfers transfers threadId c => exact kept.addTransfers called
  | resume threadId =>
      change (if _ then _ else _) = _ at called
      split at called
      · rw [Option.map_eq_some_iff] at called
        rcases called with ⟨td, resumed, rfl⟩
        apply kept.update threadId ((kept.thread threadId).resume resumed)
        simp [Thread.resume_spawned resumed]
      · cases called

/-- The transfers that a call adds to entry `i`. -/
def Call.transfersOf (i : Nat) : Call α κ → Option α
  | .addTransfers transfers threadId _ => if threadId = i then some transfers else none
  | _ => none

/-- Whether process `i` goes on with the call. -/
def Call.resumes (i : Nat) : Call α κ → Bool
  | .resume threadId => threadId = i
  | _ => false

/-- The logs of every entry tell what the calls have been. -/
structure Logged (numThreads : Nat) (calls : List (Call α κ)) (s : Threads α κ) : Prop where
  threads : s.numThreads = numThreads
  added : ∀ i, i < numThreads → (s.tData i).added = calls.filterMap (Call.transfersOf i)
  resumes : ∀ i, (s.tData i).resumes = calls.countP (Call.resumes i)

theorem logged_new (numThreads : Nat) : Logged numThreads [] (new numThreads : Threads α κ) where
  threads := rfl
  added := fun _ _ => rfl
  resumes := fun _ => rfl

/-- A call that is in no log. -/
theorem Logged.quiet {numThreads : Nat} {calls : List (Call α κ)} {next : Call α κ}
    (logged : Logged numThreads calls s) {after : Threads α κ}
    (same : after.numThreads = s.numThreads)
    (added : ∀ i, (after.tData i).added = (s.tData i).added)
    (resumes : ∀ i, (after.tData i).resumes = (s.tData i).resumes)
    (adds : ∀ i, i < numThreads → next.transfersOf i = none) (stays : ∀ i, next.resumes i = false) :
    Logged numThreads (calls ++ [next]) after where
  threads := same.trans logged.threads
  added := fun i known => by simp [added, adds i known, logged.added i known]
  resumes := fun i => by simp [resumes, stays, logged.resumes i]

theorem Logged.addTransfers {numThreads : Nat} {calls : List (Call α κ)}
    (logged : Logged numThreads calls s) {transfers : α} {threadId : Int} {c : Option κ}
    {after : Threads α κ} (added : s.addTransfers transfers threadId c = some after) :
    Logged numThreads (calls ++ [.addTransfers transfers threadId c]) after := by
  unfold Threads.addTransfers at added
  split at added
  · split at added
    · rename_i nonneg
      cases added
      obtain ⟨k, rfl⟩ := Int.eq_ofNat_of_zero_le nonneg
      refine ⟨logged.threads, fun i known => ?_, fun i => ?_⟩
      · rw [List.filterMap_append, ← logged.added i known]
        rcases eq_or_ne i k with rfl | other
        · simp [Call.transfersOf, Thread.setCallback, Thread.setTransfers]
        · have apart : (k : Int) ≠ i := by omega
          simp [Call.transfersOf, other, apart]
      · rw [List.countP_append, ← logged.resumes i]
        rcases eq_or_ne i k with rfl | other
        · simp [Call.resumes, Thread.setCallback, Thread.setTransfers]
        · simp [Call.resumes, other]
    · cases added
  · rename_i outside
    cases added
    apply logged.quiet rfl (fun _ => rfl) (fun _ => rfl) _ (fun _ => rfl)
    intro i known
    rw [logged.threads] at outside
    exact if_neg (by omega)

theorem Logged.call {numThreads : Nat} {calls : List (Call α κ)}
    (logged : Logged numThreads calls s) {next : Call α κ} {after : Threads α κ}
    (called : s.call next = some after) : Logged numThreads (calls ++ [next]) after := by
  cases next with
  | start =>
      change (if _ then _ else _) = _ at called
      split at called
      · cases called
      · cases called
        exact logged.quiet rfl (fun _ => rfl) (fun _ => rfl) (fun _ _ => rfl) (fun _ => rfl)
  | run =>
      change (if _ then _ else _) = _ at called
      split at called
      · cases called
        exact logged.quiet rfl (fun _ => rfl) (fun _ => rfl) (fun _ _ => rfl) (fun _ => rfl)
      · cases called
  | addTransfers transfers threadId c => exact logged.addTransfers called
  | resume threadId =>
      change (if _ then _ else _) = _ at called
      split at called
      · rw [Option.map_eq_some_iff] at called
        rcases called with ⟨td, resumed, rfl⟩
        rcases Thread.resume_logs resumed with ⟨added, resumes⟩
        refine ⟨logged.threads, fun i known => ?_, fun i => ?_⟩
        · rw [List.filterMap_append, ← logged.added i known]
          rcases eq_or_ne i threadId with rfl | other
          · simp [Call.transfersOf, added]
          · simp [Call.transfersOf, other]
        · rw [List.countP_append, ← logged.resumes i]
          rcases eq_or_ne i threadId with rfl | other
          · simp [Call.resumes, resumes]
          · simp [Call.resumes, other, other.symm]
      · cases called

/-- Transfers are added before the simulation runs, while `generate` runs and while the
callback runs.  The second are never taken. -/
def addedLate : List (Call Nat Unit) :=
  [.addTransfers 7 0 none, .start, .run, .resume 0, .addTransfers 8 0 (some ()), .resume 0,
    .addTransfers 9 0 none, .resume 0, .resume 0, .resume 0]

end Threads

end SystemcTlm.TrafficGen
