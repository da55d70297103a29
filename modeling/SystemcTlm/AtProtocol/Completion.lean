import Mathlib.Algebra.BigOperators.Group.List.Basic
import Mathlib.Algebra.Ring.Nat
import Mathlib.Data.List.MinMax
import SystemcTlm.AtProtocol.Exclusion

/-!
# Completion

Every step uses up a part of what the thread and the entries of the queues still
have to do, so every run is finite.  A run that cannot go on has sent, checked and
released all transactions.
-/

namespace SystemcTlm.AtProtocol

open SystemcTlm.Container SystemcTlm.Simulation

/-- The steps that an entry of the queue of the target leads to. -/
def targetLoad : TlmPhase → Nat
  | .beginReq => 5
  | .internalPh => 3
  | _ => 1

/-- The steps that an entry of the queue of the initiator leads to. -/
def initiatorLoad : TlmPhase → Nat
  | .beginResp => 2
  | _ => 1

/-- The steps that the thread leads to. -/
def Thread.load (total : Nat) : Thread → Nat
  | .paused i _ => 7 * (total - i) + 1
  | .waiting i _ => 7 * (total - (i + 1)) + 7
  | .notified i _ _ => 7 * (total - (i + 1)) + 7
  | .finished => 0

namespace System

/-- The steps that the transactions which have been sent lead to. -/
def load (s : System) : Nat :=
  (s.target.peq.map fun entry => targetLoad entry.phase).sum +
    (s.initiator.peq.map fun entry => initiatorLoad entry.phase).sum +
    4 * s.target.endReqPending.toList.length + 2 * s.target.nextResponsePending.toList.length

/-- A call adds at most `steps` to the load.  The thread stays where it is, and no
transaction is sent. -/
structure Adds (steps : Nat) (s after : System) : Prop where
  load_le : after.load ≤ s.load + steps
  thread_eq : after.initiator.thread = s.initiator.thread
  newLines_eq : newLines after.log = newLines s.log

variable {s after later : System} {t : TransId}

theorem Adds.trans {first second : Nat} (one : Adds first s after)
    (two : Adds second after later) : Adds (first + second) s later where
  load_le := by
    have bound := one.load_le
    have bound' := two.load_le
    omega
  thread_eq := two.thread_eq.trans one.thread_eq
  newLines_eq := two.newLines_eq.trans one.newLines_eq

theorem load_notifyTarget (phase : TlmPhase) (delay : Nat) :
    (s.notifyTarget t phase delay).load = s.load + targetLoad phase := by
  simp only [load, notifyTarget, List.map_append, List.map_cons, List.map_nil, List.sum_append,
    List.sum_cons, List.sum_nil]
  omega

theorem load_notifyInitiator (phase : TlmPhase) (delay : Nat) :
    (s.notifyInitiator t phase delay).load = s.load + initiatorLoad phase := by
  simp only [load, notifyInitiator, List.map_append, List.map_cons, List.map_nil,
    List.sum_append, List.sum_cons, List.sum_nil]
  omega

theorem adds_release (released : s.release t = .ok after) : Adds 0 s after := by
  rcases refs : (s.payload t).refCount with _ | _ | count
  · rw [release, if_pos refs] at released
    cases released
  · rw [release_last refs] at released
    cases released
    exact ⟨le_rfl, rfl, rfl⟩
  · rw [release_eq refs] at released
    cases released
    exact ⟨le_rfl, rfl, rfl⟩

theorem adds_nbTransportFw (phase : TlmPhase) (delay : Nat) :
    Adds (targetLoad phase) s (s.nbTransportFw t phase delay).1 := by
  rw [nbTransportFw]
  split_ifs
  · exact ⟨Nat.le_add_right _ _, rfl, rfl⟩
  · exact ⟨Nat.le_add_right _ _, rfl, rfl⟩
  · exact ⟨(load_notifyTarget phase delay).le, rfl, rfl⟩

theorem adds_checkTransaction (checked : s.checkTransaction t = .ok after) : Adds 0 s after := by
  rw [checkTransaction] at checked
  split_ifs at checked with good
  have released := adds_release checked
  refine ⟨released.load_le, released.thread_eq, released.newLines_eq.trans ?_⟩
  rw [newLines, newLines, List.filterMap_append]
  exact List.append_nil _

/-! ## The target -/

theorem adds_sendEndReq (draws : Draws) {result : System × TlmSyncEnum}
    (sent : s.sendEndReq t draws = .ok result) : Adds 4 s result.1 := by
  rw [sendEndReq_eq] at sent
  cases sent
  refine ⟨?_, rfl, rfl⟩
  change (notifyTarget t .internalPh _ (notifyInitiator t .endReq _ s)).load ≤ _
  rw [load_notifyTarget, load_notifyInitiator]
  exact le_rfl

theorem adds_sendResponse (sent : s.sendResponse t = .ok after) : Adds 2 s after := by
  rw [sendResponse_eq] at sent
  cases sent
  refine ⟨?_, rfl, rfl⟩
  rw [load_notifyInitiator]
  exact le_rfl

theorem load_endReqPending (pending : Option TransId) :
    ({ s with target.endReqPending := pending } : System).load +
        4 * s.target.endReqPending.toList.length =
      s.load + 4 * pending.toList.length := by
  simp only [load]
  omega

theorem load_nextResponsePending (pending : Option TransId) :
    ({ s with target.nextResponsePending := pending } : System).load +
        2 * s.target.nextResponsePending.toList.length =
      s.load + 2 * pending.toList.length := by
  simp only [load]
  omega

theorem adds_targetBeginReq (draws : Draws) (done : s.targetBeginReq t draws = .ok after) :
    Adds 4 s after := by
  rw [targetBeginReq] at done
  dsimp only at done
  split_ifs at done
  · cases done
    refine ⟨?_, rfl, rfl⟩
    have pending := load_endReqPending (s := s.acquire t) (some t)
    exact (Nat.le_add_right _ _).trans pending.le
  · cases sent : (s.acquire t).sendEndReq t draws with
    | error fault =>
        rw [sent] at done
        cases done
    | ok result =>
        rw [sent] at done
        cases done
        have added := adds_sendEndReq draws sent
        exact ⟨added.load_le, added.thread_eq, added.newLines_eq⟩

theorem adds_sendNextResponse (done : s.sendNextResponse = .ok after) : Adds 0 s after := by
  rw [sendNextResponse] at done
  cases pending : s.target.nextResponsePending with
  | none =>
      rw [pending] at done
      cases done
      exact ⟨le_rfl, rfl, rfl⟩
  | some next =>
      rw [pending] at done
      dsimp only at done
      rw [sendResponse_eq] at done
      cases done
      refine ⟨?_, rfl, rfl⟩
      have cleared := load_nextResponsePending (s := s) none
      rw [pending] at cleared
      have sent := load_notifyInitiator (s := { s with target.nextResponsePending := none })
        (t := next) .beginResp 0
      exact sent.le.trans cleared.le

theorem adds_sendPendingEndReq (draws : Draws) (done : s.sendPendingEndReq draws = .ok after) :
    Adds 0 s after := by
  rw [sendPendingEndReq] at done
  cases pending : s.target.endReqPending with
  | none =>
      rw [pending] at done
      cases done
      exact ⟨le_rfl, rfl, rfl⟩
  | some held =>
      rw [pending] at done
      dsimp only at done
      rw [sendEndReq_eq] at done
      cases done
      refine ⟨?_, rfl, rfl⟩
      have cleared := load_endReqPending (s := s) none
      rw [pending] at cleared
      have sent := adds_sendEndReq (s := { s with target.endReqPending := none }) (t := held)
        draws rfl
      exact sent.load_le.trans cleared.le

theorem adds_targetEndResp (draws : Draws) (done : s.targetEndResp t draws = .ok after) :
    Adds 0 s after := by
  rw [targetEndResp] at done
  split_ifs at done
  cases released : s.release t with
  | error fault =>
      rw [released] at done
      cases done
  | ok first =>
      rw [released] at done
      change (sendNextResponse _).bind (fun s => s.sendPendingEndReq draws) = _ at done
      cases answered : sendNextResponse { first with
          target.nTrans := first.target.nTrans - 1, target.responseInProgress := false } with
      | error fault =>
          rw [answered] at done
          cases done
      | ok second =>
          rw [answered] at done
          have one := adds_release released
          have two := adds_sendNextResponse answered
          exact (one.trans ⟨two.load_le, two.thread_eq, two.newLines_eq⟩).trans
            (adds_sendPendingEndReq draws done)

theorem adds_execute (draws : Draws) : Adds 0 s (s.execute t draws) := by
  rw [execute_eq]
  exact ⟨le_rfl, rfl, rfl⟩

theorem adds_targetInternal (draws : Draws) (done : s.targetInternal t draws = .ok after) :
    Adds 2 s after := by
  rw [targetInternal] at done
  have executed : Adds 0 s (s.execute t draws) := adds_execute draws
  rw [← Nat.zero_add 2]
  refine executed.trans ?_
  generalize s.execute t draws = executed at done
  dsimp only at done
  split_ifs at done
  · cases done
    refine ⟨?_, rfl, rfl⟩
    have pending := load_nextResponsePending (s := executed) (some t)
    exact (Nat.le_add_right _ _).trans pending.le
  · exact adds_sendResponse done

theorem adds_targetPeqCb {phase : TlmPhase} (draws : Draws)
    (done : s.targetPeqCb t phase draws = .ok after) {steps : Nat}
    (paid : targetLoad phase = steps + 1) : Adds steps s after := by
  cases phase with
  | beginReq =>
      cases paid
      exact adds_targetBeginReq draws done
  | endResp =>
      cases paid
      exact adds_targetEndResp draws done
  | internalPh =>
      cases paid
      exact adds_targetInternal draws done
  | endReq => cases done
  | beginResp => cases done

/-! ## The initiator -/

/-- What the callback of the initiator does to the thread. -/
inductive Wakes (now : Stamp) : Thread → Thread → Prop
  | still (thread : Thread) : Wakes now thread thread
  | notified (i : Nat) (held : TransId) : Wakes now (.waiting i held) (.notified i held now)

theorem initiatorPhase_wakes {phase : TlmPhase} (done : s.initiatorPhase t phase = .ok after) :
    after.load = s.load ∧ newLines after.log = newLines s.log ∧
      Wakes s.now s.initiator.thread after.initiator.thread := by
  rw [initiatorPhase] at done
  split_ifs at done
  · cases done
    refine ⟨rfl, rfl, ?_⟩
    rw [endRequest]
    cases s.initiator.thread with
    | waiting i held => exact .notified i held
    | _ => exact .still _
  · cases done
    exact ⟨rfl, rfl, .still _⟩

theorem initiatorPeqCb_wakes {phase : TlmPhase} (draws : Draws)
    (done : s.initiatorPeqCb t phase draws = .ok after) :
    after.load + 1 ≤ s.load + initiatorLoad phase ∧ newLines after.log = newLines s.log ∧
      Wakes s.now s.initiator.thread after.initiator.thread := by
  rw [initiatorPeqCb] at done
  cases first : s.initiatorPhase t phase with
  | error fault =>
      rw [first] at done
      cases done
  | ok ended =>
      rcases initiatorPhase_wakes first with ⟨load, lines, wakes⟩
      rw [first] at done
      by_cases responds : phase = .beginResp
      · subst responds
        change (ended.checkTransaction t).bind (fun s => pure _) = _ at done
        cases second : ended.checkTransaction t with
        | error fault =>
            rw [second] at done
            cases done
        | ok checked =>
            rw [second] at done
            cases done
            have adds := (adds_checkTransaction second).trans
              (adds_nbTransportFw (t := t) .endResp (randPs draws.responseDelay))
            refine ⟨?_, adds.newLines_eq.trans lines, ?_⟩
            · have bound := adds.load_le
              rw [load] at bound
              exact Nat.succ_le_succ bound
            · rw [adds.thread_eq]
              exact wakes
      · have same : after = ended := by
          change (if phase = .beginResp then _ else Except.ok ended) = _ at done
          rw [if_neg responds] at done
          cases done
          rfl
        subst same
        refine ⟨?_, lines, wakes⟩
        rw [load]
        cases phase <;> first | exact le_rfl | exact absurd rfl responds

/-- The line `new` is the last one. -/
theorem length_newLines_append (log : List Line) (address : UInt64) (command : TlmMemory.TlmCommand)
    (data : Int) :
    (newLines (log ++ [Line.new address command data])).length = (newLines log).length + 1 := by
  rw [newLines, List.filterMap_append, List.length_append]
  rfl

theorem sendRequest_sends {i : Nat} (draws : Draws)
    (done : s.sendRequest i t draws = .ok after) :
    after.load ≤ s.load + 5 ∧ (newLines after.log).length = (newLines s.log).length + 1 ∧
      ∃ resumed, after.initiator.thread = .paused (i + 1) resumed := by
  have lines := length_newLines_append s.log (s.payload t).address (s.payload t).command
    (s.initiator.data (i % 16))
  let rejected (status : TlmMemory.TlmResponseStatus) : System :=
    { s.setResponseStatus t status with
      initiator.requestInProgress := none
      log := s.log ++ [Line.new (s.payload t).address (s.payload t).command
        (s.initiator.data (i % 16))] }
  have returned : ∀ status, (((rejected status).checkTransaction t).bind fun s => Except.ok { s with
        initiator.thread := .paused (i + 1) (s.now.after (randPs draws.pause)) }) = .ok after →
      after.load ≤ s.load + 5 ∧ (newLines after.log).length = (newLines s.log).length + 1 ∧
        ∃ resumed, after.initiator.thread = .paused (i + 1) resumed := by
    intro status done
    cases checked : (rejected status).checkTransaction t with
    | error fault =>
        rw [checked] at done
        cases done
    | ok released =>
        rw [checked] at done
        cases done
        have adds := adds_checkTransaction checked
        exact ⟨adds.load_le.trans (Nat.le_add_right _ _),
          (congrArg List.length adds.newLines_eq).trans lines, _, rfl⟩
  rw [sendRequest] at done
  dsimp only at done
  rw [nbTransportFw] at done
  dsimp only at done
  split_ifs at done
  · exact returned .byteEnableError done
  · exact returned .burstError done
  · cases done
    refine ⟨?_, lines, _, rfl⟩
    have sent := load_notifyTarget (s := s) (t := t) .beginReq (randPs draws.requestDelay)
    exact sent.le

theorem newTransaction_sends {i total : Nat} (more : i < total) (draws : Draws)
    (done : s.newTransaction i draws = .ok after) :
    after.initiator.thread.load total + after.load < 7 * (total - i) + 1 + s.load ∧
      ((∃ t, after.initiator.thread = .waiting i t ∧
          (newLines after.log).length = (newLines s.log).length) ∨
        ∃ resumed, after.initiator.thread = .paused (i + 1) resumed ∧
          (newLines after.log).length = (newLines s.log).length + 1) := by
  have next : 7 * (total - i) = 7 * (total - (i + 1)) + 7 := by omega
  rw [newTransaction_eq] at done
  dsimp only at done
  by_cases busy : s.initiator.requestInProgress.isSome = true
  · rw [if_pos busy] at done
    cases done
    refine ⟨?_, Or.inl ⟨_, rfl, rfl⟩⟩
    change 7 * (total - (i + 1)) + 7 + s.load < _
    omega
  · rw [if_neg busy] at done
    rcases sendRequest_sends draws done with ⟨load, lines, resumed, thread⟩
    refine ⟨?_, Or.inr ⟨resumed, thread, lines⟩⟩
    rw [thread]
    change 7 * (total - (i + 1)) + 1 + after.load < _
    have bound : after.load ≤ s.load + 5 := load
    omega

/-! ## Runs -/

/-- The steps that are left. -/
def remaining (total : Nat) (s : System) : Nat :=
  s.initiator.thread.load total + s.load

/-- The thread has logged a line `new` for every request that it has sent. -/
def Counts (total : Nat) (s : System) : Prop :=
  match s.initiator.thread with
  | .paused i _ => i ≤ total ∧ (newLines s.log).length = i
  | .waiting i _ => i < total ∧ (newLines s.log).length = i
  | .notified i _ _ => i < total ∧ (newLines s.log).length = i
  | .finished => (newLines s.log).length = total

theorem Counts.of_eq {total : Nat} (counts : Counts total s)
    (thread : after.initiator.thread = s.initiator.thread)
    (lines : newLines after.log = newLines s.log) : Counts total after := by
  rw [Counts, thread, lines]
  exact counts

theorem Counts.wakes {total : Nat} {now : Stamp} (counts : Counts total s)
    (wakes : Wakes now s.initiator.thread after.initiator.thread)
    (lines : newLines after.log = newLines s.log) : Counts total after := by
  rw [Counts] at counts ⊢
  rw [lines]
  generalize s.initiator.thread = here, after.initiator.thread = there at counts wakes
  cases wakes with
  | still => exact counts
  | notified i held => exact counts

theorem Wakes.load_eq {now : Stamp} {here there : Thread} (wakes : Wakes now here there)
    (total : Nat) : there.load total = here.load total := by
  cases wakes <;> rfl

theorem load_takeTarget {before behind : List Notified} {entry : Notified}
    (split : s.target.peq = before ++ entry :: behind) :
    s.load = ({ s with now := entry.due, target.peq := before ++ behind } : System).load +
      targetLoad entry.phase := by
  simp only [load, split, List.map_append, List.map_cons, List.sum_append, List.sum_cons]
  omega

theorem load_takeInitiator {before behind : List Notified} {entry : Notified}
    (split : s.initiator.peq = before ++ entry :: behind) :
    s.load = ({ s with now := entry.due, initiator.peq := before ++ behind } : System).load +
      initiatorLoad entry.phase := by
  simp only [load, split, List.map_append, List.map_cons, List.sum_append, List.sum_cons]
  omega

theorem targetLoad_pos (phase : TlmPhase) : ∃ steps, targetLoad phase = steps + 1 := by
  cases phase <;> exact ⟨_, rfl⟩

theorem threadProcess_uses {total : Nat} (draws : Draws) (counts : Counts total s) {due : Stamp}
    (ready : s.initiator.thread.due? = some due)
    (done : s.threadProcess total draws = .ok after) :
    after.remaining total < s.remaining total ∧ Counts total after := by
  rw [threadProcess] at done
  rw [Counts] at counts
  cases thread : s.initiator.thread with
  | paused i resumed =>
      rw [thread] at done counts
      dsimp only at done counts
      by_cases more : i < total
      · rw [if_pos more] at done
        rcases newTransaction_sends more draws done with ⟨load, sends⟩
        constructor
        · rw [remaining, remaining, thread]
          exact load
        · rw [Counts]
          rcases sends with ⟨t, waits, lines⟩ | ⟨again, pauses, lines⟩
          · rw [waits]
            exact ⟨more, lines.trans counts.2⟩
          · rw [pauses]
            exact ⟨more, lines.trans (congrArg (· + 1) counts.2)⟩
      · rw [if_neg more] at done
        cases done
        constructor
        · rw [remaining, remaining, thread]
          change 0 + s.load < 7 * (total - i) + 1 + s.load
          omega
        · exact counts.2.trans (Nat.le_antisymm counts.1 (Nat.le_of_not_lt more))
  | notified i held resumed =>
      rw [thread] at done counts
      rcases sendRequest_sends draws done with ⟨load, lines, again, pauses⟩
      constructor
      · rw [remaining, remaining, thread, pauses]
        change 7 * (total - (i + 1)) + 1 + after.load < 7 * (total - (i + 1)) + 7 + s.load
        omega
      · rw [Counts, pauses]
        exact ⟨counts.1, lines.trans (congrArg (· + 1) counts.2)⟩
  | waiting i held =>
      rw [thread] at ready
      cases ready
  | finished =>
      rw [thread] at ready
      cases ready

/-- A step uses something up. -/
theorem Step.remaining_lt {total : Nat} (step : Step total s (.ok after))
    (counts : Counts total s) : after.remaining total < s.remaining total ∧ Counts total after := by
  generalize result : (Except.ok after : Except Fault System) = outcome at step
  cases step with
  | @thread draws due ready least =>
      exact threadProcess_uses draws (s := { s with now := due }) counts ready result.symm
  | @initiatorPeq draws before behind entry split least =>
      rcases initiatorPeqCb_wakes draws result.symm with ⟨load, lines, wakes⟩
      constructor
      · rw [remaining, remaining, wakes.load_eq, load_takeInitiator split]
        exact Nat.add_lt_add_left load _
      · exact counts.wakes wakes lines
  | @targetPeq draws before behind entry split least =>
      rcases targetLoad_pos entry.phase with ⟨steps, paid⟩
      have adds := adds_targetPeqCb draws result.symm paid
      constructor
      · rw [remaining, remaining, adds.thread_eq, load_takeTarget split, paid]
        exact Nat.add_lt_add_left (Nat.lt_succ_of_le adds.load_le) _
      · exact counts.of_eq adds.thread_eq adds.newLines_eq

theorem Steps.remaining_le {total steps : Nat} {payload : TransId → Payload} {data : Nat → Int}
    (reached : Steps total (new payload data) steps s) :
    steps + s.remaining total ≤ 7 * total + 1 ∧ Counts total s := by
  induction reached with
  | refl => exact ⟨by rw [Nat.zero_add]; exact le_rfl, ⟨Nat.zero_le _, rfl⟩⟩
  | step earlier last ih =>
      rcases last.remaining_lt ih.2 with ⟨less, counts⟩
      exact ⟨by omega, counts⟩

/-! ## Ends -/

/-- Something can run unless nothing is pending. -/
theorem exists_step (total : Nat) (draws : Draws) (waits : s.pending ≠ []) :
    ∃ result, Step total s result := by
  have long := List.length_pos_of_ne_nil waits
  have here := List.minimum_of_length_pos_mem long
  have least : s.Least (s.pending.minimum_of_length_pos long) :=
    fun other member => List.minimum_of_length_pos_le_of_mem member long
  generalize s.pending.minimum_of_length_pos long = due at here least
  rcases mem_pending.mp here with ready | ⟨entry, member, rfl⟩ | ⟨entry, member, rfl⟩
  · exact ⟨_, .thread draws ready least⟩
  · rcases List.append_of_mem member with ⟨before, behind, split⟩
    exact ⟨_, .initiatorPeq draws split least⟩
  · rcases List.append_of_mem member with ⟨before, behind, split⟩
    exact ⟨_, .targetPeq draws split least⟩

end System

namespace Rests

variable {c : Config} {s : System}

/-- When nothing is pending, the thread has finished and no transaction is in use. -/
theorem ends (rests : Rests c s) (nothing : s.pending = []) :
    s.initiator.thread = .finished ∧ ∀ t, c.stage t = .idle := by
  have empty : ∀ due, due ∉ s.pending := by
    rw [nothing]
    exact fun _ => List.not_mem_nil
  have target : ∀ entry, entry ∉ s.target.peq := fun entry member =>
    empty entry.due (System.mem_pending.mpr (Or.inr (Or.inr ⟨entry, member, rfl⟩)))
  have initiator : ∀ entry, entry ∉ s.initiator.peq := fun entry member =>
    empty entry.due (System.mem_pending.mpr (Or.inr (Or.inl ⟨entry, member, rfl⟩)))
  have noTarget : ∀ u phase due, (c.stage u).atTarget ≠ some (phase, due) :=
    fun u phase due queued =>
      target ⟨due, u, phase⟩ ((rests.queues.mem_target ⟨due, u, phase⟩).mpr queued)
  have noInitiator : ∀ u phase due, (c.stage u).atInitiator ≠ some (phase, due) :=
    fun u phase due queued =>
      initiator ⟨due, u, phase⟩
        ((rests.queues.mem_initiator ⟨due, u, phase⟩).mpr (Or.inl queued))
  have noGrant : c.granted = none := by
    cases given : c.granted with
    | none => rfl
    | some grant =>
        exact absurd ((rests.queues.mem_initiator ⟨grant.2, grant.1, .endReq⟩).mpr
          (Or.inr ⟨rfl, given⟩)) (initiator _)
  -- no response is on its way, so the target holds none back
  have silent : c.response = none := by
    cases response : c.response with
    | none => rfl
    | some u =>
        have passes := rests.roles.response.passes response
        cases at_ : c.stage u with
        | begun due => exact absurd (by rw [at_]; rfl) (noInitiator u .beginResp due)
        | ending due => exact absurd (by rw [at_]; rfl) (noTarget u .endResp due)
        | _ =>
            rw [at_] at passes
            cases passes
  have noneReady : s.target.nextResponsePending = none := by
    by_contra pending
    have responding := rests.waits.ready pending
    have equal := rests.roles.response_eq
    rw [silent] at equal
    rw [responding] at equal
    cases equal
  have inactive : ∀ u, (c.stage u).isActive = false := by
    intro u
    cases at_ : c.stage u with
    | executing due => exact absurd (by rw [at_]; rfl) (noTarget u .internalPh due)
    | ready =>
        have stored := (rests.roles.ready u).mp (by rw [at_]; rfl)
        exact absurd (noneReady.symm.trans stored) nofun
    | begun due => exact absurd (by rw [at_]; rfl) (noInitiator u .beginResp due)
    | ending due => exact absurd (by rw [at_]; rfl) (noTarget u .endResp due)
    | _ => rfl
  have noneDeferred : s.target.endReqPending = none := by
    by_contra pending
    have full := rests.waits.deferred pending
    have count := rests.roles.nTrans_eq
    change s.target.nTrans = _ at full count
    have long : 0 < c.active.length := by omega
    rcases List.exists_mem_of_length_pos long with ⟨u, member⟩
    rw [rests.roles.active.mem_iff, inactive] at member
    cases member
  have quiet : ∀ u, (c.stage u).isRequesting = false := by
    intro u
    cases at_ : c.stage u with
    | offered due => exact absurd (by rw [at_]; rfl) (noTarget u .beginReq due)
    | deferred =>
        have stored := (rests.roles.deferred u).mp (by rw [at_]; rfl)
        exact absurd (noneDeferred.symm.trans stored) nofun
    | _ => rfl
  have free : s.initiator.requestInProgress = none := by
    have offers : c.offer = none := by
      cases offer : c.offer with
      | none => rfl
      | some u => exact absurd ((rests.roles.offer.passes offer).symm.trans (quiet u)) nofun
    have request := rests.roles.request_eq
    rw [offers, noGrant] at request
    exact request
  have finished : s.initiator.thread = .finished := by
    cases thread : s.initiator.thread with
    | paused i due => exact absurd (System.mem_pending.mpr (Or.inl (by rw [thread]; rfl))) (empty due)
    | waiting i held => exact absurd free (rests.roles.waits i held thread)
    | notified i held due =>
        exact absurd (System.mem_pending.mpr (Or.inl (by rw [thread]; rfl))) (empty due)
    | finished => rfl
  refine ⟨finished, fun t => ?_⟩
  have notHeld : (c.stage t).isHeld = false := by
    have slot := rests.roles.held
    change Slot Stage.isHeld c.stage s.initiator.thread.held? at slot
    rw [finished] at slot
    exact slot.fails t
  have notRequesting := quiet t
  have notActive := inactive t
  cases at_ : c.stage t with
  | idle => rfl
  | held => rw [at_] at notHeld; cases notHeld
  | offered due => rw [at_] at notRequesting; cases notRequesting
  | deferred => rw [at_] at notRequesting; cases notRequesting
  | _ => rw [at_] at notActive; cases notActive

end Rests

/-- Every run is finite.  When it cannot go on, every request of the thread has been
sent and checked once, and all transactions have been released. -/
theorem steps_complete {total steps : Nat} {payload : TransId → Payload} {data : Nat → Int}
    {s : System} (reached : System.Steps total (System.new payload data) steps s) :
    steps ≤ 7 * total + 1 ∧
      ((∀ result, ¬ System.Step total s result) →
        s.initiator.thread = .finished ∧ s.target.peq = [] ∧ s.initiator.peq = [] ∧
          s.target.nTrans = 0 ∧ s.initiator.mm.Lends [] ∧ (∀ t, (s.payload t).refCount = 0) ∧
          (newLines s.log).length = total ∧ (checkLines s.log).Perm (newLines s.log)) := by
  rcases rests_of_steps reached with ⟨c, rests⟩
  rcases reached.remaining_le with ⟨bound, counts⟩
  refine ⟨Nat.le_of_add_right_le bound, fun stuck => ?_⟩
  have nothing : s.pending = [] := by
    by_contra waits
    rcases System.exists_step total ⟨0, 0, 0, 0, 0, 0, 0, 0⟩ waits with ⟨result, step⟩
    exact stuck result step
  rcases rests.ends nothing with ⟨finished, idle⟩
  have inactive : c.active = [] := rests.roles.active.eq_nil fun t => by rw [idle]; rfl
  have unused : c.inUse = [] := rests.held.inUse.eq_nil fun t => by rw [idle]; rfl
  have checked : c.unchecked = [] := rests.logged.unchecked.eq_nil fun t => by rw [idle]; rfl
  rw [System.pending, List.append_eq_nil_iff, List.append_eq_nil_iff, List.map_eq_nil_iff,
    List.map_eq_nil_iff] at nothing
  refine ⟨finished, nothing.2, nothing.1.2, ?_, ?_, fun t => ?_, ?_, ?_⟩
  · have count := rests.roles.nTrans_eq
    rw [inactive] at count
    exact count
  · have lends := rests.held.lends
    rwa [unused] at lends
  · have fits := (rests.held.fits t).refCount_eq
    rwa [idle] at fits
  · rw [System.Counts, finished] at counts
    exact counts
  · have lines := rests.logged.lines
    rw [checked, List.map_nil, List.append_nil] at lines
    exact lines.symm

/-- The order in which the processes run for two transactions.  The second request
is accepted before the first response begins, and its response is deferred. -/
def overlapping : List (System.Activation × Draws) :=
  let first : Draws := ⟨7, 1, 3, 0, 0, 0, 10, 0⟩
  let second : Draws := ⟨9, 0, 5, 0, 0, 0, 10, 0⟩
  [(.thread, first), (.thread, second), (.targetPeq 0, first), (.initiatorPeq 0, first),
    (.thread, second), (.thread, second), (.targetPeq 1, second), (.initiatorPeq 0, second),
    (.targetPeq 0, first), (.targetPeq 0, second), (.initiatorPeq 0, first),
    (.targetPeq 0, first), (.initiatorPeq 0, second), (.targetPeq 0, second)]

/-- The modules before the two transactions. -/
def idle : System :=
  .new (fun _ => ⟨.read, 0, 0, 0, 0, none, false, .incomplete, 0⟩) fun _ => 0

theorem steps_complete_overlapping :
    ((idle.run 2 (overlapping.take 8)).map fun s => s.target.nTrans) = some 2 ∧
      ((idle.run 2 overlapping).map fun s => (checkLines s.log, s.pending)) =
        some ([(7, .write), (9, .read)], []) ∧
      ∀ s, idle.run 2 overlapping = some s → 14 ≤ 7 * 2 + 1 ∧
        ((∀ result, ¬ System.Step 2 s result) → (newLines s.log).length = 2) := by
  refine ⟨rfl, rfl, fun s ran => ?_⟩
  have complete := steps_complete (System.steps_of_run ran)
  exact ⟨complete.1, fun stuck => (complete.2 stuck).2.2.2.2.2.2.1⟩

end SystemcTlm.AtProtocol
