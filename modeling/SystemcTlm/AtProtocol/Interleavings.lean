import Mathlib.Data.List.Perm.Subperm
import SystemcTlm.AtProtocol.Handshake

/-!
# The protocol in every interleaving

A state that stages describe is followed by another one, whatever is drawn and
whichever of the processes that are due runs first.  No step ends in a fault.
-/

namespace SystemcTlm.AtProtocol

open SystemcTlm.Container SystemcTlm.Simulation SystemcTlm.TlmMemory

variable {c : Config} {s : System} {before after : List Notified} {entry : Notified}

/-! ## Calls in closed form -/

namespace System

theorem sendEndReq_eq (t : TransId) (draws : Draws) (s : System) :
    s.sendEndReq t draws =
      .ok ({ (s.notifyInitiator t .endReq (randPs draws.acceptDelay)).notifyTarget t .internalPh
          (randPs draws.acceptDelay + randPs draws.latency) with
        target.nTrans := s.target.nTrans + 1 }, .accepted) :=
  rfl

theorem sendResponse_eq (t : TransId) (s : System) :
    s.sendResponse t =
      .ok (notifyInitiator t .beginResp 0 { s with target.responseInProgress := true }) :=
  rfl

theorem nbTransportFw_eq {t : TransId} (acceptable : (s.payload t).Acceptable)
    (phase : TlmPhase) (delay : Nat) :
    s.nbTransportFw t phase delay = (s.notifyTarget t phase delay, .accepted) := by
  have sizes : ¬ (4 < (s.payload t).dataLength ∨
      (s.payload t).streamingWidth < (s.payload t).dataLength) :=
    not_or.mpr ⟨acceptable.dataLength, acceptable.streamingWidth⟩
  rw [nbTransportFw, acceptable.byteEnablePtr]
  simp only [Option.isSome_none, Bool.false_eq_true, if_false, if_neg sizes]

/-- A reference is given up. -/
theorem release_eq {t : TransId} {count : Nat} (refs : (s.payload t).refCount = count + 2) :
    s.release t = .ok { s with
      payload := Function.update s.payload t { s.payload t with refCount := count + 1 } } := by
  rw [release, refs]
  rfl

/-- The last reference is given up. -/
theorem release_last {t : TransId} (refs : (s.payload t).refCount = 1) :
    s.release t = .ok { s with
      payload := Function.update s.payload t { s.payload t with refCount := 0 }
      initiator.mm := s.initiator.mm.free t } := by
  rw [release, refs]
  rfl

theorem sendRequest_eq {t : TransId} (acceptable : (s.payload t).Acceptable) (i : Nat)
    (draws : Draws) :
    s.sendRequest i t draws =
      .ok { notifyTarget t .beginReq (randPs draws.requestDelay)
          { s with
            initiator.requestInProgress := some t
            log := s.log ++ [Line.new (s.payload t).address (s.payload t).command
              (s.initiator.data (i % 16))] } with
        initiator.thread := .paused (i + 1) (s.now.after (randPs draws.pause)) } := by
  rw [sendRequest]
  dsimp only
  rw [nbTransportFw_eq (by exact acceptable)]
  rfl

theorem newTransaction_eq (i : Nat) (draws : Draws) (s : System) :
    s.newTransaction i draws =
      let t := s.initiator.mm.allocate.1
      let allocated : System :=
        { s with
          payload := Function.update s.payload t
            { command := randCommand draws.cmd
              address := UInt64.ofNat draws.adr
              dataPtr := i % 16
              dataLength := 4
              streamingWidth := 4
              byteEnablePtr := none
              dmiAllowed := false
              responseStatus := .incomplete
              refCount := (s.payload t).refCount + 1 }
          initiator.mm := s.initiator.mm.allocate.2
          initiator.data := if randCommand draws.cmd = .write then
              Function.update s.initiator.data (i % 16) draws.word
            else s.initiator.data }
      if s.initiator.requestInProgress.isSome then
        .ok { allocated with initiator.thread := .waiting i t }
      else allocated.sendRequest i t draws := by
  by_cases write : randCommand draws.cmd = .write
  · simp only [newTransaction, if_pos write, setAttributes, acquire, Function.update_self,
      Function.update_idem]
  · simp only [newTransaction, if_neg write, setAttributes, acquire, Function.update_self,
      Function.update_idem]

theorem execute_eq (t : TransId) (draws : Draws) (s : System) :
    s.execute t draws = { s with
      payload := Function.update s.payload t { s.payload t with responseStatus := .ok }
      initiator.data := if (s.payload t).command = .read then
          Function.update s.initiator.data (s.payload t).dataPtr draws.word
        else s.initiator.data } := by
  rw [execute]
  split_ifs <;> rfl

theorem clear_endReqPending (clear : s.target.endReqPending = none) :
    { s with target.endReqPending := none } = s := by
  rcases s with ⟨now, payload, initiator, ⟨nTrans, responding, next, pending, peq⟩, log⟩
  cases clear
  rfl

theorem clear_nextResponsePending (clear : s.target.nextResponsePending = none) :
    { s with target.nextResponsePending := none } = s := by
  rcases s with ⟨now, payload, initiator, ⟨nTrans, responding, next, pending, peq⟩, log⟩
  cases clear
  rfl

/-- A payload that keeps its address and command keeps its label. -/
theorem label_eq {after : System} {t : TransId} {payload : Payload}
    (changed : after.payload = Function.update s.payload t payload)
    (same : (payload.address, payload.command) = s.label t) (u : TransId) :
    after.label u = s.label u := by
  rw [label, changed]
  by_cases here : u = t
  · rw [here, Function.update_self]
    exact same
  · rw [Function.update_of_ne here]
    rfl

end System

theorem Stage.atTarget_beginReq {stage : Stage} {due : Stamp}
    (queued : stage.atTarget = some (.beginReq, due)) : stage = .offered due := by
  cases stage <;> cases queued
  rfl

theorem Stage.atTarget_internal {stage : Stage} {due : Stamp}
    (queued : stage.atTarget = some (.internalPh, due)) : stage = .executing due := by
  cases stage <;> cases queued
  rfl

theorem Stage.atTarget_endResp {stage : Stage} {due : Stamp}
    (queued : stage.atTarget = some (.endResp, due)) : stage = .ending due := by
  cases stage <;> cases queued
  rfl

theorem Stage.atInitiator_beginResp {stage : Stage} {due : Stamp}
    (queued : stage.atInitiator = some (.beginResp, due)) : stage = .begun due := by
  cases stage <;> cases queued
  rfl

namespace Describes

/-- What is due at the target is not overdue. -/
theorem due_target (describes : Describes c s)
    (split : s.target.peq = before ++ entry :: after) :
    (c.stage entry.trans).atTarget = some (entry.phase, entry.due) ∧ s.now ≤ entry.due := by
  have here : entry ∈ s.target.peq := by simp [split]
  refine ⟨(describes.queues.mem_target entry).mp here, describes.queues.now_le _ ?_⟩
  exact System.mem_pending.mpr (Or.inr (Or.inr ⟨entry, here, rfl⟩))

theorem due_initiator (describes : Describes c s)
    (split : s.initiator.peq = before ++ entry :: after) : s.now ≤ entry.due := by
  have here : entry ∈ s.initiator.peq := by simp [split]
  apply describes.queues.now_le
  exact System.mem_pending.mpr (Or.inr (Or.inl ⟨entry, here, rfl⟩))

/-- The target sends the pending `END_REQ`. -/
theorem sendEndReq (describes : Describes c s) {t : TransId}
    (pending : s.target.endReqPending = some t) (room : c.active.length ≤ 1) (draws : Draws) :
    ∃ c' sent, s.sendEndReq t draws = .ok sent ∧
      Describes c' { sent.1 with target.endReqPending := none } ∧
      sent.1.members = { s.members with nTrans := s.target.nTrans + 1 } := by
  have passes := describes.roles.deferred.passes pending
  have deferred : c.stage t = .deferred := by
    cases at_ : c.stage t <;> rw [at_] at passes <;> first | rfl | cases passes
  have requests : (c.stage t).isRequesting = true := by rw [deferred]; rfl
  have free : c.granted = none := by
    by_contra given
    have offers := describes.roles.offer.eq_some requests
    rw [describes.roles.offer_eq given] at offers
    cases offers
  have queues := describes.queues
  rw [free] at queues
  have granted := queues.notifyEndReq t (randPs draws.acceptDelay)
  have fits := describes.held.fits t
  rw [deferred] at fits
  refine ⟨{ c with
      stage := Function.update c.stage t
        (.executing (s.now.after (randPs draws.acceptDelay + randPs draws.latency)))
      offer := none
      granted := some (t, s.now.after (randPs draws.acceptDelay))
      active := t :: c.active }, _, System.sendEndReq_eq t draws s, ⟨?_, ?_, ?_, ?_⟩, rfl⟩
  · have both := granted.notifyTarget t .internalPh (randPs draws.acceptDelay + randPs draws.latency)
      (.executing (s.now.after (randPs draws.acceptDelay + randPs draws.latency)))
      (by rw [deferred]; rfl) rfl (by rw [deferred]; rfl)
    exact both.keep rfl rfl rfl fun _ resumes => Or.inl resumes
  · exact describes.roles.accept requests room (s.now.after_le_after_add _ _)
      (describes.roles.deferred.leave passes rfl)
  · exact describes.held.move rfl rfl (by rw [deferred]; rfl) rfl (fun _ _ => rfl)
      ⟨fits.refCount_eq, fits.acceptable, fits.answered⟩
  · exact describes.logged.move rfl rfl (by rw [deferred]; rfl) rfl fun _ _ => rfl

/-- The target sends the pending response. -/
theorem sendResponse (describes : Describes c s) {t : TransId}
    (pending : s.target.nextResponsePending = some t)
    (silent : s.target.responseInProgress = false) :
    ∃ c' s', s.sendResponse t = .ok s' ∧
      Describes c' { s' with target.nextResponsePending := none } ∧ c'.active = c.active ∧
      s'.members = { s.members with responseInProgress := true } := by
  have passes := describes.roles.ready.passes pending
  have ready : c.stage t = .ready := by
    cases at_ : c.stage t <;> rw [at_] at passes <;> first | rfl | cases passes
  have free : c.response = none := by
    have equal := describes.roles.response_eq
    change s.target.responseInProgress = _ at equal
    rw [silent] at equal
    exact Option.isNone_iff_eq_none.mp (Option.isSome_eq_false_iff.mp equal.symm)
  have fits := describes.held.fits t
  rw [ready] at fits
  refine ⟨{ c with
      stage := Function.update c.stage t (.begun (s.now.after 0))
      response := some t }, _, System.sendResponse_eq t s, ⟨?_, ?_, ?_, ?_⟩, rfl, rfl⟩
  · have sent := describes.queues.notifyInitiator t 0 (.begun (s.now.after 0)) (by rw [ready]; rfl) rfl (by rw [ready]; rfl)
    exact sent.keep rfl rfl rfl fun _ resumes => Or.inl resumes
  · refine describes.roles.respond (by rw [ready]; rfl) free ?_
      (describes.roles.ready.leave passes rfl)
    intro due given
    have before := describes.roles.granted_before t due given
    rw [ready] at before
    exact lt_of_le_of_lt before (s.now.lt_after 0)
  · exact describes.held.move rfl rfl (by rw [ready]; rfl) rfl (fun _ _ => rfl)
      ⟨fits.refCount_eq, fits.acceptable, fits.answered⟩
  · exact describes.logged.move rfl rfl (by rw [ready]; rfl) rfl fun _ _ => rfl

/-- `if (next_response_pending)` -/
theorem sendNextResponse (describes : Describes c s)
    (silent : s.target.responseInProgress = false) :
    ∃ c' s', s.sendNextResponse = .ok s' ∧ Describes c' s' ∧ c'.active = c.active ∧
      s'.target.nextResponsePending = none := by
  cases pending : s.target.nextResponsePending with
  | none =>
      refine ⟨c, s, ?_, describes, rfl, pending⟩
      rw [System.sendNextResponse, pending]
  | some next =>
      rcases describes.sendResponse pending silent with ⟨c', s', sent, later, active, -⟩
      refine ⟨c', _, ?_, later, active, rfl⟩
      rw [System.sendNextResponse, pending]
      dsimp only
      rw [sent]
      rfl

/-- `if (end_req_pending)` -/
theorem sendPendingEndReq (describes : Describes c s) (room : c.active.length ≤ 1)
    (draws : Draws) :
    ∃ c' s', s.sendPendingEndReq draws = .ok s' ∧ Describes c' s' ∧
      s'.target.endReqPending = none ∧
      s'.target.nextResponsePending = s.target.nextResponsePending := by
  cases pending : s.target.endReqPending with
  | none =>
      refine ⟨c, s, ?_, describes, pending, rfl⟩
      rw [System.sendPendingEndReq, pending]
  | some t =>
      rcases describes.sendEndReq pending room draws with ⟨c', sent, accepted, later, members⟩
      refine ⟨c', _, ?_, later, rfl, congrArg Members.nextResponsePending members⟩
      rw [System.sendPendingEndReq, pending]
      dsimp only
      rw [accepted]
      rfl

end Describes

namespace Rests

/-- Two active transactions besides one that executes would be three. -/
theorem next_empty (rests : Rests c s) {t : TransId} {due : Stamp}
    (executing : c.stage t = .executing due) : s.target.nextResponsePending = none := by
  cases stored : s.target.nextResponsePending with
  | none => rfl
  | some u =>
      have ready : c.stage u = .ready := by
        have passes := rests.roles.ready.passes stored
        cases at_ : c.stage u <;> rw [at_] at passes <;> first | rfl | cases passes
      have responding : s.target.responseInProgress = true :=
        rests.waits.ready (by rw [System.members, stored]; exact Option.some_ne_none u)
      have equal := rests.roles.response_eq
      change s.target.responseInProgress = _ at equal
      rw [responding] at equal
      rcases Option.isSome_iff_exists.mp equal.symm with ⟨v, response⟩
      have responds := rests.roles.response.passes response
      have three : [t, u, v].Nodup := by
        have apart : u ≠ t ∧ v ≠ t ∧ u ≠ v := by
          refine ⟨?_, ?_, ?_⟩ <;> rintro rfl
          · rw [executing] at ready
            cases ready
          · rw [executing] at responds
            cases responds
          · rw [ready] at responds
            cases responds
        simp [apart.1.symm, apart.2.1.symm, apart.2.2]
      have within : [t, u, v] ⊆ c.active := by
        intro w member
        rw [rests.roles.active.mem_iff]
        simp only [List.mem_cons, List.not_mem_nil, or_false] at member
        rcases member with rfl | rfl | rfl
        · rw [executing]
          rfl
        · rw [ready]
          rfl
        · cases at_ : c.stage w <;> rw [at_] at responds <;> first | rfl | cases responds
      have count := (three.subperm within).length_le
      have bound := rests.roles.active_le
      rw [List.length_cons, List.length_cons, List.length_singleton] at count
      omega

/-- `BEGIN_REQ` at the target. -/
theorem beginReq (rests : Rests c s)
    (split : s.target.peq = before ++ entry :: after) (least : s.Least entry.due)
    (phase : entry.phase = .beginReq) (draws : Draws) :
    ∃ c' s', System.targetBeginReq entry.trans draws
        { s with now := entry.due, target.peq := before ++ after } = .ok s' ∧
      Rests c' s' := by
  rcases rests.due_target split with ⟨queued, later⟩
  rw [phase] at queued
  have offered := Stage.atTarget_beginReq queued
  have fits := rests.held.fits entry.trans
  rw [offered] at fits
  let acquired := System.acquire entry.trans
    { s with now := entry.due, target.peq := before ++ after }
  have payload : acquired.payload = Function.update s.payload entry.trans
      { s.payload entry.trans with refCount := (s.payload entry.trans).refCount + 1 } := rfl
  have deferred : Describes
      { c with stage := Function.update c.stage entry.trans .deferred }
      { acquired with target.endReqPending := some entry.trans } := by
    refine ⟨?_, (rests.roles.advance later).defer offered, ?_, ?_⟩
    · exact (rests.queues.takeTarget split least _ rfl rfl).keep rfl rfl rfl
        fun _ resumes => Or.inl resumes
    · refine rests.held.move rfl rfl (by rw [offered]; rfl) rfl
        (fun u different => by rw [payload, Function.update_of_ne different]) ?_
      rw [payload, Function.update_self]
      exact ⟨congrArg (· + 1) fits.refCount_eq,
        fun _ => ⟨(fits.acceptable rfl).1, (fits.acceptable rfl).2, (fits.acceptable rfl).3⟩,
        fun answered => absurd answered Bool.false_ne_true⟩
    · exact rests.logged.move rfl rfl (by rw [offered]; rfl) rfl
        fun u _ => System.label_eq payload rfl u
  by_cases full : s.target.nTrans = 2
  · refine ⟨_, _, if_pos full, deferred, ⟨fun _ => full, rests.waits.ready⟩⟩
  · have room : c.active.length ≤ 1 := by
      have count := rests.roles.nTrans_eq
      have bound := rests.roles.active_le
      change s.target.nTrans = _ at count
      omega
    rcases deferred.sendEndReq rfl room draws with ⟨c', sent, accepted, describes, members⟩
    refine ⟨c', _, ?_, describes, ⟨fun pending => absurd rfl pending, ?_⟩⟩
    · have clear : s.target.endReqPending = none := rests.roles.defer_empty offered
      rw [System.sendEndReq_eq] at accepted
      cases accepted
      refine (if_neg full).trans (congrArg Except.ok ?_)
      exact (System.clear_endReqPending (by exact clear)).symm
    · change sent.1.members.nextResponsePending ≠ none → sent.1.members.responseInProgress = true
      rw [members]
      exact rests.waits.ready

/-- `internal_ph` at the target. -/
theorem internal (rests : Rests c s)
    (split : s.target.peq = before ++ entry :: after) (least : s.Least entry.due)
    (phase : entry.phase = .internalPh) (draws : Draws) :
    ∃ c' s', System.targetInternal entry.trans draws
        { s with now := entry.due, target.peq := before ++ after } = .ok s' ∧
      Rests c' s' := by
  rcases rests.due_target split with ⟨queued, later⟩
  rw [phase] at queued
  have executing := Stage.atTarget_internal queued
  have fits := rests.held.fits entry.trans
  rw [executing] at fits
  have empty := rests.next_empty executing
  let executed : System :=
    { s with
      now := entry.due
      payload := Function.update s.payload entry.trans
        { s.payload entry.trans with responseStatus := .ok }
      initiator.data := if (s.payload entry.trans).command = .read then
          Function.update s.initiator.data (s.payload entry.trans).dataPtr draws.word
        else s.initiator.data
      target.peq := before ++ after }
  have payload : executed.payload = Function.update s.payload entry.trans
      { s.payload entry.trans with responseStatus := .ok } := rfl
  have ready : Describes
      { c with stage := Function.update c.stage entry.trans .ready }
      { executed with target.nextResponsePending := some entry.trans } := by
    refine ⟨?_, (rests.roles.advance later).keepResponse executing le_rfl empty, ?_, ?_⟩
    · exact (rests.queues.takeTarget split least _ rfl rfl).keep rfl rfl rfl
        fun _ resumes => Or.inl resumes
    · refine rests.held.move rfl rfl (by rw [executing]; rfl) rfl
        (fun u different => by rw [payload, Function.update_of_ne different]) ?_
      rw [payload, Function.update_self]
      exact ⟨fits.refCount_eq,
        fun _ => ⟨(fits.acceptable rfl).1, (fits.acceptable rfl).2, (fits.acceptable rfl).3⟩,
        fun _ => rfl⟩
    · exact rests.logged.move rfl rfl (by rw [executing]; rfl) rfl
        fun u _ => System.label_eq payload rfl u
  rw [System.targetInternal, System.execute_eq]
  change ∃ c' s', (if executed.target.responseInProgress = true then
      if executed.target.nextResponsePending.isSome then .error .twoPendingResponses
      else .ok { executed with target.nextResponsePending := some entry.trans }
    else executed.sendResponse entry.trans) = .ok s' ∧ Rests c' s'
  by_cases responding : executed.target.responseInProgress = true
  · refine ⟨_, _, ?_, ready, ⟨rests.waits.deferred, fun _ => responding⟩⟩
    have clear : executed.target.nextResponsePending = none := empty
    rw [if_pos responding, clear]
    rfl
  · rcases ready.sendResponse rfl (Bool.eq_false_iff.mpr responding) with
      ⟨c', s', sent, describes, -, members⟩
    refine ⟨c', _, ?_, describes, ⟨?_, fun pending => absurd rfl pending⟩⟩
    · rw [System.sendResponse_eq] at sent
      cases sent
      refine (if_neg responding).trans (congrArg Except.ok ?_)
      exact (System.clear_nextResponsePending (by exact empty)).symm
    · change s'.members.endReqPending ≠ none → s'.members.nTrans = 2
      rw [members]
      exact rests.waits.deferred

/-- `END_RESP` at the target. -/
theorem endResp (rests : Rests c s)
    (split : s.target.peq = before ++ entry :: after) (least : s.Least entry.due)
    (phase : entry.phase = .endResp) (draws : Draws) :
    ∃ c' s', System.targetEndResp entry.trans draws
        { s with now := entry.due, target.peq := before ++ after } = .ok s' ∧
      Rests c' s' := by
  rcases rests.due_target split with ⟨queued, later⟩
  rw [phase] at queued
  have ending := Stage.atTarget_endResp queued
  have fits := rests.held.fits entry.trans
  rw [ending] at fits
  let finished : System :=
    { s with
      now := entry.due
      payload := Function.update s.payload entry.trans
        { s.payload entry.trans with refCount := 0 }
      initiator.mm := s.initiator.mm.free entry.trans
      target.peq := before ++ after
      target.nTrans := s.target.nTrans - 1
      target.responseInProgress := false }
  have payload : finished.payload = Function.update s.payload entry.trans
      { s.payload entry.trans with refCount := 0 } := rfl
  rcases (rests.roles.advance later).finish ending (c.inUse.erase entry.trans) with ⟨roles, room⟩
  have clear : Describes
      { c with
        stage := Function.update c.stage entry.trans .idle
        response := none
        inUse := c.inUse.erase entry.trans
        active := c.active.erase entry.trans }
      finished := by
    refine ⟨?_, roles, ?_, ?_⟩
    · exact (rests.queues.takeTarget split least _ rfl rfl).keep rfl rfl rfl
        fun _ resumes => Or.inl resumes
    · refine rests.held.free (by rw [ending]; rfl) rfl rfl rfl
        (fun u different => by rw [payload, Function.update_of_ne different]) ?_
      rw [payload, Function.update_self]
    · exact rests.logged.move rfl rfl (by rw [ending]; rfl) rfl
        fun u _ => System.label_eq payload rfl u
  rcases clear.sendNextResponse rfl with ⟨c₁, s₁, next, describes, active, noResponse⟩
  rcases describes.sendPendingEndReq (by rw [active]; exact room) draws with
    ⟨c', s', accepted, settled, noRequest, same⟩
  refine ⟨c', s', ?_, settled, ⟨fun pending => absurd noRequest pending, fun pending => ?_⟩⟩
  · have responding : s.target.responseInProgress = true := by
      have equal := rests.roles.response_eq
      change s.target.responseInProgress = _ at equal
      rw [equal, rests.roles.response.eq_some (by rw [ending]; rfl)]
      rfl
    rw [System.targetEndResp, if_pos responding, System.release_last (by exact fits.refCount_eq)]
    change (finished.sendNextResponse.bind fun s => s.sendPendingEndReq draws) = _
    rw [next]
    exact accepted
  · exact absurd (same.trans noResponse) pending

/-- `END_REQ` at the initiator. -/
theorem endReq (rests : Rests c s)
    (split : s.initiator.peq = before ++ entry :: after) (least : s.Least entry.due)
    (phase : entry.phase = .endReq) (draws : Draws) :
    ∃ c' s', System.initiatorPeqCb entry.trans .endReq draws
        { s with now := entry.due, initiator.peq := before ++ after } = .ok s' ∧
      Rests c' s' := by
  rcases rests.queues.takeEndReq split least phase with ⟨given, queues⟩
  refine ⟨{ c with granted := none }, System.endRequest
    { s with now := entry.due, initiator.peq := before ++ after }, rfl, ⟨?_, ?_, ?_, ?_⟩, ?_⟩
  · refine queues.keep rfl rfl rfl fun due resumes => ?_
    rw [System.endRequest] at resumes
    dsimp only at resumes ⊢
    cases standing : s.initiator.thread with
    | waiting i held =>
        rw [standing] at resumes
        cases resumes
        exact Or.inr le_rfl
    | _ =>
        rw [standing] at resumes
        exact Or.inl resumes
  · exact (rests.roles.advance (rests.due_initiator split)).endRequest given
  · exact ⟨rests.held.lends, rests.held.inUse, rests.held.fits, rests.held.created_le⟩
  · exact ⟨rests.logged.unchecked, rests.logged.lines⟩
  · exact ⟨rests.waits.deferred, rests.waits.ready⟩

/-- `BEGIN_RESP` at the initiator. -/
theorem beginResp (rests : Rests c s)
    (split : s.initiator.peq = before ++ entry :: after) (least : s.Least entry.due)
    (queued : (c.stage entry.trans).atInitiator = some (.beginResp, entry.due))
    (phase : entry.phase = .beginResp) (draws : Draws) :
    ∃ c' s', System.initiatorPeqCb entry.trans .beginResp draws
        { s with now := entry.due, initiator.peq := before ++ after } = .ok s' ∧
      Rests c' s' := by
  have begun := Stage.atInitiator_beginResp queued
  have fits := rests.held.fits entry.trans
  rw [begun] at fits
  -- an `END_REQ` of the transaction would be due before
  have never : ∀ due, c.granted ≠ some (entry.trans, due) := by
    intro due given
    have earlier := rests.roles.granted_before _ _ given
    rw [begun] at earlier
    have member : ⟨due, entry.trans, .endReq⟩ ∈ s.initiator.peq :=
      (rests.queues.mem_initiator _).mpr (Or.inr ⟨rfl, given⟩)
    have first := least due (System.mem_pending.mpr (Or.inr (Or.inl ⟨_, member, rfl⟩)))
    exact absurd earlier (not_lt_of_ge first)
  have apart : s.initiator.requestInProgress ≠ some entry.trans := by
    intro same
    have equal := rests.roles.request_eq
    change s.initiator.requestInProgress = _ at equal
    rw [same, eq_comm, Option.or_eq_some_iff, Option.map_eq_some_iff] at equal
    rcases equal with offers | ⟨-, ⟨u, due⟩, given, rfl⟩
    · have requests := rests.roles.offer.passes offers
      rw [begun] at requests
      cases requests
    · exact never due given
  let checked : System :=
    { s with
      now := entry.due
      payload := Function.update s.payload entry.trans
        { s.payload entry.trans with refCount := 1 }
      initiator.peq := before ++ after
      log := s.log ++ [Line.check (s.payload entry.trans).address (s.payload entry.trans).command
        (s.initiator.data (s.payload entry.trans).dataPtr)] }
  have payload : checked.payload = Function.update s.payload entry.trans
      { s.payload entry.trans with refCount := 1 } := rfl
  have acceptable : (checked.payload entry.trans).Acceptable := by
    rw [payload, Function.update_self]
    exact ⟨(fits.acceptable rfl).1, (fits.acceptable rfl).2, (fits.acceptable rfl).3⟩
  refine ⟨{ c with
      stage := Function.update c.stage entry.trans
        (.ending (entry.due.after (randPs draws.responseDelay)))
      unchecked := c.unchecked.erase entry.trans },
    checked.notifyTarget entry.trans .endResp (randPs draws.responseDelay),
    ?_, ⟨?_, ?_, ?_, ?_⟩, ?_⟩
  · have asks : ¬ ((TlmPhase.beginResp = .endReq) ∨
        s.initiator.requestInProgress = some entry.trans ∧ TlmPhase.beginResp = .beginResp) := by
      rintro (different | ⟨same, -⟩)
      · cases different
      · exact apart same
    rw [System.initiatorPeqCb, System.initiatorPhase, if_neg asks, if_neg (by simp)]
    change (System.checkTransaction entry.trans _).bind _ = _
    rw [System.checkTransaction]
    dsimp only
    rw [if_pos (fits.answered rfl), System.release_eq (by exact fits.refCount_eq)]
    change Except.ok (checked.nbTransportFw entry.trans .endResp (randPs draws.responseDelay)).1 = _
    rw [System.nbTransportFw_eq acceptable]
  · have taken := rests.queues.takeInitiator split least (by rw [phase]; exact nofun)
      .idle rfl rfl
    have sent := taken.notifyTarget entry.trans .endResp (randPs draws.responseDelay)
      (.ending (entry.due.after (randPs draws.responseDelay)))
      (by rw [Function.update_self]; rfl) rfl (by rw [Function.update_self]; rfl)
    rw [Function.update_idem] at sent
    exact sent.keep rfl rfl rfl fun _ resumes => Or.inl resumes
  · exact (rests.roles.advance (rests.due_initiator split)).check begun never _ _
  · refine rests.held.move rfl rfl (by rw [begun]; rfl) rfl
      (fun u different => Function.update_of_ne different _ _) ?_
    have refs : (checked.payload entry.trans).refCount = 1 := by
      rw [payload, Function.update_self]
    exact ⟨refs, fun _ => acceptable, fun answered => absurd answered Bool.false_ne_true⟩
  · exact rests.logged.check rfl rfl (by rw [begun]; rfl) rfl rfl
      fun u => System.label_eq payload rfl u
  · exact ⟨rests.waits.deferred, rests.waits.ready⟩

/-- The part of the loop after the wait. -/
theorem sendRequest (rests : Rests c s) {i : Nat} {t : TransId} {due : Stamp}
    (thread : s.initiator.thread = .notified i t due) (draws : Draws) :
    ∃ c' s', s.sendRequest i t draws = .ok s' ∧ Rests c' s' := by
  rcases rests.roles.send thread (s.now.after (randPs draws.requestDelay)) (t :: c.unchecked)
    with ⟨held, -, roles⟩
  have fits := rests.held.fits t
  rw [held] at fits
  refine ⟨_, _, System.sendRequest_eq (fits.acceptable rfl) i draws, ⟨?_, roles, ?_, ?_⟩, ?_⟩
  · have sent := rests.queues.notifyTarget t .beginReq (randPs draws.requestDelay)
      (.offered (s.now.after (randPs draws.requestDelay))) (by rw [held]; rfl) rfl
      (by rw [held]; rfl)
    refine sent.keep rfl rfl rfl fun resumed resumes => Or.inr ?_
    cases resumes
    exact (s.now.lt_after _).le
  · exact rests.held.move rfl rfl (by rw [held]; rfl) rfl (fun _ _ => rfl)
      ⟨fits.refCount_eq, fits.acceptable, fun answered => absurd answered Bool.false_ne_true⟩
  · exact rests.logged.send rfl rfl (by rw [held]; rfl) rfl rfl fun _ => rfl
  · exact ⟨rests.waits.deferred, rests.waits.ready⟩

/-- While the thread holds no transaction, at most three are in use. -/
theorem inUse_le (rests : Rests c s) (empty : s.initiator.thread.held? = none) :
    c.inUse.length ≤ 3 := by
  have within : c.inUse ⊆ c.offer.toList ++ c.active := by
    intro t member
    have live := (rests.held.inUse.mem_iff t).mp member
    have notHeld : (c.stage t).isHeld = false := by
      have slot := rests.roles.held
      change Slot Stage.isHeld c.stage s.initiator.thread.held? at slot
      rw [empty] at slot
      exact slot.fails t
    rw [List.mem_append, Option.mem_toList, ← rests.roles.offer t,
      rests.roles.active.mem_iff]
    cases at_ : c.stage t with
    | idle =>
        rw [at_] at live
        cases live
    | held =>
        rw [at_] at notHeld
        cases notHeld
    | offered => exact Or.inl rfl
    | deferred => exact Or.inl rfl
    | _ => exact Or.inr rfl
  have count := (rests.held.inUse.nodup.subperm within).length_le
  have offers : c.offer.toList.length ≤ 1 := by cases c.offer <;> simp
  have bound := rests.roles.active_le
  rw [List.length_append] at count
  omega

/-- The part of the loop before the wait. -/
theorem newTransaction (rests : Rests c s) {i : Nat} {due : Stamp}
    (thread : s.initiator.thread = .paused i due) (draws : Draws) :
    ∃ c' s', s.newTransaction i draws = .ok s' ∧ Rests c' s' := by
  have empty : s.initiator.thread.held? = none := by rw [thread]; rfl
  have few := rests.inUse_le empty
  let t := s.initiator.mm.allocate.1
  let allocated : System :=
    { s with
      payload := Function.update s.payload t
        { command := randCommand draws.cmd
          address := UInt64.ofNat draws.adr
          dataPtr := i % 16
          dataLength := 4
          streamingWidth := 4
          byteEnablePtr := none
          dmiAllowed := false
          responseStatus := .incomplete
          refCount := (s.payload t).refCount + 1 }
      initiator.mm := s.initiator.mm.allocate.2
      initiator.data := if randCommand draws.cmd = .write then
          Function.update s.initiator.data (i % 16) draws.word
        else s.initiator.data }
  have idle : c.stage t = .idle := by
    have fresh : t ∉ c.inUse := rests.held.lends.allocate.1
    rw [rests.held.inUse.mem_iff, Bool.not_eq_true] at fresh
    cases at_ : c.stage t <;> rw [at_] at fresh <;> first | rfl | cases fresh
  have fits := rests.held.fits t
  rw [idle] at fits
  have hold : ∀ thread : Thread, thread.held? = some t →
      (∀ due, thread.due? = some due → s.now ≤ due) →
      (∀ i u, thread = .waiting i u → s.initiator.requestInProgress ≠ none) →
      (∀ i u due, thread = .notified i u due → s.initiator.requestInProgress = none) →
      Rests { c with
          stage := Function.update c.stage t .held
          inUse := t :: c.inUse }
        { allocated with initiator.thread := thread } := by
    intro thread holds resumes waits free
    refine ⟨⟨?_, rests.roles.hold idle empty holds waits free _, ?_, ?_⟩,
      ⟨rests.waits.deferred, rests.waits.ready⟩⟩
    · refine (rests.queues.update t .held (by rw [idle]; rfl) (by rw [idle]; rfl)).keep
        rfl rfl rfl fun due paused => Or.inr (resumes due paused)
    · refine rests.held.allocate rfl rfl rfl idle rfl rfl
        (fun u different => Function.update_of_ne different _ _) ?_ few
      dsimp only [allocated]
      rw [Function.update_self]
      exact ⟨congrArg (· + 1) fits.refCount_eq, fun _ => ⟨rfl, by simp, by simp⟩,
        fun answered => absurd answered Bool.false_ne_true⟩
    · refine rests.logged.move rfl rfl (by rw [idle]; rfl) rfl fun u member => ?_
      have different : u ≠ t := by
        rintro rfl
        rw [rests.logged.unchecked.mem_iff, idle] at member
        cases member
      dsimp only [allocated, System.label]
      rw [Function.update_of_ne different]
  rw [System.newTransaction_eq]
  change ∃ c' s', (if s.initiator.requestInProgress.isSome then
      .ok { allocated with initiator.thread := .waiting i t }
    else allocated.sendRequest i t draws) = .ok s' ∧ Rests c' s'
  by_cases busy : s.initiator.requestInProgress.isSome = true
  · refine ⟨_, _, if_pos busy, hold (.waiting i t) rfl nofun ?_ nofun⟩
    intro _ _ _ idle
    rw [idle] at busy
    cases busy
  · -- as if the thread had waited until now
    have free : s.initiator.requestInProgress = none :=
      Option.isNone_iff_eq_none.mp (Option.isSome_eq_false_iff.mp (Bool.eq_false_iff.mpr busy))
    have notified := hold (.notified i t s.now) rfl
      (fun _ same => (Option.some.inj same).le) nofun (fun _ _ _ _ => free)
    have acceptable := (notified.held.fits t).acceptable (by
      dsimp only
      rw [Function.update_self]
      rfl)
    rcases notified.sendRequest rfl draws with ⟨c', s', sent, later⟩
    refine ⟨c', s', ?_, later⟩
    rw [System.sendRequest_eq (by exact acceptable)] at sent
    rw [if_neg busy, System.sendRequest_eq (by exact acceptable)]
    exact sent

/-- What the thread is due to do. -/
theorem threadProcess (rests : Rests c s) (total : Nat) (draws : Draws) {due : Stamp}
    (ready : s.initiator.thread.due? = some due) (least : s.Least due) :
    ∃ c' s', System.threadProcess total draws { s with now := due } = .ok s' ∧ Rests c' s' := by
  have later : s.now ≤ due :=
    rests.queues.now_le due (System.mem_pending.mpr (Or.inl ready))
  have now : Rests c { s with now := due } := by
    refine ⟨⟨?_, rests.roles.advance later, ?_, ?_⟩, ⟨rests.waits.deferred, rests.waits.ready⟩⟩
    · exact ⟨rests.queues.mem_target, rests.queues.target_nodup, rests.queues.mem_initiator,
        rests.queues.initiator_nodup, least⟩
    · exact ⟨rests.held.lends, rests.held.inUse, rests.held.fits, rests.held.created_le⟩
    · exact ⟨rests.logged.unchecked, rests.logged.lines⟩
  rw [System.threadProcess]
  cases thread : s.initiator.thread with
  | paused i resumed =>
      dsimp only
      by_cases more : i < total
      · rw [if_pos more]
        exact now.newTransaction thread draws
      · rw [if_neg more]
        refine ⟨c, _, rfl, ⟨?_, ?_, ?_, ?_⟩, ⟨rests.waits.deferred, rests.waits.ready⟩⟩
        · exact now.queues.keep rfl rfl rfl nofun
        · have empty := now.roles.held
          change Slot Stage.isHeld c.stage s.initiator.thread.held? at empty
          rw [thread] at empty
          exact { now.roles with held := empty, waits := nofun, resumes := nofun }
        · exact ⟨rests.held.lends, rests.held.inUse, rests.held.fits, rests.held.created_le⟩
        · exact ⟨rests.logged.unchecked, rests.logged.lines⟩
  | notified i t resumed => exact now.sendRequest thread draws
  | waiting i t =>
      rw [thread] at ready
      cases ready
  | finished =>
      rw [thread] at ready
      cases ready

/-- A step of any process. -/
theorem step (rests : Rests c s) {total : Nat} {result : Except Fault System}
    (step : System.Step total s result) : ∃ c' s', result = .ok s' ∧ Rests c' s' := by
  cases step with
  | thread draws ready least => exact rests.threadProcess total draws ready least
  | @initiatorPeq draws before after entry split least =>
      have here : entry ∈ s.initiator.peq := by simp [split]
      rcases (rests.queues.mem_initiator entry).mp here with queued | ⟨phase, -⟩
      · have phase : entry.phase = .beginResp := by
          cases at_ : c.stage entry.trans <;> rw [at_] at queued <;>
            first | cases queued | exact (congrArg Prod.fst (Option.some.inj queued)).symm
        rw [phase] at queued ⊢
        exact rests.beginResp split least queued phase draws
      · rw [phase]
        exact rests.endReq split least phase draws
  | @targetPeq draws before after entry split least =>
      have queued := (rests.due_target split).1
      cases phase : entry.phase with
      | beginReq => exact rests.beginReq split least phase draws
      | endResp => exact rests.endResp split least phase draws
      | internalPh => exact rests.internal split least phase draws
      | endReq =>
          rw [phase] at queued
          cases at_ : c.stage entry.trans <;> rw [at_] at queued <;> cases queued
      | beginResp =>
          rw [phase] at queued
          cases at_ : c.stage entry.trans <;> rw [at_] at queued <;> cases queued

/-- The modules after construction. -/
theorem new (payload : TransId → Payload) (data : Nat → Int) :
    Rests ⟨fun _ => .idle, none, none, none, [], [], []⟩ (System.new payload data) := by
  have slot : ∀ test : Stage → Bool, test .idle = false →
      Slot test (fun _ : TransId => Stage.idle) none := by
    intro test fails t
    rw [fails]
    exact iff_of_false Bool.false_ne_true nofun
  have roster : ∀ test : Stage → Bool, test .idle = false →
      Roster test (fun _ : TransId => Stage.idle) [] := by
    intro test fails
    refine ⟨List.nodup_nil, fun t => ?_⟩
    rw [fails]
    exact iff_of_false List.not_mem_nil Bool.false_ne_true
  refine ⟨⟨?_, ?_, ?_, ?_⟩, ⟨fun pending => absurd rfl pending, fun pending => absurd rfl pending⟩⟩
  · refine ⟨fun entry => iff_of_false List.not_mem_nil nofun, List.nodup_nil,
      fun entry => iff_of_false List.not_mem_nil ?_, List.nodup_nil, fun due _ => ?_⟩
    · rintro (queued | ⟨-, given⟩)
      · cases queued
      · cases given
    · exact Prod.Lex.toLex_mono (Prod.mk_le_mk.mpr ⟨Nat.zero_le _, Nat.zero_le _⟩)
  · exact {
      offer := slot _ rfl
      request_eq := rfl
      offer_eq := fun absent => absurd rfl absent
      granted_before := nofun
      held := slot _ rfl
      waits := nofun
      resumes := nofun
      deferred := slot _ rfl
      ready := slot _ rfl
      response := slot _ rfl
      response_eq := rfl
      active := roster _ rfl
      nTrans_eq := rfl
      active_le := Nat.zero_le _
    }
  · exact ⟨Mm.lends_new, roster _ rfl,
      fun t => ⟨rfl, nofun, nofun⟩, Nat.zero_le _⟩
  · exact ⟨roster _ rfl, List.Perm.refl _⟩

end Rests

/-- Every state that is reached is described by stages. -/
theorem rests_of_steps {total steps : Nat} {payload : TransId → Payload} {data : Nat → Int}
    (reached : System.Steps total (System.new payload data) steps s) : ∃ c, Rests c s := by
  induction reached with
  | refl => exact ⟨_, Rests.new payload data⟩
  | step earlier last ih =>
      rcases ih with ⟨c, rests⟩
      rcases rests.step last with ⟨c', s', same, later⟩
      cases same
      exact ⟨c', later⟩

/-- No assertion fails, no phase is illegal where it arrives, no second response
has to wait, and every response is a good one.  The target has at most two
transactions, and four are enough for the memory manager. -/
theorem steps_safe {total steps : Nat} {payload : TransId → Payload} {data : Nat → Int}
    (reached : System.Steps total (System.new payload data) steps s) :
    0 ≤ s.target.nTrans ∧ s.target.nTrans ≤ 2 ∧ s.initiator.mm.created ≤ 4 ∧
      ∀ result, System.Step total s result → ∃ next, result = .ok next := by
  rcases rests_of_steps reached with ⟨c, rests⟩
  have count := rests.roles.nTrans_eq
  have bound := rests.roles.active_le
  change s.target.nTrans = _ at count
  refine ⟨by omega, by omega, rests.held.created_le, fun result step => ?_⟩
  rcases rests.step step with ⟨-, next, same, -⟩
  exact ⟨next, same⟩

/-- Three requests, of which the target defers the last. -/
def deferring : Option System :=
  let draws (latency acceptDelay : Nat) : Draws := ⟨7, 1, 3, 0, 0, acceptDelay, latency, 0⟩
  System.run 3
    [(.thread, draws 0 0), (.targetPeq 0, draws 50 0), (.thread, draws 0 0),
      (.initiatorPeq 0, draws 0 0), (.thread, draws 0 0), (.targetPeq 1, draws 60 0),
      (.thread, draws 0 0), (.initiatorPeq 0, draws 0 0), (.thread, draws 0 0),
      (.targetPeq 2, draws 0 0)]
    (System.new (fun _ => ⟨.read, 0, 0, 0, 0, none, false, .incomplete, 0⟩) fun _ => 0)

theorem steps_safe_deferring :
    (deferring.map fun s => (s.target.nTrans, s.target.endReqPending)) = some (2, some 2) ∧
      ∀ s, deferring = some s → s.initiator.mm.created ≤ 4 ∧
        ∀ result, System.Step 3 s result → ∃ next, result = .ok next :=
  ⟨rfl, fun _ ran => (steps_safe (System.steps_of_run ran)).2.2⟩

end SystemcTlm.AtProtocol
