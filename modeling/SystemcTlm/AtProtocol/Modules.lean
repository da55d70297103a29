import SystemcTlm.AtProtocol.MemoryManager
import SystemcTlm.Simulation.Stamp
import SystemcTlm.TlmMemory.Transport

/-!
# `Initiator` and `Target`

The initiator sends transactions through `nb_transport_fw`, the target answers
through `nb_transport_bw`.  Each call only puts the transaction into the payload
event queue of the other module, whose callback runs when the delay is over.

A step of the simulation runs the thread of the initiator, or the callback of one
of the queues, at the least stamp at which something is due.  The results of
`rand()` are arbitrary, and so is the order of what is due at one stamp.  The thread
of the initiator is followed to the end of its loop: the wait and the one call of
`b_transport` after it are left out.
-/

namespace SystemcTlm.AtProtocol

open SystemcTlm.Simulation SystemcTlm.TlmMemory

/-- The phases of the base protocol, and `internal_ph`. -/
inductive TlmPhase
  | beginReq
  | endReq
  | beginResp
  | endResp
  | internalPh
  deriving DecidableEq

/-- `tlm_sync_enum`, what a call of `nb_transport` returns. -/
inductive TlmSyncEnum
  | accepted
  | updated
  | completed
  deriving DecidableEq

/-- The attributes of a transaction.  `dataPtr` is an index of `data`. -/
structure Payload where
  command : TlmCommand
  address : UInt64
  dataPtr : Nat
  dataLength : UInt32
  streamingWidth : UInt32
  byteEnablePtr : Option Nat
  dmiAllowed : Bool
  responseStatus : TlmResponseStatus
  refCount : Nat

/-- An entry of a payload event queue. -/
structure Notified where
  due : Stamp
  trans : TransId
  phase : TlmPhase

/-- Where `thread_process` stands, in iteration `i`. -/
inductive Thread
  /-- In `wait(sc_time)`, and at the start. -/
  | paused (i : Nat) (due : Stamp)
  /-- In `wait(end_request_event)`. -/
  | waiting (i : Nat) (trans : TransId)
  /-- The event has been notified. -/
  | notified (i : Nat) (trans : TransId) (due : Stamp)
  | finished

/-- When the thread runs again. -/
def Thread.due? : Thread → Option Stamp
  | .paused _ due => some due
  | .waiting _ _ => none
  | .notified _ _ due => some due
  | .finished => none

/-- The members of `Initiator`, and where its thread stands. -/
structure Initiator where
  mm : Mm
  data : Nat → Int
  requestInProgress : Option TransId
  peq : List Notified
  thread : Thread

/-- The members of `Target`. -/
structure Target where
  nTrans : Int
  responseInProgress : Bool
  nextResponsePending : Option TransId
  endReqPending : Option TransId
  peq : List Notified

/-- The lines `new` and `check` of the log. -/
inductive Line
  | new (address : UInt64) (command : TlmCommand) (data : Int)
  | check (address : UInt64) (command : TlmCommand) (data : Int)

/-- What ends the simulation. -/
inductive Fault
  /-- An `sc_assert` of the payload. -/
  | assertion
  /-- "Illegal transaction phase received by initiator" -/
  | illegalPhaseAtInitiator
  /-- "Illegal transaction phase END_RESP received by target" -/
  | illegalEndResp
  /-- "Illegal transaction phase received by target" -/
  | illegalPhaseAtTarget
  /-- "Attempt to have two pending responses in target" -/
  | twoPendingResponses
  /-- "Transaction returned with error, response status = " -/
  | responseError (status : TlmResponseStatus)

/-- The two modules at a stamp, the transactions and the lines printed so far. -/
structure System where
  now : Stamp
  payload : TransId → Payload
  initiator : Initiator
  target : Target
  log : List Line

/-- The results of the calls of `rand()` in one step, by what they are for. -/
structure Draws where
  adr : Nat
  cmd : Nat
  word : Int
  requestDelay : Nat
  pause : Nat
  acceptDelay : Nat
  latency : Nat
  responseDelay : Nat

/-- `rand_ps`, on the result of `rand()`. -/
def randPs (rand : Nat) : Nat :=
  let n := rand % 100
  n * n * n / 100

/-- `static_cast<tlm_command>(rand() % 2)` -/
def randCommand (rand : Nat) : TlmCommand :=
  if rand % 2 = 0 then .read else .write

namespace System

/-! ## Payloads and queues -/

/-- `trans.acquire()` -/
def acquire (trans : TransId) (s : System) : System :=
  { s with
    payload := Function.update s.payload trans
      { s.payload trans with refCount := (s.payload trans).refCount + 1 } }

/-- `trans.release()`.  The last reference gives the transaction back to the memory
manager. -/
def release (trans : TransId) (s : System) : Except Fault System :=
  if (s.payload trans).refCount = 0 then .error .assertion
  else
    let count := (s.payload trans).refCount - 1
    let released :=
      { s with
        payload := Function.update s.payload trans { s.payload trans with refCount := count } }
    if count = 0 then
      .ok { released with initiator.mm := released.initiator.mm.free trans }
    else .ok released

/-- `trans.set_response_status(status)` -/
def setResponseStatus (trans : TransId) (status : TlmResponseStatus) (s : System) : System :=
  { s with
    payload := Function.update s.payload trans
      { s.payload trans with responseStatus := status } }

/-- `m_peq.notify` of the initiator. -/
def notifyInitiator (trans : TransId) (phase : TlmPhase) (delay : Nat) (s : System) : System :=
  { s with initiator.peq := s.initiator.peq ++ [⟨s.now.after delay, trans, phase⟩] }

/-- `m_peq.notify` of the target. -/
def notifyTarget (trans : TransId) (phase : TlmPhase) (delay : Nat) (s : System) : System :=
  { s with target.peq := s.target.peq ++ [⟨s.now.after delay, trans, phase⟩] }

/-- `Target::nb_transport_fw` -/
def nbTransportFw (trans : TransId) (phase : TlmPhase) (delay : Nat) (s : System) :
    System × TlmSyncEnum :=
  let payload := s.payload trans
  if payload.byteEnablePtr.isSome then
    (s.setResponseStatus trans .byteEnableError, .completed)
  else if 4 < payload.dataLength ∨ payload.streamingWidth < payload.dataLength then
    (s.setResponseStatus trans .burstError, .completed)
  else (s.notifyTarget trans phase delay, .accepted)

/-- `Initiator::nb_transport_bw` -/
def nbTransportBw (trans : TransId) (phase : TlmPhase) (delay : Nat) (s : System) :
    System × TlmSyncEnum :=
  (s.notifyInitiator trans phase delay, .accepted)

/-! ## The target -/

/-- `Target::send_end_req` -/
def sendEndReq (trans : TransId) (draws : Draws) (s : System) :
    Except Fault (System × TlmSyncEnum) :=
  let acceptDelay := randPs draws.acceptDelay
  let (s, status) := s.nbTransportBw trans .endReq acceptDelay
  if status = .completed then (s.release trans).map fun s => (s, status)
  else
    let s := s.notifyTarget trans .internalPh (acceptDelay + randPs draws.latency)
    .ok ({ s with target.nTrans := s.target.nTrans + 1 }, status)

/-- `Target::send_response` -/
def sendResponse (trans : TransId) (s : System) : Except Fault System :=
  let s := { s with target.responseInProgress := true }
  let (s, status) := s.nbTransportBw trans .beginResp 0
  match status with
  | .updated => .ok (s.notifyTarget trans .beginResp 0)
  | .completed =>
      (s.release trans).map fun s =>
        { s with target.nTrans := s.target.nTrans - 1, target.responseInProgress := false }
  | .accepted => .ok s

/-- `case tlm::BEGIN_REQ` -/
def targetBeginReq (trans : TransId) (draws : Draws) (s : System) : Except Fault System :=
  let s := s.acquire trans
  if s.target.nTrans = 2 then .ok { s with target.endReqPending := some trans }
  else (s.sendEndReq trans draws).map Prod.fst

/-- `if (next_response_pending)` -/
def sendNextResponse (s : System) : Except Fault System :=
  match s.target.nextResponsePending with
  | some next =>
      (s.sendResponse next).map fun s => { s with target.nextResponsePending := none }
  | none => .ok s

/-- `if (end_req_pending)` -/
def sendPendingEndReq (draws : Draws) (s : System) : Except Fault System :=
  match s.target.endReqPending with
  | some pending =>
      (s.sendEndReq pending draws).map fun sent => { sent.1 with target.endReqPending := none }
  | none => .ok s

/-- `case tlm::END_RESP` -/
def targetEndResp (trans : TransId) (draws : Draws) (s : System) : Except Fault System :=
  if s.target.responseInProgress then do
    let s ← s.release trans
    let s ← sendNextResponse
      { s with target.nTrans := s.target.nTrans - 1, target.responseInProgress := false }
    s.sendPendingEndReq draws
  else .error .illegalEndResp

/-- The read or write, which is the `default` case. -/
def execute (trans : TransId) (draws : Draws) (s : System) : System :=
  let payload := s.payload trans
  let s := if payload.command = .read then
      { s with initiator.data := Function.update s.initiator.data payload.dataPtr draws.word }
    else s
  s.setResponseStatus trans .ok

/-- `if (phase == internal_ph)` -/
def targetInternal (trans : TransId) (draws : Draws) (s : System) : Except Fault System :=
  let s := s.execute trans draws
  if s.target.responseInProgress then
    if s.target.nextResponsePending.isSome then .error .twoPendingResponses
    else .ok { s with target.nextResponsePending := some trans }
  else s.sendResponse trans

/-- `Target::peq_cb` -/
def targetPeqCb (trans : TransId) (phase : TlmPhase) (draws : Draws) (s : System) :
    Except Fault System :=
  match phase with
  | .beginReq => s.targetBeginReq trans draws
  | .endResp => s.targetEndResp trans draws
  | .endReq => .error .illegalPhaseAtTarget
  | .beginResp => .error .illegalPhaseAtTarget
  | .internalPh => s.targetInternal trans draws

/-! ## The initiator -/

/-- `Initiator::check_transaction` -/
def checkTransaction (trans : TransId) (s : System) : Except Fault System :=
  let payload := s.payload trans
  if payload.responseStatus = .ok then
    release trans
      { s with
        log := s.log ++
          [Line.check payload.address payload.command (s.initiator.data payload.dataPtr)] }
  else .error (.responseError payload.responseStatus)

/-- `request_in_progress = 0`, and `end_request_event.notify()`, which reaches the
thread only if it waits. -/
def endRequest (s : System) : System :=
  { s with
    initiator.requestInProgress := none
    initiator.thread := match s.initiator.thread with
      | .waiting i held => .notified i held s.now
      | thread => thread }

/-- The end of the `BEGIN_REQ` phase in `Initiator::peq_cb`. -/
def initiatorPhase (trans : TransId) (phase : TlmPhase) (s : System) : Except Fault System :=
  if phase = .endReq ∨ s.initiator.requestInProgress = some trans ∧ phase = .beginResp then
    .ok s.endRequest
  else if phase = .beginReq ∨ phase = .endResp then .error .illegalPhaseAtInitiator
  else .ok s

/-- `Initiator::peq_cb` -/
def initiatorPeqCb (trans : TransId) (phase : TlmPhase) (draws : Draws) (s : System) :
    Except Fault System := do
  let s ← s.initiatorPhase trans phase
  if phase = .beginResp then
    let s ← s.checkTransaction trans
    return (s.nbTransportFw trans .endResp (randPs draws.responseDelay)).1
  else return s

/-- The part of the loop of `thread_process` after the wait for the request in
progress. -/
def sendRequest (i : Nat) (trans : TransId) (draws : Draws) (s : System) :
    Except Fault System := do
  let payload := s.payload trans
  let s :=
    { s with
      initiator.requestInProgress := some trans
      log := s.log ++ [Line.new payload.address payload.command (s.initiator.data (i % 16))] }
  let delay := randPs draws.requestDelay
  let (s, status) := s.nbTransportFw trans .beginReq delay
  let s ← match status with
    | .updated => pure (s.notifyInitiator trans .beginReq delay)
    | .completed => checkTransaction trans { s with initiator.requestInProgress := none }
    | .accepted => pure s
  return { s with initiator.thread := .paused (i + 1) (s.now.after (randPs draws.pause)) }

/-- The attributes that `thread_process` sets. -/
def setAttributes (i : Nat) (trans : TransId) (draws : Draws) (s : System) : System :=
  { s with
    payload := Function.update s.payload trans
      { command := randCommand draws.cmd
        address := UInt64.ofNat draws.adr
        dataPtr := i % 16
        dataLength := 4
        streamingWidth := 4
        byteEnablePtr := none
        dmiAllowed := false
        responseStatus := .incomplete
        refCount := (s.payload trans).refCount } }

/-- The part of the loop before the wait. -/
def newTransaction (i : Nat) (draws : Draws) (s : System) : Except Fault System :=
  let s := if randCommand draws.cmd = .write then
      { s with initiator.data := Function.update s.initiator.data (i % 16) draws.word }
    else s
  let allocated := s.initiator.mm.allocate
  let s := acquire allocated.1 { s with initiator.mm := allocated.2 }
  let s := s.setAttributes i allocated.1 draws
  if s.initiator.requestInProgress.isSome then
    .ok { s with initiator.thread := .waiting i allocated.1 }
  else s.sendRequest i allocated.1 draws

/-- The thread runs until it waits again.  The loop makes `total` iterations. -/
def threadProcess (total : Nat) (draws : Draws) (s : System) : Except Fault System :=
  match s.initiator.thread with
  | .paused i _ =>
      if i < total then s.newTransaction i draws
      else .ok { s with initiator.thread := .finished }
  | .notified i held _ => s.sendRequest i held draws
  | .waiting _ _ => .ok s
  | .finished => .ok s

/-! ## Steps -/

/-- The stamps at which something is due. -/
def pending (s : System) : List Stamp :=
  s.initiator.thread.due?.toList ++ s.initiator.peq.map Notified.due ++
    s.target.peq.map Notified.due

/-- Nothing is due before this stamp. -/
def Least (s : System) (due : Stamp) : Prop :=
  ∀ other ∈ s.pending, due ≤ other

/-- The modules after construction, with any contents of `data`. -/
def new (payload : TransId → Payload) (data : Nat → Int) : System where
  now := toLex (0, 0)
  payload := fun place => { payload place with refCount := 0 }
  initiator :=
    { mm := Mm.new
      data := data
      requestInProgress := none
      peq := []
      thread := .paused 0 (toLex (0, 0)) }
  target :=
    { nTrans := 0
      responseInProgress := false
      nextResponsePending := none
      endReqPending := none
      peq := [] }
  log := []

/-- One activation of a process. -/
inductive Step (total : Nat) (s : System) : Except Fault System → Prop
  | thread (draws : Draws) {due : Stamp} (ready : s.initiator.thread.due? = some due)
      (least : s.Least due) : Step total s (threadProcess total draws { s with now := due })
  | initiatorPeq (draws : Draws) {before after : List Notified} {entry : Notified}
      (split : s.initiator.peq = before ++ entry :: after) (least : s.Least entry.due) :
      Step total s (initiatorPeqCb entry.trans entry.phase draws
        { s with now := entry.due, initiator.peq := before ++ after })
  | targetPeq (draws : Draws) {before after : List Notified} {entry : Notified}
      (split : s.target.peq = before ++ entry :: after) (least : s.Least entry.due) :
      Step total s (targetPeqCb entry.trans entry.phase draws
        { s with now := entry.due, target.peq := before ++ after })

/-- Which process runs.  A place is one of the queue. -/
inductive Activation
  | thread
  | initiatorPeq (place : Nat)
  | targetPeq (place : Nat)

instance (s : System) (due : Stamp) : Decidable (s.Least due) :=
  inferInstanceAs (Decidable (∀ other ∈ s.pending, due ≤ other))

/-- The step of this process, if it is due. -/
def activate (total : Nat) (which : Activation) (draws : Draws) (s : System) :
    Option (Except Fault System) :=
  match which with
  | .thread =>
      s.initiator.thread.due?.bind fun due =>
        if s.Least due then some (threadProcess total draws { s with now := due }) else none
  | .initiatorPeq place =>
      s.initiator.peq[place]?.bind fun entry =>
        if s.Least entry.due then
          some (initiatorPeqCb entry.trans entry.phase draws
            { s with now := entry.due, initiator.peq := s.initiator.peq.eraseIdx place })
        else none
  | .targetPeq place =>
      s.target.peq[place]?.bind fun entry =>
        if s.Least entry.due then
          some (targetPeqCb entry.trans entry.phase draws
            { s with now := entry.due, target.peq := s.target.peq.eraseIdx place })
        else none

/-- The processes run in this order. -/
def run (total : Nat) : List (Activation × Draws) → System → Option System
  | [], s => some s
  | (which, draws) :: rest, s =>
      match s.activate total which draws with
      | some (.ok next) => next.run total rest
      | _ => none

/-- The states after `steps` steps from `start`. -/
inductive Steps (total : Nat) (start : System) : Nat → System → Prop
  | refl : Steps total start 0 start
  | step {steps : Nat} {s next : System} (earlier : Steps total start steps s)
      (last : Step total s (.ok next)) : Steps total start (steps + 1) next

theorem eq_append_of_getElem? {peq : List Notified} {place : Nat} {entry : Notified}
    (here : peq[place]? = some entry) :
    peq = peq.take place ++ entry :: peq.drop (place + 1) ∧
      peq.eraseIdx place = peq.take place ++ peq.drop (place + 1) := by
  rcases List.getElem?_eq_some_iff.mp here with ⟨inside, rfl⟩
  refine ⟨?_, List.eraseIdx_eq_take_drop_succ peq place⟩
  rw [List.getElem_cons_drop, List.take_append_drop]

theorem step_of_activate {total : Nat} {which : Activation} {draws : Draws} {s : System}
    {result : Except Fault System} (made : s.activate total which draws = some result) :
    Step total s result := by
  cases which with
  | thread =>
      rcases Option.bind_eq_some_iff.mp made with ⟨due, ready, least⟩
      split_ifs at least with first
      cases least
      exact .thread draws ready first
  | initiatorPeq place =>
      rcases Option.bind_eq_some_iff.mp made with ⟨entry, here, least⟩
      rcases eq_append_of_getElem? here with ⟨split, rest⟩
      split_ifs at least with first
      cases least
      rw [rest]
      exact .initiatorPeq draws split first
  | targetPeq place =>
      rcases Option.bind_eq_some_iff.mp made with ⟨entry, here, least⟩
      rcases eq_append_of_getElem? here with ⟨split, rest⟩
      split_ifs at least with first
      cases least
      rw [rest]
      exact .targetPeq draws split first

theorem Steps.trans {total steps more : Nat} {start middle s : System}
    (first : Steps total start steps middle) (second : Steps total middle more s) :
    Steps total start (steps + more) s := by
  induction second with
  | refl => exact first
  | step earlier last ih => exact ih.step last

theorem steps_of_run {total : Nat} {order : List (Activation × Draws)} {start s : System}
    (ran : start.run total order = some s) : Steps total start order.length s := by
  induction order generalizing start with
  | nil =>
      cases ran
      exact .refl
  | cons head rest ih =>
      rw [run] at ran
      split at ran
      · rename_i next made
        rw [List.length_cons, Nat.add_comm]
        exact (Steps.refl.step (step_of_activate made)).trans (ih ran)
      · cases ran

end System

end SystemcTlm.AtProtocol
