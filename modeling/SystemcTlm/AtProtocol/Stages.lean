import SystemcTlm.AtProtocol.Modules
import SystemcTlm.Container.Roster

/-!
# The stages of a transaction

A transaction passes through the stages from its allocation to its release.  The
stage says which phase of it is on its way, how many references are held to it,
and what the two modules store about it.  `Queues`, `Roles`, `Held` and `Logged`
tie the queues, the members of the modules, the payloads and the log to the
stages of all transactions.
-/

namespace SystemcTlm.AtProtocol

open SystemcTlm.Container SystemcTlm.Simulation SystemcTlm.TlmMemory

/-- Where a transaction stands between its allocation and its release. -/
inductive Stage
  | idle
  /-- Allocated, while the thread waits for the request in progress. -/
  | held
  /-- `BEGIN_REQ` is on its way. -/
  | offered (due : Stamp)
  /-- The `END_REQ` of the target is pending. -/
  | deferred
  /-- The internal phase is on its way. -/
  | executing (due : Stamp)
  /-- The response of the target is pending. -/
  | ready
  /-- `BEGIN_RESP` is on its way. -/
  | begun (due : Stamp)
  /-- `END_RESP` is on its way. -/
  | ending (due : Stamp)

namespace Stage

/-- The references of the initiator and of the target. -/
def refs : Stage → Nat
  | .idle => 0
  | .held => 1
  | .offered _ => 1
  | .deferred => 2
  | .executing _ => 2
  | .ready => 2
  | .begun _ => 2
  | .ending _ => 1

/-- The entry in the queue of the target. -/
def atTarget : Stage → Option (TlmPhase × Stamp)
  | .offered due => some (.beginReq, due)
  | .executing due => some (.internalPh, due)
  | .ending due => some (.endResp, due)
  | _ => none

/-- The entry in the queue of the initiator, apart from `END_REQ`. -/
def atInitiator : Stage → Option (TlmPhase × Stamp)
  | .begun due => some (.beginResp, due)
  | _ => none

/-- The transaction is allocated. -/
def isLive : Stage → Bool
  | .idle => false
  | _ => true

/-- The thread holds the transaction while it waits. -/
def isHeld : Stage → Bool
  | .held => true
  | _ => false

/-- The request has not been accepted. -/
def isRequesting : Stage → Bool
  | .offered _ => true
  | .deferred => true
  | _ => false

/-- The transaction is `end_req_pending`. -/
def isDeferred : Stage → Bool
  | .deferred => true
  | _ => false

/-- Counted in `n_trans`. -/
def isActive : Stage → Bool
  | .executing _ => true
  | .ready => true
  | .begun _ => true
  | .ending _ => true
  | _ => false

/-- The transaction is `next_response_pending`. -/
def isReady : Stage → Bool
  | .ready => true
  | _ => false

/-- The response has begun and has not ended. -/
def isResponding : Stage → Bool
  | .begun _ => true
  | .ending _ => true
  | _ => false

/-- The read or write has been made, and the initiator has not seen it. -/
def isAnswered : Stage → Bool
  | .ready => true
  | .begun _ => true
  | _ => false

/-- Sent, and not yet checked by the initiator. -/
def isUnchecked : Stage → Bool
  | .idle => false
  | .held => false
  | .ending _ => false
  | _ => true

/-- An `END_REQ` that is due then is handled before the `BEGIN_RESP`. -/
def GrantedBefore (now due : Stamp) : Stage → Prop
  | .executing internal => due ≤ internal
  | .ready => due ≤ now
  | .begun resp => due < resp
  | _ => False

end Stage

/-- The transaction for which the thread waits. -/
def Thread.held? : Thread → Option TransId
  | .waiting _ held => some held
  | .notified _ held _ => some held
  | _ => none

/-- The stages of all transactions, the `END_REQ` that is on its way, and the
transactions that are in use, that are active and that are not yet checked. -/
structure Config where
  stage : TransId → Stage
  offer : Option TransId
  granted : Option (TransId × Stamp)
  response : Option TransId
  inUse : List TransId
  active : List TransId
  unchecked : List TransId

/-- The queues hold the entries of the stages, none of them overdue. -/
structure Queues (stage : TransId → Stage) (granted : Option (TransId × Stamp)) (s : System) :
    Prop where
  mem_target : ∀ entry, entry ∈ s.target.peq ↔
    (stage entry.trans).atTarget = some (entry.phase, entry.due)
  target_nodup : s.target.peq.Nodup
  mem_initiator : ∀ entry, entry ∈ s.initiator.peq ↔
    (stage entry.trans).atInitiator = some (entry.phase, entry.due) ∨
      entry.phase = .endReq ∧ granted = some (entry.trans, entry.due)
  initiator_nodup : s.initiator.peq.Nodup
  now_le : ∀ due ∈ s.pending, s.now ≤ due

/-- What the modules store about the transactions. -/
structure Members where
  now : Stamp
  requestInProgress : Option TransId
  thread : Thread
  nTrans : Int
  responseInProgress : Bool
  nextResponsePending : Option TransId
  endReqPending : Option TransId

/-- The members of the two modules that speak of transactions. -/
def System.members (s : System) : Members where
  now := s.now
  requestInProgress := s.initiator.requestInProgress
  thread := s.initiator.thread
  nTrans := s.target.nTrans
  responseInProgress := s.target.responseInProgress
  nextResponsePending := s.target.nextResponsePending
  endReqPending := s.target.endReqPending

/-- The members agree with the stages. -/
structure Roles (c : Config) (m : Members) : Prop where
  offer : Slot Stage.isRequesting c.stage c.offer
  request_eq : m.requestInProgress = c.offer.or (c.granted.map Prod.fst)
  offer_eq : c.granted ≠ none → c.offer = none
  granted_before : ∀ t due, c.granted = some (t, due) → (c.stage t).GrantedBefore m.now due
  held : Slot Stage.isHeld c.stage m.thread.held?
  waits : ∀ i t, m.thread = .waiting i t → m.requestInProgress ≠ none
  resumes : ∀ i t due, m.thread = .notified i t due → m.requestInProgress = none
  deferred : Slot Stage.isDeferred c.stage m.endReqPending
  ready : Slot Stage.isReady c.stage m.nextResponsePending
  response : Slot Stage.isResponding c.stage c.response
  response_eq : m.responseInProgress = c.response.isSome
  active : Roster Stage.isActive c.stage c.active
  nTrans_eq : m.nTrans = c.active.length
  active_le : c.active.length ≤ 2

/-- What the target holds back has a reason. -/
structure Waits (m : Members) : Prop where
  deferred : m.endReqPending ≠ none → m.nTrans = 2
  ready : m.nextResponsePending ≠ none → m.responseInProgress = true

/-- The attributes that the target checks. -/
structure Payload.Acceptable (payload : Payload) : Prop where
  byteEnablePtr : payload.byteEnablePtr = none
  dataLength : ¬ 4 < payload.dataLength
  streamingWidth : ¬ payload.streamingWidth < payload.dataLength

/-- The payload of a transaction in this stage. -/
structure Payload.Fits (payload : Payload) (stage : Stage) : Prop where
  refCount_eq : payload.refCount = stage.refs
  acceptable : stage.isLive = true → payload.Acceptable
  answered : stage.isAnswered = true → payload.responseStatus = .ok

/-- The payloads, and the memory manager. -/
structure Held (c : Config) (s : System) : Prop where
  lends : Mm.Lends s.initiator.mm c.inUse
  inUse : Roster Stage.isLive c.stage c.inUse
  fits : ∀ t, (s.payload t).Fits (c.stage t)
  created_le : s.initiator.mm.created ≤ 4

/-- The lines `new`, by address and command. -/
def newLines (log : List Line) : List (UInt64 × TlmCommand) :=
  log.filterMap fun
    | .new address command _ => some (address, command)
    | .check _ _ _ => none

/-- The lines `check`, by address and command. -/
def checkLines (log : List Line) : List (UInt64 × TlmCommand) :=
  log.filterMap fun
    | .new _ _ _ => none
    | .check address command _ => some (address, command)

/-- The address and command of a transaction. -/
def System.label (s : System) (t : TransId) : UInt64 × TlmCommand :=
  ((s.payload t).address, (s.payload t).command)

/-- Each line `new` has its line `check`, or its transaction is still to be
checked. -/
structure Logged (c : Config) (s : System) : Prop where
  unchecked : Roster Stage.isUnchecked c.stage c.unchecked
  lines : (newLines s.log).Perm (checkLines s.log ++ c.unchecked.map s.label)

/-- The stages describe the state. -/
structure Describes (c : Config) (s : System) : Prop where
  queues : Queues c.stage c.granted s
  roles : Roles c s.members
  held : Held c s
  logged : Logged c s

/-- The state between two steps. -/
structure Rests (c : Config) (s : System) : Prop extends Describes c s where
  waits : Waits s.members

/-! ## The queues -/

/-- What is left of a list of distinct entries when one is taken out. -/
theorem mem_append_iff_of_nodup {α : Type} {before after : List α} {entry other : α}
    (nodup : (before ++ entry :: after).Nodup) :
    other ∈ before ++ after ↔ other ∈ before ++ entry :: after ∧ other ≠ entry := by
  have notIn := (List.nodup_middle.mp nodup)
  rw [List.nodup_cons] at notIn
  rw [List.mem_append, List.mem_append, List.mem_cons]
  constructor
  · intro member
    refine ⟨member.imp_right Or.inr, fun same => notIn.1 ?_⟩
    rw [← same]
    exact List.mem_append.mpr member
  · rintro ⟨first | rfl | last, different⟩
    · exact Or.inl first
    · exact absurd rfl different
    · exact Or.inr last

theorem Stage.atInitiator_eq_none {stage : Stage} {entry : TlmPhase × Stamp}
    (queued : stage.atTarget = some entry) : stage.atInitiator = none := by
  cases stage <;> first | rfl | cases queued

theorem Stage.atTarget_eq_none {stage : Stage} {entry : TlmPhase × Stamp}
    (queued : stage.atInitiator = some entry) : stage.atTarget = none := by
  cases stage <;> first | rfl | cases queued

namespace System

variable {s : System} {before after : List Notified} {entry : Notified}

theorem mem_pending {due : Stamp} : due ∈ s.pending ↔
    s.initiator.thread.due? = some due ∨ (∃ entry ∈ s.initiator.peq, entry.due = due) ∨
      ∃ entry ∈ s.target.peq, entry.due = due := by
  rw [pending, List.mem_append, List.mem_append, List.mem_map, List.mem_map, Option.mem_toList,
    or_assoc]

theorem Least.takeTarget (least : s.Least entry.due)
    (split : s.target.peq = before ++ entry :: after) :
    ({ s with now := entry.due, target.peq := before ++ after } : System).Least entry.due := by
  intro other due
  apply least other
  rw [mem_pending] at due ⊢
  refine due.imp_right (Or.imp_right ?_)
  rintro ⟨old, member, same⟩
  refine ⟨old, ?_, same⟩
  rw [split, List.mem_append, List.mem_cons]
  exact (List.mem_append.mp member).imp_right Or.inr

theorem Least.takeInitiator (least : s.Least entry.due)
    (split : s.initiator.peq = before ++ entry :: after) :
    ({ s with now := entry.due, initiator.peq := before ++ after } : System).Least entry.due := by
  intro other due
  apply least other
  rw [mem_pending] at due ⊢
  refine due.imp_right (Or.imp_left ?_)
  rintro ⟨old, member, same⟩
  refine ⟨old, ?_, same⟩
  rw [split, List.mem_append, List.mem_cons]
  exact (List.mem_append.mp member).imp_right Or.inr

end System

namespace Queues

variable {stage : TransId → Stage} {granted : Option (TransId × Stamp)} {s : System}
  {before after : List Notified} {entry : Notified}

/-- What is neither a queue nor the thread may change. -/
theorem keep (queues : Queues stage granted s) {after : System} (now : after.now = s.now)
    (target : after.target.peq = s.target.peq)
    (initiator : after.initiator.peq = s.initiator.peq)
    (thread : ∀ due, after.initiator.thread.due? = some due →
      s.initiator.thread.due? = some due ∨ s.now ≤ due) :
    Queues stage granted after := by
  constructor
  · rw [target]
    exact queues.mem_target
  · rw [target]
    exact queues.target_nodup
  · rw [initiator]
    exact queues.mem_initiator
  · rw [initiator]
    exact queues.initiator_nodup
  · intro due member
    rw [now]
    rw [System.mem_pending, target, initiator] at member
    rcases member with resumes | queued
    · rcases thread due resumes with old | later
      · exact queues.now_le due (System.mem_pending.mpr (Or.inl old))
      · exact later
    · exact queues.now_le due (System.mem_pending.mpr (Or.inr queued))

/-- A transaction goes to a stage with the same entries. -/
theorem update (queues : Queues stage granted s) (t : TransId) (next : Stage)
    (target : next.atTarget = (stage t).atTarget)
    (initiator : next.atInitiator = (stage t).atInitiator) :
    Queues (Function.update stage t next) granted s where
  mem_target entry := by
    rw [queues.mem_target]
    by_cases here : entry.trans = t
    · rw [here, Function.update_self, target]
    · rw [Function.update_of_ne here]
  target_nodup := queues.target_nodup
  mem_initiator entry := by
    rw [queues.mem_initiator]
    by_cases here : entry.trans = t
    · rw [here, Function.update_self, initiator]
    · rw [Function.update_of_ne here]
  initiator_nodup := queues.initiator_nodup
  now_le := queues.now_le

/-- An entry is taken from the queue of the target. -/
theorem takeTarget (queues : Queues stage granted s)
    (split : s.target.peq = before ++ entry :: after)
    (least : s.Least entry.due) (next : Stage) (noTarget : next.atTarget = none)
    (noInitiator : next.atInitiator = none) :
    Queues (Function.update stage entry.trans next) granted
      { s with now := entry.due, target.peq := before ++ after } := by
  have nodup := queues.target_nodup
  have here : entry ∈ s.target.peq := by simp [split]
  have queued := (queues.mem_target entry).mp here
  rw [split] at nodup
  constructor
  · intro other
    dsimp only
    rw [mem_append_iff_of_nodup nodup, ← split, queues.mem_target]
    by_cases same : other.trans = entry.trans
    · rw [same, Function.update_self, noTarget, queued]
      refine iff_of_false ?_ (by simp)
      rintro ⟨equal, different⟩
      cases other
      cases entry
      cases same
      cases equal
      exact different rfl
    · rw [Function.update_of_ne same]
      exact and_iff_left fun equal => same (equal ▸ rfl)
  · exact (List.nodup_cons.mp (List.nodup_middle.mp nodup)).2
  · intro other
    rw [queues.mem_initiator]
    by_cases same : other.trans = entry.trans
    · rw [same, Function.update_self, noInitiator, Stage.atInitiator_eq_none queued]
    · rw [Function.update_of_ne same]
  · exact queues.initiator_nodup
  · exact least.takeTarget split

/-- The `BEGIN_RESP` is taken from the queue of the initiator. -/
theorem takeInitiator (queues : Queues stage granted s)
    (split : s.initiator.peq = before ++ entry :: after)
    (least : s.Least entry.due) (resp : entry.phase ≠ .endReq) (next : Stage)
    (noTarget : next.atTarget = none) (noInitiator : next.atInitiator = none) :
    Queues (Function.update stage entry.trans next) granted
      { s with now := entry.due, initiator.peq := before ++ after } := by
  have nodup := queues.initiator_nodup
  have here : entry ∈ s.initiator.peq := by simp [split]
  have queued := ((queues.mem_initiator entry).mp here).resolve_right fun grant => resp grant.1
  rw [split] at nodup
  constructor
  · intro other
    rw [queues.mem_target]
    by_cases same : other.trans = entry.trans
    · rw [same, Function.update_self, noTarget, Stage.atTarget_eq_none queued]
    · rw [Function.update_of_ne same]
  · exact queues.target_nodup
  · intro other
    dsimp only
    rw [mem_append_iff_of_nodup nodup, ← split, queues.mem_initiator]
    by_cases same : other.trans = entry.trans
    · rw [same, Function.update_self, noInitiator, queued]
      constructor
      · rintro ⟨equal | grant, different⟩
        · cases other
          cases entry
          cases same
          cases equal
          exact absurd rfl different
        · exact Or.inr grant
      · rintro (absent | grant)
        · cases absent
        · exact ⟨Or.inr grant, fun equal => resp (equal ▸ grant.1)⟩
    · rw [Function.update_of_ne same]
      exact and_iff_left fun equal => same (equal ▸ rfl)
  · exact (List.nodup_cons.mp (List.nodup_middle.mp nodup)).2
  · exact least.takeInitiator split

/-- The `END_REQ` is taken from the queue of the initiator. -/
theorem takeEndReq (queues : Queues stage granted s)
    (split : s.initiator.peq = before ++ entry :: after)
    (least : s.Least entry.due) (grant : entry.phase = .endReq) :
    granted = some (entry.trans, entry.due) ∧
      Queues stage none { s with now := entry.due, initiator.peq := before ++ after } := by
  have nodup := queues.initiator_nodup
  have here : entry ∈ s.initiator.peq := by simp [split]
  have never : ∀ other, (stage other).atInitiator ≠ some (.endReq, entry.due) := by
    intro other
    cases stage other <;> simp [Stage.atInitiator]
  have given : granted = some (entry.trans, entry.due) := by
    rcases (queues.mem_initiator entry).mp here with resp | grant
    · rw [grant] at resp
      exact absurd resp (never _)
    · exact grant.2
  rw [split] at nodup
  refine ⟨given, queues.mem_target, queues.target_nodup, ?_, ?_, least.takeInitiator split⟩
  · intro other
    dsimp only
    rw [mem_append_iff_of_nodup nodup, ← split, queues.mem_initiator, given]
    constructor
    · rintro ⟨resp | ⟨phase, same⟩, different⟩
      · exact Or.inl resp
      · refine absurd ?_ different
        cases other
        cases entry
        cases same
        cases grant
        cases phase
        rfl
    · rintro (resp | ⟨-, absent⟩)
      · refine ⟨Or.inl resp, ?_⟩
        rintro rfl
        rw [grant] at resp
        exact never _ resp
      · cases absent
  · exact (List.nodup_cons.mp (List.nodup_middle.mp nodup)).2

theorem now_le_append {time : Stamp} (times : ∀ due ∈ s.pending, s.now ≤ due)
    (later : s.now ≤ time) {due : Stamp} (added : due ∈ s.pending ∨ due = time) :
    s.now ≤ due := by
  rcases added with old | rfl
  · exact times due old
  · exact later

/-- A phase of a transaction that has no entry is sent to the target. -/
theorem notifyTarget (queues : Queues stage granted s) (t : TransId) (phase : TlmPhase)
    (delay : Nat) (next : Stage) (absent : (stage t).atTarget = none)
    (sent : next.atTarget = some (phase, s.now.after delay))
    (same : next.atInitiator = (stage t).atInitiator) :
    Queues (Function.update stage t next) granted (s.notifyTarget t phase delay) := by
  constructor
  · intro entry
    rw [System.notifyTarget, List.mem_append, List.mem_singleton, queues.mem_target]
    by_cases here : entry.trans = t
    · rw [here, Function.update_self, absent, sent]
      cases entry
      cases here
      simp [eq_comm, and_comm]
    · rw [Function.update_of_ne here]
      refine or_iff_left fun equal => here ?_
      rw [equal]
  · apply queues.target_nodup.append (List.nodup_singleton _)
    rw [List.disjoint_singleton]
    intro member
    rw [queues.mem_target, absent] at member
    cases member
  · intro entry
    rw [System.notifyTarget, queues.mem_initiator]
    by_cases here : entry.trans = t
    · rw [here, Function.update_self, same]
    · rw [Function.update_of_ne here]
  · exact queues.initiator_nodup
  · intro due member
    refine now_le_append queues.now_le (s.now.lt_after delay).le ?_
    rw [System.mem_pending] at member ⊢
    rcases member with thread | initiator | ⟨entry, member, rfl⟩
    · exact Or.inl (Or.inl thread)
    · exact Or.inl (Or.inr (Or.inl initiator))
    · rcases List.mem_append.mp member with old | new
      · exact Or.inl (Or.inr (Or.inr ⟨entry, old, rfl⟩))
      · exact Or.inr (congrArg Notified.due (List.mem_singleton.mp new))

/-- The `BEGIN_RESP` of a transaction that has no entry is sent to the initiator. -/
theorem notifyInitiator (queues : Queues stage granted s) (t : TransId) (delay : Nat)
    (next : Stage) (absent : (stage t).atInitiator = none)
    (sent : next.atInitiator = some (.beginResp, s.now.after delay))
    (same : next.atTarget = (stage t).atTarget) :
    Queues (Function.update stage t next) granted (s.notifyInitiator t .beginResp delay) := by
  constructor
  · intro entry
    rw [System.notifyInitiator, queues.mem_target]
    by_cases here : entry.trans = t
    · rw [here, Function.update_self, same]
    · rw [Function.update_of_ne here]
  · exact queues.target_nodup
  · intro entry
    rw [System.notifyInitiator, List.mem_append, List.mem_singleton, queues.mem_initiator]
    by_cases here : entry.trans = t
    · rw [here, Function.update_self, absent, sent]
      cases entry
      cases here
      simp [eq_comm, and_comm, or_comm]
    · rw [Function.update_of_ne here]
      refine or_iff_left fun equal => here ?_
      rw [equal]
  · apply queues.initiator_nodup.append (List.nodup_singleton _)
    rw [List.disjoint_singleton]
    intro member
    rw [queues.mem_initiator, absent] at member
    simp at member
  · intro due member
    refine now_le_append queues.now_le (s.now.lt_after delay).le ?_
    rw [System.mem_pending] at member ⊢
    rcases member with thread | ⟨entry, member, rfl⟩ | target
    · exact Or.inl (Or.inl thread)
    · rcases List.mem_append.mp member with old | new
      · exact Or.inl (Or.inr (Or.inl ⟨entry, old, rfl⟩))
      · exact Or.inr (congrArg Notified.due (List.mem_singleton.mp new))
    · exact Or.inl (Or.inr (Or.inr target))

/-- An `END_REQ` is sent to the initiator. -/
theorem notifyEndReq (queues : Queues stage none s) (t : TransId) (delay : Nat) :
    Queues stage (some (t, s.now.after delay)) (s.notifyInitiator t .endReq delay) := by
  have never : ∀ other due, (stage other).atInitiator ≠ some (.endReq, due) := by
    intro other due
    cases stage other <;> simp [Stage.atInitiator]
  refine ⟨queues.mem_target, queues.target_nodup, ?_, ?_, ?_⟩
  · intro entry
    rw [System.notifyInitiator, List.mem_append, List.mem_singleton, queues.mem_initiator]
    rcases entry with ⟨due, other, phase⟩
    constructor
    · rintro ((resp | ⟨-, absent⟩) | new)
      · exact Or.inl resp
      · cases absent
      · cases new
        exact Or.inr ⟨rfl, rfl⟩
    · rintro (resp | ⟨rfl, same⟩)
      · exact Or.inl (Or.inl resp)
      · cases same
        exact Or.inr rfl
  · apply queues.initiator_nodup.append (List.nodup_singleton _)
    rw [List.disjoint_singleton]
    intro member
    rw [queues.mem_initiator] at member
    rcases member with resp | ⟨-, absent⟩
    · exact never _ _ resp
    · cases absent
  · intro due member
    refine now_le_append queues.now_le (s.now.lt_after delay).le ?_
    rw [System.mem_pending] at member ⊢
    rcases member with thread | ⟨entry, member, rfl⟩ | target
    · exact Or.inl (Or.inl thread)
    · rcases List.mem_append.mp member with old | new
      · exact Or.inl (Or.inr (Or.inl ⟨entry, old, rfl⟩))
      · exact Or.inr (congrArg Notified.due (List.mem_singleton.mp new))
    · exact Or.inl (Or.inr (Or.inr target))

end Queues

end SystemcTlm.AtProtocol
