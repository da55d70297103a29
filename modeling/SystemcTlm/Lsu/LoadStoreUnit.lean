import SystemcTlm.Loop.Range
import Mathlib.Data.List.Basic

/-!
# `LSU`

The load/store unit.  A request waits in flight until its latency has been
counted down.  A store is visible in the store buffer from its issue on and
reaches the memory when it completes; a load reads when it completes, from the
store buffer first.

The counter of a request is an `int`, and the lowest `int` cannot be counted
down: a `tick` that tries has no defined result and is `none`.
-/

namespace SystemcTlm.Lsu

open SystemcTlm.Loop

/-- `MemOp` -/
inductive MemOp
  | load
  | store
  | idle
  deriving DecidableEq

/-- An entry of the queue in flight. -/
structure LSRequest where
  instId : Int
  op : MemOp
  addr : UInt64
  data : UInt32
  remainingCycles : Int
  deriving DecidableEq

/-- The members of `LSU`.  An address that the memory or the buffer does not hold is
`none`. -/
structure LSU where
  loadLatency : Int
  storeLatency : Int
  memory : UInt64 → Option UInt32
  storeBuffer : UInt64 → Option UInt32
  inflightQueue : List LSRequest
  finishedLoads : List (Int × UInt32)

/-- The lowest `int`. -/
def intMin : Int :=
  -0x80000000

/-- `count--` of an `int`. -/
def countDown (count : Int) : Option Int :=
  if count = intMin then none else some (count - 1)

namespace LSU

/-- The constructor, with its defaults. -/
def new (loadLatency : Int := 2) (storeLatency : Int := 1) : LSU where
  loadLatency := loadLatency
  storeLatency := storeLatency
  memory := fun _ => none
  storeBuffer := fun _ => none
  inflightQueue := []
  finishedLoads := []

/-- `init_memory` -/
def initMemory (addr : UInt64) (data : UInt32) (lsu : LSU) : LSU :=
  { lsu with memory := Function.update lsu.memory addr (some data) }

/-- Every request that is no load has the latency of a store. -/
def latency (op : MemOp) (lsu : LSU) : Int :=
  if op = MemOp.load then lsu.loadLatency else lsu.storeLatency

/-- `issue_request`.  A store goes into the buffer at once. -/
def issueRequest (id : Int) (op : MemOp) (addr : UInt64) (data : UInt32 := 0) (lsu : LSU) : LSU :=
  { lsu with
    inflightQueue := lsu.inflightQueue ++ [⟨id, op, addr, data, lsu.latency op⟩]
    storeBuffer :=
      if op = MemOp.store then Function.update lsu.storeBuffer addr (some data)
      else lsu.storeBuffer }

/-- `read_logic`: the buffer before the memory, and a fixed word for an address that
neither holds. -/
def readLogic (addr : UInt64) (lsu : LSU) : UInt32 :=
  match lsu.storeBuffer addr with
  | some data => data
  | none => (lsu.memory addr).getD 0xDEADBEEF

/-- A request whose latency has passed. -/
def complete (request : LSRequest) (lsu : LSU) : LSU :=
  match request.op with
  | .load =>
      { lsu with
        finishedLoads := lsu.finishedLoads ++ [(request.instId, lsu.readLogic request.addr)] }
  | .store => { lsu with memory := Function.update lsu.memory request.addr (some request.data) }
  | .idle => lsu

/-- One request of the walk in `tick`, with the requests kept so far. -/
def tickRequest (current : LSU × List LSRequest) (request : LSRequest) :
    Option (LSU × List LSRequest) := do
  let remaining ← countDown request.remainingCycles
  if remaining ≤ 0 then some (current.1.complete request, current.2)
  else some (current.1, current.2 ++ [{ request with remainingCycles := remaining }])

/-- `tick`, one cycle.  It is undefined where a count of remaining cycles
underflows. -/
def tick (lsu : LSU) : Option LSU := do
  let walked ← lsu.inflightQueue.foldlM tickRequest (lsu, [])
  some { walked.1 with inflightQueue := walked.2 }

/-- The load that is returned, the last one of `m_finished_loads`. -/
def hasCompletedLoad (lsu : LSU) : Option (Int × UInt32) × LSU :=
  (lsu.finishedLoads.getLast?, { lsu with finishedLoads := lsu.finishedLoads.dropLast })

end LSU

/-! ## Runs -/

/-- The public calls. -/
inductive Call
  | initMemory (addr : UInt64) (data : UInt32)
  | issueRequest (id : Int) (op : MemOp) (addr : UInt64) (data : UInt32)
  | tick
  | hasCompletedLoad
  deriving DecidableEq

/-- A unit with the loads it has appended to `m_finished_loads`. -/
structure Logged where
  lsu : LSU
  appended : List (Int × UInt32)

/-- One call, with the loads that it finishes. -/
def call (state : Logged) : Call → Option Logged
  | .initMemory addr data => some { state with lsu := state.lsu.initMemory addr data }
  | .issueRequest id op addr data =>
      some { state with lsu := state.lsu.issueRequest id op addr data }
  | .tick => do
      let next ← state.lsu.tick
      some
        { lsu := next
          appended :=
            state.appended ++ next.finishedLoads.drop state.lsu.finishedLoads.length }
  | .hasCompletedLoad => some { state with lsu := state.lsu.hasCompletedLoad.2 }

/-- The state after the calls, from construction. -/
def run (loadLatency storeLatency : Int) (calls : List Call) : Option Logged :=
  calls.foldlM call ⟨LSU.new loadLatency storeLatency, []⟩

/-! ## What a tick does -/

namespace LSU

/-- The requests a tick completes. -/
def due (queue : List LSRequest) : List LSRequest :=
  queue.filter fun request => request.remainingCycles ≤ 1

/-- The requests a tick leaves in flight. -/
def waiting (queue : List LSRequest) : List LSRequest :=
  (queue.filter fun request => 1 < request.remainingCycles).map fun request =>
    { request with remainingCycles := request.remainingCycles - 1 }

/-- The entries the loads among the requests append. -/
def entriesOf (lsu : LSU) (requests : List LSRequest) : List (Int × UInt32) :=
  (requests.filter fun request => request.op = MemOp.load).map fun request =>
    (request.instId, lsu.readLogic request.addr)

/-- The state when the requests in `done` have been walked, in a tick that began
in `start`. -/
structure Walked (start : LSU) (done : List LSRequest) (current : LSU × List LSRequest) :
    Prop where
  loadLatency_eq : current.1.loadLatency = start.loadLatency
  storeLatency_eq : current.1.storeLatency = start.storeLatency
  storeBuffer_eq : current.1.storeBuffer = start.storeBuffer
  memory_eq : ∀ addr, start.storeBuffer addr = none → current.1.memory addr = start.memory addr
  finishedLoads_eq : current.1.finishedLoads = start.finishedLoads ++ start.entriesOf (due done)
  kept_eq : current.2 = waiting done

/-- What every state of a run satisfies: no counter is the lowest `int`, and the
stores in flight are in the store buffer. -/
structure Sound (lsu : LSU) : Prop where
  countable : ∀ request ∈ lsu.inflightQueue, intMin < request.remainingCycles
  buffered : ∀ request ∈ lsu.inflightQueue, request.op = MemOp.store →
    (lsu.storeBuffer request.addr).isSome

section Tick

variable {start : LSU} {done : List LSRequest} {current : LSU × List LSRequest}

/-- A commit during the walk is not seen by a load: the address is in the store
buffer. -/
theorem Walked.readLogic_eq (walked : Walked start done current) (addr : UInt64) :
    current.1.readLogic addr = start.readLogic addr := by
  rw [readLogic, readLogic, walked.storeBuffer_eq]
  cases buffered : start.storeBuffer addr with
  | some data => rfl
  | none => rw [walked.memory_eq addr buffered]

theorem entriesOf_append (first second : List LSRequest) :
    start.entriesOf (first ++ second) = start.entriesOf first ++ start.entriesOf second := by
  simp [entriesOf]

theorem due_append (first second : List LSRequest) :
    due (first ++ second) = due first ++ due second := by
  simp [due]

theorem waiting_append (first second : List LSRequest) :
    waiting (first ++ second) = waiting first ++ waiting second := by
  simp [waiting]

theorem due_cons (request : LSRequest) (rest : List LSRequest) :
    due (request :: rest) =
      if request.remainingCycles ≤ 1 then request :: due rest else due rest := by
  simp [due, List.filter_cons]

theorem waiting_cons (request : LSRequest) (rest : List LSRequest) :
    waiting (request :: rest) =
      if 1 < request.remainingCycles then
        { request with remainingCycles := request.remainingCycles - 1 } :: waiting rest
      else waiting rest := by
  by_cases later : 1 < request.remainingCycles <;> simp [waiting, later]

theorem complete_storeBuffer (request : LSRequest) (lsu : LSU) :
    (lsu.complete request).storeBuffer = lsu.storeBuffer := by
  unfold complete
  cases request.op <;> rfl

theorem complete_latency (request : LSRequest) (lsu : LSU) :
    (lsu.complete request).loadLatency = lsu.loadLatency ∧
      (lsu.complete request).storeLatency = lsu.storeLatency := by
  unfold complete
  cases request.op <;> exact ⟨rfl, rfl⟩

theorem complete_finishedLoads (request : LSRequest) (lsu : LSU) :
    (lsu.complete request).finishedLoads = lsu.finishedLoads ++ lsu.entriesOf [request] := by
  unfold complete
  cases op : request.op <;> simp [entriesOf, op]

/-- Only an address in the store buffer is written. -/
theorem complete_memory {request : LSRequest} {lsu : LSU}
    (buffered : request.op = MemOp.store → (lsu.storeBuffer request.addr).isSome) {addr : UInt64}
    (unbuffered : lsu.storeBuffer addr = none) :
    (lsu.complete request).memory addr = lsu.memory addr := by
  unfold complete
  cases op : request.op with
  | load => rfl
  | idle => rfl
  | store =>
      have other : addr ≠ request.addr := by
        rintro rfl
        have stored := buffered op
        rw [unbuffered] at stored
        exact Bool.noConfusion stored
      exact Function.update_of_ne other _ _

/-- The entries of a load do not depend on how far the walk is. -/
theorem Walked.entriesOf_eq (walked : Walked start done current) (requests : List LSRequest) :
    current.1.entriesOf requests = start.entriesOf requests := by
  simp only [entriesOf, walked.readLogic_eq]

theorem Walked.tickRequest (walked : Walked start done current) {request : LSRequest}
    (countable : request.remainingCycles ≠ intMin)
    (buffered : request.op = MemOp.store → (start.storeBuffer request.addr).isSome) :
    ∃ after, tickRequest current request = some after ∧
      Walked start (done ++ [request]) after := by
  have counted : countDown request.remainingCycles = some (request.remainingCycles - 1) :=
    if_neg countable
  by_cases now : request.remainingCycles ≤ 1
  · have dueNow : due [request] = [request] := by simp [due, now]
    have keptNow : waiting [request] = [] := by simp [waiting, now]
    refine ⟨(current.1.complete request, current.2), ?_, ?_⟩
    · rw [LSU.tickRequest, counted]
      exact if_pos (by omega)
    · exact {
        loadLatency_eq := (complete_latency request current.1).1.trans walked.loadLatency_eq
        storeLatency_eq := (complete_latency request current.1).2.trans walked.storeLatency_eq
        storeBuffer_eq := (complete_storeBuffer request current.1).trans walked.storeBuffer_eq
        memory_eq := by
          intro addr unbuffered
          rw [← walked.storeBuffer_eq] at buffered
          rw [← walked.memory_eq addr unbuffered]
          exact complete_memory buffered (walked.storeBuffer_eq ▸ unbuffered)
        finishedLoads_eq := by
          rw [complete_finishedLoads, walked.finishedLoads_eq, walked.entriesOf_eq, due_append,
            dueNow, entriesOf_append, List.append_assoc]
        kept_eq := by rw [waiting_append, keptNow, List.append_nil, walked.kept_eq] }
  · have dueNow : due [request] = [] := by simp [due, now]
    have keptNow : waiting [request] =
        [{ request with remainingCycles := request.remainingCycles - 1 }] := by
      simp [waiting, Int.not_le.mp now]
    refine ⟨(current.1, current.2 ++
      [{ request with remainingCycles := request.remainingCycles - 1 }]), ?_, ?_⟩
    · rw [LSU.tickRequest, counted]
      exact if_neg (by omega)
    · exact { walked with
        finishedLoads_eq := by rw [walked.finishedLoads_eq, due_append, dueNow, List.append_nil]
        kept_eq := by rw [waiting_append, keptNow, walked.kept_eq] }

/-- A tick that counts no counter below the lowest `int` has a result: the loads
that are due have been read in the state before, and the other requests are a
cycle closer. -/
theorem tick_spec {lsu : LSU}
    (countable : ∀ request ∈ lsu.inflightQueue, request.remainingCycles ≠ intMin)
    (buffered : ∀ request ∈ lsu.inflightQueue, request.op = MemOp.store →
      (lsu.storeBuffer request.addr).isSome) :
    ∃ current, lsu.inflightQueue.foldlM LSU.tickRequest (lsu, []) = some current ∧
      lsu.tick = some { current.1 with inflightQueue := current.2 } ∧
      Walked lsu lsu.inflightQueue current := by
  have initial : Walked lsu [] (lsu, []) :=
    ⟨rfl, rfl, rfl, fun _ _ => rfl, (List.append_nil _).symm, rfl⟩
  have pass : ∀ done request rest current, lsu.inflightQueue = done ++ request :: rest →
      Walked lsu done current →
        ∃ after, tickRequest current request = some after ∧
          Walked lsu (done ++ [request]) after := by
    intro done request rest current split walked
    have member : request ∈ lsu.inflightQueue := by simp [split]
    exact walked.tickRequest (countable request member) (buffered request member)
  rcases foldlM_induction (Walked lsu) initial pass with ⟨current, finished, walked⟩
  refine ⟨current, finished, ?_, walked⟩
  rw [tick, finished]
  rfl

/-- A tick that has a result has counted every request down. -/
theorem countable_of_tick {lsu after : LSU} (ticked : lsu.tick = some after) :
    ∀ request ∈ lsu.inflightQueue, request.remainingCycles ≠ intMin := by
  suffices walk : ∀ (queue : List LSRequest) (current final : LSU × List LSRequest),
      queue.foldlM LSU.tickRequest current = some final →
        ∀ request ∈ queue, request.remainingCycles ≠ intMin by
    rcases Option.bind_eq_some_iff.mp ticked with ⟨final, walked, -⟩
    exact walk lsu.inflightQueue (lsu, []) final walked
  intro queue
  induction queue with
  | nil =>
      intro _ _ _ request member
      cases member
  | cons first rest ih =>
      intro current final walked request member
      rw [List.foldlM_cons] at walked
      rcases Option.bind_eq_some_iff.mp walked with ⟨middle, passed, later⟩
      rcases List.mem_cons.mp member with rfl | listed
      · rintro lowest
        rw [LSU.tickRequest, countDown, if_pos lowest] at passed
        cases passed
      · exact ih middle final later request listed

end Tick

end LSU

end SystemcTlm.Lsu
