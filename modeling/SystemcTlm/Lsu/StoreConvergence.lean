import SystemcTlm.Lsu.Reference

/-!
# Store buffer and memory converge

All stores have one latency, so along the in-flight queue their counters never
fall, and those that a tick completes stand before those that it leaves.  Stores
to one address therefore commit in the order of their issue: while one is in
flight the store buffer holds the data of the last one, and when the last one
has committed the memory holds that data too.
-/

namespace SystemcTlm.Lsu

open SystemcTlm.Loop LSU

namespace LSU

/-- The stores to an address, by issue. -/
def storesTo (addr : UInt64) (queue : List LSRequest) : List LSRequest :=
  queue.filter fun request => request.op = MemOp.store ∧ request.addr = addr

theorem storesTo_append (addr : UInt64) (first second : List LSRequest) :
    storesTo addr (first ++ second) = storesTo addr first ++ storesTo addr second :=
  List.filter_append first second

theorem storesTo_due (addr : UInt64) (queue : List LSRequest) :
    storesTo addr (due queue) = due (storesTo addr queue) := by
  simp only [storesTo, due, List.filter_filter]
  apply List.filter_congr
  intro request _
  exact Bool.and_comm _ _

theorem storesTo_waiting (addr : UInt64) (queue : List LSRequest) :
    storesTo addr (waiting queue) = waiting (storesTo addr queue) := by
  induction queue with
  | nil => rfl
  | cons request rest ih =>
      rw [waiting_cons]
      by_cases stores : request.op = MemOp.store ∧ request.addr = addr
      · have kept : storesTo addr (request :: rest) = request :: storesTo addr rest :=
          List.filter_cons_of_pos (decide_eq_true stores)
        rw [kept, waiting_cons, ← ih]
        split_ifs
        · exact List.filter_cons_of_pos (decide_eq_true stores)
        · rfl
      · have dropped : storesTo addr (request :: rest) = storesTo addr rest :=
          List.filter_cons_of_neg (by simpa using stores)
        rw [dropped, ← ih]
        split_ifs
        · exact List.filter_cons_of_neg (by simpa using stores)
        · rfl

/-- Counters that never fall along the queue. -/
def Ascending (queue : List LSRequest) : Prop :=
  queue.Pairwise fun first second => first.remainingCycles ≤ second.remainingCycles

theorem ascending_waiting {queue : List LSRequest} (ascending : Ascending queue) :
    Ascending (waiting queue) := by
  apply List.Pairwise.map _ (fun first second less => ?_) (ascending.filter _)
  exact Int.sub_le_sub_right less 1

/-- The last request that a tick leaves was the last of the queue. -/
theorem getLast?_of_waiting {queue : List LSRequest} (ascending : Ascending queue)
    {request : LSRequest} (ends : (waiting queue).getLast? = some request) :
    ∃ last, queue.getLast? = some last ∧ request.data = last.data := by
  cases last : queue.getLast? with
  | none =>
      rw [List.getLast?_eq_none_iff.mp last] at ends
      cases ends
  | some store =>
      refine ⟨store, rfl, ?_⟩
      rcases List.getLast?_eq_some_iff.mp last with ⟨before, rfl⟩
      by_cases later : 1 < store.remainingCycles
      · have kept : (waiting (before ++ [store])).getLast? =
            some { store with remainingCycles := store.remainingCycles - 1 } := by
          simp [waiting, later]
        rw [kept] at ends
        cases ends
        rfl
      · -- the counters before it are no greater, so the tick completes everything
        have nothing : waiting (before ++ [store]) = [] := by
          rw [waiting, List.filter_eq_nil_iff.mpr, List.map_nil]
          intro other member
          rw [decide_eq_true_eq]
          rcases List.mem_append.mp member with earlier | same
          · have less := (List.pairwise_append.mp ascending).2.2 other earlier store
              (List.mem_singleton_self store)
            omega
          · rwa [List.mem_singleton.mp same]
        rw [nothing] at ends
        cases ends

/-- A tick that leaves nothing completes everything. -/
theorem due_eq_self {queue : List LSRequest} (nothing : waiting queue = []) :
    due queue = queue := by
  rw [waiting, List.map_eq_nil_iff, List.filter_eq_nil_iff] at nothing
  rw [due, List.filter_eq_self]
  intro request member
  simpa using nothing request member

/-! ## The memory after a tick -/

theorem complete_memory_eq (request : LSRequest) (lsu : LSU) (addr : UInt64) :
    (lsu.complete request).memory addr =
      ((storesTo addr [request]).getLast?.map LSRequest.data).or (lsu.memory addr) := by
  unfold complete
  cases op : request.op with
  | load => simp [storesTo, op]
  | idle => simp [storesTo, op]
  | store =>
      by_cases here : request.addr = addr
      · subst here
        simp [storesTo, op]
      · simp [storesTo, op, here, Function.update_of_ne (Ne.symm here)]

theorem tickRequest_memory {current after : LSU × List LSRequest} {request : LSRequest}
    (passed : tickRequest current request = some after) (addr : UInt64) :
    after.1.memory addr =
      ((storesTo addr (due [request])).getLast?.map LSRequest.data).or
        (current.1.memory addr) := by
  rcases Option.bind_eq_some_iff.mp passed with ⟨remaining, counted, passed⟩
  have closer : remaining = request.remainingCycles - 1 := by
    unfold countDown at counted
    split_ifs at counted
    exact (Option.some.inj counted).symm
  by_cases now : request.remainingCycles ≤ 1
  · rw [if_pos (by omega)] at passed
    cases passed
    rw [due_cons, if_pos now]
    exact complete_memory_eq request current.1 addr
  · rw [if_neg (by omega)] at passed
    cases passed
    rw [due_cons, if_neg now]
    rfl

/-- The walk writes to an address the data of the last due store to it. -/
theorem walk_memory {queue : List LSRequest} {current final : LSU × List LSRequest}
    (walked : queue.foldlM tickRequest current = some final) (addr : UInt64) :
    final.1.memory addr =
      ((storesTo addr (due queue)).getLast?.map LSRequest.data).or (current.1.memory addr) := by
  induction queue generalizing current with
  | nil =>
      cases walked
      rfl
  | cons request rest ih =>
      rw [List.foldlM_cons] at walked
      rcases Option.bind_eq_some_iff.mp walked with ⟨middle, passed, later⟩
      have split : due (request :: rest) = due [request] ++ due rest := due_append [request] rest
      rw [ih later, tickRequest_memory passed, split, storesTo_append, List.getLast?_append,
        Option.map_or, Option.or_assoc]

end LSU

/-! ## The invariant -/

/-- Stores to one address commit in the order of their issue, and the store
buffer holds the data of the last one. -/
structure Converging (storeLatency : Int) (lsu : LSU) : Prop where
  storeLatency_eq : lsu.storeLatency = storeLatency
  ascending : ∀ addr, Ascending (storesTo addr lsu.inflightQueue)
  le_latency : ∀ addr, ∀ request ∈ storesTo addr lsu.inflightQueue,
    request.remainingCycles ≤ storeLatency
  buffered : ∀ addr request, (storesTo addr lsu.inflightQueue).getLast? = some request →
    lsu.storeBuffer addr = some request.data
  committed : ∀ addr, storesTo addr lsu.inflightQueue = [] → (lsu.storeBuffer addr).isSome →
    lsu.memory addr = lsu.storeBuffer addr

section Invariant

variable {storeLatency : Int} {lsu : LSU}

theorem converging_new (loadLatency storeLatency : Int) :
    Converging storeLatency (LSU.new loadLatency storeLatency) where
  storeLatency_eq := rfl
  ascending _ := List.Pairwise.nil
  le_latency _ _ member := absurd member List.not_mem_nil
  buffered _ _ ends := by cases ends
  committed _ _ buffered := by cases buffered

/-- An initialisation before any store. -/
theorem Converging.initMemory (converging : Converging storeLatency lsu)
    (unbuffered : ∀ addr, lsu.storeBuffer addr = none) (addr : UInt64) (data : UInt32) :
    Converging storeLatency (lsu.initMemory addr data) :=
  { converging with
    committed := by
      intro other _ buffered
      change (lsu.storeBuffer other).isSome at buffered
      rw [unbuffered] at buffered
      cases buffered }

theorem storesTo_issue (id : Int) (op : MemOp) (addr other : UInt64) (data : UInt32) (lsu : LSU) :
    storesTo other (lsu.issueRequest id op addr data).inflightQueue =
      storesTo other lsu.inflightQueue ++
        if op = MemOp.store ∧ addr = other then [⟨id, op, addr, data, lsu.storeLatency⟩]
        else [] := by
  change storesTo other (lsu.inflightQueue ++ [⟨id, op, addr, data, lsu.latency op⟩]) = _
  rw [storesTo_append]
  congr 1
  split_ifs with here
  · rcases here with ⟨rfl, rfl⟩
    simp [storesTo, latency]
  · simp [storesTo, here]

theorem storeBuffer_issue (id : Int) (op : MemOp) (addr other : UInt64) (data : UInt32)
    (lsu : LSU) :
    (lsu.issueRequest id op addr data).storeBuffer other =
      if op = MemOp.store ∧ addr = other then some data else lsu.storeBuffer other := by
  change (if op = MemOp.store then Function.update lsu.storeBuffer addr (some data)
    else lsu.storeBuffer) other = _
  by_cases store : op = MemOp.store
  · rw [if_pos store, Function.update_apply]
    simp [store, eq_comm]
  · simp [store]

theorem Converging.issueRequest (converging : Converging storeLatency lsu) (id : Int) (op : MemOp)
    (addr : UInt64) (data : UInt32) :
    Converging storeLatency (lsu.issueRequest id op addr data) where
  storeLatency_eq := converging.storeLatency_eq
  ascending other := by
    rw [storesTo_issue, Ascending, List.pairwise_append]
    refine ⟨converging.ascending other, ?_, fun earlier member request issued => ?_⟩
    · split_ifs <;> simp
    · split_ifs at issued
      · rw [List.mem_singleton.mp issued, converging.storeLatency_eq]
        exact converging.le_latency other earlier member
      · cases issued
  le_latency other request member := by
    rw [storesTo_issue, List.mem_append] at member
    rcases member with before | issued
    · exact converging.le_latency other request before
    · split_ifs at issued
      · rw [List.mem_singleton.mp issued]
        exact Int.le_of_eq converging.storeLatency_eq
      · cases issued
  buffered other request ends := by
    rw [storesTo_issue] at ends
    rw [storeBuffer_issue]
    split_ifs at ends ⊢
    · rw [List.getLast?_concat] at ends
      cases ends
      rfl
    · rw [List.append_nil] at ends
      exact converging.buffered other request ends
  committed other none buffered := by
    rw [storesTo_issue, List.append_eq_nil_iff] at none
    rw [storeBuffer_issue] at buffered ⊢
    split_ifs at none buffered ⊢
    · cases none.2
    · exact converging.committed other none.1 buffered

/-- A tick. -/
theorem Converging.tick (converging : Converging storeLatency lsu) {after : LSU}
    (isBuffered : ∀ request ∈ lsu.inflightQueue, request.op = MemOp.store →
      (lsu.storeBuffer request.addr).isSome) (ticked : lsu.tick = some after) :
    Converging storeLatency after := by
  rcases tick_spec (countable_of_tick ticked) isBuffered with ⟨current, finished, done, walked⟩
  obtain rfl := Option.some.inj (ticked.symm.trans done)
  have queue : ∀ addr, storesTo addr current.2 = waiting (storesTo addr lsu.inflightQueue) :=
    fun addr => by rw [walked.kept_eq, storesTo_waiting]
  have memory : ∀ addr, current.1.memory addr =
      ((due (storesTo addr lsu.inflightQueue)).getLast?.map LSRequest.data).or
        (lsu.memory addr) := fun addr => by
    rw [walk_memory finished, storesTo_due]
  constructor
  · exact walked.storeLatency_eq.trans converging.storeLatency_eq
  · intro addr
    change Ascending (storesTo addr current.2)
    rw [queue]
    exact ascending_waiting (converging.ascending addr)
  · intro addr request (member : request ∈ storesTo addr current.2)
    rw [queue, waiting, List.mem_map] at member
    rcases member with ⟨before, listed, rfl⟩
    have bound := converging.le_latency addr before (List.mem_of_mem_filter listed)
    dsimp only
    omega
  · intro addr request (ends : (storesTo addr current.2).getLast? = some request)
    change current.1.storeBuffer addr = _
    rw [queue] at ends
    rw [walked.storeBuffer_eq]
    rcases getLast?_of_waiting (converging.ascending addr) ends with ⟨store, last, same⟩
    rw [same]
    exact converging.buffered addr store last
  · intro addr (unstored : storesTo addr current.2 = []) buffered
    change (current.1.storeBuffer addr).isSome at buffered
    change current.1.memory addr = current.1.storeBuffer addr
    rw [queue] at unstored
    rw [walked.storeBuffer_eq] at buffered ⊢
    rw [memory, due_eq_self unstored]
    cases last : (storesTo addr lsu.inflightQueue).getLast? with
    | none => exact converging.committed addr (List.getLast?_eq_none_iff.mp last) buffered
    | some store =>
        rw [converging.buffered addr store last]
        rfl

theorem Converging.hasCompletedLoad (converging : Converging storeLatency lsu) :
    Converging storeLatency lsu.hasCompletedLoad.2 :=
  { converging with }

end Invariant

/-! ## Whole runs -/

/-- The call issues a request. -/
def Call.issues : Call → Bool
  | .issueRequest _ _ _ _ => true
  | _ => false

/-- The call is of `init_memory`. -/
def Call.initialises : Call → Bool
  | .initMemory _ _ => true
  | _ => false

/-- The memory is initialised only before the first request is issued. -/
def InitialisedFirst (calls : List Call) : Prop :=
  calls.Pairwise fun earlier later => earlier.issues = true → later.initialises = false

instance (calls : List Call) : Decidable (InitialisedFirst calls) :=
  inferInstanceAs (Decidable (calls.Pairwise _))

section Run

variable {loadLatency storeLatency : Int} {calls : List Call} {state : Logged}

/-- Nothing is stored before the first request. -/
theorem lastStore_eq_none (silent : ∀ next ∈ calls, next.issues = false) (addr : UInt64) :
    lastStore addr calls = none := by
  rw [lastStore, List.getLast?_eq_none_iff, List.filterMap_eq_nil_iff]
  intro next member
  have quiet := silent next member
  cases next with
  | issueRequest id op target data => cases quiet
  | initMemory target data => rfl
  | tick => rfl
  | hasCompletedLoad => rfl

theorem lastStore_isSome {id : Int} {addr : UInt64} {data : UInt32}
    (issued : .issueRequest id .store addr data ∈ calls) : (lastStore addr calls).isSome := by
  rw [lastStore, List.getLast?_isSome]
  have stored : data ∈ calls.filterMap (storedBy addr) :=
    List.mem_filterMap.mpr ⟨_, issued, if_pos rfl⟩
  exact List.ne_nil_of_mem stored

theorem converging_run (initialised : InitialisedFirst calls)
    (reached : run loadLatency storeLatency calls = some state) :
    Converging storeLatency state.lsu := by
  induction calls using List.reverseRecOn generalizing state with
  | nil =>
      cases reached
      exact converging_new loadLatency storeLatency
  | append_singleton calls next ih =>
      rcases List.pairwise_append.mp initialised with ⟨earlier, -, order⟩
      rw [run_concat, Option.bind_eq_some_iff] at reached
      rcases reached with ⟨before, reached, called⟩
      have converging := ih earlier reached
      have tracks := tracks_of_run reached
      cases next with
      | initMemory addr data =>
          cases called
          apply converging.initMemory
          intro other
          rw [tracks.storeBuffer_eq]
          apply lastStore_eq_none
          intro call member
          rw [← Bool.not_eq_true]
          intro issues
          exact Bool.noConfusion (order call member _ (List.mem_singleton_self _) issues)
      | issueRequest id op addr data =>
          cases called
          exact converging.issueRequest id op addr data
      | tick =>
          rcases Option.bind_eq_some_iff.mp called with ⟨lsu, ticked, logged⟩
          obtain rfl := Option.some.inj logged
          exact converging.tick tracks.buffered ticked
      | hasCompletedLoad =>
          cases called
          exact converging.hasCompletedLoad

end Run

/-- Store buffer and memory converge: the store buffer holds the data of the last
store that was issued to an address, which is the last one in flight if there is
any, and when none is in flight any more the memory holds that data and a load
that is forwarded reads it. -/
theorem stores_converge {loadLatency storeLatency : Int} {calls : List Call} {state : Logged}
    (initialised : InitialisedFirst calls)
    (reached : run loadLatency storeLatency calls = some state) (addr : UInt64) :
    state.lsu.storeBuffer addr = lastStore addr calls ∧
    (∀ request, (storesTo addr state.lsu.inflightQueue).getLast? = some request →
      state.lsu.storeBuffer addr = some request.data) ∧
    ((∃ id data, .issueRequest id .store addr data ∈ calls) →
      storesTo addr state.lsu.inflightQueue = [] →
        state.lsu.memory addr = state.lsu.storeBuffer addr ∧
        state.lsu.memory addr = some (state.lsu.readLogic addr)) := by
  have converging := converging_run initialised reached
  have last := (tracks_of_run reached).storeBuffer_eq addr
  refine ⟨last, converging.buffered addr, ?_⟩
  rintro ⟨id, data, issued⟩ unstored
  have buffered : (state.lsu.storeBuffer addr).isSome := by
    rw [last]
    exact lastStore_isSome issued
  have same := converging.committed addr unstored buffered
  rcases Option.isSome_iff_exists.mp buffered with ⟨value, holds⟩
  refine ⟨same, ?_⟩
  rw [same, readLogic, holds]

/-- Two stores to one address with a load between them, when both have
committed. -/
theorem stores_converge_two_stores :
    ∃ state, run 3 2 [.initMemory 0x1000 7, .issueRequest 1 .store 0x1000 42, .tick,
        .issueRequest 2 .load 0x1000 0, .issueRequest 3 .store 0x1000 43, .tick, .tick] =
          some state ∧
      state.lsu.memory 0x1000 = some (state.lsu.readLogic 0x1000) := by
  have converge := @stores_converge 3 2 [.initMemory 0x1000 7,
    .issueRequest 1 .store 0x1000 42, .tick, .issueRequest 2 .load 0x1000 0,
    .issueRequest 3 .store 0x1000 43, .tick, .tick] _ (by decide) rfl 0x1000
  exact ⟨_, rfl, (converge.2.2 ⟨3, 43, by decide⟩ (by decide)).2⟩

end SystemcTlm.Lsu
