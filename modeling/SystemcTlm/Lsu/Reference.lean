import SystemcTlm.Lsu.LoadStoreUnit
import Mathlib.Data.List.Induction

/-!
# The reference of the load/store unit

What a run is supposed to do, read off the list of its calls.  A request is in
flight while fewer ticks than its latency, and at least one, have followed its
issue.  A load that completes returns the last data stored to its address, by
issue and not by commit.
-/

namespace SystemcTlm.Lsu

open SystemcTlm.Loop LSU

/-! ## The reference -/

/-- The ticks among the calls. -/
def ticks (calls : List Call) : Nat :=
  calls.count Call.tick

/-- The data a call stores to the address. -/
def storedBy (addr : UInt64) : Call → Option UInt32
  | .issueRequest _ .store target data => if target = addr then some data else none
  | _ => none

/-- The data a call initialises the address with. -/
def initialisedBy (addr : UInt64) : Call → Option UInt32
  | .initMemory target data => if target = addr then some data else none
  | _ => none

/-- The data of the last store to the address, whether or not it has
committed. -/
def lastStore (addr : UInt64) (calls : List Call) : Option UInt32 :=
  (calls.filterMap (storedBy addr)).getLast?

/-- The data of the last `init_memory` at the address. -/
def lastInit (addr : UInt64) (calls : List Call) : Option UInt32 :=
  (calls.filterMap (initialisedBy addr)).getLast?

/-- What a load of the address returns that completes after the calls. -/
def valueAfter (addr : UInt64) (calls : List Call) : UInt32 :=
  ((lastStore addr calls).or (lastInit addr calls)).getD 0xDEADBEEF

section Reference

variable (loadLatency storeLatency : Int)

/-- The latency of a request. -/
def latencyOf (op : MemOp) : Int :=
  if op = MemOp.load then loadLatency else storeLatency

/-- The requests in flight after the calls, by issue. -/
def inflightAfter : List Call → List LSRequest
  | [] => []
  | .issueRequest id op addr data :: rest =>
      if (ticks rest : Int) < max 1 (latencyOf loadLatency storeLatency op) then
        ⟨id, op, addr, data, latencyOf loadLatency storeLatency op - ticks rest⟩ ::
          inflightAfter rest
      else inflightAfter rest
  | .initMemory _ _ :: rest => inflightAfter rest
  | .tick :: rest => inflightAfter rest
  | .hasCompletedLoad :: rest => inflightAfter rest

/-- The loads a tick after the calls completes, by issue. -/
def completing : List Call → List (Int × UInt64)
  | [] => []
  | .issueRequest id op addr _ :: rest =>
      if op = MemOp.load ∧ (ticks rest : Int) + 1 = max 1 loadLatency then
        (id, addr) :: completing rest
      else completing rest
  | .initMemory _ _ :: rest => completing rest
  | .tick :: rest => completing rest
  | .hasCompletedLoad :: rest => completing rest

/-- The loads that complete in the course of the calls, tick by tick. -/
def completedLoads (calls : List Call) : List (Int × UInt32) :=
  (List.range calls.length).flatMap fun k =>
    if calls[k]? = some Call.tick then
      (completing loadLatency (calls.take k)).map fun load =>
        (load.1, valueAfter load.2 (calls.take k))
    else []

/-- A run that has a result and does what the reference says. -/
def MatchesReference (calls : List Call) : Prop :=
  ∃ state, run loadLatency storeLatency calls = some state ∧
    state.lsu.inflightQueue = inflightAfter loadLatency storeLatency calls ∧
    state.appended = completedLoads loadLatency calls

end Reference

/-! ## One call more -/

section Concat

variable {loadLatency storeLatency : Int} {calls : List Call}

theorem ticks_concat_tick (calls : List Call) : ticks (calls ++ [.tick]) = ticks calls + 1 := by
  simp [ticks]

theorem ticks_concat {next : Call} (other : next ≠ .tick) :
    ticks (calls ++ [next]) = ticks calls := by
  simp [ticks, other]

theorem lastStore_concat (addr : UInt64) (calls : List Call) (next : Call) :
    lastStore addr (calls ++ [next]) = (storedBy addr next).or (lastStore addr calls) := by
  rw [lastStore, List.filterMap_append, List.getLast?_append]
  cases stored : storedBy addr next <;> simp [stored, lastStore]

theorem lastInit_concat (addr : UInt64) (calls : List Call) (next : Call) :
    lastInit addr (calls ++ [next]) = (initialisedBy addr next).or (lastInit addr calls) := by
  rw [lastInit, List.filterMap_append, List.getLast?_append]
  cases stored : initialisedBy addr next <;> simp [stored, lastInit]

/-- A tick brings the requests in flight a cycle closer. -/
theorem inflightAfter_tick (calls : List Call) :
    inflightAfter loadLatency storeLatency (calls ++ [.tick]) =
      waiting (inflightAfter loadLatency storeLatency calls) := by
  induction calls with
  | nil => rfl
  | cons first rest ih =>
      cases first with
      | issueRequest id op addr data =>
          simp only [List.cons_append, inflightAfter, ticks_concat_tick, ih]
          generalize latencyOf loadLatency storeLatency op = latency
          by_cases now : (ticks rest : Int) < max 1 latency
          · rw [if_pos now, waiting_cons]
            dsimp only
            by_cases later : 1 < latency - ticks rest
            · have closer :
                  latency - ((ticks rest + 1 : Nat) : Int) = latency - ticks rest - 1 := by
                omega
              rw [if_pos later, if_pos (by omega), closer]
            · rw [if_neg later, if_neg (by omega)]
          · rw [if_neg now, if_neg (by omega)]
      | initMemory addr data => exact ih
      | tick => exact ih
      | hasCompletedLoad => exact ih

theorem inflightAfter_issue (calls : List Call) (id : Int) (op : MemOp) (addr : UInt64)
    (data : UInt32) :
    inflightAfter loadLatency storeLatency (calls ++ [.issueRequest id op addr data]) =
      inflightAfter loadLatency storeLatency calls ++
        [⟨id, op, addr, data, latencyOf loadLatency storeLatency op⟩] := by
  induction calls with
  | nil =>
      have zero : ((ticks [] : Nat) : Int) = 0 := rfl
      simp only [List.nil_append, inflightAfter, zero]
      rw [if_pos (by omega), Int.sub_zero]
  | cons first rest ih =>
      cases first with
      | issueRequest id' op' addr' data' =>
          simp only [List.cons_append, inflightAfter, ih]
          rw [ticks_concat (by simp)]
          split_ifs <;> rfl
      | initMemory addr data => exact ih
      | tick => exact ih
      | hasCompletedLoad => exact ih

/-- The other calls issue nothing. -/
theorem inflightAfter_other {next : Call} (noTick : next ≠ .tick)
    (noIssue : ∀ id op addr data, next ≠ .issueRequest id op addr data) (calls : List Call) :
    inflightAfter loadLatency storeLatency (calls ++ [next]) =
      inflightAfter loadLatency storeLatency calls := by
  induction calls with
  | nil =>
      cases next with
      | issueRequest id op addr data => exact absurd rfl (noIssue id op addr data)
      | initMemory addr data => rfl
      | tick => rfl
      | hasCompletedLoad => rfl
  | cons first rest ih =>
      cases first with
      | issueRequest id' op' addr' data' =>
          simp only [List.cons_append, inflightAfter, ih, ticks_concat noTick]
      | initMemory addr data => exact ih
      | tick => exact ih
      | hasCompletedLoad => exact ih

/-- The loads that complete are those of the requests in flight that are due. -/
theorem completing_eq (calls : List Call) :
    completing loadLatency calls =
      ((due (inflightAfter loadLatency storeLatency calls)).filter fun request =>
        request.op = MemOp.load).map fun request => (request.instId, request.addr) := by
  induction calls with
  | nil => rfl
  | cons first rest ih =>
      cases first with
      | issueRequest id op addr data =>
          simp only [completing, inflightAfter, ih]
          by_cases load : op = MemOp.load
          · subst load
            simp only [latencyOf, if_true, true_and]
            by_cases now : (ticks rest : Int) < max 1 loadLatency
            · rw [if_pos now, due_cons]
              dsimp only
              by_cases last : (ticks rest : Int) + 1 = max 1 loadLatency
              · rw [if_pos last, if_pos (by omega)]
                simp
              · rw [if_neg last, if_neg (by omega)]
            · rw [if_neg now, if_neg (by omega)]
          · rw [if_neg fun both => load both.1]
            split_ifs
            · rw [due_cons]
              split_ifs
              · simp [load]
              · rfl
            · rfl
      | initMemory addr data => exact ih
      | tick => exact ih
      | hasCompletedLoad => exact ih

theorem completedLoads_concat (calls : List Call) (next : Call) :
    completedLoads loadLatency (calls ++ [next]) =
      completedLoads loadLatency calls ++
        if next = Call.tick then
          (completing loadLatency calls).map fun load => (load.1, valueAfter load.2 calls)
        else [] := by
  rw [completedLoads, List.length_append, List.length_singleton, List.range_succ,
    List.flatMap_append]
  congr 1
  · apply List.flatMap_congr
    intro k member
    have inside := List.mem_range.mp member
    rw [List.getElem?_append_left inside, List.take_append_of_le_length (Nat.le_of_lt inside)]
  · simp

/-- A request in flight has been issued by the first call, or by a later one. -/
theorem mem_inflightAfter_cons {first : Call} {rest : List Call} {request : LSRequest}
    (member : request ∈ inflightAfter loadLatency storeLatency (first :: rest)) :
    request ∈ inflightAfter loadLatency storeLatency rest ∨
      first = .issueRequest request.instId request.op request.addr request.data ∧
        (ticks rest : Int) < max 1 (latencyOf loadLatency storeLatency request.op) ∧
        request.remainingCycles =
          latencyOf loadLatency storeLatency request.op - ticks rest := by
  cases first with
  | issueRequest id op addr data =>
      rw [inflightAfter] at member
      split_ifs at member with now
      · rcases List.mem_cons.mp member with rfl | listed
        · exact Or.inr ⟨rfl, now, rfl⟩
        · exact Or.inl listed
      · exact Or.inl member
  | initMemory addr data => exact Or.inl member
  | tick => exact Or.inl member
  | hasCompletedLoad => exact Or.inl member

/-- With latencies above the lowest `int` the requests in flight can be counted
down. -/
theorem inflightAfter_countable (loads : intMin < loadLatency) (stores : intMin < storeLatency)
    {request : LSRequest} (member : request ∈ inflightAfter loadLatency storeLatency calls) :
    intMin < request.remainingCycles := by
  induction calls with
  | nil => simp [inflightAfter] at member
  | cons first rest ih =>
      rcases mem_inflightAfter_cons member with listed | ⟨-, now, remaining⟩
      · exact ih listed
      · have lowest : intMin = -0x80000000 := rfl
        have countable : intMin < latencyOf loadLatency storeLatency request.op := by
          unfold latencyOf
          split_ifs
          · exact loads
          · exact stores
        omega

/-- A store in flight is the last one of its address or has been followed by
another. -/
theorem inflightAfter_buffered {request : LSRequest}
    (member : request ∈ inflightAfter loadLatency storeLatency calls)
    (store : request.op = MemOp.store) : (lastStore request.addr calls).isSome := by
  induction calls with
  | nil => simp [inflightAfter] at member
  | cons first rest ih =>
      rcases mem_inflightAfter_cons member with listed | ⟨rfl, -⟩
      · rw [lastStore, List.filterMap_cons]
        cases storedBy request.addr first with
        | none => exact ih listed
        | some value =>
            rw [List.getLast?_cons]
            rfl
      · have stored : storedBy request.addr
            (.issueRequest request.instId request.op request.addr request.data) =
              some request.data := by
          rw [store]
          exact if_pos rfl
        rw [lastStore, List.filterMap_cons_some stored, List.getLast?_cons]
        rfl

end Concat

/-! ## The run -/

/-- The state after the calls. -/
structure Tracks (loadLatency storeLatency : Int) (calls : List Call) (state : Logged) : Prop where
  loadLatency_eq : state.lsu.loadLatency = loadLatency
  storeLatency_eq : state.lsu.storeLatency = storeLatency
  storeBuffer_eq : ∀ addr, state.lsu.storeBuffer addr = lastStore addr calls
  memory_eq : ∀ addr, lastStore addr calls = none →
    state.lsu.memory addr = lastInit addr calls
  inflightQueue_eq : state.lsu.inflightQueue = inflightAfter loadLatency storeLatency calls
  appended_eq : state.appended = completedLoads loadLatency calls

section Run

variable {loadLatency storeLatency : Int} {calls : List Call} {state : Logged}

/-- A load reads the last store, and without one the last initialisation. -/
theorem Tracks.readLogic_eq (tracks : Tracks loadLatency storeLatency calls state)
    (addr : UInt64) : state.lsu.readLogic addr = valueAfter addr calls := by
  rw [readLogic, valueAfter, tracks.storeBuffer_eq]
  cases stored : lastStore addr calls with
  | some data => rfl
  | none => rw [tracks.memory_eq addr stored, Option.none_or]

theorem Tracks.buffered (tracks : Tracks loadLatency storeLatency calls state) :
    ∀ request ∈ state.lsu.inflightQueue, request.op = MemOp.store →
      (state.lsu.storeBuffer request.addr).isSome := by
  intro request member store
  rw [tracks.inflightQueue_eq] at member
  rw [tracks.storeBuffer_eq]
  exact inflightAfter_buffered member store

theorem Tracks.sound (tracks : Tracks loadLatency storeLatency calls state)
    (loads : intMin < loadLatency) (stores : intMin < storeLatency) : state.lsu.Sound where
  countable request member := by
    rw [tracks.inflightQueue_eq] at member
    exact inflightAfter_countable loads stores member
  buffered := tracks.buffered

/-- A call that neither issues nor completes anything. -/
theorem Tracks.quiet (tracks : Tracks loadLatency storeLatency calls state) {next : Call}
    (noTick : next ≠ .tick) (noIssue : ∀ id op addr data, next ≠ .issueRequest id op addr data)
    {memory : UInt64 → Option UInt32} {finishedLoads : List (Int × UInt32)}
    (initialised : ∀ addr, memory addr = (initialisedBy addr next).or (state.lsu.memory addr)) :
    Tracks loadLatency storeLatency (calls ++ [next])
      { state with lsu := { state.lsu with memory := memory, finishedLoads := finishedLoads } } := by
  have unstored : ∀ addr, lastStore addr (calls ++ [next]) = lastStore addr calls := by
    intro addr
    rw [lastStore_concat]
    cases next with
    | issueRequest id op target data => exact absurd rfl (noIssue id op target data)
    | initMemory target data => rfl
    | tick => rfl
    | hasCompletedLoad => rfl
  exact {
    loadLatency_eq := tracks.loadLatency_eq
    storeLatency_eq := tracks.storeLatency_eq
    storeBuffer_eq := by
      intro addr
      rw [unstored]
      exact tracks.storeBuffer_eq addr
    memory_eq := by
      intro addr unissued
      rw [unstored] at unissued
      change memory addr = _
      rw [lastInit_concat, initialised, tracks.memory_eq addr unissued]
    inflightQueue_eq := by
      rw [inflightAfter_other noTick noIssue]
      exact tracks.inflightQueue_eq
    appended_eq := by
      rw [completedLoads_concat, if_neg noTick, List.append_nil]
      exact tracks.appended_eq }

theorem Tracks.initMemory (tracks : Tracks loadLatency storeLatency calls state) (addr : UInt64)
    (data : UInt32) :
    Tracks loadLatency storeLatency (calls ++ [.initMemory addr data])
      { state with lsu := state.lsu.initMemory addr data } := by
  apply tracks.quiet (by simp) (by simp)
  intro other
  rw [Function.update_apply, initialisedBy]
  split_ifs with here there there
  · rfl
  · exact absurd here.symm there
  · exact absurd there.symm here
  · rfl

theorem Tracks.issueRequest (tracks : Tracks loadLatency storeLatency calls state) (id : Int)
    (op : MemOp) (addr : UInt64) (data : UInt32) :
    Tracks loadLatency storeLatency (calls ++ [.issueRequest id op addr data])
      { state with lsu := state.lsu.issueRequest id op addr data } where
  loadLatency_eq := tracks.loadLatency_eq
  storeLatency_eq := tracks.storeLatency_eq
  storeBuffer_eq other := by
    have old := tracks.storeBuffer_eq other
    rw [lastStore_concat]
    cases op with
    | load => exact old
    | idle => exact old
    | store =>
        change Function.update state.lsu.storeBuffer addr (some data) other = _
        rw [Function.update_apply, storedBy]
        split_ifs with here there there
        · rfl
        · exact absurd here.symm there
        · exact absurd there.symm here
        · exact old
  memory_eq other unstored := by
    rw [lastStore_concat, Option.or_eq_none_iff] at unstored
    rw [lastInit_concat]
    exact tracks.memory_eq other unstored.2
  inflightQueue_eq := by
    rw [inflightAfter_issue, ← tracks.inflightQueue_eq, ← tracks.loadLatency_eq,
      ← tracks.storeLatency_eq]
    rfl
  appended_eq := by
    rw [completedLoads_concat, if_neg (by simp), List.append_nil]
    exact tracks.appended_eq

theorem Tracks.hasCompletedLoad (tracks : Tracks loadLatency storeLatency calls state) :
    Tracks loadLatency storeLatency (calls ++ [.hasCompletedLoad])
      { state with lsu := state.lsu.hasCompletedLoad.2 } :=
  tracks.quiet (by simp) (by simp) fun _ => rfl

/-- A tick completes the loads that are due, with the values of the moment. -/
theorem Tracks.tick (tracks : Tracks loadLatency storeLatency calls state) {after : Logged}
    (ticked : call state .tick = some after) :
    Tracks loadLatency storeLatency (calls ++ [.tick]) after := by
  rcases Option.bind_eq_some_iff.mp ticked with ⟨next, counted, logged⟩
  obtain rfl := Option.some.inj logged
  rcases tick_spec (countable_of_tick counted) tracks.buffered with ⟨current, -, done, walked⟩
  obtain rfl := Option.some.inj (counted.symm.trans done)
  exact {
    loadLatency_eq := walked.loadLatency_eq.trans tracks.loadLatency_eq
    storeLatency_eq := walked.storeLatency_eq.trans tracks.storeLatency_eq
    storeBuffer_eq := by
      intro addr
      rw [lastStore_concat]
      exact (congrFun walked.storeBuffer_eq addr).trans (tracks.storeBuffer_eq addr)
    memory_eq := by
      intro addr unstored
      rw [lastStore_concat] at unstored
      change lastStore addr calls = none at unstored
      rw [lastInit_concat]
      exact (walked.memory_eq addr ((tracks.storeBuffer_eq addr).trans unstored)).trans
        (tracks.memory_eq addr unstored)
    inflightQueue_eq := by
      rw [inflightAfter_tick, ← tracks.inflightQueue_eq]
      exact walked.kept_eq
    appended_eq := by
      rw [completedLoads_concat, if_pos rfl, completing_eq, ← tracks.appended_eq,
        ← tracks.inflightQueue_eq]
      change state.appended ++ current.1.finishedLoads.drop state.lsu.finishedLoads.length = _
      rw [walked.finishedLoads_eq, List.drop_left, entriesOf, List.map_map]
      congr 1
      apply List.map_congr_left
      intro request _
      rw [tracks.readLogic_eq]
      rfl }

theorem run_concat (loadLatency storeLatency : Int) (calls : List Call) (next : Call) :
    run loadLatency storeLatency (calls ++ [next]) =
      (run loadLatency storeLatency calls).bind fun state => call state next :=
  foldlM_concat call calls next _

/-- A run that has a result is the one the reference describes. -/
theorem tracks_of_run (reached : run loadLatency storeLatency calls = some state) :
    Tracks loadLatency storeLatency calls state := by
  induction calls using List.reverseRecOn generalizing state with
  | nil =>
      cases reached
      exact ⟨rfl, rfl, fun _ => rfl, fun _ _ => rfl, rfl, rfl⟩
  | append_singleton calls next ih =>
      rw [run_concat, Option.bind_eq_some_iff] at reached
      rcases reached with ⟨before, earlier, called⟩
      have tracks := ih earlier
      cases next with
      | initMemory addr data =>
          cases called
          exact tracks.initMemory addr data
      | issueRequest id op addr data =>
          cases called
          exact tracks.issueRequest id op addr data
      | tick => exact tracks.tick called
      | hasCompletedLoad =>
          cases called
          exact tracks.hasCompletedLoad

theorem exists_tracks (loads : intMin < loadLatency) (stores : intMin < storeLatency)
    (calls : List Call) : ∃ state, run loadLatency storeLatency calls = some state ∧
      Tracks loadLatency storeLatency calls state := by
  suffices defined : ∃ state, run loadLatency storeLatency calls = some state by
    rcases defined with ⟨state, reached⟩
    exact ⟨state, reached, tracks_of_run reached⟩
  induction calls using List.reverseRecOn with
  | nil => exact ⟨_, rfl⟩
  | append_singleton calls next ih =>
      rcases ih with ⟨state, reached⟩
      rw [run_concat, reached, Option.bind_some]
      cases next with
      | initMemory addr data => exact ⟨_, rfl⟩
      | issueRequest id op addr data => exact ⟨_, rfl⟩
      | tick =>
          have sound := (tracks_of_run reached).sound loads stores
          obtain ⟨current, -, ticked, -⟩ :=
            tick_spec (fun request member => Int.ne_of_gt (sound.countable request member))
              sound.buffered
          exact ⟨_, by rw [call, ticked]; rfl⟩
      | hasCompletedLoad => exact ⟨_, rfl⟩

end Run

/-- Every run matches the reference, whatever the latencies but the lowest
`int`. -/
theorem matchesReference {loadLatency storeLatency : Int} (loads : intMin < loadLatency)
    (stores : intMin < storeLatency) (calls : List Call) :
    MatchesReference loadLatency storeLatency calls := by
  rcases exists_tracks loads stores calls with ⟨state, reached, tracks⟩
  exact ⟨state, reached, tracks.inflightQueue_eq, tracks.appended_eq⟩

/-- A load of 3 cycles that overlaps a store of 2, and latencies that are not
positive. -/
theorem matchesReference_overlap :
    MatchesReference 3 2 [.issueRequest 1 .load 0x1000 0, .tick,
        .issueRequest 2 .store 0x1000 42, .tick, .tick] ∧
      MatchesReference 0 (-5) [.issueRequest 1 .load 0x1000 0, .tick] :=
  ⟨matchesReference (by decide) (by decide) _, matchesReference (by decide) (by decide) _⟩

/-- With the lowest `int` as latency a load is never counted down. -/
theorem not_matchesReference_intMin :
    ¬ MatchesReference intMin 1 [.issueRequest 1 .load 0x1000 0, .tick] := by
  rintro ⟨state, reached, -⟩
  have undefined : run intMin 1 [.issueRequest 1 .load 0x1000 0, .tick] = none := by rfl
  rw [undefined] at reached
  cases reached

end SystemcTlm.Lsu
