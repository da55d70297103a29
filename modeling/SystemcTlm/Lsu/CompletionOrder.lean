import SystemcTlm.Lsu.Reference
import Mathlib.Data.List.Nodup
import Mathlib.Order.Bounds.Basic

/-!
# The order in which completed loads are reported

`has_completed_load` takes its load from the back of `m_finished_loads`, to
which `tick` appends.  Loads are therefore not reported in the order in which
they completed: each report is of the last completed load that has not been
reported yet.  Every load is reported at most once, and none is lost.
-/

namespace SystemcTlm.Lsu

open SystemcTlm.Loop LSU

/-! ## Reports -/

/-- A unit with the loads that successful `has_completed_load` calls have
returned. -/
structure Reporting where
  logged : Logged
  returned : List (Int × UInt32)

/-- The load a call returns, if any. -/
def reportOf (next : Call) (lsu : LSU) : Option (Int × UInt32) :=
  match next with
  | .hasCompletedLoad => lsu.hasCompletedLoad.1
  | _ => none

/-- A call, with the load that it returns. -/
def reportingCall (state : Reporting) (next : Call) : Option Reporting := do
  let after ← call state.logged next
  some
    { logged := after
      returned := state.returned ++ (reportOf next state.logged.lsu).toList }

/-- The state after the calls, from construction, with its reports. -/
def reporting (loadLatency storeLatency : Int) (calls : List Call) : Option Reporting :=
  calls.foldlM reportingCall ⟨⟨LSU.new loadLatency storeLatency, []⟩, []⟩

/-- Positions of reports in the order of completion, where `completed` counts the
loads that complete in the course of the calls.  Every report is of the greatest
position that has not been reported, and there is no report only if there is no
such position. -/
inductive LastFirst (completed : List Call → Nat) : List Call → List Nat → Prop
  | start : LastFirst completed [] []
  | report {calls : List Call} {order : List Nat} {position : Nat} :
      LastFirst completed calls order →
      IsGreatest {p | p < completed calls ∧ p ∉ order} position →
      LastFirst completed (calls ++ [.hasCompletedLoad]) (order ++ [position])
  | exhausted {calls : List Call} {order : List Nat} :
      LastFirst completed calls order →
      (∀ p, p < completed calls → p ∈ order) →
      LastFirst completed (calls ++ [.hasCompletedLoad]) order
  | other {calls : List Call} {order : List Nat} {next : Call} :
      LastFirst completed calls order → next ≠ .hasCompletedLoad →
      LastFirst completed (calls ++ [next]) order

/-- The positions that have not been reported, in the order of completion. -/
def unreported (completed : Nat) (order : List Nat) : List Nat :=
  (List.range completed).filter fun p => p ∉ order

theorem mem_unreported {completed p : Nat} {order : List Nat} :
    p ∈ unreported completed order ↔ p < completed ∧ p ∉ order := by
  simp [unreported]

theorem unreported_pairwise (completed : Nat) (order : List Nat) :
    (unreported completed order).Pairwise (· < ·) :=
  List.pairwise_lt_range.filter _

/-- Loads that complete are unreported. -/
theorem unreported_add {completed : Nat} {order : List Nat}
    (within : ∀ p ∈ order, p < completed) (more : Nat) :
    unreported (completed + more) order =
      unreported completed order ++ (List.range more).map (completed + ·) := by
  rw [unreported, List.range_add, List.filter_append, unreported]
  congr 1
  rw [List.filter_eq_self]
  intro p member
  rcases List.mem_map.mp member with ⟨k, -, rfl⟩
  rw [decide_eq_true_eq]
  intro reported
  have less := within _ reported
  omega

/-- The last unreported position is the greatest, and its report leaves the
others. -/
theorem unreported_concat {completed position : Nat} {order before : List Nat}
    (split : unreported completed order = before ++ [position]) :
    IsGreatest {p | p < completed ∧ p ∉ order} position ∧
      unreported completed (order ++ [position]) = before := by
  have ascending := unreported_pairwise completed order
  rw [split, List.pairwise_append] at ascending
  have below : ∀ p ∈ before, p < position := fun p member =>
    ascending.2.2 p member position (List.mem_singleton_self position)
  refine ⟨⟨mem_unreported.mp (by simp [split]), fun p left => ?_⟩, ?_⟩
  · have member : p ∈ unreported completed order := mem_unreported.mpr left
    rw [split, List.mem_append, List.mem_singleton] at member
    rcases member with earlier | rfl
    · exact (below p earlier).le
    · exact le_rfl
  · have rest : unreported completed (order ++ [position]) =
        (unreported completed order).filter fun p => p ≠ position := by
      rw [unreported, unreported, List.filter_filter]
      apply List.filter_congr
      intro p _
      simp [and_comm]
    rw [rest, split, List.filter_append, List.filter_eq_self.mpr]
    · simp
    · intro p member
      simpa using (below p member).ne

/-! ## Runs -/

/-- What holds between the calls of a run: the reports stand at the positions in
`order`, and `m_finished_loads` holds the loads at the others. -/
structure Stacked (loadLatency : Int) (calls : List Call) (order : List Nat)
    (state : Reporting) : Prop where
  lastFirst : LastFirst (fun calls => (completedLoads loadLatency calls).length) calls order
  nodup : order.Nodup
  within : ∀ p ∈ order, p < (completedLoads loadLatency calls).length
  returned_eq : state.returned.map some =
    order.map fun p => (completedLoads loadLatency calls)[p]?
  finishedLoads_eq : state.logged.lsu.finishedLoads.map some =
    (unreported (completedLoads loadLatency calls).length order).map
      fun p => (completedLoads loadLatency calls)[p]?

section Run

variable {loadLatency storeLatency : Int} {calls : List Call} {order : List Nat}
  {state : Reporting}

/-- Loads that complete later do not move those at earlier positions. -/
theorem map_getElem?_append {loads new : List (Int × UInt32)} {positions : List Nat}
    (within : ∀ p ∈ positions, p < loads.length) :
    (positions.map fun p => (loads ++ new)[p]?) = positions.map fun p => loads[p]? := by
  apply List.map_congr_left
  intro p member
  exact List.getElem?_append_left (within p member)

/-- Appended loads stand at the positions after the others. -/
theorem map_some_eq (loads new : List (Int × UInt32)) :
    new.map some =
      ((List.range new.length).map (loads.length + ·)).map fun p => (loads ++ new)[p]? := by
  apply List.ext_getElem
  · simp
  · intro k bound _
    have inside : k < new.length := by simpa using bound
    simp [inside]

/-- A call other than `has_completed_load` appends the loads that it
completes. -/
theorem finishedLoads_grow {logged after : Logged}
    (tracks : Tracks loadLatency storeLatency calls logged) {next : Call}
    (called : call logged next = some after) (other : next ≠ .hasCompletedLoad) :
    ∃ new, after.lsu.finishedLoads = logged.lsu.finishedLoads ++ new ∧
      after.appended = logged.appended ++ new := by
  cases next with
  | initMemory addr data =>
      cases called
      exact ⟨[], (List.append_nil _).symm, (List.append_nil _).symm⟩
  | issueRequest id op addr data =>
      cases called
      exact ⟨[], (List.append_nil _).symm, (List.append_nil _).symm⟩
  | tick =>
      rcases Option.bind_eq_some_iff.mp called with ⟨lsu, counted, logged⟩
      obtain rfl := Option.some.inj logged
      rcases tick_spec (countable_of_tick counted) tracks.buffered with ⟨current, -, done, walked⟩
      obtain rfl := Option.some.inj (counted.symm.trans done)
      refine ⟨_, walked.finishedLoads_eq, ?_⟩
      change _ ++ current.1.finishedLoads.drop _ = _
      rw [walked.finishedLoads_eq, List.drop_left]
  | hasCompletedLoad => exact absurd rfl other

/-- A call that reports nothing. -/
theorem Stacked.other (stacked : Stacked loadLatency calls order state)
    (tracks : Tracks loadLatency storeLatency calls state.logged) {next : Call} {after : Logged}
    (called : call state.logged next = some after)
    (tracksAfter : Tracks loadLatency storeLatency (calls ++ [next]) after)
    (other : next ≠ .hasCompletedLoad) :
    Stacked loadLatency (calls ++ [next]) order
      { logged := after, returned := state.returned } := by
  rcases finishedLoads_grow tracks called other with ⟨new, finished, appended⟩
  have grown : completedLoads loadLatency (calls ++ [next]) =
      completedLoads loadLatency calls ++ new := by
    rw [← tracksAfter.appended_eq, appended, tracks.appended_eq]
  constructor
  · exact stacked.lastFirst.other other
  · exact stacked.nodup
  · intro p member
    have less := stacked.within p member
    rw [grown, List.length_append]
    omega
  · rw [grown, map_getElem?_append stacked.within]
    exact stacked.returned_eq
  · have before : ∀ p ∈ unreported (completedLoads loadLatency calls).length order,
        p < (completedLoads loadLatency calls).length := fun p member =>
      (mem_unreported.mp member).1
    dsimp only
    rw [grown, finished, List.length_append, unreported_add stacked.within, List.map_append,
      List.map_append, map_getElem?_append before, stacked.finishedLoads_eq]
    congr 1
    exact map_some_eq _ new

/-- A call that may report the last of `m_finished_loads`. -/
theorem Stacked.hasCompletedLoad (stacked : Stacked loadLatency calls order state) :
    ∃ order', Stacked loadLatency (calls ++ [.hasCompletedLoad]) order'
      { logged := { state.logged with lsu := state.logged.lsu.hasCompletedLoad.2 }
        returned := state.returned ++ state.logged.lsu.hasCompletedLoad.1.toList } := by
  have same : completedLoads loadLatency (calls ++ [.hasCompletedLoad]) =
      completedLoads loadLatency calls := by
    rw [completedLoads_concat, if_neg (by simp), List.append_nil]
  have finished := stacked.finishedLoads_eq
  rcases List.eq_nil_or_concat
    (unreported (completedLoads loadLatency calls).length order) with reported | ⟨before, p, split⟩
  · rw [reported, List.map_nil, List.map_eq_nil_iff] at finished
    refine ⟨order, stacked.lastFirst.exhausted fun p less => ?_, stacked.nodup, ?_, ?_, ?_⟩
    · by_contra left
      have member := mem_unreported.mpr ⟨less, left⟩
      rw [reported] at member
      cases member
    · rw [same]
      exact stacked.within
    · rw [same, LSU.hasCompletedLoad, finished]
      simpa using stacked.returned_eq
    · rw [same, LSU.hasCompletedLoad, finished, reported]
      rfl
  · rw [List.concat_eq_append] at split
    rcases unreported_concat split with ⟨greatest, rest⟩
    rw [split, List.map_append, List.map_eq_append_iff] at finished
    rcases finished with ⟨loads, last, parts, loads_eq, last_eq⟩
    rcases List.map_eq_singleton_iff.mp last_eq with ⟨load, rfl, -⟩
    refine ⟨order ++ [p], stacked.lastFirst.report greatest, ?_, ?_, ?_, ?_⟩
    · exact stacked.nodup.append (List.nodup_singleton p)
        (List.disjoint_singleton.mpr greatest.1.2)
    · rw [same]
      intro q member
      rcases List.mem_append.mp member with earlier | new
      · exact stacked.within q earlier
      · rw [List.mem_singleton.mp new]
        exact greatest.1.1
    · rw [same, LSU.hasCompletedLoad, parts, List.getLast?_concat, Option.toList_some,
        List.map_append, List.map_append, stacked.returned_eq, last_eq]
    · rw [same, rest, LSU.hasCompletedLoad, parts, List.dropLast_concat, loads_eq]

theorem reporting_concat (loadLatency storeLatency : Int) (calls : List Call) (next : Call) :
    reporting loadLatency storeLatency (calls ++ [next]) =
      (reporting loadLatency storeLatency calls).bind fun state => reportingCall state next :=
  foldlM_concat reportingCall calls next _

theorem reportingCall_eq_some {next : Call} {after : Reporting}
    (called : reportingCall state next = some after) :
    call state.logged next = some after.logged ∧
      after.returned = state.returned ++ (reportOf next state.logged.lsu).toList := by
  rcases Option.bind_eq_some_iff.mp called with ⟨logged, reached, done⟩
  obtain rfl := Option.some.inj done
  exact ⟨reached, rfl⟩

/-- The reports do not change the run. -/
theorem run_of_reporting (reached : reporting loadLatency storeLatency calls = some state) :
    run loadLatency storeLatency calls = some state.logged := by
  induction calls using List.reverseRecOn generalizing state with
  | nil =>
      cases reached
      rfl
  | append_singleton calls next ih =>
      rw [reporting_concat, Option.bind_eq_some_iff] at reached
      rcases reached with ⟨before, earlier, called⟩
      rw [run_concat, ih earlier, Option.bind_some]
      exact (reportingCall_eq_some called).1

theorem exists_stacked (reached : reporting loadLatency storeLatency calls = some state) :
    ∃ order, Stacked loadLatency calls order state := by
  induction calls using List.reverseRecOn generalizing state with
  | nil =>
      cases reached
      exact ⟨[], .start, List.nodup_nil, by simp, rfl, rfl⟩
  | append_singleton calls next ih =>
      have tracksAfter := tracks_of_run (run_of_reporting reached)
      rw [reporting_concat, Option.bind_eq_some_iff] at reached
      rcases reached with ⟨before, earlier, called⟩
      rcases ih earlier with ⟨order, stacked⟩
      rcases reportingCall_eq_some called with ⟨logged, returned⟩
      by_cases poll : next = .hasCompletedLoad
      · subst poll
        rcases state with ⟨after, all⟩
        cases logged
        cases returned
        exact stacked.hasCompletedLoad
      · have silent : reportOf next before.logged.lsu = none := by
          cases next with
          | hasCompletedLoad => exact absurd rfl poll
          | initMemory addr data => rfl
          | issueRequest id op addr data => rfl
          | tick => rfl
        rcases state with ⟨after, all⟩
        rw [silent, Option.toList_none, List.append_nil] at returned
        obtain rfl : all = before.returned := returned
        exact ⟨order, stacked.other (tracks_of_run (run_of_reporting earlier)) logged tracksAfter
          poll⟩

end Run

/-- Every report is of the last completed load that has not been reported, and
`has_completed_load` fails only if there is none.  The loads that have not been
reported are still in `m_finished_loads`. -/
theorem reported_last_first {loadLatency storeLatency : Int} {calls : List Call}
    {state : Reporting} (reached : reporting loadLatency storeLatency calls = some state) :
    ∃ order, LastFirst (fun calls => (completedLoads loadLatency calls).length) calls order ∧
      order.Nodup ∧
      (state.returned.map some = order.map fun p => (completedLoads loadLatency calls)[p]?) ∧
      state.logged.lsu.finishedLoads.map some =
        (unreported (completedLoads loadLatency calls).length order).map
          fun p => (completedLoads loadLatency calls)[p]? := by
  rcases exists_stacked reached with ⟨order, stacked⟩
  exact ⟨order, stacked.lastFirst, stacked.nodup, stacked.returned_eq, stacked.finishedLoads_eq⟩

/-- Three loads, of which the second and the third complete in one tick. -/
theorem reported_last_first_three_loads :
    ∃ order, LastFirst (fun calls => (completedLoads 1 calls).length)
      [.issueRequest 1 .load 0x1000 0, .tick, .hasCompletedLoad, .issueRequest 2 .load 0x1000 0,
        .issueRequest 3 .load 0x2000 0, .tick, .hasCompletedLoad] order ∧ order.Nodup := by
  rcases @reported_last_first 1 1
    [.issueRequest 1 .load 0x1000 0, .tick, .hasCompletedLoad, .issueRequest 2 .load 0x1000 0,
      .issueRequest 3 .load 0x2000 0, .tick, .hasCompletedLoad] _ rfl with ⟨order, last, nodup, -⟩
  exact ⟨order, last, nodup⟩

/-- Of two loads that complete in one tick the second is reported first. -/
theorem not_reported_in_order :
    ¬ ∀ state, reporting 1 1 [.issueRequest 1 .load 0x1000 0, .issueRequest 2 .load 0x2000 0,
        .tick, .hasCompletedLoad] = some state →
      state.returned <+: completedLoads 1 [.issueRequest 1 .load 0x1000 0,
        .issueRequest 2 .load 0x2000 0, .tick, .hasCompletedLoad] := by
  intro inOrder
  have first := inOrder _ rfl
  exact absurd first (by decide)

end SystemcTlm.Lsu
