import SystemcTlm.Dpa.Wavefront
import SystemcTlm.Loop.Scan

/-!
# Runs of `dpa_scheduler`

The grants of an arbitration are a maximal matching of the requests, whatever
grants it finds.  The first diagonal has no conflicts, so all its requests are
granted; the pointer turns by one in every call, and so every requested cell is
granted once in a turn.
-/

namespace SystemcTlm.Dpa.DpaScheduler

open SystemcTlm.Loop SystemcTlm.Matching SystemcTlm.Transition

section Calls

variable {sch next : DpaScheduler}

/-- What an arbitration leaves, in terms of the greedy matching. -/
theorem arbitration_spec (built : sch.Built) :
    ∃ next, sch.arbitration = some next ∧ next.ptr = (sch.ptr + 1) % sch.numPorts ∧
      next.numPorts = sch.numPorts ∧ next.requests = sch.requests ∧ next.dpaMap = sch.dpaMap ∧
      ∀ i, i < sch.numPorts → ∀ j, j < sch.numPorts →
        (next.grants i j ≠ 0 ↔
          (i, j) ∈ greedy sch.requested (wavefront sch.numPorts sch.ptr)) := by
  rcases arbitration_decides built with ⟨current, decided, done⟩
  refine ⟨_, done, rfl, decided.numPorts_eq, decided.requests_eq, decided.dpaMap_eq, ?_⟩
  intro i iBound j jBound
  change current.grants i j ≠ 0 ↔ _
  rw [decided.grants_eq, if_pos ((mem_wavefront_iff built.ptr_lt).mpr ⟨iBound, jBound⟩)]
  split_ifs with taken
  · have asks : sch.requests i j ≠ 0 := of_decide_eq_true (mem_of_mem_greedy taken).2
    simp [asks, taken]
  · simp [taken]

theorem built_new {inputPort outputPort : Nat} (ports : 1 ≤ max inputPort outputPort) :
    (new inputPort outputPort).Built :=
  ⟨ports, rfl⟩

/-- A request moves no pointer and withdraws no request. -/
theorem request_frame (inputPort outputPort : Int) (sch : DpaScheduler) :
    (sch.request inputPort outputPort).ptr = sch.ptr ∧
      (sch.request inputPort outputPort).numPorts = sch.numPorts ∧
      (sch.request inputPort outputPort).dpaMap = sch.dpaMap ∧
      ∀ i j, sch.requests i j ≠ 0 → (sch.request inputPort outputPort).requests i j ≠ 0 := by
  unfold request
  split_ifs with valid
  · refine ⟨rfl, rfl, rfl, fun i j asks => ?_⟩
    simp only [update₂_apply]
    split_ifs
    · decide
    · exact asks
  · exact ⟨rfl, rfl, rfl, fun _ _ asks => asks⟩

theorem Built.request (built : sch.Built) (inputPort outputPort : Int) :
    (sch.request inputPort outputPort).Built := by
  rcases request_frame inputPort outputPort sch with ⟨ptr, numPorts, dpaMap, _⟩
  constructor
  · rw [ptr, numPorts]
    exact built.ptr_lt
  · rw [dpaMap, numPorts]
    exact built.dpaMap_eq

theorem Built.arbitration (built : sch.Built) : (call .arbitration sch).Built := by
  rcases arbitration_spec built with ⟨next, done, ptr, numPorts, _, dpaMap, _⟩
  rw [call, done, Option.getD_some]
  constructor
  · rw [ptr, numPorts]
    exact Nat.mod_lt _ (Nat.zero_lt_of_lt built.ptr_lt)
  · rw [dpaMap, numPorts]
    exact built.dpaMap_eq

theorem Built.call (built : sch.Built) (next : Call) : (call next sch).Built := by
  cases next with
  | request inputPort outputPort => exact built.request inputPort outputPort
  | init => exact ⟨built.ptr_lt, built.dpaMap_eq⟩
  | arbitration => exact built.arbitration

theorem built_run {inputPort outputPort : Nat} (ports : 1 ≤ max inputPort outputPort)
    (calls : List Call) : (run inputPort outputPort calls).Built :=
  runCalls_invariant Built (built_new ports) fun next _ built => built.call next

end Calls

/-- The grants are a maximal matching: from every state the calls reach, with
any requests and whatever grants stand there, every access of an arbitration is
in range, only requested cells are granted, no row and no column twice, and a
requested cell without a grant has one in its row or in its column. -/
theorem arbitration_grants_maximal {inputPort outputPort : Nat}
    (ports : 1 ≤ max inputPort outputPort) (calls : List Call) (requests grants : Nat → Nat → Int)
    {sch : DpaScheduler}
    (reached : sch = { run inputPort outputPort calls with
      requests := requests, grants := grants }) :
    ∃ next, sch.arbitration = some next ∧
      (∀ i, i < sch.numPorts → ∀ j, j < sch.numPorts →
        next.grants i j ≠ 0 → requests i j ≠ 0) ∧
      (∀ i, i < sch.numPorts → ∀ j, j < sch.numPorts → ∀ j', j' < sch.numPorts →
        next.grants i j ≠ 0 → next.grants i j' ≠ 0 → j = j') ∧
      (∀ i, i < sch.numPorts → ∀ i', i' < sch.numPorts → ∀ j, j < sch.numPorts →
        next.grants i j ≠ 0 → next.grants i' j ≠ 0 → i = i') ∧
      ∀ i, i < sch.numPorts → ∀ j, j < sch.numPorts → requests i j ≠ 0 → next.grants i j = 0 →
        (∃ j', j' < sch.numPorts ∧ next.grants i j' ≠ 0) ∨
          ∃ i', i' < sch.numPorts ∧ next.grants i' j ≠ 0 := by
  have built : sch.Built := by
    rw [reached]
    exact ⟨(built_run ports calls).ptr_lt, (built_run ports calls).dpaMap_eq⟩
  have asked : sch.requests = requests := by rw [reached]
  rcases arbitration_spec built with ⟨next, done, _, _, _, _, granted⟩
  have isMatching := greedy_isMatching sch.requested (wavefront sch.numPorts sch.ptr)
  refine ⟨next, done, ?_, ?_, ?_, ?_⟩
  · intro i iBound j jBound grant
    have taken := (granted i iBound j jBound).mp grant
    rw [← asked]
    exact of_decide_eq_true (mem_of_mem_greedy taken).2
  · intro i iBound j jBound j' jBound' grant grant'
    have same := List.inj_on_of_nodup_map isMatching.inputs_nodup
      ((granted i iBound j jBound).mp grant) ((granted i iBound j' jBound').mp grant') rfl
    exact congrArg Prod.snd same
  · intro i iBound i' iBound' j jBound grant grant'
    have same := List.inj_on_of_nodup_map isMatching.outputs_nodup
      ((granted i iBound j jBound).mp grant) ((granted i' iBound' j jBound).mp grant') rfl
    exact congrArg Prod.fst same
  · intro i iBound j jBound asks _
    have visited := (mem_wavefront_iff built.ptr_lt).mpr ⟨iBound, jBound⟩
    have wanted : sch.requested (i, j).1 (i, j).2 = true := by
      rw [← asked] at asks
      exact decide_eq_true asks
    rcases greedy_maximal visited wanted with ⟨⟨i', j'⟩, taken, shared⟩
    obtain ⟨iBound', jBound'⟩ :=
      (mem_wavefront_iff built.ptr_lt).mp (mem_of_mem_greedy taken).1
    rcases shared with rfl | rfl
    · exact Or.inl ⟨j', jBound', (granted _ iBound' j' jBound').mpr taken⟩
    · exact Or.inr ⟨i', iBound', (granted i' iBound' _ jBound').mpr taken⟩

/-- Three ports after one arbitration, with all requests set and stale grants
everywhere. -/
def staleGrants : DpaScheduler :=
  { run 3 3 [.arbitration] with
    requests := fun _ _ => 1
    grants := fun _ _ => 1 }

theorem arbitration_grants_maximal_three_ports :
    ∃ next, staleGrants.arbitration = some next ∧
      ∀ i, i < staleGrants.numPorts → ∀ j, j < staleGrants.numPorts →
        ∀ j', j' < staleGrants.numPorts →
          next.grants i j ≠ 0 → next.grants i j' ≠ 0 → j = j' := by
  obtain ⟨next, done, _, rows, _⟩ := arbitration_grants_maximal (show 1 ≤ max 3 3 by decide)
    [.arbitration] (fun _ _ => 1) (fun _ _ => 1) (show staleGrants = _ from rfl)
  exact ⟨next, done, rows⟩

/-! ## Fairness -/

/-- Requests made one after the other. -/
def ask (requests : List (Int × Int)) (sch : DpaScheduler) : DpaScheduler :=
  requests.foldl (fun current next => current.request next.1 next.2) sch

/-- The state at the start of the `t`-th arbitration, `arrivals t` having been
requested before it. -/
def atCall (arrivals : Nat → List (Int × Int)) (start : DpaScheduler) (t : Nat) : DpaScheduler :=
  atSlot (fun t => ask (arrivals t)) (call .arbitration) start t

/-- What stays over the slots of a run, the pointer turning with them. -/
structure Turning (start : DpaScheduler) (i j : Nat) (t : Nat) (sch : DpaScheduler) : Prop
    extends Built sch where
  ptr_eq : sch.ptr = (start.ptr + t) % start.numPorts
  numPorts_eq : sch.numPorts = start.numPorts
  requested : sch.requests i j ≠ 0

section Fairness

variable {start sch : DpaScheduler} {i j t : Nat}

theorem Turning.ask (turning : Turning start i j t sch) (requests : List (Int × Int)) :
    Turning start i j t (ask requests sch) := by
  induction requests generalizing sch with
  | nil => exact turning
  | cons next rest ih =>
      apply ih
      rcases request_frame next.1 next.2 sch with ⟨ptr, numPorts, _, kept⟩
      exact {
        toBuilt := turning.toBuilt.request next.1 next.2
        ptr_eq := ptr.trans turning.ptr_eq
        numPorts_eq := numPorts.trans turning.numPorts_eq
        requested := kept i j turning.requested }

theorem Turning.arbitration (turning : Turning start i j t sch) :
    Turning start i j (t + 1) (call .arbitration sch) := by
  rcases arbitration_spec turning.toBuilt with ⟨next, done, ptr, numPorts, requests, _, _⟩
  have built := turning.toBuilt.arbitration
  rw [call, done, Option.getD_some] at built ⊢
  exact {
    toBuilt := built
    ptr_eq := by
      rw [ptr, turning.ptr_eq, turning.numPorts_eq, Nat.mod_add_mod, Nat.add_assoc]
    numPorts_eq := numPorts.trans turning.numPorts_eq
    requested := by
      rw [requests]
      exact turning.requested }

theorem ask_frame (requests : List (Int × Int)) (sch : DpaScheduler) :
    (ask requests sch).ptr = sch.ptr ∧ (ask requests sch).numPorts = sch.numPorts := by
  induction requests generalizing sch with
  | nil => exact ⟨rfl, rfl⟩
  | cons next rest ih =>
      rcases request_frame next.1 next.2 sch with ⟨ptr, numPorts, _⟩
      rcases ih (sch.request next.1 next.2) with ⟨ptrRest, numPortsRest⟩
      exact ⟨ptrRest.trans ptr, numPortsRest.trans numPorts⟩

theorem Built.ask (built : sch.Built) (requests : List (Int × Int)) : (ask requests sch).Built := by
  induction requests generalizing sch with
  | nil => exact built
  | cons next rest ih => exact ih (built.request next.1 next.2)

theorem turning_atCall (built : start.Built) (arrivals : Nat → List (Int × Int))
    (asked : (atCall arrivals start 0).requests i j ≠ 0) (t : Nat) :
    Turning start i j t (atCall arrivals start t) := by
  induction t with
  | zero =>
      rcases ask_frame (arrivals 0) start with ⟨ptr, numPorts⟩
      exact {
        toBuilt := built.ask (arrivals 0)
        ptr_eq := ptr.trans (Nat.mod_eq_of_lt built.ptr_lt).symm
        numPorts_eq := numPorts
        requested := asked }
  | succ t ih => exact ih.arbitration.ask (arrivals (t + 1))

/-- The requests on the diagonal of the pointer are all granted. -/
theorem granted_of_first_diagonal (built : sch.Built) (iBound : i < sch.numPorts)
    (jBound : j < sch.numPorts) (asks : sch.requests i j ≠ 0)
    (turn : (i + j) % sch.numPorts = sch.ptr) :
    ∃ next, sch.arbitration = some next ∧ next.hasGranted i j ≠ 0 := by
  rcases arbitration_spec built with ⟨next, done, _, numPorts, _, _, granted⟩
  have ptrBound := built.ptr_lt
  have first : (i, j) ∈ diagonal sch.numPorts sch.ptr := by
    rw [← turn]
    exact List.mem_map.mpr ⟨j, List.mem_range.mpr jBound, cellAt_of_sum iBound jBound⟩
  have split : ∃ rest, wavefront sch.numPorts sch.ptr =
      diagonal sch.numPorts sch.ptr ++ rest := by
    obtain ⟨others, rows⟩ : ∃ others, sch.numPorts - sch.ptr = others + 1 :=
      ⟨sch.numPorts - sch.ptr - 1, by omega⟩
    rw [wavefront, rowsFrom, rows, List.range'_succ, List.cons_append, List.flatMap_cons]
    exact ⟨_, rfl⟩
  rcases split with ⟨rest, order⟩
  refine ⟨next, done, ?_⟩
  have valid : next.isValidPort i = true ∧ next.isValidPort j = true := by
    simp [isValidPort, numPorts, iBound, jBound]
  rw [hasGranted, if_pos valid, Int.toNat_natCast, Int.toNat_natCast, granted i iBound j jBound,
    order]
  exact mem_greedy_of_isMatching (diagonal_isMatching ptrBound) first (decide_eq_true asks)

end Fairness

/-- Rotating-diagonal fairness: a pair that is requested when the first of
`m_num_ports` consecutive arbitrations begins is granted by one of them,
whatever is requested in between. -/
theorem granted_within_rotation {inputPort outputPort : Nat}
    (ports : 1 ≤ max inputPort outputPort) (calls : List Call)
    (arrivals : Nat → List (Int × Int)) {start : DpaScheduler}
    (reached : start = run inputPort outputPort calls) {i j : Nat} (iBound : i < start.numPorts)
    (jBound : j < start.numPorts) (asked : (atCall arrivals start 0).requests i j ≠ 0) :
    ∃ t, t < start.numPorts ∧ ∃ next, (atCall arrivals start t).arbitration = some next ∧
      next.hasGranted i j ≠ 0 := by
  have built : start.Built := by
    rw [reached]
    exact built_run ports calls
  have sumBound : (i + j) % start.numPorts < start.numPorts := Nat.mod_lt _ (by omega)
  refine ⟨ringDist start.numPorts start.ptr ((i + j) % start.numPorts),
    ringDist_lt built.ptr_lt sumBound, ?_⟩
  have turning := turning_atCall built arrivals asked
    (ringDist start.numPorts start.ptr ((i + j) % start.numPorts))
  apply granted_of_first_diagonal turning.toBuilt (turning.numPorts_eq.symm ▸ iBound)
    (turning.numPorts_eq.symm ▸ jBound) turning.requested
  rw [turning.ptr_eq, turning.numPorts_eq, add_ringDist_mod built.ptr_lt sumBound]

/-- Two ports and all pairs requested: the pair `(1, 0)` waits for the second
diagonal. -/
theorem granted_within_rotation_two_ports :
    ∃ t, t < (run 2 2 []).numPorts ∧ ∃ next,
      (atCall (fun _ => [(0, 0), (0, 1), (1, 0), (1, 1)]) (run 2 2 []) t).arbitration =
        some next ∧ next.hasGranted (1 : Nat) (0 : Nat) ≠ 0 :=
  granted_within_rotation (show 1 ≤ max 2 2 by decide) [] _ rfl (by decide) (by decide)
    (by decide)

/-! ## The result list -/

/-- The list has the granted pairs once each, and no others. -/
def ResultsAgree (sch : DpaScheduler) : Prop :=
  ∀ i j : Int, sch.schResult.count (i, j) = if sch.hasGranted i j ≠ 0 then 1 else 0

section Results

variable {sch next : DpaScheduler}

theorem hasGranted_natCast {i j : Nat} (iBound : i < sch.numPorts) (jBound : j < sch.numPorts) :
    sch.hasGranted i j = sch.grants i j := by
  have valid : sch.isValidPort i = true ∧ sch.isValidPort j = true := by
    simp [isValidPort, iBound, jBound]
  rw [hasGranted, if_pos valid, Int.toNat_natCast, Int.toNat_natCast]

/-- An empty list agrees with the grants if and only if there are none. -/
theorem resultsAgree_iff_of_nil (empty : sch.schResult = []) :
    sch.ResultsAgree ↔
      ∀ i, i < sch.numPorts → ∀ j, j < sch.numPorts → sch.grants i j = 0 := by
  rw [ResultsAgree, empty]
  constructor
  · intro agree i iBound j jBound
    have counted := agree i j
    rw [hasGranted_natCast iBound jBound] at counted
    by_contra granted
    rw [if_pos granted] at counted
    cases counted
  · intro none i j
    rw [if_neg]
    · rfl
    · rw [hasGranted]
      split_ifs with valid
      · simp only [isValidPort, decide_eq_true_eq] at valid
        exact not_not.mpr (none i.toNat (by omega) j.toNat (by omega))
      · exact not_not.mpr rfl

theorem schResult_arbitration (built : sch.Built) (done : sch.arbitration = some next) :
    next.schResult = [] := by
  rcases arbitration_decides built with ⟨current, decided, done'⟩
  rw [done] at done'
  cases done'
  exact decided.schResult_eq

/-- Some request is granted wherever there is one. -/
theorem grants_eq_zero_iff (built : sch.Built) (done : sch.arbitration = some next) :
    (∀ i, i < sch.numPorts → ∀ j, j < sch.numPorts → next.grants i j = 0) ↔
      ∀ i, i < sch.numPorts → ∀ j, j < sch.numPorts → sch.requests i j = 0 := by
  rcases arbitration_spec built with ⟨next', done', -, -, -, -, granted⟩
  rw [done] at done'
  cases done'
  constructor
  · intro none i iBound j jBound
    by_contra asks
    have visited := (mem_wavefront_iff built.ptr_lt).mpr ⟨iBound, jBound⟩
    have wanted : sch.requested (i, j).1 (i, j).2 = true := decide_eq_true asks
    rcases greedy_maximal visited wanted with ⟨⟨i', j'⟩, taken, -⟩
    obtain ⟨iBound', jBound'⟩ :=
      (mem_wavefront_iff built.ptr_lt).mp (mem_of_mem_greedy taken).1
    exact (granted i' iBound' j' jBound').mpr taken (none i' iBound' j' jBound')
  · intro none i iBound j jBound
    by_contra grant
    have taken := (granted i iBound j jBound).mp grant
    exact of_decide_eq_true (mem_of_mem_greedy taken).2 (none i iBound j jBound)

end Results

/-- `sch_result` is cleared and never filled: after an arbitration, it agrees
with the grants if and only if nothing was requested. -/
theorem resultsAgree_iff {inputPort outputPort : Nat} (ports : 1 ≤ max inputPort outputPort)
    (calls : List Call) (requests grants : Nat → Nat → Int) {sch : DpaScheduler}
    (reached : sch = { run inputPort outputPort calls with
      requests := requests, grants := grants }) :
    ∃ next, sch.arbitration = some next ∧
      (next.ResultsAgree ↔
        ∀ i, i < sch.numPorts → ∀ j, j < sch.numPorts → requests i j = 0) := by
  have built : sch.Built := by
    rw [reached]
    exact ⟨(built_run ports calls).ptr_lt, (built_run ports calls).dpaMap_eq⟩
  have asked : sch.requests = requests := by rw [reached]
  rcases arbitration_spec built with ⟨next, done, -, numPorts, -⟩
  refine ⟨next, done, ?_⟩
  rw [resultsAgree_iff_of_nil (schResult_arbitration built done), numPorts, ← asked]
  exact grants_eq_zero_iff built done

/-- One port and its request. -/
def onePort : DpaScheduler :=
  { run 1 1 [] with
    requests := fun _ _ => 1
    grants := fun _ _ => 0 }

theorem resultsAgree_iff_onePort :
    ∃ next, onePort.arbitration = some next ∧
      (next.ResultsAgree ↔
        ∀ i, i < onePort.numPorts → ∀ j, j < onePort.numPorts → (1 : Int) = 0) :=
  resultsAgree_iff (show 1 ≤ max 1 1 by decide) [] (fun _ _ => 1) (fun _ _ => 0) rfl

/-- The request is granted, and the list stays empty. -/
theorem not_resultsAgree :
    (run 1 1 [.request 0 0, .arbitration]).hasGranted 0 0 = 1 ∧
      (run 1 1 [.request 0 0, .arbitration]).schResult = [] ∧
      ¬ ∀ (inputPort outputPort : Nat) (calls : List Call), 1 ≤ max inputPort outputPort →
        (run inputPort outputPort (calls ++ [.arbitration])).ResultsAgree := by
  have granted : (run 1 1 [.request 0 0, .arbitration]).hasGranted 0 0 = 1 := by
    decide +kernel
  have empty : (run 1 1 [.request 0 0, .arbitration]).schResult = [] := by
    decide +kernel
  refine ⟨granted, empty, fun all => ?_⟩
  have counted := all 1 1 [.request 0 0] (by decide) 0 0
  rw [List.singleton_append, granted, empty] at counted
  exact absurd counted (by decide)

/-! ## Saturation -/

/-- The `t`-th arbitration grants the pair. -/
def GrantedAt (arrivals : Nat → List (Int × Int)) (start : DpaScheduler) (i j t : Nat) : Prop :=
  ∃ next, (atCall arrivals start t).arbitration = some next ∧ next.hasGranted i j ≠ 0

section Saturation

variable {sch : DpaScheduler} {i j : Nat}

/-- If all pairs of the pointer's diagonal are requested, no others are granted,
since the diagonal has a cell in each row. -/
theorem diagonal_of_granted (built : sch.Built)
    (requested : ∀ i j, i < sch.numPorts → j < sch.numPorts → (i + j) % sch.numPorts = sch.ptr →
      sch.requests i j ≠ 0)
    {next : DpaScheduler} (done : sch.arbitration = some next) (iBound : i < sch.numPorts)
    (jBound : j < sch.numPorts) (granted : next.hasGranted i j ≠ 0) :
    (i + j) % sch.numPorts = sch.ptr := by
  have turn := add_ringDist_mod iBound built.ptr_lt
  have bound := ringDist_lt iBound built.ptr_lt
  rcases granted_of_first_diagonal built iBound bound (requested i _ iBound bound turn) turn with
    ⟨next', done', first⟩
  rw [done] at done'
  cases done'
  rcases arbitration_spec built with ⟨next', done', -, numPorts, -, -, taken⟩
  rw [done] at done'
  cases done'
  rw [hasGranted_natCast (numPorts.symm ▸ iBound) (numPorts.symm ▸ jBound),
    taken i iBound j jBound] at granted
  rw [hasGranted_natCast (numPorts.symm ▸ iBound) (numPorts.symm ▸ bound),
    taken i iBound _ bound] at first
  have same := List.inj_on_of_nodup_map
    (greedy_isMatching sch.requested (wavefront sch.numPorts sch.ptr)).inputs_nodup granted first rfl
  rw [(Prod.mk.inj same).2]
  exact turn

end Saturation

/-- Once all pairs are requested, every arbitration grants one diagonal and nothing
else, the next one in turn; so it fills the crossbar, and each pair is granted
exactly once in any `m_num_ports` arbitrations. -/
theorem saturated_rotates {inputPort outputPort : Nat} (ports : 1 ≤ max inputPort outputPort)
    (calls : List Call) (arrivals : Nat → List (Int × Int)) {start : DpaScheduler}
    (reached : start = run inputPort outputPort calls)
    (saturated : ∀ i, i < start.numPorts → ∀ j, j < start.numPorts →
      (atCall arrivals start 0).requests i j ≠ 0)
    {i j : Nat} (iBound : i < start.numPorts) (jBound : j < start.numPorts) (t : Nat) :
    (GrantedAt arrivals start i j t ↔
        (i + j) % start.numPorts = (start.ptr + t) % start.numPorts) ∧
      ∃! k, k < start.numPorts ∧ GrantedAt arrivals start i j (t + k) := by
  have built : start.Built := by
    rw [reached]
    exact built_run ports calls
  have granted : ∀ t, GrantedAt arrivals start i j t ↔
      (i + j) % start.numPorts = (start.ptr + t) % start.numPorts := by
    intro t
    have turning := fun i iBound j jBound =>
      turning_atCall built arrivals (saturated i iBound j jBound) t
    have here := turning i iBound j jBound
    have ptr := here.ptr_eq
    rw [← here.numPorts_eq] at iBound jBound ptr ⊢
    rw [← ptr]
    constructor
    · rintro ⟨next, done, grant⟩
      refine diagonal_of_granted here.toBuilt (fun i' j' iBound' jBound' _ => ?_) done iBound jBound
        grant
      rw [here.numPorts_eq] at iBound' jBound'
      exact (turning i' iBound' j' jBound').requested
    · exact granted_of_first_diagonal here.toBuilt iBound jBound here.requested
  refine ⟨granted t, ?_⟩
  have pos : 0 < start.numPorts := Nat.zero_lt_of_lt iBound
  have now := Nat.mod_lt (start.ptr + t) pos
  have turn := Nat.mod_lt (i + j) pos
  refine ⟨ringDist start.numPorts ((start.ptr + t) % start.numPorts) ((i + j) % start.numPorts),
    ⟨ringDist_lt now turn, ?_⟩, ?_⟩
  · rw [granted, ← Nat.add_assoc, ← Nat.mod_add_mod (start.ptr + t), add_ringDist_mod now turn]
  · rintro k ⟨within, grant⟩
    rw [granted, ← Nat.add_assoc, ← Nat.mod_add_mod (start.ptr + t)] at grant
    have landed := (add_ringDist_mod now turn).trans grant
    exact (Nat.ModEq.add_left_cancel' _ landed).symm.eq_of_lt_of_lt within (ringDist_lt now turn)

/-- Two ports of which all pairs are requested. -/
theorem saturated_rotates_two_ports :
    ∃! k, k < (run 2 2 []).numPorts ∧
      GrantedAt (fun _ => [(0, 0), (0, 1), (1, 0), (1, 1)]) (run 2 2 []) 1 0 (5 + k) :=
  (saturated_rotates (show 1 ≤ max 2 2 by decide) [] (fun _ => [(0, 0), (0, 1), (1, 0), (1, 1)])
    rfl (by decide) (by decide) (by decide) 5).2

end SystemcTlm.Dpa.DpaScheduler
