import SystemcTlm.Islip.Fifo

/-!
# The heads of the queues of `fifo`

The packet at the head of a queue waits for its output.  Every arbitration in
which the output sends another packet brings its pointer closer to the input,
and what arrives meanwhile stands behind the head, so the head is sent within as
many arbitrations as there are inputs.

`request` checks the input and not the output.  A head whose destination is no
output is never sent, and neither is anything behind it.
-/

namespace SystemcTlm.Islip.Fifo

open SystemcTlm.Loop SystemcTlm.Transition

/-! ## One arbitration -/

section Arbitration

variable {fifo : Fifo}

/-- The pointer of an output that has granted moves past the input. -/
theorem arbitration_moves (inRange : fifo.InRange) :
    ∃ sent next, fifo.arbitration = some (sent, next) ∧
      Served fifo (List.range fifo.outputNum) (sent, next) ∧
      ∀ output, output < fifo.outputNum →
        next.gPtr output = advance fifo.inputNum (fifo.gPtr output) (fifo.grantOf output) := by
  let moved (done : List Nat) (current : List FifoMatch × Fifo) : Prop :=
    ∀ output, current.2.gPtr output =
      if output ∈ done then advance fifo.inputNum (fifo.gPtr output) (fifo.grantOf output)
      else fifo.gPtr output
  have initial : moved [] ([], doGrant (reset fifo)) := by
    rw [doGrant_eq]
    exact fun output => by simp
  obtain ⟨sent, next, done, served, moves⟩ := arbitration_induction
    (fun done current => Served fifo done current ∧ moved done current)
    ⟨Served.start inRange, initial⟩ (by
      rintro done output current bound fresh within ⟨served, moves⟩
      rcases served.updateOutput inRange bound fresh within with ⟨after, updated, servedAfter⟩
      refine ⟨after, updated, servedAfter, fun other => ?_⟩
      have ptr : after.2.gPtr other = if other = output then
          advance fifo.inputNum (current.2.gPtr output) (fifo.grantOf output)
          else current.2.gPtr other := by
        rw [updateOutput, served.inputNum_eq, served.grants_eq, find?_grants inRange bound]
          at updated
        cases grants : fifo.grantOf output with
        | none =>
            rw [grants] at updated
            cases updated
            by_cases here : other = output <;> simp [here]
        | some input =>
            rw [grants] at updated
            simp only [popHead] at updated
            split at updated
            · cases updated
            · cases updated
              simp [Function.update_apply, served.inputNum_eq]
      rw [ptr, moves, moves, if_neg fresh]
      by_cases here : other = output <;> simp [here])
  refine ⟨sent, next, done, served, fun output bound => ?_⟩
  exact (moves output).trans (if_pos (List.mem_range.mpr bound))

/-- What an arbitration does for a head that an output waits for: either the
head is sent, or it stays and the pointer of its output comes closer. -/
theorem head_served (inRange : fifo.InRange) {input output : Nat}
    (inputBound : input < fifo.inputNum) (outputBound : output < fifo.outputNum)
    (head : (fifo.fifos input).head? = some (output : Int)) :
    ∃ sent next, fifo.arbitration = some (sent, next) ∧
      (poppedAt input sent = [(output : Int)] ∨
        poppedAt input sent = [] ∧ next.fifos input = fifo.fifos input ∧
          ringDist fifo.inputNum (next.gPtr output) input <
            ringDist fifo.inputNum (fifo.gPtr output) input) := by
  rcases arbitration_moves inRange with ⟨sent, next, done, served, moves⟩
  refine ⟨sent, next, done, ?_⟩
  obtain ⟨first, grants⟩ := Option.isSome_iff_exists.mp
    (grantOf_isSome inRange outputBound inputBound head)
  have popped := served.popped_eq input
  have queue := served.fifos_eq input
  by_cases same : first = input
  · rw [same] at grants
    rw [if_pos ⟨output, List.mem_range.mpr outputBound, grants⟩] at queue
    rcases List.head?_eq_some_iff.mp head with ⟨rest, split⟩
    rw [queue, split] at popped
    exact Or.inl (List.append_cancel_right popped)
  · have ungranted : ¬ ∃ other ∈ List.range fifo.outputNum, fifo.grantOf other = some input := by
      rintro ⟨other, member, granted⟩
      have own := (grantOf_spec inRange (List.mem_range.mp member) granted).2
      rw [head] at own
      obtain rfl : output = other := Int.natCast_inj.mp (Option.some.inj own)
      exact same (Option.some.inj (grants.symm.trans granted))
    rw [if_neg ungranted] at queue
    rw [queue] at popped
    refine Or.inr ⟨by simpa using popped, queue, ?_⟩
    rw [moves output outputBound, grants, advance_some]
    exact ringDist_succ_lt_of_scan (inRange output outputBound) grants inputBound
      (decide_eq_true head) same

/-- A head that is no output stays where it is. -/
theorem head_kept (inRange : fifo.InRange) {input : Nat} {destination : Int}
    (outside : ¬ (0 ≤ destination ∧ destination < fifo.outputNum))
    (head : (fifo.fifos input).head? = some destination) :
    ∃ sent next, fifo.arbitration = some (sent, next) ∧ poppedAt input sent = [] ∧
      next.fifos input = fifo.fifos input := by
  rcases arbitration_spec inRange with ⟨sent, next, done, served⟩
  have popped := served.popped_eq input
  have queue := served.fifos_eq input
  have ungranted : ¬ ∃ other ∈ List.range fifo.outputNum, fifo.grantOf other = some input := by
    rintro ⟨other, member, granted⟩
    have bound := List.mem_range.mp member
    have own := (grantOf_spec inRange bound granted).2
    rw [head] at own
    obtain rfl := Option.some.inj own
    exact outside ⟨by omega, by omega⟩
  rw [if_neg ungranted] at queue
  rw [queue] at popped
  exact ⟨sent, next, done, by simpa using popped, queue⟩

end Arbitration

/-! ## Runs from a reached state -/

/-- The packets popped at the input are those of `before`, then one for the
destination. -/
def Sent (input : Nat) (before : List Int) (destination : Int) (state : Logged) : Prop :=
  ∃ later, poppedAt input state.matched = before ++ destination :: later

/-- Nothing has been popped at the input since `before`, and its head is for the
destination. -/
structure Waits (inputNum outputNum input : Nat) (before : List Int) (destination : Int)
    (state : Logged) : Prop where
  delivers : Delivers inputNum outputNum state
  popped_eq : poppedAt input state.matched = before
  head : (state.fifo.fifos input).head? = some destination

section Waiting

variable {inputNum outputNum input : Nat} {before : List Int} {destination : Int} {state : Logged}

/-- What has been popped stays popped. -/
theorem Sent.step (sent : Sent input before destination state) (next : Call) :
    Sent input before destination (call next state) := by
  rcases sent with ⟨later, popped⟩
  cases next with
  | request i o => exact ⟨later, popped⟩
  | arbitration =>
      simp only [Sent, Fifo.call]
      split
      · exact ⟨later, popped⟩
      · rw [poppedAt_append, popped, List.append_assoc, List.cons_append]
        exact ⟨_, rfl⟩

/-- What is requested stands behind the head. -/
theorem Waits.request (waits : Waits inputNum outputNum input before destination state)
    (i o : Int) :
    Waits inputNum outputNum input before destination (call (.request i o) state) where
  delivers := waits.delivers.request i o
  popped_eq := waits.popped_eq
  head := by
    rcases List.head?_eq_some_iff.mp waits.head with ⟨rest, split⟩
    simp only [Fifo.call, Fifo.request]
    split_ifs
    · simp only [Function.update_apply]
      split_ifs with here
      · rw [← here, split]
        rfl
      · exact waits.head
    · exact waits.head

/-- An arbitration that leaves the head where it is. -/
theorem Waits.arbitration (waits : Waits inputNum outputNum input before destination state)
    {sent : List FifoMatch} {next : Fifo} (done : state.fifo.arbitration = some (sent, next))
    (nothing : poppedAt input sent = []) (same : next.fifos input = state.fifo.fifos input) :
    Waits inputNum outputNum input before destination (call .arbitration state) := by
  have delivers := waits.delivers.arbitration
  rw [Fifo.call, done] at delivers ⊢
  exact {
    delivers := delivers
    popped_eq := by
      rw [poppedAt_append, nothing, List.append_nil]
      exact waits.popped_eq
    head := by
      dsimp only
      rw [same]
      exact waits.head }

/-- One call brings the pointer of the output closer or sends the head. -/
theorem Waits.step {output : Nat}
    (waits : Waits inputNum outputNum input before (output : Int) state)
    (inputBound : input < inputNum) (outputBound : output < outputNum) (next : Call) :
    Sent input before output (call next state) ∨
      Waits inputNum outputNum input before (output : Int) (call next state) ∧
        ringDist inputNum ((call next state).fifo.gPtr output) input +
          (if next == .arbitration then 1 else 0) ≤
            ringDist inputNum (state.fifo.gPtr output) input := by
  cases next with
  | request i o =>
      have ptr : (state.fifo.request i o).gPtr = state.fifo.gPtr := by
        unfold Fifo.request
        split_ifs <;> rfl
      refine Or.inr ⟨waits.request i o, ?_⟩
      simp [Fifo.call, ptr]
  | arbitration =>
      have inputNum_eq := waits.delivers.inputNum_eq
      obtain ⟨sent, after, done, served | ⟨nothing, same, closer⟩⟩ :=
        head_served waits.delivers.inRange (inputNum_eq.symm ▸ inputBound)
          (waits.delivers.outputNum_eq.symm ▸ outputBound) waits.head
      · refine Or.inl ⟨[], ?_⟩
        rw [Fifo.call, done]
        exact (poppedAt_append _ _ _).trans (by rw [served, waits.popped_eq])
      · refine Or.inr ⟨waits.arbitration done nothing same, ?_⟩
        rw [Fifo.call, done]
        rw [inputNum_eq] at closer
        exact closer

/-- A head for an output is sent in the course of as many arbitrations as there
are inputs. -/
theorem Waits.sent {output : Nat}
    (waits : Waits inputNum outputNum input before (output : Int) state)
    (inputBound : input < inputNum) (outputBound : output < outputNum) {calls : List Call}
    (enough : inputNum ≤ calls.count .arbitration) :
    Sent input before output (runCalls call calls state) := by
  apply runCalls_reaches (Waits inputNum outputNum input before (output : Int))
    (Sent input before output) (fun state => ringDist inputNum (state.fifo.gPtr output) input)
    (· == .arbitration) (fun next _ sent => sent.step next)
    (fun next _ waits => waits.step inputBound outputBound next) waits
  have inRange := waits.delivers.inRange output
  rw [waits.delivers.inputNum_eq, waits.delivers.outputNum_eq] at inRange
  exact Nat.lt_of_lt_of_le (ringDist_lt (inRange outputBound) inputBound) enough

/-- A head that is for no output waits for ever. -/
theorem Waits.kept (waits : Waits inputNum outputNum input before destination state)
    (outside : ¬ (0 ≤ destination ∧ destination < outputNum)) (calls : List Call) :
    Waits inputNum outputNum input before destination (runCalls call calls state) := by
  apply runCalls_invariant (Waits inputNum outputNum input before destination) waits
  intro next state waits
  cases next with
  | request i o => exact waits.request i o
  | arbitration =>
      obtain ⟨sent, after, done, nothing, same⟩ := head_kept waits.delivers.inRange
        (waits.delivers.outputNum_eq.symm ▸ outside) waits.head
      exact waits.arbitration done nothing same

end Waiting

/-! ## Fairness at the head -/

/-- Whatever is requested meanwhile, a packet that stands at the head of a queue
and is for an output is the next one popped there, within as many arbitrations
as there are inputs. -/
theorem head_popped {inputNum outputNum : Nat} (calls : List Call) {state : Logged}
    (reached : state = run inputNum outputNum calls) {input output : Nat}
    (inputBound : input < inputNum) (outputBound : output < outputNum)
    (head : (state.fifo.fifos input).head? = some (output : Int)) {more : List Call}
    (enough : inputNum ≤ more.count .arbitration) :
    ∃ later, poppedAt input (runCalls call more state).matched =
      poppedAt input state.matched ++ (output : Int) :: later := by
  have delivers := delivers_run outputNum (Nat.one_le_of_lt inputBound) calls
  rw [← reached] at delivers
  exact Waits.sent ⟨delivers, rfl, head⟩ inputBound outputBound enough

/-- The head of input 1 loses the first of two arbitrations. -/
theorem head_popped_two_inputs :
    ∃ later, poppedAt 1 (runCalls call [.arbitration, .request 0 0, .arbitration]
      (run 2 1 [.request 0 0, .request 1 0])).matched = [] ++ 0 :: later :=
  head_popped [.request 0 0, .request 1 0] rfl (by decide) (by decide) (by decide) (by decide)

/-! ## Destinations -/

/-- Every packet that waits is for an output. -/
def DestinationsInRange (inputNum outputNum : Nat) (state : Logged) : Prop :=
  ∀ input, input < inputNum → ∀ destination ∈ state.fifo.fifos input,
    0 ≤ destination ∧ destination < outputNum

/-- The queue of the input holds packets, and none of them is ever popped. -/
def Blocked (input : Nat) (state : Logged) : Prop :=
  state.fifo.fifos input ≠ [] ∧ ∀ more : List Call,
    poppedAt input (runCalls call more state).matched = poppedAt input state.matched

section Destinations

variable {inputNum outputNum : Nat} {state : Logged}

/-- A head that is for no output blocks its queue. -/
theorem blocked_of_head (delivers : Delivers inputNum outputNum state) {input : Nat}
    {destination : Int} (outside : ¬ (0 ≤ destination ∧ destination < outputNum))
    (head : (state.fifo.fifos input).head? = some destination) : Blocked input state := by
  have waits : Waits inputNum outputNum input (poppedAt input state.matched) destination state :=
    ⟨delivers, rfl, head⟩
  refine ⟨fun empty => ?_, fun more => (waits.kept outside more).popped_eq⟩
  rw [empty] at head
  cases head

/-- Packets that are for outputs block no queue. -/
theorem not_blocked (delivers : Delivers inputNum outputNum state)
    (inRange : DestinationsInRange inputNum outputNum state) {input : Nat}
    (bound : input < inputNum) : ¬ Blocked input state := by
  rintro ⟨filled, never⟩
  rcases List.exists_cons_of_ne_nil filled with ⟨destination, rest, split⟩
  rcases inRange input bound destination (split ▸ List.mem_cons_self) with ⟨nonneg, below⟩
  rcases Int.eq_ofNat_of_zero_le nonneg with ⟨output, rfl⟩
  have waits : Waits inputNum outputNum input (poppedAt input state.matched) (output : Int) state :=
    ⟨delivers, rfl, by rw [split]; rfl⟩
  have enough : inputNum ≤ (List.replicate inputNum Call.arbitration).count .arbitration := by
    simp
  rcases waits.sent bound (by omega) enough with ⟨later, popped⟩
  have same := congrArg List.length ((never _).symm.trans popped)
  simp at same

/-- A call stores no packet but the one it requests. -/
theorem DestinationsInRange.call (inRange : DestinationsInRange inputNum outputNum state)
    (delivers : Delivers inputNum outputNum state) {next : Call}
    (allowed : ∀ input output : Int, next = .request input output → 0 ≤ input →
      input < inputNum → 0 ≤ output ∧ output < outputNum) :
    DestinationsInRange inputNum outputNum (call next state) := by
  intro place bound destination stored
  cases next with
  | request input output =>
      simp only [Fifo.call, Fifo.request] at stored
      split_ifs at stored with accepted
      · rw [delivers.inputNum_eq] at accepted
        simp only [Function.update_apply] at stored
        split_ifs at stored with here
        · rcases List.mem_append.mp stored with old | new
          · exact inRange _ (here ▸ bound) destination old
          · rw [List.mem_singleton.mp new]
            exact allowed input output rfl accepted.1 accepted.2
        · exact inRange place bound destination stored
      · exact inRange place bound destination stored
  | arbitration =>
      rcases arbitration_spec delivers.inRange with ⟨sent, after, done, served⟩
      rw [Fifo.call, done] at stored
      have queue := served.popped_eq place
      apply inRange place bound destination
      rw [← queue]
      exact List.mem_append_right _ stored

end Destinations

/-- In a run every packet that waits is for an output, and no queue is ever
blocked, if and only if every request that names an input names an output. -/
theorem never_blocked_iff {inputNum : Nat} (outputNum : Nat) (inputs : 1 ≤ inputNum)
    (calls : List Call) :
    (∀ before, before <+: calls →
      DestinationsInRange inputNum outputNum (run inputNum outputNum before) ∧
      ∀ input, input < inputNum → ¬ Blocked input (run inputNum outputNum before)) ↔
      ∀ input output : Int, .request input output ∈ calls → 0 ≤ input → input < inputNum →
        0 ≤ output ∧ output < outputNum := by
  constructor
  · intro throughout input output member nonneg below
    rcases List.append_of_mem member with ⟨before, rest, rfl⟩
    have delivers := delivers_run outputNum inputs before
    have after := (throughout (before ++ [.request input output]) (by simp)).1
    rcases Int.eq_ofNat_of_zero_le nonneg with ⟨place, rfl⟩
    apply after place (by omega)
    have accepted : (0 : Int) ≤ (place : Int) ∧
        (place : Int) < (run inputNum outputNum before).fifo.inputNum := by
      rw [delivers.inputNum_eq]
      exact ⟨nonneg, below⟩
    rw [run, runCalls_concat, ← run, Fifo.call, Fifo.request, if_pos accepted]
    simp
  · intro allowed before earlier
    have inRange : DestinationsInRange inputNum outputNum (run inputNum outputNum before) := by
      apply runCalls_prefix (fun _ => DestinationsInRange inputNum outputNum)
      · intro input _ destination stored
        cases stored
      · intro done next rest split inRange
        apply inRange.call (delivers_run outputNum inputs done)
        rintro input output rfl
        exact allowed input output (earlier.subset (by simp [split]))
    exact ⟨inRange, fun input bound =>
      not_blocked (delivers_run outputNum inputs before) inRange bound⟩

/-- One request for an output that does not exist, in front of one that does. -/
theorem not_never_blocked_unknown_output :
    ¬ DestinationsInRange 2 2 (run 2 2 [.request 0 5, .request 0 0]) ∧
      Blocked 0 (run 2 2 [.request 0 5, .request 0 0]) := by
  constructor
  · intro inRange
    exact absurd (inRange 0 (by decide) 5 (by decide)) (by decide)
  · exact blocked_of_head (delivers_run 2 (by decide) _)
      (show ¬ ((0 : Int) ≤ 5 ∧ (5 : Int) < (2 : Nat)) by decide) (by decide)

/-- Requests that are allowed, one of them for no input. -/
theorem never_blocked_iff_two_inputs : ¬ Blocked 0 (run 2 2 [.request 0 1, .request 7 9]) :=
  ((never_blocked_iff 2 (show 1 ≤ 2 by decide) [.request 0 1, .request 7 9]).mpr (by
    intro input output member nonneg below
    simp only [List.mem_cons, Call.request.injEq, List.not_mem_nil, or_false] at member
    omega) _ List.prefix_rfl).2 0 (by decide)

end SystemcTlm.Islip.Fifo
