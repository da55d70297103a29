import SystemcTlm.Test.Qos

/-!
# Draining the channels

Every pass of a scheduler takes one item while the count is positive, so that
the loops end with empty channels after as many passes as there are items.
Strict priority takes from the highest channel that is not empty, round robin
serves the channels in turn.
-/

namespace SystemcTlm.Test.Qos

open SystemcTlm.Loop SystemcTlm.Container SystemcTlm.Fairness

/-! ## One item -/

variable {qos : Qos}

/-- Taking the front item of a channel is a step of a run of such steps. -/
theorem pops_popFront {i : Nat} {data : Int} {rest : List Int} {taken : List (Nat × Int)}
    {final : Nat → List Int} (front : qos.vc i = data :: rest)
    (later : Pops (qos.popFront i).vc taken final) : Pops qos.vc ((i, data) :: taken) final := by
  apply Pops.cons front
  rw [popFront, front] at later
  exact later

theorem cnt_popFront_lt (i : Nat) (qos : Qos) {passes : Nat} (enough : qos.cnt ≤ (passes + 1 : Nat)) :
    (qos.popFront i).cnt ≤ passes := by
  rw [popFront]
  dsimp only
  omega

/-! ## Strict priority -/

theorem spScan_eq {channel : Nat} {data : Int} {rest : List Int} {k : Nat} (below : channel < k)
    (front : qos.vc channel = data :: rest)
    (higher : ∀ i, channel < i → i < k → qos.vc i = []) :
    spScan k qos = (some (channel, data), qos.popFront channel) := by
  induction k with
  | zero => omega
  | succ k ih =>
      rw [spScan]
      by_cases here : channel = k
      · rw [← here, front]
      · rw [higher k (by omega) (Nat.lt_succ_self k)]
        exact ih (by omega) fun i above inside => higher i above (by omega)

/-- The highest channel with an item. -/
theorem exists_highest {k : Nat} (busy : ∃ i, i < k ∧ qos.vc i ≠ []) :
    ∃ i, i < k ∧ qos.vc i ≠ [] ∧ ∀ j, i < j → j < k → qos.vc j = [] := by
  induction k with
  | zero =>
      rcases busy with ⟨i, below, -⟩
      omega
  | succ k ih =>
      by_cases top : qos.vc k = []
      · rcases busy with ⟨i, below, item⟩
        have other : i ≠ k := fun same => item (same ▸ top)
        rcases ih ⟨i, by omega, item⟩ with ⟨highest, inside, item, above⟩
        refine ⟨highest, by omega, item, fun j after within => ?_⟩
        by_cases last : j = k
        · rw [last, top]
        · exact above j after (by omega)
      · exact ⟨k, Nat.lt_succ_self k, top, fun j after within => by omega⟩

/-- A pass of `sp_sch` takes an item from the highest channel with one. -/
theorem Counted.spScan (counted : Counted qos) (positive : qos.cnt > 0) :
    ∃ channel data rest, channel < virturlChannelNum ∧ qos.vc channel = data :: rest ∧
      (∀ i, channel < i → qos.vc i = []) ∧
      Qos.spScan virturlChannelNum qos = (some (channel, data), qos.popFront channel) := by
  rcases exists_highest (counted.exists_ne_nil positive) with ⟨channel, below, item, higher⟩
  rcases List.exists_cons_of_ne_nil item with ⟨data, rest, front⟩
  refine ⟨channel, data, rest, below, front, fun i above => ?_, spScan_eq below front higher⟩
  by_cases inside : i < virturlChannelNum
  · exact higher i above inside
  · exact counted.vc_beyond i (by omega)

/-- What `sp_sch` prints and leaves. -/
structure SpDrain (qos : Qos) (lines : List (Nat × Int)) (final : Qos) : Prop where
  run : ∀ passes : Nat, qos.cnt ≤ passes → spSch passes qos = some (lines, final)
  pops : Pops qos.vc lines final.vc
  drained : Drained final
  descending : lines.Pairwise fun first second => second.1 ≤ first.1

/-- Running to the end from the next pass on is running to the end. -/
theorem SpDrain.cons {channel : Nat} {data : Int} {rest : List Int} {lines : List (Nat × Int)}
    {final : Qos} (positive : qos.cnt > 0) (front : qos.vc channel = data :: rest)
    (higher : ∀ i, channel < i → qos.vc i = [])
    (scan : spScan virturlChannelNum qos = (some (channel, data), qos.popFront channel))
    (drain : SpDrain (qos.popFront channel) lines final) :
    SpDrain qos ((channel, data) :: lines) final where
  run passes enough := by
    cases passes with
    | zero => omega
    | succ passes =>
        rw [spSch, if_pos positive]
        dsimp only
        rw [scan]
        dsimp only
        rw [drain.run passes (cnt_popFront_lt channel qos enough)]
        rfl
  pops := pops_popFront front drain.pops
  drained := drain.drained
  descending := by
    refine List.pairwise_cons.mpr ⟨fun line member => ?_, drain.descending⟩
    by_contra above
    have item := drain.pops.ne_nil_of_mem member
    rw [popFront] at item
    dsimp only at item
    rw [Function.update_of_ne (by omega)] at item
    exact item (higher line.1 (by omega))

theorem Counted.exists_spDrain (counted : Counted qos) :
    ∃ lines final, SpDrain qos lines final := by
  induction count : total virturlChannelNum qos.vc generalizing qos with
  | zero =>
      have empty : ¬ qos.cnt > 0 := fun positive => counted.pos_iff.mp positive count
      refine ⟨[], qos, fun passes enough => ?_, Pops.nil _, counted.drained empty, List.Pairwise.nil⟩
      cases passes <;> exact if_neg empty
  | succ items ih =>
      have positive : qos.cnt > 0 :=
        counted.pos_iff.mpr (by rw [count]; exact Nat.succ_ne_zero items)
      rcases counted.spScan positive with ⟨channel, data, rest, below, front, higher, scan⟩
      have busy : qos.vc channel ≠ [] := by
        rw [front]
        exact List.cons_ne_nil _ _
      have fewer := counted.total_popFront below busy
      rw [count, Nat.succ_inj] at fewer
      rcases ih (counted.popFront below busy) fewer with ⟨lines, final, drain⟩
      exact ⟨_, _, drain.cons positive front higher scan⟩

/-! ## Round robin -/

/-- The loads of the channels. -/
def load (qos : Qos) (i : Nat) : Nat :=
  (qos.vc i).length

theorem load_popFront (i : Nat) (qos : Qos) :
    (qos.popFront i).load = Function.update qos.load i (qos.load i - 1) := by
  funext j
  rw [load, popFront]
  dsimp only
  by_cases here : j = i
  · rw [here, Function.update_self, Function.update_self, List.length_tail, load]
  · rw [Function.update_of_ne here, Function.update_of_ne here, load]

theorem load_eq_zero_iff {i : Nat} : qos.load i = 0 ↔ qos.vc i = [] :=
  List.length_eq_zero_iff

theorem nextSch_eq {lastSch : Nat} (bound : lastSch < virturlChannelNum) :
    nextSch lastSch = (lastSch + 1) % virturlChannelNum := by
  rw [nextSch, succ_mod bound]
  exact if_congr (by omega) rfl rfl

/-- The state after a line of `rr_sch`. -/
def served (channel : Nat) (qos : Qos) : Qos :=
  { qos.popFront channel with
    lastSch := (channel + 1) % virturlChannelNum
    time := qos.time + 1 }

/-- The inner loop stops at the first channel with an item. -/
theorem rrScan_eq {channel : Nat} {data : Int} {rest : List Int} {scans : Nat}
    (bound : qos.lastSch < virturlChannelNum) (channelBound : channel < virturlChannelNum)
    (front : qos.vc channel = data :: rest)
    (nearer : ∀ i, i < virturlChannelNum → ringDist virturlChannelNum qos.lastSch i <
      ringDist virturlChannelNum qos.lastSch channel → qos.vc i = [])
    (enough : ringDist virturlChannelNum qos.lastSch channel < scans) :
    rrScan scans qos = some (some { time := qos.time, channel, data },
      { qos.popFront channel with lastSch := (channel + 1) % virturlChannelNum }) := by
  induction scans generalizing qos with
  | zero => omega
  | succ scans ih =>
      rw [rrScan, if_pos bound]
      by_cases here : qos.lastSch = channel
      · rw [here, front]
        dsimp only
        rw [nextSch_eq channelBound]
      · have apart : ringDist virturlChannelNum qos.lastSch channel ≠ 0 := fun same =>
          here ((ringDist_inj bound bound channelBound).mp ((ringDist_self _ _).trans same.symm))
        rw [nearer qos.lastSch bound (by rw [ringDist_self]; omega)]
        have closer := ringDist_succ_mod bound bound channelBound (by rw [ringDist_self]; omega)
        rw [ringDist_self] at closer
        dsimp only
        rw [nextSch_eq bound]
        refine @ih { qos with lastSch := (qos.lastSch + 1) % virturlChannelNum }
          (succ_mod_lt _ (by decide)) front (fun i inside near => ?_) ?_
        · by_cases start : i = qos.lastSch
          · rw [start]
            exact nearer qos.lastSch bound (by rw [ringDist_self]; omega)
          · have away : ringDist virturlChannelNum qos.lastSch i ≠ 0 := fun same =>
              start ((ringDist_inj bound inside bound).mp (same.trans (ringDist_self _ _).symm))
            have step := ringDist_succ_mod bound bound inside (by rw [ringDist_self]; omega)
            rw [ringDist_self] at step
            dsimp only at near
            exact nearer i inside (by omega)
        · dsimp only
          omega

/-- A pass of `rr_sch` serves the channel whose turn it is. -/
theorem Counted.rrPass (counted : Counted qos) (positive : qos.cnt > 0)
    (bound : qos.lastSch < virturlChannelNum) :
    ∃ channel data rest, qos.vc channel = data :: rest ∧
      Turn virturlChannelNum qos.load qos.lastSch channel ∧
      ∀ scans, virturlChannelNum ≤ scans → Qos.rrPass scans qos =
        some (some { time := qos.time + 1, channel, data }, qos.served channel) := by
  have found := @scan_spec _ (fun i => decide (qos.vc i ≠ [])) _ bound
  cases choice : scan virturlChannelNum (fun i => decide (qos.vc i ≠ [])) qos.lastSch with
  | none =>
      rw [choice] at found
      rcases counted.exists_ne_nil positive with ⟨i, inside, item⟩
      exact absurd item (of_decide_eq_false (found i inside))
  | some channel =>
      rw [choice] at found
      rcases found with ⟨channelBound, item, nearer⟩
      have busy := of_decide_eq_true item
      rcases List.exists_cons_of_ne_nil busy with ⟨data, rest, front⟩
      have empty : ∀ i, i < virturlChannelNum → ringDist virturlChannelNum qos.lastSch i <
          ringDist virturlChannelNum qos.lastSch channel → qos.vc i = [] := fun i inside near =>
        not_not.mp (of_decide_eq_false (nearer i inside near))
      refine ⟨channel, data, rest, front, ⟨channelBound, ?_, ?_⟩, fun scans enough => ?_⟩
      · exact List.length_pos_iff.mpr busy
      · exact fun i inside near => load_eq_zero_iff.mpr (empty i inside near)
      · have within := ringDist_lt bound channelBound
        exact @rrScan_eq { qos with time := qos.time + 1 } _ _ _ _ bound channelBound front empty
          (Nat.lt_of_lt_of_le within enough)

/-- What `rr_sch` prints and leaves, and the state at each pass of its loop. -/
structure RrDrain (qos : Qos) (lines : List RrLine) (final : Qos) : Prop where
  run : ∀ passes scans : Nat, qos.cnt ≤ passes → virturlChannelNum ≤ scans →
    rrSch scans passes qos = some (lines, final)
  pops : Pops qos.vc (lines.map fun line => (line.channel, line.data)) final.vc
  drained : Drained final
  turns : Turns virturlChannelNum qos.load qos.lastSch (lines.map RrLine.channel)
  stops : ∀ before rest, lines = before ++ rest →
    ∃ middle, rrPasses virturlChannelNum before.length qos = some (before, middle) ∧
      Turns virturlChannelNum middle.load middle.lastSch (rest.map RrLine.channel)

theorem RrDrain.cons {channel : Nat} {data : Int} {rest : List Int} {lines : List RrLine}
    {final : Qos} (positive : qos.cnt > 0) (front : qos.vc channel = data :: rest)
    (turn : Turn virturlChannelNum qos.load qos.lastSch channel)
    (pass : ∀ scans, virturlChannelNum ≤ scans → rrPass scans qos =
      some (some { time := qos.time + 1, channel, data }, qos.served channel))
    (drain : RrDrain (qos.served channel) lines final) :
    RrDrain qos ({ time := qos.time + 1, channel, data } :: lines) final := by
  have turns : Turns virturlChannelNum qos.load qos.lastSch
      (({ time := qos.time + 1, channel, data } :: lines : List RrLine).map RrLine.channel) := by
    apply Turns.cons turn
    rw [← load_popFront]
    exact drain.turns
  refine ⟨fun passes scans enough enoughScans => ?_, pops_popFront front drain.pops,
    drain.drained, turns, fun before after split => ?_⟩
  · cases passes with
    | zero => omega
    | succ passes =>
        rw [rrSch, if_pos positive]
        dsimp only
        rw [pass scans enoughScans, Option.bind_some]
        dsimp only
        rw [drain.run passes scans (cnt_popFront_lt channel qos enough) enoughScans]
        rfl
  · cases before with
    | nil => exact ⟨qos, rfl, by rw [List.nil_append] at split; rw [← split]; exact turns⟩
    | cons line before =>
        rw [List.cons_append, List.cons.injEq] at split
        rcases split with ⟨rfl, split⟩
        rcases drain.stops before after split with ⟨middle, reached, later⟩
        refine ⟨middle, ?_, later⟩
        rw [List.length_cons, rrPasses, if_pos positive, pass _ (Nat.le_refl _), Option.bind_some]
        dsimp only
        rw [reached]
        rfl

theorem Counted.exists_rrDrain (counted : Counted qos) (bound : qos.lastSch < virturlChannelNum) :
    ∃ lines final, RrDrain qos lines final := by
  induction count : total virturlChannelNum qos.vc generalizing qos with
  | zero =>
      have empty : ¬ qos.cnt > 0 := fun positive => counted.pos_iff.mp positive count
      refine ⟨[], qos, fun passes scans _ _ => ?_, Pops.nil _, counted.drained empty,
        Turns.nil _ _, fun before rest split => ?_⟩
      · cases passes <;> exact if_neg empty
      · rcases List.append_eq_nil_iff.mp split.symm with ⟨rfl, rfl⟩
        exact ⟨qos, rfl, Turns.nil _ _⟩
  | succ items ih =>
      have positive : qos.cnt > 0 :=
        counted.pos_iff.mpr (by rw [count]; exact Nat.succ_ne_zero items)
      rcases counted.rrPass positive bound with ⟨channel, data, rest, front, turn, pass⟩
      have busy : qos.vc channel ≠ [] := by
        rw [front]
        exact List.cons_ne_nil _ _
      have next : Counted (qos.served channel) :=
        ⟨(counted.popFront turn.lt busy).cnt_eq, (counted.popFront turn.lt busy).vc_beyond⟩
      have fewer := counted.total_popFront turn.lt busy
      rw [count, Nat.succ_inj] at fewer
      rcases ih next (succ_mod_lt _ (by decide)) fewer with ⟨lines, final, drain⟩
      exact ⟨_, _, drain.cons positive front turn pass⟩

/-! ## The output -/

/-- The lines of a run that empties the channels are their contents in order. -/
theorem itemsOf_of_drained {queues final : Nat → List Int} {taken : List (Nat × Int)}
    (pops : Pops queues taken final) (drained : ∀ i, final i = []) (i : Nat) :
    itemsOf i taken = queues i := by
  rw [pops.queue_eq i, drained i, List.append_nil]

/-- Between two lines of one channel, every other channel that held an item at
the first of them has one line. -/
theorem RrDrain.count_between {lines before middle rest : List RrLine} {first second : RrLine}
    {final : Qos} (drain : RrDrain qos lines final)
    (split : lines = before ++ first :: (middle ++ second :: rest))
    (same : second.channel = first.channel)
    (between : ∀ line ∈ middle, line.channel ≠ first.channel) :
    ∃ state, rrPasses virturlChannelNum before.length qos = some (before, state) ∧
      ∀ i, i < virturlChannelNum → i ≠ first.channel → state.vc i ≠ [] →
        (middle.map RrLine.channel).count i = 1 := by
  rcases drain.stops before _ split with ⟨state, reached, turns⟩
  refine ⟨state, reached, fun i bound other item => ?_⟩
  rw [List.map_cons, List.map_append, List.map_cons, same] at turns
  refine turns.count_between (fun inside => ?_) bound other (List.length_pos_iff.mpr item)
  rcases List.mem_map.mp inside with ⟨line, member, channel⟩
  exact between line member channel

/-- From contents that `in` has built, with any channel next in turn, both
schedulers end with empty channels and print every item once.  Strict priority
goes from higher to lower channels, both keep the order of each channel, and
round robin prints one item of every other channel that holds one between two
of the same channel. -/
theorem schedulers_drain (ins : List (Int × Int)) {last : Nat} (lastBound : last < virturlChannelNum)
    {qos : Qos} (built : qos = { inAll ins with lastSch := last }) :
    (∃ lines final, (∀ passes : Nat, qos.cnt ≤ passes → spSch passes qos = some (lines, final)) ∧
      Drained final ∧ (∀ i, itemsOf i lines = qos.vc i) ∧
      lines.Pairwise fun first second => second.1 ≤ first.1) ∧
    ∃ lines final, (∀ passes scans : Nat, qos.cnt ≤ passes → virturlChannelNum ≤ scans →
        rrSch scans passes qos = some (lines, final)) ∧
      Drained final ∧
      (∀ i, itemsOf i (lines.map fun line => (line.channel, line.data)) = qos.vc i) ∧
      ∀ before first middle second rest, lines = before ++ first :: (middle ++ second :: rest) →
        second.channel = first.channel → (∀ line ∈ middle, line.channel ≠ first.channel) →
        ∃ state, rrPasses virturlChannelNum before.length qos = some (before, state) ∧
          ∀ i, i < virturlChannelNum → i ≠ first.channel → state.vc i ≠ [] →
            (middle.map RrLine.channel).count i = 1 := by
  have counted : Counted qos := by
    rw [built]
    exact ⟨(counted_inAll ins).cnt_eq, (counted_inAll ins).vc_beyond⟩
  have bound : qos.lastSch < virturlChannelNum := by
    rw [built]
    exact lastBound
  rcases counted.exists_spDrain with ⟨spLines, spFinal, spDrain⟩
  rcases counted.exists_rrDrain bound with ⟨rrLines, rrFinal, rrDrain⟩
  refine ⟨⟨spLines, spFinal, spDrain.run, spDrain.drained, ?_, spDrain.descending⟩,
    rrLines, rrFinal, rrDrain.run, rrDrain.drained, ?_, ?_⟩
  · exact itemsOf_of_drained spDrain.pops spDrain.drained.vc_eq
  · exact itemsOf_of_drained rrDrain.pops rrDrain.drained.vc_eq
  · intro before first middle second rest split same between
    exact rrDrain.count_between split same between

/-- Three channels, from the sixth one in turn. -/
def threeChannels : Qos :=
  { inAll [(5, 50), (0, 1), (7, 70), (5, 51), (0, 2)] with lastSch := 5 }

theorem schedulers_drain_threeChannels :
    ∃ lines final, (∀ passes scans : Nat, (5 : Int) ≤ passes → virturlChannelNum ≤ scans →
        rrSch scans passes threeChannels = some (lines, final)) ∧
      Drained final ∧
      itemsOf 5 (lines.map fun line => (line.channel, line.data)) = [50, 51] := by
  rcases (schedulers_drain [(5, 50), (0, 1), (7, 70), (5, 51), (0, 2)]
    (show 5 < virturlChannelNum by decide) (show threeChannels = _ from rfl)).2 with
    ⟨lines, final, run, drained, items, -⟩
  exact ⟨lines, final, run, drained, items 5⟩

example : (rrSch 8 5 threeChannels).map (fun result => result.1.map RrLine.channel) =
    some [5, 7, 0, 5, 0] := by
  decide +kernel

end SystemcTlm.Test.Qos
