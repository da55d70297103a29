import SystemcTlm.EventQueue.Peq
import Mathlib.Algebra.Order.BigOperators.Group.List
import Mathlib.Algebra.Order.Ring.Nat

/-!
# The loop of `peq_test`

A pass of the loop pushes the next payload if fewer than `max_dep` are in flight,
lets a nanosecond pass, and pops what has expired.  The payloads and their delays
are arbitrary here.

Every payload is popped at its due time, or in the pass that pushes it if that is
later, and the loop ends within as many passes as the delays add up to.
-/

namespace SystemcTlm.EventQueue

open SystemcTlm.Container

universe u

/-- `sc_core::sc_time(n, sc_core::SC_NS)`, at the default time resolution of 1 ps. -/
def ns (n : Nat) : ScTime :=
  UInt64.ofNat (1000 * n)

/-- The variables of `peq_test`.  `rest` are the delays and payloads from `i` on, and
the lines are what is printed. -/
structure PeqTest (T : Type u) where
  now : ScTime
  testPeq : Peq T
  rest : List (Nat × T)
  peqMaxDep : Nat
  peqMinDep : Nat
  pushLines : List (ScTime × T × Nat)
  popLines : List (ScTime × T)

variable {T : Type u}

namespace PeqTest

/-- The test before its loop, with the requests that it will push. -/
def start (traffic : List (Nat × T)) : PeqTest T :=
  ⟨0, ⟨[]⟩, traffic, 0, 100, [], []⟩

/-- The largest and the least depth seen after a push. -/
def recordDepth (s : PeqTest T) : PeqTest T :=
  { s with
    peqMaxDep := max s.peqMaxDep s.testPeq.getInflightCount
    peqMinDep := min s.peqMinDep s.testPeq.getInflightCount }

/-- The first request that is left, if the queue has room for it. -/
def push (maxDep : Nat) (s : PeqTest T) : PeqTest T :=
  match s.rest with
  | [] => s
  | (delayTime, payload) :: rest =>
      if s.testPeq.getInflightCount < maxDep then
        recordDepth { s with
          testPeq := s.testPeq.pushDelayedPayload s.now (ns delayTime) payload
          rest
          pushLines := s.pushLines ++ [(s.now, payload, delayTime)] }
      else s

/-- The inner loop.  No more pops succeed than payloads are in flight. -/
def pop : Nat → PeqTest T → PeqTest T
  | 0, s => s
  | fuel + 1, s =>
      match s.testPeq.popExpiredPayload s.now with
      | (none, _) => s
      | (some event, testPeq) =>
          pop fuel (recordDepth { s with
            testPeq
            popLines := s.popLines ++ [(s.now, event)] })

/-- `sc_core::sc_start(sc_core::sc_time(1, sc_core::SC_NS))` -/
def advance (s : PeqTest T) : PeqTest T :=
  { s with now := s.now + ns 1 }

/-- One pass of the loop: a push, a nanosecond, and the pops. -/
def pass (maxDep : Nat) (s : PeqTest T) : PeqTest T :=
  let later := (s.push maxDep).advance
  later.pop later.testPeq.getInflightCount

/-- The loop, if it ends within so many passes. -/
def loop (maxDep : Nat) : Nat → PeqTest T → Option (PeqTest T)
  | 0, s => if s.rest.isEmpty ∧ s.testPeq.getInflightCount = 0 then some s else none
  | fuel + 1, s =>
      if s.rest.isEmpty ∧ s.testPeq.getInflightCount = 0 then some s
      else loop maxDep fuel (s.pass maxDep)

end PeqTest

/-! ## Pushes -/

/-- A payload with its delay, and the pass that pushes it. -/
structure Push (T : Type u) where
  start : Nat
  delay : Nat
  payload : T

namespace Push

/-- When the payload expires in the queue. -/
def due (push : Push T) : Nat :=
  push.start + push.delay

/-- When the payload is popped: not before the first nanosecond has passed. -/
def expires (push : Push T) : Nat :=
  push.start + max 1 push.delay

/-- The request that has been pushed. -/
def request (push : Push T) : Nat × T :=
  (push.delay, push.payload)

/-- The entry of the queue. -/
def entry (push : Push T) : ScTime × T :=
  (ns push.due, push.payload)

/-- The line that the push prints. -/
def pushLine (push : Push T) : ScTime × T × Nat :=
  (ns push.start, push.payload, push.delay)

/-- The line that the pop prints. -/
def popLine (push : Push T) : ScTime × T :=
  (ns push.expires, push.payload)

/-- The payload is in flight when pass `t` begins. -/
def isInFlight (t : Nat) (push : Push T) : Bool :=
  push.start < t ∧ t < push.expires

end Push

/-- How many passes the payloads take one after the other. -/
def load (traffic : List (Nat × T)) : Nat :=
  (traffic.map fun request => max 1 request.1).sum

theorem ns_add (m n : Nat) : ns m + ns n = ns (m + n) := by
  rw [ns, ns, ns, ← UInt64.ofNat_add, Nat.mul_add]

theorem ns_le_iff {m n : Nat} (mFits : 1000 * m < UInt64.size) (nFits : 1000 * n < UInt64.size) :
    ns m ≤ ns n ↔ m ≤ n := by
  rw [UInt64.le_iff_toNat_le, ns, ns, UInt64.toNat_ofNat_of_lt' mFits,
    UInt64.toNat_ofNat_of_lt' nFits]
  omega

theorem dueTime_entry {push : Push T} (fits : 1000 * push.due < UInt64.size) :
    dueTime push.entry = 1000 * push.due :=
  UInt64.toNat_ofNat_of_lt' fits

theorem Push.due_le_expires (push : Push T) : push.due ≤ push.expires :=
  Nat.add_le_add_left (Nat.le_max_right _ _) _

/-! ## The invariant -/

/-- What holds after `t` nanoseconds, with the pushes of the passes before `next`, when
what waits expires at `soonest` or later. -/
structure Delivers (maxDep : Nat) (traffic : List (Nat × T)) (pushes taken waiting : List (Push T))
    (t soonest next : Nat) (s : PeqTest T) : Prop where
  now : s.now = ns t
  queue : s.testPeq.peq = waiting.map Push.entry
  pushLines : s.pushLines = pushes.map Push.pushLine
  popLines : s.popLines = taken.map Push.popLine
  requests : pushes.map Push.request ++ s.rest = traffic
  stable : IsStableSort Push.due pushes (taken ++ waiting)
  increasing : pushes.Pairwise fun earlier later => earlier.start < later.start
  early : ∀ push ∈ pushes, push.start < next
  gone : ∀ push ∈ taken, push.expires ≤ t
  late : ∀ push ∈ waiting, soonest ≤ push.expires
  room : waiting.length ≤ maxDep
  depth : s.peqMaxDep ≤ maxDep
  prompt : ∀ t', t' < next → (s.rest ≠ [] ∨ ∃ push ∈ pushes, t' < push.start) →
    (∃ push ∈ pushes, push.start = t') ∨ pushes.countP (Push.isInFlight t') = maxDep
  progress : t + (waiting.map fun push => push.expires - t).sum + load s.rest ≤ load traffic

section Passes

variable {maxDep t soonest next : Nat} {traffic : List (Nat × T)}
  {pushes taken waiting : List (Push T)} {s : PeqTest T}

theorem delivers_start (maxDep : Nat) (traffic : List (Nat × T)) :
    Delivers maxDep traffic [] [] [] 0 1 0 (.start traffic) where
  now := rfl
  queue := rfl
  pushLines := rfl
  popLines := rfl
  requests := rfl
  stable := IsStableSort.nil
  increasing := List.Pairwise.nil
  early := by simp
  gone := by simp
  late := by simp
  room := Nat.zero_le _
  depth := Nat.zero_le _
  prompt := fun t' never => absurd never (Nat.not_lt_zero t')
  progress := by simp [PeqTest.start]

theorem Delivers.getInflightCount_eq
    (delivers : Delivers maxDep traffic pushes taken waiting t soonest next s) :
    s.testPeq.getInflightCount = waiting.length := by
  rw [Peq.getInflightCount, delivers.queue, List.length_map]

/-- A payload in flight expires before the loads have passed. -/
theorem Delivers.expires_le
    (delivers : Delivers maxDep traffic pushes taken waiting t soonest next s)
    {push : Push T} (member : push ∈ waiting) : push.expires ≤ load traffic := by
  have part := List.single_le_sum (fun _ _ => Nat.zero_le _) (push.expires - t)
    (List.mem_map_of_mem (f := fun push => push.expires - t) member)
  have bound := delivers.progress
  omega

/-- The payloads in flight are those that have been pushed before and not expired. -/
theorem Delivers.countP_isInFlight
    (delivers : Delivers maxDep traffic pushes taken waiting t (t + 1) t s) :
    pushes.countP (Push.isInFlight t) = waiting.length := by
  rw [← delivers.stable.perm.countP_eq, List.countP_append]
  have delivered : taken.countP (Push.isInFlight t) = 0 := by
    rw [List.countP_eq_zero]
    intro push member
    have gone := delivers.gone push member
    simp only [Push.isInFlight, decide_eq_true_eq]
    omega
  have all : waiting.countP (Push.isInFlight t) = waiting.length := by
    rw [List.countP_eq_length]
    intro push member
    have listed : push ∈ pushes :=
      delivers.stable.perm.mem_iff.mp (List.mem_append_right taken member)
    exact decide_eq_true ⟨delivers.early push listed, delivers.late push member⟩
  rw [delivered, all, Nat.zero_add]

/-! ### The push -/

/-- A payload joins those in flight. -/
theorem Delivers.join (delivers : Delivers maxDep traffic pushes taken waiting t (t + 1) t s)
    (fits : 1000 * load traffic < UInt64.size) {delay : Nat} {payload : T}
    {rest : List (Nat × T)} (first : s.rest = (delay, payload) :: rest)
    (room : waiting.length < maxDep) :
    Delivers maxDep traffic (pushes ++ [⟨t, delay, payload⟩]) taken
      (insertLast Push.due ⟨t, delay, payload⟩ waiting) t (t + 1) (t + 1)
      (PeqTest.recordDepth { s with
        testPeq := s.testPeq.pushDelayedPayload s.now (ns delay) payload
        rest
        pushLines := s.pushLines ++ [(s.now, payload, delay)] }) := by
  have perm : (insertLast Push.due ⟨t, delay, payload⟩ waiting).Perm
      (⟨t, delay, payload⟩ :: waiting) := insertLast_perm _ waiting
  have length := perm.length_eq
  have total : load s.rest = max 1 delay + load rest := by
    rw [first, load, load, List.map_cons, List.sum_cons]
  have bound := delivers.progress
  have own : 1000 * (⟨t, delay, payload⟩ : Push T).due < UInt64.size := by
    have less : delay ≤ max 1 delay := Nat.le_max_right _ _
    change 1000 * (t + delay) < UInt64.size
    omega
  have others : ∀ push ∈ waiting, 1000 * push.due < UInt64.size := by
    intro push member
    have expires := delivers.expires_le member
    have due := push.due_le_expires
    omega
  have queue : (s.testPeq.pushDelayedPayload s.now (ns delay) payload).peq =
      (insertLast Push.due ⟨t, delay, payload⟩ waiting).map Push.entry := by
    rw [Peq.pushDelayedPayload, delivers.queue, delivers.now, ns_add, Nat.add_comm]
    change insertLast dueTime (Push.entry ⟨t, delay, payload⟩) (waiting.map Push.entry) = _
    apply insertLast_map
    intro other member
    rw [dueTime_entry own, dueTime_entry (others other member)]
    exact Nat.mul_lt_mul_left (by decide)
  exact {
    now := delivers.now
    queue
    pushLines := by
      rw [List.map_append, ← delivers.pushLines]
      exact congrArg (fun time => s.pushLines ++ [(time, payload, delay)]) delivers.now
    popLines := delivers.popLines
    requests := by
      rw [← delivers.requests, first, List.map_append, List.append_assoc]
      rfl
    stable := by
      have inserted := delivers.stable.insertLast ⟨t, delay, payload⟩
      rwa [insertLast_append] at inserted
      intro push member
      have gone := delivers.gone push member
      exact (push.due_le_expires.trans gone).trans (Nat.le_add_right _ _)
    increasing := by
      rw [List.pairwise_append]
      refine ⟨delivers.increasing, List.pairwise_singleton _ _, fun push member new here => ?_⟩
      rw [List.mem_singleton.mp here]
      exact delivers.early push member
    early := by
      intro push member
      rcases List.mem_append.mp member with member | member
      · exact Nat.lt_succ_of_lt (delivers.early push member)
      · rw [List.mem_singleton.mp member]
        exact Nat.lt_succ_self t
    gone := delivers.gone
    late := by
      intro push member
      rcases mem_insertLast.mp member with rfl | member
      · exact Nat.add_le_add_left (Nat.le_max_left _ _) t
      · exact delivers.late push member
    room := by
      rw [length]
      exact room
    depth := by
      apply max_le delivers.depth
      rw [Peq.getInflightCount, queue, List.length_map, length]
      exact room
    prompt := by
      intro t' before _
      rcases Nat.lt_succ_iff_lt_or_eq.mp before with earlier | rfl
      · have waits : s.rest ≠ [] := by
          rw [first]
          exact List.cons_ne_nil _ _
        rcases delivers.prompt t' earlier (Or.inl waits) with ⟨push, member, here⟩ | full
        · exact Or.inl ⟨push, List.mem_append_left _ member, here⟩
        · right
          have later : Push.isInFlight t' (⟨t, delay, payload⟩ : Push T) = false :=
            decide_eq_false fun here => Nat.lt_asymm earlier here.1
          rw [List.countP_append, full, List.countP_singleton, later]
          rfl
      · exact Or.inl ⟨_, List.mem_append_right _ (List.mem_singleton_self _), rfl⟩
    progress := by
      have expires : (⟨t, delay, payload⟩ : Push T).expires - t = max 1 delay :=
        Nat.add_sub_cancel_left _ _
      change t + _ + load rest ≤ load traffic
      rw [(perm.map _).sum_eq, List.map_cons, List.sum_cons, expires]
      omega }

/-- A pass pushes the next payload, unless there is none or `max_dep` are in flight.
Some payload is in flight then. -/
theorem Delivers.push (delivers : Delivers maxDep traffic pushes taken waiting t (t + 1) t s)
    (fits : 1000 * load traffic < UInt64.size) (positive : 0 < maxDep)
    (remains : s.rest ≠ [] ∨ waiting ≠ []) :
    ∃ pushes' waiting', waiting' ≠ [] ∧
      Delivers maxDep traffic pushes' taken waiting' t (t + 1) (t + 1) (s.push maxDep) := by
  have skipped : (s.rest = [] ∨ waiting.length = maxDep) →
      Delivers maxDep traffic pushes taken waiting t (t + 1) (t + 1) s := by
    intro why
    exact { delivers with
      early := fun push member => Nat.lt_succ_of_lt (delivers.early push member)
      prompt := by
        intro t' before remains
        rcases Nat.lt_succ_iff_lt_or_eq.mp before with earlier | rfl
        · exact delivers.prompt t' earlier remains
        · right
          rw [delivers.countP_isInFlight]
          rcases why with pushed | full
          · rcases remains with more | ⟨push, member, later⟩
            · exact absurd pushed more
            · exact absurd (delivers.early push member) (Nat.lt_asymm later)
          · exact full }
  unfold PeqTest.push
  split
  · rename_i pushed
    exact ⟨pushes, waiting, remains.resolve_left (not_not.mpr pushed), skipped (Or.inl pushed)⟩
  · rename_i delay payload rest first
    rw [delivers.getInflightCount_eq]
    split_ifs with room
    · have listed : (⟨t, delay, payload⟩ : Push T) ∈
          insertLast Push.due ⟨t, delay, payload⟩ waiting := mem_insertLast.mpr (Or.inl rfl)
      exact ⟨_, _, List.ne_nil_of_mem listed, delivers.join fits first room⟩
    · have full := Nat.le_antisymm delivers.room (not_lt.mp room)
      refine ⟨pushes, waiting, ?_, skipped (Or.inr full)⟩
      rw [← List.length_pos_iff, full]
      exact positive

/-! ### A nanosecond -/

/-- What is in flight gets nearer to its end. -/
theorem sum_expires_succ (nonempty : waiting ≠ []) (late : ∀ push ∈ waiting, t + 1 ≤ push.expires) :
    (waiting.map fun push => push.expires - (t + 1)).sum + 1 ≤
      (waiting.map fun push => push.expires - t).sum := by
  induction waiting with
  | nil => exact absurd rfl nonempty
  | cons push rest ih =>
      have here := late push List.mem_cons_self
      simp only [List.map_cons, List.sum_cons]
      cases rest with
      | nil =>
          simp only [List.map_nil, List.sum_nil]
          omega
      | cons other rest =>
          have others := ih (List.cons_ne_nil _ _) fun push member =>
            late push (List.mem_cons_of_mem _ member)
          omega

theorem Delivers.advance
    (delivers : Delivers maxDep traffic pushes taken waiting t (t + 1) (t + 1) s)
    (nonempty : waiting ≠ []) :
    Delivers maxDep traffic pushes taken waiting (t + 1) (t + 1) (t + 1) s.advance := by
  unfold PeqTest.advance
  exact { delivers with
    now := by
      rw [delivers.now, ns_add]
    gone := fun push member => Nat.le_succ_of_le (delivers.gone push member)
    progress := by
      have nearer := sum_expires_succ nonempty delivers.late
      have bound := delivers.progress
      dsimp only
      omega }

/-! ### The pops -/

/-- The pop of the first payload, when its time has come. -/
theorem Delivers.take {push : Push T} {rest : List (Push T)}
    (delivers : Delivers maxDep traffic pushes taken (push :: rest) t t t s) (due : push.due ≤ t) :
    Delivers maxDep traffic pushes (taken ++ [push]) rest t t t
      (PeqTest.recordDepth { s with
        testPeq := ⟨rest.map Push.entry⟩
        popLines := s.popLines ++ [(s.now, push.payload)] }) := by
  have listed : push ∈ pushes := delivers.stable.perm.mem_iff.mp (by simp)
  have early := delivers.early push listed
  have late := delivers.late push List.mem_cons_self
  have expires : push.expires = t := by
    rw [Push.due] at due
    rw [Push.expires] at late ⊢
    omega
  exact { delivers with
    queue := rfl
    popLines := by
      rw [List.map_append, ← delivers.popLines]
      change s.popLines ++ [(s.now, push.payload)] = s.popLines ++ [(ns push.expires, push.payload)]
      rw [expires, delivers.now]
    stable := by
      rw [List.append_assoc]
      exact delivers.stable
    gone := by
      intro other member
      rcases List.mem_append.mp member with member | member
      · exact delivers.gone other member
      · rw [List.mem_singleton.mp member, expires]
    late := fun other member => delivers.late other (List.mem_cons_of_mem push member)
    room := (Nat.le_succ _).trans delivers.room
    depth := by
      apply max_le delivers.depth
      rw [Peq.getInflightCount, List.length_map]
      exact (Nat.le_succ _).trans delivers.room
    progress := by
      have bound := delivers.progress
      rw [List.map_cons, List.sum_cons, expires, Nat.sub_self, Nat.zero_add] at bound
      exact bound }

/-- The inner loop pops all that has expired. -/
theorem Delivers.pop (delivers : Delivers maxDep traffic pushes taken waiting t t t s)
    (fits : 1000 * load traffic < UInt64.size) {fuel : Nat} (enough : waiting.length ≤ fuel) :
    ∃ taken' waiting', Delivers maxDep traffic pushes taken' waiting' t (t + 1) t
      (s.pop fuel) := by
  induction fuel generalizing s taken waiting with
  | zero =>
      have nothing := List.eq_nil_of_length_eq_zero (Nat.le_zero.mp enough)
      subst nothing
      exact ⟨taken, [], { delivers with late := by simp }⟩
  | succ fuel ih =>
      have bound := delivers.progress
      have keys : ∀ push ∈ waiting, (push.entry.1 ≤ s.now ↔ push.due ≤ t) := by
        intro push member
        have expires := delivers.expires_le member
        have due := push.due_le_expires
        rw [delivers.now]
        exact ns_le_iff (by omega) (by omega)
      rcases popExpiredPayload_cases s.now s.testPeq with
        ⟨nothing, later⟩ | ⟨first, entries, split, due, popped⟩
      · rw [PeqTest.pop, nothing]
        refine ⟨taken, waiting, { delivers with late := fun push member => ?_ }⟩
        cases waiting with
        | nil => cases member
        | cons head rest =>
            have sorted := (List.pairwise_append.mp delivers.stable.sorted).2.1
            have least := IsStableSort.le_first sorted member
            have waits := later head.entry (rest.map Push.entry) delivers.queue
            have notDue := mt (keys head List.mem_cons_self).mpr (UInt64.not_le.mpr waits)
            have expires := push.due_le_expires
            omega
      · cases waiting with
        | nil =>
            rw [delivers.queue] at split
            cases split
        | cons head rest =>
            rw [delivers.queue] at split
            rcases List.cons.inj split with ⟨rfl, rfl⟩
            rw [PeqTest.pop, popped]
            exact ih (delivers.take ((keys head List.mem_cons_self).mp due))
              (Nat.le_of_succ_le_succ enough)

/-! ### The loop -/

theorem Delivers.pass (delivers : Delivers maxDep traffic pushes taken waiting t (t + 1) t s)
    (fits : 1000 * load traffic < UInt64.size) (positive : 0 < maxDep)
    (remains : s.rest ≠ [] ∨ waiting ≠ []) :
    ∃ pushes' taken' waiting',
      Delivers maxDep traffic pushes' taken' waiting' (t + 1) (t + 1 + 1) (t + 1)
        (s.pass maxDep) := by
  rcases delivers.push fits positive remains with ⟨pushes', pushed, inFlight, during⟩
  have later := during.advance inFlight
  rcases later.pop fits later.getInflightCount_eq.ge with ⟨taken', waiting', after⟩
  exact ⟨pushes', taken', waiting', after⟩

/-- The loop goes on while a payload is left. -/
theorem Delivers.ends_iff
    (delivers : Delivers maxDep traffic pushes taken waiting t soonest next s) :
    (s.rest.isEmpty = true ∧ s.testPeq.getInflightCount = 0) ↔ s.rest = [] ∧ waiting = [] := by
  rw [delivers.getInflightCount_eq, List.isEmpty_iff, List.length_eq_zero_iff]

/-- The loop ends when the loads have passed. -/
theorem Delivers.loop (delivers : Delivers maxDep traffic pushes taken waiting t (t + 1) t s)
    (fits : 1000 * load traffic < UInt64.size) (positive : 0 < maxDep) {fuel : Nat}
    (enough : load traffic ≤ t + fuel) :
    ∃ final pushes' taken' t', s.loop maxDep fuel = some final ∧ final.rest = [] ∧
      Delivers maxDep traffic pushes' taken' [] t' (t' + 1) t' final := by
  induction fuel generalizing s pushes taken waiting t with
  | zero =>
      by_cases ends : s.rest = [] ∧ waiting = []
      · rcases ends with ⟨empty, rfl⟩
        rw [PeqTest.loop, if_pos (delivers.ends_iff.mpr ⟨empty, rfl⟩)]
        exact ⟨s, pushes, taken, t, rfl, empty, delivers⟩
      · rcases delivers.pass fits positive (not_and_or.mp ends) with ⟨_, _, _, after⟩
        have bound := after.progress
        omega
  | succ fuel ih =>
      rw [PeqTest.loop]
      by_cases ends : s.rest = [] ∧ waiting = []
      · rcases ends with ⟨empty, rfl⟩
        rw [if_pos (delivers.ends_iff.mpr ⟨empty, rfl⟩)]
        exact ⟨s, pushes, taken, t, rfl, empty, delivers⟩
      · rw [if_neg (mt delivers.ends_iff.mp ends)]
        rcases delivers.pass fits positive (not_and_or.mp ends) with ⟨_, _, _, after⟩
        exact ih after (by omega)

end Passes

/-- With a limit of zero nothing is pushed, and the loop does not end. -/
theorem loop_zero_eq_none {s : PeqTest T} (waits : s.rest ≠ []) (empty : s.testPeq.peq = [])
    (fuel : Nat) : s.loop 0 fuel = none := by
  have goesOn : ¬ (s.rest.isEmpty = true ∧ s.testPeq.getInflightCount = 0) := fun ends =>
    waits (List.isEmpty_iff.mp ends.1)
  induction fuel generalizing s with
  | zero => rw [PeqTest.loop, if_neg goesOn]
  | succ fuel ih =>
      have unchanged : s.push 0 = s := by
        unfold PeqTest.push
        split
        · rfl
        · exact if_neg (Nat.not_lt_zero _)
      have idle : s.pass 0 = s.advance := by
        rw [PeqTest.pass, unchanged, PeqTest.advance, Peq.getInflightCount, empty]
        rfl
      rw [PeqTest.loop, if_neg goesOn, idle, PeqTest.advance]
      exact ih waits empty goesOn

/-- The loop of `peq_test` ends, for any payloads and delays, and any limit of the depth
that is not zero.  It has pushed all payloads in order, at most one in a pass, and a pass
has pushed none only where `max_dep` were in flight.  It has popped all of them, in the
order of their due times and stably, each when it was due and a nanosecond had passed;
and never have more than `max_dep` been in flight. -/
theorem peqTest_delivers (traffic : List (Nat × T)) {maxDep : Nat} (positive : 0 < maxDep)
    (fits : 1000 * load traffic < UInt64.size) {fuel : Nat} (enough : load traffic ≤ fuel) :
    ∃ (final : PeqTest T) (pushes : List (Push T)),
      (PeqTest.start traffic).loop maxDep fuel = some final ∧
      pushes.map Push.request = traffic ∧
      final.pushLines = pushes.map Push.pushLine ∧
      final.popLines = (pushes.mergeSort fun a b => a.due ≤ b.due).map Push.popLine ∧
      pushes.Pairwise (fun earlier later => earlier.start < later.start) ∧
      (∀ t, (∃ push ∈ pushes, t < push.start) →
        (∃ push ∈ pushes, push.start = t) ∨ pushes.countP (Push.isInFlight t) = maxDep) ∧
      final.peqMaxDep ≤ maxDep ∧ final.now ≤ ns (load traffic) := by
  rcases (delivers_start maxDep traffic).loop fits positive (enough.trans (Nat.le_add_left _ _))
    with ⟨final, pushes, taken, t, ends, none, delivers⟩
  have requests := delivers.requests
  rw [none, List.append_nil] at requests
  have stable := delivers.stable
  rw [List.append_nil] at stable
  have bound := delivers.progress
  refine ⟨final, pushes, ends, requests, delivers.pushLines, ?_, delivers.increasing, ?_,
    delivers.depth, ?_⟩
  · rw [delivers.popLines, stable.unique (IsStableSort.mergeSort pushes)]
  · rintro t' ⟨push, member, later⟩
    have before := later.trans (delivers.early push member)
    exact delivers.prompt t' before (Or.inr ⟨push, member, later⟩)
  · rw [delivers.now, ns_le_iff (by omega) fits]
    omega

/-- The third payload waits until the first has been popped, and overtakes the second. -/
theorem peqTest_delivers_three :
    ∃ final, (PeqTest.start [(2, 'a'), (9, 'b'), (1, 'c')]).loop 2 12 = some final ∧
      final.popLines = [(ns 2, 'a'), (ns 3, 'c'), (ns 10, 'b')] ∧ final.peqMaxDep ≤ 2 := by
  rcases peqTest_delivers [(2, 'a'), (9, 'b'), (1, 'c')] Nat.two_pos (by decide)
    (show _ ≤ 12 by decide) with ⟨final, _, ends, -, -, -, -, -, depth, -⟩
  have lines : ((PeqTest.start [(2, 'a'), (9, 'b'), (1, 'c')]).loop 2 12).map PeqTest.popLines =
      some [(ns 2, 'a'), (ns 3, 'c'), (ns 10, 'b')] := by
    decide +kernel
  rw [ends] at lines
  exact ⟨final, ends, Option.some.inj lines, depth⟩

end SystemcTlm.EventQueue
