import Mathlib.Tactic.SplitIfs
import Mathlib.Order.Basic

/-!
# Round-robin scans

A round-robin pointer is read by the loop

`k = start; do { if (hit(k)) break; k = (k + 1) % n; } while (k != start);`

which stops at the first hit in cyclic order from `start`.  `scanFrom` is that
loop with an explicit bound on the number of passes.  From a pointer in range
the loop leaves by its own test within `n` passes, so `scan` loses nothing.

`scanWithin` checks every read against the vectors, and `Ends` says that the
loop returns.

`ringDist n a b` is the number of forward steps from `a` to `b` on a ring of
`n` places.  It orders the places the way the loop meets them.  `advance` is
the pointer after a scan, and `elim_of_guard` a scan made only under a guard.
-/

namespace SystemcTlm.Loop

universe u

/-! ## Distances on a ring -/

/-- Forward steps from `a` to `b` on a ring of `n` places. -/
def ringDist (n a b : Nat) : Nat :=
  if a ≤ b then b - a else b + n - a

theorem ringDist_lt {n a b : Nat} (aBound : a < n) (bBound : b < n) : ringDist n a b < n := by
  unfold ringDist
  split_ifs <;> omega

@[simp]
theorem ringDist_self (n a : Nat) : ringDist n a a = 0 := by
  simp [ringDist]

theorem ringDist_inj {n a b c : Nat} (aBound : a < n) (bBound : b < n) (cBound : c < n) :
    ringDist n a b = ringDist n a c ↔ b = c := by
  unfold ringDist
  split_ifs <;> omega

/-- The successor of a place, with the wrap written as a case. -/
theorem succ_mod {n a : Nat} (bound : a < n) : (a + 1) % n = if a + 1 = n then 0 else a + 1 := by
  split_ifs with wraps
  · rw [wraps, Nat.mod_self]
  · exact Nat.mod_eq_of_lt (by omega)

theorem succ_mod_lt {n : Nat} (a : Nat) (positive : 0 < n) : (a + 1) % n < n :=
  Nat.mod_lt _ positive

/-- Passing `b` on the way to `c` shortens the distance to `c` by what was
walked, the step past `b` included. -/
theorem ringDist_succ_mod {n a b c : Nat} (aBound : a < n) (bBound : b < n) (cBound : c < n)
    (sooner : ringDist n a b < ringDist n a c) :
    ringDist n ((b + 1) % n) c + (ringDist n a b + 1) = ringDist n a c := by
  rw [succ_mod bBound]
  unfold ringDist at *
  split_ifs at * <;> omega

/-- The place `d` steps after `start`. -/
theorem add_mod_eq {n start d : Nat} (startBound : start < n) (dBound : d ≤ n) :
    (start + d) % n = if start + d < n then start + d else start + d - n := by
  split_ifs with inside
  · exact Nat.mod_eq_of_lt inside
  · rw [Nat.mod_eq_sub_mod (Nat.le_of_not_lt inside)]
    exact Nat.mod_eq_of_lt (by omega)

theorem ringDist_add_mod {n start d : Nat} (startBound : start < n) (dBound : d < n) :
    ringDist n start ((start + d) % n) = d := by
  rw [add_mod_eq startBound (Nat.le_of_lt dBound)]
  unfold ringDist
  split_ifs <;> omega

theorem add_ringDist_mod {n a b : Nat} (aBound : a < n) (bBound : b < n) :
    (a + ringDist n a b) % n = b := by
  rw [add_mod_eq aBound (Nat.le_of_lt (ringDist_lt aBound bBound))]
  unfold ringDist
  split_ifs <;> omega

/-! ## Pointers -/

/-- A pointer moved past the place it chose, or left alone. -/
def advance (n ptr : Nat) : Option Nat → Nat
  | some place => (place + 1) % n
  | none => ptr

@[simp]
theorem advance_none (n ptr : Nat) : advance n ptr none = ptr :=
  rfl

@[simp]
theorem advance_some (n ptr place : Nat) : advance n ptr (some place) = (place + 1) % n :=
  rfl

theorem advance_lt {n ptr : Nat} (bound : ptr < n) (choice : Option Nat) :
    advance n ptr choice < n := by
  cases choice with
  | none => exact bound
  | some place => exact succ_mod_lt place (Nat.zero_lt_of_lt bound)

/-- Acting on what was found unless a guard forbids it is acting on one
choice. -/
theorem elim_of_guard {σ : Type u} {guard : Prop} [Decidable guard] {found choice : Option Nat}
    (idle : σ) (act : Nat → σ) :
    choice = (if guard then none else found) →
      (if guard then idle else
        match found with
        | none => idle
        | some place => act place) = choice.elim idle act := by
  rintro rfl
  split_ifs
  · rfl
  · cases found <;> rfl

/-! ## The scanning loop -/

/-- At most `fuel` passes of the do-while scan that began at `start` and stands
at `current`. -/
def scanFrom (n : Nat) (hit : Nat → Bool) (start : Nat) : Nat → Nat → Option Nat
  | 0, _ => none
  | fuel + 1, current =>
      if hit current then some current
      else if (current + 1) % n = start then none
      else scanFrom n hit start fuel ((current + 1) % n)

/-- The do-while scan from `start` over `n` places. -/
def scan (n : Nat) (hit : Nat → Bool) (start : Nat) : Option Nat :=
  scanFrom n hit start n start

/-- What the loop has found when it stands `d` steps after `start` with enough
passes left to come round: the first hit not yet visited, or nothing. -/
theorem scanFrom_spec {n : Nat} {hit : Nat → Bool} {start d fuel : Nat} (startBound : start < n)
    (dBound : d < n) (enough : n ≤ d + fuel) :
    match scanFrom n hit start fuel ((start + d) % n) with
    | some k => ∃ e, d ≤ e ∧ e < n ∧ k = (start + e) % n ∧ hit k = true ∧
        ∀ e', d ≤ e' → e' < e → hit ((start + e') % n) = false
    | none => ∀ e, d ≤ e → e < n → hit ((start + e) % n) = false := by
  induction fuel generalizing d with
  | zero => omega
  | succ fuel ih =>
      have next : ((start + d) % n + 1) % n = (start + (d + 1)) % n := by
        rw [Nat.mod_add_mod, Nat.add_assoc]
      have back : (start + (d + 1)) % n = start ↔ d + 1 = n := by
        rw [add_mod_eq startBound dBound]
        split_ifs <;> omega
      rw [scanFrom, next]
      by_cases here : hit ((start + d) % n) = true
      · rw [if_pos here]
        exact ⟨d, Nat.le_refl d, dBound, rfl, here, fun e' low high => by omega⟩
      · rw [if_neg here]
        have miss : hit ((start + d) % n) = false := by simpa using here
        by_cases round : d + 1 = n
        · rw [if_pos (back.mpr round)]
          intro e low high
          obtain rfl : e = d := by omega
          exact miss
        · rw [if_neg (mt back.mp round)]
          have rest := ih (d := d + 1) (by omega) (by omega)
          cases found : scanFrom n hit start fuel ((start + (d + 1)) % n) with
          | some k =>
              rw [found] at rest
              rcases rest with ⟨e, low, high, place, hits, sooner⟩
              refine ⟨e, by omega, high, place, hits, fun e' low' high' => ?_⟩
              by_cases first : e' = d
              · exact first ▸ miss
              · exact sooner e' (by omega) high'
          | none =>
              rw [found] at rest
              intro e low high
              by_cases first : e = d
              · exact first ▸ miss
              · exact rest e (by omega) high

/-- What the scan finds: the hit that it meets first, or nothing. -/
theorem scan_spec {n : Nat} {hit : Nat → Bool} {start : Nat} (startBound : start < n) :
    match scan n hit start with
    | some k => k < n ∧ hit k = true ∧
        ∀ j, j < n → ringDist n start j < ringDist n start k → hit j = false
    | none => ∀ j, j < n → hit j = false := by
  have spec := @scanFrom_spec n hit start 0 n startBound (by omega) (by omega)
  rw [Nat.add_zero, Nat.mod_eq_of_lt startBound] at spec
  unfold scan
  cases found : scanFrom n hit start n start with
  | none =>
      rw [found] at spec
      intro j bound
      have miss := spec (ringDist n start j) (Nat.zero_le _) (ringDist_lt startBound bound)
      rwa [add_ringDist_mod startBound bound] at miss
  | some k =>
      rw [found] at spec
      rcases spec with ⟨e, _, high, rfl, hits, sooner⟩
      have dist := ringDist_add_mod startBound high
      refine ⟨Nat.mod_lt _ (by omega), hits, fun j bound closer => ?_⟩
      have miss := sooner (ringDist n start j) (Nat.zero_le _) (by omega)
      rwa [add_ringDist_mod startBound bound] at miss

/-- The scan stops at `k` exactly when `k` is a hit and no place met before it
is one. -/
theorem scan_eq_some_iff {n : Nat} {hit : Nat → Bool} {start k : Nat} (startBound : start < n) :
    scan n hit start = some k ↔
      k < n ∧ hit k = true ∧
        ∀ j, j < n → ringDist n start j < ringDist n start k → hit j = false := by
  have spec := @scan_spec n hit start startBound
  cases found : scan n hit start with
  | none =>
      rw [found] at spec
      simp only [reduceCtorEq, false_iff]
      rintro ⟨bound, hits, _⟩
      simp [spec k bound] at hits
  | some first =>
      rw [found] at spec
      rcases spec with ⟨bound, hits, sooner⟩
      constructor
      · intro same
        cases same
        exact ⟨bound, hits, sooner⟩
      · rintro ⟨kBound, kHits, kFirst⟩
        have notLater : ¬ ringDist n start k < ringDist n start first := fun less => by
          simp [sooner k kBound less] at kHits
        have notSooner : ¬ ringDist n start first < ringDist n start k := fun less => by
          simp [kFirst first bound less] at hits
        rw [Option.some.injEq, ← ringDist_inj startBound bound kBound]
        omega

theorem scan_eq_none_iff {n : Nat} {hit : Nat → Bool} {start : Nat} (startBound : start < n) :
    scan n hit start = none ↔ ∀ j, j < n → hit j = false := by
  have spec := @scan_spec n hit start startBound
  cases found : scan n hit start with
  | none =>
      rw [found] at spec
      simp only [true_iff]
      exact spec
  | some k =>
      rw [found] at spec
      rcases spec with ⟨bound, hits, _⟩
      simp only [reduceCtorEq, false_iff]
      intro misses
      simp [misses k bound] at hits

/-- A scan meets a hit whenever one is in range. -/
theorem scan_isSome_of_hit {n : Nat} (hit : Nat → Bool) {start k : Nat} (startBound : start < n)
    (kBound : k < n) (hits : hit k = true) : (scan n hit start).isSome := by
  rw [Option.isSome_iff_ne_none]
  intro none_eq
  simp [(scan_eq_none_iff startBound).mp none_eq k kBound] at hits

/-- The hit a scan stops at is no further than any other hit. -/
theorem ringDist_scan_le {n : Nat} {hit : Nat → Bool} {start k j : Nat} (startBound : start < n)
    (found : scan n hit start = some k) (jBound : j < n) (hits : hit j = true) :
    ringDist n start k ≤ ringDist n start j := by
  by_contra further
  simp [((scan_eq_some_iff startBound).mp found).2.2 j jBound (by omega)] at hits

/-- A pointer that moves past the hit its scan stopped at comes nearer to every
other hit. -/
theorem ringDist_succ_lt_of_scan {n : Nat} {hit : Nat → Bool} {start k j : Nat}
    (startBound : start < n) (found : scan n hit start = some k) (jBound : j < n)
    (hits : hit j = true) (other : k ≠ j) :
    ringDist n ((k + 1) % n) j < ringDist n start j := by
  have kBound := ((scan_eq_some_iff startBound).mp found).1
  have nearer : ringDist n start k < ringDist n start j := by
    apply Nat.lt_of_le_of_ne (ringDist_scan_le startBound found jBound hits)
    exact fun same => other ((ringDist_inj startBound kBound jBound).mp same)
  have turned := ringDist_succ_mod startBound kBound jBound nearer
  omega

/-- Scans see only the places in range. -/
theorem scan_congr {n : Nat} {first second : Nat → Bool} {start : Nat} (startBound : start < n)
    (agree : ∀ j, j < n → first j = second j) : scan n first start = scan n second start := by
  cases found : scan n second start with
  | none =>
      rw [scan_eq_none_iff startBound] at found ⊢
      exact fun j bound => (agree j bound).trans (found j bound)
  | some k =>
      rw [scan_eq_some_iff startBound] at found ⊢
      rcases found with ⟨bound, hits, sooner⟩
      exact ⟨bound, (agree k bound).trans hits,
        fun j jBound closer => (agree j jBound).trans (sooner j jBound closer)⟩

/-- A pointer that stands on a hit is returned at once. -/
theorem scan_of_hit {n : Nat} {hit : Nat → Bool} {start : Nat} (startBound : start < n)
    (hits : hit start = true) : scan n hit start = some start := by
  rw [scan_eq_some_iff startBound]
  exact ⟨startBound, hits, fun j _ closer => by simp at closer⟩

/-! ## The loop with checked reads -/

/-- At most `passes` passes of the scan over vectors of `n` entries, every read
of which is checked: `none` is a read outside them, or a loop that is still
running. -/
def scanWithin (n : Nat) (hit : Nat → Bool) (start : Nat) : Nat → Nat → Option (Option Nat)
  | 0, _ => none
  | passes + 1, current =>
      if current < n then
        if hit current then some (some current)
        else if (current + 1) % n = start then some none
        else scanWithin n hit start passes ((current + 1) % n)
      else none

/-- The scan reads inside the vectors only, and leaves by its own tests. -/
def Ends (n : Nat) (hit : Nat → Bool) (start : Nat) : Prop :=
  ∃ passes found, scanWithin n hit start passes start = some found

/-- From a place on the ring with enough passes left to come round, the checks
never fail. -/
theorem scanWithin_eq {n : Nat} {hit : Nat → Bool} {start d passes : Nat} (startBound : start < n)
    (dBound : d < n) (enough : n ≤ d + passes) :
    scanWithin n hit start passes ((start + d) % n) =
      some (scanFrom n hit start passes ((start + d) % n)) := by
  induction passes generalizing d with
  | zero => omega
  | succ passes ih =>
      have inside : (start + d) % n < n := Nat.mod_lt _ (by omega)
      have next : ((start + d) % n + 1) % n = (start + (d + 1)) % n := by
        rw [Nat.mod_add_mod, Nat.add_assoc]
      rw [scanWithin, scanFrom, if_pos inside, next]
      split_ifs with here round
      · rfl
      · rfl
      · apply ih _ (by omega)
        -- at the last place the next step comes back to the start
        by_contra last
        obtain rfl : d + 1 = n := by omega
        rw [Nat.add_mod_right, Nat.mod_eq_of_lt startBound] at round
        exact round rfl

/-- The loop ends exactly when it begins inside the vectors: from another start
the first read is already outside. -/
theorem ends_iff {n : Nat} {hit : Nat → Bool} {start : Nat} : Ends n hit start ↔ start < n := by
  constructor
  · rintro ⟨passes, found, ended⟩
    cases passes with
    | zero => simp [scanWithin] at ended
    | succ passes =>
        rw [scanWithin] at ended
        split_ifs at ended with inside
        · exact inside
        · exact inside
        · exact inside
  · intro startBound
    have checked := @scanWithin_eq n hit start 0 n startBound (by omega) (by omega)
    rw [Nat.add_zero, Nat.mod_eq_of_lt startBound] at checked
    exact ⟨n, _, checked⟩

end SystemcTlm.Loop
