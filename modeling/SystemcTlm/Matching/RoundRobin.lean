import SystemcTlm.Loop.Scan
import SystemcTlm.Loop.Tables
import SystemcTlm.Matching.Round

/-!
# Round-robin rounds

The round of a crossbar with `n` inputs and `m` outputs in which every output
scans the requests from its grant pointer and every input scans the grants from
its accept pointer.  The choices depend on the requests and the pointers of the
ports in range only, so two schedulers that agree on those make the same
matches.
-/

namespace SystemcTlm.Matching

open SystemcTlm.Loop

/-- The grant of output `o`. -/
def scanGrant (n m : Nat) (request : Nat → Nat → Bool) (gPtr : Nat → Nat) (o : Nat) :
    Option Nat :=
  if o < m then scan n (fun i => request i o) (gPtr o) else none

/-- The acceptance of input `i`. -/
def scanAccept (n m : Nat) (request : Nat → Nat → Bool) (gPtr aPtr : Nat → Nat) (i : Nat) :
    Option Nat :=
  if i < n then scan m (fun o => decide (scanGrant n m request gPtr o = some i)) (aPtr i)
  else none

/-- The pairs of a round, by input. -/
def scanPairs (n m : Nat) (request : Nat → Nat → Bool) (gPtr aPtr : Nat → Nat) :
    List (Nat × Nat) :=
  pairsOf (scanAccept n m request gPtr aPtr) (List.range n)

section Choices

variable {n m : Nat} {request : Nat → Nat → Bool} {gPtr aPtr : Nat → Nat}
  (gBound : ∀ o, o < m → gPtr o < n) (aBound : ∀ i, i < n → aPtr i < m)

/-- The choices obey the laws of a round. -/
def scanRound : Round Nat Nat where
  request i o := i < n ∧ o < m ∧ request i o = true
  grant := scanGrant n m request gPtr
  accept := scanAccept n m request gPtr aPtr
  grant_request i o granted := by
    unfold scanGrant at granted
    split_ifs at granted with outputBound
    rcases (scan_eq_some_iff (gBound o outputBound)).mp granted with ⟨inputBound, requested, _⟩
    exact ⟨inputBound, outputBound, requested⟩
  grant_isSome i o requested := by
    rcases requested with ⟨inputBound, outputBound, asks⟩
    rw [scanGrant, if_pos outputBound]
    exact scan_isSome_of_hit _ (gBound o outputBound) inputBound asks
  accept_grant i o accepted := by
    unfold scanAccept at accepted
    split_ifs at accepted with inputBound
    rcases (scan_eq_some_iff (aBound i inputBound)).mp accepted with ⟨_, granted, _⟩
    exact of_decide_eq_true granted
  accept_isSome i o granted := by
    have place := granted
    unfold scanGrant at place
    split_ifs at place with outputBound
    have inputBound := ((scan_eq_some_iff (gBound o outputBound)).mp place).1
    rw [scanAccept, if_pos inputBound]
    exact scan_isSome_of_hit _ (aBound i inputBound) outputBound (decide_eq_true granted)

include gBound aBound

/-- An accepted pair was requested. -/
theorem scanAccept_request {i o : Nat} (accepted : scanAccept n m request gPtr aPtr i = some o) :
    i < n ∧ o < m ∧ request i o = true :=
  (scanRound gBound aBound).accept_request accepted

theorem scanAccept_inj {i i' o : Nat} (accepted : scanAccept n m request gPtr aPtr i = some o)
    (accepted' : scanAccept n m request gPtr aPtr i' = some o) : i = i' :=
  (scanRound gBound aBound).matched.inj accepted accepted'

theorem scanPairs_isMatching : IsMatching (scanPairs n m request gPtr aPtr) :=
  pairsOf_isMatching (scanRound gBound aBound).matched List.nodup_range

theorem mem_scanPairs_iff {i o : Nat} :
    (i, o) ∈ scanPairs n m request gPtr aPtr ↔ scanAccept n m request gPtr aPtr i = some o := by
  rw [scanPairs, mem_pairsOf_iff, List.mem_range]
  exact ⟨fun member => member.2, fun accepted =>
    ⟨(scanAccept_request gBound aBound accepted).1, accepted⟩⟩

/-- A request leads to a pair. -/
theorem scanPairs_length_pos {i o : Nat} (inputBound : i < n) (outputBound : o < m)
    (asks : request i o = true) : 0 < (scanPairs n m request gPtr aPtr).length := by
  obtain ⟨i', o', accepted⟩ :=
    (scanRound gBound aBound).exists_accept (i := i) (o := o) ⟨inputBound, outputBound, asks⟩
  exact List.length_pos_of_mem ((mem_scanPairs_iff gBound aBound).mpr accepted)

end Choices

/-! ## Agreement -/

section Agreement

variable {n m : Nat} {first second : Nat → Nat → Bool} {gPtr gPtr' aPtr aPtr' : Nat → Nat}
  (agree : ∀ i, i < n → ∀ o, o < m → first i o = second i o)
  (gBound : ∀ o, o < m → gPtr o < n) (gSame : ∀ o, o < m → gPtr o = gPtr' o)

include agree gBound gSame

theorem scanGrant_congr : scanGrant n m first gPtr = scanGrant n m second gPtr' := by
  funext o
  unfold scanGrant
  split_ifs with outputBound
  · rw [← gSame o outputBound]
    exact scan_congr (gBound o outputBound) fun i inputBound => agree i inputBound o outputBound
  · rfl

theorem scanAccept_congr (aSame : ∀ i, i < n → aPtr i = aPtr' i) :
    scanAccept n m first gPtr aPtr = scanAccept n m second gPtr' aPtr' := by
  funext i
  unfold scanAccept
  rw [scanGrant_congr agree gBound gSame]
  split_ifs with inputBound
  · rw [aSame i inputBound]
  · rfl

end Agreement

/-! ## Marks and pointers in tables -/

/-- The grants marked in a flat table. -/
theorem writeAll_grants {choice : Nat → Option Nat} {table : Nat → Bool} {n i j : Nat}
    (bound : j < n) :
    writeAll (fun pair : Nat × Nat => flatIndex n pair.2 pair.1) (fun _ => true)
        (pairsOf choice (List.range n)) table (flatIndex n i j) =
      (table (flatIndex n i j) || decide (choice j = some i)) := by
  rw [writeAll_true]
  congr 1
  rw [decide_eq_decide]
  constructor
  · rintro ⟨⟨output, input⟩, member, same⟩
    rcases mem_pairsOf_iff.mp member with ⟨inside, chosen⟩
    rcases (flatIndex_inj (List.mem_range.mp inside) bound).mp same with ⟨rfl, rfl⟩
    exact chosen
  · exact fun chosen => ⟨(j, i), mem_pairsOf_iff.mpr ⟨List.mem_range.mpr bound, chosen⟩, rfl⟩

/-- The accepted pairs marked in a flat table. -/
theorem writeAll_accepts {pairs : List (Nat × Nat)} {table : Nat → Bool} {n i j : Nat}
    (inside : ∀ pair ∈ pairs, pair.2 < n) (bound : j < n) :
    writeAll (fun pair : Nat × Nat => flatIndex n pair.1 pair.2) (fun _ => true) pairs table
        (flatIndex n i j) =
      (table (flatIndex n i j) || decide ((i, j) ∈ pairs)) := by
  rw [writeAll_true]
  congr 1
  rw [decide_eq_decide]
  constructor
  · rintro ⟨⟨input, output⟩, member, same⟩
    rcases (flatIndex_inj (inside _ member) bound).mp same with ⟨rfl, rfl⟩
    exact member
  · exact fun member => ⟨(i, j), member, rfl⟩

/-- A pointer that at most one entry of the list moves. -/
theorem writeAll_advance {α : Type*} {key target : α → Nat} {entries : List α}
    {table : Nat → Nat} {n index : Nat} {choice : Option Nat}
    (distinct : (entries.map key).Nodup)
    (found : ∀ place, choice = some place ↔
      ∃ entry ∈ entries, key entry = index ∧ target entry = place) :
    writeAll key (fun entry => (target entry + 1) % n) entries table index =
      advance n (table index) choice := by
  cases chosen : choice with
  | none =>
      apply writeAll_of_not_mem
      intro entry member here
      simpa [chosen] using (found (target entry)).mpr ⟨entry, member, here, rfl⟩
  | some place =>
      rcases (found place).mp chosen with ⟨entry, member, rfl, rfl⟩
      rw [writeAll_of_mem distinct member, advance_some]

/-- Every port moves its own pointer. -/
theorem writeAll_pairsOf {choice : Nat → Option Nat} {table : Nat → Nat} {n width row k : Nat}
    (bound : k < width) :
    writeAll (fun pair : Nat × Nat => flatIndex width row pair.1)
        (fun pair => (pair.2 + 1) % n) (pairsOf choice (List.range width)) table
        (flatIndex width row k) =
      advance n (table (flatIndex width row k)) (choice k) := by
  refine writeAll_advance ?_ fun place => ?_
  · have ports : ((pairsOf choice (List.range width)).map Prod.fst).Nodup := by
      rw [map_fst_pairsOf]
      exact List.nodup_range.filter _
    apply List.Nodup.of_map (fun index => index - row * width)
    have back : (fun index => index - row * width) ∘
        (fun pair : Nat × Nat => flatIndex width row pair.1) = Prod.fst := by
      funext pair
      simp [flatIndex]
    rwa [List.map_map, back]
  · constructor
    · intro chosen
      exact ⟨(k, place), mem_pairsOf_iff.mpr ⟨List.mem_range.mpr bound, chosen⟩, rfl, rfl⟩
    · rintro ⟨⟨i, o⟩, member, same, rfl⟩
      rcases mem_pairsOf_iff.mp member with ⟨inside, chosen⟩
      obtain rfl := ((flatIndex_inj (List.mem_range.mp inside) bound).mp same).2
      exact chosen

/-- A matched port on the other side moves its pointer past its partner. -/
theorem writeAll_matching (table : Nat → Nat) (n row : Nat) {pairs : List (Nat × Nat)}
    {width k : Nat} {partner : Option Nat} (isMatching : IsMatching pairs)
    (inside : ∀ pair ∈ pairs, pair.2 < width) (bound : k < width)
    (matched : ∀ i, partner = some i ↔ (i, k) ∈ pairs) :
    writeAll (fun pair : Nat × Nat => flatIndex width row pair.2)
        (fun pair => (pair.1 + 1) % n) pairs table (flatIndex width row k) =
      advance n (table (flatIndex width row k)) partner := by
  refine writeAll_advance ?_ fun place => ?_
  · apply List.Nodup.of_map (fun index => index - row * width)
    have back : (fun index => index - row * width) ∘
        (fun pair : Nat × Nat => flatIndex width row pair.2) = Prod.snd := by
      funext pair
      simp [flatIndex]
    rw [List.map_map, back]
    exact isMatching.outputs_nodup
  · rw [matched]
    constructor
    · exact fun member => ⟨(place, k), member, rfl, rfl⟩
    · rintro ⟨⟨i, o⟩, member, same, rfl⟩
      obtain rfl := ((flatIndex_inj (inside _ member) bound).mp same).2
      exact member

end SystemcTlm.Matching
