import SystemcTlm.Loop.Scan
import Mathlib.Data.Fintype.EquivFin

/-!
# Tokens on a ring

Tokens stand on a ring of `n` places.  In every step each occupied place sends
exactly one of its tokens to the next place.  A place without a token is then a
gap that travels forward one place a step until it meets a place with tokens to
spare, and a place that is shared has been shared from the start.  So within
`n - 1` steps either the gaps or the shared places are gone, and neither comes
back.
-/

namespace SystemcTlm.Ring

open SystemcTlm.Loop

universe u

/-- A run of `horizon` steps of tokens `J` on a ring of `n` places. -/
structure TokenRun (n : Nat) (J : Type u) (horizon : Nat) where
  pos : Nat → J → Nat
  moves : Nat → J → Prop
  pos_lt : ∀ t j, t ≤ horizon → pos t j < n
  pos_of_moves : ∀ t j, t < horizon → moves t j → pos (t + 1) j = (pos t j + 1) % n
  pos_of_stays : ∀ t j, t < horizon → ¬ moves t j → pos (t + 1) j = pos t j
  mover_unique : ∀ t j j', t < horizon → moves t j → moves t j' → pos t j = pos t j' → j = j'
  mover_exists : ∀ t j, t < horizon → ∃ j', pos t j' = pos t j ∧ moves t j'

namespace TokenRun

variable {n : Nat} {J : Type u} {horizon : Nat} (run : TokenRun n J horizon)

/-- No token stands on `x`. -/
def Gap (t x : Nat) : Prop :=
  ∀ j, run.pos t j ≠ x

/-- Two tokens stand on `x`. -/
def Shared (t x : Nat) : Prop :=
  ∃ j j', j ≠ j' ∧ run.pos t j = x ∧ run.pos t j' = x

/-- A gap was a gap one place back one step before. -/
theorem gap_of_gap_succ {t x : Nat} (within : t < horizon) (gap : run.Gap (t + 1) ((x + 1) % n)) :
    run.Gap t x := by
  rintro j rfl
  rcases run.mover_exists t j within with ⟨j', same, moved⟩
  apply gap j'
  rw [run.pos_of_moves t j' within moved, same]

/-- A shared place was shared one step before: only one of its tokens can have
arrived, and beside the other stood the token that left. -/
theorem shared_of_shared_succ {t x : Nat} (within : t < horizon) (shared : run.Shared (t + 1) x) :
    run.Shared t x := by
  rcases shared with ⟨j, j', different, first, second⟩
  have stayed : ∀ {b : J}, ¬ run.moves t b → run.pos (t + 1) b = x → run.Shared t x := by
    intro b stays landed
    rw [run.pos_of_stays t b within stays] at landed
    rcases run.mover_exists t b within with ⟨c, same, moved⟩
    refine ⟨b, c, ?_, landed, same.trans landed⟩
    rintro rfl
    exact stays moved
  by_cases jMoves : run.moves t j
  · by_cases j'Moves : run.moves t j'
    · refine absurd (run.mover_unique t j j' within jMoves j'Moves ?_) different
      have landed := first.trans second.symm
      rw [run.pos_of_moves t j within jMoves, run.pos_of_moves t j' within j'Moves,
        succ_mod (run.pos_lt t j within.le), succ_mod (run.pos_lt t j' within.le)] at landed
      have jBound := run.pos_lt t j within.le
      have j'Bound := run.pos_lt t j' within.le
      split_ifs at landed <;> omega
    · exact stayed j'Moves second
  · exact stayed jMoves first

theorem gap_back {t x d : Nat} (within : t ≤ horizon) (dBound : d ≤ t) (xBound : x < n)
    (gap : run.Gap t ((x + d) % n)) : run.Gap (t - d) x := by
  induction d generalizing t with
  | zero => simpa [Nat.mod_eq_of_lt xBound] using gap
  | succ d ih =>
      obtain ⟨t, rfl⟩ : ∃ s, t = s + 1 := ⟨t - 1, by omega⟩
      rw [show t + 1 - (d + 1) = t - d by omega]
      refine ih (by omega) (by omega) (run.gap_of_gap_succ (by omega) ?_)
      rwa [Nat.mod_add_mod, Nat.add_assoc]

theorem shared_back {t x d : Nat} (within : t ≤ horizon) (dBound : d ≤ t)
    (shared : run.Shared t x) : run.Shared (t - d) x := by
  induction d generalizing t with
  | zero => exact shared
  | succ d ih =>
      obtain ⟨t, rfl⟩ : ∃ s, t = s + 1 := ⟨t - 1, by omega⟩
      rw [show t + 1 - (d + 1) = t - d by omega]
      exact ih (by omega) (by omega) (run.shared_of_shared_succ (by omega) shared)

/-- After `n - 1` steps no two tokens share a place, or no place is empty: a
gap left over would have met the shared place on its way. -/
theorem injective_or_covered {t : Nat} (within : t ≤ horizon) (late : n ≤ t + 1) :
    Function.Injective (run.pos t) ∨ ∀ x, x < n → ∃ j, run.pos t j = x := by
  by_contra neither
  rw [not_or] at neither
  rcases neither with ⟨notInjective, notCovered⟩
  simp only [Function.Injective, not_forall] at notInjective notCovered
  rcases notInjective with ⟨j, j', same, different⟩
  rcases notCovered with ⟨y, yBound, empty⟩
  have xBound := run.pos_lt t j within
  have steps := ringDist_lt xBound yBound
  have gap : run.Gap t ((run.pos t j + ringDist n (run.pos t j) y) % n) := by
    rw [add_ringDist_mod xBound yBound]
    exact fun k stands => empty ⟨k, stands⟩
  have shared : run.Shared t (run.pos t j) := ⟨j, j', different, rfl, same.symm⟩
  obtain ⟨k, _, _, stands, _⟩ := run.shared_back within (d := ringDist n (run.pos t j) y)
    (by omega) shared
  exact run.gap_back within (by omega) xBound gap k stands

/-- As many tokens as places, and no place empty: no place is shared. -/
theorem injective_of_covered [Fintype J] {t : Nat} (within : t ≤ horizon)
    (square : Fintype.card J = n) (covered : ∀ x, x < n → ∃ j, run.pos t j = x) :
    Function.Injective (run.pos t) := by
  let stand (j : J) : Fin n := ⟨run.pos t j, run.pos_lt t j within⟩
  have onto : Function.Surjective stand := fun x => by
    rcases covered x x.isLt with ⟨j, stands⟩
    exact ⟨j, Fin.ext stands⟩
  have oneToOne : Function.Injective stand :=
    ((Fintype.bijective_iff_surjective_and_card stand).mpr
      ⟨onto, square.trans (Fintype.card_fin n).symm⟩).1
  exact fun j j' same => oneToOne (Fin.ext same)

/-- Tokens that share no place all move. -/
theorem moves_of_injective {t : Nat} (within : t < horizon)
    (injective : Function.Injective (run.pos t)) (j : J) : run.moves t j := by
  rcases run.mover_exists t j within with ⟨j', same, moved⟩
  exact injective same ▸ moved

/-- While no place is shared the whole ring rotates. -/
theorem pos_add {t d : Nat} (within : t + d ≤ horizon)
    (injective : ∀ s, t ≤ s → s < t + d → Function.Injective (run.pos s)) (j : J) :
    run.pos (t + d) j = (run.pos t j + d) % n := by
  induction d with
  | zero => exact (Nat.mod_eq_of_lt (run.pos_lt t j within)).symm
  | succ d ih =>
      have before := ih (by omega) fun s low high => injective s low (by omega)
      have moved := run.moves_of_injective (by omega) (injective (t + d) (by omega) (by omega)) j
      rw [← Nat.add_assoc, run.pos_of_moves (t + d) j (by omega) moved, before, Nat.mod_add_mod,
        Nat.add_assoc]

end TokenRun

end SystemcTlm.Ring
