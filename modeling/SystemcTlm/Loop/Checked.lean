import Mathlib.Data.List.TakeWhile

/-!
# Loops that return early

A loop over a list of indices that checks each of them first and returns where
the check fails.  It is a fold as far as the checks succeed.
-/

namespace SystemcTlm.Loop

universe u v

variable {ι : Type u} {σ : Type v}

/-- The loop: `error` is the state of an early return. -/
def checkedLoop (fails : ι → Bool) (leave : σ → σ) (step : σ → ι → σ) (indices : List ι) (s : σ) :
    Except σ σ :=
  indices.foldlM (fun s i => if fails i then .error (leave s) else .ok (step s i)) s

variable {fails : ι → Bool} {leave : σ → σ} {step : σ → ι → σ} {indices : List ι} {s : σ}

@[simp]
theorem checkedLoop_nil : checkedLoop fails leave step [] s = .ok s :=
  rfl

theorem checkedLoop_cons_of_fails {i : ι} (failed : fails i = true) :
    checkedLoop fails leave step (i :: indices) s = .error (leave s) := by
  rw [checkedLoop, List.foldlM_cons, if_pos failed]
  rfl

theorem checkedLoop_cons_of_not_fails {i : ι} (passed : fails i = false) :
    checkedLoop fails leave step (i :: indices) s =
      checkedLoop fails leave step indices (step s i) := by
  rw [checkedLoop, List.foldlM_cons, passed, if_neg Bool.false_ne_true]
  rfl

/-- Where every check succeeds, the loop is a fold. -/
theorem checkedLoop_eq_ok (passed : ∀ i, i ∈ indices → fails i = false) :
    checkedLoop fails leave step indices s = .ok (indices.foldl step s) := by
  induction indices generalizing s with
  | nil => rfl
  | cons i indices ih =>
      rw [checkedLoop_cons_of_not_fails (passed i List.mem_cons_self),
        ih fun j later => passed j (List.mem_cons_of_mem i later), List.foldl_cons]

/-- Where a check fails, the loop has passed the indices up to the first such. -/
theorem checkedLoop_eq_error {i : ι} (member : i ∈ indices) (failed : fails i = true) :
    checkedLoop fails leave step indices s =
      .error (leave ((indices.takeWhile fun j => !fails j).foldl step s)) := by
  induction indices generalizing s with
  | nil => nomatch member
  | cons j indices ih =>
      cases first : fails j with
      | true =>
          rw [checkedLoop_cons_of_fails first, List.takeWhile_cons_of_neg (by rw [first]; decide),
            List.foldl_nil]
      | false =>
          have later : i ∈ indices := by
            rcases List.mem_cons.mp member with rfl | later
            · rw [first] at failed
              cases failed
            · exact later
          rw [checkedLoop_cons_of_not_fails first, ih later,
            List.takeWhile_cons_of_pos (by rw [first]; rfl), List.foldl_cons]

end SystemcTlm.Loop
