import Mathlib.Logic.Function.Basic

/-!
# Counted loops

`forRange` is the loop `for (k = 0; k < n; k++)` over an explicit state.  The
rules below are the ones a proof about such a loop needs: an invariant indexed
by the number of finished passes, two loops in lockstep, and the loops that act
at one index only, at a chosen index, or not at all.  A loop that breaks at its
first success is a `List.findSome?`, and `forRange_flagged` is the rule for one
that makes the passes after its first choice idle.
-/

namespace SystemcTlm.Loop

universe u v

variable {σ : Type u} {τ : Type v}

/-- The state after `for (k = 0; k < n; k++) state = body(k, state)`. -/
def forRange (n : Nat) (body : Nat → σ → σ) (state : σ) : σ :=
  match n with
  | 0 => state
  | k + 1 => body k (forRange k body state)

@[simp]
theorem forRange_zero (body : Nat → σ → σ) (state : σ) :
    forRange 0 body state = state :=
  rfl

theorem forRange_succ (n : Nat) (body : Nat → σ → σ) (state : σ) :
    forRange (n + 1) body state = body n (forRange n body state) :=
  rfl

/-- The invariant rule: `Inv k` describes the state before pass `k`. -/
theorem forRange_induction (Inv : Nat → σ → Prop) {n : Nat} {body : Nat → σ → σ} {state : σ}
    (start : Inv 0 state)
    (step : ∀ k current, k < n → Inv k current → Inv (k + 1) (body k current)) :
    Inv n (forRange n body state) := by
  induction n with
  | zero => exact start
  | succ n ih =>
      have before := ih fun k current bound => step k current (Nat.lt_succ_of_lt bound)
      exact step n _ n.lt_succ_self before

/-- The relational rule: two loops run in lockstep keep a relation between
their states. -/
theorem forRange_relate (Rel : Nat → σ → τ → Prop) {n : Nat}
    {left : Nat → σ → σ} {right : Nat → τ → τ} {source : σ} {target : τ}
    (start : Rel 0 source target)
    (step : ∀ k first second, k < n → Rel k first second →
      Rel (k + 1) (left k first) (right k second)) :
    Rel n (forRange n left source) (forRange n right target) := by
  induction n with
  | zero => exact start
  | succ n ih =>
      have before := ih fun k first second bound => step k first second (Nat.lt_succ_of_lt bound)
      exact step n _ _ n.lt_succ_self before

/-- A loop none of whose passes changes the state. -/
theorem forRange_eq_self {n : Nat} {body : Nat → σ → σ} {state : σ}
    (skip : ∀ k, k < n → body k state = state) : forRange n body state = state := by
  apply forRange_induction (fun _ current => current = state) rfl
  rintro k _ bound rfl
  exact skip k bound

/-- A loop that acts at one index only, before and after which every pass
leaves the state alone. -/
theorem forRange_single {n k : Nat} {body : Nat → σ → σ} {state : σ} (bound : k < n)
    (before : ∀ j, j < k → body j state = state)
    (after : ∀ j, k < j → j < n → body j (body k state) = body k state) :
    forRange n body state = body k state := by
  suffices run : forRange n body state = if k < n then body k state else state by
    rw [run, if_pos bound]
  apply forRange_induction
    (fun j current => current = if k < j then body k state else state) (by simp)
  rintro j _ jBound rfl
  rcases Nat.lt_trichotomy j k with less | rfl | greater
  · rw [if_neg (by omega), if_neg (by omega), before j less]
  · rw [if_neg (by omega), if_pos (by omega)]
  · rw [if_pos (by omega), if_pos (by omega), after j greater jBound]

/-- A loop that acts at a chosen index, if any: the other passes change neither
the state before nor the state after. -/
theorem forRange_choice {n : Nat} {body : Nat → σ → σ} {before after : σ} (choice : Option Nat)
    (idle : choice = none → after = before)
    (acts : ∀ k, choice = some k → k < n ∧ body k before = after)
    (skips : ∀ k, k < n → choice ≠ some k → body k before = before ∧ body k after = after) :
    forRange n body before = after := by
  cases choice with
  | none =>
      rw [idle rfl]
      exact forRange_eq_self fun k bound => (skips k bound (by simp)).1
  | some k =>
      rcases acts k rfl with ⟨bound, acted⟩
      rw [← acted]
      apply forRange_single bound
      · intro j less
        have other : some k ≠ some j := fun same => Nat.ne_of_gt less (Option.some.inj same)
        exact (skips j (Nat.lt_trans less bound) other).1
      · intro j more within
        have other : some k ≠ some j := fun same => Nat.ne_of_lt more (Option.some.inj same)
        rw [acted]
        exact (skips j within other).2

/-- A loop that breaks at its first success. -/
theorem findSome?_range_eq_some {n : Nat} {f : Nat → Option σ} {found : σ}
    (hit : (List.range n).findSome? f = some found) :
    ∃ k, k < n ∧ f k = some found ∧ ∀ j, j < k → f j = none := by
  induction n with
  | zero => simp at hit
  | succ n ih =>
      rw [List.range_succ, List.findSome?_append] at hit
      cases early : (List.range n).findSome? f with
      | some value =>
          rw [early, Option.some_or] at hit
          rcases ih (early.trans hit) with ⟨k, bound, here, before⟩
          exact ⟨k, by omega, here, before⟩
      | none =>
          rw [early, Option.none_or] at hit
          refine ⟨n, n.lt_succ_self, by simpa using hit, fun j before => ?_⟩
          exact List.findSome?_eq_none_iff.mp early j (List.mem_range.mpr before)

/-- A loop with a flag that is set at the first choice and makes the passes after
it idle: either no pass chooses, or one of them alone acts. -/
theorem forRange_flagged {n : Nat} {body : Nat → Bool × σ → Bool × σ} {state : σ}
    {choice : Nat → Option τ} {act : Nat → τ → σ}
    (pass : ∀ k, k < n →
      body k (false, state) = (choice k).elim (false, state) fun chosen => (true, act k chosen))
    (idle : ∀ k j chosen, body k (true, act j chosen) = (true, act j chosen)) :
    ((forRange n body (false, state)).2 = state ∧ ∀ k, k < n → choice k = none) ∨
      ∃ k chosen, k < n ∧ choice k = some chosen ∧
        (forRange n body (false, state)).2 = act k chosen := by
  have loop : (forRange n body (false, state) = (false, state) ∧ ∀ k, k < n → choice k = none) ∨
      ∃ k chosen, k < n ∧ choice k = some chosen ∧
        forRange n body (false, state) = (true, act k chosen) := by
    apply forRange_induction (fun l current =>
      (current = (false, state) ∧ ∀ k, k < l → choice k = none) ∨
        ∃ k chosen, k < n ∧ choice k = some chosen ∧ current = (true, act k chosen))
    · exact Or.inl ⟨rfl, fun k less => absurd less (Nat.not_lt_zero k)⟩
    · rintro l _ bound (⟨rfl, missed⟩ | ⟨k, chosen, kBound, hit, rfl⟩)
      · rw [pass l bound]
        cases hit : choice l with
        | some chosen => exact Or.inr ⟨l, chosen, bound, hit, rfl⟩
        | none =>
            refine Or.inl ⟨rfl, fun k less => ?_⟩
            rcases Nat.lt_succ_iff_lt_or_eq.mp less with before | rfl
            · exact missed k before
            · exact hit
      · exact Or.inr ⟨k, chosen, kBound, hit, idle l k chosen⟩
  rcases loop with ⟨same, missed⟩ | ⟨k, chosen, bound, hit, done⟩
  · exact Or.inl ⟨congrArg Prod.snd same, missed⟩
  · exact Or.inr ⟨k, chosen, bound, hit, congrArg Prod.snd done⟩

/-- The last pass of a loop over a list whose passes may fail. -/
theorem foldlM_concat (body : σ → τ → Option σ) (entries : List τ) (last : τ) (start : σ) :
    (entries ++ [last]).foldlM body start =
      (entries.foldlM body start).bind fun state => body state last := by
  rw [List.foldlM_append]
  change (entries.foldlM body start).bind _ = _
  simp

/-- A loop over a list whose passes may fail: if every pass succeeds and takes
the invariant one entry further, so does the loop. -/
theorem foldlM_induction {entries : List τ} {body : σ → τ → Option σ} {start : σ}
    (Inv : List τ → σ → Prop) (initial : Inv [] start)
    (pass : ∀ done next rest state, entries = done ++ next :: rest → Inv done state →
      ∃ after, body state next = some after ∧ Inv (done ++ [next]) after) :
    ∃ final, entries.foldlM body start = some final ∧ Inv entries final := by
  suffices general : ∀ rest done state, entries = done ++ rest → Inv done state →
      ∃ final, rest.foldlM body state = some final ∧ Inv entries final from
    general entries [] start rfl initial
  intro rest
  induction rest with
  | nil =>
      intro done state split kept
      rw [List.append_nil] at split
      exact ⟨state, rfl, split ▸ kept⟩
  | cons next rest ih =>
      intro done state split kept
      rcases pass done next rest state split kept with ⟨after, passed, keptAfter⟩
      rcases ih (done ++ [next]) after (by simp [split]) keptAfter with ⟨final, finished, keptFinal⟩
      refine ⟨final, ?_, keptFinal⟩
      rw [List.foldlM_cons, passed]
      exact finished

end SystemcTlm.Loop
