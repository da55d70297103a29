import Mathlib.Data.List.Induction
import Mathlib.Order.Basic

/-!
# Runs of calls and of slots

`runCalls` is the state after a list of calls of an object, `runPartial` the
same for calls that may be undefined.  `atSlot` is the state when slot `t`
begins in a run that alternates arrivals with one service a slot.  Each comes
with the rule that an invariant of every step is an invariant of the run.
`le_of_descent` and `rank₃` are the arithmetic of arguments by a lexicographic
rank.
-/

namespace SystemcTlm.Transition

universe u v

variable {σ : Type u} {γ : Type v}

/-- The state after the calls, in order. -/
def runCalls (call : γ → σ → σ) (calls : List γ) (start : σ) : σ :=
  calls.foldl (fun state next => call next state) start

@[simp]
theorem runCalls_nil (call : γ → σ → σ) (start : σ) : runCalls call [] start = start :=
  rfl

@[simp]
theorem runCalls_cons (call : γ → σ → σ) (next : γ) (rest : List γ) (start : σ) :
    runCalls call (next :: rest) start = runCalls call rest (call next start) :=
  rfl

theorem runCalls_invariant (Inv : σ → Prop) {call : γ → σ → σ} {calls : List γ} {start : σ}
    (initial : Inv start) (step : ∀ next state, Inv state → Inv (call next state)) :
    Inv (runCalls call calls start) := by
  induction calls generalizing start with
  | nil => exact initial
  | cons next rest ih => exact ih (step next start initial)

theorem runCalls_concat (call : γ → σ → σ) (calls : List γ) (next : γ) (start : σ) :
    runCalls call (calls ++ [next]) start = call next (runCalls call calls start) := by
  rw [runCalls, List.foldl_append]
  rfl

/-- An invariant that speaks of the calls made so far, and is kept by the calls
of one run. -/
theorem runCalls_prefix (Inv : List γ → σ → Prop) {call : γ → σ → σ} {calls : List γ} {start : σ}
    (initial : Inv [] start)
    (step : ∀ before next rest, calls = before ++ next :: rest →
      Inv before (runCalls call before start) →
      Inv (before ++ [next]) (call next (runCalls call before start))) :
    Inv calls (runCalls call calls start) := by
  induction calls using List.reverseRecOn with
  | nil => exact initial
  | append_singleton calls next ih =>
      rw [runCalls_concat]
      refine step calls next [] rfl (ih fun before next' rest split => ?_)
      exact step before next' (rest ++ [next]) (by rw [split, List.append_assoc, List.cons_append])

/-- An invariant that counts the calls made so far. -/
theorem runCalls_counted (Inv : Nat → σ → Prop) {call : γ → σ → σ} {calls : List γ} {start : σ}
    (initial : Inv 0 start) (step : ∀ n next state, Inv n state → Inv (n + 1) (call next state)) :
    Inv calls.length (runCalls call calls start) := by
  apply runCalls_prefix (fun before => Inv before.length) initial
  intro before next _ _ kept
  rw [List.length_append, List.length_singleton]
  exact step before.length next _ kept

/-- A rank that no call raises and that every counted call lowers runs out: what
waits below it reaches its goal within more counted calls than the rank. -/
theorem runCalls_reaches (Waiting Goal : σ → Prop) (rank : σ → Nat) (counted : γ → Bool)
    {call : γ → σ → σ} (kept : ∀ next state, Goal state → Goal (call next state))
    (step : ∀ next state, Waiting state → Goal (call next state) ∨
      Waiting (call next state) ∧
        rank (call next state) + (if counted next then 1 else 0) ≤ rank state)
    {calls : List γ} {start : σ} (waits : Waiting start)
    (enough : rank start < calls.countP counted) : Goal (runCalls call calls start) := by
  induction calls generalizing start with
  | nil => simp at enough
  | cons next rest ih =>
      rw [List.countP_cons] at enough
      rw [runCalls_cons]
      rcases step next start waits with reached | ⟨still, falls⟩
      · exact runCalls_invariant Goal reached kept
      · exact ih still (by omega)

/-- The state after calls of which each may be undefined. -/
def runPartial (call : γ → σ → Option σ) (calls : List γ) (start : σ) : Option σ :=
  calls.foldlM (fun state next => call next state) start

/-- `next` is one of the calls, and `state` is the state in which it is made. -/
def Made (call : γ → σ → Option σ) (calls : List γ) (start : σ) (next : γ) (state : σ) : Prop :=
  ∃ before rest, calls = before ++ next :: rest ∧ runPartial call before start = some state

theorem runPartial_cons (call : γ → σ → Option σ) (next : γ) (rest : List γ) (start : σ) :
    runPartial call (next :: rest) start = (call next start).bind (runPartial call rest) :=
  List.foldlM_cons

theorem runPartial_append (call : γ → σ → Option σ) (first second : List γ) (start : σ) :
    runPartial call (first ++ second) start =
      (runPartial call first start).bind (runPartial call second) :=
  List.foldlM_append

theorem runPartial_concat (call : γ → σ → Option σ) (calls : List γ) (next : γ) (start : σ) :
    runPartial call (calls ++ [next]) start = (runPartial call calls start).bind (call next) := by
  have single : runPartial call [next] = call next := by
    funext state
    rw [runPartial_cons]
    cases call next state <;> rfl
  rw [runPartial_append, single]

/-- Calls that are defined more often lead to the same state. -/
theorem runPartial_mono {call call' : γ → σ → Option σ}
    (more : ∀ next state after, call next state = some after → call' next state = some after)
    {calls : List γ} {start final : σ} (reached : runPartial call calls start = some final) :
    runPartial call' calls start = some final := by
  induction calls generalizing start with
  | nil => exact reached
  | cons next rest ih =>
      rw [runPartial_cons, Option.bind_eq_some_iff] at reached ⊢
      rcases reached with ⟨middle, called, later⟩
      exact ⟨middle, more next start middle called, ih later⟩

theorem Made.append {call : γ → σ → Option σ} {calls : List γ} {start : σ} {next : γ} {state : σ}
    (made : Made call calls start next state) (more : List γ) :
    Made call (calls ++ more) start next state := by
  rcases made with ⟨before, rest, rfl, reached⟩
  exact ⟨before, rest ++ more, by rw [List.append_assoc, List.cons_append], reached⟩

theorem made_last {call : γ → σ → Option σ} {calls : List γ} {start state : σ}
    (reached : runPartial call calls start = some state) (next : γ) :
    Made call (calls ++ [next]) start next state :=
  ⟨calls, [], rfl, reached⟩

/-- The calls of a run and the states in which they are made, by position. -/
theorem made_iff_getElem? {call : γ → σ → Option σ} {calls : List γ} {start state : σ}
    {next : γ} : Made call calls start next state ↔
      ∃ k : Nat, calls[k]? = some next ∧ runPartial call (calls.take k) start = some state := by
  constructor
  · rintro ⟨before, rest, rfl, reached⟩
    refine ⟨before.length, by simp, ?_⟩
    rwa [List.take_left]
  · rintro ⟨k, called, reached⟩
    obtain ⟨below, rfl⟩ := List.getElem?_eq_some_iff.mp called
    exact ⟨calls.take k, calls.drop (k + 1), by simp, reached⟩

/-- A call that is made in a defined run is defined. -/
theorem Made.isSome {call : γ → σ → Option σ} {calls : List γ} {start final state : σ} {next : γ}
    (made : Made call calls start next state) (reached : runPartial call calls start = some final) :
    (call next state).isSome = true := by
  rcases made with ⟨before, rest, rfl, earlier⟩
  rw [runPartial_append, earlier, Option.bind_some, runPartial_cons,
    Option.bind_eq_some_iff] at reached
  rcases reached with ⟨after, called, -⟩
  rw [called]
  rfl

/-- A run is defined if each of its calls is, in whatever state it is made. -/
theorem runPartial_isSome {call : γ → σ → Option σ} {calls : List γ} {start : σ}
    (defined : ∀ next state, Made call calls start next state → (call next state).isSome = true) :
    (runPartial call calls start).isSome = true := by
  induction calls using List.reverseRecOn with
  | nil => rfl
  | append_singleton calls next ih =>
      obtain ⟨state, reached⟩ := Option.isSome_iff_exists.mp
        (ih fun next state made => defined next state (made.append _))
      rw [runPartial_concat, reached]
      exact defined next state (made_last reached next)

/-- An invariant of every call that is made as `Meets` demands. -/
theorem runPartial_invariant (Inv : σ → Prop) {Meets : γ → σ → Prop} {call : γ → σ → Option σ}
    {calls : List γ} {start final : σ} (initial : Inv start)
    (meets : ∀ next state, Made call calls start next state → Meets next state)
    (step : ∀ next state after, Inv state → Meets next state → call next state = some after →
      Inv after)
    (reached : runPartial call calls start = some final) : Inv final := by
  induction calls using List.reverseRecOn generalizing final with
  | nil =>
      cases reached
      exact initial
  | append_singleton calls next ih =>
      rw [runPartial_concat, Option.bind_eq_some_iff] at reached
      rcases reached with ⟨state, before, called⟩
      have kept := ih (fun next state made => meets next state (made.append _)) before
      exact step next state final kept (meets next state (made_last before next)) called

/-- An invariant that speaks of the calls made so far. -/
theorem runPartial_prefix (Inv : List γ → σ → Prop) {call : γ → σ → Option σ} {calls : List γ}
    {start final : σ} (initial : Inv [] start)
    (step : ∀ before next rest state after, calls = before ++ next :: rest →
      runPartial call before start = some state → Inv before state →
      call next state = some after → Inv (before ++ [next]) after)
    (reached : runPartial call calls start = some final) : Inv calls final := by
  induction calls using List.reverseRecOn generalizing final with
  | nil =>
      cases reached
      exact initial
  | append_singleton calls next ih =>
      rw [runPartial_concat, Option.bind_eq_some_iff] at reached
      rcases reached with ⟨state, earlier, called⟩
      refine step calls next [] state final rfl earlier (ih ?_ earlier) called
      intro before next' rest state after split
      exact step before next' (rest ++ [next]) state after
        (by rw [split, List.append_assoc, List.cons_append])

/-- The state at the start of slot `t`: its arrivals are in, its service is
still to come. -/
def atSlot (arrive : Nat → σ → σ) (serve : σ → σ) (start : σ) : Nat → σ
  | 0 => arrive 0 start
  | t + 1 => arrive (t + 1) (serve (atSlot arrive serve start t))

theorem atSlot_invariant (Inv : σ → Prop) {arrive : Nat → σ → σ} {serve : σ → σ} {start : σ}
    (initial : Inv start) (arrival : ∀ t state, Inv state → Inv (arrive t state))
    (service : ∀ state, Inv state → Inv (serve state)) (t : Nat) :
    Inv (atSlot arrive serve start t) := by
  induction t with
  | zero => exact arrival 0 start initial
  | succ t ih => exact arrival (t + 1) _ (service _ ih)

/-- A rank that falls in each of `steps` steps began at `steps` or above. -/
theorem le_of_descent (rank : Nat → Nat) (steps : Nat)
    (falls : ∀ t, t < steps → rank (t + 1) < rank t) : steps ≤ rank 0 := by
  have bound : ∀ t, t ≤ steps → rank t + t ≤ rank 0 := by
    intro t
    induction t with
    | zero => exact fun _ => Nat.le_refl _
    | succ t ih =>
        intro within
        have before := ih (by omega)
        have step := falls t (by omega)
        omega
  have last := bound steps (Nat.le_refl steps)
  omega

/-- The lexicographic rank of `(x, y, z)` with `y < b` and `z < c`. -/
def rank₃ (b c x y z : Nat) : Nat :=
  (x * b + y) * c + z

theorem rank₃_lt {a b c x y z : Nat} (xBound : x < a) (yBound : y < b) (zBound : z < c) :
    rank₃ b c x y z < a * b * c := by
  have outer : x * b + y + 1 ≤ a * b := by
    calc
      x * b + y + 1 ≤ x * b + b := by omega
      _ = (x + 1) * b := (Nat.succ_mul x b).symm
      _ ≤ a * b := Nat.mul_le_mul_right b xBound
  calc
    rank₃ b c x y z < (x * b + y) * c + c := Nat.add_lt_add_left zBound _
    _ = (x * b + y + 1) * c := (Nat.succ_mul _ c).symm
    _ ≤ a * b * c := Nat.mul_le_mul_right c outer

theorem rank₃_lt_rank₃_of_fst {b c x y z x' y' z' : Nat} (yBound : y < b) (zBound : z < c)
    (less : x < x') : rank₃ b c x y z < rank₃ b c x' y' z' := by
  have below := rank₃_lt (a := x + 1) x.lt_succ_self yBound zBound
  calc
    rank₃ b c x y z < (x + 1) * b * c := below
    _ ≤ x' * b * c := Nat.mul_le_mul_right c (Nat.mul_le_mul_right b less)
    _ ≤ rank₃ b c x' y' z' := by
      rw [rank₃, Nat.add_mul, Nat.add_assoc]
      exact Nat.le_add_right _ _

theorem rank₃_lt_rank₃_of_snd {b c x y z y' z' : Nat} (zBound : z < c) (less : y < y') :
    rank₃ b c x y z < rank₃ b c x y' z' := by
  calc
    rank₃ b c x y z < (x * b + y) * c + c := Nat.add_lt_add_left zBound _
    _ = (x * b + (y + 1)) * c := by rw [← Nat.succ_mul, Nat.succ_eq_add_one, Nat.add_assoc]
    _ ≤ (x * b + y') * c := Nat.mul_le_mul_right c (Nat.add_le_add_left less _)
    _ ≤ rank₃ b c x y' z' := Nat.le_add_right _ _

theorem rank₃_lt_rank₃_of_thd {b c x y z z' : Nat} (less : z < z') :
    rank₃ b c x y z < rank₃ b c x y z' :=
  Nat.add_lt_add_left less _

end SystemcTlm.Transition
