import Mathlib.Algebra.BigOperators.Group.Finset.Basic
import Mathlib.Algebra.Order.BigOperators.Group.Finset
import Mathlib.Data.Finset.Range

/-!
# Channels

Queues side by side, from which one item at a time is taken.  `Pops` is a run
of such steps: it takes the items of each channel in their order.  `total`
counts the items of the first channels.
-/

namespace SystemcTlm.Container

universe u v

/-! ## Taking items -/

variable {κ : Type u} {α : Type v} [DecidableEq κ]

/-- The items are taken one after the other, each from the front of its
channel. -/
inductive Pops : (κ → List α) → List (κ × α) → (κ → List α) → Prop
  | nil (queues : κ → List α) : Pops queues [] queues
  | cons {queues final : κ → List α} {channel : κ} {item : α} {rest : List α}
      {taken : List (κ × α)} (front : queues channel = item :: rest)
      (later : Pops (Function.update queues channel rest) taken final) :
      Pops queues ((channel, item) :: taken) final

/-- The items of one channel. -/
def itemsOf (channel : κ) (taken : List (κ × α)) : List α :=
  (taken.filter fun entry => entry.1 = channel).map Prod.snd

/-- A channel holds what is taken from it and then what stays. -/
theorem Pops.queue_eq {queues final : κ → List α} {taken : List (κ × α)}
    (pops : Pops queues taken final) (channel : κ) :
    queues channel = itemsOf channel taken ++ final channel := by
  induction pops with
  | nil queues => rfl
  | @cons queues final here item rest taken front _ ih =>
      by_cases same : here = channel
      · subst same
        rw [Function.update_self] at ih
        rw [front, ih, itemsOf, itemsOf,
          List.filter_cons_of_pos (a := (here, item)) (decide_eq_true rfl)]
        rfl
      · rw [Function.update_of_ne (Ne.symm same)] at ih
        rw [ih, itemsOf, itemsOf, List.filter_cons_of_neg (a := (here, item))
          fun found => same (of_decide_eq_true found)]

theorem Pops.ne_nil_of_mem {queues final : κ → List α} {taken : List (κ × α)}
    (pops : Pops queues taken final) {entry : κ × α} (member : entry ∈ taken) :
    queues entry.1 ≠ [] := by
  have inside : entry.2 ∈ itemsOf entry.1 taken :=
    List.mem_map_of_mem (List.mem_filter.mpr ⟨member, decide_eq_true rfl⟩)
  rw [pops.queue_eq entry.1]
  exact List.append_ne_nil_of_left_ne_nil (List.ne_nil_of_mem inside) _

/-! ## Counting items -/

/-- The number of items in the first `n` channels. -/
def total (n : Nat) (queues : Nat → List α) : Nat :=
  ∑ i ∈ Finset.range n, (queues i).length

variable {n : Nat} {queues : Nat → List α}

theorem total_eq_zero_iff : total n queues = 0 ↔ ∀ i, i < n → queues i = [] := by
  rw [total, Finset.sum_eq_zero_iff]
  simp only [Finset.mem_range, List.length_eq_zero_iff]

/-- The count of a changed channel replaces the old one. -/
theorem total_update {channel : Nat} (bound : channel < n) (queue : List α) :
    total n (Function.update queues channel queue) + (queues channel).length =
      total n queues + queue.length := by
  have member : channel ∈ Finset.range n := Finset.mem_range.mpr bound
  have others : ∑ i ∈ (Finset.range n).erase channel,
        (Function.update queues channel queue i).length =
      ∑ i ∈ (Finset.range n).erase channel, (queues i).length :=
    Finset.sum_congr rfl fun i other => by
      rw [Function.update_of_ne (Finset.ne_of_mem_erase other)]
  have before := Finset.sum_erase_add (Finset.range n) (fun i => (queues i).length) member
  have after := Finset.sum_erase_add (Finset.range n)
    (fun i => (Function.update queues channel queue i).length) member
  rw [Function.update_self, others] at after
  rw [total, total]
  omega

end SystemcTlm.Container
