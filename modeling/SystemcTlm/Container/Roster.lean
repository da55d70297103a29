import Mathlib.Data.List.Nodup
import Mathlib.Logic.Function.Basic

/-!
# Items in stages

Every item is in a stage.  A component that stores the one item whose stage
satisfies a test keeps a `Slot`, one that stores all of them keeps a `Roster`.
When an item changes its stage, the test stays as it is, or the item enters, or
it leaves.
-/

namespace SystemcTlm.Container

universe u v

variable {ι : Type u} {σ : Type v} {test : σ → Bool} {stage : ι → σ}

/-- `slot` is the item that passes the test, if there is one. -/
def Slot (test : σ → Bool) (stage : ι → σ) (slot : Option ι) : Prop :=
  ∀ item, test (stage item) = true ↔ slot = some item

/-- `items` are those that pass the test, each once. -/
structure Roster (test : σ → Bool) (stage : ι → σ) (items : List ι) : Prop where
  nodup : items.Nodup
  mem_iff : ∀ item, item ∈ items ↔ test (stage item) = true

section Slot

variable {slot : Option ι}

theorem Slot.eq_some (kept : Slot test stage slot) {item : ι} (passes : test (stage item) = true) :
    slot = some item :=
  (kept item).mp passes

theorem Slot.passes (kept : Slot test stage slot) {item : ι} (stored : slot = some item) :
    test (stage item) = true :=
  (kept item).mpr stored

theorem Slot.fails (kept : Slot test stage none) (item : ι) : test (stage item) = false := by
  cases tested : test (stage item) with
  | false => rfl
  | true => cases kept.eq_some tested

variable [DecidableEq ι] {item : ι} {next : σ}

theorem Slot.keep (kept : Slot test stage slot) (same : test next = test (stage item)) :
    Slot test (Function.update stage item next) slot := by
  intro other
  by_cases here : other = item
  · rw [here, Function.update_self, same]
    exact kept item
  · rw [Function.update_of_ne here]
    exact kept other

theorem Slot.enter (empty : Slot test stage none) (passes : test next = true) :
    Slot test (Function.update stage item next) (some item) := by
  intro other
  by_cases here : other = item
  · rw [here, Function.update_self]
    exact iff_of_true passes rfl
  · rw [Function.update_of_ne here, empty.fails other]
    exact iff_of_false Bool.false_ne_true fun same => here (Option.some.inj same).symm

theorem Slot.leave (kept : Slot test stage slot) (passed : test (stage item) = true)
    (fails : test next = false) : Slot test (Function.update stage item next) none := by
  intro other
  by_cases here : other = item
  · rw [here, Function.update_self, fails]
    exact iff_of_false Bool.false_ne_true fun same => nomatch same
  · rw [Function.update_of_ne here, kept other, kept.eq_some passed]
    exact iff_of_false (fun same => here (Option.some.inj same).symm) fun same => nomatch same

end Slot

section Roster

variable {items : List ι}

theorem Roster.eq_nil (kept : Roster test stage items)
    (fails : ∀ item, test (stage item) = false) : items = [] := by
  refine List.eq_nil_iff_forall_not_mem.mpr fun item member => ?_
  rw [kept.mem_iff, fails] at member
  cases member

variable [DecidableEq ι] {item : ι} {next : σ}

theorem Roster.keep (kept : Roster test stage items) (same : test next = test (stage item)) :
    Roster test (Function.update stage item next) items where
  nodup := kept.nodup
  mem_iff other := by
    by_cases here : other = item
    · rw [here, Function.update_self, same]
      exact kept.mem_iff item
    · rw [Function.update_of_ne here]
      exact kept.mem_iff other

theorem Roster.enter (kept : Roster test stage items) (failed : test (stage item) = false)
    (passes : test next = true) :
    Roster test (Function.update stage item next) (item :: items) where
  nodup := by
    refine List.nodup_cons.mpr ⟨fun member => ?_, kept.nodup⟩
    rw [kept.mem_iff, failed] at member
    cases member
  mem_iff other := by
    rw [List.mem_cons]
    by_cases here : other = item
    · rw [here, Function.update_self]
      exact iff_of_true (Or.inl rfl) passes
    · rw [Function.update_of_ne here, ← kept.mem_iff]
      exact or_iff_right here

theorem Roster.leave (kept : Roster test stage items) (fails : test next = false) :
    Roster test (Function.update stage item next) (items.erase item) where
  nodup := kept.nodup.erase item
  mem_iff other := by
    rw [kept.nodup.mem_erase_iff]
    by_cases here : other = item
    · rw [here, Function.update_self, fails]
      exact iff_of_false (fun member => member.1 rfl) Bool.false_ne_true
    · rw [Function.update_of_ne here, ← kept.mem_iff]
      exact and_iff_right here

end Roster

end SystemcTlm.Container
