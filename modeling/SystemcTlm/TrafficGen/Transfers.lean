import Mathlib.Data.List.Basic
import Mathlib.Data.List.Induction

/-!
# Data transfers

A list of `DataTransfer`s holds transfers and, after a transfer, the modifiers of
`gen_utils` that belong to it.  `merge` moves the fields of the modifiers into
the transfer and leaves a list of transfers alone.
-/

namespace SystemcTlm.TrafficGen

/-- The commands of `DataTransfer`, and those of the modifiers in `gen_utils`. -/
inductive Cmd where
  | read
  | write
  | ignore
  | byteEnable
  | streamingWidth
  | expect
  | extGenAttr
deriving DecidableEq, Repr

/-- The command moves data. -/
def Cmd.IsTransfer (cmd : Cmd) : Prop :=
  cmd = .read ∨ cmd = .write ∨ cmd = .ignore

instance (cmd : Cmd) : Decidable cmd.IsTransfer :=
  inferInstanceAs (Decidable (_ ∨ _ ∨ _))

/-- `ext.gen_attr`. -/
structure GenAttr where
  enabled : Bool := false
  masterId : UInt64 := 0
  secure : Bool := false
  eop : Bool := false
  wrap : Bool := false
  burstWidth : UInt32 := 0
  transactionId : UInt32 := 0
  exclusive : Bool := false
  locked : Bool := false
  bufferable : Bool := false
  modifiable : Bool := false
  readAllocate : Bool := false
  writeAllocate : Bool := false
  qos : UInt8 := 0
  region : UInt8 := 0
  snoop : UInt8 := 0
  domain : UInt8 := 0
  barrier : Bool := false
  isRead : Bool := false
deriving DecidableEq, Repr

/-- A buffer is a function of the position, or nothing for a null pointer. -/
structure DataTransfer where
  addr : UInt64 := 0
  cmd : Cmd := .read
  data : Option (Nat → UInt8) := none
  length : UInt32 := 0
  byteEnable : Option (Nat → UInt8) := none
  byteEnableLength : UInt32 := 0
  streamingWidth : UInt32 := 0
  expect : Option (Nat → UInt8) := none
  genAttr : GenAttr := {}

namespace DataTransfer

/-- What a modifier moves into the last transfer. -/
def attach (last t : DataTransfer) : DataTransfer :=
  match t.cmd with
  | .byteEnable =>
      { last with byteEnable := t.byteEnable, byteEnableLength := t.byteEnableLength }
  | .streamingWidth => { last with streamingWidth := t.streamingWidth }
  | .expect => { last with expect := t.expect }
  | .extGenAttr => { last with genAttr := t.genAttr }
  | .read | .write | .ignore => last

end DataTransfer

/-- The body of the loop of `merge`. -/
def mergeOne (mergedTransfers : List DataTransfer) (t : DataTransfer) : List DataTransfer :=
  let attached := match mergedTransfers.getLast? with
    | some last => mergedTransfers.dropLast ++ [last.attach t]
    | none => mergedTransfers
  if t.cmd.IsTransfer then attached ++ [t] else attached

/-- `merge`, over the list. -/
def merge (transfers : List DataTransfer) : List DataTransfer :=
  transfers.foldl mergeOne []

/-! ## Groups -/

/-- A transfer and the modifiers after it. -/
structure Group where
  base : DataTransfer
  modifiers : List DataTransfer
  isTransfer : base.cmd.IsTransfer
  areModifiers : ∀ t, t ∈ modifiers → ¬ t.cmd.IsTransfer

/-- The last modifier of a kind. -/
def lastOf (cmd : Cmd) (modifiers : List DataTransfer) : Option DataTransfer :=
  (modifiers.filter fun t => t.cmd = cmd).getLast?

namespace Group

/-- The group as it stands in the list. -/
def transfers (group : Group) : List DataTransfer :=
  group.base :: group.modifiers

/-- The transfer with the fields of the last modifier of each kind. -/
def merged (group : Group) : DataTransfer :=
  let { base, modifiers, .. } := group
  let enable := (lastOf .byteEnable modifiers).getD base
  { base with
    byteEnable := enable.byteEnable
    byteEnableLength := enable.byteEnableLength
    streamingWidth := ((lastOf .streamingWidth modifiers).getD base).streamingWidth
    expect := ((lastOf .expect modifiers).getD base).expect
    genAttr := ((lastOf .extGenAttr modifiers).getD base).genAttr }

end Group

theorem lastOf_concat (cmd : Cmd) (modifiers : List DataTransfer) (t : DataTransfer) :
    lastOf cmd (modifiers ++ [t]) = if t.cmd = cmd then some t else lastOf cmd modifiers := by
  rw [lastOf, List.filter_append, List.filter_singleton]
  split_ifs with same
  · rw [decide_eq_true same]
    exact List.getLast?_concat
  · rw [decide_eq_false same]
    exact congrArg List.getLast? (List.append_nil _)

/-- The modifiers take effect in their order. -/
theorem foldl_attach (base : DataTransfer) (modifiers : List DataTransfer)
    (isTransfer : base.cmd.IsTransfer) (areModifiers : ∀ t, t ∈ modifiers → ¬ t.cmd.IsTransfer) :
    modifiers.foldl DataTransfer.attach base =
      Group.merged ⟨base, modifiers, isTransfer, areModifiers⟩ := by
  induction modifiers using List.reverseRecOn with
  | nil => rfl
  | append_singleton modifiers t ih =>
      have before := ih fun t member => areModifiers t (List.mem_append_left _ member)
      rw [List.foldl_concat, before]
      simp only [Group.merged, lastOf_concat]
      cases kind : t.cmd <;> simp [DataTransfer.attach, kind]

/-! ## Merging -/

section Merge

variable (merged : List DataTransfer) (last t : DataTransfer)

theorem mergeOne_modifier (modifier : ¬ t.cmd.IsTransfer) :
    mergeOne (merged ++ [last]) t = merged ++ [last.attach t] := by
  rw [mergeOne, List.getLast?_concat, List.dropLast_concat, if_neg modifier]

theorem mergeOne_stray (modifier : ¬ t.cmd.IsTransfer) : mergeOne [] t = [] := by
  rw [mergeOne, if_neg modifier]
  rfl

theorem attach_transfer (isTransfer : t.cmd.IsTransfer) : last.attach t = last := by
  rw [DataTransfer.attach]
  rcases isTransfer with kind | kind | kind <;> rw [kind]

theorem mergeOne_transfer (isTransfer : t.cmd.IsTransfer) : mergeOne merged t = merged ++ [t] := by
  rw [mergeOne, if_pos isTransfer]
  congr 1
  cases ended : merged.getLast? with
  | none => rfl
  | some last =>
      change merged.dropLast ++ [last.attach t] = merged
      rw [attach_transfer last t isTransfer]
      exact List.dropLast_append_getLast? last ended

theorem foldl_mergeOne_modifiers {modifiers : List DataTransfer}
    (areModifiers : ∀ t, t ∈ modifiers → ¬ t.cmd.IsTransfer) :
    modifiers.foldl mergeOne (merged ++ [last]) =
      merged ++ [modifiers.foldl DataTransfer.attach last] := by
  induction modifiers generalizing last with
  | nil => rfl
  | cons t modifiers ih =>
      rw [List.foldl_cons, mergeOne_modifier merged last t (areModifiers t List.mem_cons_self), ih]
      · rfl
      · exact fun t member => areModifiers t (List.mem_cons_of_mem _ member)

theorem foldl_mergeOne_strays {strays : List DataTransfer}
    (areModifiers : ∀ t, t ∈ strays → ¬ t.cmd.IsTransfer) : strays.foldl mergeOne [] = [] := by
  induction strays with
  | nil => rfl
  | cons t strays ih =>
      rw [List.foldl_cons, mergeOne_stray t (areModifiers t List.mem_cons_self)]
      exact ih fun t member => areModifiers t (List.mem_cons_of_mem _ member)

end Merge

theorem foldl_mergeOne_groups (merged : List DataTransfer) (groups : List Group) :
    (groups.flatMap Group.transfers).foldl mergeOne merged = merged ++ groups.map Group.merged := by
  induction groups generalizing merged with
  | nil => exact (List.append_nil merged).symm
  | cons group groups ih =>
      rw [List.flatMap_cons, List.foldl_append, Group.transfers, List.foldl_cons,
        mergeOne_transfer merged group.base group.isTransfer,
        foldl_mergeOne_modifiers merged group.base group.areModifiers,
        foldl_attach group.base group.modifiers group.isTransfer group.areModifiers, ih,
        List.map_cons, List.append_assoc, List.singleton_append]

/-- Every list is a number of stray modifiers and then groups. -/
theorem exists_groups (transfers : List DataTransfer) :
    ∃ (strays : List DataTransfer) (groups : List Group),
      transfers = strays ++ groups.flatMap Group.transfers ∧
        ∀ t, t ∈ strays → ¬ t.cmd.IsTransfer := by
  induction transfers with
  | nil => exact ⟨[], [], rfl, fun _ member => absurd member List.not_mem_nil⟩
  | cons t transfers ih =>
      rcases ih with ⟨strays, groups, parts, areModifiers⟩
      by_cases isTransfer : t.cmd.IsTransfer
      · refine ⟨[], ⟨t, strays, isTransfer, areModifiers⟩ :: groups, ?_,
          fun _ member => absurd member List.not_mem_nil⟩
        rw [parts, List.flatMap_cons]
        rfl
      · refine ⟨t :: strays, groups, by rw [parts, List.cons_append], fun u member => ?_⟩
        rcases List.mem_cons.mp member with rfl | later
        · exact isTransfer
        · exact areModifiers u later

/-- The merged list has one transfer for each group, and the modifiers before
the first transfer are lost. -/
theorem merge_spec (transfers : List DataTransfer) :
    ∃ (strays : List DataTransfer) (groups : List Group),
      transfers = strays ++ groups.flatMap Group.transfers ∧
        (∀ t, t ∈ strays → ¬ t.cmd.IsTransfer) ∧ merge transfers = groups.map Group.merged := by
  rcases exists_groups transfers with ⟨strays, groups, rfl, areModifiers⟩
  refine ⟨strays, groups, rfl, areModifiers, ?_⟩
  rw [merge, List.foldl_append, foldl_mergeOne_strays areModifiers]
  exact foldl_mergeOne_groups [] groups

/-- A list without modifiers stays as it is. -/
theorem merge_eq_self {transfers : List DataTransfer}
    (areTransfers : ∀ t, t ∈ transfers → t.cmd.IsTransfer) : merge transfers = transfers := by
  have run : ∀ (merged : List DataTransfer), transfers.foldl mergeOne merged = merged ++ transfers := by
    induction transfers with
    | nil => exact fun merged => (List.append_nil merged).symm
    | cons t transfers ih =>
        intro merged
        rw [List.foldl_cons, mergeOne_transfer merged t (areTransfers t List.mem_cons_self),
          ih fun t member => areTransfers t (List.mem_cons_of_mem _ member), List.append_assoc,
          List.singleton_append]
  exact run []

end SystemcTlm.TrafficGen
