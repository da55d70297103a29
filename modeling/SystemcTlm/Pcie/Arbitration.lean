import SystemcTlm.Pcie.Arbitrator
import Mathlib.Data.Multiset.Filter
import Mathlib.Algebra.Order.Group.Multiset

/-!
# One arbitration of an egress port

An arbitration takes one request out of a queue that is not empty, and it is one
of those that share the highest priority.  Where there are several of them the
round robin chooses among them and remembers the ingress port it has chosen.
The requests of a queue are distinct objects, so putting back all but the
selected one loses none.
-/

namespace SystemcTlm.Pcie.PCIeSwitchArbitrator

open SystemcTlm.Container

variable {queues : PriorityQueue ArbitrationRequest arbitrationComparator}
  {sorting : Sorting ArbitrationRequest byIngressPort}

/-- Of entries with distinct keys, all but one are kept by its key. -/
theorem perm_cons_filter {α κ : Type} [DecidableEq κ] {key : α → κ} {entries : List α}
    (distinct : (entries.map key).Nodup) {entry : α} (member : entry ∈ entries) :
    entries.Perm (entry :: entries.filter fun other => key other ≠ key entry) := by
  induction entries with
  | nil => simp at member
  | cons first rest ih =>
      rw [List.map_cons, List.nodup_cons] at distinct
      rcases List.mem_cons.mp member with rfl | later
      · have kept : rest.filter (fun other => key other ≠ key entry) = rest := by
          rw [List.filter_eq_self]
          intro other otherMem
          have different : key other ≠ key entry := fun same =>
            distinct.1 (same ▸ List.mem_map_of_mem otherMem)
          simpa using different
        rw [List.filter_cons_of_neg (by simp), kept]
      · have different : key first ≠ key entry := fun same =>
          distinct.1 (same ▸ List.mem_map_of_mem later)
        rw [List.filter_cons_of_pos (by simpa using different)]
        exact ((ih distinct.2 later).cons first).trans (List.Perm.swap _ _ _)

/-! ## The requests that share the highest priority -/

/-- The requests of a queue that none in it exceeds in priority. -/
def highest (port : Nat) (arb : PCIeSwitchArbitrator queues) : Multiset ArbitrationRequest :=
  (queues.contents (arb.arbitrationQueues port)).filter fun request =>
    ∀ other ∈ queues.contents (arb.arbitrationQueues port), other.priority ≤ request.priority

/-- `same_priority_requests`, in the order in which they are popped. -/
def samePriorityRequests (port : Nat) (arb : PCIeSwitchArbitrator queues) :
    List ArbitrationRequest :=
  match queues.top (arb.arbitrationQueues port) with
  | none => []
  | some first =>
      (queues.popWhile (fun request => request.priority == first.priority)
        (queues.contents (arb.arbitrationQueues port)).card (arb.arbitrationQueues port)).1

section Arbitrate

variable {arb after : PCIeSwitchArbitrator queues} {port : Nat} {selected : ArbitrationRequest}

/-- The loop pops a group that the first request on top heads, and leaves
requests of lower priority only. -/
theorem popWhile_group {queue : queues.Queue} {first : ArbitrationRequest}
    (onTop : queues.top queue = some first) :
    ∃ others rest, queues.popWhile (fun request => request.priority == first.priority)
        (queues.contents queue).card queue = (first :: others, rest) ∧
      queues.contents queue = ↑(first :: others) + queues.contents rest ∧
      (∀ request ∈ first :: others, request.priority = first.priority) ∧
      ∀ request ∈ queues.contents rest, request.priority < first.priority := by
  have greatest := queues.top_greatest onTop
  have stops : ∀ second, queues.top (queues.popWhile (fun request => request.priority ==
      first.priority) (queues.contents queue).card queue).2 = some second →
      (second.priority == first.priority) = false :=
    fun second next => queues.top_popWhile (Nat.le_refl _) next
  have spec := queues.popWhile_spec (fun request => request.priority == first.priority)
    (queues.contents queue).card queue
  have passes : (queues.contents queue).card = (queues.contents (queues.pop queue)).card + 1 := by
    rw [queues.contents_of_top_some onTop, Multiset.card_cons]
  have kept : (fun request : ArbitrationRequest => request.priority == first.priority) first =
      true := beq_self_eq_true _
  rw [passes, queues.popWhile_of_some onTop kept] at spec stops ⊢
  refine ⟨_, _, rfl, spec.1, fun request member => by simpa using spec.2 request member, ?_⟩
  intro request member
  cases next : queues.top (queues.popWhile (fun request => request.priority == first.priority)
      (queues.contents (queues.pop queue)).card (queues.pop queue)).2 with
  | none =>
      rw [queues.contents_of_top_none next] at member
      exact absurd member (Multiset.notMem_zero request)
  | some second =>
      have lower := stops second next
      have below := arbitrationComparator_eq_false.mp (queues.top_greatest next request member)
      have inQueue : second ∈ queues.contents queue := by
        rw [spec.1, queues.contents_of_top_some next]
        exact Multiset.mem_add.mpr (Or.inr (Multiset.mem_cons_self _ _))
      have bound := arbitrationComparator_eq_false.mp (greatest second inQueue)
      simp only [beq_eq_false_iff_ne, ne_eq] at lower
      omega

theorem samePriorityRequests_of_none (empty : queues.top (arb.arbitrationQueues port) = none) :
    arb.samePriorityRequests port = [] := by
  rw [samePriorityRequests, empty]

/-- The group that is popped is all that shares the highest priority. -/
theorem coe_samePriorityRequests (port : Nat) (arb : PCIeSwitchArbitrator queues) :
    (arb.samePriorityRequests port : Multiset ArbitrationRequest) = arb.highest port := by
  cases onTop : queues.top (arb.arbitrationQueues port) with
  | none =>
      rw [samePriorityRequests_of_none onTop, highest, queues.contents_of_top_none onTop]
      rfl
  | some first =>
      rcases popWhile_group onTop with ⟨others, rest, popped, split, same, lower⟩
      have atMost : ∀ request ∈ queues.contents (arb.arbitrationQueues port),
          request.priority ≤ first.priority := by
        intro request member
        rw [split, Multiset.mem_add] at member
        rcases member with among | below
        · exact (same request among).le
        · exact (lower request below).le
      have onTopMem : first ∈ queues.contents (arb.arbitrationQueues port) := by
        rw [queues.contents_of_top_some onTop]
        exact Multiset.mem_cons_self _ _
      have group : arb.samePriorityRequests port = first :: others := by
        rw [samePriorityRequests, onTop]
        dsimp only
        rw [popped]
      rw [group, highest]
      conv_rhs =>
        rw [split, Multiset.filter_add]
      rw [Multiset.filter_eq_self.mpr, Multiset.filter_eq_nil.mpr, add_zero]
      · intro request member exceeds
        exact absurd (exceeds first (split ▸ onTopMem)) (lower request member).not_ge
      · intro request member other among
        rw [same request member]
        exact atMost other (split ▸ among)

/-! ## What an arbitration does -/

/-- An arbitration of `port` that takes one request out of its queue and leaves
everything else that matters for the packets in flight. -/
structure Takes (port : Nat) (selected : ArbitrationRequest)
    (arb after : PCIeSwitchArbitrator queues) : Prop where
  contents_eq : queues.contents (arb.arbitrationQueues port) =
    selected ::ₘ queues.contents (after.arbitrationQueues port)
  others_eq : ∀ port', port' ≠ port → after.arbitrationQueues port' = arb.arbitrationQueues port'
  ingressPorts_eq : after.ingressPorts = arb.ingressPorts
  ingressBuffers_eq : after.ingressBuffers = arb.ingressBuffers
  routingTable_eq : after.routingTable = arb.routingTable
  allocated_eq : after.allocated = arb.allocated

/-- The request taken is one of the highest priority.  The pointer of the round
robin moves only if there are several. -/
structure Serves (sorting : Sorting ArbitrationRequest byIngressPort) (port : Nat)
    (selected : ArbitrationRequest) (arb after : PCIeSwitchArbitrator queues) : Prop
    extends Takes port selected arb after where
  shares : selected ∈ arb.samePriorityRequests port
  contested : (arb.samePriorityRequests port).length > 1 →
    (roundRobinArbitration sorting (arb.lastServedIngressPort port)
        (arb.samePriorityRequests port)).2 = some selected ∧
      after.lastServedIngressPort =
        Function.update arb.lastServedIngressPort port selected.ingressPort
  alone : ¬ (arb.samePriorityRequests port).length > 1 →
    arb.samePriorityRequests port = [selected] ∧
      after.lastServedIngressPort = arb.lastServedIngressPort

/-- The round robin selects one of the requests. -/
theorem roundRobinArbitration_spec (sorting : Sorting ArbitrationRequest byIngressPort)
    (lastServed : Nat) {requests : List ArbitrationRequest} (nonempty : requests ≠ []) :
    ∃ selected, roundRobinArbitration sorting lastServed requests =
        (sorting.sort requests, some selected) ∧ selected ∈ sorting.sort requests := by
  have perm := sorting.perm requests
  rw [roundRobinArbitration]
  cases found : (sorting.sort requests).find? fun request =>
      decide (request.ingressPort > lastServed) with
  | some selected =>
      exact ⟨selected, by simp, List.mem_of_find?_eq_some found⟩
  | none =>
      cases sorted : sorting.sort requests with
      | nil =>
          rw [sorted] at perm
          exact absurd perm.nil_eq.symm nonempty
      | cons first rest =>
          rw [sorted] at found
          exact ⟨first, by simp, List.mem_cons_self⟩

/-- Of several requests one is taken out, and the others are put back. -/
theorem resolveConflict_takes (sorting : Sorting ArbitrationRequest byIngressPort)
    {requests : List ArbitrationRequest} {rest : queues.Queue} (nonempty : requests ≠ [])
    (split : queues.contents (arb.arbitrationQueues port) = ↑requests + queues.contents rest)
    (distinct : (requests.map ArbitrationRequest.object).Nodup) :
    ∃ selected after, arb.resolveConflict sorting port requests rest = (some selected, after) ∧
      Takes port selected arb after ∧ selected ∈ requests ∧
      (roundRobinArbitration sorting (arb.lastServedIngressPort port) requests).2 =
        some selected ∧
      after.lastServedIngressPort =
        Function.update arb.lastServedIngressPort port selected.ingressPort := by
  obtain ⟨selected, chosen, member⟩ :=
    roundRobinArbitration_spec sorting (arb.lastServedIngressPort port) nonempty
  have perm := sorting.perm requests
  have kept := perm_cons_filter (((perm.map ArbitrationRequest.object).nodup_iff).mpr distinct)
    member
  refine ⟨selected, _, by rw [resolveConflict, chosen], ?_, perm.subset member, by rw [chosen], rfl⟩
  exact {
    contents_eq := by
      dsimp only
      rw [Function.update_self, queues.contents_pushAll, split, ← Multiset.coe_eq_coe.mpr perm,
        Multiset.coe_eq_coe.mpr kept, ← Multiset.cons_coe, Multiset.cons_add]
    others_eq := fun port' other => Function.update_of_ne other _ _
    ingressPorts_eq := rfl
    ingressBuffers_eq := rfl
    routingTable_eq := rfl
    allocated_eq := rfl }

/-- An arbitration of a queue that is empty does nothing. -/
theorem arbitrateEgressPort_of_empty (sorting : Sorting ArbitrationRequest byIngressPort)
    (empty : queues.top (arb.arbitrationQueues port) = none) :
    arb.arbitrateEgressPort sorting port = (none, arb) := by
  rw [arbitrateEgressPort, empty]

/-- An arbitration of a queue that is not empty takes one request out of it. -/
theorem arbitrateEgressPort_serves
    (distinct : ((queues.contents (arb.arbitrationQueues port)).map
      ArbitrationRequest.object).Nodup)
    (sorting : Sorting ArbitrationRequest byIngressPort) {first : ArbitrationRequest}
    (onTop : queues.top (arb.arbitrationQueues port) = some first) :
    ∃ selected after,
      arb.arbitrateEgressPort sorting port = (some selected.packet, after) ∧
      Serves sorting port selected arb after := by
  rcases popWhile_group onTop with ⟨others, rest, popped, split, same, -⟩
  have sharing : arb.samePriorityRequests port = first :: others := by
    rw [samePriorityRequests, onTop]
    dsimp only
    rw [popped]
  have noneLower : (first :: others).filter
      (fun request => request.priority < first.priority) = [] := by
    rw [List.filter_eq_nil_iff]
    intro request member
    simp [same request member]
  rw [split, Multiset.map_add] at distinct
  have group : ((first :: others).map ArbitrationRequest.object).Nodup :=
    Multiset.coe_nodup.mp (Multiset.nodup_of_le (Multiset.le_add_right _ _) distinct)
  by_cases several : (first :: others).length > 1
  · obtain ⟨selected, after, resolved, takes, among, chosen, pointer⟩ :=
      resolveConflict_takes sorting (List.cons_ne_nil _ _) split group
    refine ⟨selected, after.countWin port selected.packet, ?_, ?_⟩
    · rw [arbitrateEgressPort, onTop]
      simp only [popped, noneLower, PriorityQueue.pushAll_nil, if_pos several, resolved]
    · exact {
        contents_eq := takes.contents_eq
        others_eq := takes.others_eq
        ingressPorts_eq := takes.ingressPorts_eq
        ingressBuffers_eq := takes.ingressBuffers_eq
        routingTable_eq := takes.routingTable_eq
        allocated_eq := takes.allocated_eq
        shares := sharing ▸ among
        contested := fun _ => ⟨sharing ▸ chosen, pointer⟩
        alone := fun single => absurd (sharing ▸ several) single }
  · have lonely : others = [] := by
      rw [List.length_cons] at several
      exact List.eq_nil_of_length_eq_zero (by omega)
    subst lonely
    refine ⟨first, countWin port first.packet { arb with
      arbitrationQueues := Function.update arb.arbitrationQueues port rest }, ?_, ?_⟩
    · rw [arbitrateEgressPort, onTop]
      simp only [popped, noneLower, PriorityQueue.pushAll_nil, if_neg several, List.head?_cons]
    · exact {
        contents_eq := by
          rw [split]
          change _ = first ::ₘ queues.contents
            ((Function.update arb.arbitrationQueues port rest) port)
          rw [Function.update_self, ← Multiset.cons_coe, Multiset.cons_add,
            Multiset.coe_nil, zero_add]
        others_eq := fun port' other => Function.update_of_ne other _ _
        ingressPorts_eq := rfl
        ingressBuffers_eq := rfl
        routingTable_eq := rfl
        allocated_eq := rfl
        shares := by
          rw [sharing]
          exact List.mem_cons_self
        contested := fun conflict => absurd (sharing ▸ conflict) several
        alone := fun _ => ⟨sharing, rfl⟩ }

/-! ## Transmission -/

/-- A transmission sets the statistics of a port and one credit. -/
theorem transmitPacket_frame (arb : PCIeSwitchArbitrator queues) (packet : PCIePacket) :
    (arb.transmitPacket packet).arbitrationQueues = arb.arbitrationQueues ∧
      (arb.transmitPacket packet).lastServedIngressPort = arb.lastServedIngressPort ∧
      (arb.transmitPacket packet).ingressBuffers = arb.ingressBuffers ∧
      (arb.transmitPacket packet).routingTable = arb.routingTable := by
  unfold transmitPacket restoreVCCredits
  dsimp only
  split_ifs
  · exact ⟨rfl, rfl, rfl, rfl⟩
  · exact ⟨rfl, rfl, rfl, rfl⟩

/-- A port transmits one packet, unless its queue is empty. -/
theorem serveEgressPort_cases
    (distinct : ((queues.contents (arb.arbitrationQueues port)).map
      ArbitrationRequest.object).Nodup)
    (sorting : Sorting ArbitrationRequest byIngressPort) :
    queues.contents (arb.arbitrationQueues port) = 0 ∧
        serveEgressPort sorting port arb = ([], arb) ∨
      ∃ selected after,
        serveEgressPort sorting port arb =
          ([selected.packet], after.transmitPacket selected.packet) ∧
        Serves sorting port selected arb after := by
  cases onTop : queues.top (arb.arbitrationQueues port) with
  | none =>
      left
      rw [serveEgressPort, arbitrateEgressPort_of_empty sorting onTop]
      exact ⟨queues.contents_of_top_none onTop, rfl⟩
  | some first =>
      right
      rcases arbitrateEgressPort_serves distinct sorting onTop with ⟨selected, after, eq, serves⟩
      refine ⟨selected, after, ?_, serves⟩
      rw [serveEgressPort, eq]

end Arbitrate

end SystemcTlm.Pcie.PCIeSwitchArbitrator
