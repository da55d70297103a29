import SystemcTlm.BankedBuffer.Integrity

/-!
# Runs of the packet buffer

Cycles and arrivals in any order, from construction.  The ids that arrive are
distinct, and no cycle writes into a full bank.
-/

namespace SystemcTlm.BankedBuffer

open SystemcTlm.Container SystemcTlm.Transition

variable {known : List Int} {b : B}

theorem Sound.process (sound : Sound known b) (finds : FindsSlice b) :
    Sound known b.process := by
  rcases sound.readSide.writeSide finds with ⟨chain, memory, ledger, queues⟩
  exact ⟨chain, { memory with }, { ledger with }, { queues with }⟩

theorem mem_tail_concat {queueIds : List Int} {queueId other : Int}
    (member : other ∈ (queueIds ++ [queueId]).tail) : other ∈ queueIds.tail ∨ other = queueId := by
  cases queueIds with
  | nil => cases member
  | cons first rest =>
      rcases List.mem_append.mp member with earlier | now
      · exact Or.inl earlier
      · exact Or.inr (List.mem_singleton.mp now)

theorem writing_arrive {queueId : Int} (blank : b.allocated queueId = []) :
    writing { b with encodeQue := b.encodeQue ++ [queueId] } = writing b := by
  cases encoded : b.encodeQue with
  | nil =>
      rw [writing_of_cons rfl, writing, encoded]
      exact blank
  | cons first rest => rw [writing_of_cons rfl, writing_of_cons encoded]

/-- A new id in the queues, wherever it stands. -/
theorem perm_arrive (encodeQue decodeQue heads : List Int) (queueId : Int) :
    (encodeQue ++ [queueId] ++ decodeQue ++ heads).Perm
      (queueId :: (encodeQue ++ decodeQue ++ heads)) := by
  rw [← List.append_cons, List.append_assoc, List.append_assoc]
  exact List.perm_middle

theorem Queues.arrive {heads : List Int} {chain : Int → List Place}
    (queues : Queues known b heads chain) (ledger : Ledger b chain) {queueId : Int}
    (new : queueId ∉ known) :
    Queues (known ++ [queueId]) { b with encodeQue := b.encodeQue ++ [queueId] } heads chain := by
  have blank := queues.unknown queueId new
  have unreleased : b.released queueId = [] := by
    have balance := ledger.balance queueId
    rw [blank] at balance
    exact (List.append_eq_nil_iff.mp balance.symm).1
  have places := perm_arrive b.encodeQue b.decodeQue heads queueId
  have outside : queueId ∉ b.encodeQue ++ b.decodeQue ++ heads :=
    fun member => new (queues.arrived queueId member)
  have front := writing_arrive blank
  exact {
    queues with
    nodup := places.nodup_iff.mpr (List.nodup_cons.mpr ⟨outside, queues.nodup⟩)
    arrived := by
      intro other member
      rcases List.mem_cons.mp (places.mem_iff.mp member) with rfl | earlier
      · exact List.mem_append_right _ List.mem_cons_self
      · exact List.mem_append_left _ (queues.arrived other earlier)
    unread := by
      intro other member
      rcases List.mem_append.mp member with earlier | now
      · exact queues.unread other earlier
      · rw [List.mem_singleton.mp now]
        exact unreleased
    unwritten := by
      intro other member
      rcases mem_tail_concat member with earlier | rfl
      · exact queues.unwritten other earlier
      · exact blank
    unknown := fun other member =>
      queues.unknown other fun earlier => member (List.mem_append_left _ earlier)
    written := by
      intro other member absent
      rcases List.mem_append.mp member with earlier | now
      · exact queues.written other earlier fun waits => absent (List.mem_append_left _ waits)
      · exact absurd (List.mem_append_right _ now) absent
    placed := by
      intro other nonempty
      refine (queues.placed other nonempty).imp_left fun head => ?_
      exact List.head?_append.trans (by rw [head]; rfl)
    progress := by
      rw [front]
      exact queues.progress
    last := by
      rw [LastOf, front]
      exact queues.last
  }

/-- A packet that has not arrived before goes to the end of `encode_que`. -/
theorem Sound.arrive (sound : Sound known b) {queueId : Int} (new : queueId ∉ known) :
    Sound (known ++ [queueId]) { b with encodeQue := b.encodeQue ++ [queueId] } := by
  rcases sound with ⟨chain, memory, ledger, queues⟩
  exact ⟨chain, { memory with }, { ledger with }, queues.arrive ledger new⟩

theorem arrivals_append (first second : List Call) :
    arrivals (first ++ second) = arrivals first ++ arrivals second :=
  List.filterMap_append

theorem arrivals_concat_process (calls : List Call) :
    arrivals (calls ++ [.process]) = arrivals calls := by
  rw [arrivals_append]
  exact List.append_nil _

theorem arrivals_concat_rcvFrom (calls : List Call) (addr queueId : Int) :
    arrivals (calls ++ [.rcvFrom addr queueId]) =
      if addr = 0x1000 then arrivals calls ++ [queueId] else arrivals calls := by
  rw [arrivals_append]
  split_ifs with encode
  · rw [encode]
    rfl
  · have unchanged : arrivals [.rcvFrom addr queueId] = [] := by
      simp [arrivals, encode]
    rw [unchanged, List.append_nil]

/-- An invariant that speaks of the ids that have arrived: a cycle keeps it, and
so does an arrival of a new id.  Calls at another address do nothing. -/
theorem run_invariant (Inv : List Int → B → Prop) {calls : List Call}
    (distinct : (arrivals calls).Nodup) (initial : Inv [] B.new)
    (process : ∀ before rest, calls = before ++ .process :: rest →
      Inv (arrivals before) (run before) → Inv (arrivals before) (run before).process)
    (arrive : ∀ known b queueId, queueId ∉ known → Inv known b →
      Inv (known ++ [queueId]) { b with encodeQue := b.encodeQue ++ [queueId] }) :
    Inv (arrivals calls) (run calls) := by
  apply runCalls_prefix fun before => Inv (arrivals before)
  · exact initial
  · intro before next rest split kept
    cases next with
    | process =>
        rw [arrivals_concat_process]
        exact process before rest split kept
    | rcvFrom addr queueId =>
        rw [split, List.append_cons, arrivals_append, arrivals_concat_rcvFrom] at distinct
        rw [arrivals_concat_rcvFrom, call, B.rcvFrom]
        split_ifs at distinct ⊢ with encode
        · have apart := distinct.of_append_left.disjoint
          exact arrive _ _ queueId (fun member => apart member List.mem_cons_self) kept
        · exact kept

theorem sound_run {calls : List Call} (distinct : (arrivals calls).Nodup)
    (finds : ∀ before rest, calls = before ++ .process :: rest → FindsSlice (run before)) :
    Sound (arrivals calls) (run calls) := by
  apply run_invariant Sound distinct sound_new
  · exact fun before rest split sound => sound.process (finds before rest split)
  · exact fun known b queueId new sound => sound.arrive new

end SystemcTlm.BankedBuffer
