import SystemcTlm.BankedBuffer.Banks

/-!
# Integrity of the slice chains

What `queue_map` and the links of `encode_vec` hold of each packet, after any
calls.
-/

namespace SystemcTlm.BankedBuffer

open SystemcTlm.Container

variable {b : B}

/-- The chain of a packet: from the slice that `queue_map` gives for it along
the links to the end, through valid slices of the packet. -/
def IsChain (b : B) (queueId : Int) (cells : List Place) : Prop :=
  match b.queueMap queueId with
  | none => cells = []
  | some info =>
      cells.head? = some info.place ∧ Threads (fun place => (b.encodeVec place).next) cells ∧
        ∀ place, place ∈ cells →
          (b.encodeVec place).valid = true ∧ (b.encodeVec place).queueId = queueId

theorem Memory.isChain {chain : Int → List Place} (memory : Memory b chain) (queueId : Int) :
    IsChain b queueId (chain queueId) := by
  have starts := memory.starts queueId
  unfold IsChain
  cases found : b.queueMap queueId with
  | none =>
      rw [found] at starts
      exact List.head?_eq_none_iff.mp starts.symm
  | some info =>
      rw [found] at starts
      refine ⟨starts.symm, memory.threaded.threads queueId, fun place member => ?_⟩
      exact (memory.mem_iff queueId place).mp member

theorem IsChain.unique {b : B} {queueId : Int} {cells cells' : List Place}
    (isChain : IsChain b queueId cells) (isChain' : IsChain b queueId cells') : cells = cells' := by
  unfold IsChain at isChain isChain'
  cases found : b.queueMap queueId with
  | none =>
      rw [found] at isChain isChain'
      exact isChain.trans isChain'.symm
  | some info =>
      rw [found] at isChain isChain'
      exact isChain.2.1.unique isChain'.2.1 (isChain.1.trans isChain'.1.symm)

/-- Integrity of the slice chains, after any calls.  The depth of a bank counts
the slices that are not valid.  `queue_map` knows the packets that are being
written, that wait in `decode_que` or that are read, and every valid slice lies
on the chain of exactly one of them.  Of each packet, what was released is the
beginning of what was written, in the same order, and its chain is the rest;
when the packet is gone, all its 16 slices have been released. -/
theorem slice_chains {calls : List Call} (distinct : (arrivals calls).Nodup)
    (finds : ∀ before rest, calls = before ++ .process :: rest → FindsSlice (run before)) :
    (∀ bankId : Int, 0 ≤ bankId → bankId < bankNum →
      (run calls).bankDeepVec bankId + validCount (run calls).encodeVec bankId = sliceNum) ∧
    (∀ queueId, ((run calls).queueMap queueId).isSome = true →
      (run calls).encodeQue.head? = some queueId ∨ queueId ∈ (run calls).decodeQue ∨
        queueId ∈ (run calls).decodeQueHead) ∧
    ∃ chain : Int → List Place,
      (∀ queueId, IsChain (run calls) queueId (chain queueId)) ∧
      (∀ place, ((run calls).encodeVec place).valid = true → ∃! queueId, place ∈ chain queueId) ∧
      ∀ queueId,
        (run calls).allocated queueId = (run calls).released queueId ++ chain queueId ∧
        ((run calls).allocated queueId).Nodup ∧
        (queueId ∈ arrivals calls → queueId ∉ (run calls).encodeQue →
          ((run calls).allocated queueId).length = 16 ∧
          (queueId ∉ (run calls).decodeQue → queueId ∉ (run calls).decodeQueHead →
            (run calls).released queueId = (run calls).allocated queueId)) := by
  rcases sound_run distinct finds with ⟨chain, memory, ledger, queues⟩
  refine ⟨memory.deep, fun queueId found => ?_, chain, memory.isChain,
    fun place valid => memory.threaded.existsUnique valid, fun queueId => ?_⟩
  · exact queues.placed queueId ((memory.queueMap_isSome_iff queueId).mp found)
  · refine ⟨ledger.balance queueId, ledger.nodup queueId, fun arrived notEncoded => ?_⟩
    refine ⟨queues.written queueId arrived notEncoded, fun notDecoded notHead => ?_⟩
    have empty : chain queueId = [] := by
      by_contra nonempty
      rcases queues.placed queueId nonempty with head | waits | reads
      · exact notEncoded (List.mem_of_head? head)
      · exact notDecoded waits
      · exact notHead reads
    rw [ledger.balance, empty, List.append_nil]

/-- A packet that is read has arrived, is not being written, and has as many
slices left as it shows. -/
theorem Agrees.exists_head {known : List Int} {chain : Int → List Place} {t : Banks}
    {packet : Packet} (agrees : Agrees b chain t) (tidy : Tidy known b)
    (read : packet ∈ t.decodeQueHead) : ∃ queueId, queueId ∈ known ∧ queueId ∉ b.encodeQue ∧
      ∀ cells, IsChain b queueId cells → cells.length = packet.banks.length := by
  rcases exists_shown agrees.heads read with ⟨queueId, head, shows⟩
  refine ⟨queueId, tidy.arrived queueId (List.mem_append_right _ head), ?_, ?_⟩
  · intro encoded
    exact (List.nodup_append.mp tidy.distinct).2.2 queueId (List.mem_append_left _ encoded)
      queueId head rfl
  · intro cells isChain
    rw [isChain.unique (agrees.memory.isChain queueId), ← shows.banks, List.length_map]

/-- Of a packet that is read, two slices have been released, and the other 14 are
its chain. -/
theorem slice_chains_six_packets : ∃ queueId cells,
    IsChain (run sixPackets) queueId cells ∧ cells.length = 14 ∧
      (run sixPackets).allocated queueId = (run sixPackets).released queueId ++ cells ∧
      ((run sixPackets).released queueId).length = 2 := by
  have distinct : (arrivals sixPackets).Nodup := by
    decide +kernel
  obtain ⟨t, reached, packet, read, left⟩ := sixPackets_heads
  rcases agrees_run distinct reached with ⟨-, _, agrees⟩
  rcases agrees.exists_head (tidy_run distinct) read with ⟨queueId, arrived, notEncoded, short⟩
  rcases slice_chains distinct (findsSlice_of_reached distinct reached) with
    ⟨-, -, chain, isChain, -, logs⟩
  generalize run sixPackets = b at notEncoded short isChain logs ⊢
  rcases logs queueId with ⟨balance, -, written⟩
  have total := (written arrived notEncoded).1
  have length : (chain queueId).length = 14 := by
    rw [short (chain queueId) (isChain queueId), left]
  refine ⟨queueId, chain queueId, isChain queueId, length, balance, ?_⟩
  rw [balance, List.length_append, length] at total
  omega

end SystemcTlm.BankedBuffer
