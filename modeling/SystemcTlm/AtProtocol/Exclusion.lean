import SystemcTlm.AtProtocol.Interleavings

/-!
# The exclusion rules

A request lasts from `BEGIN_REQ` until the initiator has handled `END_REQ`, a
response from `BEGIN_RESP` until the target has handled `END_RESP`.  There is one
request at a time, which is the request in progress of the initiator, and one
response at a time.
-/

namespace SystemcTlm.AtProtocol

open SystemcTlm.Container SystemcTlm.Simulation

/-- The transactions with an entry of this phase. -/
def inPhase (phase : TlmPhase) (peq : List Notified) : List TransId :=
  (peq.filter fun entry => entry.phase = phase).map Notified.trans

namespace System

/-- The transactions whose request lasts. -/
def requests (s : System) : List TransId :=
  inPhase .beginReq s.target.peq ++ s.target.endReqPending.toList ++
    inPhase .endReq s.initiator.peq

/-- The transactions whose response lasts. -/
def responses (s : System) : List TransId :=
  inPhase .beginResp s.initiator.peq ++ inPhase .endResp s.target.peq

/-- The transactions that the target has accepted and not yet answered. -/
def accepted (s : System) : List TransId :=
  inPhase .internalPh s.target.peq ++ s.target.nextResponsePending.toList

end System

/-- A list of distinct items of which there is one at most. -/
theorem eq_toList {α : Type} {items : List α} {only : Option α} (nodup : items.Nodup)
    (mem_iff : ∀ item, item ∈ items ↔ only = some item) : items = only.toList := by
  have same : items.Perm only.toList :=
    (List.perm_ext_iff_of_nodup nodup (by cases only <;> simp)).mpr fun item => by
      rw [mem_iff, Option.mem_toList]
  cases only with
  | none => exact same.eq_nil
  | some item => exact List.perm_singleton.mp same

theorem mem_inPhase {phase : TlmPhase} {peq : List Notified} {t : TransId} :
    t ∈ inPhase phase peq ↔ ∃ due, ⟨due, t, phase⟩ ∈ peq := by
  rw [inPhase, List.mem_map]
  constructor
  · rintro ⟨⟨due, u, other⟩, member, rfl⟩
    have both := List.mem_filter.mp member
    have same : other = phase := of_decide_eq_true both.2
    exact ⟨due, same ▸ both.1⟩
  · rintro ⟨due, member⟩
    exact ⟨_, List.mem_filter.mpr ⟨member, decide_eq_true rfl⟩, rfl⟩

/-- A transaction has one entry of a phase at most. -/
theorem nodup_inPhase {phase : TlmPhase} {peq : List Notified} (nodup : peq.Nodup)
    (only : ∀ t due due', ⟨due, t, phase⟩ ∈ peq → ⟨due', t, phase⟩ ∈ peq → due = due') :
    (inPhase phase peq).Nodup := by
  refine List.Nodup.map_on ?_ (nodup.filter _)
  rintro ⟨due, t, first⟩ here ⟨due', u, second⟩ there same
  have here := List.mem_filter.mp here
  have there := List.mem_filter.mp there
  obtain rfl : first = phase := of_decide_eq_true here.2
  obtain rfl : second = first := of_decide_eq_true there.2
  obtain rfl : t = u := same
  rw [only t due due' here.1 there.1]

namespace Queues

variable {stage : TransId → Stage} {granted : Option (TransId × Stamp)} {s : System}

theorem nodup_atTarget (queues : Queues stage granted s) (phase : TlmPhase) :
    (inPhase phase s.target.peq).Nodup := by
  refine nodup_inPhase queues.target_nodup fun t due due' here there => ?_
  rw [queues.mem_target] at here there
  exact (Prod.mk.inj (Option.some.inj (here.symm.trans there))).2

theorem mem_offered (queues : Queues stage granted s) (t : TransId) :
    t ∈ inPhase .beginReq s.target.peq ↔ ∃ due, stage t = .offered due := by
  rw [mem_inPhase]
  refine exists_congr fun due => (queues.mem_target _).trans ?_
  exact ⟨Stage.atTarget_beginReq, fun offered => by rw [offered]; rfl⟩

theorem mem_executing (queues : Queues stage granted s) (t : TransId) :
    t ∈ inPhase .internalPh s.target.peq ↔ ∃ due, stage t = .executing due := by
  rw [mem_inPhase]
  refine exists_congr fun due => (queues.mem_target _).trans ?_
  exact ⟨Stage.atTarget_internal, fun executing => by rw [executing]; rfl⟩

theorem mem_ending (queues : Queues stage granted s) (t : TransId) :
    t ∈ inPhase .endResp s.target.peq ↔ ∃ due, stage t = .ending due := by
  rw [mem_inPhase]
  refine exists_congr fun due => (queues.mem_target _).trans ?_
  exact ⟨Stage.atTarget_endResp, fun ending => by rw [ending]; rfl⟩

theorem mem_endReq (queues : Queues stage granted s) (t : TransId) (due : Stamp) :
    ⟨due, t, .endReq⟩ ∈ s.initiator.peq ↔ granted = some (t, due) := by
  rw [queues.mem_initiator]
  refine ⟨?_, fun given => Or.inr ⟨rfl, given⟩⟩
  rintro (queued | ⟨-, given⟩)
  · cases at_ : stage t <;> rw [at_] at queued <;> cases queued
  · exact given

theorem mem_beginResp (queues : Queues stage granted s) (t : TransId) (due : Stamp) :
    ⟨due, t, .beginResp⟩ ∈ s.initiator.peq ↔ stage t = .begun due := by
  rw [queues.mem_initiator]
  constructor
  · rintro (queued | ⟨phase, -⟩)
    · exact Stage.atInitiator_beginResp queued
    · cases phase
  · exact fun begun => Or.inl (by rw [begun]; rfl)

end Queues

namespace Describes

variable {c : Config} {s : System}

theorem requests_eq (describes : Describes c s) :
    s.requests = s.initiator.requestInProgress.toList := by
  have queues := describes.queues
  have offered := queues.mem_offered
  have deferred : ∀ t, s.target.endReqPending = some t ↔ c.stage t = .deferred := by
    intro t
    refine (describes.roles.deferred t).symm.trans ⟨fun passes => ?_, fun same => by rw [same]; rfl⟩
    cases at_ : c.stage t <;> rw [at_] at passes <;> first | rfl | cases passes
  have granted : ∀ t, t ∈ inPhase .endReq s.initiator.peq ↔ ∃ due, c.granted = some (t, due) :=
    fun t => mem_inPhase.trans (exists_congr fun due => queues.mem_endReq t due)
  have exclusive : ∀ t due, c.granted = some (t, due) → c.offer = none :=
    fun t due given => describes.roles.offer_eq (by rw [given]; exact Option.some_ne_none _)
  have never : ∀ t u due, c.granted = some (t, due) → (c.stage u).isRequesting = false := by
    intro t u due given
    have offer := describes.roles.offer
    rw [exclusive t due given] at offer
    exact offer.fails u
  apply eq_toList
  · refine ((queues.nodup_atTarget .beginReq).append
      (by cases s.target.endReqPending <;> simp) ?_).append ?_ ?_
    · intro t here there
      rcases (offered t).mp here with ⟨due, at_⟩
      rw [(deferred t).mp (Option.mem_toList.mp there)] at at_
      cases at_
    · refine nodup_inPhase queues.initiator_nodup fun t due due' here there => ?_
      rw [queues.mem_endReq] at here there
      exact (Prod.mk.inj (Option.some.inj (here.symm.trans there))).2
    · intro t here there
      rcases (granted t).mp there with ⟨due, given⟩
      have fails := never t t due given
      rcases List.mem_append.mp here with first | second
      · rcases (offered t).mp first with ⟨due, at_⟩
        rw [at_] at fails
        cases fails
      · rw [(deferred t).mp (Option.mem_toList.mp second)] at fails
        cases fails
  · intro t
    have request := describes.roles.request_eq
    change s.initiator.requestInProgress = _ at request
    rw [System.requests, List.mem_append, List.mem_append, Option.mem_toList, offered, deferred,
      granted, request, Option.or_eq_some_iff, Option.map_eq_some_iff, ← describes.roles.offer t]
    constructor
    · rintro ((⟨due, at_⟩ | at_) | ⟨due, given⟩)
      · exact Or.inl (by rw [at_]; rfl)
      · exact Or.inl (by rw [at_]; rfl)
      · exact Or.inr ⟨exclusive t due given, _, given, rfl⟩
    · rintro (passes | ⟨-, ⟨u, due⟩, given, rfl⟩)
      · cases at_ : c.stage t with
        | offered due => exact Or.inl (Or.inl ⟨due, rfl⟩)
        | deferred => exact Or.inl (Or.inr rfl)
        | _ =>
            rw [at_] at passes
            cases passes
      · exact Or.inr ⟨due, given⟩

theorem responses_eq (describes : Describes c s) : s.responses = c.response.toList := by
  have queues := describes.queues
  have begun : ∀ t, t ∈ inPhase .beginResp s.initiator.peq ↔ ∃ due, c.stage t = .begun due :=
    fun t => mem_inPhase.trans (exists_congr fun due => queues.mem_beginResp t due)
  apply eq_toList
  · refine (nodup_inPhase queues.initiator_nodup fun t due due' here there => ?_).append
      (queues.nodup_atTarget .endResp) ?_
    · rw [queues.mem_beginResp] at here there
      exact Stage.begun.inj (here.symm.trans there)
    · intro t here there
      rcases (begun t).mp here with ⟨due, at_⟩
      rcases (queues.mem_ending t).mp there with ⟨due', at'⟩
      rw [at_] at at'
      cases at'
  · intro t
    rw [System.responses, List.mem_append, begun, queues.mem_ending, ← describes.roles.response t]
    constructor
    · rintro (⟨due, at_⟩ | ⟨due, at_⟩) <;> (rw [at_]; rfl)
    · intro passes
      cases at_ : c.stage t with
      | begun due => exact Or.inl ⟨due, rfl⟩
      | ending due => exact Or.inr ⟨due, rfl⟩
      | _ =>
          rw [at_] at passes
          cases passes

/-- The active transactions are accepted, or their response lasts. -/
theorem active_perm (describes : Describes c s) :
    (s.accepted ++ s.responses).Perm c.active := by
  have queues := describes.queues
  have ready : ∀ t, s.target.nextResponsePending = some t ↔ c.stage t = .ready := by
    intro t
    refine (describes.roles.ready t).symm.trans ⟨fun passes => ?_, fun same => by rw [same]; rfl⟩
    cases at_ : c.stage t <;> rw [at_] at passes <;> first | rfl | cases passes
  have responds := describes.roles.response
  rw [describes.responses_eq]
  refine (List.perm_ext_iff_of_nodup ?_ describes.roles.active.nodup).mpr fun t => ?_
  · refine ((queues.nodup_atTarget .internalPh).append
      (by cases s.target.nextResponsePending <;> simp) ?_).append (by cases c.response <;> simp) ?_
    · intro t here there
      rcases (queues.mem_executing t).mp here with ⟨due, at_⟩
      rw [(ready t).mp (Option.mem_toList.mp there)] at at_
      cases at_
    · intro t here there
      have passes := responds.passes (Option.mem_toList.mp there)
      rcases List.mem_append.mp here with first | second
      · rcases (queues.mem_executing t).mp first with ⟨due, at_⟩
        rw [at_] at passes
        cases passes
      · rw [(ready t).mp (Option.mem_toList.mp second)] at passes
        cases passes
  · rw [System.accepted, List.mem_append, List.mem_append, queues.mem_executing,
      Option.mem_toList, ready, Option.mem_toList, ← responds t, describes.roles.active.mem_iff]
    constructor
    · rintro ((⟨due, at_⟩ | at_) | passes)
      · rw [at_]
        rfl
      · rw [at_]
        rfl
      · cases at_ : c.stage t <;> rw [at_] at passes <;> first | rfl | cases passes
    · intro active
      cases at_ : c.stage t with
      | executing due => exact Or.inl (Or.inl ⟨due, rfl⟩)
      | ready => exact Or.inl (Or.inr rfl)
      | begun due => exact Or.inr rfl
      | ending due => exact Or.inr rfl
      | _ =>
          rw [at_] at active
          cases active

end Describes

/-- The request in progress is the one whose request lasts, at most one response
lasts, and the target counts what it has accepted and not seen the end of. -/
theorem steps_exclusive {total steps : Nat} {payload : TransId → Payload} {data : Nat → Int}
    {s : System} (reached : System.Steps total (System.new payload data) steps s) :
    s.requests = s.initiator.requestInProgress.toList ∧
      s.responses.length = (if s.target.responseInProgress then 1 else 0) ∧
      s.target.nTrans = s.accepted.length + s.responses.length := by
  rcases rests_of_steps reached with ⟨c, rests⟩
  have response := rests.roles.response_eq
  change s.target.responseInProgress = _ at response
  refine ⟨rests.requests_eq, ?_, ?_⟩
  · rw [rests.responses_eq, response]
    cases c.response <;> rfl
  · have count := rests.active_perm.length_eq
    rw [List.length_append] at count
    have equal := rests.roles.nTrans_eq
    change s.target.nTrans = _ at equal
    rw [equal, ← count, Int.natCast_add]

theorem steps_exclusive_deferring :
    (deferring.map fun s => (s.requests, s.accepted)) = some ([2], [0, 1]) ∧
      ∀ s, deferring = some s → s.requests = s.initiator.requestInProgress.toList :=
  ⟨rfl, fun _ ran => (steps_exclusive (System.steps_of_run ran)).1⟩

end SystemcTlm.AtProtocol
