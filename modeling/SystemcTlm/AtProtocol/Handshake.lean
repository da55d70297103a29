import SystemcTlm.AtProtocol.Stages

/-!
# What a step does to the stages

Each step takes one transaction, or two, from a stage to the next.  The members
that the modules store about it change with the stage.
-/

namespace SystemcTlm.AtProtocol

open SystemcTlm.Container SystemcTlm.Simulation SystemcTlm.TlmMemory

variable {c : Config} {m : Members} {t : TransId}

/-! ## The members -/

theorem Stage.GrantedBefore.mono {stage : Stage} {now now' due : Stamp}
    (before : stage.GrantedBefore now due) (later : now ≤ now') :
    stage.GrantedBefore now' due := by
  cases stage with
  | ready => exact le_trans before later
  | _ => exact before

/-- The `END_REQ` of a transaction that changes its stage. -/
theorem grantedBefore_update {stage : TransId → Stage} {granted : Option (TransId × Stamp)}
    {now : Stamp} {next : Stage}
    (before : ∀ u due, granted = some (u, due) → (stage u).GrantedBefore now due)
    (here : ∀ due, granted = some (t, due) → next.GrantedBefore now due) :
    ∀ u due, granted = some (u, due) → (Function.update stage t next u).GrantedBefore now due := by
  intro u due given
  by_cases same : u = t
  · rw [same, Function.update_self]
    exact here due (same ▸ given)
  · rw [Function.update_of_ne same]
    exact before u due given

theorem Stage.isRequesting_excludes {stage : Stage} (requests : stage.isRequesting = true) :
    stage.isHeld = false ∧ stage.isActive = false ∧ stage.isReady = false ∧
      stage.isResponding = false := by
  cases stage <;> first | exact ⟨rfl, rfl, rfl, rfl⟩ | cases requests

theorem Stage.isActive_excludes {stage : Stage} (active : stage.isActive = true) :
    stage.isRequesting = false ∧ stage.isHeld = false ∧ stage.isDeferred = false := by
  cases stage <;> first | exact ⟨rfl, rfl, rfl⟩ | cases active

namespace Roles

theorem advance (roles : Roles c m) {now : Stamp} (later : m.now ≤ now) :
    Roles c { m with now := now } :=
  { roles with
    granted_before := fun u due given => (roles.granted_before u due given).mono later }

/-- There is no `END_REQ` for a transaction in a stage that excludes one. -/
theorem not_granted (roles : Roles c m) (never : ∀ due, ¬ (c.stage t).GrantedBefore m.now due)
    {due : Stamp} (given : c.granted = some (t, due)) : False :=
  never due (roles.granted_before t due given)

/-- A transaction is allocated, while the thread waits or goes on. -/
theorem hold (roles : Roles c m) (idle : c.stage t = .idle) (empty : m.thread.held? = none)
    {thread : Thread} (holds : thread.held? = some t)
    (waits : ∀ i u, thread = .waiting i u → m.requestInProgress ≠ none)
    (resumes : ∀ i u due, thread = .notified i u due → m.requestInProgress = none)
    (inUse : List TransId) :
    Roles { c with stage := Function.update c.stage t .held, inUse := inUse }
      { m with thread := thread } where
  offer := roles.offer.keep (by rw [idle]; rfl)
  request_eq := roles.request_eq
  offer_eq := roles.offer_eq
  granted_before := grantedBefore_update roles.granted_before fun _ given =>
    (roles.not_granted (by rw [idle]; exact fun _ never => never) given).elim
  held := by
    have before := roles.held
    rw [empty] at before
    dsimp only
    rw [holds]
    exact before.enter rfl
  waits := waits
  resumes := resumes
  deferred := roles.deferred.keep (by rw [idle]; rfl)
  ready := roles.ready.keep (by rw [idle]; rfl)
  response := roles.response.keep (by rw [idle]; rfl)
  response_eq := roles.response_eq
  active := roles.active.keep (by rw [idle]; rfl)
  nTrans_eq := roles.nTrans_eq
  active_le := roles.active_le

/-- The request of the held transaction is sent. -/
theorem send (roles : Roles c m) {i : Nat} {due resumed : Stamp}
    (thread : m.thread = .notified i t due) (sent : Stamp) (unchecked : List TransId) :
    c.stage t = .held ∧ m.requestInProgress = none ∧
      Roles { c with
        stage := Function.update c.stage t (.offered sent)
        offer := some t
        unchecked := unchecked }
      { m with requestInProgress := some t, thread := .paused (i + 1) resumed } := by
  have holds : m.thread.held? = some t := by rw [thread]; rfl
  have passes := roles.held.passes holds
  have held : c.stage t = .held := by
    cases at_ : c.stage t <;> rw [at_] at passes <;> first | rfl | cases passes
  have free := roles.resumes i t due thread
  have empty : c.offer = none ∧ c.granted = none := by
    have both := roles.request_eq
    rw [free, eq_comm, Option.or_eq_none_iff, Option.map_eq_none_iff] at both
    exact both
  have offer := roles.offer
  rw [empty.1] at offer
  refine ⟨held, free, ?_⟩
  exact {
    offer := offer.enter rfl
    request_eq := rfl
    offer_eq := fun given => absurd empty.2 given
    granted_before := fun u due given => by rw [empty.2] at given; cases given
    held := roles.held.leave passes rfl
    waits := fun _ _ paused => nomatch paused
    resumes := fun _ _ _ paused => nomatch paused
    deferred := roles.deferred.keep (by rw [held]; rfl)
    ready := roles.ready.keep (by rw [held]; rfl)
    response := roles.response.keep (by rw [held]; rfl)
    response_eq := roles.response_eq
    active := roles.active.keep (by rw [held]; rfl)
    nTrans_eq := roles.nTrans_eq
    active_le := roles.active_le
  }

/-- Only one request has not been accepted. -/
theorem defer_empty (roles : Roles c m) {due : Stamp} (offered : c.stage t = .offered due) :
    m.endReqPending = none := by
  cases stored : m.endReqPending with
  | none => rfl
  | some u =>
      have passes := roles.deferred.passes stored
      have offers : c.offer = some t := roles.offer.eq_some (by rw [offered]; rfl)
      have offers' : c.offer = some u := roles.offer.eq_some (by
        cases at_ : c.stage u <;> rw [at_] at passes <;> first | rfl | cases passes)
      rw [offers] at offers'
      rw [← Option.some.inj offers', offered] at passes
      cases passes

/-- The target keeps the request until its pipeline is clear. -/
theorem defer (roles : Roles c m) {due : Stamp} (offered : c.stage t = .offered due) :
    Roles { c with stage := Function.update c.stage t .deferred }
      { m with endReqPending := some t } where
  offer := roles.offer.keep (by rw [offered]; rfl)
  request_eq := roles.request_eq
  offer_eq := roles.offer_eq
  granted_before := grantedBefore_update roles.granted_before fun _ given =>
    (roles.not_granted (by rw [offered]; exact fun _ never => never) given).elim
  held := roles.held.keep (by rw [offered]; rfl)
  waits := roles.waits
  resumes := roles.resumes
  deferred := by
    have before := roles.deferred
    rw [roles.defer_empty offered] at before
    exact before.enter rfl
  ready := roles.ready.keep (by rw [offered]; rfl)
  response := roles.response.keep (by rw [offered]; rfl)
  response_eq := roles.response_eq
  active := roles.active.keep (by rw [offered]; rfl)
  nTrans_eq := roles.nTrans_eq
  active_le := roles.active_le

/-- The target accepts a request. -/
theorem accept (roles : Roles c m) (requests : (c.stage t).isRequesting = true)
    (room : c.active.length ≤ 1) {due internal : Stamp} (ordered : due ≤ internal)
    {pending : Option TransId}
    (deferred : Slot Stage.isDeferred (Function.update c.stage t (.executing internal)) pending) :
    Roles { c with
        stage := Function.update c.stage t (.executing internal)
        offer := none
        granted := some (t, due)
        active := t :: c.active }
      { m with nTrans := m.nTrans + 1, endReqPending := pending } := by
  rcases Stage.isRequesting_excludes requests with ⟨notHeld, inactive, notReady, silent⟩
  have offers := roles.offer.eq_some requests
  exact {
    offer := roles.offer.leave requests rfl
    request_eq := by rw [roles.request_eq, offers]; rfl
    offer_eq := fun _ => rfl
    granted_before := by
      rintro u due' given
      cases given
      dsimp only
      rw [Function.update_self]
      exact ordered
    held := roles.held.keep notHeld.symm
    waits := roles.waits
    resumes := roles.resumes
    deferred := deferred
    ready := roles.ready.keep notReady.symm
    response := roles.response.keep silent.symm
    response_eq := roles.response_eq
    active := roles.active.enter inactive rfl
    nTrans_eq := by rw [roles.nTrans_eq, List.length_cons, Int.natCast_succ]
    active_le := Nat.succ_le_succ room
  }

/-- The `END_REQ` ends the request, and wakes the thread. -/
theorem endRequest (roles : Roles c m) {due : Stamp} (given : c.granted = some (t, due)) :
    Roles { c with granted := none }
      { m with
        requestInProgress := none
        thread := match m.thread with
          | .waiting i held => .notified i held m.now
          | thread => thread } where
  offer := roles.offer
  request_eq := by
    rw [roles.offer_eq (by rw [given]; exact Option.some_ne_none _)]
    rfl
  offer_eq := fun absent => absurd rfl absent
  granted_before := fun _ _ absent => nomatch absent
  held := by
    have kept := roles.held
    cases standing : m.thread <;> rw [standing] at kept <;> exact kept
  waits := by
    intro i u still
    cases standing : m.thread <;> rw [standing] at still <;> cases still
  resumes := fun _ _ _ _ => rfl
  deferred := roles.deferred
  ready := roles.ready
  response := roles.response
  response_eq := roles.response_eq
  active := roles.active
  nTrans_eq := roles.nTrans_eq
  active_le := roles.active_le

/-- The target keeps a response until the one before it has ended. -/
theorem keepResponse (roles : Roles c m) {internal : Stamp}
    (executing : c.stage t = .executing internal) (now : internal ≤ m.now)
    (empty : m.nextResponsePending = none) :
    Roles { c with stage := Function.update c.stage t .ready }
      { m with nextResponsePending := some t } where
  offer := roles.offer.keep (by rw [executing]; rfl)
  request_eq := roles.request_eq
  offer_eq := roles.offer_eq
  granted_before := grantedBefore_update roles.granted_before fun due given => by
    have before := roles.granted_before t due given
    rw [executing] at before
    exact le_trans before now
  held := roles.held.keep (by rw [executing]; rfl)
  waits := roles.waits
  resumes := roles.resumes
  deferred := roles.deferred.keep (by rw [executing]; rfl)
  ready := by
    have before := roles.ready
    rw [empty] at before
    exact before.enter rfl
  response := roles.response.keep (by rw [executing]; rfl)
  response_eq := roles.response_eq
  active := roles.active.keep (by rw [executing]; rfl)
  nTrans_eq := roles.nTrans_eq
  active_le := roles.active_le

/-- A response begins. -/
theorem respond (roles : Roles c m) (active : (c.stage t).isActive = true)
    (silent : c.response = none) {resp : Stamp}
    (before : ∀ due, c.granted = some (t, due) → due < resp) {next : Option TransId}
    (ready : Slot Stage.isReady (Function.update c.stage t (.begun resp)) next) :
    Roles { c with stage := Function.update c.stage t (.begun resp), response := some t }
      { m with responseInProgress := true, nextResponsePending := next } := by
  rcases Stage.isActive_excludes active with ⟨accepted, notHeld, notDeferred⟩
  have empty := roles.response
  rw [silent] at empty
  exact {
    offer := roles.offer.keep accepted.symm
    request_eq := roles.request_eq
    offer_eq := roles.offer_eq
    granted_before := grantedBefore_update roles.granted_before before
    held := roles.held.keep notHeld.symm
    waits := roles.waits
    resumes := roles.resumes
    deferred := roles.deferred.keep notDeferred.symm
    ready := ready
    response := empty.enter rfl
    response_eq := rfl
    active := roles.active.keep active.symm
    nTrans_eq := roles.nTrans_eq
    active_le := roles.active_le
  }

/-- The initiator has checked the transaction, and ends the response. -/
theorem check (roles : Roles c m) {resp : Stamp} (begun : c.stage t = .begun resp)
    (never : ∀ due, c.granted ≠ some (t, due)) (sent : Stamp) (unchecked : List TransId) :
    Roles { c with stage := Function.update c.stage t (.ending sent), unchecked := unchecked }
      m where
  offer := roles.offer.keep (by rw [begun]; rfl)
  request_eq := roles.request_eq
  offer_eq := roles.offer_eq
  granted_before := grantedBefore_update roles.granted_before fun due given =>
    absurd given (never due)
  held := roles.held.keep (by rw [begun]; rfl)
  waits := roles.waits
  resumes := roles.resumes
  deferred := roles.deferred.keep (by rw [begun]; rfl)
  ready := roles.ready.keep (by rw [begun]; rfl)
  response := roles.response.keep (by rw [begun]; rfl)
  response_eq := roles.response_eq
  active := roles.active.keep (by rw [begun]; rfl)
  nTrans_eq := roles.nTrans_eq
  active_le := roles.active_le

/-- The target releases the transaction. -/
theorem finish (roles : Roles c m) {due : Stamp} (ending : c.stage t = .ending due)
    (inUse : List TransId) :
    Roles { c with
        stage := Function.update c.stage t .idle
        response := none
        inUse := inUse
        active := c.active.erase t }
      { m with nTrans := m.nTrans - 1, responseInProgress := false } ∧
      (c.active.erase t).length ≤ 1 := by
  have member : t ∈ c.active := (roles.active.mem_iff t).mpr (by rw [ending]; rfl)
  have here := List.length_pos_of_mem member
  have two := roles.active_le
  have length := List.length_erase_of_mem member
  refine ⟨?_, by omega⟩
  exact {
    offer := roles.offer.keep (by rw [ending]; rfl)
    request_eq := roles.request_eq
    offer_eq := roles.offer_eq
    granted_before := grantedBefore_update roles.granted_before fun _ given =>
      (roles.not_granted (by rw [ending]; exact fun _ never => never) given).elim
    held := roles.held.keep (by rw [ending]; rfl)
    waits := roles.waits
    resumes := roles.resumes
    deferred := roles.deferred.keep (by rw [ending]; rfl)
    ready := roles.ready.keep (by rw [ending]; rfl)
    response := roles.response.leave (by rw [ending]; rfl) rfl
    response_eq := rfl
    active := roles.active.leave rfl
    nTrans_eq := by
      dsimp only
      rw [roles.nTrans_eq, length]
      omega
    active_le := by
      dsimp only
      omega
  }

end Roles

/-! ## The payloads -/

namespace Held

variable {s after : System} {c' : Config} {next : Stage}

theorem fits_update (held : Held c s)
    (others : ∀ u, u ≠ t → after.payload u = s.payload u) (fits : (after.payload t).Fits next)
    (u : TransId) : (after.payload u).Fits (Function.update c.stage t next u) := by
  by_cases same : u = t
  · rw [same, Function.update_self]
    exact fits
  · rw [Function.update_of_ne same, others u same]
    exact held.fits u

/-- A transaction goes on to a stage in which it is still in use. -/
theorem move (held : Held c s) (stage : c'.stage = Function.update c.stage t next)
    (inUse : c'.inUse = c.inUse) (live : next.isLive = (c.stage t).isLive)
    (mm : after.initiator.mm = s.initiator.mm)
    (others : ∀ u, u ≠ t → after.payload u = s.payload u)
    (fits : (after.payload t).Fits next) : Held c' after where
  lends := by
    rw [mm, inUse]
    exact held.lends
  inUse := by
    rw [stage, inUse]
    exact held.inUse.keep live
  fits := by
    rw [stage]
    exact held.fits_update others fits
  created_le := by
    rw [mm]
    exact held.created_le

/-- A transaction is allocated. -/
theorem allocate (held : Held c s) (fresh : t = s.initiator.mm.allocate.1)
    (stage : c'.stage = Function.update c.stage t next) (inUse : c'.inUse = t :: c.inUse)
    (idle : c.stage t = .idle) (live : next.isLive = true)
    (mm : after.initiator.mm = s.initiator.mm.allocate.2)
    (others : ∀ u, u ≠ t → after.payload u = s.payload u)
    (fits : (after.payload t).Fits next) (few : c.inUse.length ≤ 3) : Held c' after := by
  rcases held.lends.allocate with ⟨-, lends, created⟩
  rw [← fresh] at lends
  have bound := held.created_le
  constructor
  · rwa [mm, inUse]
  · rw [stage, inUse]
    exact held.inUse.enter (by rw [idle]; rfl) live
  · rw [stage]
    exact held.fits_update others fits
  · rw [mm, created]
    omega

/-- A transaction is released by both modules. -/
theorem free (held : Held c s) (live : (c.stage t).isLive = true)
    (stage : c'.stage = Function.update c.stage t .idle) (inUse : c'.inUse = c.inUse.erase t)
    (mm : after.initiator.mm = s.initiator.mm.free t)
    (others : ∀ u, u ≠ t → after.payload u = s.payload u)
    (released : (after.payload t).refCount = 0) : Held c' after := by
  rcases held.lends.free ((held.inUse.mem_iff t).mpr live) with ⟨lends, created, -⟩
  constructor
  · rwa [mm, inUse]
  · rw [stage, inUse]
    exact held.inUse.leave rfl
  · rw [stage]
    exact held.fits_update others ⟨released, fun live => absurd live Bool.false_ne_true,
      fun answered => absurd answered Bool.false_ne_true⟩
  · rw [mm, created]
    exact held.created_le

end Held

/-! ## The log -/

namespace Logged

variable {s after : System} {c' : Config} {next : Stage}

theorem move (logged : Logged c s) (stage : c'.stage = Function.update c.stage t next)
    (unchecked : c'.unchecked = c.unchecked) (same : next.isUnchecked = (c.stage t).isUnchecked)
    (log : after.log = s.log) (labels : ∀ u ∈ c.unchecked, after.label u = s.label u) :
    Logged c' after where
  unchecked := by
    rw [stage, unchecked]
    exact logged.unchecked.keep same
  lines := by
    rw [log, unchecked, List.map_congr_left labels]
    exact logged.lines

/-- The line `new` of a transaction that is sent. -/
theorem send (logged : Logged c s) (stage : c'.stage = Function.update c.stage t next)
    (unchecked : c'.unchecked = t :: c.unchecked)
    (before : (c.stage t).isUnchecked = false) (sent : next.isUnchecked = true) {data : Int}
    (log : after.log = s.log ++ [Line.new (s.label t).1 (s.label t).2 data])
    (labels : ∀ u, after.label u = s.label u) : Logged c' after where
  unchecked := by
    rw [stage, unchecked]
    exact logged.unchecked.enter before sent
  lines := by
    have news : newLines after.log = newLines s.log ++ [s.label t] := by
      rw [log, newLines, List.filterMap_append]
      rfl
    have checks : checkLines after.log = checkLines s.log := by
      rw [log, checkLines, List.filterMap_append]
      exact List.append_nil _
    rw [news, checks, unchecked, List.map_congr_left fun u _ => labels u, List.map_cons]
    refine List.Perm.trans ?_ List.perm_middle.symm
    exact (List.perm_append_singleton _ _).trans (logged.lines.cons _)

/-- The line `check`. -/
theorem check (logged : Logged c s) (stage : c'.stage = Function.update c.stage t next)
    (unchecked : c'.unchecked = c.unchecked.erase t)
    (before : (c.stage t).isUnchecked = true) (checked : next.isUnchecked = false) {data : Int}
    (log : after.log = s.log ++ [Line.check (s.label t).1 (s.label t).2 data])
    (labels : ∀ u, after.label u = s.label u) : Logged c' after where
  unchecked := by
    rw [stage, unchecked]
    exact logged.unchecked.leave checked
  lines := by
    have news : newLines after.log = newLines s.log := by
      rw [log, newLines, List.filterMap_append]
      exact List.append_nil _
    have checks : checkLines after.log = checkLines s.log ++ [s.label t] := by
      rw [log, checkLines, List.filterMap_append]
      rfl
    have member := (logged.unchecked.mem_iff t).mpr before
    rw [news, checks, unchecked, List.map_congr_left fun u _ => labels u, List.append_assoc,
      List.singleton_append, ← List.map_cons]
    exact logged.lines.trans (((List.perm_cons_erase member).map _).append_left _)

end Logged

end SystemcTlm.AtProtocol
