import FramedRpc.Proofs.Client.Tickets
import FramedRpc.Proofs.Liveness

/-!
# How a response reaches its call

What one step tells about the calls that are registered, about the outcomes of their tickets and
about their results. A response is delivered to a call only where it comes in while the call is
registered under its identifier, and the call is not registered any more after that.
-/

namespace FramedRpc

namespace Run

/-- What a run returns, once that is decided. -/
def resultAt (runs : List Run) (n : RunId) : Option (Except Fault Response) :=
  (phaseAt runs n).bind Phase.result?

def EarlyAt (runs : List Run) (n : RunId) : Prop :=
  ∀ phase, phaseAt runs n = some phase → phase.isEarly = true

variable {runs : List Run} {n : RunId} {r : Run}

theorem resultAt_of_getElem? (hrun : runs[n]? = some r) : resultAt runs n = r.phase.result? := by
  rw [resultAt, phaseAt_of_getElem? hrun]
  rfl

theorem ticketAt_of_early (h : EarlyAt runs n) : ticketAt runs n = none := by
  unfold ticketAt
  cases hphase : phaseAt runs n with
  | none => rfl
  | some phase =>
    have hearly := h phase hphase
    show phase.ticket? = none
    cases phase <;> first | rfl | cases hearly

@[simp]
theorem resultAt_append (runs : List Run) (request : Request) (n : RunId) :
    resultAt (runs ++ [⟨request, .looking⟩]) n = resultAt runs n :=
  bind_phaseAt_append rfl runs request n

end Run

namespace Client

variable {c : Client} {n m : RunId} {r : Run} {event : Event} {pool : Pool}
  {pending : PendingCalls} {runs : List Run}

theorem resultAt_setPhase (hrun : c.runs[n]? = some r) (phase : Run.Phase) (m : RunId) :
    Run.resultAt (c.setPhase n phase).runs m =
      if m = n then phase.result? else Run.resultAt c.runs m :=
  bind_phaseAt_setPhase Run.Phase.result? hrun phase m

/-- A run that is early after it moved was early before. -/
theorem early_of_setPhase {phase : Run.Phase} (hrun : c.runs[n]? = some r)
    (hphase : phase.isEarly = true → r.phase.isEarly = true)
    (h : Run.EarlyAt (c.setPhase n phase).runs m) : Run.EarlyAt c.runs m := by
  intro old hold
  have hmoved := phaseAt_setPhase hrun phase m
  by_cases hm : m = n
  · rw [hm, Run.phaseAt_of_getElem? hrun] at hold
    rw [if_pos hm] at hmoved
    rw [← Option.some.inj hold]
    exact hphase (h phase hmoved)
  · rw [if_neg hm] at hmoved
    exact h old (hmoved.trans hold)

/-! ## Registration -/

/-- A run waits in the table under an identifier. -/
def Registered (pending : PendingCalls) (runs : List Run) (n : RunId) (id : String) : Prop :=
  ∃ call ∈ pending.waiting, call.id = id ∧ Run.ticketAt runs n = some call.ticket

theorem not_registered_of_early (h : Run.EarlyAt runs n) (id : String) :
    ¬ Registered pending runs n id := by
  rintro ⟨call, -, -, hticket⟩
  rw [Run.ticketAt_of_early h] at hticket
  cases hticket

theorem Effect.early (heffect : Effect c event pool pending runs) (h : Run.EarlyAt runs n) :
    Run.EarlyAt c.runs n := by
  cases heffect with
  | begun request =>
    intro phase hphase
    apply h phase
    rw [Run.phaseAt_append, if_neg, hphase]
    rintro rfl
    simp at hphase
  | moved hrun hmoves => exact early_of_setPhase hrun hmoves.early h
  | registered hrun => exact early_of_setPhase hrun (fun hphase ↦ by cases hphase) h
  | collected hrun => exact early_of_setPhase hrun (fun hphase ↦ by cases hphase) h
  | exited hrun => exact early_of_setPhase hrun (fun hphase ↦ by cases hphase) h
  | pooled => exact h
  | passed => exact h

/-- Who is registered was registered before, or was early and registers now. -/
theorem Effect.registered_or_early (heffect : Effect c event pool pending runs)
    (hc : Consistent c.pending c.runs) {id : String} (h : Registered pending runs n id) :
    Registered c.pending c.runs n id ∨ Run.EarlyAt c.runs n := by
  obtain ⟨call, hcall, hid, hticket⟩ := h
  cases heffect with
  | begun request =>
    exact .inl ⟨call, hcall, hid, by simpa using hticket⟩
  | moved hrun hmoves =>
    rw [ticketAt_setPhase_of_eq hrun hmoves.ticket] at hticket
    exact .inl ⟨call, hcall, hid, hticket⟩
  | @registered m r connection hrun hphase =>
    by_cases hn : n = m
    · right
      intro phase hq
      rw [hn, Run.phaseAt_of_getElem? hrun, hphase] at hq
      rw [← Option.some.inj hq]
      rfl
    · rw [ticketAt_setPhase hrun, if_neg hn] at hticket
      rcases List.mem_append.mp hcall with hcall | hcall
      · exact .inl ⟨call, hcall, hid, hticket⟩
      · have hissued := hc.issued n _ hticket
        rw [List.mem_singleton.mp hcall] at hissued
        exact absurd hissued (Nat.lt_irrefl _)
  | collected hrun hphase =>
    rw [ticketAt_setPhase_of_eq hrun (by rw [hphase]; rfl)] at hticket
    exact .inl ⟨call, hcall, hid, hticket⟩
  | @exited m r ticket result hrun hphase =>
    have hsettles := PendingCalls.settles_dropGuard hc.table r.request.id
    rw [ticketAt_setPhase hrun] at hticket
    split at hticket
    case isTrue => cases hticket
    case isFalse => exact .inl ⟨call, (hsettles.mem_waiting.mp hcall).1, hid, hticket⟩
  | @pooled event pool hstep =>
    obtain ⟨selected, s, hsettles, -⟩ := settles_feel hc.table event
    exact .inl ⟨call, (hsettles.mem_waiting.mp hcall).1, hid, hticket⟩
  | passed => exact .inl ⟨call, hcall, hid, hticket⟩

/-- Two runs are not registered under one identifier. -/
theorem eq_of_registered (hc : Consistent pending runs) {id : String}
    (hn : Registered pending runs n id) (hm : Registered pending runs m id) : n = m := by
  obtain ⟨call, hcall, hid, hticket⟩ := hn
  obtain ⟨other, hother, hotherid, hotherticket⟩ := hm
  obtain rfl := hc.table.eq_of_id_eq hcall hother (hid.trans hotherid.symm)
  exact hc.distinct n m call.ticket hticket hotherticket

/-- Nobody is registered under the identifier of a response that has come in. -/
theorem Effect.not_registered {connection : ConnectionId} {response : Response}
    (heffect : Effect c (arrival connection (.response response)) pool pending runs)
    (hc : Consistent c.pending c.runs) : ¬ Registered pending runs n response.id := by
  rintro ⟨call, hcall, hid, -⟩
  cases heffect with
  | pooled =>
    have hsettles := PendingCalls.settles_complete hc.table response.id response
    exact of_decide_eq_false (hsettles.mem_waiting.mp hcall).2 hid

/-! ## Delivery -/

/-- A response that is delivered to a run was so before, or it comes in now while the run is
registered under its identifier. -/
theorem Effect.delivered (heffect : Effect c event pool pending runs)
    (hc : Consistent c.pending c.runs) {ticket : Ticket} {response : Response}
    (hticket : Run.ticketAt runs n = some ticket)
    (houtcome : pending.outcome? ticket = some (.delivered (.ok response))) :
    (Run.ticketAt c.runs n = some ticket ∧
      c.pending.outcome? ticket = some (.delivered (.ok response))) ∨
    (∃ connection, event = arrival connection (.response response)) ∧
      Registered c.pending c.runs n response.id := by
  cases heffect with
  | begun request =>
    exact .inl ⟨by simpa using hticket, houtcome⟩
  | moved hrun hmoves =>
    rw [ticketAt_setPhase_of_eq hrun hmoves.ticket] at hticket
    exact .inl ⟨hticket, houtcome⟩
  | registered hrun =>
    rw [ticketAt_setPhase hrun] at hticket
    split at hticket
    case isTrue =>
      rw [← Option.some.inj hticket] at houtcome
      have hunissued := hc.table.unissued _ (Nat.le_refl c.pending.nextTicket)
      cases hunissued.symm.trans houtcome
    case isFalse => exact .inl ⟨hticket, houtcome⟩
  | @collected m r connection collected deadline s hrun hphase hs =>
    rw [ticketAt_setPhase_of_eq hrun (by rw [hphase]; rfl)] at hticket
    rw [PendingCalls.outcome?_close, hs] at houtcome
    split at houtcome
    case isTrue => cases houtcome
    case isFalse => exact .inl ⟨hticket, houtcome⟩
  | @exited m r dropped result hrun hphase =>
    have hsettles := PendingCalls.settles_dropGuard hc.table r.request.id
    rw [ticketAt_setPhase hrun] at hticket
    split at hticket
    case isTrue => cases hticket
    case isFalse =>
      rcases hsettles.outcome?_cases houtcome with hold | ⟨hs, -⟩
      · exact .inl ⟨hticket, hold⟩
      · cases hs
  | @pooled event pool hstep =>
    obtain ⟨selected, s, hsettles, hfelt⟩ := settles_feel hc.table event
    rcases hsettles.outcome?_cases houtcome with hold | ⟨hs, call, hcall, hselected, hcallticket⟩
    · exact .inl ⟨hticket, hold⟩
    · right
      cases hfelt with
      | nothing hnone =>
        rw [hnone] at hselected
        cases hselected
      | response hevent hid hresponse =>
        cases hs.trans hresponse
        rw [hid] at hselected
        exact ⟨⟨_, hevent⟩, call, hcall, of_decide_eq_true hselected, hcallticket ▸ hticket⟩
      | lost _ _ hfault => cases hs.trans hfault
  | passed => exact .inl ⟨hticket, houtcome⟩

/-! ## Results -/

/-- What a step of a run makes its result: a fault, or what was delivered to its ticket. -/
inductive Source (c : Client) (n : RunId) (e : RunEvent) : Except Fault Response → Prop
  | fault {fault : Fault} (h : Origin c e fault) : Source c n e (.error fault)
  | delivered {ticket : Ticket} {result : Except Fault Response}
    (hticket : Run.ticketAt c.runs n = some ticket)
    (houtcome : c.pending.outcome? ticket = some (.delivered result)) : Source c n e result

/-- What a run returns was its result before, or its own step makes it that. -/
theorem Effect.result (heffect : Effect c event pool pending runs) {result : Except Fault Response}
    (h : Run.resultAt runs n = some result) :
    Run.resultAt c.runs n = some result ∨ ∃ e, event = .run n e ∧ Source c n e result := by
  cases heffect with
  | begun request =>
    exact .inl (by simpa using h)
  | moved hrun hmoves =>
    rw [resultAt_setPhase hrun] at h
    split at h
    case isTrue hn =>
      obtain ⟨fault, rfl, horigin⟩ := hmoves.result _ h
      exact .inr ⟨_, by rw [hn], .fault horigin⟩
    case isFalse => exact .inl h
  | registered hrun =>
    rw [resultAt_setPhase hrun] at h
    split at h
    case isTrue => cases h
    case isFalse => exact .inl h
  | @collected m r connection ticket deadline s hrun hphase hs =>
    rw [resultAt_setPhase hrun] at h
    split at h
    case isTrue hn =>
      refine .inr ⟨_, by rw [hn], ?_⟩
      have hticket : Run.ticketAt c.runs n = some ticket := by
        rw [hn, Run.ticketAt_of_getElem? hrun, hphase]
        rfl
      cases s with
      | delivered result =>
        cases h
        exact .delivered hticket hs
      | closed =>
        cases h
        exact .fault (.own nofun)
    case isFalse => exact .inl h
  | @exited m r ticket result hrun hphase =>
    rw [resultAt_setPhase hrun] at h
    split at h
    case isTrue hn =>
      left
      rw [hn, Run.resultAt_of_getElem? hrun, hphase]
      exact h
    case isFalse => exact .inl h
  | pooled => exact .inl h
  | passed => exact .inl h

/-- A ticket is settled with a fault when its connection ends, which is no mismatch. -/
theorem Effect.outcome_error (heffect : Effect c event pool pending runs)
    (hc : Consistent c.pending c.runs) {ticket : Ticket} {fault : Fault}
    (h : pending.outcome? ticket = some (.delivered (.error fault))) :
    c.pending.outcome? ticket = some (.delivered (.error fault)) ∨
      fault.kind ≠ .responseMismatch ∧ ∃ call ∈ c.pending.waiting, call.ticket = ticket ∧
        event = .pool (.connection call.connection .finish) := by
  cases heffect with
  | begun => exact .inl h
  | moved => exact .inl h
  | registered => exact .inl h
  | collected hrun hphase hs =>
    rw [PendingCalls.outcome?_close, hs] at h
    split at h
    case isTrue => cases h
    case isFalse => exact .inl h
  | @exited m r dropped result hrun hphase =>
    have hsettles := PendingCalls.settles_dropGuard hc.table r.request.id
    rcases hsettles.outcome?_cases h with hold | ⟨hs, -⟩
    · exact .inl hold
    · cases hs
  | @pooled event pool hstep =>
    obtain ⟨selected, s, hsettles, hfelt⟩ := settles_feel hc.table event
    rcases hsettles.outcome?_cases h with hold | ⟨hs, call, hcall, hselected, hticket⟩
    · exact .inl hold
    · right
      cases hfelt with
      | nothing hnone =>
        rw [hnone] at hselected
        cases hselected
      | response hevent hid hresponse => cases hs.trans hresponse
      | lost hevent hconnection hlost hfault =>
        cases hs.trans hlost
        rw [hconnection] at hselected
        refine ⟨hfault, call, hcall, hticket, ?_⟩
        rw [hevent, of_decide_eq_true hselected]
  | passed => exact .inl h

/-! ## Messages that answer nothing -/

/-- A message that answers no waiting call: a request, or a response with an identifier under which
no call waits. -/
def Idle (c : Client) (message : Message) : Prop :=
  ∀ r, message = .response r → c.pending.find? r.id = none

theorem feel_of_idle {connection : ConnectionId} {message : Message} (h : c.Idle message) :
    c.feel (.connection connection (.turn (.receive message))) = c.pending := by
  cases message with
  | request request => rfl
  | response r =>
    show (c.pending.settle r.id _).2 = c.pending
    unfold PendingCalls.settle
    rw [h r rfl]

/-- A message that answers no waiting call comes in where the loop of a connection goes on, and
changes no call, and no connection is closed or broken off. -/
theorem step_of_idle {config : ClientConfig} {events : List Event} {connection : ConnectionId}
    {message : Message} (h : (start config).steps events = some c)
    (hconnection : c.pool.isServing connection = true) (hidle : c.Idle message) :
    ∃ d, c.step (arrival connection message) = some d ∧ d.pending = c.pending ∧
      d.runs = c.runs ∧ ∀ id, d.pool.isActive id = c.pool.isActive id ∧
        d.pool.isServing id = c.pool.isServing id := by
  obtain ⟨found, hfound, hserving⟩ := (Option.any_eq_true _ _).mp hconnection
  obtain rfl := Pool.id_of_connection? hfound
  let changed := { found with liveness := found.liveness.recordRead c.now }
  let event : Pool.Event := .connection found.id (.turn (.receive message))
  have hpool : c.pool.step c.now event = some (c.pool.setConnection changed) := by
    show (c.pool.connection? found.id).bind _ = _
    rw [hfound]
    show (found.step _ _ _).bind _ = _
    rw [Connection.step, if_pos hserving]
    rfl
  refine ⟨{ c with pool := c.pool.setConnection changed, pending := c.feel event }, ?_,
    feel_of_idle hidle, rfl, ?_⟩
  · show (c.pool.step c.now event).bind _ = _
    rw [hpool]
    rfl
  · intro id
    -- a client sets no limit to reading
    have hlimits : found.liveness.limits.readIdle = none := by
      rw [limits_of_steps h hfound]
      rfl
    have hturn : changed.isServing = found.isServing :=
      Connection.isServing_congr rfl (Liveness.onClock_recordRead hlimits)
    exact ⟨Pool.isActive_setConnection (d := changed) hfound rfl rfl id,
      Pool.isServing_setConnection (d := changed) hfound rfl hturn id⟩

end Client

end FramedRpc
