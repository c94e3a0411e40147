import FramedRpc.Proofs.Client.Correlation
import FramedRpc.Proofs.Client.Operations
import FramedRpc.Proofs.Client.Registrations

/-!
# Entries of the table and their runs

An entry of the table stays there until its ticket is settled, and a settled ticket stays settled.
Every entry belongs to the run that registered it, which is not over as long as the entry is there.
Once all runs are over, in whatever way, the table is empty.
-/

namespace FramedRpc

def Run.IsOver (r : Run) : Prop := ∃ result, r.phase = .over result

theorem Run.not_isOver_of_ticket? {r : Run} {ticket : Ticket} (h : r.phase.ticket? = some ticket) :
    ¬ r.IsOver := by
  rintro ⟨result, hover⟩
  rw [hover] at h
  cases h

namespace Client

variable {config : ClientConfig} {events : List Event} {event : Event} {c d : Client} {n m : RunId}
  {pool : Pool} {pending : PendingCalls} {runs : List Run} {call : PendingCall} {ticket : Ticket}

/-! ## One step -/

/-- A settled ticket stays settled. -/
theorem Effect.outcome?_ne_none (heffect : Effect c event pool pending runs)
    (hc : Consistent c.pending c.runs) (h : c.pending.outcome? ticket ≠ none) :
    pending.outcome? ticket ≠ none := by
  obtain ⟨s, hs⟩ := Option.ne_none_iff_exists'.mp h
  cases heffect with
  | begun => exact h
  | moved => exact h
  | registered => exact h
  | collected hrun hphase =>
    rw [PendingCalls.outcome?_close]
    split
    case isTrue heq =>
      rw [← heq, hs]
      nofun
    case isFalse => exact h
  | @exited _ r =>
    rw [(PendingCalls.settles_dropGuard hc.table r.request.id).outcome?_of_some hs]
    nofun
  | @pooled event =>
    obtain ⟨selected, t, hsettles, -⟩ := settles_feel hc.table event
    rw [hsettles.outcome?_of_some hs]
    nofun
  | passed => exact h

theorem Effect.outcome?_eq_none (heffect : Effect c event pool pending runs)
    (hc : Consistent c.pending c.runs) (h : pending.outcome? ticket = none) :
    c.pending.outcome? ticket = none :=
  by_contra fun hsettled ↦ heffect.outcome?_ne_none hc hsettled h

/-- A run that was begun before had its identifier before. -/
theorem Effect.idAt_of_phaseAt {phase : Run.Phase} {id : String}
    (heffect : Effect c event pool pending runs) (hphase : Run.phaseAt c.runs n = some phase)
    (hid : Run.idAt runs n = some id) : Run.idAt c.runs n = some id := by
  obtain ⟨old, hold⟩ := Run.exists_idAt_of_phaseAt hphase
  rw [hold, ← hid]
  exact (heffect.idAt hold).symm

/-- An entry stays in the table until its ticket is settled. -/
theorem Effect.mem_waiting (heffect : Effect c event pool pending runs)
    (hc : Consistent c.pending c.runs) (hcall : call ∈ c.pending.waiting)
    (hnone : pending.outcome? call.ticket = none) : call ∈ pending.waiting := by
  have hkept {selected : PendingCall → Bool} {s : Settlement}
      (hsettles : c.pending.Settles pending selected s) : call ∈ pending.waiting := by
    refine hsettles.mem_waiting.mpr ⟨hcall, Bool.eq_false_iff.mpr fun hselected ↦ ?_⟩
    rw [hsettles.outcome?_of_selected hc.table hcall hselected] at hnone
    cases hnone
  cases heffect with
  | begun => exact hcall
  | moved => exact hcall
  | registered => exact List.mem_append_left _ hcall
  | collected => exact hcall
  | exited => exact hkept (PendingCalls.settles_dropGuard hc.table _)
  | @pooled event =>
    obtain ⟨selected, s, hsettles, -⟩ := settles_feel hc.table event
    exact hkept hsettles
  | passed => exact hcall

/-- A run registers a call in its step: it is about to do so over the connection of the call, and
the table gives it the ticket of the call. -/
structure Registers (c : Client) (event : Event) (n : RunId) (call : PendingCall) : Prop where
  event : event = .run n .register
  run : ∃ r, c.runs[n]? = some r ∧ r.phase = .registering call.connection ∧ r.request.id = call.id
  answer : (c.pending.register call.id call.connection).1 = .ok call.ticket

/-- An entry that is in the table behind a step was there before, or a run registers it. -/
theorem Effect.waiting_cases (heffect : Effect c event pool pending runs)
    (hc : Consistent c.pending c.runs) (hcall : call ∈ pending.waiting) :
    call ∈ c.pending.waiting ∨
      ∃ n, Registers c event n call ∧ Run.ticketAt runs n = some call.ticket := by
  cases heffect with
  | begun => exact .inl hcall
  | moved => exact .inl hcall
  | @registered n r id hrun hphase hfree =>
    rcases List.mem_append.mp hcall with hold | hnew
    · exact .inl hold
    · obtain rfl := List.mem_singleton.mp hnew
      refine .inr ⟨n, ⟨rfl, ⟨r, hrun, hphase, rfl⟩, ?_⟩, ?_⟩
      · simp [hfree]
      · rw [ticketAt_setPhase hrun, if_pos rfl]
        rfl
  | collected => exact .inl hcall
  | exited => exact .inl ((PendingCalls.settles_dropGuard hc.table _).mem_waiting.mp hcall).1
  | @pooled event =>
    obtain ⟨selected, s, hsettles, -⟩ := settles_feel hc.table event
    exact .inl (hsettles.mem_waiting.mp hcall).1
  | passed => exact .inl hcall

/-- A ticket that a run holds behind a step was held by it before, or the run registers by the step
and is given the next ticket. -/
theorem Effect.ticketAt_cases (heffect : Effect c event pool pending runs)
    (h : Run.ticketAt runs n = some ticket) :
    Run.ticketAt c.runs n = some ticket ∨
      ticket = c.pending.nextTicket ∧
        ∃ call ∈ pending.waiting, call.ticket = ticket ∧ Registers c event n call := by
  cases heffect with
  | begun request =>
    exact .inl (by simpa using h)
  | moved hrun hmoves =>
    rw [ticketAt_setPhase_of_eq hrun hmoves.ticket] at h
    exact .inl h
  | @registered _ r id hrun hphase hfree =>
    rw [ticketAt_setPhase hrun] at h
    split at h
    case isTrue hn =>
      obtain rfl := Option.some.inj h
      subst hn
      refine .inr ⟨rfl, _, List.mem_append_right _ (List.mem_singleton.mpr rfl), rfl, rfl,
        ⟨r, hrun, hphase, rfl⟩, ?_⟩
      simp [hfree]
    case isFalse => exact .inl h
  | collected hrun hphase =>
    rw [ticketAt_setPhase_of_eq hrun (by rw [hphase]; rfl)] at h
    exact .inl h
  | exited hrun =>
    rw [ticketAt_setPhase hrun] at h
    split at h
    case isTrue => cases h
    case isFalse => exact .inl h
  | pooled => exact .inl h
  | passed => exact .inl h

/-! ## The entry of a call -/

/-- Every run that is registered and on whose ticket nothing came has its entry in the table. -/
def Attached (pending : PendingCalls) (runs : List Run) : Prop :=
  ∀ n connection ticket id, Run.registrationAt runs n = some (connection, ticket) →
    Run.idAt runs n = some id → pending.outcome? ticket = none →
    ⟨id, ticket, connection⟩ ∈ pending.waiting

theorem Attached.exists_call {connection : ConnectionId} (h : Attached pending runs)
    (hregistration : Run.registrationAt runs n = some (connection, ticket))
    (hnone : pending.outcome? ticket = none) :
    ∃ call ∈ pending.waiting, call.ticket = ticket ∧ call.connection = connection := by
  obtain ⟨phase, hphase, -⟩ := Option.bind_eq_some_iff.mp hregistration
  obtain ⟨id, hid⟩ := Run.exists_idAt_of_phaseAt hphase
  exact ⟨_, h n connection ticket id hregistration hid hnone, rfl, rfl⟩

theorem attached_step (hc : Consistent c.pending c.runs) (hattached : Attached c.pending c.runs)
    (h : c.step event = some d) : Attached d.pending d.runs := by
  intro n connection ticket id hregistration hid hnone
  have heffect := effect_of_step h
  rcases registrationAt_of_step h hregistration with hold | ⟨rfl, hphase, -⟩
  · obtain ⟨phase, hphase, -⟩ := Option.bind_eq_some_iff.mp hold
    have hidold := heffect.idAt_of_phaseAt hphase hid
    have hunsettled := heffect.outcome?_eq_none hc hnone
    exact heffect.mem_waiting hc (hattached n connection ticket id hold hidold hunsettled) hnone
  · generalize d.pool = pool, d.pending = pending, d.runs = runs
      at heffect hregistration hid hnone ⊢
    have hticket := Run.ticketAt_of_registrationAt hregistration
    cases heffect with
    | moved hrun hmoves =>
      rw [ticketAt_setPhase_of_eq hrun hmoves.ticket, Run.ticketAt, hphase] at hticket
      cases hticket
    | @registered _ r other hrun hregistering =>
      have hrequest := (idAt_setPhase c n _ n).symm.trans hid
      rw [Run.idAt_of_getElem? hrun] at hrequest
      obtain rfl := Option.some.inj hrequest
      rw [Run.registrationAt, phaseAt_setPhase hrun, if_pos rfl] at hregistration
      cases hregistration
      exact List.mem_append_right _ (List.mem_singleton.mpr rfl)

/-! ## Who registered an entry -/

/-- One of the events came to a client of which something holds. -/
def Happened (config : ClientConfig) (events : List Event) (P : Client → Event → Prop) : Prop :=
  ∃ j b event, (start config).steps (events.take j) = some b ∧ events[j]? = some event ∧ P b event

theorem Happened.append {P : Client → Event → Prop} (h : Happened config events P)
    (event : Event) : Happened config (events ++ [event]) P := by
  obtain ⟨j, b, e, hsteps, he, hP⟩ := h
  have hj : j < events.length := (List.getElem?_eq_some_iff.mp he).1
  refine ⟨j, b, e, ?_, ?_, hP⟩
  · rw [List.take_append_of_le_length (Nat.le_of_lt hj)]
    exact hsteps
  · rw [List.getElem?_append_left hj]
    exact he

theorem happened_last {P : Client → Event → Prop} (hsteps : (start config).steps events = some c)
    (h : P c event) : Happened config (events ++ [event]) P := by
  refine ⟨events.length, c, event, ?_, List.getElem?_concat_length, h⟩
  rw [List.take_left]
  exact hsteps

/-- A run registered a call by one of the events. -/
def RegisteredBy (config : ClientConfig) (events : List Event) (n : RunId) (call : PendingCall) :
    Prop :=
  ∃ j b event, (start config).steps (events.take j) = some b ∧ events[j]? = some event ∧
    Registers b event n call

/-- What the table answers after the first events tells who registers a call by the next one. -/
theorem RegisteredBy.of_take {request : Request} (j : Nat)
    (h : ((start config).steps (events.take j)).map (fun b ↦
      (b.runs[n]?, (b.pending.register call.id call.connection).1)) =
        some (some ⟨request, .registering call.connection⟩, .ok call.ticket))
    (he : events[j]? = some (.run n .register)) (hid : request.id = call.id) :
    RegisteredBy config events n call := by
  obtain ⟨b, hsteps, hanswer⟩ := Option.map_eq_some_iff.mp h
  obtain ⟨hrun, hregister⟩ := Prod.mk.inj hanswer
  exact ⟨j, b, _, hsteps, he, rfl, ⟨_, hrun, rfl, hid⟩, hregister⟩

theorem RegisteredBy.append (h : RegisteredBy config events n call) (event : Event) :
    RegisteredBy config (events ++ [event]) n call :=
  Happened.append h event

/-- What a client did begins with the first events, and goes on with the others. -/
theorem steps_take_drop (h : (start config).steps events = some c) (j : Nat) :
    ∃ b, (start config).steps (events.take j) = some b ∧ b.steps (events.drop j) = some c := by
  rw [← List.take_append_drop j events, steps, List.foldlM_append] at h
  exact Option.bind_eq_some_iff.mp h

/-- Who registered a call is registered under it or has left. -/
theorem RegisteredBy.registeredOrLeft (h : RegisteredBy config events n call)
    (hsteps : (start config).steps events = some c) :
    Run.RegisteredOrLeft c.runs n (call.connection, call.ticket) := by
  obtain ⟨j, b, event, hb, he, rfl, ⟨r, hrun, hphase, hid⟩, hanswer⟩ := h
  obtain ⟨before, hbefore, hrest⟩ := steps_take_drop hsteps j
  obtain rfl := Option.some.inj (hb.symm.trans hbefore)
  obtain ⟨hj, hevent⟩ := List.getElem?_eq_some_iff.mp he
  rw [List.drop_eq_getElem_cons hj, hevent] at hrest
  obtain ⟨behind, hstep, hrest⟩ := Option.bind_eq_some_iff.mp hrest
  refine registeredOrLeft_of_steps ?_ hrest
  obtain ⟨hfree, hticket, -⟩ := PendingCalls.register_ok hanswer
  have hstep : (b.register n r.request call.connection) = behind := by
    have hrunstep : (b.runs[n]?).bind (fun r ↦ b.stepRun n r .register) = some behind := hstep
    rw [hrun] at hrunstep
    simpa [stepRun, hphase] using hrunstep
  rw [register, hid, PendingCalls.register_of_none hfree] at hstep
  refine ⟨.testing call.connection call.ticket, ?_, .inl rfl⟩
  rw [← hstep, hticket]
  exact (phaseAt_setPhase hrun _ n).trans (if_pos rfl)

/-- Every entry belongs to the run that registered it, which still holds its ticket. -/
def Owned (config : ClientConfig) (events : List Event) (c : Client) : Prop :=
  ∀ call ∈ c.pending.waiting, ∃ n, RegisteredBy config events n call ∧
    Run.ticketAt c.runs n = some call.ticket

theorem owned_step (hsteps : (start config).steps events = some c)
    (howned : Owned config events c) (h : c.step event = some d) :
    Owned config (events ++ [event]) d := by
  intro call hcall
  have hc := consistent_of_steps (consistent_start config) hsteps
  have heffect := effect_of_step h
  rcases heffect.waiting_cases hc hcall with hold | ⟨n, hregisters, hticket⟩
  · obtain ⟨n, hregistered, hn⟩ := howned call hold
    obtain ⟨m, hm, -⟩ := (heffect.consistent hc).held call hcall
    have hissued := hc.table.issued call hold
    have holdticket : Run.ticketAt c.runs m = some call.ticket :=
      (heffect.ticketAt_cases hm).resolve_right fun hnew ↦ Nat.ne_of_lt hissued hnew.1
    obtain rfl := hc.distinct n m call.ticket hn holdticket
    exact ⟨n, hregistered.append event, hm⟩
  · exact ⟨n, happened_last hsteps hregisters, hticket⟩

theorem owned_of_steps (h : (start config).steps events = some c) : Owned config events c :=
  steps_induction nofun owned_step h

/-- After any steps of a client, every entry of the table belongs to a run that registered it, sent
its identifier and is not over. Once all runs are over, the table is empty. -/
theorem entry_of_unfinished (h : (start config).steps events = some c) :
    (∀ call ∈ c.pending.waiting, ∃ n r, c.runs[n]? = some r ∧ RegisteredBy config events n call ∧
      r.request.id = call.id ∧ r.phase.ticket? = some call.ticket ∧ ¬ r.IsOver) ∧
    ((∀ r ∈ c.runs, r.IsOver) → c.pending.isEmpty = true) := by
  have hc := consistent_of_steps (consistent_start config) h
  have hentry : ∀ call ∈ c.pending.waiting, ∃ n r, c.runs[n]? = some r ∧
      RegisteredBy config events n call ∧ r.request.id = call.id ∧
      r.phase.ticket? = some call.ticket ∧ ¬ r.IsOver := by
    intro call hcall
    obtain ⟨n, hregistered, hticket⟩ := owned_of_steps h call hcall
    obtain ⟨r, hrun, hid⟩ := Option.map_eq_some_iff.mp (hc.idAt_eq hcall hticket)
    rw [Run.ticketAt_of_getElem? hrun] at hticket
    exact ⟨n, r, hrun, hregistered, hid, hticket, Run.not_isOver_of_ticket? hticket⟩
  refine ⟨hentry, fun hover ↦ ?_⟩
  rw [PendingCalls.isEmpty, List.isEmpty_iff, List.eq_nil_iff_forall_not_mem]
  intro call hcall
  obtain ⟨n, r, hrun, -, -, -, hunfinished⟩ := hentry call hcall
  exact hunfinished (hover r (List.mem_of_getElem? hrun))

/-- Three calls over one connection: the second one has the identifier of the first one and is
refused, the first one is cancelled where it waits, and the third one loses its connection. -/
def abandonedEvents : List Event :=
  [.begin (.call "a" "Hello" "hello" []), .begin (.call "a" "Hello" "hello" []),
      .begin (.call "b" "Hello" "hello" [])] ++
    opening 0 0 (.ok ⟨"::1", 7000⟩) none ++
    [.run 1 (.found (.ok ⟨"::1", 7000⟩)), .pool (.get 1 .find), .pool (.get 1 .lock),
      .run 1 .connected, .run 1 .register,
      .run 2 (.found (.ok ⟨"::1", 7000⟩)), .pool (.get 2 .find), .pool (.get 2 .lock)] ++
    [RunEvent.connected, .register, .test, .queue].map (.run 2) ++
    [RunEvent.cancel, .exit].map (.run 0) ++
    [Pool.ConnectionEvent.turn (.leave .closedByPeer), .deafen, .search, .depart, .finish].map
      (fun event ↦ .pool (.connection 1 event)) ++
    [RunEvent.collect, .exit].map (.run 2)

theorem isEmpty_abandoned : ∃ c, (start .standard).steps abandonedEvents = some c ∧
    (∀ r ∈ c.runs, r.IsOver) ∧ c.pending.isEmpty = true := by
  have hruns : ((start .standard).steps abandonedEvents).map (fun c ↦ c.runs.map Run.phase) =
      some [.over none,
        .over (some (.error (.invalidRequest "Request id a is already in flight"))),
        .over (some (.error (.connection "Connection to [::1]:7000 lost: closed by peer")))] := by
    rfl
  obtain ⟨c, hc, hphases⟩ := Option.map_eq_some_iff.mp hruns
  have hover : ∀ r ∈ c.runs, r.IsOver := by
    intro r hr
    have hphase := List.mem_map_of_mem (f := Run.phase) hr
    rw [hphases] at hphase
    simp only [List.mem_cons, List.not_mem_nil, or_false] at hphase
    rcases hphase with hphase | hphase | hphase
    · exact ⟨_, hphase⟩
    · exact ⟨_, hphase⟩
    · exact ⟨_, hphase⟩
  exact ⟨c, hc, hover, (entry_of_unfinished hc).2 hover⟩

end Client

end FramedRpc
