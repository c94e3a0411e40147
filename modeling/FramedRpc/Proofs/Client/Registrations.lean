import FramedRpc.Proofs.Client.Delivery

/-!
# How a call is registered and where it waits

A call is registered against a connection from its registration until it leaves. It gets there only
by its own steps: it registers, it finds its connection active, and it queues its request while the
connection has a queue. As long as nothing came on its ticket it has its entry in the table, under
the identifier of its request and the connection that it uses.
-/

namespace FramedRpc

namespace Run

/-- The connection and the ticket of a call that is registered and has not left. -/
def Phase.registration? : Phase → Option (ConnectionId × Ticket)
  | .testing id ticket | .queueing id ticket | .waiting id ticket _ => some (id, ticket)
  | _ => none

/-- Whether a call has its result or gave up. Its guard is dropped, or has to be. -/
def Phase.hasLeft : Phase → Bool
  | .leaving _ _ | .over _ => true
  | _ => false

theorem Phase.hasLeft_of_registration? {phase : Phase} (h : phase.registration? = none)
    (hearly : phase.isEarly = false) : phase.hasLeft = true := by
  cases phase with
  | looking | getting | registering => cases hearly
  | testing | queueing | waiting => cases h
  | _ => rfl

theorem Phase.isEarly_of_hasLeft {phase : Phase} (h : phase.hasLeft = true) :
    phase.isEarly = false := by
  cases phase with
  | looking | getting | registering | testing | queueing | waiting => cases h
  | _ => rfl

theorem Phase.isEarly_of_registration? {phase : Phase} {registration : ConnectionId × Ticket}
    (h : phase.registration? = some registration) : phase.isEarly = false := by
  cases phase with
  | testing | queueing | waiting => rfl
  | _ => cases h

theorem Phase.ticket?_of_registration? {phase : Phase} {id : ConnectionId} {ticket : Ticket}
    (h : phase.registration? = some (id, ticket)) : phase.ticket? = some ticket := by
  cases phase <;> cases h <;> rfl

/-- The connection and the ticket of a run that is registered and has not left. -/
def registrationAt (runs : List Run) (n : RunId) : Option (ConnectionId × Ticket) :=
  (phaseAt runs n).bind Phase.registration?

variable {runs : List Run} {n : RunId}

theorem registrationAt_of_phaseAt {phase : Phase} (h : phaseAt runs n = some phase) :
    registrationAt runs n = phase.registration? := by
  rw [registrationAt, h]
  rfl

theorem ticketAt_of_registrationAt {id : ConnectionId} {ticket : Ticket}
    (h : registrationAt runs n = some (id, ticket)) : ticketAt runs n = some ticket := by
  obtain ⟨phase, hphase, hregistration⟩ := Option.bind_eq_some_iff.mp h
  rw [ticketAt, hphase]
  exact Phase.ticket?_of_registration? hregistration

theorem exists_idAt_of_phaseAt {phase : Phase} (h : phaseAt runs n = some phase) :
    ∃ id, idAt runs n = some id := by
  obtain ⟨r, hrun, -⟩ := Option.map_eq_some_iff.mp h
  exact ⟨r.request.id, idAt_of_getElem? hrun⟩

theorem exists_phaseAt_of_idAt {id : String} (h : idAt runs n = some id) :
    ∃ phase, phaseAt runs n = some phase := by
  obtain ⟨r, hrun, -⟩ := Option.map_eq_some_iff.mp h
  exact ⟨r.phase, phaseAt_of_getElem? hrun⟩

/-- A run is registered against a connection under a ticket, or it has left. -/
def RegisteredOrLeft (runs : List Run) (n : RunId) (registration : ConnectionId × Ticket) : Prop :=
  ∃ phase, phaseAt runs n = some phase ∧
    (phase.registration? = some registration ∨ phase.hasLeft = true)

end Run

namespace Client

variable {c d : Client} {n : RunId} {r : Run}

/-! ## The way of a call -/

/-- How a call gets to a stage in which it is registered. -/
inductive Approach (c : Client) (n : RunId) : Event → Run.Phase → Run.Phase → Prop
  | registered {id : ConnectionId} :
    Approach c n (.run n .register) (.registering id) (.testing id c.pending.nextTicket)
  | tested {id : ConnectionId} {ticket : Ticket} :
    Approach c n (.run n .test) (.testing id ticket) (.queueing id ticket)
  | queued {id : ConnectionId} {ticket : Ticket} {deadline : Nat} {connection : Connection}
    (hconnection : c.pool.connection? id = some connection) (hqueue : connection.hasQueue = true) :
    Approach c n (.run n .queue) (.queueing id ticket) (.waiting id ticket deadline)

/-- The step of a call takes it to one stage, by which no connection ends. -/
structure Arrives (c : Client) (n : RunId) (event : RunEvent) (old new : Run.Phase) (d : Client) :
    Prop where
  runs : d.runs = (c.setPhase n new).runs
  approach : new.registration? = none ∨ Approach c n (.run n event) old new
  ended : ∀ id, d.pool.Ended id → c.pool.Ended id

/-- A step in which the pool stays the same and the call is not registered behind it. -/
theorem Arrives.of_setPhase {event : RunEvent} {old new : Run.Phase}
    (hnew : new.registration? = none) : Arrives c n event old new (c.setPhase n new) :=
  ⟨rfl, .inl hnew, fun _ h ↦ h⟩

theorem arrives_found {found : Except Fault Endpoint} (h : c.stepRun n r (.found found) = some d) :
    ∃ new, Arrives c n (.found found) r.phase new d := by
  -- opened as it stands, here and below: only the arm of the event is needed
  delta stepRun at h
  dsimp only at h
  split at h
  case h_1 e _ =>
    simp only [ask, Option.bind_eq_bind, Option.bind_eq_some_iff] at h
    obtain ⟨pool, hpool, hd⟩ := h
    obtain rfl := Option.some.inj hd
    refine ⟨_, rfl, .inl rfl, fun id hended ↦ ?_⟩
    rcases Pool.ended_of_step hpool hended with hold | ⟨hevent, -⟩
    · exact hold
    · cases hevent
  case h_2 =>
    obtain rfl := Option.some.inj h
    exact ⟨_, .of_setPhase rfl⟩
  case h_3 => cases h

theorem arrives_connected (h : c.stepRun n r .connected = some d) :
    ∃ new, Arrives c n .connected r.phase new d := by
  delta stepRun at h
  dsimp only at h
  split at h
  case h_1 =>
    simp only [takeConnection, Option.bind_eq_bind, Option.bind_eq_some_iff] at h
    obtain ⟨g, -, h⟩ := h
    split at h
    case h_1 =>
      obtain rfl := Option.some.inj h
      exact ⟨_, .of_setPhase rfl⟩
    case h_2 =>
      obtain rfl := Option.some.inj h
      exact ⟨_, .of_setPhase rfl⟩
    case h_3 => cases h
  case h_2 => cases h

theorem arrives_register (h : c.stepRun n r .register = some d) :
    ∃ new, Arrives c n .register r.phase new d := by
  delta stepRun at h
  dsimp only at h
  split at h
  case h_1 id hphase =>
    obtain rfl := Option.some.inj h
    unfold register
    cases hfind : c.pending.find? r.request.id with
    | none =>
      rw [PendingCalls.register_of_none hfind, hphase]
      exact ⟨_, rfl, .inr .registered, fun _ hended ↦ hended⟩
    | some call =>
      rw [PendingCalls.register_of_some hfind]
      exact ⟨_, rfl, .inl rfl, fun _ hended ↦ hended⟩
  case h_2 => cases h

theorem arrives_test (h : c.stepRun n r .test = some d) :
    ∃ new, Arrives c n .test r.phase new d := by
  delta stepRun at h
  dsimp only at h
  split at h
  case h_1 id ticket hphase =>
    simp only [Option.bind_eq_bind, Option.bind_eq_some_iff] at h
    obtain ⟨connection, -, h⟩ := h
    split at h
    case isTrue =>
      obtain rfl := Option.some.inj h
      rw [hphase]
      exact ⟨_, rfl, .inr .tested, fun _ hended ↦ hended⟩
    case isFalse =>
      obtain rfl := Option.some.inj h
      exact ⟨_, .of_setPhase rfl⟩
  case h_2 => cases h

theorem arrives_queue (h : c.stepRun n r .queue = some d) :
    ∃ new, Arrives c n .queue r.phase new d := by
  delta stepRun at h
  dsimp only at h
  split at h
  case h_1 id ticket hphase =>
    simp only [Option.bind_eq_bind, Option.bind_eq_some_iff] at h
    obtain ⟨connection, hconnection, h⟩ := h
    obtain rfl := Option.some.inj h
    obtain rfl := Pool.id_of_connection? hconnection
    unfold queue Connection.push
    by_cases hqueue : connection.hasQueue = true
    · rw [if_pos hqueue, hphase]
      refine ⟨_, rfl, .inr (.queued hconnection hqueue), fun id hended ↦ ?_⟩
      exact hended.of_setConnection hconnection rfl rfl
    · rw [if_neg hqueue]
      exact ⟨_, .of_setPhase rfl⟩
  case h_2 => cases h

theorem arrives_collect (h : c.stepRun n r .collect = some d) :
    ∃ new, Arrives c n .collect r.phase new d := by
  delta stepRun at h
  dsimp only at h
  split at h
  case h_1 =>
    unfold collect at h
    split at h
    case h_1 => cases h
    case h_2 =>
      obtain rfl := Option.some.inj h
      exact ⟨_, rfl, .inl rfl, fun _ hended ↦ hended⟩
    case h_3 =>
      obtain rfl := Option.some.inj h
      exact ⟨_, rfl, .inl rfl, fun _ hended ↦ hended⟩
  case h_2 => cases h

theorem arrives_timeout (h : c.stepRun n r .timeout = some d) :
    ∃ new, Arrives c n .timeout r.phase new d := by
  delta stepRun at h
  dsimp only at h
  split at h
  case h_1 =>
    split at h
    case isTrue =>
      obtain rfl := Option.some.inj h
      exact ⟨_, .of_setPhase rfl⟩
    case isFalse => cases h
  case h_2 => cases h

theorem arrives_cancel (h : c.stepRun n r .cancel = some d) :
    ∃ new, Arrives c n .cancel r.phase new d := by
  delta stepRun at h
  dsimp only at h
  split at h
  case h_1 =>
    obtain rfl := Option.some.inj h
    exact ⟨_, .of_setPhase rfl⟩
  case h_2 =>
    simp only [Option.bind_eq_bind, Option.bind_eq_some_iff] at h
    obtain ⟨pool, hpool, h⟩ := h
    obtain rfl := Option.some.inj h
    refine ⟨_, rfl, .inl rfl, fun id hended ↦ ?_⟩
    rcases Pool.ended_of_step hpool hended with hold | ⟨hevent, -⟩
    · exact hold
    · cases hevent
  case h_3 =>
    obtain rfl := Option.some.inj h
    exact ⟨_, .of_setPhase rfl⟩
  case h_4 => cases h

theorem arrives_exit (h : c.stepRun n r .exit = some d) :
    ∃ new, Arrives c n .exit r.phase new d := by
  delta stepRun at h
  dsimp only at h
  split at h
  case h_1 =>
    obtain rfl := Option.some.inj h
    exact ⟨_, rfl, .inl rfl, fun _ hended ↦ hended⟩
  case h_2 => cases h

theorem arrives_of_stepRun {event : RunEvent} (h : c.stepRun n r event = some d) :
    ∃ new, Arrives c n event r.phase new d := by
  cases event with
  | found result => exact arrives_found h
  | connected => exact arrives_connected h
  | register => exact arrives_register h
  | test => exact arrives_test h
  | queue => exact arrives_queue h
  | collect => exact arrives_collect h
  | timeout => exact arrives_timeout h
  | cancel => exact arrives_cancel h
  | exit => exact arrives_exit h

/-- The stage of a run behind a step: it had it before, or it is not registered in it, or it got
there by its own step. -/
theorem phaseAt_of_step {event : Event} {phase : Run.Phase} (h : c.step event = some d)
    (hphase : Run.phaseAt d.runs n = some phase) :
    Run.phaseAt c.runs n = some phase ∨ phase.registration? = none ∨
      ∃ old, Run.phaseAt c.runs n = some old ∧ Approach c n event old phase := by
  cases event with
  | begin request =>
    obtain rfl := Option.some.inj h
    rw [Run.phaseAt_append] at hphase
    split at hphase
    case isTrue =>
      obtain rfl := Option.some.inj hphase
      exact .inr (.inl rfl)
    case isFalse => exact .inl hphase
  | run m event =>
    obtain ⟨r, hrun, h⟩ := Option.bind_eq_some_iff.mp h
    obtain ⟨new, hruns, happroach, -⟩ := arrives_of_stepRun h
    rw [hruns, phaseAt_setPhase hrun] at hphase
    split at hphase
    case isTrue hn =>
      obtain rfl := Option.some.inj hphase
      subst hn
      exact .inr (happroach.imp_right fun hnew ↦ ⟨r.phase, Run.phaseAt_of_getElem? hrun, hnew⟩)
    case isFalse => exact .inl hphase
  | pool event =>
    obtain ⟨-, -, h⟩ := Option.bind_eq_some_iff.mp h
    obtain ⟨pool, -, h⟩ := Option.bind_eq_some_iff.mp h
    obtain rfl := Option.some.inj h
    exact .inl hphase
  | pass milliseconds =>
    obtain rfl := Option.some.inj h
    exact .inl hphase

/-- A run that is registered behind a step was so before, or registers by this step under the next
ticket. -/
theorem registrationAt_of_step {event : Event} {id : ConnectionId} {ticket : Ticket}
    (h : c.step event = some d) (hregistration : Run.registrationAt d.runs n = some (id, ticket)) :
    Run.registrationAt c.runs n = some (id, ticket) ∨
      event = .run n .register ∧ Run.phaseAt c.runs n = some (.registering id) ∧
        ticket = c.pending.nextTicket := by
  obtain ⟨phase, hphase, hnew⟩ := Option.bind_eq_some_iff.mp hregistration
  rcases phaseAt_of_step h hphase with hold | hnone | ⟨old, hold, happroach⟩
  · exact .inl ((Run.registrationAt_of_phaseAt hold).trans hnew)
  · rw [hnone] at hnew
    cases hnew
  · cases happroach with
    | registered =>
      cases hnew
      exact .inr ⟨rfl, hold, rfl⟩
    | tested => exact .inl ((Run.registrationAt_of_phaseAt hold).trans hnew)
    | queued => exact .inl ((Run.registrationAt_of_phaseAt hold).trans hnew)

/-- Who is registered stays so under its connection and its ticket until it leaves, and then does
not come back. -/
theorem registeredOrLeft_step {event : Event} {registration : ConnectionId × Ticket}
    (hregistered : Run.RegisteredOrLeft c.runs n registration) (h : c.step event = some d) :
    Run.RegisteredOrLeft d.runs n registration := by
  obtain ⟨old, hold, hregistration⟩ := hregistered
  have hnotearly : old.isEarly = false := by
    rcases hregistration with hregistration | hleft
    · exact Run.Phase.isEarly_of_registration? hregistration
    · exact Run.Phase.isEarly_of_hasLeft hleft
  have heffect := effect_of_step h
  obtain ⟨request, hrequest⟩ := Run.exists_idAt_of_phaseAt hold
  obtain ⟨new, hnew⟩ := Run.exists_phaseAt_of_idAt (heffect.idAt hrequest)
  refine ⟨new, hnew, ?_⟩
  rcases phaseAt_of_step h hnew with hsame | hnone | ⟨before, hbefore, happroach⟩
  · obtain rfl := Option.some.inj (hold.symm.trans hsame)
    exact hregistration
  · right
    refine Run.Phase.hasLeft_of_registration? hnone (Bool.eq_false_iff.mpr fun hearly ↦ ?_)
    have hwasearly : Run.EarlyAt d.runs n := by
      intro phase hphase
      rw [Option.some.inj (hphase.symm.trans hnew)]
      exact hearly
    rw [heffect.early hwasearly old hold] at hnotearly
    cases hnotearly
  · obtain rfl := Option.some.inj (hold.symm.trans hbefore)
    cases happroach with
    | registered => cases hnotearly
    | tested => exact hregistration
    | queued => exact hregistration

theorem registeredOrLeft_of_steps {events : List Event} {registration : ConnectionId × Ticket}
    (hregistered : Run.RegisteredOrLeft c.runs n registration) (h : c.steps events = some d) :
    Run.RegisteredOrLeft d.runs n registration := by
  refine steps_invariant (P := fun c ↦ Run.RegisteredOrLeft c.runs n registration) ?_ hregistered h
  intro c d event hregistered hstep
  exact registeredOrLeft_step hregistered hstep

/-- A connection that has ended behind a step had ended before, or ends by its own last step. -/
theorem ended_of_step {event : Event} {id : ConnectionId} (h : c.step event = some d)
    (hended : d.pool.Ended id) :
    c.pool.Ended id ∨ event = .pool (.connection id .finish) ∧
      ∃ connection reason, c.pool.connection? id = some connection ∧
        connection.stage = .departed reason := by
  cases event with
  | begin request =>
    obtain rfl := Option.some.inj h
    exact .inl hended
  | run m event =>
    obtain ⟨r, -, h⟩ := Option.bind_eq_some_iff.mp h
    obtain ⟨new, -, -, hpool⟩ := arrives_of_stepRun h
    exact .inl (hpool id hended)
  | pool event =>
    obtain ⟨-, -, h⟩ := Option.bind_eq_some_iff.mp h
    obtain ⟨pool, hpool, h⟩ := Option.bind_eq_some_iff.mp h
    obtain rfl := Option.some.inj h
    exact (Pool.ended_of_step hpool hended).imp_right fun ⟨hevent, hdeparted⟩ ↦
      ⟨congrArg Event.pool hevent, hdeparted⟩
  | pass milliseconds =>
    obtain rfl := Option.some.inj h
    exact .inl hended

end Client

end FramedRpc
