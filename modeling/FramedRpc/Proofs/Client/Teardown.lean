import FramedRpc.Proofs.Client.Entries
import FramedRpc.Proofs.Client.Operations

/-!
# Calls of a connection that ends

Once a connection has ended, nobody waits for it in vain. A call that was registered against it too
late does not get its request queued, and every call that waits has its outcome. Which of the two it
is hangs on the order in which a connection ends: a request is queued only while there is a queue,
and the calls of the connection fail only after the queue is gone. Calls of other connections are
left alone.
-/

namespace FramedRpc

namespace Client

variable {config : ClientConfig} {events : List Event} {event : Event} {c d : Client} {n : RunId}
  {id : ConnectionId} {connection : Connection}

/-! ## The end of a connection in the table -/

theorem feel_finish {reason : Connection.Reason}
    (hconnection : c.pool.connection? id = some connection)
    (hstage : connection.stage = .departed reason) :
    c.feel (.connection id .finish) =
      (c.pending.failConnection id (connection.lostFault reason)).2 := by
  simp only [feel, hconnection, hstage]

/-- What a connection does apart from reading a response is felt by its own calls at most, which
fail. -/
theorem feel_connection {event : Pool.ConnectionEvent}
    (hread : ∀ r, event ≠ .turn (.receive (.response r))) :
    c.feel (.connection id event) = c.pending ∨
      ∃ fault, c.feel (.connection id event) = (c.pending.failConnection id fault).2 := by
  unfold feel
  split
  case h_1 r heq =>
    cases heq
    exact absurd rfl (hread r)
  case h_2 heq =>
    cases heq
    split
    case h_1 connection _ =>
      split
      case h_1 => exact .inr ⟨_, rfl⟩
      case h_2 => exact .inl rfl
    case h_2 => exact .inl rfl
  case h_3 => exact .inl rfl

theorem pending_of_connection_step {event : Pool.ConnectionEvent}
    (h : c.step (.pool (.connection id event)) = some d) :
    d.pending = c.feel (.connection id event) := by
  obtain ⟨-, -, h⟩ := Option.bind_eq_some_iff.mp h
  obtain ⟨pool, -, h⟩ := Option.bind_eq_some_iff.mp h
  obtain rfl := Option.some.inj h
  rfl

/-! ## Nobody is stranded -/

/-- No run waits without an outcome for a connection that has ended. -/
def Unstranded (c : Client) : Prop :=
  ∀ n id ticket deadline, Run.phaseAt c.runs n = some (.waiting id ticket deadline) →
    c.pool.Ended id → c.pending.outcome? ticket ≠ none

theorem hasQueue_of_ended (h : connection.stage = .ended) : connection.hasQueue = false := by
  rw [Connection.hasQueue, h]

theorem unstranded_step (hc : Consistent c.pending c.runs) (hattached : Attached c.pending c.runs)
    (hunstranded : Unstranded c) (h : c.step event = some d) : Unstranded d := by
  intro n id ticket deadline hphase hended
  have heffect := effect_of_step h
  rcases phaseAt_of_step h hphase with hold | hnone | ⟨old, hold, happroach⟩
  · rcases ended_of_step h hended with hendedold | ⟨rfl, connection, reason, hconnection, hstage⟩
    · exact heffect.outcome?_ne_none hc (hunstranded n id ticket deadline hold hendedold)
    · intro hnone
      obtain ⟨call, hcall, rfl, rfl⟩ := hattached.exists_call (Run.registrationAt_of_phaseAt hold)
        (heffect.outcome?_eq_none hc hnone)
      have hsettles := PendingCalls.settles_failConnection c.pending call.connection
        (connection.lostFault reason)
      have hfailed := hsettles.outcome?_of_selected hc.table hcall (decide_eq_true rfl)
      rw [pending_of_connection_step h, feel_finish hconnection hstage] at hnone
      cases hnone.symm.trans hfailed
  · cases hnone
  · cases happroach with
    | @queued _ _ _ connection hconnection hqueue =>
      rcases ended_of_step h hended with ⟨found, hfound, hstage⟩ | ⟨hevent, -⟩
      · obtain rfl := Option.some.inj (hconnection.symm.trans hfound)
        rw [hasQueue_of_ended hstage] at hqueue
        cases hqueue
      · cases hevent

/-! ## Calls that were forgotten -/

/-- A registered run whose ticket is closed has the identifier of another run. -/
def Rivalled (c : Client) : Prop :=
  ∀ n id ticket, Run.registrationAt c.runs n = some (id, ticket) →
    c.pending.outcome? ticket = some .closed →
    ∃ m ≠ n, ∃ request, Run.idAt c.runs m = some request ∧ Run.idAt c.runs n = some request

theorem rivalled_step (hc : Consistent c.pending c.runs) (hrivalled : Rivalled c)
    (h : c.step event = some d) : Rivalled d := by
  intro n id ticket hregistration hclosed
  have heffect := effect_of_step h
  rcases registrationAt_of_step h hregistration with hold | ⟨rfl, -, rfl⟩
  · have hkept (hclosed : c.pending.outcome? ticket = some .closed) :
        ∃ m ≠ n, ∃ request, Run.idAt d.runs m = some request ∧
          Run.idAt d.runs n = some request := by
      obtain ⟨m, hm, request, hrival, hown⟩ := hrivalled n id ticket hold hclosed
      exact ⟨m, hm, request, heffect.idAt hrival, heffect.idAt hown⟩
    have hticket := Run.ticketAt_of_registrationAt hold
    generalize d.pool = pool, d.pending = pending, d.runs = runs
      at heffect hregistration hclosed hkept ⊢
    have hidAt (m : RunId) (request : String) (h : Run.idAt c.runs m = some request) :
        Run.idAt runs m = some request := heffect.idAt h
    cases heffect with
    | begun => exact hkept hclosed
    | moved => exact hkept hclosed
    | registered => exact hkept hclosed
    | @collected m r _ taken _ _ hrun hphase hs =>
      rw [PendingCalls.outcome?_close] at hclosed
      split at hclosed
      case isTrue htaken =>
        have hm : Run.ticketAt c.runs m = some ticket := by
          rw [Run.ticketAt_of_getElem? hrun, hphase, htaken]
          rfl
        obtain rfl := hc.distinct n m ticket hticket hm
        rw [Run.registrationAt, phaseAt_setPhase hrun, if_pos rfl] at hregistration
        cases hregistration
      case isFalse => exact hkept hclosed
    | @exited m r _ _ hrun hphase =>
      have hsettles := PendingCalls.settles_dropGuard hc.table r.request.id
      rcases hsettles.outcome?_cases hclosed with hbefore | ⟨-, call, hcall, hselected, rfl⟩
      · exact hkept hbefore
      · have hmn : m ≠ n := by
          rintro rfl
          rw [Run.registrationAt, phaseAt_setPhase hrun, if_pos rfl] at hregistration
          cases hregistration
        have hown := hc.idAt_eq hcall hticket
        rw [of_decide_eq_true hselected] at hown
        exact ⟨m, hmn, r.request.id, hidAt m _ (Run.idAt_of_getElem? hrun), hidAt n _ hown⟩
    | @pooled event =>
      obtain ⟨selected, s, hsettles, hfelt⟩ := settles_feel hc.table event
      rcases hsettles.outcome?_cases hclosed with hbefore | ⟨hs, call, -, hselected, -⟩
      · exact hkept hbefore
      · cases hfelt with
        | nothing hnone =>
          rw [hnone] at hselected
          cases hselected
        | response _ _ hdelivered => cases hs.trans hdelivered
        | lost _ _ hdelivered => cases hs.trans hdelivered
    | passed => exact hkept hclosed
  · have hunissued := hc.table.unissued _ (Nat.le_refl c.pending.nextTicket)
    generalize d.pool = pool, d.pending = pending, d.runs = runs at heffect hclosed
    cases heffect with
    | moved => cases hunissued.symm.trans hclosed
    | registered => cases hunissued.symm.trans hclosed

/-! ## What becomes of a call -/

/-- What holds of a client after its steps for the calls of connections that end. -/
structure Orderly (c : Client) : Prop where
  consistent : Consistent c.pending c.runs
  attached : Attached c.pending c.runs
  unstranded : Unstranded c
  rivalled : Rivalled c

theorem orderly_start (config : ClientConfig) : Orderly (start config) where
  consistent := consistent_start config
  attached n _ _ _ h := by cases h
  unstranded n _ _ _ h := by cases h
  rivalled n _ _ h := by cases h

theorem Orderly.step (hc : Orderly c) (h : c.step event = some d) : Orderly d where
  consistent := (effect_of_step h).consistent hc.consistent
  attached := attached_step hc.consistent hc.attached h
  unstranded := unstranded_step hc.consistent hc.attached hc.unstranded h
  rivalled := rivalled_step hc.consistent hc.rivalled h

theorem orderly_of_steps (h : (start config).steps events = some c) : Orderly c :=
  steps_invariant Orderly.step (orderly_start config) h

/-- What becomes of a call whose connection has ended. -/
inductive Fate (c : Client) (n : RunId) (r : Run) (ticket : Ticket) (connection : Connection) : Prop
  /-- The call has its result or gave up. -/
  | left (h : r.phase.hasLeft = true)
  /-- The request of the call is not queued: in its next step it is told that it comes too late. -/
  | unsent {event : RunEvent} (hevent : event = .test ∨ event = .queue)
    (hstep : c.step (.run n event) =
      some (c.leave n ticket (some (.error connection.closedFault))))
  /-- The ticket of the call is settled, and the call takes the response or the fault in its next
  step. It was forgotten only if another run has its identifier. -/
  | answered {s : Settlement} (houtcome : c.pending.outcome? ticket = some s)
    (hstep : c.step (.run n .collect) =
      some ({ c with pending := c.pending.close ticket }.leave n ticket
        (some (s.result r.request))))
    (hforgotten : s = .closed → ∃ m ≠ n, Run.idAt c.runs m = some r.request.id)

section

variable {request : Request} {ticket : Ticket}

/-- Who tests a connection that has ended is told that it comes too late. -/
theorem step_test_of_ended (hrun : c.runs[n]? = some ⟨request, .testing id ticket⟩)
    (hconnection : c.pool.connection? id = some connection) (hended : connection.stage = .ended) :
    c.step (.run n .test) = some (c.leave n ticket (some (.error connection.closedFault))) := by
  have hinactive : ¬ connection.isActive = true := by
    rw [Connection.isActive, hended]
    nofun
  show (c.runs[n]?).bind (fun r ↦ c.stepRun n r .test) = _
  rw [hrun]
  show (c.pool.connection? id).bind (fun found ↦ if found.isActive = true then _ else _) = _
  rw [hconnection]
  exact if_neg hinactive

/-- Whose request is to be queued on a connection that has ended is told that it comes too late. -/
theorem step_queue_of_ended (hrun : c.runs[n]? = some ⟨request, .queueing id ticket⟩)
    (hconnection : c.pool.connection? id = some connection) (hended : connection.stage = .ended) :
    c.step (.run n .queue) = some (c.leave n ticket (some (.error connection.closedFault))) := by
  have hpush : connection.push request = .error connection.closedFault := by
    rw [Connection.push, hasQueue_of_ended hended]
    rfl
  show (c.runs[n]?).bind (fun r ↦ c.stepRun n r .queue) = _
  rw [hrun]
  show (c.pool.connection? id).bind (fun found ↦ some (c.queue n request found ticket)) = _
  rw [hconnection]
  show some (c.queue n request connection ticket) = _
  rw [queue, hpush]

/-- Who waits takes what came on its ticket. -/
theorem step_collect_of_some {deadline : Nat} {s : Settlement}
    (hrun : c.runs[n]? = some ⟨request, .waiting id ticket deadline⟩)
    (hs : c.pending.outcome? ticket = some s) :
    c.step (.run n .collect) = some ({ c with pending := c.pending.close ticket }.leave n ticket
      (some (s.result request))) := by
  show (c.runs[n]?).bind (fun r ↦ c.stepRun n r .collect) = _
  rw [hrun]
  show c.collect n request ticket = _
  rw [collect, PendingCalls.collect_of_some hs]
  cases s with
  | delivered result => rfl
  | closed => rfl

end

/-- A call is not stranded whose connection has ended. -/
theorem fate_of_ended {r : Run} {ticket : Ticket} (hc : Orderly c)
    (hregistered : Run.RegisteredOrLeft c.runs n (id, ticket)) (hrun : c.runs[n]? = some r)
    (hconnection : c.pool.connection? id = some connection) (hended : connection.stage = .ended) :
    Fate c n r ticket connection := by
  obtain ⟨phase, hphase, hregistration⟩ := hregistered
  obtain ⟨request, rphase⟩ := r
  obtain rfl := Option.some.inj ((Run.phaseAt_of_getElem? hrun).symm.trans hphase)
  rcases hregistration with hregistration | hleft
  · have hregistered := (Run.registrationAt_of_phaseAt hphase).trans hregistration
    cases rphase with
    | testing other given =>
      cases hregistration
      exact .unsent (.inl rfl) (step_test_of_ended hrun hconnection hended)
    | queueing other given =>
      cases hregistration
      exact .unsent (.inr rfl) (step_queue_of_ended hrun hconnection hended)
    | waiting other given deadline =>
      cases hregistration
      have hsettled := hc.unstranded n id ticket deadline hphase ⟨connection, hconnection, hended⟩
      obtain ⟨s, hs⟩ := Option.ne_none_iff_exists'.mp hsettled
      refine .answered hs (step_collect_of_some hrun hs) fun hclosed ↦ ?_
      rw [hclosed] at hs
      obtain ⟨m, hm, other, hrival, hown⟩ := hc.rivalled n id ticket hregistered hs
      rw [Run.idAt_of_getElem? hrun] at hown
      exact ⟨m, hm, hrival.trans hown.symm⟩
    | _ => cases hregistration
  · exact .left hleft

/-- A connection that ends leaves the calls of other connections alone: what it does apart from
reading a response neither takes their entries out of the table nor settles their tickets. -/
theorem untouched_of_connection_step {event : Pool.ConnectionEvent} (hc : Orderly c)
    (hread : ∀ r, event ≠ .turn (.receive (.response r)))
    (h : c.step (.pool (.connection id event)) = some d) :
    (∀ call ∈ c.pending.waiting, call.connection ≠ id → call ∈ d.pending.waiting) ∧
    (∀ n other ticket, Run.registrationAt c.runs n = some (other, ticket) → other ≠ id →
      d.pending.outcome? ticket = c.pending.outcome? ticket) := by
  rw [pending_of_connection_step h]
  have hfelt : c.feel (.connection id event) = c.pending ∨
      ∃ fault, c.feel (.connection id event) = (c.pending.failConnection id fault).2 :=
    feel_connection hread
  rcases hfelt with hsame | ⟨fault, hfailed⟩
  · rw [hsame]
    exact ⟨fun call hcall _ ↦ hcall, fun n other ticket _ _ ↦ rfl⟩
  · rw [hfailed]
    have hsettles := PendingCalls.settles_failConnection c.pending id fault
    refine ⟨fun call hcall hother ↦ hsettles.mem_waiting.mpr ⟨hcall, decide_eq_false hother⟩, ?_⟩
    intro n other ticket hregistration hother
    apply PendingCalls.outcome?_failConnection_of_ne
    -- the entry of the run is the only one of its ticket, and it is one of the other connection
    rintro call hcall hconnection rfl
    obtain ⟨entry, hentry, hticket, rfl⟩ := hc.attached.exists_call hregistration
      (hc.consistent.table.unsettled call hcall)
    obtain rfl := hc.consistent.table.eq_of_ticket_eq hentry hcall hticket
    exact hother hconnection

/-- After any steps of a client: whoever registered a call against a connection that has ended since
has left, does not get its request queued, or has a response or a fault to take. And a connection
that ends neither takes away nor fails the calls of another one. -/
theorem not_stranded (h : (start config).steps events = some c) :
    (∀ n call r connection, RegisteredBy config events n call → c.runs[n]? = some r →
      c.pool.connection? call.connection = some connection → connection.stage = .ended →
      Fate c n r call.ticket connection) ∧
    (∀ id event d, (∀ r, event ≠ .turn (.receive (.response r))) →
      c.step (.pool (.connection id event)) = some d →
      (∀ call ∈ c.pending.waiting, call.connection ≠ id → call ∈ d.pending.waiting) ∧
      (∀ n other ticket, Run.registrationAt c.runs n = some (other, ticket) → other ≠ id →
        d.pending.outcome? ticket = c.pending.outcome? ticket)) := by
  have hc := orderly_of_steps h
  exact ⟨fun n call r connection hregistered ↦ fate_of_ended hc (hregistered.registeredOrLeft h),
    fun id event d ↦ untouched_of_connection_step hc⟩

/-- Four calls, three of them over one connection: when that is closed by its peer, the first one
waits, the second one has found the connection active, and the third one has only registered. The
fourth one waits for another connection. -/
def crowdedEvents : List Event :=
  [.begin (.call "a" "Hello" "hello" []), .begin (.call "b" "Hello" "hello" []),
      .begin (.call "c" "Hello" "hello" []), .begin (.call "d" "Bye" "bye" [])] ++
    opening 0 0 (.ok ⟨"::1", 7000⟩) none ++
    [.run 1 (.found (.ok ⟨"::1", 7000⟩)), .pool (.get 1 .find), .pool (.get 1 .lock)] ++
    [RunEvent.connected, .register, .test].map (.run 1) ++
    [.run 2 (.found (.ok ⟨"::1", 7000⟩)), .pool (.get 2 .find), .pool (.get 2 .lock)] ++
    [RunEvent.connected, .register].map (.run 2) ++
    opening 3 3 (.ok ⟨"::1", 7001⟩) none ++
    [Pool.ConnectionEvent.turn (.leave .closedByPeer), .deafen, .search, .depart].map
      fun event ↦ .pool (.connection 1 event)

theorem fates_crowded : ∃ c d connection, (start .standard).steps crowdedEvents = some c ∧
    c.step (.pool (.connection 1 .finish)) = some d ∧
    d.pool.connection? 1 = some connection ∧ connection.stage = .ended ∧
    d.runs.map Run.phase =
      [.waiting 1 0 10000, .queueing 1 1, .testing 1 2, .waiting 2 3 10000] ∧
    (∀ n < 3, ∃ r, d.runs[n]? = some r ∧ Fate d n r n connection) ∧
    d.pending.outcome? 3 = none := by
  let events := crowdedEvents ++ [.pool (.connection 1 .finish)]
  have hpast : ((start .standard).steps crowdedEvents).map (fun c ↦
      (Run.registrationAt c.runs 3, c.pending.outcome? 3)) = some (some (2, 3), none) := by
    rfl
  have hend : ((start .standard).steps events).bind (fun d ↦
      (d.pool.connection? 1).map fun connection ↦ (connection.stage, d.runs.map Run.phase)) =
        some (.ended, [.waiting 1 0 10000, .queueing 1 1, .testing 1 2, .waiting 2 3 10000]) := by
    rfl
  obtain ⟨c, hc, hother⟩ := Option.map_eq_some_iff.mp hpast
  obtain ⟨hregistration, hnone⟩ := Prod.mk.inj hother
  obtain ⟨d, hd, hconnection⟩ := Option.bind_eq_some_iff.mp hend
  obtain ⟨connection, hconnection, hstages⟩ := Option.map_eq_some_iff.mp hconnection
  obtain ⟨hended, hphases⟩ := Prod.mk.inj hstages
  have hstep : c.step (.pool (.connection 1 .finish)) = some d := by
    rw [steps_append, hc] at hd
    exact hd
  have hregistered : ∀ n < 3, ∃ id, RegisteredBy .standard events n ⟨id, n, 1⟩
    | 0, _ => ⟨"a", .of_take 10 rfl rfl rfl⟩
    | 1, _ => ⟨"b", .of_take 17 rfl rfl rfl⟩
    | 2, _ => ⟨"c", .of_take 23 rfl rfl rfl⟩
  refine ⟨c, d, connection, hc, hstep, hconnection, hended, hphases, fun n hn ↦ ?_, ?_⟩
  · obtain ⟨id, hid⟩ := hregistered n hn
    obtain ⟨phase, hphase, -⟩ := hid.registeredOrLeft hd
    obtain ⟨r, hrun, -⟩ := Option.map_eq_some_iff.mp hphase
    exact ⟨r, hrun, (not_stranded hd).1 n ⟨id, n, 1⟩ r connection hid hrun hconnection hended⟩
  · rw [((not_stranded hc).2 1 .finish d nofun hstep).2 3 2 3 hregistration (by decide)]
    exact hnone

end Client

end FramedRpc
