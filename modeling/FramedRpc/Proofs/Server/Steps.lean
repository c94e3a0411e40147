import FramedRpc.Server.Serving

/-!
# What a step of a server does

The steps of all parties, told by what they do to the sessions, to the tasks and to the workers. A
session moves by itself, except where a worker is reserved for the request that it has read: that is
the only way in which a task of a session begins. A task moves by itself as well, until it hands its
response over to its session.
-/

namespace FramedRpc

/-- The steps that a session makes by itself. -/
inductive Session.Moves (s : Serving) (S : Session) : Serving.SessionEvent → Session → Prop
  | arrived (inbound : Session.Inbound) : Moves s S (.arrive inbound) (S.arrive s.now inbound)
  | read {T : Session} (h : S.read? s.now = some T) : Moves s S .read T
  | refused {order : Session.Order} (hstage : S.stage = .reserving order)
    (hclosed : s.workers.closed = true) : Moves s S .reserve (S.close .workersClosed s.now)
  | wrote {T : Session} (h : S.write? s.server.codec s.now = some T) : Moves s S .write T
  | lost {T : Session} {fault : Fault} (h : S.lose? fault s.now = some T) :
    Moves s S (.lose fault) T
  | woke {T : Session} (h : S.wake? s.now = some T) : Moves s S .wake T
  | quit (hstopping : s.stopping = true) (hopen : S.isOpen = true) :
    Moves s S .quit (S.close .serverStopping s.now)
  | aborted (hshut : s.listening = false) (hopen : S.isOpen = true) :
    Moves s S .abort { S with stage := .aborted }

/-- The steps that a task makes by itself, with the workers behind them. -/
inductive Task.Moves (s : Serving) (t : Task) : Serving.TaskEvent → WorkerPool → Task.Phase → Prop
  | turnedAway (hphase : t.phase = .waiting) (hclosed : s.workers.closed = true) :
    Moves s t .reserve s.workers (.over (some (Dispatcher.turnedAway t.order.request.id)))
  | assigned {workers : WorkerPool} (hphase : t.phase = .waiting)
    (hworkers : s.workers.acquire? = some workers) : Moves s t .reserve workers .reserved
  | cancelled (hphase : t.phase = .waiting) : Moves s t .cancel s.workers (.over none)
  | called (hphase : t.phase = .reserved) : Moves s t .call s.workers .running
  | finished (hphase : t.phase = .running) : Moves s t .finish s.workers.release
    (.answered (Dispatcher.run s.server.catalogue t.order.serializer t.order.request))

namespace Serving

variable {s s' : Serving} {id : SessionId} {S : Session} {task : TaskId} {t : Task} {event : Event}

/-- The server behind a step. -/
inductive Effect (s : Serving) : Event → Serving → Prop
  | accepted (hlistening : s.listening = true) : Effect s .accept
    { s with sessions := s.sessions ++ [.accept s.server.config.idleLimits s.now] }
  | moved {id : SessionId} {S T : Session} {event : SessionEvent} (hS : s.sessions[id]? = some S)
    (hmoves : S.Moves s event T) : Effect s (.session id event) (s.setSession id T)
  | reserved {id : SessionId} {S : Session} {order : Session.Order} {workers : WorkerPool}
    (hS : s.sessions[id]? = some S) (hstage : S.stage = .reserving order)
    (hworkers : s.workers.acquire? = some workers) : Effect s (.session id .reserve)
    (({ s with workers }.begin (some id) order .reserved).setSession id
      { S with stage := .serving }.turn)
  | worked {task : TaskId} {t : Task} {event : TaskEvent} {workers : WorkerPool}
    {phase : Task.Phase} (ht : s.tasks[task]? = some t) (hmoves : t.Moves s event workers phase) :
    Effect s (.task task event) ({ s with workers }.setPhase task phase)
  | delivered {task : TaskId} {t : Task} {response : Option Response}
    (ht : s.tasks[task]? = some t) (hphase : t.phase = .answered response) :
    Effect s (.task task .deliver) ((s.deliver t response).setPhase task (.over response))
  | dispatched (order : Session.Order) : Effect s (.dispatch order)
    (s.begin none order (if order.request.heartbeat then .over none else .waiting))
  | lent {workers : WorkerPool} (hworkers : s.workers.acquire? = some workers) : Effect s .reserve
    { s with workers, reservations := s.reservations + 1 }
  | returned {reservations : Nat} (h : s.reservations = reservations + 1) : Effect s .release
    { s with workers := s.workers.release, reservations }
  | ran {reservations : Nat} (h : s.reservations = reservations + 1) (order : Session.Order) :
    Effect s (.run order) ({ s with reservations }.begin none order .reserved)
  | stopped : Effect s .stop { s with stopping := true }
  | shut (hstopping : s.stopping = true) : Effect s .shut { s with listening := false }
  | passed (milliseconds : Nat) :
    Effect s (.pass milliseconds) { s with now := s.now + milliseconds }

/-! ## Steps of sessions -/

theorem effect_reserve (hS : s.sessions[id]? = some S) (h : s.reserveFor id S = some s') :
    Effect s (.session id .reserve) s' := by
  unfold reserveFor Session.reserved? at h
  cases hstage : S.stage with
  | reserving order =>
    simp only [hstage, Option.bind_eq_bind, Option.bind_some] at h
    split at h
    case isTrue hclosed =>
      obtain rfl := Option.some.inj h
      exact .moved hS (.refused hstage hclosed)
    case isFalse =>
      obtain ⟨workers, hworkers, h⟩ := Option.bind_eq_some_iff.mp h
      obtain rfl := Option.some.inj h
      exact .reserved hS hstage hworkers
  | _ =>
    rw [hstage] at h
    cases h

theorem effect_session {event : SessionEvent} (hS : s.sessions[id]? = some S)
    (h : s.stepSession id S event = some s') : Effect s (.session id event) s' := by
  cases event with
  | arrive inbound =>
    obtain rfl := Option.some.inj h
    exact .moved hS (.arrived inbound)
  | read =>
    obtain ⟨T, hT, h⟩ := Option.bind_eq_some_iff.mp h
    obtain rfl := Option.some.inj h
    exact .moved hS (.read hT)
  | reserve => exact effect_reserve hS h
  | write =>
    obtain ⟨T, hT, h⟩ := Option.bind_eq_some_iff.mp h
    obtain rfl := Option.some.inj h
    exact .moved hS (.wrote hT)
  | lose fault =>
    obtain ⟨T, hT, h⟩ := Option.bind_eq_some_iff.mp h
    obtain rfl := Option.some.inj h
    exact .moved hS (.lost hT)
  | wake =>
    obtain ⟨T, hT, h⟩ := Option.bind_eq_some_iff.mp h
    obtain rfl := Option.some.inj h
    exact .moved hS (.woke hT)
  | quit =>
    obtain ⟨hcondition, h⟩ := Option.ite_none_right_eq_some.mp h
    obtain ⟨hstopping, hopen⟩ := (Bool.and_eq_true _ _).mp hcondition
    obtain rfl := Option.some.inj h
    exact .moved hS (.quit hstopping hopen)
  | abort =>
    obtain ⟨hcondition, h⟩ := Option.ite_none_right_eq_some.mp h
    obtain ⟨hshut, hopen⟩ := (Bool.and_eq_true _ _).mp hcondition
    obtain rfl := Option.some.inj h
    exact .moved hS (.aborted ((Bool.not_eq_true' _).mp hshut) hopen)

/-! ## Steps of tasks -/

theorem effect_task {event : TaskEvent} (ht : s.tasks[task]? = some t)
    (h : s.stepTask task t event = some s') : Effect s (.task task event) s' := by
  cases event with
  | reserve =>
    simp only [stepTask] at h
    split at h
    case h_1 hphase =>
      split at h
      case isTrue hclosed =>
        obtain rfl := Option.some.inj h
        exact .worked ht (.turnedAway hphase hclosed)
      case isFalse =>
        obtain ⟨workers, hworkers, h⟩ := Option.bind_eq_some_iff.mp h
        obtain rfl := Option.some.inj h
        exact .worked ht (.assigned hphase hworkers)
    case h_2 => cases h
  | cancel =>
    simp only [stepTask] at h
    split at h
    case h_1 hphase =>
      obtain rfl := Option.some.inj h
      exact .worked ht (.cancelled hphase)
    case h_2 => cases h
  | call =>
    simp only [stepTask] at h
    split at h
    case h_1 hphase =>
      obtain rfl := Option.some.inj h
      exact .worked ht (.called hphase)
    case h_2 => cases h
  | finish =>
    simp only [stepTask] at h
    split at h
    case h_1 hphase =>
      obtain rfl := Option.some.inj h
      exact .worked ht (.finished hphase)
    case h_2 => cases h
  | deliver =>
    simp only [stepTask] at h
    split at h
    case h_1 response hphase =>
      obtain rfl := Option.some.inj h
      exact .delivered ht hphase
    case h_2 => cases h

/-- What a step does to the sessions, to the tasks and to the workers. -/
theorem effect_of_step (h : s.step event = some s') : Effect s event s' := by
  cases event with
  | accept =>
    obtain ⟨hlistening, h⟩ := Option.ite_none_right_eq_some.mp h
    obtain rfl := Option.some.inj h
    exact .accepted hlistening
  | session id event =>
    obtain ⟨S, hS, h⟩ := Option.bind_eq_some_iff.mp h
    exact effect_session hS h
  | task task event =>
    obtain ⟨t, ht, h⟩ := Option.bind_eq_some_iff.mp h
    exact effect_task ht h
  | dispatch order =>
    obtain rfl := Option.some.inj h
    exact .dispatched order
  | reserve =>
    obtain ⟨workers, hworkers, h⟩ := Option.bind_eq_some_iff.mp h
    obtain rfl := Option.some.inj h
    exact .lent hworkers
  | release =>
    simp only [step] at h
    split at h
    case h_1 => cases h
    case h_2 reservations hreservations =>
      obtain rfl := Option.some.inj h
      exact .returned hreservations
  | run order =>
    simp only [step] at h
    split at h
    case h_1 => cases h
    case h_2 reservations hreservations =>
      obtain rfl := Option.some.inj h
      exact .ran hreservations order
  | stop =>
    obtain rfl := Option.some.inj h
    exact .stopped
  | shut =>
    obtain ⟨hstopping, h⟩ := Option.ite_none_right_eq_some.mp h
    obtain rfl := Option.some.inj h
    exact .shut hstopping
  | pass milliseconds =>
    obtain rfl := Option.some.inj h
    exact .passed milliseconds

end Serving

end FramedRpc
