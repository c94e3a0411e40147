import FramedRpc.Proofs.Server.Tasks

/-!
# Which requests are answered

The tasks of a session are those of the requests that it has read, and each of them hands one
response over when it is over. What the methods do is left open here, also whether they answer twice
in the same way: the services behind a step may be others than those behind the step before.
-/

namespace FramedRpc

namespace Serving

variable {s s' : Serving} {id : SessionId} {S : Session} {k : TaskId} {t : Task}
  {phase : Task.Phase} {event : Event} {events : List Event}

/-! ## What a step preserves -/

/-- The request that a step brings to a session, if it brings one. -/
def Event.orderFor (event : Event) (id : SessionId) : Option Session.Order :=
  match event with
  | .session other event => if other = id then event.order? else none
  | _ => none

theorem heartbeat_of_orderFor {order : Session.Order} (h : event.orderFor id = some order) :
    order.request.heartbeat = false := by
  unfold Event.orderFor SessionEvent.order? at h
  split at h
  case h_1 =>
    obtain ⟨-, h⟩ := Option.ite_none_right_eq_some.mp h
    split at h
    case h_1 inbound => exact Session.heartbeat_of_order? h
    case h_2 => cases h
  case h_2 => cases h

/-- The requests that arrived over the connection of a session, heartbeats apart, in order. -/
def asked (id : SessionId) (events : List Event) : List Session.Order :=
  events.filterMap (·.orderFor id)

/-- The accounts of all sessions are balanced, and the tasks of sessions are to answer. -/
structure Accounted (events : List Event) (s : Serving) : Prop where
  requests : ∀ id, asked id events = (s.sessions[id]?).elim [] Session.requests
  balanced : ∀ (id : SessionId) (S : Session), s.sessions[id]? = some S →
    S.Balanced (s.taken id) (s.answered id)
  due : ∀ t ∈ s.tasks, ∀ id, t.session = some id → t.Due ∧ id < s.sessions.length

theorem accounted_start (server : Server) : Accounted [] (start server) where
  requests _ := rfl
  balanced _ _ h := by cases h
  due := nofun

/-- Nothing was taken on for a session that does not exist. -/
theorem Accounted.taken_eq_nil (h : Accounted events s) (hid : s.sessions.length ≤ id) :
    s.taken id = [] := by
  rw [taken, List.filterMap_eq_nil_iff]
  intro t ht
  exact if_neg fun hsession ↦ absurd (h.due t ht id hsession).2 (Nat.not_lt_of_le hid)

theorem Accounted.answered_eq_nil (h : Accounted events s) (hid : s.sessions.length ≤ id) :
    s.answered id = [] := by
  rw [answered, List.filterMap_eq_nil_iff]
  intro t ht
  exact if_neg fun hsession ↦ absurd (h.due t ht id hsession.1).2 (Nat.not_lt_of_le hid)

/-- A request that was read is no sign of life. -/
theorem Accounted.heartbeat (h : Accounted events s) (hS : s.sessions[id]? = some S)
    {order : Session.Order} (horder : order ∈ S.orders) : order.request.heartbeat = false := by
  have hrequests := h.requests id
  rw [hS] at hrequests
  have hasked : order ∈ asked id events := by
    rw [hrequests]
    exact List.mem_append_left _ horder
  obtain ⟨event, -, hevent⟩ := List.mem_filterMap.mp hasked
  exact heartbeat_of_orderFor hevent

/-- A task hands its response over to its session and to no other one, and the response has the
identifier of its request. -/
theorem Accounted.getElem?_deliver {response : Option Response} (h : Accounted events s)
    (ht : s.tasks[k]? = some t) (hphase : t.phase = .answered response) (id : SessionId) :
    t.session ≠ some id ∧ (s.deliver t response).sessions[id]? = s.sessions[id]? ∨
      t.session = some id ∧ ∃ S r, s.sessions[id]? = some S ∧ r.id = t.order.request.id ∧
        (s.deliver t response).sessions[id]? = some (S.queue ⟨t.order.serializer, r⟩) := by
  by_cases hsession : t.session = some id
  case pos =>
    obtain ⟨hdue, hid⟩ := h.due t (List.mem_of_getElem? ht) id hsession
    obtain ⟨r, rfl, hr⟩ := hdue.answered response hphase
    have hS := List.getElem?_eq_getElem hid
    refine .inr ⟨hsession, s.sessions[id], r, hS, hr, ?_⟩
    unfold deliver
    rw [hsession]
    show (s.sessions.modify id _)[id]? = _
    rw [List.getElem?_modify_eq, hS]
    rfl
  case neg =>
    refine .inl ⟨hsession, ?_⟩
    unfold deliver
    split
    case h_1 other r hother =>
      have hne : other ≠ id := fun heq ↦ hsession (heq ▸ hother)
      exact List.getElem?_modify_ne _ _ hne
    case h_2 => rfl

/-- A step that a task makes by itself is no answer. -/
theorem Accounted.answered_worked {event : TaskEvent} {workers : WorkerPool} (h : Accounted events s)
    (ht : s.tasks[k]? = some t) (hmoves : t.Moves s event workers phase) (id : SessionId) :
    ((s.setPhase k phase).answered id).Perm (s.answered id) := by
  -- no task of a session is turned away or cancelled, and the other steps lead to the handing over
  have hkey : Task.keyFor { t with phase } id = none := by
    refine if_neg fun hover ↦ ?_
    have hdue := (h.due t (List.mem_of_getElem? ht) id hover.1).1
    exact absurd hover.2 (Bool.eq_false_iff.mp (due_of_moves hdue hmoves).2)
  have hperm := answered_setPhase ht (isOver_of_moves hmoves) phase id
  rw [hkey] at hperm
  exact hperm

/-! ### Requests -/

@[simp]
theorem asked_concat (id : SessionId) (events : List Event) (event : Event) :
    asked id (events ++ [event]) = asked id events ++ (event.orderFor id).toList :=
  filterMap_concat _ events event

theorem asked_concat_of_none (h : event.orderFor id = none) :
    asked id (events ++ [event]) = asked id events := by
  simp [h]

@[simp]
theorem orderFor_session (changed id : SessionId) (event : SessionEvent) :
    (Event.session changed event).orderFor id = if changed = id then event.order? else none :=
  rfl

/-- What arrived for the sessions, where one of them changes. -/
theorem Accounted.requests_setSession {T : Session} {changed : SessionId} {event : SessionEvent}
    (h : Accounted events s) (hS : s.sessions[changed]? = some S)
    (hT : T.requests = S.requests ++ event.order?.toList) (id : SessionId) :
    asked id (events ++ [.session changed event]) =
      ((s.sessions.set changed T)[id]?).elim [] Session.requests := by
  have hrequests := h.requests id
  rw [getElem?_set_of_some hS]
  by_cases hid : changed = id
  · subst hid
    simp [hrequests, hS, hT]
  · simp [hrequests, hid]

/-- What arrived for a session was read or is to be read, behind a step as before. -/
theorem Effect.requests (heffect : Effect s event s') (h : Accounted events s) (id : SessionId) :
    asked id (events ++ [event]) = (s'.sessions[id]?).elim [] Session.requests := by
  cases heffect with
  | accepted =>
    rw [asked_concat_of_none rfl, h.requests id, getElem?_concat]
    split
    case isTrue hid =>
      rw [List.getElem?_eq_none (Nat.le_of_eq hid.symm)]
      simp
    case isFalse => rfl
  | moved hS hmoves => exact h.requests_setSession hS hmoves.requests id
  | reserved hS hstage hworkers =>
    refine h.requests_setSession hS ?_ id
    rw [Session.requests_turn]
    exact (List.append_nil _).symm
  | delivered ht hphase =>
    rw [asked_concat_of_none rfl, h.requests id]
    show _ = ((s.deliver _ _).sessions[id]?).elim [] Session.requests
    rcases h.getElem?_deliver ht hphase id with ⟨-, hsame⟩ | ⟨-, S, r, hS, -, hqueue⟩
    · rw [hsame]
    · rw [hS, hqueue]
      simp
  | _ =>
    rw [asked_concat_of_none rfl]
    exact h.requests id

/-! ### Accounts -/

/-- The account of a session is balanced behind a step as before. -/
theorem Effect.balanced (heffect : Effect s event s') (h : Accounted events s) (id : SessionId)
    (U : Session) (hU : s'.sessions[id]? = some U) : U.Balanced (s'.taken id) (s'.answered id) := by
  cases heffect with
  | accepted =>
    rw [getElem?_concat] at hU
    split at hU
    case isTrue hid =>
      obtain rfl := Option.some.inj hU
      show Session.Balanced _ (s.taken id) (s.answered id)
      rw [h.taken_eq_nil (Nat.le_of_eq hid.symm), h.answered_eq_nil (Nat.le_of_eq hid.symm)]
      exact Session.balanced_accept _ _
    case isFalse => exact h.balanced id U hU
  | @moved changed S T event hS hmoves =>
    show U.Balanced (s.taken id) (s.answered id)
    replace hU : (s.sessions.set changed T)[id]? = some U := hU
    rw [getElem?_set_of_some hS] at hU
    split at hU
    case isTrue hid =>
      obtain rfl := Option.some.inj hU
      exact (h.balanced id S (hid ▸ hS)).moves hmoves
    case isFalse => exact h.balanced id U hU
  | @reserved changed S order workers hS hstage hworkers =>
    show U.Balanced ((s.begin (some changed) order .reserved).taken id)
      ((s.begin (some changed) order .reserved).answered id)
    rw [taken_begin, answered_begin]
    replace hU : (s.sessions.set changed { S with stage := .serving }.turn)[id]? = some U := hU
    rw [getElem?_set_of_some hS] at hU
    split at hU
    case isTrue hid =>
      obtain rfl := Option.some.inj hU
      subst hid
      have hreserved := (h.balanced changed S hS).reserved hstage
      simpa [Task.orderFor, Task.keyFor, Task.isOver] using hreserved
    case isFalse hid =>
      have hbalanced := h.balanced id U hU
      simpa [Task.orderFor, Task.keyFor, hid] using hbalanced
  | @worked k t event workers phase ht hmoves =>
    show U.Balanced ((s.setPhase k phase).taken id) ((s.setPhase k phase).answered id)
    rw [taken_setPhase]
    exact (h.balanced id U hU).congr (h.answered_worked ht hmoves id).symm
  | @delivered k t response ht hphase =>
    have hperm := answered_delivered ht hphase id
    rw [taken_setPhase, taken_deliver]
    replace hU : (s.deliver t response).sessions[id]? = some U := hU
    -- the key of the task comes in addition, together with the reply that has the same key
    rcases h.getElem?_deliver ht hphase id with ⟨hother, hsame⟩ | ⟨hsession, S, r, hS, hr, hqueue⟩
    · have hkey : Task.keyFor { t with phase := .over response } id = none :=
        if_neg fun hover ↦ hother hover.1
      rw [hkey] at hperm
      exact (h.balanced id U (hsame.symm.trans hU)).congr hperm.symm
    · have hkey : Task.keyFor { t with phase := .over response } id =
          some (Session.Reply.key ⟨t.order.serializer, r⟩) := by
        rw [Session.Reply.key, hr]
        exact if_pos ⟨hsession, rfl⟩
      rw [hkey] at hperm
      obtain rfl := Option.some.inj (hqueue.symm.trans hU)
      exact ((h.balanced id S hS).queue _).congr hperm.symm
  | dispatched order => simpa using h.balanced id U hU
  | ran hreservations order =>
    rw [taken_begin_none, answered_begin_none]
    exact h.balanced id U hU
  | _ => exact h.balanced id U hU

/-- The tasks of sessions are to answer behind a step as before. -/
theorem Effect.due (heffect : Effect s event s') (h : Accounted events s) (u : Task)
    (hu : u ∈ s'.tasks) (id : SessionId) (hsession : u.session = some id) :
    u.Due ∧ id < s'.sessions.length := by
  cases heffect with
  | accepted =>
    obtain ⟨hdue, hid⟩ := h.due u hu id hsession
    refine ⟨hdue, ?_⟩
    rw [List.length_append]
    exact Nat.lt_add_right _ hid
  | moved hS hmoves =>
    show _ ∧ id < (s.sessions.set _ _).length
    rw [List.length_set]
    exact h.due u hu id hsession
  | @reserved changed S order workers hS hstage hworkers =>
    show _ ∧ id < (s.sessions.set _ _).length
    rw [List.length_set]
    rcases List.mem_append.mp hu with hold | hnew
    · exact h.due u hold id hsession
    · obtain rfl := List.mem_singleton.mp hnew
      obtain rfl := Option.some.inj hsession
      have horder : order ∈ S.orders := by
        rw [← (h.balanced changed S hS).orders_of_reserving hstage]
        exact List.mem_append_right _ (List.mem_singleton.mpr rfl)
      exact ⟨⟨h.heartbeat hS horder, nofun, nofun⟩, (List.getElem?_eq_some_iff.mp hS).1⟩
  | worked ht hmoves =>
    rcases mem_setPhase hu with hold | ⟨t, ht', rfl⟩
    · exact h.due u hold id hsession
    · obtain rfl := Option.some.inj (ht.symm.trans ht')
      obtain ⟨hdue, hid⟩ := h.due _ (List.mem_of_getElem? ht) id hsession
      exact ⟨(due_of_moves hdue hmoves).1, hid⟩
  | @delivered k t response ht hphase =>
    show _ ∧ id < (s.deliver t response).sessions.length
    rw [length_sessions_deliver]
    rcases mem_setPhase hu with hold | ⟨v, hv, rfl⟩
    · exact h.due u (by simpa using hold) id hsession
    · rw [tasks_deliver, ht] at hv
      obtain rfl := Option.some.inj hv
      obtain ⟨hdue, hid⟩ := h.due t (List.mem_of_getElem? ht) id hsession
      exact ⟨⟨hdue.call, nofun, nofun⟩, hid⟩
  | dispatched => exact h.due u (mem_of_mem_begin_none hu hsession) id hsession
  | ran => exact h.due u (mem_of_mem_begin_none hu hsession) id hsession
  | _ => exact h.due u hu id hsession

theorem Accounted.step (h : Accounted events s) (hstep : s.step event = some s') :
    Accounted (events ++ [event]) s' := by
  have heffect := effect_of_step hstep
  exact ⟨heffect.requests h, heffect.balanced h, heffect.due h⟩

/-! ## What a server does -/

/-- One step of some party, with the services as they then are. -/
def stepWith (s : Serving) (catalogue : Catalogue) (event : Event) : Option Serving :=
  { s with server := { s.server with catalogue } }.step event

/-- Takes steps one after the other, all of which have to be possible, each with the services as
they then are. -/
def stepsWith (s : Serving) (steps : List (Catalogue × Event)) : Option Serving :=
  steps.foldlM (fun s step ↦ s.stepWith step.1 step.2) s

theorem Accounted.stepsWith {steps : List (Catalogue × Event)} (h : Accounted events s)
    (hsteps : s.stepsWith steps = some s') : Accounted (events ++ steps.map Prod.snd) s' := by
  induction steps generalizing events s with
  | nil =>
    obtain rfl := Option.some.inj hsteps
    rw [List.map_nil, List.append_nil]
    exact h
  | cons step steps ih =>
    obtain ⟨catalogue, event⟩ := step
    obtain ⟨b, hb, hsteps⟩ := Option.bind_eq_some_iff.mp hsteps
    have hchanged : Accounted events { s with server := { s.server with catalogue } } :=
      ⟨h.requests, h.balanced, h.due⟩
    have hbehind := ih (hchanged.step hb) hsteps
    rw [List.append_assoc] at hbehind
    exact hbehind

/-- What a session has done after some events. -/
structure Conduct (events : List Event) (s : Serving) (id : SessionId) (S : Session) : Prop where
  /-- The requests that were read are the first ones that arrived over this connection. -/
  requests : asked id events =
    S.orders ++ S.inbox.filterMap fun arrival ↦ arrival.inbound.order?
  heartbeat : ∀ order ∈ S.orders, order.request.heartbeat = false
  /-- Tasks are started, and workers waited for, once for each request that was read, in order. -/
  taken : s.taken id ++ S.waiting <+: S.orders
  /-- A heartbeat or a response is passed over: nothing changes but in the session that reads it,
  which only notes that the peer is alive. -/
  passed : ∀ (f : Frame) (time : Nat) (rest : List Session.Arrival), S.isServing = true →
    S.inbox = ⟨time, .frame f⟩ :: rest → (∀ r, f.message = .request r → r.heartbeat = true) →
    s.step (.session id .read) = some (s.setSession id
      { S with inbox := rest, liveness := S.liveness.recordRead s.now }.turn)
  /-- The replies that were written answer requests that were read, each of them another one. -/
  replies : ∃ answered, List.Forall₂ Session.Reply.Answers S.written answered ∧
    answered.Subperm S.orders
  /-- At rest every request that was read is answered. -/
  drained : S.isServing = true → (∀ t ∈ s.tasks, t.session = some id → t.isOver = true) →
    S.outbox = [] → ∃ answered, List.Forall₂ Session.Reply.Answers S.written answered ∧
      answered.Perm S.orders

/-- After any steps of a server, whatever its services are and do: a session answers only requests
that it has read, none of them twice, and at rest it has answered all of them. Heartbeats and
responses are passed over. -/
theorem answered_once {server : Server} {steps : List (Catalogue × Event)}
    (h : (start server).stepsWith steps = some s) (hS : s.sessions[id]? = some S) :
    Conduct (steps.map Prod.snd) s id S := by
  have haccounted : Accounted (steps.map Prod.snd) s := (accounted_start server).stepsWith h
  have hbalanced := haccounted.balanced id S hS
  refine
    { requests := ?requests
      heartbeat := fun order ↦ haccounted.heartbeat hS
      taken := hbalanced.taken_waiting
      passed := ?passed
      replies := ?replies
      drained := ?drained }
  case requests =>
    have hrequests := haccounted.requests id
    rw [hS] at hrequests
    exact hrequests
  case passed =>
    intro f time rest hserving hinbox hsign
    show (s.sessions[id]?).bind (fun S ↦ s.stepSession id S .read) = _
    rw [hS]
    show (S.read? s.now).bind (fun T ↦ some (s.setSession id T)) = _
    rw [Session.read?_of_none hserving hinbox (Session.order?_of_heartbeat hsign)]
    rfl
  case replies =>
    have hwritten : (S.written.map Session.Reply.key).Subperm (s.answered id) :=
      ((List.sublist_append_left _ _).map _).subperm.trans hbalanced.replies
    have htaken : (s.answered id).Subperm (S.orders.map Session.Order.key) :=
      ((answered_sublist s id).trans (hbalanced.started.sublist.map _)).subperm
    obtain ⟨answered, hmatched, hsubperm⟩ := exists_forall₂_of_subperm (hwritten.trans htaken)
    exact ⟨answered, hmatched.imp fun r order ↦ (r.answers_iff order).mpr, hsubperm⟩
  case drained =>
    intro hserving hover houtbox
    have hopen := Session.isOpen_of_isServing hserving
    have htaken : s.taken id = S.orders := by
      simpa [hserving] using hbalanced.waiting hopen
    have hwritten : (S.written.map Session.Reply.key).Perm (S.orders.map Session.Order.key) := by
      have hperm := hbalanced.drained hopen
      rw [houtbox, List.append_nil, answered_of_isOver hover, htaken] at hperm
      exact hperm
    obtain ⟨answered, hmatched, hperm⟩ := exists_forall₂_of_perm hwritten
    exact ⟨answered, hmatched.imp fun r order ↦ (r.answers_iff order).mpr, hperm⟩

/-- A service whose only method breaks off. -/
def frailHandler : Handler where
  service := "Frail"
  methods := [⟨"break", []⟩]
  call _ _ := .panicked "broken"

/-- Two connections. Over the first one come a heartbeat, a response and a call of the method that
breaks off, and over the second one comes a call of a service that is missing, which ends first. -/
def frailEvents : List Event :=
  [.accept, .accept] ++
    [SessionEvent.arrive (.frame ⟨.json, .request ⟨"a", "Frail", "break", [], [], true⟩⟩),
      .arrive (.frame ⟨.json, .response (.success "a" [1])⟩),
      .arrive (.frame ⟨.bincode, .request (.call "a" "Frail" "break" [])⟩),
      .read, .read, .read, .reserve].map (.session 0) ++
    [SessionEvent.arrive (.frame ⟨.postcard, .request (.call "b" "Missing" "break" [])⟩), .read,
      .reserve].map (.session 1) ++
    [TaskEvent.call, .finish, .deliver].map (.task 1) ++ [.session 1 .write] ++
    [TaskEvent.call, .finish, .deliver].map (.task 0) ++ [.session 0 .write]

/-- The events with the service that breaks off. -/
def frailSteps : List (Catalogue × Event) :=
  frailEvents.map fun event ↦ (⟨[("Frail", frailHandler)]⟩, event)

theorem conduct_frail : ∃ s S, (start ⟨.standard, .empty, .all⟩).stepsWith frailSteps = some s ∧
    s.sessions[0]? = some S ∧ Conduct (frailSteps.map Prod.snd) s 0 S ∧
    S.written = [⟨.bincode, .failure "a" .fail "service method panicked"⟩] := by
  have hwritten : ((start ⟨.standard, .empty, .all⟩).stepsWith frailSteps).map (fun s ↦
      s.sessions[0]?.map Session.written) =
        some (some [⟨.bincode, .failure "a" .fail "service method panicked"⟩]) := by
    rfl
  obtain ⟨s, hs, hwritten⟩ := Option.map_eq_some_iff.mp hwritten
  obtain ⟨S, hS, hwritten⟩ := Option.map_eq_some_iff.mp hwritten
  exact ⟨s, S, hs, hS, answered_once hs hS, hwritten⟩

end Serving

end FramedRpc
