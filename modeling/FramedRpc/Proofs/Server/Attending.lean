import FramedRpc.Proofs.Frame.RoundTrip
import FramedRpc.Proofs.Server.Answers
import Mathlib.Logic.Function.Iterate

/-!
# Serving what has arrived

While a worker is free and its replies can be framed, a session serves one frame after the other. A
request is read, a task runs its method and gives the worker back, and the reply is queued and
written behind those that are queued already. What the method does makes no difference to the loop.
-/

namespace FramedRpc

/-- A reply is what the dispatcher makes of a request. -/
def Session.Reply.OutcomeOf (r : Session.Reply) (catalogue : Catalogue) (order : Session.Order) :
    Prop :=
  r.serializer = order.serializer ∧
    Dispatcher.run catalogue order.serializer order.request = some r.response

/-! ## Steps of the loop -/

namespace Session

variable {S T U : Session} {now : Nat} {order : Order}

theorem stage_of_isServing (h : S.isServing = true) : S.stage = .serving := by
  unfold isServing at h
  split at h
  case h_1 hstage => exact hstage
  case h_2 => cases h

theorem turn_of_onClock (h : S.liveness.onClock = true) : S.turn = S := if_pos h

theorem read?_of_order {f : Frame} {time : Nat} {rest : List Arrival}
    (hserving : S.isServing = true) (hinbox : S.inbox = ⟨time, .frame f⟩ :: rest)
    (h : (Inbound.frame f).order? = some order) :
    S.read? now = some { S with
      inbox := rest
      liveness := S.liveness.recordRead now
      orders := S.orders ++ [order]
      stage := .reserving order } := by
  unfold read?
  rw [hserving, hinbox]
  show some (takeFrame { S with inbox := rest } now f) = _
  rw [takeFrame_of_order h]

theorem write?_of_writes {codec : Codec} {r : Reply} {rest : List Reply}
    (hserving : S.isServing = true) (houtbox : S.outbox = r :: rest)
    (h : codec.writes r.frame = true) :
    S.write? codec now = some { S with outbox := rest, written := S.written ++ [r] }.turn := by
  unfold write?
  rw [hserving, houtbox]
  show some _ = some _
  rw [Codec.encode_of_le (Codec.writes_iff.mp h)]

@[simp]
theorem write?_of_nil {codec : Codec} (houtbox : S.outbox = []) : S.write? codec now = none := by
  unfold write?
  rw [houtbox]
  cases S.isServing <;> rfl

/-- The session that has read what comes first and to which the replies were handed over. -/
def take (S : Session) (now : Nat) (rest : List Arrival) (orders : List Order)
    (replies : List Reply) : Session :=
  { S with
    inbox := rest
    liveness := S.liveness.recordRead now
    orders := S.orders ++ orders
    outbox := S.outbox ++ replies
    stage := .serving }

@[simp]
theorem outbox_take (S : Session) (now : Nat) (rest : List Arrival) (orders : List Order)
    (replies : List Reply) : (S.take now rest orders replies).outbox = S.outbox ++ replies := rfl

@[simp]
theorem written_take (S : Session) (now : Nat) (rest : List Arrival) (orders : List Order)
    (replies : List Reply) : (S.take now rest orders replies).written = S.written := rfl

/-- A session that serves on: it has read some requests more, and some replies more were queued, of
which none stays behind for those that were queued before. -/
structure Serves (S : Session) (now : Nat) (orders : List Order) (replies : List Reply)
    (T : Session) : Prop where
  serving : T.isServing = true
  liveness : T.liveness.recordRead now = S.liveness.recordRead now
  orders : T.orders = S.orders ++ orders
  replies : T.written ++ T.outbox = S.written ++ S.outbox ++ replies
  outbox : T.outbox.length ≤ S.outbox.length

theorem Serves.refl (hserving : S.isServing = true) (now : Nat) : S.Serves now [] [] S where
  serving := hserving
  liveness := rfl
  orders := (List.append_nil _).symm
  replies := (List.append_nil _).symm
  outbox := Nat.le_refl _

theorem Serves.trans {orders others : List Order} {replies more : List Reply}
    (h : S.Serves now orders replies T) (hnext : T.Serves now others more U) :
    S.Serves now (orders ++ others) (replies ++ more) U where
  serving := hnext.serving
  liveness := hnext.liveness.trans h.liveness
  orders := by rw [hnext.orders, h.orders, List.append_assoc]
  replies := by rw [hnext.replies, h.replies, List.append_assoc]
  outbox := Nat.le_trans hnext.outbox h.outbox

end Session

namespace Serving

variable {s s' : Serving} {id : SessionId} {S T : Session} {event : Event} {order : Session.Order}
  {tasks : List Task} {t : Task} {session : Option SessionId} {response : Response}

/-! ## Steps that are played -/

theorem play_of_some (h : s.step event = some s') (events : List Event) :
    s.play (event :: events) = s'.play events := by
  show play ((s.step event).getD s) events = _
  rw [h]
  rfl

theorem play_of_none (h : s.step event = none) (events : List Event) :
    s.play (event :: events) = s.play events := by
  show play ((s.step event).getD s) events = _
  rw [h]
  rfl

theorem steps_append (s : Serving) (events more : List Event) :
    s.steps (events ++ more) = (s.steps events).bind fun b ↦ b.steps more := by
  unfold steps
  rw [List.foldlM_append]
  rfl

/-- What is played are steps that are possible. -/
theorem exists_steps_play (s : Serving) (events : List Event) :
    ∃ taken, taken.Sublist events ∧ s.steps taken = some (s.play events) := by
  induction events generalizing s with
  | nil => exact ⟨[], List.Sublist.refl _, rfl⟩
  | cons event events ih =>
    cases hstep : s.step event with
    | some b =>
      obtain ⟨taken, hsublist, htaken⟩ := ih b
      refine ⟨event :: taken, hsublist.cons_cons event, ?_⟩
      show (s.step event).bind (fun b ↦ b.steps taken) = _
      rw [hstep, play_of_some hstep]
      exact htaken
    | none =>
      obtain ⟨taken, hsublist, htaken⟩ := ih s
      exact ⟨taken, hsublist.cons event, (play_of_none hstep events).symm ▸ htaken⟩

theorem attend_eq (hS : s.sessions[id]? = some S) :
    s.attend id = (fun s ↦ s.attendNext id)^[S.inbox.length] s := by
  unfold attend
  rw [hS, List.foldl_const, List.length_range]
  rfl

/-- What arrived for a session is served in steps that are possible. -/
theorem exists_steps_attend (s : Serving) (id : SessionId) :
    ∃ events, s.steps events = some (s.attend id) := by
  have hserved : ∀ (numbers : List Nat) (s : Serving), ∃ events,
      s.steps events = some (numbers.foldl (fun s _ ↦ s.attendNext id) s) := by
    intro numbers
    induction numbers with
    | nil => exact fun s ↦ ⟨[], rfl⟩
    | cons number numbers ih =>
      intro s
      obtain ⟨first, -, hfirst⟩ := s.exists_steps_play [.session id .read, .session id .reserve,
        .task s.tasks.length .call, .task s.tasks.length .finish, .task s.tasks.length .deliver,
        .session id .write]
      obtain ⟨others, hothers⟩ := ih (s.attendNext id)
      refine ⟨first ++ others, ?_⟩
      rw [steps_append, hfirst]
      exact hothers
  exact hserved _ s

/-! ## Steps of a session and of its last task -/

theorem step_session (hS : s.sessions[id]? = some S) (event : SessionEvent) :
    s.step (.session id event) = s.stepSession id S event := by
  show (s.sessions[id]?).bind _ = _
  rw [hS]
  rfl

theorem step_read (hS : s.sessions[id]? = some S) (hread : S.read? s.now = some T) :
    s.step (.session id .read) = some (s.setSession id T) := by
  rw [step_session hS]
  show (S.read? s.now).bind _ = _
  rw [hread]
  rfl

theorem step_write (hS : s.sessions[id]? = some S) :
    s.step (.session id .write) =
      (S.write? s.server.codec s.now).map fun T ↦ s.setSession id T := by
  rw [step_session hS, Option.map_eq_bind]
  rfl

theorem step_reserve_of_isServing (hS : s.sessions[id]? = some S) (hserving : S.isServing = true) :
    s.step (.session id .reserve) = none := by
  have hnone : S.reserved? = none := by
    unfold Session.reserved?
    rw [Session.stage_of_isServing hserving]
  rw [step_session hS]
  show (S.reserved?).bind _ = _
  rw [hnone]
  rfl

theorem step_reserve_of_acquire? {workers : WorkerPool} (hS : s.sessions[id]? = some S)
    (hstage : S.stage = .reserving order) (hworkers : s.workers.acquire? = some workers) :
    s.step (.session id .reserve) =
      some (({ s with workers }.begin (some id) order .reserved).setSession id
        { S with stage := .serving }.turn) := by
  have hopen : s.workers.closed = false := by
    unfold WorkerPool.acquire? at hworkers
    split at hworkers
    case h_1 hopen _ => exact hopen
    case h_2 => cases hworkers
  rw [step_session hS]
  show s.reserveFor id S = _
  simp [reserveFor, Session.reserved?, hstage, hopen, hworkers]

theorem step_task_of_length_le {k : TaskId} (h : s.tasks.length ≤ k) (event : TaskEvent) :
    s.step (.task k event) = none := by
  show (s.tasks[k]?).bind _ = _
  rw [List.getElem?_eq_none h]
  rfl

theorem step_last (h : s.tasks = tasks ++ [t]) (event : TaskEvent) :
    s.step (.task tasks.length event) = s.stepTask tasks.length t event := by
  show (s.tasks[tasks.length]?).bind _ = _
  rw [h, List.getElem?_concat_length]
  rfl

theorem setPhase_last (h : s.tasks = tasks ++ [t]) (phase : Task.Phase) :
    s.setPhase tasks.length phase = { s with tasks := tasks ++ [{ t with phase }] } := by
  simp [setPhase, h]

theorem step_call (h : s.tasks = tasks ++ [⟨session, order, .reserved⟩]) :
    s.step (.task tasks.length .call) =
      some { s with tasks := tasks ++ [⟨session, order, .running⟩] } := by
  rw [step_last h, ← setPhase_last h]
  rfl

theorem step_finish (h : s.tasks = tasks ++ [⟨session, order, .running⟩]) :
    s.step (.task tasks.length .finish) = some { s with
      workers := s.workers.release
      tasks := tasks ++ [⟨session, order, .answered
        (Dispatcher.run s.server.catalogue order.serializer order.request)⟩] } := by
  rw [step_last h]
  exact congrArg some (setPhase_last (s := { s with workers := s.workers.release }) h _)

theorem step_deliver (h : s.tasks = tasks ++ [⟨some id, order, .answered (some response)⟩])
    (hS : s.sessions[id]? = some S) (hopen : S.isOpen = true) :
    s.step (.task tasks.length .deliver) = some { s with
      sessions := s.sessions.set id { S with outbox := S.outbox ++ [⟨order.serializer, response⟩] }
      tasks := tasks ++ [⟨some id, order, .over (some response)⟩] } := by
  have hqueue : S.queue ⟨order.serializer, response⟩ =
      { S with outbox := S.outbox ++ [⟨order.serializer, response⟩] } := if_pos hopen
  have hlast : (s.deliver ⟨some id, order, .answered (some response)⟩ (some response)).tasks =
      tasks ++ [⟨some id, order, .answered (some response)⟩] := (tasks_deliver ..).trans h
  rw [step_last h, ← hqueue, ← modify_of_some hS fun S ↦ S.queue ⟨order.serializer, response⟩]
  exact congrArg some (setPhase_last hlast (.over (some response)))

theorem release_acquire? {workers next : WorkerPool} (h : workers.acquire? = some next) :
    next.release = workers := by
  obtain ⟨free, held, closed⟩ := workers
  unfold WorkerPool.acquire? at h
  split at h
  case h_1 hclosed hfree =>
    obtain rfl := Option.some.inj h
    obtain rfl : free = _ := hfree
    rfl
  case h_2 => cases h

/-! ## One frame after the other -/

/-- A request that waits for a worker is run, and the reply to it is queued, whatever the method
does. The worker is given back. -/
theorem play_task {workers : WorkerPool} (hS : s.sessions[id]? = some S)
    (hstage : S.stage = .reserving order) (hclock : S.liveness.onClock = true)
    (hworkers : s.workers.acquire? = some workers)
    (hrun : Dispatcher.run s.server.catalogue order.serializer order.request = some response)
    (events : List Event) :
    s.play (.session id .reserve :: .task s.tasks.length .call :: .task s.tasks.length .finish ::
        .task s.tasks.length .deliver :: events) =
      play { s with
        sessions := s.sessions.set id { S with
          outbox := S.outbox ++ [⟨order.serializer, response⟩]
          stage := .serving }
        tasks := s.tasks ++ [⟨some id, order, .over (some response)⟩] } events := by
  have hid : id < s.sessions.length := (List.getElem?_eq_some_iff.mp hS).1
  have hturn : { S with stage := .serving }.turn = { S with stage := .serving } :=
    Session.turn_of_onClock hclock
  have hset : (s.sessions.set id { S with stage := .serving })[id]? =
      some { S with stage := .serving } := List.getElem?_set_self hid
  rw [play_of_some (step_reserve_of_acquire? hS hstage hworkers), hturn,
    play_of_some (step_call rfl), play_of_some (step_finish rfl)]
  show play { s with
    workers := workers.release
    sessions := s.sessions.set id { S with stage := .serving }
    tasks := s.tasks ++ [⟨some id, order, .answered
      (Dispatcher.run s.server.catalogue order.serializer order.request)⟩] } _ = _
  rw [hrun, release_acquire? hworkers, play_of_some (step_deliver rfl hset rfl)]
  simp

/-- The next reply is written, if there is one. -/
theorem play_write (hS : s.sessions[id]? = some S) (hserving : S.isServing = true)
    (hclock : S.liveness.onClock = true)
    (hframed : ∀ r ∈ S.outbox, s.server.codec.writes r.frame = true) :
    ∃ T, s.play [.session id .write] = { s with sessions := s.sessions.set id T } ∧
      T.inbox = S.inbox ∧ T.outbox = S.outbox.tail ∧ T.isServing = true ∧
      T.liveness = S.liveness ∧ T.orders = S.orders ∧
      T.written ++ T.outbox = S.written ++ S.outbox := by
  cases houtbox : S.outbox with
  | nil =>
    have hwrite : s.step (.session id .write) = none := by
      simp [step_write hS, houtbox]
    have hsame : s.sessions.set id S = s.sessions := by
      obtain ⟨hid, rfl⟩ := List.getElem?_eq_some_iff.mp hS
      exact List.set_getElem_self hid
    refine ⟨S, ?_, rfl, houtbox, hserving, rfl, rfl, by rw [houtbox]⟩
    rw [play_of_none hwrite, hsame]
    rfl
  | cons r rest =>
    have hwrites := hframed r (houtbox ▸ List.mem_cons_self)
    have hwrite : s.step (.session id .write) =
        some (s.setSession id { S with outbox := rest, written := S.written ++ [r] }) := by
      rw [step_write hS, Session.write?_of_writes hserving houtbox hwrites]
      exact congrArg (fun T ↦ some (s.setSession id T)) (Session.turn_of_onClock hclock)
    refine ⟨{ S with outbox := rest, written := S.written ++ [r] }, ?_, rfl, rfl, hserving, rfl,
      rfl, ?_⟩
    · rw [play_of_some hwrite]
      rfl
    · exact List.append_assoc _ _ _

/-- What a server needs so that one of its sessions serves on. -/
structure Ready (s : Serving) (id : SessionId) (S : Session) : Prop where
  session : s.sessions[id]? = some S
  serving : S.isServing = true
  clock : (S.liveness.recordRead s.now).onClock = true
  workers : ∃ workers, s.workers.acquire? = some workers
  framed : ∀ r ∈ S.outbox, s.server.codec.writes r.frame = true

/-- The dispatcher makes nothing of a request that could not be framed. -/
def Answerable (s : Serving) (order : Session.Order) : Prop :=
  ∀ r : Session.Reply, r.OutcomeOf s.server.catalogue order → s.server.codec.writes r.frame = true

/-- A session serves on, and the rest of the server is as before, but for tasks that are over. -/
structure Serves (s : Serving) (id : SessionId) (S : Session) (rest : List Session.Arrival)
    (orders : List Session.Order) (s' : Serving) (T : Session) : Prop where
  server : s'.server = s.server
  now : s'.now = s.now
  ready : s'.Ready id T
  inbox : T.inbox = rest
  replies : ∃ replies, S.Serves s.now orders replies T ∧
    List.Forall₂ (fun order r ↦ Session.Reply.OutcomeOf r s.server.catalogue order) orders replies

/-- A frame is read, and the reply to what it asks for is queued. -/
theorem play_frame {f : Frame} {time : Nat} {rest : List Session.Arrival} (h : s.Ready id S)
    (hinbox : S.inbox = ⟨time, .frame f⟩ :: rest) (events : List Event) :
    ∃ tasks replies, s.play (.session id .read :: .session id .reserve ::
          .task s.tasks.length .call :: .task s.tasks.length .finish ::
          .task s.tasks.length .deliver :: events) =
        play { s with
          sessions := s.sessions.set id
            (S.take s.now rest (Session.Inbound.frame f).order?.toList replies)
          tasks := tasks } events ∧
      List.Forall₂ (fun order r ↦ Session.Reply.OutcomeOf r s.server.catalogue order)
        (Session.Inbound.frame f).order?.toList replies := by
  have hid : id < s.sessions.length := (List.getElem?_eq_some_iff.mp h.session).1
  have hset : ∀ T, (s.sessions.set id T)[id]? = some T := fun T ↦ List.getElem?_set_self hid
  cases horder : (Session.Inbound.frame f).order? with
  | some order =>
    obtain ⟨response, hrun, -⟩ := Dispatcher.run_of_order s.server.catalogue order.serializer
      (Session.heartbeat_of_order? horder)
    obtain ⟨workers, hworkers⟩ := h.workers
    have hread := step_read h.session (Session.read?_of_order h.serving hinbox horder)
    refine ⟨s.tasks ++ [⟨some id, order, .over (some response)⟩], [⟨order.serializer, response⟩],
      ?_, .cons ⟨rfl, hrun⟩ .nil⟩
    have htask := play_task (s := s.setSession id _) (hset { S with
      inbox := rest
      liveness := S.liveness.recordRead s.now
      orders := S.orders ++ [order]
      stage := .reserving order }) rfl h.clock hworkers hrun events
    rw [play_of_some hread]
    refine htask.trans ?_
    simp [setSession, Session.take]
  | none =>
    have hread := step_read h.session (Session.read?_of_none h.serving hinbox horder)
    have hturn : { S with inbox := rest, liveness := S.liveness.recordRead s.now }.turn =
        { S with inbox := rest, liveness := S.liveness.recordRead s.now } :=
      Session.turn_of_onClock h.clock
    rw [hturn] at hread
    have hreserve := step_reserve_of_isServing (s := s.setSession id _) (hset { S with
      inbox := rest
      liveness := S.liveness.recordRead s.now }) h.serving
    have hnone : ∀ event, (s.setSession id { S with
        inbox := rest
        liveness := S.liveness.recordRead s.now }).step (.task s.tasks.length event) = none :=
      step_task_of_length_le (Nat.le_refl _)
    refine ⟨s.tasks, [], ?_, .nil⟩
    rw [play_of_some hread, play_of_none hreserve, play_of_none (hnone _), play_of_none (hnone _),
      play_of_none (hnone _)]
    simp [setSession, Session.take, Session.stage_of_isServing h.serving]

/-- A session serves the next frame, and is ready for those that follow. -/
theorem attendNext_of_frame {f : Frame} {time : Nat} {rest : List Session.Arrival}
    (h : s.Ready id S) (hinbox : S.inbox = ⟨time, .frame f⟩ :: rest)
    (hanswerable : ∀ order ∈ (Session.Inbound.frame f).order?, s.Answerable order) :
    ∃ T, s.Serves id S rest (Session.Inbound.frame f).order?.toList (s.attendNext id) T := by
  have hid : id < s.sessions.length := (List.getElem?_eq_some_iff.mp h.session).1
  obtain ⟨tasks, replies, hplay, houtcomes⟩ := play_frame h hinbox [.session id .write]
  have hnew : replies.length ≤ 1 ∧ ∀ r ∈ replies, s.server.codec.writes r.frame = true := by
    cases horder : (Session.Inbound.frame f).order? with
    | none =>
      rw [horder] at houtcomes
      cases houtcomes
      exact ⟨Nat.zero_le _, nofun⟩
    | some order =>
      rw [horder] at houtcomes
      obtain ⟨r, rest, hr, hrest, rfl⟩ := List.forall₂_cons_left_iff.mp houtcomes
      obtain rfl := List.forall₂_nil_left_iff.mp hrest
      refine ⟨Nat.le_refl _, fun other hother ↦ ?_⟩
      obtain rfl := List.mem_singleton.mp hother
      exact hanswerable order horder other hr
  have hframed : ∀ r ∈ S.outbox ++ replies, s.server.codec.writes r.frame = true := by
    intro r hr
    rcases List.mem_append.mp hr with hold | hlast
    · exact h.framed r hold
    · exact hnew.2 r hlast
  obtain ⟨T, hwrite, hrest, houtbox, hserving, hliveness, horders, hreplies⟩ :=
    play_write (S := S.take s.now rest (Session.Inbound.frame f).order?.toList replies)
      (s := { s with sessions := s.sessions.set id (S.take ..), tasks := tasks })
      (List.getElem?_set_self hid) rfl h.clock hframed
  have hattend : s.attendNext id = { s with sessions := s.sessions.set id T, tasks := tasks } := by
    show s.play _ = _
    rw [hplay, hwrite, List.set_set]
  have hlength : T.outbox.length ≤ S.outbox.length := by
    simp only [houtbox, Session.outbox_take, List.length_tail, List.length_append]
    omega
  rw [hattend]
  refine ⟨T, rfl, rfl, ⟨List.getElem?_set_self hid, hserving, ?_, h.workers, ?_⟩, hrest, replies,
    ?_, houtcomes⟩
  · rw [hliveness]
    exact h.clock
  · exact fun r hr ↦ hframed r (List.mem_of_mem_tail (houtbox ▸ hr))
  · refine ⟨hserving, congrArg (·.recordRead s.now) hliveness, horders, ?_, hlength⟩
    simp [hreplies]

theorem Answerable.congr {b : Serving} (h : s.Answerable order) (hserver : b.server = s.server) :
    b.Answerable order := by
  unfold Answerable
  rw [hserver]
  exact h

theorem Serves.trans {rest last : List Session.Arrival} {orders others : List Session.Order}
    {b c : Serving} {U : Session} (h : s.Serves id S rest orders b T)
    (hnext : b.Serves id T last others c U) : s.Serves id S last (orders ++ others) c U := by
  obtain ⟨replies, hserves, houtcomes⟩ := h.replies
  obtain ⟨more, hserving, hothers⟩ := hnext.replies
  rw [h.now] at hserving
  rw [h.server] at hothers
  exact
    { server := hnext.server.trans h.server
      now := hnext.now.trans h.now
      ready := hnext.ready
      inbox := hnext.inbox
      replies := ⟨replies ++ more, hserves.trans hserving, List.rel_append houtcomes hothers⟩ }

/-- A session that is ready serves all frames that have arrived, in order, and is ready for those
that follow. -/
theorem attend_of_ready (h : s.Ready id S)
    (hframes : ∀ arrival ∈ S.inbox, ∃ f, arrival.inbound = .frame f)
    (hanswerable : ∀ order ∈ S.inbox.filterMap fun arrival ↦ arrival.inbound.order?,
      s.Answerable order) :
    ∃ T, s.Serves id S [] (S.inbox.filterMap fun arrival ↦ arrival.inbound.order?)
      (s.attend id) T := by
  rw [attend_eq h.session]
  generalize hinbox : S.inbox = inbox at *
  induction inbox generalizing s S with
  | nil =>
    exact ⟨S, rfl, rfl, h, hinbox, [], Session.Serves.refl h.serving s.now, .nil⟩
  | cons arrival rest ih =>
    obtain ⟨time, inbound⟩ := arrival
    obtain ⟨f, rfl⟩ := hframes _ List.mem_cons_self
    have hfront : ((⟨time, .frame f⟩ : Session.Arrival) :: rest).filterMap
        (fun arrival ↦ arrival.inbound.order?) = (Session.Inbound.frame f).order?.toList ++
          rest.filterMap fun arrival ↦ arrival.inbound.order? := by
      rw [List.filterMap_cons]
      cases (Session.Inbound.frame f).order? <;> rfl
    rw [hfront] at hanswerable
    obtain ⟨T, hfirst⟩ := attendNext_of_frame h hinbox fun order horder ↦
      hanswerable order (List.mem_append_left _ (Option.mem_toList.mpr horder))
    obtain ⟨U, hothers⟩ := ih hfirst.ready hfirst.inbox
      (fun arrival harrival ↦ hframes arrival (List.mem_cons_of_mem _ harrival))
      (fun order horder ↦ (hanswerable order (List.mem_append_right _ horder)).congr hfirst.server)
    refine ⟨U, ?_⟩
    rw [hfront, List.length_cons, Function.iterate_succ_apply]
    exact hfirst.trans hothers

end Serving

end FramedRpc
