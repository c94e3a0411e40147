import FramedRpc.Proofs.Server.Attending
import FramedRpc.Proofs.Server.Sessions

/-!
# Why a connection of a server ends

A method may return, fail or break off: its connection goes on, and the next request is served as
before. The loop of a session is left when the server stops, when the peer ends the connection or
sends what cannot be read, when a response cannot be sent, when the peer was silent for too long,
and when a deadline is beyond the end of the clock. One more reason lies in what a method returns: a
response whose frame is too long ends the loop as if the connection were lost.
-/

namespace FramedRpc

/-! ## Causes -/

namespace Serving

/-- A task ended with a reply to a request, with the services as they then were. -/
def Returned (steps : List (Catalogue × Event)) (order : Session.Order) (r : Session.Reply) :
    Prop :=
  ∃ catalogue k, (catalogue, Event.task k .finish) ∈ steps ∧ r.OutcomeOf catalogue order

/-- Why the loop of a session was left that had read some requests. -/
inductive Cause (codec : Codec) (steps : List (Catalogue × Event)) (id : SessionId)
    (liveness : Liveness) (orders : List Session.Order) : Session.Stage → Prop
  | stopping {time : Nat} (h : .stop ∈ steps.map Prod.snd) :
    Cause codec steps id liveness orders (.closed .serverStopping time)
  | dropped (h : .stop ∈ steps.map Prod.snd) : Cause codec steps id liveness orders .aborted
  /-- The peer closed the connection, or sent what is no frame. -/
  | input {inbound : Session.Inbound} {reason : Session.Reason} {time : Nat}
    (h : .session id (.arrive inbound) ∈ steps.map Prod.snd)
    (hreason : inbound.reason? = some reason) :
    Cause codec steps id liveness orders (.closed reason time)
  | silent {limit time : Nat} (hlimit : liveness.limits.readIdle = some limit)
    (h : liveness.lastRead + limit ≤ time) :
    Cause codec steps id liveness orders (.closed .readIdle time)
  | beyond (h : liveness.onClock = false) : Cause codec steps id liveness orders .brokenOff
  | lost {fault : Fault} {time : Nat} (h : .session id (.lose fault) ∈ steps.map Prod.snd) :
    Cause codec steps id liveness orders (.closed (.writeFailed fault) time)
  /-- What became of a request is too long for a frame. -/
  | unframed {order : Session.Order} {r : Session.Reply} {fault : Fault} {time : Nat}
    (horder : order ∈ orders) (h : Returned steps order r)
    (hlong : codec.limit < r.frame.content.length)
    (hfault : codec.encode r.frame = .error fault) :
    Cause codec steps id liveness orders (.closed (.writeFailed fault) time)

variable {codec : Codec} {steps more : List (Catalogue × Event)} {id : SessionId} {s s' : Serving}
  {S T : Session} {order : Session.Order} {r : Session.Reply} {event : Event}
  {catalogue : Catalogue}

theorem Returned.mono (h : Returned steps order r) (hmore : steps ⊆ more) :
    Returned more order r := by
  obtain ⟨catalogue, k, hstep, hr⟩ := h
  exact ⟨catalogue, k, hmore hstep, hr⟩

theorem Cause.mono {liveness : Liveness} {orders : List Session.Order} {stage : Session.Stage}
    (h : Cause codec steps id liveness orders stage) (hmore : steps ⊆ more) :
    Cause codec more id liveness orders stage := by
  have hevents := List.map_subset Prod.snd hmore
  cases h with
  | stopping h => exact .stopping (hevents h)
  | dropped h => exact .dropped (hevents h)
  | input h hreason => exact .input (hevents h) hreason
  | silent hlimit h => exact .silent hlimit h
  | beyond h => exact .beyond h
  | lost h => exact .lost (hevents h)
  | unframed horder h hlong hfault => exact .unframed horder (h.mono hmore) hlong hfault

/-- All that a session holds comes from the steps before: what is to be read arrived, and what is to
be written became of requests that were read. -/
structure Traced (codec : Codec) (steps : List (Catalogue × Event)) (id : SessionId) (S : Session) :
    Prop where
  inbox : ∀ arrival ∈ S.inbox, .session id (.arrive arrival.inbound) ∈ steps.map Prod.snd
  outbox : ∀ r ∈ S.outbox, ∃ order ∈ S.orders, Returned steps order r
  left : S.isOpen = false → Cause codec steps id S.liveness S.orders S.stage

/-- Whence the rest of a server comes. -/
structure Upright (codec : Codec) (steps : List (Catalogue × Event)) (s : Serving) : Prop where
  served : s.server.codec = codec
  workers : s.workers.closed = false
  stopping : s.stopping = true → .stop ∈ steps.map Prod.snd
  shut : s.listening = false → .stop ∈ steps.map Prod.snd
  tasks : ∀ t ∈ s.tasks, ∀ response, t.phase = .answered (some response) →
    Returned steps t.order ⟨t.order.serializer, response⟩
  sessions : ∀ id S, s.sessions[id]? = some S → Traced codec steps id S

namespace Traced

theorem mono (h : Traced codec steps id S) (hmore : steps ⊆ more) : Traced codec more id S where
  inbox arrival harrival := List.map_subset Prod.snd hmore (h.inbox arrival harrival)
  outbox r hr := by
    obtain ⟨order, horder, hreturned⟩ := h.outbox r hr
    exact ⟨order, horder, hreturned.mono hmore⟩
  left hleft := (h.left hleft).mono hmore

theorem turn (h : Traced codec steps id S) : Traced codec steps id S.turn := by
  rcases S.turn_cases with hturn | ⟨hclock, hturn⟩
  · rw [hturn]
    exact h
  · rw [hturn]
    exact ⟨h.inbox, h.outbox, fun _ ↦ .beyond hclock⟩

theorem accept (codec : Codec) (steps : List (Catalogue × Event)) (id : SessionId)
    (limits : IdleLimits) (now : Nat) : Traced codec steps id (.accept limits now) := by
  apply turn
  exact ⟨nofun, nofun, nofun⟩

theorem reads {now : Nat} (h : Traced codec steps id S) (hserving : S.isServing = true)
    (hreads : S.Reads now T) : Traced codec steps id T := by
  cases hreads with
  | @order f order time rest hinbox horder =>
    refine ⟨fun arrival harrival ↦ ?_, fun r hr ↦ ?_, nofun⟩
    · exact h.inbox arrival (hinbox ▸ List.mem_cons_of_mem _ harrival)
    · obtain ⟨earlier, hearlier, hreturned⟩ := h.outbox r hr
      exact ⟨earlier, List.mem_append_left _ hearlier, hreturned⟩
  | @sign f time rest hinbox hsign =>
    apply turn
    refine ⟨fun arrival harrival ↦ ?_, h.outbox, ?_⟩
    · exact h.inbox arrival (hinbox ▸ List.mem_cons_of_mem _ harrival)
    · exact fun hleft ↦ absurd (Session.isOpen_of_isServing hserving) (Bool.eq_false_iff.mp hleft)
  | @ended inbound time rest reason hinbox hnone hreason =>
    refine ⟨fun arrival harrival ↦ ?_, h.outbox, fun _ ↦ .input ?_ hreason⟩
    · exact h.inbox arrival (hinbox ▸ List.mem_cons_of_mem _ harrival)
    · exact h.inbox ⟨time, inbound⟩ (hinbox ▸ List.mem_cons_self)

theorem writes {now : Nat} {Fails : Session.Reply → Fault → Prop} (h : Traced codec steps id S)
    (hwrites : S.Writes now Fails T)
    (hfailed : ∀ r ∈ S.outbox, ∀ fault time, Fails r fault →
      Cause codec steps id S.liveness S.orders (.closed (.writeFailed fault) time)) :
    Traced codec steps id T := by
  cases hwrites with
  | @sent r rest houtbox =>
    apply turn
    refine ⟨h.inbox, fun earlier hearlier ↦ ?_, h.left⟩
    exact h.outbox earlier (houtbox ▸ List.mem_cons_of_mem _ hearlier)
  | @failed r rest fault houtbox hfails =>
    refine ⟨h.inbox, fun earlier hearlier ↦ ?_, fun _ ↦ ?_⟩
    · exact h.outbox earlier (houtbox ▸ List.mem_cons_of_mem _ hearlier)
    · exact hfailed r (houtbox ▸ List.mem_cons_self) fault now hfails

/-- A session that makes a step by itself holds what was there before, and is left for a cause. -/
theorem moves {event : SessionEvent} (h : Traced codec steps id S) (hs : Upright codec steps s)
    (hmoves : S.Moves (s.offering catalogue) event T) :
    Traced codec (steps ++ [(catalogue, .session id event)]) id T := by
  have hmore : steps ⊆ steps ++ [(catalogue, .session id event)] := List.subset_append_left _ _
  have hlast : Event.session id event ∈
      (steps ++ [(catalogue, Event.session id event)]).map Prod.snd := by
    simp
  have hbehind := h.mono hmore
  cases hmoves with
  | arrived inbound =>
    refine ⟨fun arrival harrival ↦ ?_, hbehind.outbox, hbehind.left⟩
    rcases List.mem_append.mp harrival with hold | hnew
    · exact hbehind.inbox arrival hold
    · obtain rfl := List.mem_singleton.mp hnew
      exact hlast
  | read hread =>
    obtain ⟨hserving, hreads⟩ := Session.reads_of_read? hread
    exact hbehind.reads hserving hreads
  | refused hstage hclosed => exact absurd hclosed (Bool.eq_false_iff.mp hs.workers)
  | wrote hwrite =>
    obtain ⟨hserving, hwrites⟩ := Session.writes_of_write? hwrite
    refine hbehind.writes hwrites fun r hr fault time hfault ↦ ?_
    obtain ⟨order, horder, hreturned⟩ := hbehind.outbox r hr
    have hcodec : (s.offering catalogue).server.codec = codec := hs.served
    rw [hcodec] at hfault
    exact .unframed horder hreturned (Codec.lt_of_encode_eq_error hfault) hfault
  | lost hlose =>
    obtain ⟨hserving, hwrites⟩ := Session.writes_of_lose? hlose
    refine hbehind.writes hwrites fun r hr fault time hfault ↦ ?_
    obtain rfl := hfault
    exact .lost hlast
  | woke hwake =>
    rcases Session.wake?_cases hwake with ⟨⟨limit, hlimit, hidle⟩, rfl⟩ | rfl
    · exact ⟨hbehind.inbox, hbehind.outbox, fun _ ↦ .silent hlimit hidle⟩
    · exact hbehind.turn
  | quit hstopping =>
    exact ⟨hbehind.inbox, hbehind.outbox, fun _ ↦
      .stopping (List.map_subset Prod.snd hmore (hs.stopping hstopping))⟩
  | aborted hshut =>
    exact ⟨hbehind.inbox, hbehind.outbox, fun _ ↦
      .dropped (List.map_subset Prod.snd hmore (hs.shut hshut))⟩

theorem queue (h : Traced codec steps id S) (horder : order ∈ S.orders)
    (hreturned : Returned steps order r) : Traced codec steps id (S.queue r) := by
  unfold Session.queue
  split
  case isTrue =>
    refine ⟨h.inbox, fun earlier hearlier ↦ ?_, h.left⟩
    rcases List.mem_append.mp hearlier with hold | hnew
    · exact h.outbox earlier hold
    · obtain rfl := List.mem_singleton.mp hnew
      exact ⟨order, horder, hreturned⟩
  case isFalse => exact h

end Traced

theorem upright_start (server : Server) : Upright server.codec [] (start server) where
  served := rfl
  workers := rfl
  stopping := nofun
  shut := nofun
  tasks := nofun
  sessions _ _ h := by cases h

/-- The request of a task was read by its session. -/
theorem Accounted.order_mem {events : List Event} {t : Task} (h : Accounted events s)
    (hS : s.sessions[id]? = some S) (ht : t ∈ s.tasks) (hsession : t.session = some id) :
    t.order ∈ S.orders := by
  apply (h.balanced id S hS).started.subset
  exact List.mem_filterMap.mpr ⟨t, ht, if_pos hsession⟩

theorem Effect.traced {events : List Event} (heffect : Effect (s.offering catalogue) event s')
    (haccounted : Accounted events s) (h : Upright codec steps s) (id : SessionId) (T : Session)
    (hT : s'.sessions[id]? = some T) : Traced codec (steps ++ [(catalogue, event)]) id T := by
  have hmore : steps ⊆ steps ++ [(catalogue, event)] := List.subset_append_left _ _
  cases heffect.origin hT with
  | kept hS => exact (h.sessions id _ hS).mono hmore
  | accepted => exact Traced.accept ..
  | moved hS hmoves => exact (h.sessions id _ hS).moves h hmoves
  | reserved hS hstage =>
    apply Traced.turn
    have hbehind := (h.sessions id _ hS).mono hmore
    exact ⟨hbehind.inbox, hbehind.outbox, nofun⟩
  | @told k t S response hS ht hsession hphase =>
    have hmem := List.mem_of_getElem? ht
    exact ((h.sessions id S hS).mono hmore).queue (haccounted.order_mem hS hmem hsession)
      ((h.tasks t hmem response hphase).mono hmore)

theorem closed_acquire? {workers next : WorkerPool} (h : workers.acquire? = some next) :
    next.closed = workers.closed := by
  unfold WorkerPool.acquire? at h
  split at h
  case h_1 hclosed _ =>
    obtain rfl := Option.some.inj h
    rfl
  case h_2 => cases h

@[simp]
theorem closed_release (workers : WorkerPool) : workers.release.closed = workers.closed := by
  unfold WorkerPool.release
  split <;> rfl

theorem Effect.server_eq (heffect : Effect s event s') : s'.server = s.server := by
  cases heffect with
  | @delivered k t response =>
    obtain ⟨sessions, -, hsessions⟩ := s.deliver_eq t response
    rw [hsessions]
    rfl
  | _ => rfl

/-- No step closes the workers. -/
theorem Effect.closed_eq (heffect : Effect s event s') :
    s'.workers.closed = s.workers.closed := by
  cases heffect with
  | reserved hS hstage hworkers => exact closed_acquire? hworkers
  | worked ht hmoves =>
    cases hmoves with
    | assigned hphase hworkers => exact closed_acquire? hworkers
    | finished => exact closed_release _
    | _ => rfl
  | @delivered k t response =>
    obtain ⟨sessions, -, hsessions⟩ := s.deliver_eq t response
    rw [hsessions]
    rfl
  | lent hworkers => exact closed_acquire? hworkers
  | returned => simp
  | _ => rfl

theorem Effect.stopping_cases (heffect : Effect s event s') (h : s'.stopping = true) :
    s.stopping = true ∨ event = .stop := by
  cases heffect with
  | stopped => exact .inr rfl
  | @delivered k t response =>
    obtain ⟨sessions, -, hsessions⟩ := s.deliver_eq t response
    rw [hsessions] at h
    exact .inl h
  | _ => exact .inl h

theorem Effect.listening_cases (heffect : Effect s event s') (h : s'.listening = false) :
    s.listening = false ∨ s.stopping = true := by
  cases heffect with
  | shut hstopping => exact .inr hstopping
  | @delivered k t response =>
    obtain ⟨sessions, -, hsessions⟩ := s.deliver_eq t response
    rw [hsessions] at h
    exact .inl h
  | _ => exact .inl h

/-- A response is what the dispatcher made of a request when the task ended. -/
theorem Effect.answered_cases {t : Task} {response : Response} (heffect : Effect s event s')
    (ht : t ∈ s'.tasks) (hphase : t.phase = .answered (some response)) :
    t ∈ s.tasks ∨ ∃ k, event = .task k .finish ∧
      Dispatcher.run s.server.catalogue t.order.serializer t.order.request = some response := by
  have hbegun : ∀ {session order phase}, t ∈ (s.begin session order phase).tasks →
      (∀ response, phase ≠ .answered (some response)) → t ∈ s.tasks := by
    intro session order phase hmem hnew
    rcases List.mem_append.mp hmem with hold | hlast
    · exact hold
    · obtain rfl := List.mem_singleton.mp hlast
      exact absurd hphase (hnew response)
  cases heffect with
  | reserved => exact .inl (hbegun ht nofun)
  | dispatched order =>
    refine .inl (hbegun ht fun response ↦ ?_)
    split <;> nofun
  | ran hreservations order => exact .inl (hbegun ht nofun)
  | @worked k u event workers phase hu hmoves =>
    rcases mem_setPhase ht with hold | ⟨v, hv, rfl⟩
    · exact .inl hold
    · obtain rfl := Option.some.inj (hu.symm.trans hv)
      cases hmoves with
      | finished => exact .inr ⟨k, rfl, Task.Phase.answered.inj hphase⟩
      | _ => cases hphase
  | @delivered k u outcome hu hanswered =>
    rcases mem_setPhase ht with hold | ⟨v, -, rfl⟩
    · exact .inl (by simpa using hold)
    · cases hphase
  | _ => exact .inl ht

theorem Effect.upright {events : List Event} (heffect : Effect (s.offering catalogue) event s')
    (haccounted : Accounted events s) (h : Upright codec steps s) :
    Upright codec (steps ++ [(catalogue, event)]) s' := by
  have hmore : steps ⊆ steps ++ [(catalogue, event)] := List.subset_append_left _ _
  have hevents := List.map_subset Prod.snd hmore
  have hlast : (catalogue, event) ∈ steps ++ [(catalogue, event)] := by simp
  refine
    { served := ?served
      workers := heffect.closed_eq.trans h.workers
      stopping := fun hstopping ↦ ?stopping
      shut := fun hshut ↦ ?shut
      tasks := fun t ht response hphase ↦ ?tasks
      sessions := heffect.traced haccounted h }
  case served =>
    calc s'.server.codec = (s.offering catalogue).server.codec := by rw [heffect.server_eq]
      _ = codec := h.served
  case stopping =>
    rcases heffect.stopping_cases hstopping with hold | rfl
    · exact hevents (h.stopping hold)
    · exact List.mem_map_of_mem (f := Prod.snd) hlast
  case shut =>
    rcases heffect.listening_cases hshut with hold | hstopping
    · exact hevents (h.shut hold)
    · exact hevents (h.stopping hstopping)
  case tasks =>
    rcases heffect.answered_cases ht hphase with hold | ⟨k, rfl, hrun⟩
    · exact (h.tasks t hold response hphase).mono hmore
    · exact ⟨catalogue, k, hlast, rfl, hrun⟩

theorem upright_of_stepsWith {server : Server} (h : (start server).stepsWith steps = some s) :
    Upright server.codec steps s := by
  refine stepsWith_induction (upright_start server) (fun hbefore hupright heffect ↦ ?_) h
  exact heffect.upright ((accounted_start server).stepsWith hbefore) hupright

/-! ## Methods and their connections -/

/-- What methods can do to the session from which their requests come. -/
structure Resilient (codec : Codec) (steps : List (Catalogue × Event)) (s : Serving)
    (id : SessionId) (S : Session) : Prop where
  /-- The loop is left for causes outside of the methods, and for a reply that is too long. -/
  cause : S.isOpen = false → Cause codec steps id S.liveness S.orders S.stage
  /-- While replies can be framed, the session serves all that has arrived, whatever the methods do,
  and is ready for more. -/
  serves : ∀ catalogue, (s.offering catalogue).Ready id S →
    (∀ arrival ∈ S.inbox, ∃ f, arrival.inbound = .frame f) →
    (∀ order ∈ S.inbox.filterMap fun arrival ↦ arrival.inbound.order?,
      (s.offering catalogue).Answerable order) →
    ∃ events s' T, (s.offering catalogue).steps events = some s' ∧
      (s.offering catalogue).Serves id S []
        (S.inbox.filterMap fun arrival ↦ arrival.inbound.order?) s' T

/-- After any steps of a server, whatever its services are and do: a session was left for a cause
outside of the methods or for a reply that is too long for a frame, and otherwise it serves on. -/
theorem resilient_of_stepsWith {server : Server} (h : (start server).stepsWith steps = some s)
    (hS : s.sessions[id]? = some S) : Resilient server.codec steps s id S where
  cause := ((upright_of_stepsWith h).sessions id S hS).left
  serves catalogue hready hframes hanswerable := by
    obtain ⟨T, hserves⟩ := attend_of_ready hready hframes hanswerable
    obtain ⟨events, hevents⟩ := exists_steps_attend (s.offering catalogue) id
    exact ⟨events, _, T, hevents, hserves⟩

def frailRequest (id : String) : Request := .call id "Frail" "break" []

def frailCatalogue : Catalogue := ⟨[("Frail", frailHandler)]⟩

/-- Two requests arrive, and the method that answers the first one breaks off. -/
def frailCalls : List Event :=
  [.accept] ++ [SessionEvent.arrive (.frame ⟨.bincode, .request (frailRequest "a")⟩),
      .arrive (.frame ⟨.json, .request (frailRequest "b")⟩), .read, .reserve].map (.session 0) ++
    [TaskEvent.call, .finish, .deliver].map (.task 0) ++ [.session 0 .write]

theorem answerable_frail {s : Serving} (hcatalogue : s.server.catalogue = frailCatalogue)
    (hcodec : s.server.codec = .standard) : s.Answerable ⟨.json, frailRequest "b"⟩ := by
  rintro ⟨serializer, response⟩ ⟨hserializer, hrun⟩
  obtain rfl : serializer = .json := hserializer
  rw [hcatalogue] at hrun
  obtain rfl : Dispatcher.brokenOff "b" = response := Option.some.inj hrun
  rw [hcodec]
  rfl

theorem resilient_frail : ∃ s S, (start ⟨.standard, .empty, .all⟩).stepsWith
      (frailCalls.map fun event ↦ (frailCatalogue, event)) = some s ∧
    s.sessions[0]? = some S ∧
    Resilient (Server.codec ⟨.standard, .empty, .all⟩)
      (frailCalls.map fun event ↦ (frailCatalogue, event)) s 0 S ∧
    S.written = [⟨.bincode, .failure "a" .fail "service method panicked"⟩] ∧
    ∃ events s' T, (s.offering frailCatalogue).steps events = some s' ∧
      (s.offering frailCatalogue).Serves 0 S [] [⟨.json, frailRequest "b"⟩] s' T := by
  have hend : ((start ⟨.standard, .empty, .all⟩).stepsWith
      (frailCalls.map fun event ↦ (frailCatalogue, event))).map (fun s ↦ (s.workers, s.server.codec,
        s.sessions[0]?.map fun S ↦ (S.isServing, (S.liveness.recordRead s.now).onClock, S.written,
          S.outbox, S.inbox))) =
      some (⟨16, 0, false⟩, .standard, some (true, true,
        [⟨.bincode, .failure "a" .fail "service method panicked"⟩], [],
        [⟨0, .frame ⟨.json, .request (frailRequest "b")⟩⟩])) := by
    rfl
  obtain ⟨s, hs, hend⟩ := Option.map_eq_some_iff.mp hend
  simp only [Prod.mk.injEq] at hend
  obtain ⟨hworkers, hcodec, hend⟩ := hend
  obtain ⟨S, hS, hend⟩ := Option.map_eq_some_iff.mp hend
  simp only [Prod.mk.injEq] at hend
  obtain ⟨hserving, hclock, hwritten, houtbox, hinbox⟩ := hend
  have hresilient := resilient_of_stepsWith hs hS
  refine ⟨s, S, hs, hS, hresilient, hwritten, ?_⟩
  have hready : (s.offering frailCatalogue).Ready 0 S :=
    { session := hS
      serving := hserving
      clock := hclock
      workers := ⟨⟨15, 1, false⟩, congrArg WorkerPool.acquire? hworkers⟩
      framed := by simp [houtbox] }
  have hserves := hresilient.serves frailCatalogue hready
  simp only [hinbox] at hserves
  apply hserves
  · simp
  · intro order horder
    obtain rfl : order = ⟨.json, frailRequest "b"⟩ := List.mem_singleton.mp horder
    exact answerable_frail rfl hcodec

/-- A service whose only method returns ten bytes. -/
def bulkHandler : Handler where
  service := "Bulk"
  methods := [⟨"bulk", []⟩]
  call _ _ := .returned (List.replicate 10 0)

def bulkRequest (id : String) : Request := .call id "Bulk" "bulk" []

/-- A server whose frames hold at most 64 bytes. -/
def narrowServer : Server := ⟨{ ServerConfig.standard with maxFrameLength := 64 }, .empty, .all⟩

/-- Two requests arrive, and the reply to the first one is to be written. -/
def bulkCalls : List Event :=
  [.accept] ++ [SessionEvent.arrive (.frame ⟨.bincode, .request (bulkRequest "a")⟩),
      .arrive (.frame ⟨.bincode, .request (bulkRequest "b")⟩), .read, .reserve].map (.session 0) ++
    [TaskEvent.call, .finish, .deliver].map (.task 0) ++ [.session 0 .write]

/-- A method returns more than a frame holds. The loop is left: neither is the second request served
nor gets the first caller a reply, although its request and a reply that reports a failure fit. -/
theorem left_by_long_result : ∃ s S fault, narrowServer.codec.writes
      ⟨.bincode, .request (bulkRequest "a")⟩ = true ∧
    narrowServer.codec.writes ⟨.bincode, .response (.failure "a" .fail "result too large")⟩ = true ∧
    (start narrowServer).stepsWith
      (bulkCalls.map fun event ↦ (⟨[("Bulk", bulkHandler)]⟩, event)) = some s ∧
    s.sessions[0]? = some S ∧ S.stage = .closed (.writeFailed fault) 0 ∧
    (S.inbox.filterMap fun arrival ↦ arrival.inbound.order?) = [⟨.bincode, bulkRequest "b"⟩] ∧
    ∀ later s', s.stepsWith later = some s' →
      ∃ T, s'.sessions[0]? = some T ∧ T.isOpen = false ∧ T.written = [] := by
  have hend : ((start narrowServer).stepsWith
      (bulkCalls.map fun event ↦ (⟨[("Bulk", bulkHandler)]⟩, event))).map (fun s ↦
        s.sessions[0]?.map fun S ↦ (S.stage, S.written,
          S.inbox.filterMap fun arrival ↦ arrival.inbound.order?)) =
      some (some (.closed (.writeFailed (.protocol "Frame too large: 65 bytes (max 64 bytes)")) 0,
        [], [⟨.bincode, bulkRequest "b"⟩])) := by
    rfl
  obtain ⟨s, hs, hend⟩ := Option.map_eq_some_iff.mp hend
  obtain ⟨S, hS, hend⟩ := Option.map_eq_some_iff.mp hend
  simp only [Prod.mk.injEq] at hend
  obtain ⟨hstage, hwritten, hinbox⟩ := hend
  have hleft : S.isOpen = false := by
    rw [Session.isOpen, hstage]
  refine ⟨s, S, _, rfl, rfl, hs, hS, hstage, hinbox, fun later s' hlater ↦ ?_⟩
  obtain ⟨T, hT, hlasts⟩ := lasts_of_stepsWith hS hleft hlater
  exact ⟨T, hT, hlasts.isOpen.trans hleft, hlasts.written.trans hwritten⟩

end Serving

end FramedRpc
