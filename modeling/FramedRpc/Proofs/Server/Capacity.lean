import FramedRpc.Proofs.Server.Workers

/-!
# The capacity of a server

However many requests come over however many connections or are dispatched directly, all workers
stay there, and whoever waits for one gets it in the end: nobody is turned away, and every worker
that is held can come back. A request that ran on a worker is answered as if it had been handled by
its caller, except that a method that breaks off is answered with a failure.
-/

namespace FramedRpc

def Task.isRunning (t : Task) : Bool :=
  match t.phase with
  | .running => true
  | _ => false

namespace Serving

variable {s s' : Serving} {id : SessionId} {S : Session} {k : TaskId} {t u : Task} {event : Event}
  {phase : Task.Phase} {order : Session.Order} {order? : Option Session.Order}
  {response : Option Response} {catalogue : Catalogue} {steps more : List (Catalogue × Event)}
  {tasks : List Task} {session : Option SessionId}

/-! ## Where tasks come from -/

/-- The task of a number behind a step. -/
inductive TaskOrigin (s : Serving) (k : TaskId) : Event → Task → Prop
  | kept {event : Event} {t : Task} (ht : s.tasks[k]? = some t) : TaskOrigin s k event t
  | passed {order : Session.Order} (hsign : order.request.heartbeat = true) :
    TaskOrigin s k (.dispatch order) ⟨none, order, .over none⟩
  | queued {order : Session.Order} (hsign : order.request.heartbeat = false) :
    TaskOrigin s k (.dispatch order) ⟨none, order, .waiting⟩
  | begun {event : Event} {session : Option SessionId} {order : Session.Order} :
    TaskOrigin s k event ⟨session, order, .reserved⟩
  | moved {t : Task} {event : TaskEvent} {workers : WorkerPool} {phase : Task.Phase}
    (ht : s.tasks[k]? = some t) (hmoves : t.Moves s event workers phase) :
    TaskOrigin s k (.task k event) { t with phase }
  | told {t : Task} {response : Option Response} (ht : s.tasks[k]? = some t)
    (hphase : t.phase = .answered response) :
    TaskOrigin s k (.task k .deliver) { t with phase := .over response }

theorem getElem?_begin (hu : (s.begin session order phase).tasks[k]? = some u) :
    s.tasks[k]? = some u ∨ u = ⟨session, order, phase⟩ := by
  replace hu : (s.tasks ++ [⟨session, order, phase⟩])[k]? = some u := hu
  rw [getElem?_concat] at hu
  split at hu
  case isTrue => exact .inr (Option.some.inj hu).symm
  case isFalse => exact .inl hu

theorem getElem?_setPhase_cases {task : TaskId} (ht : s.tasks[task]? = some t)
    (hu : (s.setPhase task phase).tasks[k]? = some u) :
    s.tasks[k]? = some u ∨ task = k ∧ u = { t with phase } := by
  replace hu : (s.tasks.modify task fun t ↦ { t with phase })[k]? = some u := hu
  rw [modify_of_some ht, getElem?_set_of_some ht] at hu
  split at hu
  case isTrue hk => exact .inr ⟨hk, (Option.some.inj hu).symm⟩
  case isFalse => exact .inl hu

theorem Effect.taskOrigin (heffect : Effect s event s') (hu : s'.tasks[k]? = some u) :
    TaskOrigin s k event u := by
  cases heffect with
  | reserved hS hstage hworkers =>
    rcases getElem?_begin hu with hold | rfl
    · exact .kept hold
    · exact .begun
  | @worked task t event workers phase ht hmoves =>
    rcases getElem?_setPhase_cases (s := { s with workers }) ht hu with hold | ⟨rfl, rfl⟩
    · exact .kept hold
    · exact .moved ht hmoves
  | @delivered task t response ht hphase =>
    rw [← tasks_deliver s t response] at ht
    rcases getElem?_setPhase_cases ht hu with hold | ⟨rfl, rfl⟩
    · exact .kept (by simpa using hold)
    · exact .told (by simpa using ht) hphase
  | dispatched order =>
    rcases getElem?_begin hu with hold | rfl
    · exact .kept hold
    · cases hsign : order.request.heartbeat with
      | true => exact .passed hsign
      | false => exact .queued hsign
  | ran h order =>
    rcases getElem?_begin hu with hold | rfl
    · exact .kept hold
    · exact .begun
  | _ => exact .kept hu

/-! ## How tasks are answered -/

/-- How the request of a task was answered. -/
inductive Settled (steps : List (Catalogue × Event)) (k : TaskId) (order : Session.Order) :
    Option Response → Prop
  | passed (hsign : order.request.heartbeat = true) : Settled steps k order none
  /-- The caller gave up before there was a worker. -/
  | abandoned (h : .task k .cancel ∈ steps.map Prod.snd) : Settled steps k order none
  /-- The method ended, with the services as they then were. -/
  | ended {catalogue : Catalogue} {response : Option Response}
    (h : (catalogue, .task k .finish) ∈ steps)
    (hanswers : Dispatcher.Answers catalogue order.serializer order.request response) :
    Settled steps k order response

theorem Settled.mono (h : Settled steps k order response) (hmore : steps ⊆ more) :
    Settled more k order response := by
  cases h with
  | passed hsign => exact .passed hsign
  | abandoned h => exact .abandoned (List.map_subset Prod.snd hmore h)
  | ended h hanswers => exact .ended (hmore h) hanswers

/-- What is known of a task after some steps: only for a request that wants an answer does it wait
for a worker, and it is known how it was answered. -/
structure Known (steps : List (Catalogue × Event)) (k : TaskId) (t : Task) : Prop where
  waiting : t.phase = .waiting → t.order.request.heartbeat = false
  settled : ∀ response, t.phase = .answered response ∨ t.phase = .over response →
    Settled steps k t.order response

theorem Known.mono (h : Known steps k t) (hmore : steps ⊆ more) : Known more k t :=
  ⟨h.waiting, fun response hphase ↦ (h.settled response hphase).mono hmore⟩

theorem known_of_over (h : Settled steps k t.order response) (hphase : t.phase = .over response) :
    Known steps k t := by
  refine ⟨fun hwaiting ↦ ?_, fun other hother ↦ ?_⟩
  · rw [hphase] at hwaiting
    cases hwaiting
  · rw [hphase] at hother
    rcases hother with hanswered | hover
    · cases hanswered
    · exact Task.Phase.over.inj hover ▸ h

theorem known_of_moves {event : TaskEvent} {workers : WorkerPool}
    (hopen : s.workers.closed = false)
    (hmoves : t.Moves (s.offering catalogue) event workers phase) :
    Known (steps ++ [(catalogue, .task k event)]) k { t with phase } := by
  have hlast : (catalogue, Event.task k event) ∈ steps ++ [(catalogue, .task k event)] := by simp
  cases hmoves with
  | turnedAway _ hclosed => exact absurd hclosed (Bool.eq_false_iff.mp hopen)
  | assigned => exact ⟨nofun, nofun⟩
  | cancelled => exact known_of_over (.abandoned (List.mem_map_of_mem hlast)) rfl
  | called => exact ⟨nofun, nofun⟩
  | finished =>
    refine ⟨nofun, fun response hphase ↦ ?_⟩
    rcases hphase with hanswered | hover
    · have hanswers := Dispatcher.answers_run catalogue t.order.serializer t.order.request
      obtain rfl := Task.Phase.answered.inj hanswered
      exact .ended hlast hanswers
    · cases hover

theorem Effect.known (heffect : Effect (s.offering catalogue) event s')
    (hopen : s.workers.closed = false) (h : ∀ k t, s.tasks[k]? = some t → Known steps k t)
    (hu : s'.tasks[k]? = some u) : Known (steps ++ [(catalogue, event)]) k u := by
  have hmore : steps ⊆ steps ++ [(catalogue, event)] := List.subset_append_left _ _
  cases heffect.taskOrigin hu with
  | kept ht => exact (h k u ht).mono hmore
  | passed hsign => exact known_of_over (.passed hsign) rfl
  | queued hsign => exact ⟨fun _ ↦ hsign, nofun⟩
  | begun => exact ⟨nofun, nofun⟩
  | moved ht hmoves => exact known_of_moves hopen hmoves
  | told ht hphase => exact known_of_over (((h k _ ht).settled _ (.inl hphase)).mono hmore) rfl

theorem known_of_stepsWith {server : Server} (h : (start server).stepsWith steps = some s) :
    ∀ k t, s.tasks[k]? = some t → Known steps k t := by
  refine stepsWith_induction (P := fun steps s ↦ ∀ k t, s.tasks[k]? = some t → Known steps k t)
    (fun _ _ ht ↦ by cases ht) ?_ h
  intro before catalogue event a b hbefore hknown heffect k t ht
  exact heffect.known (manned_of_stepsWith hbefore).closed hknown ht

/-! ## Requests that are dispatched -/

theorem steps_of_some (h : s.step event = some s') (events : List Event) :
    s.steps (event :: events) = s'.steps events := by
  show (s.step event).bind (fun b ↦ b.steps events) = _
  rw [h]
  rfl

theorem step_task (ht : s.tasks[k]? = some t) (event : TaskEvent) :
    s.step (.task k event) = s.stepTask k t event := by
  show (s.tasks[k]?).bind _ = _
  rw [ht]
  rfl

theorem step_assign {workers : WorkerPool} (h : s.tasks = tasks ++ [⟨session, order, .waiting⟩])
    (hopen : s.workers.closed = false) (hworkers : s.workers.acquire? = some workers) :
    s.step (.task tasks.length .reserve) =
      some { s with workers, tasks := tasks ++ [⟨session, order, .reserved⟩] } := by
  rw [step_last h, ← setPhase_last (s := { s with workers }) h .reserved]
  simp [stepTask, hopen, hworkers]

theorem step_deliver_direct (h : s.tasks = tasks ++ [⟨none, order, .answered response⟩]) :
    s.step (.task tasks.length .deliver) =
      some { s with tasks := tasks ++ [⟨none, order, .over response⟩] } := by
  rw [step_last h, ← setPhase_last h]
  rfl

/-- A request that is dispatched while a worker is free is run on it, and the worker comes back. -/
theorem steps_dispatch {workers : WorkerPool} (hopen : s.workers.closed = false)
    (hworkers : s.workers.acquire? = some workers) (hsign : order.request.heartbeat = false) :
    s.steps (.dispatch order ::
        [TaskEvent.reserve, .call, .finish, .deliver].map (.task s.tasks.length)) =
      some { s with tasks := s.tasks ++ [⟨none, order, .over
        (Dispatcher.run s.server.catalogue order.serializer order.request)⟩] } := by
  have hqueued : s.step (.dispatch order) = some (s.begin none order .waiting) := by
    simp [step, hsign]
  have hassigned : (s.begin none order .waiting).step (.task s.tasks.length .reserve) =
      some { s with workers, tasks := s.tasks ++ [⟨none, order, .reserved⟩] } :=
    step_assign rfl hopen hworkers
  simp only [List.map_cons, List.map_nil]
  rw [steps_of_some hqueued, steps_of_some hassigned, steps_of_some (step_call rfl),
    steps_of_some (step_finish rfl), steps_of_some (step_deliver_direct rfl)]
  simp only [release_acquire? hworkers]
  rfl

/-! ## Workers come back -/

theorem exists_step_finish (ht : s.tasks[k]? = some t) (hphase : t.phase = .running) :
    ∃ s', s.step (.task k .finish) = some s' ∧ s'.workers = s.workers.release ∧
      s.holders = s'.holders + 1 := by
  have hcount := holders_setPhase (s := { s with workers := s.workers.release }) ht (.answered
    (Dispatcher.run s.server.catalogue t.order.serializer t.order.request))
  rw [holdsWorker_of_phase hphase] at hcount
  refine ⟨_, ?_, rfl, hcount.symm⟩
  rw [step_task ht]
  simp only [stepTask, hphase]

theorem exists_step_call (ht : s.tasks[k]? = some t) (hphase : t.phase = .reserved) :
    ∃ s', s.step (.task k .call) = some s' ∧ s'.workers = s.workers ∧ s'.holders = s.holders ∧
      s'.tasks[k]? = some { t with phase := .running } := by
  have hcount := holders_setPhase ht .running
  rw [holdsWorker_of_phase hphase] at hcount
  refine ⟨s.setPhase k .running, ?_, rfl, Nat.succ.inj hcount, ?_⟩
  · rw [step_task ht]
    simp only [stepTask, hphase]
  · show (s.tasks.modify k _)[k]? = _
    rw [List.getElem?_modify_eq, ht]
    rfl

/-- Whoever holds a worker can give it back. -/
theorem exists_steps_returned {rest : Nat} (h : s.holders = rest + 1) :
    ∃ events s', s.steps events = some s' ∧ s'.workers = s.workers.release ∧ s'.holders = rest := by
  cases hreservations : s.reservations with
  | succ reservations =>
    have hstep : s.step .release = some { s with workers := s.workers.release, reservations } := by
      simp only [step, hreservations]
    refine ⟨[.release], _, steps_of_some hstep [], rfl, ?_⟩
    unfold holders at h
    show reservations + s.tasks.countP Task.holdsWorker = rest
    omega
  | zero =>
    have hpos : 0 < s.tasks.countP Task.holdsWorker := by
      unfold holders at h
      omega
    obtain ⟨t, hmem, hholds⟩ := List.countP_pos_iff.mp hpos
    obtain ⟨k, ht⟩ := List.mem_iff_getElem?.mp hmem
    unfold Task.holdsWorker at hholds
    split at hholds
    case h_1 hphase =>
      obtain ⟨a, hcall, hsame, hcount, hrunning⟩ := exists_step_call ht hphase
      obtain ⟨b, hfinish, hreturned, hless⟩ := exists_step_finish hrunning rfl
      refine ⟨[.task k .call, .task k .finish], b, ?_, hreturned.trans (by rw [hsame]), by omega⟩
      rw [steps_of_some hcall, steps_of_some hfinish]
      rfl
    case h_2 hphase =>
      obtain ⟨b, hfinish, hreturned, hless⟩ := exists_step_finish ht hphase
      exact ⟨[.task k .finish], b, steps_of_some hfinish [], hreturned, by omega⟩
    case h_3 => cases hholds

/-- All workers can come back. -/
theorem Manned.exists_steps_idle {capacity : Nat} (h : Manned capacity s) :
    ∃ events s', s.steps events = some s' ∧ s'.workers = ⟨capacity, 0, false⟩ := by
  induction hholders : s.holders generalizing s with
  | zero =>
    obtain ⟨hopen, htotal, hheld⟩ := h
    refine ⟨[], s, rfl, ?_⟩
    cases hworkers : s.workers with
    | mk free held closed =>
      rw [hworkers] at hopen htotal hheld
      obtain rfl : closed = false := hopen
      obtain rfl : held = 0 := hheld.trans hholders
      obtain rfl : free = capacity := htotal
      rfl
  | succ rest ih =>
    obtain ⟨events, b, hb, hworkers, hless⟩ := exists_steps_returned hholders
    have hmanned : Manned capacity b := h.returned hworkers (by omega)
    obtain ⟨later, c, hc, hidle⟩ := ih hmanned hless
    refine ⟨events ++ later, c, ?_, hidle⟩
    rw [steps_append, hb]
    exact hc

/-! ## What is true of the workers -/

/-- What is true of the workers of a server after some steps. -/
structure Staffed (server : Server) (steps : List (Catalogue × Event)) (s : Serving) : Prop where
  total : s.workers.free + s.workers.held = max server.config.maxWorkers 1
  /-- A worker that is not free is held by a direct caller that has reserved it, or by a task whose
  method has not ended. -/
  held : s.workers.held = s.reservations + s.tasks.countP Task.holdsWorker
  running : s.tasks.countP Task.isRunning ≤ max server.config.maxWorkers 1
  /-- No worker is taken for a sign of life. -/
  hired : ∀ catalogue event s', s.stepWith catalogue event = some s' →
    s'.workers.free < s.workers.free →
      ∃ order?, Hires s event order? ∧ ∀ order ∈ order?, order.request.heartbeat = false
  /-- Whoever waits for a worker is not turned away. -/
  admitted : ∀ catalogue k s', s.stepWith catalogue (.task k .reserve) = some s' →
    ∃ t, s'.tasks[k]? = some t ∧ t.phase = .reserved
  settled : ∀ k t response, s.tasks[k]? = some t →
    t.phase = .answered response ∨ t.phase = .over response → Settled steps k t.order response
  /-- A request that is dispatched gets its answer where a worker is free, and a sign of life at
  once; the workers are then as they were before. -/
  dispatched : ∀ catalogue order, order.request.heartbeat = true ∨ 0 < s.workers.free →
    ∃ events s' response, (s.offering catalogue).steps (.dispatch order :: events) = some s' ∧
      (order.request.heartbeat = true → events = []) ∧
      s'.workers = s.workers ∧ s'.tasks = s.tasks ++ [⟨none, order, .over response⟩] ∧
      Dispatcher.Answers catalogue order.serializer order.request response
  /-- Every worker can become free. -/
  recovers : ∀ catalogue, ∃ events s', (s.offering catalogue).steps events = some s' ∧
    s'.workers = ⟨max server.config.maxWorkers 1, 0, false⟩

theorem holdsWorker_of_isRunning (h : t.isRunning = true) : t.holdsWorker = true := by
  unfold Task.isRunning at h
  split at h
  case h_1 hphase => rw [Task.holdsWorker, hphase]
  case h_2 => cases h

theorem Manned.running_le {capacity : Nat} (h : Manned capacity s) :
    s.tasks.countP Task.isRunning ≤ capacity :=
  calc s.tasks.countP Task.isRunning
      ≤ s.tasks.countP Task.holdsWorker :=
        List.countP_mono_left fun _ _ ↦ holdsWorker_of_isRunning
    _ ≤ s.holders := Nat.le_add_left _ _
    _ = s.workers.held := h.held.symm
    _ ≤ capacity := h.total ▸ Nat.le_add_left _ _

/-- A step that takes a worker takes it for somebody. -/
theorem hires_of_free_lt (heffect : Effect s event s') (h : s'.workers.free < s.workers.free) :
    ∃ order?, Hires s event order? := by
  cases heffect.staffing with
  | kept hworkers => exact absurd h (hworkers ▸ Nat.lt_irrefl _)
  | taken hhires => exact ⟨_, hhires⟩
  | returned hworkers =>
    rw [hworkers] at h
    exact absurd h (Nat.not_lt.mpr s.workers.free_le_release)

theorem heartbeat_of_hires {events : List Event} (haccounted : Accounted events s)
    (hknown : ∀ k t, s.tasks[k]? = some t → Known steps k t) (h : Hires s event order?) :
    ∀ order ∈ order?, order.request.heartbeat = false := by
  intro order horder
  cases h with
  | @session id S other hS hstage =>
    obtain rfl := Option.some.inj horder
    have hread := (haccounted.balanced id S hS).orders_of_reserving hstage
    exact haccounted.heartbeat hS (hread ▸ List.mem_append_right _ List.mem_cons_self)
  | task ht hphase =>
    obtain rfl := Option.some.inj horder
    exact (hknown _ _ ht).waiting hphase
  | direct => cases horder

theorem admitted_of_step (hopen : s.workers.closed = false)
    (h : s.step (.task k .reserve) = some s') :
    ∃ t, s'.tasks[k]? = some t ∧ t.phase = .reserved := by
  cases effect_of_step h with
  | @worked k t event workers phase ht hmoves =>
    cases hmoves with
    | turnedAway _ hclosed => exact absurd hclosed (Bool.eq_false_iff.mp hopen)
    | assigned =>
      refine ⟨{ t with phase := .reserved }, ?_, rfl⟩
      show (s.tasks.modify k _)[k]? = _
      rw [List.getElem?_modify_eq, ht]
      rfl

theorem dispatched_of_free (hopen : s.workers.closed = false) (order : Session.Order)
    (h : order.request.heartbeat = true ∨ 0 < s.workers.free) :
    ∃ events s' response, s.steps (.dispatch order :: events) = some s' ∧
      (order.request.heartbeat = true → events = []) ∧
      s'.workers = s.workers ∧ s'.tasks = s.tasks ++ [⟨none, order, .over response⟩] ∧
      Dispatcher.Answers s.server.catalogue order.serializer order.request response := by
  cases hsign : order.request.heartbeat with
  | true =>
    have hpassed : s.step (.dispatch order) = some (s.begin none order (.over none)) := by
      simp [step, hsign]
    refine ⟨[], _, none, steps_of_some hpassed [], fun _ ↦ rfl, rfl, rfl, .handled ?_⟩
    rw [Dispatcher.handle, Dispatcher.plan_of_heartbeat hsign]
    rfl
  | false =>
    have hfree : 0 < s.workers.free := by
      rcases h with hheartbeat | hfree
      · rw [hsign] at hheartbeat
        cases hheartbeat
      · exact hfree
    obtain ⟨workers, hworkers⟩ := WorkerPool.exists_acquire? hopen hfree
    exact ⟨_, _, _, steps_dispatch hopen hworkers hsign, fun h ↦ absurd h Bool.false_ne_true,
      rfl, rfl, Dispatcher.answers_run ..⟩

/-- After any steps of a server, whatever its methods do and whoever is cut off: all workers are
there, no more methods run than there are workers, and what is dispatched is answered as if it had
been handled by its caller, unless its method breaks off. -/
theorem staffed_of_stepsWith {server : Server} (h : (start server).stepsWith steps = some s) :
    Staffed server steps s := by
  have hmanned := manned_of_stepsWith h
  have hknown := known_of_stepsWith h
  have haccounted := (accounted_start server).stepsWith h
  refine
    { total := hmanned.total
      held := hmanned.held
      running := hmanned.running_le
      hired := fun catalogue event s' hstep hless ↦ ?hired
      admitted := fun catalogue k s' hstep ↦ ?admitted
      settled := fun k t response ht hphase ↦ (hknown k t ht).settled response hphase
      dispatched := fun catalogue order horder ↦ ?dispatched
      recovers := fun catalogue ↦ ?recovers }
  case hired =>
    obtain ⟨order?, hhires⟩ := hires_of_free_lt (effect_of_stepWith hstep) hless
    have hhires : Hires s event order? := by
      cases hhires with
      | session hS hstage => exact .session hS hstage
      | task ht hphase => exact .task ht hphase
      | direct => exact .direct
    exact ⟨order?, hhires, heartbeat_of_hires haccounted hknown hhires⟩
  case admitted => exact admitted_of_step (s := s.offering catalogue) hmanned.closed hstep
  case dispatched =>
    exact dispatched_of_free (s := s.offering catalogue) hmanned.closed order horder
  case recovers =>
    have hoffering : Manned (max server.config.maxWorkers 1) (s.offering catalogue) :=
      ⟨hmanned.closed, hmanned.total, hmanned.held⟩
    exact hoffering.exists_steps_idle

/-- A server that asks for no worker, and so has one. -/
def loneServer : Server := ⟨{ ServerConfig.standard with maxWorkers := 0 }, .empty, .all⟩

/-- A method that breaks off has the only worker. A second connection waits for it and is cut off
when the server stops, a heartbeat is dispatched, and a request that was dispatched is next. -/
def crowdedEvents : List Event :=
  [.accept, .accept] ++
    [SessionEvent.arrive (.frame ⟨.bincode, .request (.call "a" "Frail" "break" [])⟩), .read,
      .reserve].map (.session 0) ++
    [SessionEvent.arrive (.frame ⟨.json, .request (.call "b" "Frail" "break" [])⟩),
      .read].map (.session 1) ++
    [.dispatch ⟨.json, .alive "c"⟩, .dispatch ⟨.json, .call "d" "Frail" "break" []⟩] ++
    [TaskEvent.call, .finish, .deliver].map (.task 0) ++
    [.stop, .shut, .session 1 .abort, .reserve, .release, .task 2 .reserve]

def crowdedSteps : List (Catalogue × Event) :=
  crowdedEvents.map fun event ↦ (⟨[("Frail", frailHandler)]⟩, event)

theorem staffed_crowded : ∃ s, (start loneServer).stepsWith crowdedSteps = some s ∧
    Staffed loneServer crowdedSteps s ∧ s.workers = ⟨0, 1, false⟩ ∧
    s.tasks.map Task.phase =
      [.over (some (.failure "a" .fail "service method panicked")), .over none, .reserved] := by
  have hend : ((start loneServer).stepsWith crowdedSteps).map (fun s ↦
      (s.workers, s.tasks.map Task.phase)) = some (⟨0, 1, false⟩,
        [.over (some (.failure "a" .fail "service method panicked")), .over none, .reserved]) := by
    rfl
  obtain ⟨s, hs, hend⟩ := Option.map_eq_some_iff.mp hend
  obtain ⟨hworkers, htasks⟩ := Prod.mk.inj hend
  exact ⟨s, hs, staffed_of_stepsWith hs, hworkers, htasks⟩

end Serving

end FramedRpc
