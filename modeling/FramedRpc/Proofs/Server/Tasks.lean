import FramedRpc.Proofs.Lists
import FramedRpc.Proofs.Server.Accounts
import FramedRpc.Proofs.Server.Dispatch

/-!
# The tasks of a session

A task of a session is there to answer one request: it has a worker from the beginning, and when its
method has ended, however it ended, there is a response with the identifier of the request. The
requests for which tasks were started, and the keys of those tasks that are over, change in few
ways: a task is added, and a task is over.
-/

namespace FramedRpc

def Task.isOver (t : Task) : Bool :=
  match t.phase with
  | .over _ => true
  | _ => false

/-- The order of a task that was started for a session. -/
def Task.orderFor (t : Task) (id : SessionId) : Option Session.Order :=
  if t.session = some id then some t.order else none

/-- The key of the response that a task has handed over to a session. -/
def Task.keyFor (t : Task) (id : SessionId) : Option (Serializer × String) :=
  if t.session = some id ∧ t.isOver = true then some t.order.key else none

/-- A task of a session is to answer its request: that is no sign of life, has a worker, and gets a
response with its identifier. -/
structure Task.Due (t : Task) : Prop where
  call : t.order.request.heartbeat = false
  assigned : t.phase ≠ .waiting
  answered : ∀ response, t.phase = .answered response →
    ∃ r, response = some r ∧ r.id = t.order.request.id

namespace Serving

variable {s : Serving} {id : SessionId} {k : TaskId} {t : Task} {phase : Task.Phase}

def taken (s : Serving) (id : SessionId) : List Session.Order := s.tasks.filterMap (·.orderFor id)

def answered (s : Serving) (id : SessionId) : List (Serializer × String) :=
  s.tasks.filterMap (·.keyFor id)

theorem taken_begin (s : Serving) (session : Option SessionId) (order : Session.Order)
    (phase : Task.Phase) (id : SessionId) : (s.begin session order phase).taken id =
      s.taken id ++ (Task.orderFor ⟨session, order, phase⟩ id).toList :=
  filterMap_concat _ s.tasks _

theorem answered_begin (s : Serving) (session : Option SessionId) (order : Session.Order)
    (phase : Task.Phase) (id : SessionId) : (s.begin session order phase).answered id =
      s.answered id ++ (Task.keyFor ⟨session, order, phase⟩ id).toList :=
  filterMap_concat _ s.tasks _

/-- A direct call is no task of a session. -/
@[simp]
theorem taken_begin_none (s : Serving) (order : Session.Order) (phase : Task.Phase)
    (id : SessionId) : (s.begin none order phase).taken id = s.taken id := by
  rw [taken_begin]
  exact List.append_nil _

@[simp]
theorem answered_begin_none (s : Serving) (order : Session.Order) (phase : Task.Phase)
    (id : SessionId) : (s.begin none order phase).answered id = s.answered id := by
  have hkey : Task.keyFor ⟨none, order, phase⟩ id = none := if_neg nofun
  rw [answered_begin, hkey]
  exact List.append_nil _

theorem mem_of_mem_begin_none {u : Task} {order : Session.Order}
    (hu : u ∈ (s.begin none order phase).tasks) (hsession : u.session = some id) : u ∈ s.tasks := by
  rcases List.mem_append.mp hu with hold | hnew
  · exact hold
  · obtain rfl := List.mem_singleton.mp hnew
    cases hsession

@[simp]
theorem taken_setPhase (s : Serving) (k : TaskId) (phase : Task.Phase) (id : SessionId) :
    (s.setPhase k phase).taken id = s.taken id :=
  filterMap_modify_of_eq k fun _ ↦ rfl

theorem keyFor_of_not_isOver (h : t.isOver = false) (id : SessionId) : t.keyFor id = none := by
  simp [Task.keyFor, h]

/-- When a task is over, its key is added to those of its session. -/
theorem answered_setPhase (ht : s.tasks[k]? = some t) (hphase : t.isOver = false)
    (phase : Task.Phase) (id : SessionId) : ((s.setPhase k phase).answered id).Perm
      ((Task.keyFor { t with phase } id).toList ++ s.answered id) :=
  filterMap_modify_of_none ht (keyFor_of_not_isOver hphase id)

theorem mem_setPhase {u : Task} (h : u ∈ (s.setPhase k phase).tasks) :
    u ∈ s.tasks ∨ ∃ t, s.tasks[k]? = some t ∧ u = { t with phase } := by
  obtain ⟨j, hj⟩ := List.mem_iff_getElem?.mp h
  rw [setPhase, List.getElem?_modify] at hj
  obtain ⟨t, ht, hu⟩ := Option.map_eq_some_iff.mp hj
  split at hu
  case isTrue hk => exact .inr ⟨t, hk ▸ ht, hu.symm⟩
  case isFalse => exact .inl (hu ▸ List.mem_of_getElem? ht)

/-- A response that is handed over changes nothing but what the sessions hold. -/
theorem deliver_eq (s : Serving) (t : Task) (response : Option Response) :
    ∃ sessions, sessions.length = s.sessions.length ∧
      s.deliver t response = { s with sessions } := by
  unfold deliver
  split
  case h_1 => exact ⟨_, List.length_modify _ _ _, rfl⟩
  case h_2 => exact ⟨s.sessions, rfl, rfl⟩

@[simp]
theorem tasks_deliver (s : Serving) (t : Task) (response : Option Response) :
    (s.deliver t response).tasks = s.tasks := by
  obtain ⟨sessions, -, hsessions⟩ := s.deliver_eq t response
  rw [hsessions]

@[simp]
theorem length_sessions_deliver (s : Serving) (t : Task) (response : Option Response) :
    (s.deliver t response).sessions.length = s.sessions.length := by
  obtain ⟨sessions, hlength, hsessions⟩ := s.deliver_eq t response
  rw [hsessions]
  exact hlength

@[simp]
theorem taken_deliver (s : Serving) (t : Task) (response : Option Response) (id : SessionId) :
    (s.deliver t response).taken id = s.taken id := by
  simp [taken]

@[simp]
theorem answered_deliver (s : Serving) (t : Task) (response : Option Response) (id : SessionId) :
    (s.deliver t response).answered id = s.answered id := by
  simp [answered]

/-- When a task has handed its response over, its key is added to those of its session. -/
theorem answered_delivered {response : Option Response} (ht : s.tasks[k]? = some t)
    (hphase : t.phase = .answered response) (id : SessionId) :
    (((s.deliver t response).setPhase k (.over response)).answered id).Perm
      ((Task.keyFor { t with phase := .over response } id).toList ++ s.answered id) := by
  have hnotover : t.isOver = false := by
    rw [Task.isOver, hphase]
  simpa using answered_setPhase (s := s.deliver t response) (by simpa using ht) hnotover
    (.over response) id

/-! ## Tasks that are to answer -/

theorem isOver_of_moves {event : TaskEvent} {workers : WorkerPool}
    (hmoves : t.Moves s event workers phase) : t.isOver = false := by
  unfold Task.isOver
  cases hmoves with
  | turnedAway hphase => rw [hphase]
  | assigned hphase => rw [hphase]
  | cancelled hphase => rw [hphase]
  | called hphase => rw [hphase]
  | finished hphase => rw [hphase]

/-- A task that is to answer is so behind a step that it makes by itself, and is not over. -/
theorem due_of_moves {event : TaskEvent} {workers : WorkerPool} (hdue : t.Due)
    (hmoves : t.Moves s event workers phase) :
    Task.Due { t with phase } ∧ Task.isOver { t with phase } = false := by
  cases hmoves with
  | turnedAway hphase => exact absurd hphase hdue.assigned
  | assigned hphase => exact absurd hphase hdue.assigned
  | cancelled hphase => exact absurd hphase hdue.assigned
  | called => exact ⟨⟨hdue.call, nofun, nofun⟩, rfl⟩
  | finished =>
    refine ⟨⟨hdue.call, nofun, fun response hresponse ↦ ?_⟩, rfl⟩
    obtain ⟨r, hr, hid⟩ :=
      Dispatcher.run_of_order s.server.catalogue t.order.serializer hdue.call
    exact ⟨r, (Task.Phase.answered.inj hresponse).symm.trans hr, hid⟩

/-! ## Requests and answers -/

theorem keyFor_eq (t : Task) (id : SessionId) : t.keyFor id =
    if t.isOver = true then (t.orderFor id).map Session.Order.key else none := by
  unfold Task.keyFor Task.orderFor
  by_cases hover : t.isOver = true <;> by_cases hsession : t.session = some id <;>
    simp [hover, hsession]

/-- The keys of the tasks that are over are among those of the requests for which tasks started. -/
theorem answered_sublist (s : Serving) (id : SessionId) :
    (s.answered id).Sublist ((s.taken id).map Session.Order.key) := by
  have hanswered : s.answered id =
      (s.tasks.filter Task.isOver).filterMap fun t ↦ (t.orderFor id).map Session.Order.key := by
    rw [List.filterMap_filter]
    refine List.filterMap_congr fun t _ ↦ ?_
    rw [keyFor_eq]
  rw [hanswered, taken, List.map_filterMap]
  exact List.filter_sublist.filterMap _

/-- Where all tasks of a session are over, the keys are those of all requests that it took on. -/
theorem answered_of_isOver (h : ∀ t ∈ s.tasks, t.session = some id → t.isOver = true) :
    s.answered id = (s.taken id).map Session.Order.key := by
  rw [taken, List.map_filterMap]
  refine List.filterMap_congr fun t ht ↦ ?_
  rw [keyFor_eq]
  by_cases hsession : t.session = some id
  case pos => rw [h t ht hsession, if_pos rfl]
  case neg =>
    have hnone : t.orderFor id = none := if_neg hsession
    rw [hnone, Option.map_none, ite_self]

end Serving

end FramedRpc
