import FramedRpc.Proofs.Server.Workers

/-!
# The order in which responses are handed over

A task hands its response over once, when its method has ended and its worker was given back. A
session writes the replies that it got in the order in which it got them: while its loop goes on,
those that it wrote and those that it has yet to write are all of them.
-/

namespace FramedRpc

/-- The reply that a task has handed over to a session. -/
def Task.replyFor (t : Task) (id : SessionId) : Option Session.Reply :=
  match t.phase with
  | .over (some response) =>
    if t.session = some id then some ⟨t.order.serializer, response⟩ else none
  | _ => none

/-- Only a task of the session that is over has handed a reply over to it. -/
theorem Task.replyFor_eq_none {t : Task} {id : SessionId}
    (h : t.session = some id → t.isOver = false) : t.replyFor id = none := by
  unfold Task.isOver at h
  unfold Task.replyFor
  split
  case h_1 hphase =>
    rw [hphase] at h
    exact if_neg fun hsession ↦ Bool.false_ne_true (h hsession).symm
  case h_2 => rfl

theorem Task.replyFor_of_session_ne {t : Task} {id : SessionId} (h : t.session ≠ some id) :
    t.replyFor id = none :=
  replyFor_eq_none fun hsession ↦ absurd hsession h

/-- A task of a session that is over has handed an answer to its request over. -/
def Task.Replied (t : Task) : Prop :=
  ∀ id, t.session = some id → t.isOver = true → ∃ r, t.replyFor id = some r ∧ r.Answers t.order

/-! ## Sessions -/

namespace Session

variable {S T : Session} {now : Nat} {replies : List Reply}

/-- A session writes some replies in their order, and loses none of them while its loop goes on. -/
structure Queues (S : Session) (replies : List Reply) : Prop where
  written : S.written <+: replies
  outbox : S.isOpen = true → S.written ++ S.outbox = replies

namespace Queues

/-- Where nothing is written, the replies that are to be written stay unless the loop was left. -/
theorem of_eq (h : S.Queues replies) (hwritten : T.written = S.written)
    (houtbox : T.isOpen = true → S.isOpen = true ∧ T.outbox = S.outbox) : T.Queues replies where
  written := hwritten ▸ h.written
  outbox hopen := by
    obtain ⟨hbefore, hsame⟩ := houtbox hopen
    rw [hwritten, hsame, h.outbox hbefore]

theorem of_left (h : S.Queues replies) (hwritten : T.written = S.written)
    (hleft : T.isOpen = false) : T.Queues replies :=
  h.of_eq hwritten fun hopen ↦ absurd (hleft.symm.trans hopen) Bool.false_ne_true

theorem turn (h : S.Queues replies) : S.turn.Queues replies := by
  rcases turn_cases S with hturn | ⟨-, hturn⟩
  · rw [hturn]
    exact h
  · rw [hturn]
    exact h.of_left rfl rfl

theorem reads (h : S.Queues replies) (hserving : S.isServing = true) (hreads : S.Reads now T) :
    T.Queues replies := by
  have hopen : S.isOpen = true := isOpen_of_isServing hserving
  cases hreads with
  | order => exact h.of_eq rfl fun _ ↦ ⟨hopen, rfl⟩
  | sign =>
    apply turn
    exact h.of_eq rfl fun _ ↦ ⟨hopen, rfl⟩
  | ended => exact h.of_left rfl rfl

theorem writes {Fails : Reply → Fault → Prop} (h : S.Queues replies) (hserving : S.isServing = true)
    (hwrites : S.Writes now Fails T) : T.Queues replies := by
  cases hwrites with
  | @sent r rest houtbox =>
    apply turn
    have hreplies : S.written ++ [r] ++ rest = replies := by
      rw [← h.outbox (isOpen_of_isServing hserving), houtbox, List.append_assoc]
      rfl
    exact ⟨⟨rest, hreplies⟩, fun _ ↦ hreplies⟩
  | failed => exact h.of_left rfl rfl

theorem moves {s : Serving} {event : Serving.SessionEvent} (h : S.Queues replies)
    (hmoves : S.Moves s event T) : T.Queues replies := by
  cases hmoves with
  | arrived => exact h.of_eq rfl fun hopen ↦ ⟨hopen, rfl⟩
  | read hread =>
    obtain ⟨hserving, hreads⟩ := reads_of_read? hread
    exact h.reads hserving hreads
  | refused => exact h.of_left rfl rfl
  | wrote hwrite =>
    obtain ⟨hserving, hwrites⟩ := writes_of_write? hwrite
    exact h.writes hserving hwrites
  | lost hlose =>
    obtain ⟨hserving, hwrites⟩ := writes_of_lose? hlose
    exact h.writes hserving hwrites
  | woke hwake =>
    rcases wake?_cases hwake with ⟨-, rfl⟩ | rfl
    · exact h.of_left rfl rfl
    · exact h.turn
  | quit => exact h.of_left rfl rfl
  | aborted => exact h.of_left rfl rfl

theorem reserved {order : Order} (h : S.Queues replies) (hstage : S.stage = .reserving order) :
    ({ S with stage := .serving }.turn).Queues replies := by
  apply turn
  exact h.of_eq rfl fun _ ↦ ⟨isOpen_of_reserving hstage, rfl⟩

/-- A reply that is handed over comes behind those before. -/
theorem queue (h : S.Queues replies) (r : Reply) : (S.queue r).Queues (replies ++ [r]) := by
  unfold Session.queue
  split
  case isTrue hopen =>
    have hreplies : S.written ++ (S.outbox ++ [r]) = replies ++ [r] := by
      rw [← List.append_assoc, h.outbox hopen]
    exact ⟨⟨S.outbox ++ [r], hreplies⟩, fun _ ↦ hreplies⟩
  case isFalse hleft =>
    exact ⟨h.written.trans (List.prefix_append _ _), fun hopen ↦ absurd hopen hleft⟩

end Queues

theorem queues_accept (limits : IdleLimits) (now : Nat) : (accept limits now).Queues [] :=
  Queues.turn ⟨List.prefix_rfl, fun _ ↦ rfl⟩

end Session

namespace Serving

variable {server : Server} {s s' : Serving} {id : SessionId} {k : TaskId} {t : Task}
  {event : Event} {catalogue : Catalogue} {steps : List (Catalogue × Event)} {tasks : List Task}

/-! ## What a step does to the tasks -/

/-- The task that hands its response over in a step. -/
def Event.delivers? : Event → Option TaskId
  | .task k .deliver => some k
  | _ => none

/-- The tasks behind a step. A task that begins for a session has got a worker that was free. -/
inductive Tasking (s : Serving) : Event → List Task → Prop
  | same {event : Event} (hsilent : event.delivers? = none) : Tasking s event s.tasks
  | direct {event : Event} {t : Task} (hsilent : event.delivers? = none)
    (hsession : t.session = none) : Tasking s event (s.tasks ++ [t])
  | hired {event : Event} (id : SessionId) (order : Session.Order)
    (hsilent : event.delivers? = none) (hfree : 0 < s.workers.free) :
    Tasking s event (s.tasks ++ [⟨some id, order, .reserved⟩])
  | moved {k : TaskId} {t : Task} {event : TaskEvent} {workers : WorkerPool} {phase : Task.Phase}
    (ht : s.tasks[k]? = some t) (hmoves : t.Moves s event workers phase) :
    Tasking s (.task k event) (s.tasks.set k { t with phase })
  | told {k : TaskId} {t : Task} {response : Option Response} (ht : s.tasks[k]? = some t)
    (hphase : t.phase = .answered response) :
    Tasking s (.task k .deliver) (s.tasks.set k { t with phase := .over response })

theorem Effect.tasking (heffect : Effect s event s') : Tasking s event s'.tasks := by
  cases heffect with
  | accepted => exact .same rfl
  | @moved id S T event hS hmoves => exact .same rfl
  | @reserved id S order workers hS hstage hworkers =>
    obtain ⟨hfree, -⟩ := WorkerPool.acquired hworkers
    exact .hired id order rfl (hfree ▸ Nat.succ_pos _)
  | @worked k t event workers phase ht hmoves =>
    show Tasking s _ (s.tasks.modify k _)
    rw [modify_of_some ht]
    exact .moved ht hmoves
  | @delivered k t response ht hphase =>
    show Tasking s _ ((s.deliver t response).tasks.modify k _)
    rw [tasks_deliver, modify_of_some ht]
    exact .told ht hphase
  | dispatched order => exact .direct rfl rfl
  | ran h order => exact .direct rfl rfl
  | _ => exact .same rfl

theorem delivers?_of_moves {event : TaskEvent} {workers : WorkerPool} {phase : Task.Phase}
    (hmoves : t.Moves s event workers phase) : (Event.task k event).delivers? = none := by
  cases hmoves <;> rfl

/-- A task that is over stays so. -/
theorem Tasking.kept_over (h : Tasking s event tasks) (ht : s.tasks[k]? = some t)
    (hover : t.isOver = true) : tasks[k]? = some t := by
  have hset {j : TaskId} {u v : Task} (hu : s.tasks[j]? = some u) (hnot : u.isOver = false) :
      (s.tasks.set j v)[k]? = some t := by
    rw [getElem?_set_of_some hu]
    split
    case isTrue hjk =>
      subst hjk
      obtain rfl := Option.some.inj (hu.symm.trans ht)
      exact absurd (hnot.symm.trans hover) Bool.false_ne_true
    case isFalse => exact ht
  cases h with
  | same => exact ht
  | direct | hired =>
    rw [List.getElem?_append_left (List.getElem?_eq_some_iff.mp ht).1]
    exact ht
  | moved hu hmoves => exact hset hu (isOver_of_moves hmoves)
  | told hu hphase => exact hset hu (by rw [Task.isOver, hphase])

/-! ## Answers -/

/-- A task hands an answer to its request over. -/
theorem Tasking.replied (h : Tasking s event tasks)
    (hdue : ∀ t ∈ s.tasks, ∀ id, t.session = some id → t.Due) (hold : ∀ t ∈ s.tasks, t.Replied)
    (u : Task) (hu : u ∈ tasks) : u.Replied := by
  intro id hsession hover
  cases h with
  | same => exact hold u hu id hsession hover
  | direct _ hnone =>
    rcases List.mem_append.mp hu with hmem | hnew
    · exact hold u hmem id hsession hover
    · obtain rfl := List.mem_singleton.mp hnew
      rw [hnone] at hsession
      cases hsession
  | hired =>
    rcases List.mem_append.mp hu with hmem | hnew
    · exact hold u hmem id hsession hover
    · obtain rfl := List.mem_singleton.mp hnew
      cases hover
  | moved ht hmoves =>
    rcases List.mem_or_eq_of_mem_set hu with hmem | rfl
    · exact hold u hmem id hsession hover
    · have hsettled := due_of_moves (hdue _ (List.mem_of_getElem? ht) id hsession) hmoves
      exact absurd (hsettled.2.symm.trans hover) Bool.false_ne_true
  | told ht hphase =>
    rcases List.mem_or_eq_of_mem_set hu with hmem | rfl
    · exact hold u hmem id hsession hover
    · obtain ⟨r, rfl, hr⟩ :=
        (hdue _ (List.mem_of_getElem? ht) id hsession).answered _ hphase
      exact ⟨_, if_pos hsession, rfl, hr⟩

theorem due_of_stepsWith (h : (start server).stepsWith steps = some s) :
    ∀ t ∈ s.tasks, ∀ id, t.session = some id → t.Due :=
  fun t ht id hsession ↦ (((accounted_start server).stepsWith h).due t ht id hsession).1

theorem replied_of_stepsWith (h : (start server).stepsWith steps = some s) :
    ∀ t ∈ s.tasks, t.Replied := by
  refine stepsWith_induction (P := fun _ s ↦ ∀ t ∈ s.tasks, t.Replied)
    (fun _ ht ↦ absurd ht List.not_mem_nil) ?_ h
  intro before catalogue event a b hbefore hreplied heffect
  have hdue := due_of_stepsWith hbefore
  exact heffect.tasking.replied hdue hreplied

/-! ## Handing over -/

/-- The tasks that handed their responses over, in the order in which they did. -/
def deliveries (steps : List (Catalogue × Event)) : List TaskId :=
  steps.filterMap (·.2.delivers?)

/-- The reply that a session got from a task. -/
def replyOf (s : Serving) (id : SessionId) (k : TaskId) : Option Session.Reply :=
  (s.tasks[k]?).bind (·.replyFor id)

/-- The replies that a session got, in the order in which they were handed over. -/
def replies (s : Serving) (steps : List (Catalogue × Event)) (id : SessionId) :
    List Session.Reply :=
  (deliveries steps).filterMap (s.replyOf id)

@[simp]
theorem deliveries_concat (steps : List (Catalogue × Event)) (step : Catalogue × Event) :
    deliveries (steps ++ [step]) = deliveries steps ++ step.2.delivers?.toList :=
  filterMap_concat _ steps step

/-- Each task hands its response over once, and the sessions write what they get in that order. -/
structure HandsOver (steps : List (Catalogue × Event)) (s : Serving) : Prop where
  isOver : ∀ k ∈ deliveries steps, ∃ t, s.tasks[k]? = some t ∧ t.isOver = true
  nodup : (deliveries steps).Nodup
  queues : ∀ (id : SessionId) (S : Session), s.sessions[id]? = some S →
    S.Queues (s.replies steps id)

theorem handsOver_start (server : Server) : HandsOver [] (start server) where
  isOver := nofun
  nodup := .nil
  queues _ _ h := by cases h

/-- The reply that is handed over in a step comes behind those before. -/
theorem HandsOver.replies_step (h : HandsOver steps s) (htasking : Tasking s event s'.tasks)
    (catalogue : Catalogue) (id : SessionId) : s'.replies (steps ++ [(catalogue, event)]) id =
      s.replies steps id ++ (event.delivers?.bind (s'.replyOf id)).toList := by
  have hkept : ∀ k ∈ deliveries steps, s'.replyOf id k = s.replyOf id k := by
    intro k hk
    obtain ⟨t, ht, hover⟩ := h.isOver k hk
    rw [replyOf, replyOf, htasking.kept_over ht hover, ht]
  rw [replies, deliveries_concat, List.filterMap_append, List.filterMap_congr hkept]
  refine congrArg (s.replies steps id ++ ·) ?_
  cases event.delivers? with
  | none => rfl
  | some k =>
    show [k].filterMap (s'.replyOf id) = (s'.replyOf id k).toList
    rw [List.filterMap_cons]
    cases s'.replyOf id k <;> rfl

theorem Tasking.delivers?_cases (h : Tasking s event tasks) : event.delivers? = none ∨
    ∃ k t response, event = .task k .deliver ∧ s.tasks[k]? = some t ∧
      t.phase = .answered response ∧ tasks = s.tasks.set k { t with phase := .over response } := by
  cases h with
  | same hsilent | direct hsilent | hired _ _ hsilent => exact .inl hsilent
  | moved ht hmoves => exact .inl (delivers?_of_moves hmoves)
  | told ht hphase => exact .inr ⟨_, _, _, rfl, ht, hphase, rfl⟩

theorem HandsOver.isOver_step (h : HandsOver steps s) (htasking : Tasking s event tasks)
    (hk : k ∈ deliveries (steps ++ [(catalogue, event)])) :
    ∃ t, tasks[k]? = some t ∧ t.isOver = true := by
  simp only [deliveries_concat, List.mem_append] at hk
  rcases hk with hold | hnew
  · obtain ⟨t, ht, hover⟩ := h.isOver k hold
    exact ⟨t, htasking.kept_over ht hover, hover⟩
  · rcases htasking.delivers?_cases with hsilent | ⟨j, t, response, rfl, ht, -, rfl⟩
    · rw [hsilent] at hnew
      cases hnew
    · obtain rfl := List.mem_singleton.mp hnew
      exact ⟨_, List.getElem?_set_self (List.getElem?_eq_some_iff.mp ht).1, rfl⟩

/-- A task that hands its response over did not do so before. -/
theorem HandsOver.nodup_step (h : HandsOver steps s) (htasking : Tasking s event tasks)
    (catalogue : Catalogue) : (deliveries (steps ++ [(catalogue, event)])).Nodup := by
  rcases htasking.delivers?_cases with hsilent | ⟨k, t, response, rfl, ht, hphase, -⟩
  · simpa [hsilent] using h.nodup
  · rw [deliveries_concat]
    show (deliveries steps ++ [k]).Nodup
    refine List.nodup_append.mpr ⟨h.nodup, List.pairwise_singleton _ k, fun j hj i hi hji ↦ ?_⟩
    obtain rfl := List.mem_singleton.mp hi
    obtain ⟨u, hu, hover⟩ := h.isOver j hj
    obtain rfl := Option.some.inj (ht.symm.trans (hji ▸ hu))
    rw [Task.isOver, hphase] at hover
    cases hover

/-- A session that does not exist has got nothing. -/
theorem Accounted.replies_eq_nil {events : List Event} (h : Accounted events s)
    (hid : s.sessions.length ≤ id) (steps : List (Catalogue × Event)) :
    s.replies steps id = [] := by
  rw [replies, List.filterMap_eq_nil_iff]
  intro k _
  refine Option.bind_eq_none_iff.mpr fun t ht ↦ Task.replyFor_of_session_ne fun hsession ↦ ?_
  exact absurd (h.due t (List.mem_of_getElem? ht) id hsession).2 (Nat.not_lt_of_le hid)

@[simp]
theorem getElem?_sessions_deliver (s : Serving) (t : Task) (response : Option Response)
    (id : SessionId) : (s.deliver t response).sessions[id]? = (s.sessions[id]?).map fun S ↦
      (Task.replyFor { t with phase := .over response } id).elim S S.queue := by
  cases response with
  | none =>
    have hsame : s.deliver t none = s := by
      unfold deliver
      cases t.session <;> rfl
    rw [hsame]
    exact Option.map_id'.symm
  | some r =>
    obtain ⟨session, order, phase⟩ := t
    cases session with
    | none => exact Option.map_id'.symm
    | some other =>
      show (s.sessions.modify other _)[id]? = _
      by_cases hid : other = id
      case pos =>
        subst hid
        rw [List.getElem?_modify_eq, Task.replyFor]
        simp
      case neg =>
        have hreply : Task.replyFor ⟨some other, order, .over (some r)⟩ id = none :=
          Task.replyFor_of_session_ne fun heq ↦ hid (Option.some.inj heq)
        rw [List.getElem?_modify_ne _ _ hid, hreply]
        exact Option.map_id'.symm

/-- A session gets the reply that is handed over to it, and no other step changes what it got. -/
theorem HandsOver.queues_step {events : List Event} (h : HandsOver steps s)
    (haccounted : Accounted events s) (heffect : Effect s event s') (catalogue : Catalogue)
    (U : Session) (hU : s'.sessions[id]? = some U) :
    U.Queues (s'.replies (steps ++ [(catalogue, event)]) id) := by
  have htasking := heffect.tasking
  rw [h.replies_step htasking]
  rcases htasking.delivers?_cases with hsilent | ⟨k, t, response, rfl, ht, hphase, htasks⟩
  · rw [hsilent, Option.bind_none, Option.toList_none, List.append_nil]
    cases heffect.origin hU with
    | kept hS => exact h.queues id U hS
    | accepted hnone =>
      rw [haccounted.replies_eq_nil (List.getElem?_eq_none_iff.mp hnone)]
      exact Session.queues_accept _ _
    | moved hS hmoves => exact (h.queues id _ hS).moves hmoves
    | reserved hS hstage => exact (h.queues id _ hS).reserved hstage
    | told => cases hsilent
  · have htold : s'.replyOf id k = Task.replyFor { t with phase := .over response } id := by
      rw [replyOf, htasks, List.getElem?_set_self (List.getElem?_eq_some_iff.mp ht).1]
      rfl
    have hsessions : s'.sessions = (s.deliver t response).sessions := by
      cases heffect with
      | worked _ hmoves => cases hmoves
      | delivered hu hother =>
        obtain rfl := Option.some.inj (ht.symm.trans hu)
        obtain rfl := Task.Phase.answered.inj (hphase.symm.trans hother)
        rfl
    rw [hsessions, getElem?_sessions_deliver] at hU
    obtain ⟨S, hS, rfl⟩ := Option.map_eq_some_iff.mp hU
    show Session.Queues _ (s.replies steps id ++ (s'.replyOf id k).toList)
    rw [htold]
    cases Task.replyFor { t with phase := .over response } id with
    | none =>
      rw [Option.toList_none, List.append_nil]
      exact h.queues id S hS
    | some r => exact (h.queues id S hS).queue r

/-- After any steps of a server: each task has handed its response over once at most, and the
sessions have written what they got in that order. -/
theorem handsOver_of_stepsWith (h : (start server).stepsWith steps = some s) :
    HandsOver steps s := by
  refine stepsWith_induction (P := HandsOver) (handsOver_start server) ?_ h
  intro before catalogue event a b hbefore hhandsOver heffect
  have hoffering : HandsOver before (a.offering catalogue) :=
    ⟨hhandsOver.isOver, hhandsOver.nodup, hhandsOver.queues⟩
  have haccounted : Accounted (before.map Prod.snd) (a.offering catalogue) := by
    obtain ⟨hrequests, hbalanced, hdue⟩ := (accounted_start server).stepsWith hbefore
    exact ⟨hrequests, hbalanced, hdue⟩
  exact
    { isOver := fun _ ↦ hoffering.isOver_step heffect.tasking
      nodup := hoffering.nodup_step heffect.tasking catalogue
      queues := fun id ↦ hoffering.queues_step haccounted heffect catalogue }

end Serving

end FramedRpc
