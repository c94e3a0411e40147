import FramedRpc.Proofs.Server.Handovers

/-!
# Servers with one worker

One worker runs the methods of a session one after the other, in the order in which the requests
were read. It is given back before the response is handed over, so a task whose method has ended can
be overtaken by the tasks behind it. Unless that happens the responses are written in the order of
the requests.
-/

namespace FramedRpc

def Task.hasEnded (t : Task) : Bool :=
  match t.phase with
  | .answered _ | .over _ => true
  | _ => false

namespace Serving

variable {server : Server} {s s' : Serving} {id : SessionId} {S : Session} {k : TaskId} {t : Task}
  {event : Event} {steps : List (Catalogue × Event)} {tasks : List Task}

theorem hasEnded_of_due (hdue : t.Due) (hholds : t.holdsWorker = false) : t.hasEnded = true := by
  unfold Task.holdsWorker at hholds
  unfold Task.hasEnded
  cases hphase : t.phase with
  | waiting => exact absurd hphase hdue.assigned
  | reserved | running =>
    rw [hphase] at hholds
    cases hholds
  | _ => rfl

theorem hasEnded_of_moves {event : TaskEvent} {workers : WorkerPool} {phase : Task.Phase}
    (hmoves : t.Moves s event workers phase) : t.hasEnded = false := by
  unfold Task.hasEnded
  cases hmoves with
  | turnedAway hphase => rw [hphase]
  | assigned hphase => rw [hphase]
  | cancelled hphase => rw [hphase]
  | called hphase => rw [hphase]
  | finished hphase => rw [hphase]

/-! ## One after the other -/

/-- Of two tasks of sessions, the method of the earlier one has ended. -/
def EndsFirst (t u : Task) : Prop := t.session ≠ none → u.session ≠ none → t.hasEnded = true

/-- A task of a session begins when all earlier ones have given the worker back. -/
theorem Tasking.endsFirst (h : Tasking s event tasks) (hmanned : Manned 1 s)
    (hdue : ∀ t ∈ s.tasks, ∀ id, t.session = some id → t.Due)
    (hold : s.tasks.Pairwise EndsFirst) : tasks.Pairwise EndsFirst := by
  have hconcat {u : Task} (hu : ∀ t ∈ s.tasks, EndsFirst t u) :
      (s.tasks ++ [u]).Pairwise EndsFirst := by
    refine List.pairwise_append.mpr ⟨hold, List.pairwise_singleton _ u, fun t ht v hv ↦ ?_⟩
    obtain rfl := List.mem_singleton.mp hv
    exact hu t ht
  cases h with
  | same => exact hold
  | direct _ hnone => exact hconcat fun _ _ _ hsome ↦ absurd hnone hsome
  | hired id order _ hfree =>
    refine hconcat fun t ht hsession _ ↦ ?_
    obtain ⟨other, hother⟩ := Option.ne_none_iff_exists'.mp hsession
    have hholders : s.tasks.countP Task.holdsWorker = 0 := by
      have htotal := hmanned.total
      have hheld := hmanned.held
      unfold holders at hheld
      omega
    exact hasEnded_of_due (hdue t ht other hother)
      (Bool.eq_false_iff.mpr (List.countP_eq_zero.mp hholders t ht))
  | moved ht hmoves =>
    refine pairwise_set hold ht (fun _ _ _ _ hrel ↦ hrel) fun c hrel hsession hc ↦ ?_
    exact absurd ((hasEnded_of_moves hmoves).symm.trans (hrel hsession hc)) Bool.false_ne_true
  | told ht hphase => exact pairwise_set hold ht (fun _ _ _ _ hrel ↦ hrel) fun _ _ _ _ ↦ rfl

theorem endsFirst_of_stepsWith (hone : server.config.maxWorkers ≤ 1)
    (h : (start server).stepsWith steps = some s) : s.tasks.Pairwise EndsFirst := by
  refine stepsWith_induction (P := fun _ s ↦ s.tasks.Pairwise EndsFirst) .nil ?_ h
  intro before catalogue event a b hbefore hendsFirst heffect
  have hmanned := manned_of_stepsWith hbefore
  rw [max_eq_right hone] at hmanned
  have hdue := due_of_stepsWith hbefore
  exact heffect.tasking.endsFirst ⟨hmanned.closed, hmanned.total, hmanned.held⟩ hdue hendsFirst

/-! ## Overtaking -/

/-- A task hands its response over to a session before an earlier one does, whose method has
ended. -/
def Overtakes (s : Serving) (id : SessionId) (event : Event) : Prop :=
  ∃ k u i t response, event = .task k .deliver ∧ s.tasks[k]? = some u ∧ u.session = some id ∧
    i < k ∧ s.tasks[i]? = some t ∧ t.session = some id ∧ t.phase = .answered response

/-- A task of a session was overtaken in some steps of a server. -/
def Overtaken (server : Server) (steps : List (Catalogue × Event)) (id : SessionId) : Prop :=
  ∃ before catalogue event a, before ++ [(catalogue, event)] <+: steps ∧
    (start server).stepsWith before = some a ∧ a.Overtakes id event

theorem Overtaken.append (h : Overtaken server steps id) (step : Catalogue × Event) :
    Overtaken server (steps ++ [step]) id := by
  obtain ⟨before, catalogue, event, a, hbefore, ha, hovertakes⟩ := h
  exact ⟨before, catalogue, event, a, hbefore.trans (List.prefix_append _ _), ha, hovertakes⟩

/-- The earlier one of two tasks of a session is over if the later one is. -/
def OverFirst (id : SessionId) (t u : Task) : Prop :=
  t.session = some id → u.session = some id → u.isOver = true → t.isOver = true

/-- A session got its replies in the order of the tasks. -/
structure Aligned (steps : List (Catalogue × Event)) (s : Serving) (id : SessionId) : Prop where
  first : s.tasks.Pairwise (OverFirst id)
  replies : s.replies steps id = s.tasks.filterMap (·.replyFor id)

theorem Tasking.overFirst (h : Tasking s event tasks)
    (hdue : ∀ t ∈ s.tasks, ∀ id, t.session = some id → t.Due)
    (hendsFirst : s.tasks.Pairwise EndsFirst) (hinTurn : ¬ s.Overtakes id event)
    (hold : s.tasks.Pairwise (OverFirst id)) : tasks.Pairwise (OverFirst id) := by
  have hconcat {u : Task} (hu : u.session = some id → u.isOver = false) :
      (s.tasks ++ [u]).Pairwise (OverFirst id) := by
    refine List.pairwise_append.mpr ⟨hold, List.pairwise_singleton _ u, fun t _ v hv ↦ ?_⟩
    obtain rfl := List.mem_singleton.mp hv
    exact fun _ hsession hover ↦ absurd ((hu hsession).symm.trans hover) Bool.false_ne_true
  cases h with
  | same => exact hold
  | direct _ hnone =>
    refine hconcat fun hsession ↦ ?_
    rw [hnone] at hsession
    cases hsession
  | hired => exact hconcat fun _ ↦ rfl
  | moved ht hmoves =>
    have hmem := List.mem_of_getElem? ht
    refine pairwise_set hold ht ?before ?behind
    case before =>
      intro _ _ _ _ _ _ hsession hover
      exact absurd ((due_of_moves (hdue _ hmem id hsession) hmoves).2.symm.trans hover)
        Bool.false_ne_true
    case behind =>
      intro _ hrel hsession hc hover
      exact absurd ((isOver_of_moves hmoves).symm.trans (hrel hsession hc hover))
        Bool.false_ne_true
  | @told k t response ht hphase =>
    refine pairwise_set hold ht (fun i c hik hc _ hsession hk _ ↦ ?_) fun _ _ _ _ _ ↦ rfl
    -- the method of an earlier task has ended, and it is not the one that is overtaken
    have hended : c.hasEnded = true := rel_of_pairwise hendsFirst hik hc ht
      (hsession ▸ Option.some_ne_none id) (ne_of_eq_of_ne hk (Option.some_ne_none id))
    unfold Task.hasEnded at hended
    unfold Task.isOver
    cases hcphase : c.phase with
    | answered other =>
      exact absurd ⟨k, t, i, c, other, rfl, ht, hk, hik, hc, hsession, hcphase⟩ hinTurn
    | waiting | reserved | running =>
      rw [hcphase] at hended
      cases hended
    | _ => rfl

/-- The reply that is handed over in a step is that of the task behind all those that are over. -/
theorem Tasking.filterMap_replyFor (h : Tasking s event tasks)
    (hdue : ∀ t ∈ s.tasks, ∀ id, t.session = some id → t.Due)
    (hfirst : s.tasks.Pairwise (OverFirst id)) :
    tasks.filterMap (·.replyFor id) = s.tasks.filterMap (·.replyFor id) ++
      (event.delivers?.bind fun k ↦ (tasks[k]?).bind (·.replyFor id)).toList := by
  cases h with
  | same hsilent =>
    rw [hsilent]
    exact (List.append_nil _).symm
  | direct hsilent hnone =>
    rw [hsilent, filterMap_concat, Task.replyFor_of_session_ne (hnone ▸ nofun)]
    rfl
  | hired other order hsilent =>
    rw [hsilent, filterMap_concat, Task.replyFor_eq_none fun _ ↦ rfl]
    rfl
  | @moved k t event workers phase ht hmoves =>
    have hbefore : t.replyFor id = none := Task.replyFor_eq_none fun _ ↦ isOver_of_moves hmoves
    have hnone : Task.replyFor { t with phase } id = none := Task.replyFor_eq_none fun hsession ↦
      (due_of_moves (hdue t (List.mem_of_getElem? ht) id hsession) hmoves).2
    rw [delivers?_of_moves hmoves,
      filterMap_set_of_none ht hbefore fun _ _ _ _ hsome ↦ absurd hnone hsome, hnone]
    rfl
  | @told k t response ht hphase =>
    have hnot : t.isOver = false := by rw [Task.isOver, hphase]
    rw [filterMap_set_of_none ht (Task.replyFor_eq_none fun _ ↦ hnot)
      fun j c hkj hc hsome ↦ ?behind]
    · show _ = _ ++ (((s.tasks.set k _)[k]?).bind (·.replyFor id)).toList
      rw [List.getElem?_set_self (List.getElem?_eq_some_iff.mp ht).1]
      rfl
    case behind =>
      have hsession : t.session = some id := not_not.mp fun hne ↦
        hsome (Task.replyFor_of_session_ne hne)
      refine Task.replyFor_eq_none fun hother ↦ Bool.eq_false_iff.mpr fun hover ↦ ?_
      have hover := rel_of_pairwise hfirst hkj ht hc hsession hother hover
      exact Bool.false_ne_true (hnot.symm.trans hover)

/-- With one worker, the replies come in the order of the tasks unless one is overtaken. -/
theorem aligned_or_overtaken (hone : server.config.maxWorkers ≤ 1)
    (h : (start server).stepsWith steps = some s) (id : SessionId) :
    Aligned steps s id ∨ Overtaken server steps id := by
  refine stepsWith_induction (P := fun steps s ↦ Aligned steps s id ∨ Overtaken server steps id)
    (.inl ⟨.nil, rfl⟩) ?_ h
  intro before catalogue event a b hbefore haligned heffect
  rcases haligned with ⟨hfirst, hreplies⟩ | hovertaken
  · by_cases hovertakes : a.Overtakes id event
    case pos => exact .inr ⟨before, catalogue, event, a, List.prefix_rfl, hbefore, hovertakes⟩
    case neg =>
      have hdue := due_of_stepsWith hbefore
      have hendsFirst := endsFirst_of_stepsWith hone hbefore
      have hhandsOver := handsOver_of_stepsWith hbefore
      have hoffering : HandsOver before (a.offering catalogue) :=
        ⟨hhandsOver.isOver, hhandsOver.nodup, hhandsOver.queues⟩
      have htasking := heffect.tasking
      refine .inl ⟨htasking.overFirst hdue hendsFirst hovertakes hfirst, ?_⟩
      rw [htasking.filterMap_replyFor hdue hfirst, hoffering.replies_step htasking]
      exact congrArg (· ++ _) hreplies
  · exact .inr (hovertaken.append _)

/-! ## The order of the requests -/

/-- Where the tasks that are over come first, their replies answer the first requests. -/
theorem exists_forall₂_replyFor (hreplied : ∀ t ∈ tasks, t.Replied)
    (hfirst : tasks.Pairwise (OverFirst id)) : ∃ answered,
      List.Forall₂ Session.Reply.Answers (tasks.filterMap (·.replyFor id)) answered ∧
        answered <+: tasks.filterMap (·.orderFor id) := by
  induction tasks with
  | nil => exact ⟨[], .nil, List.prefix_rfl⟩
  | cons t tasks ih =>
    obtain ⟨hbehind, hrest⟩ := List.pairwise_cons.mp hfirst
    obtain ⟨hrepliedt, hrepliedrest⟩ := List.forall_mem_cons.mp hreplied
    obtain ⟨answered, hanswered, hbegins⟩ := ih hrepliedrest hrest
    rw [List.filterMap_cons, List.filterMap_cons]
    by_cases hsession : t.session = some id
    case pos =>
      have horder : t.orderFor id = some t.order := if_pos hsession
      rw [horder]
      cases hover : t.isOver with
      | true =>
        obtain ⟨r, hr, hanswers⟩ := hrepliedt id hsession hover
        rw [hr]
        exact ⟨t.order :: answered, .cons hanswers hanswered,
          List.cons_prefix_cons.mpr ⟨rfl, hbegins⟩⟩
      | false =>
        have hnone : tasks.filterMap (·.replyFor id) = [] := by
          refine List.filterMap_eq_nil_iff.mpr fun u hu ↦ ?_
          refine Task.replyFor_eq_none fun hother ↦ Bool.eq_false_iff.mpr fun hlater ↦ ?_
          exact Bool.false_ne_true (hover.symm.trans (hbehind u hu hsession hother hlater))
        rw [Task.replyFor_eq_none fun _ ↦ hover, hnone]
        exact ⟨[], .nil, List.nil_prefix⟩
    case neg =>
      have horder : t.orderFor id = none := if_neg hsession
      rw [horder, Task.replyFor_of_session_ne hsession]
      exact ⟨answered, hanswered, hbegins⟩

/-- What is true of a session where there is one worker. -/
structure Sequenced (server : Server) (steps : List (Catalogue × Event)) (s : Serving)
    (id : SessionId) (S : Session) : Prop where
  /-- Tasks begin, and a worker is waited for, in the order in which the requests were read. -/
  begun : s.taken id ++ S.waiting <+: S.orders
  /-- A task begins when the methods of all earlier ones have ended. -/
  ended : s.tasks.Pairwise fun t u ↦
    t.session = some id → u.session = some id → t.hasEnded = true
  /-- A task hands its response over once, and it is an answer to its request. -/
  once : (deliveries steps).Nodup
  answers : ∀ k ∈ deliveries steps, ∀ t, s.tasks[k]? = some t → t.session = some id →
    ∃ r, s.replyOf id k = some r ∧ r.Answers t.order
  /-- The replies are written in the order in which they were handed over. -/
  written : S.written <+: s.replies steps id
  queued : S.isOpen = true → S.written ++ S.outbox = s.replies steps id
  /-- They answer the first requests that were read, in order, unless a task was overtaken that had
  still to hand its response over. -/
  inOrder : (∃ answered, List.Forall₂ Session.Reply.Answers S.written answered ∧
    answered <+: S.orders) ∨ Overtaken server steps id

/-- After any steps of a server with one worker, whatever its services are and do: the methods of a
session run one after the other in the order of the requests, and the responses are written in the
order in which the tasks hand them over. -/
theorem sequenced_of_stepsWith (hone : server.config.maxWorkers ≤ 1)
    (h : (start server).stepsWith steps = some s) (hS : s.sessions[id]? = some S) :
    Sequenced server steps s id S := by
  have hbalanced := ((accounted_start server).stepsWith h).balanced id S hS
  have hhandsOver := handsOver_of_stepsWith h
  have hreplied := replied_of_stepsWith h
  have hqueues := hhandsOver.queues id S hS
  refine
    { begun := hbalanced.taken_waiting
      ended := (endsFirst_of_stepsWith hone h).imp ?ended
      once := hhandsOver.nodup
      answers := fun k hk t ht hsession ↦ ?answers
      written := hqueues.written
      queued := hqueues.outbox
      inOrder := (aligned_or_overtaken hone h id).imp_left fun haligned ↦ ?inOrder }
  case ended =>
    intro t u hrel ht hu
    exact hrel (ht ▸ Option.some_ne_none id) (hu ▸ Option.some_ne_none id)
  case answers =>
    obtain ⟨u, hu, hover⟩ := hhandsOver.isOver k hk
    obtain rfl := Option.some.inj (ht.symm.trans hu)
    obtain ⟨r, hr, hanswers⟩ := hreplied t (List.mem_of_getElem? ht) id hsession hover
    exact ⟨r, by rw [replyOf, ht, Option.bind_some, hr], hanswers⟩
  case inOrder =>
    obtain ⟨answered, hmatched, hbegins⟩ := exists_forall₂_replyFor hreplied haligned.first
    have hwritten := List.prefix_iff_eq_take.mp (haligned.replies ▸ hqueues.written)
    have hfirst := List.forall₂_take S.written.length hmatched
    rw [← hwritten] at hfirst
    exact ⟨_, hfirst, (List.take_prefix _ _).trans (hbegins.trans hbalanced.started)⟩

def soloServer : Server := ⟨{ ServerConfig.standard with maxWorkers := 1 }, .empty, .all⟩

/-- A service whose only method returns nothing. -/
def chimeHandler : Handler where
  service := "Chime"
  methods := [⟨"ring", []⟩]
  call _ _ := .returned []

/-- Two requests arrive, and the second one gets the worker when the first method has ended. -/
def chimeEvents : List Event :=
  [.accept] ++
    [SessionEvent.arrive (.frame ⟨.bincode, .request (.call "a" "Chime" "ring" [])⟩),
      .arrive (.frame ⟨.bincode, .request (.call "b" "Chime" "ring" [])⟩), .read, .reserve,
      .read].map (.session 0) ++
    [.task 0 .call, .task 0 .finish, .session 0 .reserve]

def chimeSteps (rest : List Event) : List (Catalogue × Event) :=
  (chimeEvents ++ rest).map fun event ↦ (⟨[("Chime", chimeHandler)]⟩, event)

/-- The responses are handed over in the order of the requests. -/
def chimesInTurn : List (Catalogue × Event) :=
  chimeSteps [.task 0 .deliver, .session 0 .write, .task 1 .call, .task 1 .finish,
    .task 1 .deliver, .session 0 .write]

theorem sequenced_chimes : soloServer.config.maxWorkers ≤ 1 ∧
    ∃ s S, (start soloServer).stepsWith chimesInTurn = some s ∧ s.sessions[0]? = some S ∧
      Sequenced soloServer chimesInTurn s 0 S ∧
      S.written.map (·.response.id) = ["a", "b"] := by
  have hend : ((start soloServer).stepsWith chimesInTurn).map (fun s ↦
      s.sessions[0]?.map fun S ↦ S.written.map (·.response.id)) = some (some ["a", "b"]) := by
    rfl
  obtain ⟨s, hs, hend⟩ := Option.map_eq_some_iff.mp hend
  obtain ⟨S, hS, hwritten⟩ := Option.map_eq_some_iff.mp hend
  exact ⟨Nat.le_refl 1, s, S, hs, hS, sequenced_of_stepsWith (Nat.le_refl 1) hs hS, hwritten⟩

/-- The second task calls its method and hands its response over before the first one does. -/
def chimesCrossed : List (Catalogue × Event) :=
  chimeSteps [.task 1 .call, .task 1 .finish, .task 1 .deliver, .session 0 .write,
    .task 0 .deliver, .session 0 .write]

/-- The only worker ran the methods in the order of the requests, and yet the response to the second
request is written first. -/
theorem written_out_of_order : ∃ s S, soloServer.config.maxWorkers = 1 ∧
    (start soloServer).stepsWith chimesCrossed = some s ∧ s.sessions[0]? = some S ∧
    S.orders.map (·.request.id) = ["a", "b"] ∧ S.written.map (·.response.id) = ["b", "a"] ∧
    ¬ ∃ answered, List.Forall₂ Session.Reply.Answers S.written answered ∧
      answered.Sublist S.orders := by
  have hend : ((start soloServer).stepsWith chimesCrossed).map (fun s ↦ s.sessions[0]?.map fun S ↦
      (S.orders.map (·.request.id), S.written.map (·.response.id))) =
        some (some (["a", "b"], ["b", "a"])) := by
    rfl
  obtain ⟨s, hs, hend⟩ := Option.map_eq_some_iff.mp hend
  obtain ⟨S, hS, hend⟩ := Option.map_eq_some_iff.mp hend
  obtain ⟨horders, hwritten⟩ := Prod.mk.inj hend
  refine ⟨s, S, rfl, hs, hS, horders, hwritten, fun ⟨answered, hmatched, hsublist⟩ ↦ ?_⟩
  have hids : S.written.map (·.response.id) = answered.map (·.request.id) := by
    rw [← List.forall₂_eq_eq_eq, List.forall₂_map_left_iff, List.forall₂_map_right_iff]
    exact hmatched.imp fun _ _ hanswers ↦ hanswers.2
  have hsublist := hsublist.map (·.request.id)
  rw [← hids, hwritten, horders] at hsublist
  exact absurd hsublist (by decide)

end Serving

end FramedRpc
