import FramedRpc.Proofs.Server.Attending
import FramedRpc.Proofs.Server.Sessions

/-!
# The workers of a server

Every worker that is not free has one holder: a direct caller that has reserved it, or a task whose
method has not ended. A step takes a worker for one new holder, or gives back the one of a holder
that is done with it. So no worker is lost, however methods end and whoever is cut off, and there
never run more methods than there are workers.
-/

namespace FramedRpc

/-! ## Permits -/

namespace WorkerPool

variable {p q : WorkerPool}

theorem acquired (h : p.acquire? = some q) :
    p.free = q.free + 1 ∧ q.held = p.held + 1 ∧ q.closed = p.closed := by
  unfold acquire? at h
  split at h
  case h_1 hclosed hfree =>
    obtain rfl := Option.some.inj h
    exact ⟨hfree, rfl, rfl⟩
  case h_2 => cases h

theorem exists_acquire? (hopen : p.closed = false) (hfree : 0 < p.free) :
    ∃ q, p.acquire? = some q := by
  obtain ⟨free, held, closed⟩ := p
  obtain rfl : closed = false := hopen
  cases free with
  | zero => cases hfree
  | succ free => exact ⟨_, rfl⟩

theorem released (h : 0 < p.held) :
    p.release.free = p.free + 1 ∧ p.held = p.release.held + 1 ∧ p.release.closed = p.closed := by
  obtain ⟨free, held, closed⟩ := p
  cases held with
  | zero => cases h
  | succ held => exact ⟨rfl, rfl, rfl⟩

theorem free_le_release (p : WorkerPool) : p.free ≤ p.release.free := by
  unfold release
  split
  case h_1 => exact Nat.le_refl _
  case h_2 => exact Nat.le_succ _

end WorkerPool

/-! ## What a request on a worker is answered -/

namespace Dispatcher

variable {catalogue : Catalogue} {s : Serializer} {r : Request}

/-- The method that a request calls breaks off. -/
def BreaksOff (catalogue : Catalogue) (s : Serializer) (r : Request) : Prop :=
  ∃ handler text, plan catalogue s r = .call handler r.method (.ofValues s r.parameters) ∧
    handler.call r.method (.ofValues s r.parameters) = .panicked text

@[simp]
theorem conclude_eq_error_iff {id text : String} {outcome : Outcome (List UInt8)} :
    conclude id outcome = .error text ↔ outcome = .panicked text := by
  cases outcome with
  | panicked other => simp [conclude]
  | _ => simp [conclude]

/-- Handling a request breaks its caller off exactly where its method breaks off. -/
theorem exists_handle_eq_error_iff :
    (∃ text, handle catalogue s r = .error text) ↔ BreaksOff catalogue s r := by
  have hcalled : ∀ {handler}, plan catalogue s r = .call handler r.method (.ofValues s r.parameters) →
      handle catalogue s r =
        conclude r.id (handler.call r.method (.ofValues s r.parameters)) := by
    intro handler hplan
    unfold handle
    rw [hplan]
    rfl
  constructor
  · rintro ⟨text, htext⟩
    cases hsign : r.heartbeat with
    | true =>
      simp [handle, hsign] at htext
    | false =>
      rcases plan_cases catalogue s hsign with ⟨status, detail, hplan⟩ | ⟨handler, hplan⟩
      · rw [handle, hplan] at htext
        cases htext
      · rw [hcalled hplan] at htext
        exact ⟨handler, text, hplan, conclude_eq_error_iff.mp htext⟩
  · rintro ⟨handler, text, hplan, hpanicked⟩
    exact ⟨text, (hcalled hplan).trans (conclude_eq_error_iff.mpr hpanicked)⟩

/-- What a request on a worker is answered: what handling it gives, unless its method breaks off. -/
inductive Answers (catalogue : Catalogue) (s : Serializer) (r : Request) : Option Response → Prop
  | handled {response : Option Response} (h : handle catalogue s r = .ok response) :
    Answers catalogue s r response
  | brokenOff {response : Response} (h : BreaksOff catalogue s r)
    (hreports : response.Reports r .fail none) : Answers catalogue s r (some response)

theorem answers_run (catalogue : Catalogue) (s : Serializer) (r : Request) :
    Answers catalogue s r (run catalogue s r) := by
  cases hhandle : handle catalogue s r with
  | ok response =>
    rw [run_of_ok hhandle]
    exact .handled hhandle
  | error text =>
    rw [run_of_error hhandle]
    exact .brokenOff (exists_handle_eq_error_iff.mp ⟨text, hhandle⟩)
      (Response.reports_failure r (by decide) "service method panicked")

end Dispatcher

namespace Serving

variable {s s' : Serving} {id : SessionId} {S : Session} {k : TaskId} {t u : Task} {event : Event}
  {phase : Task.Phase} {order : Session.Order} {order? : Option Session.Order}
  {catalogue : Catalogue} {steps more : List (Catalogue × Event)}

/-! ## Who holds a worker -/

/-- The number of those who hold a worker. -/
def holders (s : Serving) : Nat := s.reservations + s.tasks.countP Task.holdsWorker

@[simp]
theorem holders_begin (s : Serving) (session : Option SessionId) (order : Session.Order)
    (phase : Task.Phase) : (s.begin session order phase).holders =
      s.holders + if Task.holdsWorker ⟨session, order, phase⟩ = true then 1 else 0 := by
  show s.reservations + List.countP Task.holdsWorker (s.tasks ++ [⟨session, order, phase⟩]) = _
  rw [List.countP_append, List.countP_singleton]
  exact (Nat.add_assoc _ _ _).symm

theorem holders_setPhase (ht : s.tasks[k]? = some t) (phase : Task.Phase) :
    (s.setPhase k phase).holders + (if t.holdsWorker = true then 1 else 0) =
      s.holders + if Task.holdsWorker { t with phase } = true then 1 else 0 := by
  obtain ⟨hk, rfl⟩ := List.getElem?_eq_some_iff.mp ht
  have hpos : s.tasks[k].holdsWorker = true → 0 < s.tasks.countP Task.holdsWorker :=
    fun hholds ↦ List.countP_pos_iff.mpr ⟨s.tasks[k], List.getElem_mem hk, hholds⟩
  unfold holders setPhase
  rw [modify_of_some ht, List.countP_set hk]
  show s.reservations + _ + _ = _
  split <;> rename_i hholds
  · have := hpos hholds
    omega
  · omega

/-- The request for which a step takes a worker; a direct caller may have none yet. -/
inductive Hires (s : Serving) : Event → Option Session.Order → Prop
  | session {id : SessionId} {S : Session} {order : Session.Order} (hS : s.sessions[id]? = some S)
    (hstage : S.stage = .reserving order) : Hires s (.session id .reserve) (some order)
  | task {k : TaskId} {t : Task} (ht : s.tasks[k]? = some t) (hphase : t.phase = .waiting) :
    Hires s (.task k .reserve) (some t.order)
  | direct : Hires s .reserve none

/-- What a step does to the workers and to those who hold them. -/
inductive Staffing (s : Serving) (event : Event) (s' : Serving) : Prop
  | kept (hworkers : s'.workers = s.workers) (hholders : s'.holders = s.holders)
  | taken {order? : Option Session.Order} (hhires : Hires s event order?)
    (hworkers : s.workers.acquire? = some s'.workers) (hholders : s'.holders = s.holders + 1)
  | returned (hworkers : s'.workers = s.workers.release) (hholders : s.holders = s'.holders + 1)

theorem holdsWorker_of_phase (h : t.phase = phase) :
    t.holdsWorker = Task.holdsWorker { t with phase } := by
  obtain ⟨session, order, current⟩ := t
  obtain rfl : current = phase := h
  rfl

/-- The steps of a task on its own: it takes a worker when it is assigned one, and gives it back
when its method has ended. -/
theorem staffing_of_moves {event : TaskEvent} {workers : WorkerPool} (ht : s.tasks[k]? = some t)
    (hmoves : t.Moves s event workers phase) :
    Staffing s (.task k event) ({ s with workers }.setPhase k phase) := by
  have hcount : ({ s with workers }.setPhase k phase).holders +
      (if t.holdsWorker = true then 1 else 0) =
        s.holders + if Task.holdsWorker { t with phase } = true then 1 else 0 :=
    holders_setPhase (s := { s with workers }) ht phase
  cases hmoves with
  | turnedAway hphase =>
    rw [holdsWorker_of_phase hphase] at hcount
    exact .kept rfl hcount
  | assigned hphase hworkers =>
    rw [holdsWorker_of_phase hphase] at hcount
    exact .taken (.task ht hphase) hworkers hcount
  | cancelled hphase =>
    rw [holdsWorker_of_phase hphase] at hcount
    exact .kept rfl hcount
  | called hphase =>
    rw [holdsWorker_of_phase hphase] at hcount
    exact .kept rfl (Nat.succ.inj hcount)
  | finished hphase =>
    rw [holdsWorker_of_phase hphase] at hcount
    exact .returned rfl hcount.symm

theorem Effect.staffing (heffect : Effect s event s') : Staffing s event s' := by
  cases heffect with
  | @reserved id S order workers hS hstage hworkers =>
    have hcount := holders_begin { s with workers } (some id) order .reserved
    exact .taken (.session hS hstage) hworkers hcount
  | worked ht hmoves => exact staffing_of_moves ht hmoves
  | @delivered k t response ht hphase =>
    obtain ⟨sessions, -, hsessions⟩ := s.deliver_eq t response
    have hcount := holders_setPhase (s := { s with sessions }) ht (.over response)
    rw [holdsWorker_of_phase hphase] at hcount
    rw [hsessions]
    exact .kept rfl hcount
  | dispatched order =>
    refine .kept rfl ((holders_begin ..).trans ?_)
    split <;> rfl
  | lent hworkers => exact .taken .direct hworkers (Nat.add_right_comm ..)
  | returned h =>
    refine .returned rfl ?_
    unfold holders
    rw [h]
    exact Nat.add_right_comm ..
  | @ran reservations h order =>
    refine .kept rfl ((holders_begin ..).trans ?_)
    unfold holders
    rw [h]
    exact (Nat.add_right_comm ..).symm
  | _ => exact .kept rfl rfl

/-! ## No worker is lost -/

/-- All workers are there, and each one that is not free has its holder. -/
structure Manned (capacity : Nat) (s : Serving) : Prop where
  closed : s.workers.closed = false
  total : s.workers.free + s.workers.held = capacity
  held : s.workers.held = s.holders

theorem manned_start (server : Server) :
    Manned (max server.config.maxWorkers 1) (start server) :=
  ⟨rfl, rfl, rfl⟩

theorem Manned.returned {capacity : Nat} (h : Manned capacity s)
    (hworkers : s'.workers = s.workers.release) (hholders : s.holders = s'.holders + 1) :
    Manned capacity s' := by
  obtain ⟨hclosed, htotal, hheld⟩ := h
  have hpos : 0 < s.workers.held := by omega
  obtain ⟨hfree, hgiven, hsame⟩ := WorkerPool.released hpos
  rw [← hworkers] at hfree hgiven hsame
  exact ⟨hsame.trans hclosed, by omega, by omega⟩

theorem Manned.step {capacity : Nat} (h : Manned capacity s) (hstaffing : Staffing s event s') :
    Manned capacity s' := by
  cases hstaffing with
  | kept hworkers hholders =>
    refine ⟨?_, ?_, ?_⟩
    · rw [hworkers, h.closed]
    · rw [hworkers, h.total]
    · rw [hworkers, hholders, h.held]
  | taken _ hworkers hholders =>
    obtain ⟨hclosed, htotal, hheld⟩ := h
    obtain ⟨hfree, htaken, hsame⟩ := WorkerPool.acquired hworkers
    exact ⟨hsame.trans hclosed, by omega, by omega⟩
  | returned hworkers hholders => exact h.returned hworkers hholders

theorem manned_of_stepsWith {server : Server} (h : (start server).stepsWith steps = some s) :
    Manned (max server.config.maxWorkers 1) s := by
  refine stepsWith_induction (P := fun _ s ↦ Manned (max server.config.maxWorkers 1) s)
    (manned_start server) ?_ h
  intro before catalogue event a b _ hmanned heffect
  exact Manned.step (s := a.offering catalogue) ⟨hmanned.closed, hmanned.total, hmanned.held⟩
    heffect.staffing

end Serving

end FramedRpc
