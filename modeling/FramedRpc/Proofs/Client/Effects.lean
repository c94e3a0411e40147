import FramedRpc.Client
import FramedRpc.Proofs.Client.PendingCalls
import FramedRpc.Proofs.Client.Pool

/-!
# What a step of a client does

The steps of all parties, told by what they do to the pool, to the pending calls and to the runs.
A call holds its ticket from its registration until its guard is dropped. Only four kinds of steps
touch the table of pending calls: a call registers, takes its outcome or drops its guard, or a step
in the pool is felt. All others move a call on without changing the ticket that it holds, and the
results that they give are faults.
-/

namespace FramedRpc

namespace Run.Phase

def ticket? : Phase → Option Ticket
  | .testing _ ticket | .queueing _ ticket | .waiting _ ticket _ | .leaving ticket _ => some ticket
  | _ => none

def result? : Phase → Option (Except Fault Response)
  | .leaving _ result | .over result => result
  | _ => none

def isEarly : Phase → Bool
  | .looking | .getting _ | .registering _ => true
  | _ => false

end Run.Phase

def Settlement.result (s : Settlement) (r : Request) : Except Fault Response :=
  match s with
  | .delivered result => result
  | .closed => .error (Client.droppedFault r)

namespace Client

variable {c d : Client}

/-- Where the fault of a call comes from: the directory, the pool, or the client itself, which never
makes up a mismatch. -/
inductive Origin (c : Client) (event : RunEvent) (fault : Fault) : Prop
  | directory (h : event = .found (.error fault))
  | pool {g : Pool.Get} (hg : g ∈ c.pool.gets) (h : g.phase = .done (.error fault))
  | own (h : fault.kind ≠ .responseMismatch)

/-- A call moves on without a change of the table. -/
structure Moves (c : Client) (event : RunEvent) (old new : Run.Phase) : Prop where
  ticket : new.ticket? = old.ticket?
  early : new.isEarly = true → old.isEarly = true
  result : ∀ result, new.result? = some result →
    ∃ fault, result = .error fault ∧ Origin c event fault

/-- The pool behind the step of a call: the same, with the request of the call in the queue of its
connection, or with a caller more or one less. -/
inductive Pooled (c : Client) (r : Run) : RunEvent → Pool → Prop
  | same {event : RunEvent} : Pooled c r event c.pool
  | pushed {connection : Connection} {ticket : Ticket}
    (hphase : r.phase = .queueing connection.id ticket)
    (hconnection : c.pool.connection? connection.id = some connection) : Pooled c r .queue
    (c.pool.setConnection { connection with queue := connection.queue ++ [r.request] })
  | asked {event : RunEvent} {key : ConnectionKey} {pool : Pool}
    (h : c.pool.step c.now (.ask key) = some pool) : Pooled c r event pool
  | cancelled {event : RunEvent} {get : Pool.GetId} {pool : Pool}
    (h : c.pool.step c.now (.get get .cancel) = some pool) : Pooled c r event pool

/-- The pool, the pending calls and the runs behind a step. -/
inductive Effect (c : Client) : Event → Pool → PendingCalls → List Run → Prop
  | begun (request : Request) :
    Effect c (.begin request) c.pool c.pending (c.runs ++ [⟨request, .looking⟩])
  | moved {n : RunId} {event : RunEvent} {r : Run} {phase : Run.Phase} {pool : Pool}
    (hrun : c.runs[n]? = some r) (hmoves : Moves c event r.phase phase)
    (hpool : Pooled c r event pool) :
    Effect c (.run n event) pool c.pending (c.setPhase n phase).runs
  | registered {n : RunId} {r : Run} {id : ConnectionId} (hrun : c.runs[n]? = some r)
    (hphase : r.phase = .registering id) (hfree : c.pending.find? r.request.id = none) :
    Effect c (.run n .register) c.pool (c.pending.enter r.request.id id)
      (c.setPhase n (.testing id c.pending.nextTicket)).runs
  | collected {n : RunId} {r : Run} {id : ConnectionId} {ticket : Ticket} {deadline : Nat}
    {s : Settlement} (hrun : c.runs[n]? = some r) (hphase : r.phase = .waiting id ticket deadline)
    (hs : c.pending.outcome? ticket = some s) :
    Effect c (.run n .collect) c.pool (c.pending.close ticket)
      (c.setPhase n (.leaving ticket (some (s.result r.request)))).runs
  | exited {n : RunId} {r : Run} {ticket : Ticket} {result : Option (Except Fault Response)}
    (hrun : c.runs[n]? = some r) (hphase : r.phase = .leaving ticket result) :
    Effect c (.run n .exit) c.pool (c.pending.dropGuard r.request.id)
      (c.setPhase n (.over result)).runs
  | pooled {event : Pool.Event} {pool : Pool} (h : c.pool.step c.now event = some pool) :
    Effect c (.pool event) pool (c.feel event) c.runs
  | passed (milliseconds : Nat) : Effect c (.pass milliseconds) c.pool c.pending c.runs

theorem Pooled.blameless {r : Run} {event : RunEvent} {pool : Pool} (h : Pooled c r event pool)
    (hc : c.pool.Blameless) : pool.Blameless := by
  cases h with
  | same => exact hc
  | pushed => exact hc
  | asked hstep => exact (Pool.asked_step hstep).blameless hc
  | cancelled hstep => exact (Pool.asked_step hstep).blameless hc

theorem Effect.blameless {event : Event} {pool : Pool} {pending : PendingCalls} {runs : List Run}
    (h : Effect c event pool pending runs) (hc : c.pool.Blameless) : pool.Blameless := by
  cases h with
  | moved hrun hmoves hpool => exact hpool.blameless hc
  | pooled hstep => exact (Pool.asked_step hstep).blameless hc
  | begun => exact hc
  | registered => exact hc
  | collected => exact hc
  | exited => exact hc
  | passed => exact hc

/-! ## The steps of a call -/

section

variable {n : RunId} {r : Run} {event : RunEvent} {old new : Run.Phase}

/-- A call moves on and has no result yet. -/
theorem Moves.of_none (hphase : r.phase = old) (hticket : new.ticket? = old.ticket?)
    (hearly : new.isEarly = true → old.isEarly = true) (hresult : new.result? = none) :
    Moves c event r.phase new := by
  rw [hphase]
  refine ⟨hticket, hearly, fun result h ↦ ?_⟩
  rw [hresult] at h
  cases h

/-- A call moves on to its end, which is a fault. -/
theorem Moves.of_fault {fault : Fault} (hphase : r.phase = old)
    (hticket : new.ticket? = old.ticket?) (hearly : new.isEarly = false)
    (hresult : new.result? = some (.error fault)) (horigin : Origin c event fault) :
    Moves c event r.phase new := by
  rw [hphase]
  refine ⟨hticket, fun h ↦ ?_, fun result h ↦ ?_⟩
  · rw [hearly] at h
    cases h
  · rw [hresult] at h
    exact ⟨fault, (Option.some.inj h).symm, horigin⟩

theorem effect_found (hrun : c.runs[n]? = some r) {found : Except Fault Endpoint}
    (h : c.stepRun n r (.found found) = some d) :
    Effect c (.run n (.found found)) d.pool d.pending d.runs := by
  -- opened as it stands, here and below: only the arm of the event is needed
  delta stepRun at h
  dsimp only at h
  split at h
  case h_1 e hphase =>
    simp only [ask, Option.bind_eq_bind, Option.bind_eq_some_iff] at h
    obtain ⟨pool, hpool, hd⟩ := h
    obtain rfl := Option.some.inj hd
    exact .moved hrun (.of_none hphase rfl (fun _ ↦ rfl) rfl) (.asked hpool)
  case h_2 fault hphase =>
    obtain rfl := Option.some.inj h
    exact .moved hrun (.of_fault hphase rfl rfl rfl (.directory rfl)) .same
  case h_3 => cases h

theorem effect_connected (hrun : c.runs[n]? = some r) (h : c.stepRun n r .connected = some d) :
    Effect c (.run n .connected) d.pool d.pending d.runs := by
  delta stepRun at h
  dsimp only at h
  split at h
  case h_1 get hphase =>
    simp only [takeConnection, Option.bind_eq_bind, Option.bind_eq_some_iff] at h
    obtain ⟨g, hg, h⟩ := h
    split at h
    case h_1 id _ =>
      obtain rfl := Option.some.inj h
      exact .moved hrun (.of_none hphase rfl (fun _ ↦ rfl) rfl) .same
    case h_2 fault hdone =>
      obtain rfl := Option.some.inj h
      have horigin : Origin c .connected fault := .pool (List.mem_of_getElem? hg) hdone
      exact .moved hrun (.of_fault hphase rfl rfl rfl horigin) .same
    case h_3 => cases h
  case h_2 => cases h

theorem effect_register (hrun : c.runs[n]? = some r) (h : c.stepRun n r .register = some d) :
    Effect c (.run n .register) d.pool d.pending d.runs := by
  delta stepRun at h
  dsimp only at h
  split at h
  case h_1 id hphase =>
    obtain rfl := Option.some.inj h
    unfold register
    cases hfind : c.pending.find? r.request.id with
    | none =>
      rw [PendingCalls.register_of_none hfind]
      exact .registered hrun hphase hfind
    | some call =>
      rw [PendingCalls.register_of_some hfind]
      exact .moved hrun (.of_fault hphase rfl rfl rfl (.own nofun)) .same
  case h_2 => cases h

theorem effect_test (hrun : c.runs[n]? = some r) (h : c.stepRun n r .test = some d) :
    Effect c (.run n .test) d.pool d.pending d.runs := by
  delta stepRun at h
  dsimp only at h
  split at h
  case h_1 id ticket hphase =>
    simp only [Option.bind_eq_bind, Option.bind_eq_some_iff] at h
    obtain ⟨connection, -, h⟩ := h
    split at h
    case isTrue =>
      obtain rfl := Option.some.inj h
      exact .moved hrun (.of_none hphase rfl nofun rfl) .same
    case isFalse =>
      obtain rfl := Option.some.inj h
      exact .moved hrun (.of_fault hphase rfl rfl rfl (.own nofun)) .same
  case h_2 => cases h

theorem effect_queue (hrun : c.runs[n]? = some r) (h : c.stepRun n r .queue = some d) :
    Effect c (.run n .queue) d.pool d.pending d.runs := by
  delta stepRun at h
  dsimp only at h
  split at h
  case h_1 id ticket hphase =>
    simp only [Option.bind_eq_bind, Option.bind_eq_some_iff] at h
    obtain ⟨connection, hconnection, h⟩ := h
    obtain rfl := Option.some.inj h
    obtain rfl := Pool.id_of_connection? hconnection
    unfold queue Connection.push
    by_cases hqueue : connection.hasQueue = true
    · rw [if_pos hqueue]
      exact .moved hrun (.of_none hphase rfl nofun rfl) (.pushed hphase hconnection)
    · rw [if_neg hqueue]
      exact .moved hrun (.of_fault hphase rfl rfl rfl (.own nofun)) .same
  case h_2 => cases h

theorem effect_collect (hrun : c.runs[n]? = some r) (h : c.stepRun n r .collect = some d) :
    Effect c (.run n .collect) d.pool d.pending d.runs := by
  delta stepRun at h
  dsimp only at h
  split at h
  case h_1 id ticket deadline hphase =>
    unfold collect at h
    cases hs : c.pending.outcome? ticket with
    | none =>
      rw [PendingCalls.collect, hs] at h
      cases h
    | some s =>
      rw [PendingCalls.collect_of_some hs] at h
      cases s with
      | delivered result =>
        obtain rfl := Option.some.inj h
        exact .collected hrun hphase hs
      | closed =>
        obtain rfl := Option.some.inj h
        exact .collected hrun hphase hs
  case h_2 => cases h

theorem effect_timeout (hrun : c.runs[n]? = some r) (h : c.stepRun n r .timeout = some d) :
    Effect c (.run n .timeout) d.pool d.pending d.runs := by
  delta stepRun at h
  dsimp only at h
  split at h
  case h_1 id ticket deadline hphase =>
    split at h
    case isTrue =>
      obtain rfl := Option.some.inj h
      exact .moved hrun (.of_fault hphase rfl rfl rfl (.own nofun)) .same
    case isFalse => cases h
  case h_2 => cases h

theorem effect_cancel (hrun : c.runs[n]? = some r) (h : c.stepRun n r .cancel = some d) :
    Effect c (.run n .cancel) d.pool d.pending d.runs := by
  delta stepRun at h
  dsimp only at h
  split at h
  case h_1 hphase =>
    obtain rfl := Option.some.inj h
    exact .moved hrun (.of_none hphase rfl nofun rfl) .same
  case h_2 get hphase =>
    simp only [Option.bind_eq_bind, Option.bind_eq_some_iff] at h
    obtain ⟨pool, hpool, h⟩ := h
    obtain rfl := Option.some.inj h
    exact .moved hrun (.of_none hphase rfl nofun rfl) (.cancelled hpool)
  case h_3 id ticket deadline hphase =>
    obtain rfl := Option.some.inj h
    exact .moved hrun (.of_none hphase rfl nofun rfl) .same
  case h_4 => cases h

theorem effect_exit (hrun : c.runs[n]? = some r) (h : c.stepRun n r .exit = some d) :
    Effect c (.run n .exit) d.pool d.pending d.runs := by
  delta stepRun at h
  dsimp only at h
  split at h
  case h_1 ticket result hphase =>
    obtain rfl := Option.some.inj h
    exact .exited hrun hphase
  case h_2 => cases h

end

/-- What a step does to the pool, to the pending calls and to the runs. -/
theorem effect_of_step {event : Event} (h : c.step event = some d) :
    Effect c event d.pool d.pending d.runs := by
  cases event with
  | begin request =>
    obtain rfl := Option.some.inj h
    exact .begun request
  | run n event =>
    simp only [step, Option.bind_eq_bind, Option.bind_eq_some_iff] at h
    obtain ⟨r, hrun, h⟩ := h
    cases event with
    | found result => exact effect_found hrun h
    | connected => exact effect_connected hrun h
    | register => exact effect_register hrun h
    | test => exact effect_test hrun h
    | queue => exact effect_queue hrun h
    | collect => exact effect_collect hrun h
    | timeout => exact effect_timeout hrun h
    | cancel => exact effect_cancel hrun h
    | exit => exact effect_exit hrun h
  | pool event =>
    obtain ⟨-, -, h⟩ := Option.bind_eq_some_iff.mp h
    obtain ⟨pool, hpool, h⟩ := Option.bind_eq_some_iff.mp h
    obtain rfl := Option.some.inj h
    exact .pooled hpool
  | pass milliseconds =>
    obtain rfl := Option.some.inj h
    exact .passed milliseconds

/-- What a step does to the pool alone: nothing, or there a step is taken. A call takes none but to
ask for a connection, to give that up, or to queue its request. -/
theorem pool_of_step {event : Event} (h : c.step event = some d) :
    d.pool = c.pool ∨ ∃ own, Pool.Effect c.pool c.now own d.pool ∧
      ∀ pooled, own = some pooled →
        event = .pool pooled ∨ (∃ key, pooled = .ask key) ∨ ∃ get, pooled = .get get .cancel := by
  have heffect := effect_of_step h
  generalize d.pool = pool, d.pending = pending, d.runs = runs at heffect
  cases heffect with
  | begun => exact .inl rfl
  | moved hrun hmoves hpool =>
    cases hpool with
    | same => exact .inl rfl
    | pushed hphase hconnection => exact .inr ⟨none, .pushed _ hconnection, nofun⟩
    | asked hstep =>
      refine .inr ⟨_, Pool.effect_of_step hstep, fun pooled hpooled ↦ .inr (.inl ?_)⟩
      exact ⟨_, (Option.some.inj hpooled).symm⟩
    | cancelled hstep =>
      refine .inr ⟨_, Pool.effect_of_step hstep, fun pooled hpooled ↦ .inr (.inr ?_)⟩
      exact ⟨_, (Option.some.inj hpooled).symm⟩
  | registered => exact .inl rfl
  | collected => exact .inl rfl
  | exited => exact .inl rfl
  | pooled hstep =>
    refine .inr ⟨_, Pool.effect_of_step hstep, fun pooled hpooled ↦ .inl ?_⟩
    rw [Option.some.inj hpooled]
  | passed => exact .inl rfl

end Client

end FramedRpc
