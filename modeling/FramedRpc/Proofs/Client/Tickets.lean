import FramedRpc.Proofs.Client.Effects

/-!
# Who holds which ticket

The table of pending calls and the runs are consistent: no two runs hold one ticket, and a waiting
call belongs to a run that holds its ticket and sent its identifier. Every step keeps this, so it
holds of every client that did some steps.
-/

namespace FramedRpc

namespace Run

def phaseAt (runs : List Run) (n : RunId) : Option Phase := (runs[n]?).map Run.phase

def ticketAt (runs : List Run) (n : RunId) : Option Ticket := (phaseAt runs n).bind Phase.ticket?

def idAt (runs : List Run) (n : RunId) : Option String := (runs[n]?).map fun r ↦ r.request.id

variable {runs : List Run} {n : RunId} {r : Run}

theorem phaseAt_of_getElem? (hrun : runs[n]? = some r) : phaseAt runs n = some r.phase := by
  rw [phaseAt, hrun]
  rfl

theorem ticketAt_of_getElem? (hrun : runs[n]? = some r) : ticketAt runs n = r.phase.ticket? := by
  rw [ticketAt, phaseAt_of_getElem? hrun]
  rfl

theorem idAt_of_getElem? (hrun : runs[n]? = some r) : idAt runs n = some r.request.id := by
  rw [idAt, hrun]
  rfl

/-- A run that begins is the last one, and the others stay where they are. -/
theorem phaseAt_append (runs : List Run) (r : Run) (n : RunId) :
    phaseAt (runs ++ [r]) n = if n = runs.length then some r.phase else phaseAt runs n := by
  unfold phaseAt
  rcases Nat.lt_trichotomy n runs.length with hlt | rfl | hgt
  · rw [List.getElem?_append_left hlt, if_neg (Nat.ne_of_lt hlt)]
  · rw [List.getElem?_concat_length, if_pos rfl]
    rfl
  · rw [if_neg (Nat.ne_of_gt hgt), List.getElem?_eq_none (Nat.le_of_lt hgt),
      List.getElem?_eq_none]
    rw [List.length_append, List.length_singleton]
    exact hgt

@[simp]
theorem phaseAt_length (runs : List Run) : phaseAt runs runs.length = none := by
  rw [phaseAt, List.getElem?_eq_none (Nat.le_refl _)]
  rfl

/-- A run that only begins shows nothing of what there is only later. -/
theorem bind_phaseAt_append {β : Type} {view : Phase → Option β} (hview : view .looking = none)
    (runs : List Run) (request : Request) (n : RunId) :
    (phaseAt (runs ++ [⟨request, .looking⟩]) n).bind view = (phaseAt runs n).bind view := by
  rw [phaseAt_append]
  split
  case isTrue hn =>
    simpa [hn] using hview
  case isFalse => rfl

@[simp]
theorem ticketAt_append (runs : List Run) (request : Request) (n : RunId) :
    ticketAt (runs ++ [⟨request, .looking⟩]) n = ticketAt runs n :=
  bind_phaseAt_append rfl runs request n

theorem idAt_append {id : String} (h : idAt runs n = some id) (r : Run) :
    idAt (runs ++ [r]) n = some id := by
  obtain ⟨q, hrun, hid⟩ := Option.map_eq_some_iff.mp h
  have hlength := (List.getElem?_eq_some_iff.mp hrun).1
  rw [idAt, List.getElem?_append_left hlength, hrun, Option.map_some, hid]

end Run

namespace Client

variable {c d : Client} {n : RunId} {r : Run}

theorem phaseAt_setPhase (hrun : c.runs[n]? = some r) (phase : Run.Phase) (m : RunId) :
    Run.phaseAt (c.setPhase n phase).runs m =
      if m = n then some phase else Run.phaseAt c.runs m := by
  show ((c.runs.modify n fun r ↦ { r with phase })[m]?).map Run.phase = _
  by_cases hm : m = n
  · rw [if_pos hm, hm, List.getElem?_modify_eq, hrun]
    rfl
  · rw [if_neg hm, List.getElem?_modify_ne _ _ (Ne.symm hm)]
    rfl

theorem bind_phaseAt_setPhase {β : Type} (view : Run.Phase → Option β)
    (hrun : c.runs[n]? = some r) (phase : Run.Phase) (m : RunId) :
    (Run.phaseAt (c.setPhase n phase).runs m).bind view =
      if m = n then view phase else (Run.phaseAt c.runs m).bind view := by
  rw [phaseAt_setPhase hrun]
  split
  case isTrue => rfl
  case isFalse => rfl

theorem ticketAt_setPhase (hrun : c.runs[n]? = some r) (phase : Run.Phase) (m : RunId) :
    Run.ticketAt (c.setPhase n phase).runs m =
      if m = n then phase.ticket? else Run.ticketAt c.runs m :=
  bind_phaseAt_setPhase Run.Phase.ticket? hrun phase m

/-- A run that moves on with its ticket changes nothing for the tickets. -/
theorem ticketAt_setPhase_of_eq (hrun : c.runs[n]? = some r) {phase : Run.Phase}
    (hticket : phase.ticket? = r.phase.ticket?) (m : RunId) :
    Run.ticketAt (c.setPhase n phase).runs m = Run.ticketAt c.runs m := by
  rw [ticketAt_setPhase hrun]
  split
  case isTrue hm => rw [hm, Run.ticketAt_of_getElem? hrun, hticket]
  case isFalse => rfl

@[simp]
theorem idAt_setPhase (c : Client) (n : RunId) (phase : Run.Phase) (m : RunId) :
    Run.idAt (c.setPhase n phase).runs m = Run.idAt c.runs m := by
  show ((c.runs.modify n fun r ↦ { r with phase })[m]?).map _ = _
  by_cases hm : n = m
  · rw [hm, List.getElem?_modify_eq]
    show (c.runs[m]?.map _).map _ = _
    rw [Option.map_map]
    rfl
  · rw [List.getElem?_modify_ne _ _ hm]
    rfl

/-! ## What is felt of the pool -/

def arrival (connection : ConnectionId) (message : Message) : Event :=
  .pool (.connection connection (.turn (.receive message)))

/-- Which calls end by a step in the pool, and how. -/
inductive Felt (event : Event) (selected : PendingCall → Bool) (s : Settlement) : Prop
  | nothing (hselected : ∀ call, selected call = false)
  | response {connection : ConnectionId} {r : Response}
    (hevent : event = arrival connection (.response r))
    (hselected : selected = fun call : PendingCall ↦ call.id = r.id) (hs : s = .delivered (.ok r))
  | lost {connection : ConnectionId} {fault : Fault}
    (hevent : event = .pool (.connection connection .finish))
    (hselected : selected = fun call : PendingCall ↦ call.connection = connection)
    (hs : s = .delivered (.error fault)) (hfault : fault.kind ≠ .responseMismatch)

theorem settles_nothing (p : PendingCalls) (s : Settlement) : p.Settles p (fun _ ↦ false) s where
  waiting := (List.filter_eq_self.mpr fun _ _ ↦ rfl).symm
  settled := by
    rw [List.filter_false]
    exact (List.append_nil _).symm
  nextTicket := rfl

/-- A step in the pool ends some calls, all in one way, and leaves the others alone. -/
theorem settles_feel (hp : c.pending.Sound) (event : Pool.Event) :
    ∃ selected s, c.pending.Settles (c.feel event) selected s ∧
      Felt (.pool event) selected s := by
  have hnothing : ∃ selected s, c.pending.Settles c.pending selected s ∧
      Felt (.pool event) selected s :=
    ⟨_, .closed, settles_nothing _ _, .nothing fun _ ↦ rfl⟩
  unfold feel
  split
  case h_1 connection r =>
    exact ⟨_, _, PendingCalls.settles_complete hp r.id r, .response rfl rfl rfl⟩
  case h_2 id =>
    split
    case h_1 connection _ =>
      split
      case h_1 reason _ =>
        exact ⟨_, _, PendingCalls.settles_failConnection _ id _, .lost rfl rfl rfl nofun⟩
      case h_2 => exact hnothing
    case h_2 => exact hnothing
  case h_3 => exact hnothing

/-! ## Consistency -/

/-- No two runs hold one ticket, and a run that sent its identifier holds the ticket of each waiting
call. -/
structure Consistent (pending : PendingCalls) (runs : List Run) : Prop where
  table : pending.Sound
  issued : ∀ n ticket, Run.ticketAt runs n = some ticket → ticket < pending.nextTicket
  distinct : ∀ n m ticket, Run.ticketAt runs n = some ticket → Run.ticketAt runs m = some ticket →
    n = m
  held : ∀ call ∈ pending.waiting, ∃ n, Run.ticketAt runs n = some call.ticket ∧
    Run.idAt runs n = some call.id

theorem consistent_start (config : ClientConfig) :
    Consistent (start config).pending (start config).runs where
  table := PendingCalls.sound_empty
  issued n ticket h := by cases h
  distinct n m ticket h := by cases h
  held := nofun

/-- The call of a ticket has the identifier of the run that holds the ticket. -/
theorem Consistent.idAt_eq {pending : PendingCalls} {runs : List Run}
    (h : Consistent pending runs) {call : PendingCall} (hcall : call ∈ pending.waiting)
    (hticket : Run.ticketAt runs n = some call.ticket) : Run.idAt runs n = some call.id := by
  obtain ⟨m, hm, hid⟩ := h.held call hcall
  rw [h.distinct n m call.ticket hticket hm]
  exact hid

/-- Calls that end leave a consistent table behind. -/
theorem Consistent.settles {p q : PendingCalls} {runs : List Run} (h : Consistent p runs)
    {selected : PendingCall → Bool} {s : Settlement} (hsettles : p.Settles q selected s) :
    Consistent q runs where
  table := hsettles.sound h.table
  issued n ticket hticket := by
    rw [hsettles.nextTicket]
    exact h.issued n ticket hticket
  distinct := h.distinct
  held call hcall := h.held call (hsettles.mem_waiting.mp hcall).1

/-- Only the tickets and the identifiers of the runs count. -/
theorem Consistent.congr {p : PendingCalls} {runs others : List Run} (h : Consistent p runs)
    (hticket : ∀ m, Run.ticketAt others m = Run.ticketAt runs m)
    (hid : ∀ m, Run.idAt others m = Run.idAt runs m) : Consistent p others where
  table := h.table
  issued n ticket hn := h.issued n ticket (hticket n ▸ hn)
  distinct n m ticket hn hm := h.distinct n m ticket (hticket n ▸ hn) (hticket m ▸ hm)
  held call hcall := by
    obtain ⟨n, hn, hcallid⟩ := h.held call hcall
    exact ⟨n, (hticket n).trans hn, (hid n).trans hcallid⟩

theorem Consistent.close {p : PendingCalls} {runs : List Run} (h : Consistent p runs)
    (ticket : Ticket) : Consistent (p.close ticket) runs :=
  ⟨h.table.close ticket, h.issued, h.distinct, h.held⟩

/-- A run registers its identifier, and holds the next ticket from then on. -/
theorem Consistent.register (h : Consistent c.pending c.runs) (hrun : c.runs[n]? = some r)
    {id : ConnectionId} (hphase : r.phase = .registering id)
    (hfree : c.pending.find? r.request.id = none) :
    Consistent (c.pending.enter r.request.id id)
      (c.setPhase n (.testing id c.pending.nextTicket)).runs where
  table := h.table.enter hfree id
  issued m ticket hm := by
    rw [ticketAt_setPhase hrun] at hm
    split at hm
    case isTrue =>
      rw [← Option.some.inj hm]
      exact Nat.lt_succ_self _
    case isFalse => exact Nat.lt_succ_of_lt (h.issued m ticket hm)
  distinct m k ticket hm hk := by
    rw [ticketAt_setPhase hrun] at hm hk
    split at hm
    case isTrue hmn =>
      split at hk
      case isTrue hkn => rw [hmn, hkn]
      case isFalse =>
        have hissued := h.issued k ticket hk
        rw [← Option.some.inj hm] at hissued
        exact absurd hissued (Nat.lt_irrefl _)
    case isFalse =>
      split at hk
      case isTrue =>
        have hissued := h.issued m ticket hm
        rw [← Option.some.inj hk] at hissued
        exact absurd hissued (Nat.lt_irrefl _)
      case isFalse => exact h.distinct m k ticket hm hk
  held call hcall := by
    rcases List.mem_append.mp hcall with hcall | hcall
    · obtain ⟨m, hm, hid⟩ := h.held call hcall
      refine ⟨m, ?_, by simpa using hid⟩
      rw [ticketAt_setPhase hrun]
      split
      case isTrue hmn =>
        rw [hmn, Run.ticketAt_of_getElem? hrun, hphase] at hm
        cases hm
      case isFalse => exact hm
    · rw [List.mem_singleton.mp hcall]
      refine ⟨n, ?_, by simpa using Run.idAt_of_getElem? hrun⟩
      rw [ticketAt_setPhase hrun, if_pos rfl]
      rfl

/-- A run that drops its guard leaves no call behind that waits with its ticket. -/
theorem Consistent.exit (h : Consistent c.pending c.runs) (hrun : c.runs[n]? = some r)
    (result : Option (Except Fault Response)) :
    Consistent (c.pending.dropGuard r.request.id) (c.setPhase n (.over result)).runs := by
  have hsettles := PendingCalls.settles_dropGuard h.table r.request.id
  have hkept := h.settles hsettles
  have hticket (m : RunId) : Run.ticketAt (c.setPhase n (.over result)).runs m =
      if m = n then none else Run.ticketAt c.runs m := ticketAt_setPhase hrun _ m
  refine ⟨hkept.table, fun m ticket hm ↦ ?_, fun m k ticket hm hk ↦ ?_, fun call hcall ↦ ?_⟩
  · rw [hticket] at hm
    split at hm
    case isTrue => cases hm
    case isFalse => exact hkept.issued m ticket hm
  · rw [hticket] at hm hk
    split at hm
    case isTrue => cases hm
    case isFalse =>
      split at hk
      case isTrue => cases hk
      case isFalse => exact hkept.distinct m k ticket hm hk
  · obtain ⟨m, hm, hid⟩ := hkept.held call hcall
    have hmn : m ≠ n := by
      rintro rfl
      have hother := (hsettles.mem_waiting.mp hcall).2
      rw [Run.idAt_of_getElem? hrun] at hid
      exact of_decide_eq_false hother (Option.some.inj hid).symm
    refine ⟨m, ?_, by simpa using hid⟩
    rw [hticket, if_neg hmn]
    exact hm

/-- Every step keeps the table and the runs consistent. -/
theorem Effect.consistent {event : Event} {pool : Pool} {pending : PendingCalls} {runs : List Run}
    (heffect : Effect c event pool pending runs) (h : Consistent c.pending c.runs) :
    Consistent pending runs := by
  cases heffect with
  | begun request =>
    refine ⟨h.table, fun n ticket hn ↦ ?_, fun n m ticket hn hm ↦ ?_, fun call hcall ↦ ?_⟩
    · exact h.issued n ticket (by simpa using hn)
    · exact h.distinct n m ticket (by simpa using hn) (by simpa using hm)
    · obtain ⟨n, hn, hid⟩ := h.held call hcall
      exact ⟨n, by simpa using hn, Run.idAt_append hid _⟩
  | moved hrun hmoves =>
    exact h.congr (ticketAt_setPhase_of_eq hrun hmoves.ticket) (by simp)
  | registered hrun hphase hfree => exact h.register hrun hphase hfree
  | collected hrun hphase hs =>
    refine (h.close _).congr (ticketAt_setPhase_of_eq hrun ?_) (by simp)
    rw [hphase]
    rfl
  | exited hrun hphase => exact h.exit hrun _
  | @pooled event pool hstep =>
    obtain ⟨selected, s, hsettles, -⟩ := settles_feel h.table event
    exact h.settles hsettles
  | passed milliseconds => exact h

/-- The identifier of a run stays the same. -/
theorem Effect.idAt {event : Event} {pool : Pool} {pending : PendingCalls} {runs : List Run}
    {id : String} (heffect : Effect c event pool pending runs)
    (h : Run.idAt c.runs n = some id) : Run.idAt runs n = some id := by
  cases heffect with
  | begun request => exact Run.idAt_append h _
  | moved => simpa using h
  | registered => simpa using h
  | collected => simpa using h
  | exited => simpa using h
  | pooled => exact h
  | passed => exact h

/-- What each step keeps holds behind all of them. -/
theorem steps_invariant {P : Client → Prop}
    (hkept : ∀ {c d : Client} {event : Event}, P c → c.step event = some d → P d)
    {events : List Event} (hc : P c) (h : c.steps events = some d) : P d := by
  induction events generalizing c with
  | nil =>
    obtain rfl := Option.some.inj h
    exact hc
  | cons event events ih =>
    obtain ⟨b, hstep, hrest⟩ := Option.bind_eq_some_iff.mp h
    exact ih (hkept hc hstep) hrest

/-- What holds of a pool that has just started and is kept by what its steps do holds of the pool of
a client. -/
theorem pool_induction {P : Pool → Prop} {config : ClientConfig} {events : List Event}
    (hstart : P (.empty config.connection))
    (hkept : ∀ {p q : Pool} {now : Nat} {event : Option Pool.Event},
      P p → Pool.Effect p now event q → P q)
    (h : (start config).steps events = some c) : P c.pool := by
  refine steps_invariant (P := fun c ↦ P c.pool) ?_ hstart h
  intro c d event hc hstep
  rcases pool_of_step hstep with hsame | ⟨own, heffect, -⟩
  · rw [hsame]
    exact hc
  · exact hkept hc heffect

/-- The connections of a client have its limits. -/
theorem limits_of_steps {config : ClientConfig} {events : List Event} {id : ConnectionId}
    {x : Connection} (h : (start config).steps events = some c)
    (hx : c.pool.connection? id = some x) :
    x.liveness.limits = config.connection.idleLimits := by
  have hboth : c.pool.config = config.connection ∧ c.pool.Limited := by
    refine pool_induction (P := fun p ↦ p.config = config.connection ∧ p.Limited)
      ⟨rfl, Pool.limited_empty _⟩ ?_ h
    intro p q now event ⟨hconfig, hlimited⟩ heffect
    exact ⟨heffect.config_eq.trans hconfig, heffect.limited hlimited⟩
  rw [← hboth.1]
  exact hboth.2 id x hx

/-- What a client did leaves the table and the runs consistent. -/
theorem consistent_of_steps {events : List Event} (hc : Consistent c.pending c.runs)
    (h : c.steps events = some d) : Consistent d.pending d.runs := by
  refine steps_invariant (P := fun c ↦ Consistent c.pending c.runs) ?_ hc h
  intro c d event hc hstep
  exact (effect_of_step hstep).consistent hc

end Client

end FramedRpc
