import FramedRpc.Proofs.Client.Entries

/-!
# What a guard forgets

A guard knows the identifier of its call and nothing else. While the call waits, its own entry is
the only one of that identifier, and dropping the guard forgets this entry. Once the call was
answered or has failed, the identifier is free for others, and a guard that is dropped later forgets
the entry of whoever registered it in the meantime.
-/

namespace FramedRpc

namespace Client

variable {config : ClientConfig} {events : List Event} {event : Event} {c d : Client} {n m : RunId}
  {pool : Pool} {pending : PendingCalls} {runs : List Run} {call : PendingCall} {ticket : Ticket}
  {id : String}

theorem Registers.idAt (h : Registers c event n call) : Run.idAt c.runs n = some call.id := by
  obtain ⟨r, hrun, -, hid⟩ := h.run
  rw [Run.idAt_of_getElem? hrun, hid]

/-- Nobody waits under an identifier that is registered. -/
theorem Registers.ne_id (h : Registers c event n call) {other : PendingCall}
    (hother : other ∈ c.pending.waiting) : other.id ≠ call.id := by
  obtain ⟨hfree, -, -⟩ := PendingCalls.register_ok h.answer
  simpa using List.find?_eq_none.mp hfree other hother

/-! ## The entry of a guard -/

/-- The call of a run that holds a ticket is in the table until the ticket is settled. -/
def Kept (pending : PendingCalls) (runs : List Run) : Prop :=
  ∀ n ticket, Run.ticketAt runs n = some ticket → pending.outcome? ticket = none →
    ∃ call ∈ pending.waiting, call.ticket = ticket

theorem Effect.kept (heffect : Effect c event pool pending runs)
    (hc : Consistent c.pending c.runs) (hkept : Kept c.pending c.runs) : Kept pending runs := by
  intro n ticket hticket hnone
  rcases heffect.ticketAt_cases hticket with hold | ⟨-, call, hcall, hsame, -⟩
  · obtain ⟨call, hcall, rfl⟩ := hkept n ticket hold (heffect.outcome?_eq_none hc hnone)
    exact ⟨call, heffect.mem_waiting hc hcall hnone, rfl⟩
  · exact ⟨call, hcall, hsame⟩

/-- A run registered a call when the ticket of another call had been settled. -/
def RegisteredBehind (config : ClientConfig) (events : List Event) (m : RunId) (call : PendingCall)
    (ticket : Ticket) : Prop :=
  Happened config events fun b event ↦
    Registers b event m call ∧ b.pending.outcome? ticket ≠ none

/-- An entry under the identifier of a run is its own one, or another run registered it when the
ticket of the first one had been settled. -/
def Succeeded (config : ClientConfig) (events : List Event) (c : Client) : Prop :=
  ∀ n ticket, Run.ticketAt c.runs n = some ticket → ∀ call ∈ c.pending.waiting,
    Run.idAt c.runs n = some call.id → call.ticket ≠ ticket →
    ∃ m ≠ n, RegisteredBehind config events m call ticket

theorem succeeded_step (hsteps : (start config).steps events = some c)
    (hc : Consistent c.pending c.runs) (hkept : Kept c.pending c.runs)
    (hsucceeded : Succeeded config events c) (h : c.step event = some d) :
    Succeeded config (events ++ [event]) d := by
  intro n ticket hticket call hcall hid hother
  have heffect := effect_of_step h
  rcases heffect.ticketAt_cases hticket with hticketold | ⟨-, own, -, hown, hregisters⟩
  · obtain ⟨phase, hphase, -⟩ := Option.bind_eq_some_iff.mp hticketold
    have hidold := heffect.idAt_of_phaseAt hphase hid
    rcases heffect.waiting_cases hc hcall with hcallold | ⟨m, hregisters, hm⟩
    · obtain ⟨m, hm, hbehind⟩ := hsucceeded n ticket hticketold call hcallold hidold hother
      exact ⟨m, hm, hbehind.append event⟩
    · refine ⟨m, ?_, happened_last hsteps ⟨hregisters, fun hnone ↦ ?_⟩⟩
      · rintro rfl
        exact hother (Option.some.inj (hm.symm.trans hticket))
      -- while the run waits, its own entry keeps the identifier from being registered again
      · obtain ⟨own, hcallown, rfl⟩ := hkept n ticket hticketold hnone
        have hsame := (hc.idAt_eq hcallown hticketold).symm.trans hidold
        exact hregisters.ne_id hcallown (Option.some.inj hsame)
  · have hsame := Option.some.inj ((heffect.idAt hregisters.idAt).symm.trans hid)
    rcases heffect.waiting_cases hc hcall with hcallold | ⟨m, hother', hm⟩
    · exact absurd hsame.symm (hregisters.ne_id hcallold)
    · obtain rfl : n = m := by
        have hevent := hregisters.event.symm.trans hother'.event
        cases hevent
        rfl
      exact absurd (Option.some.inj (hm.symm.trans hticket)) hother

/-! ## Runs of a client -/

theorem kept_of_steps (h : (start config).steps events = some c) : Kept c.pending c.runs := by
  refine (steps_invariant (P := fun c ↦ Consistent c.pending c.runs ∧ Kept c.pending c.runs)
    ?_ ⟨consistent_start config, ?_⟩ h).2
  · rintro c d event ⟨hc, hkept⟩ hstep
    have heffect := effect_of_step hstep
    exact ⟨heffect.consistent hc, heffect.kept hc hkept⟩
  · intro n ticket hticket
    cases hticket

theorem succeeded_of_steps (h : (start config).steps events = some c) :
    Succeeded config events c := by
  refine steps_induction ?_ ?_ h
  · intro n ticket hticket
    cases hticket
  · intro events c event d hsteps hsucceeded hstep
    exact succeeded_step hsteps (consistent_of_steps (consistent_start config) hsteps)
      (kept_of_steps hsteps) hsucceeded hstep

/-- After any steps of a client, the guard of a run that leaves takes away the entries under the
identifier of the run and no others. Such an entry is the one that the run registered itself, or the
ticket of the run was settled and another run registered the entry afterwards. Where no other run
did so, the guard of a settled run changes nothing. -/
theorem forgotten_by_guard {request : Request} {result : Option (Except Fault Response)}
    (h : (start config).steps events = some c)
    (hrun : c.runs[n]? = some ⟨request, .leaving ticket result⟩) :
    ∃ d, c.step (.run n .exit) = some d ∧
      (∀ call, call ∈ d.pending.waiting ↔ call ∈ c.pending.waiting ∧ call.id ≠ request.id) ∧
      (∀ call ∈ c.pending.waiting, call.id = request.id →
        c.pending.outcome? ticket = none ∧ RegisteredBy config events n call ∨
        c.pending.outcome? ticket ≠ none ∧
          ∃ m ≠ n, RegisteredBehind config events m call ticket) ∧
      (c.pending.outcome? ticket ≠ none →
        (∀ m ≠ n, ∀ call, call.id = request.id → ¬ RegisteredBehind config events m call ticket) →
        d.pending = c.pending) := by
  have hc := consistent_of_steps (consistent_start config) h
  have hticket : Run.ticketAt c.runs n = some ticket := Run.ticketAt_of_getElem? hrun
  have hid : Run.idAt c.runs n = some request.id := Run.idAt_of_getElem? hrun
  have hbehind : ∀ call ∈ c.pending.waiting, call.id = request.id →
      c.pending.outcome? ticket ≠ none → ∃ m ≠ n, RegisteredBehind config events m call ticket := by
    intro call hcall hsame hsettled
    have hcallid : Run.idAt c.runs n = some call.id := hid.trans (congrArg some hsame.symm)
    refine succeeded_of_steps h n ticket hticket call hcall hcallid ?_
    rintro rfl
    exact hsettled (hc.table.unsettled call hcall)
  refine ⟨{ c with pending := c.pending.dropGuard request.id }.settle n result, ?_, ?_, ?_, ?_⟩
  · show (c.runs[n]?).bind (fun r ↦ c.stepRun n r .exit) = _
    rw [hrun]
    rfl
  · intro call
    show call ∈ (c.pending.dropGuard request.id).waiting ↔ _
    rw [(PendingCalls.settles_dropGuard hc.table request.id).mem_waiting]
    simp
  · intro call hcall hsame
    by_cases hnone : c.pending.outcome? ticket = none
    case pos =>
      obtain ⟨own, hown, rfl⟩ := kept_of_steps h n ticket hticket hnone
      have hownid := Option.some.inj ((hc.idAt_eq hown hticket).symm.trans hid)
      obtain rfl := hc.table.eq_of_id_eq hown hcall (hownid.trans hsame.symm)
      obtain ⟨m, hregistered, hm⟩ := owned_of_steps h own hown
      obtain rfl := hc.distinct n m own.ticket hticket hm
      exact .inl ⟨hnone, hregistered⟩
    case neg => exact .inr ⟨hnone, hbehind call hcall hsame hnone⟩
  · intro hsettled hfree
    apply PendingCalls.dropGuard_of_none
    rw [PendingCalls.find?_eq_none_iff]
    rintro ⟨call, hcall, hsame⟩
    obtain ⟨m, hm, hregistered⟩ := hbehind call hcall hsame hsettled
    exact hfree m hm call hsame hregistered

/-- A call is answered, and before its guard is dropped another call of the same identifier is
registered. -/
def succeededEvents : List Event :=
  [.begin (.call "a" "Hello" "hello" [])] ++ opening 0 0 (.ok ⟨"::1", 7000⟩) none ++
    [arrival 1 (.response (.success "a" [1])), .begin (.call "a" "Hello" "hello" []),
      .run 1 (.found (.ok ⟨"::1", 7000⟩)), .pool (.get 1 .find), .pool (.get 1 .lock)] ++
    [RunEvent.connected, .register, .test, .queue].map (.run 1) ++ [.run 0 .collect]

theorem runs_succeeded : ((start .standard).steps succeededEvents).map (fun c ↦
    (c.runs, c.pending.waiting, c.pending.outcome? 0)) =
      some ([⟨.call "a" "Hello" "hello" [], .leaving 0 (some (.ok (.success "a" [1])))⟩,
        ⟨.call "a" "Hello" "hello" [], .waiting 1 1 10000⟩], [⟨"a", 1, 1⟩], some .closed) := by
  rfl

theorem registeredBehind_succeeded :
    ∃ m ≠ 0, RegisteredBehind .standard succeededEvents m ⟨"a", 1, 1⟩ 0 := by
  obtain ⟨c, hc, hstate⟩ := Option.map_eq_some_iff.mp runs_succeeded
  obtain ⟨hruns, hpending⟩ := Prod.mk.inj hstate
  obtain ⟨hwaiting, hsettled⟩ := Prod.mk.inj hpending
  have hrun : c.runs[0]? = some
      ⟨.call "a" "Hello" "hello" [], .leaving 0 (some (.ok (.success "a" [1])))⟩ := by
    rw [hruns]
    rfl
  have hcall : ⟨"a", 1, 1⟩ ∈ c.pending.waiting := by
    rw [hwaiting]
    exact List.mem_singleton.mpr rfl
  obtain ⟨d, -, -, hentry, -⟩ := forgotten_by_guard hc hrun
  rcases hentry ⟨"a", 1, 1⟩ hcall rfl with ⟨hnone, -⟩ | ⟨-, hbehind⟩
  · rw [hsettled] at hnone
    cases hnone
  · exact hbehind

theorem registeredBy_succeeded : RegisteredBy .standard succeededEvents 1 ⟨"a", 1, 1⟩ :=
  .of_take 16 rfl rfl rfl

/-- The guard of a call that was answered takes away the entry that another call registered, which
still waits. -/
theorem guard_forgets_other_call : ∃ c d, (start .standard).steps succeededEvents = some c ∧
    c.step (.run 0 .exit) = some d ∧
    c.pending.outcome? 0 ≠ none ∧
    RegisteredBy .standard succeededEvents 1 ⟨"a", 1, 1⟩ ∧
    ⟨"a", 1, 1⟩ ∈ c.pending.waiting ∧ ⟨"a", 1, 1⟩ ∉ d.pending.waiting ∧
    Run.phaseAt d.runs 1 = some (.waiting 1 1 10000) := by
  have hstates : ((start .standard).steps succeededEvents).bind (fun c ↦
      (c.step (.run 0 .exit)).map fun d ↦ (c.pending.outcome? 0, c.pending.waiting,
        d.pending.waiting, Run.phaseAt d.runs 1)) =
      some (some .closed, [⟨"a", 1, 1⟩], [], some (.waiting 1 1 10000)) := by
    rfl
  obtain ⟨c, hc, hstep⟩ := Option.bind_eq_some_iff.mp hstates
  obtain ⟨d, hd, hstate⟩ := Option.map_eq_some_iff.mp hstep
  obtain ⟨hsettled, hstate⟩ := Prod.mk.inj hstate
  obtain ⟨hwaiting, hstate⟩ := Prod.mk.inj hstate
  obtain ⟨hgone, hphase⟩ := Prod.mk.inj hstate
  refine ⟨c, d, hc, hd, ?_, registeredBy_succeeded, ?_, ?_, hphase⟩
  · rw [hsettled]
    nofun
  · rw [hwaiting]
    exact List.mem_singleton.mpr rfl
  · rw [hgone]
    exact List.not_mem_nil

end Client

end FramedRpc
