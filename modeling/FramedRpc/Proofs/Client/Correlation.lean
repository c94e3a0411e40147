import FramedRpc.Proofs.Client.Delivery
import FramedRpc.Proofs.Discovery.Lookups
import Mathlib.Data.List.Induction

/-!
# Which response answers a call

A call that returns a response returns the first one with its identifier that came in while it was
registered, and no response answers two calls. The steps that a client took are the history in which
this is said: what holds of all calls after some steps is kept by the next one.
-/

namespace FramedRpc

namespace Client

variable {config : ClientConfig} {events : List Event} {event : Event} {c d : Client}
  {n m : RunId} {r : Response} {j k : Nat} {id : String}

theorem steps_append (c : Client) (events : List Event) (event : Event) :
    c.steps (events ++ [event]) = (c.steps events).bind fun b ↦ b.step event := by
  unfold steps
  rw [List.foldlM_append]
  refine congrArg (Option.bind (List.foldlM step c events)) (funext fun b ↦ ?_)
  show (b.step event).bind some = b.step event
  exact Option.bind_fun_some _

/-- What holds of a client that has just started, and is kept by each step together with the events
before it, holds of all that a client did. -/
theorem steps_induction {P : List Event → Client → Prop} (hstart : P [] (start config))
    (hkept : ∀ {events : List Event} {event : Event} {c d : Client},
      (start config).steps events = some c → P events c → c.step event = some d →
        P (events ++ [event]) d)
    (h : (start config).steps events = some c) : P events c := by
  induction events using List.reverseRecOn generalizing c with
  | nil =>
    obtain rfl := Option.some.inj h
    exact hstart
  | append_singleton events event ih =>
    rw [steps_append] at h
    obtain ⟨b, hsteps, hstep⟩ := Option.bind_eq_some_iff.mp h
    exact hkept hsteps (ih hsteps) hstep

/-! ## The past of a client -/

/-- A run waits under an identifier in the table that the first events left behind. -/
def RegisteredAt (config : ClientConfig) (events : List Event) (j : Nat) (n : RunId)
    (id : String) : Prop :=
  ∃ c, (start config).steps (events.take j) = some c ∧ Registered c.pending c.runs n id

/-- An event brings the response that answers a run: the first one with its identifier that comes in
while the run is registered under that. -/
structure AnsweredAt (config : ClientConfig) (events : List Event) (n : RunId) (r : Response)
    (k : Nat) : Prop where
  arrived : ∃ connection, events[k]? = some (arrival connection (.response r))
  registered : RegisteredAt config events k n r.id
  first : ∀ j < k, RegisteredAt config events j n r.id → ∀ connection earlier,
    events[j]? = some (arrival connection (.response earlier)) → earlier.id ≠ r.id

theorem registeredAt_append (hj : j ≤ events.length) :
    RegisteredAt config (events ++ [event]) j n id ↔ RegisteredAt config events j n id := by
  unfold RegisteredAt
  rw [List.take_append_of_le_length hj]

theorem registeredAt_of_length_le (hj : events.length ≤ j)
    (h : (start config).steps events = some c) :
    RegisteredAt config events j n id ↔ Registered c.pending c.runs n id := by
  unfold RegisteredAt
  rw [List.take_of_length_le hj, h]
  constructor
  · rintro ⟨b, hb, hregistered⟩
    rw [Option.some.inj hb]
    exact hregistered
  · exact fun hregistered ↦ ⟨c, rfl, hregistered⟩

/-- Later events do not change what answered a run. -/
theorem AnsweredAt.append (h : AnsweredAt config events n r k) (event : Event) :
    AnsweredAt config (events ++ [event]) n r k := by
  obtain ⟨connection, harrived⟩ := h.arrived
  have hk : k < events.length := (List.getElem?_eq_some_iff.mp harrived).1
  refine ⟨⟨connection, ?_⟩, (registeredAt_append (Nat.le_of_lt hk)).mpr h.registered, ?_⟩
  · rw [List.getElem?_append_left hk]
    exact harrived
  · intro j hj hregistered via earlier hearlier
    have hlt := Nat.lt_trans hj hk
    rw [List.getElem?_append_left hlt] at hearlier
    rw [registeredAt_append (Nat.le_of_lt hlt)] at hregistered
    exact h.first j hj hregistered via earlier hearlier

/-! ## What is kept -/

/-- A run is answered by a response that carries the identifier of its request. -/
def Answered (config : ClientConfig) (events : List Event) (runs : List Run) (n : RunId)
    (r : Response) : Prop :=
  Run.idAt runs n = some r.id ∧ ∃ k, AnsweredAt config events n r k

/-- What holds of a client after its steps. -/
structure History (config : ClientConfig) (events : List Event) (c : Client) : Prop where
  consistent : Consistent c.pending c.runs
  unregistered : ∀ n, Run.EarlyAt c.runs n → ∀ j id, ¬ RegisteredAt config events j n id
  unanswered : ∀ n id, Registered c.pending c.runs n id → ∀ j, RegisteredAt config events j n id →
    ∀ connection earlier, events[j]? = some (arrival connection (.response earlier)) →
      earlier.id ≠ id
  delivered : ∀ n ticket r, Run.ticketAt c.runs n = some ticket →
    c.pending.outcome? ticket = some (.delivered (.ok r)) → Answered config events c.runs n r
  result : ∀ n r, Run.resultAt c.runs n = some (.ok r) → Answered config events c.runs n r

theorem history_start (config : ClientConfig) : History config [] (start config) where
  consistent := consistent_start config
  unregistered n _ j id h := by
    obtain ⟨c, hc, call, hcall, -⟩ := h
    rw [List.take_nil] at hc
    obtain rfl := Option.some.inj hc
    cases hcall
  unanswered n id h := by
    obtain ⟨call, hcall, -⟩ := h
    cases hcall
  delivered n ticket r h := by cases h
  result n r h := by cases h

theorem Answered.step {runs : List Run} {pool : Pool} {pending : PendingCalls}
    (h : Answered config events c.runs n r) (heffect : Effect c event pool pending runs) :
    Answered config (events ++ [event]) runs n r := by
  obtain ⟨hid, k, hk⟩ := h
  exact ⟨heffect.idAt hid, k, hk.append event⟩

/-- A response that comes in while a run is registered under its identifier, for the first time,
answers that run. -/
theorem History.answered (h : History config events c)
    (hsteps : (start config).steps events = some c) {pool : Pool} {pending : PendingCalls}
    {runs : List Run} {connection : ConnectionId}
    (heffect : Effect c (arrival connection (.response r)) pool pending runs)
    (hregistered : Registered c.pending c.runs n r.id) :
    Answered config (events ++ [arrival connection (.response r)]) runs n r := by
  obtain ⟨call, hcall, hid, hticket⟩ := hregistered
  have hn : Run.idAt c.runs n = some r.id := hid ▸ h.consistent.idAt_eq hcall hticket
  have hlast := (registeredAt_of_length_le (Nat.le_refl _) hsteps).mpr ⟨call, hcall, hid, hticket⟩
  refine ⟨heffect.idAt hn, events.length, ⟨connection, List.getElem?_concat_length⟩, ?_, ?_⟩
  · exact (registeredAt_append (Nat.le_refl _)).mpr hlast
  · intro j hj hearlier via earlier hevent
    rw [List.getElem?_append_left hj] at hevent
    rw [registeredAt_append (Nat.le_of_lt hj)] at hearlier
    exact h.unanswered n r.id ⟨call, hcall, hid, hticket⟩ j hearlier via earlier hevent

/-- Whoever is registered behind a step has not been answered by a response before. -/
theorem History.unanswered_step (h : History config events c) {pool : Pool}
    {pending : PendingCalls} {runs : List Run} (heffect : Effect c event pool pending runs)
    (hregistered : Registered pending runs n id)
    (hearlier : RegisteredAt config (events ++ [event]) j n id) {connection : ConnectionId}
    {earlier : Response}
    (hevent : (events ++ [event])[j]? = some (arrival connection (.response earlier))) :
    earlier.id ≠ id := by
  have hj : j ≤ events.length := by
    have hlength := (List.getElem?_eq_some_iff.mp hevent).1
    rw [List.length_append, List.length_singleton] at hlength
    exact Nat.le_of_lt_succ hlength
  rw [registeredAt_append hj] at hearlier
  rcases heffect.registered_or_early h.consistent hregistered with hold | hearly
  · rcases Nat.lt_or_eq_of_le hj with hlt | rfl
    · rw [List.getElem?_append_left hlt] at hevent
      exact h.unanswered n id hold j hearlier connection earlier hevent
    · rw [List.getElem?_concat_length] at hevent
      cases hevent
      rintro rfl
      exact heffect.not_registered h.consistent hregistered
  · exact absurd hearlier (h.unregistered n hearly j id)

/-- A step keeps what holds of all calls. -/
theorem history_step (h : History config events c)
    (hsteps : (start config).steps events = some c) (hstep : c.step event = some d) :
    History config (events ++ [event]) d := by
  have heffect := effect_of_step hstep
  refine ⟨heffect.consistent h.consistent, ?_, ?_, ?_, ?_⟩
  · intro n hearly j id hregistered
    rcases Nat.lt_or_ge events.length j with hj | hj
    · have hlength : (events ++ [event]).length ≤ j := by
        rw [List.length_append, List.length_singleton]
        exact hj
      have hafter : (start config).steps (events ++ [event]) = some d := by
        rw [steps_append, hsteps]
        exact hstep
      rw [registeredAt_of_length_le hlength hafter] at hregistered
      exact not_registered_of_early hearly id hregistered
    · rw [registeredAt_append hj] at hregistered
      exact h.unregistered n (heffect.early hearly) j id hregistered
  · intro n id hregistered j hearlier connection earlier hevent
    exact h.unanswered_step heffect hregistered hearlier hevent
  · intro n ticket r hticket houtcome
    rcases heffect.delivered h.consistent hticket houtcome with
      ⟨hold, houtcome⟩ | ⟨⟨connection, rfl⟩, hregistered⟩
    · exact (h.delivered n ticket r hold houtcome).step heffect
    · exact h.answered hsteps heffect hregistered
  · intro n r hresult
    rcases heffect.result hresult with hold | ⟨e, -, hsource⟩
    · exact (h.result n r hold).step heffect
    · cases hsource with
      | delivered hticket houtcome =>
        exact (h.delivered n _ r hticket houtcome).step heffect

/-- What a client did is its history. -/
theorem history_of_steps (h : (start config).steps events = some c) :
    History config events c := by
  refine steps_induction (P := History config) (history_start config) ?_ h
  intro events event c d hsteps hhistory hstep
  exact history_step hhistory hsteps hstep

/-! ## Faults -/

/-- What holds of the faults in a client after its steps: mismatches come from the directory. -/
structure Blame (events : List Event) (c : Client) : Prop where
  pool : c.pool.Blameless
  outcome : ∀ ticket fault, c.pending.outcome? ticket = some (.delivered (.error fault)) →
    fault.kind ≠ .responseMismatch
  result : ∀ n fault, Run.resultAt c.runs n = some (.error fault) →
    fault.kind = .responseMismatch → Event.run n (.found (.error fault)) ∈ events

theorem blame_start (config : ClientConfig) : Blame [] (start config) where
  pool := nofun
  outcome ticket fault h := by cases h
  result n fault h := by cases h

theorem blame_step (h : Blame events c) (hc : Consistent c.pending c.runs)
    (hstep : c.step event = some d) : Blame (events ++ [event]) d := by
  have heffect := effect_of_step hstep
  refine ⟨heffect.blameless h.pool, ?_, ?_⟩
  · intro ticket fault hfault
    rcases heffect.outcome_error hc hfault with hold | ⟨hother, -⟩
    · exact h.outcome ticket fault hold
    · exact hother
  · intro n fault hfault hkind
    rcases heffect.result hfault with hold | ⟨e, rfl, hsource⟩
    · exact List.mem_append_left _ (h.result n fault hold hkind)
    · cases hsource with
      | delivered _ houtcome => exact absurd hkind (h.outcome _ fault houtcome)
      | fault horigin =>
        cases horigin with
        | directory he =>
          rw [he]
          exact List.mem_append_right _ List.mem_cons_self
        | pool hg hdone => exact absurd hkind (h.pool _ hg fault hdone)
        | own hother => exact absurd hkind hother

theorem blame_of_steps (h : (start config).steps events = some c) : Blame events c := by
  refine steps_induction (P := Blame) (blame_start config) ?_ h
  intro events event c d hsteps hblame hstep
  exact blame_step hblame (history_of_steps hsteps).consistent hstep

/-! ## Calls and their responses -/

/-- What a caller is given who wants the return value of a call: its result, checked against its
request. -/
def returned? (c : Client) (n : RunId) : Option (Except Fault (List UInt8)) :=
  match c.runs[n]? with
  | some ⟨request, .over (some result)⟩ => some (result >>= fun r ↦ r.dataFor request)
  | _ => none

/-- A response to a request is not mistaken for the response to another one. -/
theorem dataFor_ne_mismatch {request : Request} (h : r.id = request.id) (expected found : String) :
    r.dataFor request ≠ .error (.responseMismatch expected found) := by
  have hsame : ¬ request.id ≠ r.id := fun hne ↦ hne h.symm
  show (r.check request).bind _ ≠ _
  rw [Response.check, if_neg hsame]
  split
  · cases hdata : r.data <;> nofun
  · nofun

/-- The answers that calls get from the directory are those of lookups, in registries that do not
report that a response is mistaken for another one. -/
def FromLookups (events : List Event) : Prop :=
  ∀ n answer, Event.run n (.found answer) ∈ events →
    ∃ (σ : Type) (d : Directory σ) (service : String),
      d.backend.Honest ∧ answer = (d.lookup service).1

/-- After any steps of a client, whatever comes in over its connections: a call that returned a
response carries its identifier and is answered by it, no response answers two calls, a call reports
a mismatch only where the directory did so, which no lookup does, and messages that answer no waiting
call change no call and no connection. -/
theorem answered_by_own_response (h : (start config).steps events = some c) :
    (∀ n request r, c.runs[n]? = some ⟨request, .over (some (.ok r))⟩ →
      r.id = request.id ∧ ∃ k, AnsweredAt config events n r k) ∧
    (∀ n m r s k, AnsweredAt config events n r k → AnsweredAt config events m s k → n = m) ∧
    (∀ n expected found, c.returned? n = some (.error (.responseMismatch expected found)) →
      Event.run n (.found (.error (.responseMismatch expected found))) ∈ events) ∧
    (FromLookups events → ∀ n expected found,
      c.returned? n ≠ some (.error (.responseMismatch expected found))) ∧
    (∀ connection message, c.pool.isServing connection = true → c.Idle message →
      ∃ d, c.step (arrival connection message) = some d ∧ d.pending = c.pending ∧
        d.runs = c.runs ∧ ∀ id, d.pool.isActive id = c.pool.isActive id ∧
          d.pool.isServing id = c.pool.isServing id) := by
  have hhistory := history_of_steps h
  have hresult (n : RunId) (request : Request) (r : Response)
      (hrun : c.runs[n]? = some ⟨request, .over (some (.ok r))⟩) :
      r.id = request.id ∧ ∃ k, AnsweredAt config events n r k := by
    obtain ⟨hid, hanswered⟩ := hhistory.result n r (Run.resultAt_of_getElem? hrun)
    rw [Run.idAt_of_getElem? hrun] at hid
    exact ⟨(Option.some.inj hid).symm, hanswered⟩
  have hmismatch (n : RunId) (expected found : String)
      (hreturned : c.returned? n = some (.error (.responseMismatch expected found))) :
      Event.run n (.found (.error (.responseMismatch expected found))) ∈ events := by
    unfold returned? at hreturned
    split at hreturned
    case h_1 request result hrun =>
      have hreturned := Option.some.inj hreturned
      cases result with
      | ok r => exact absurd hreturned (dataFor_ne_mismatch (hresult n request r hrun).1 _ _)
      | error fault =>
        cases hreturned
        exact (blame_of_steps h).result n _ (Run.resultAt_of_getElem? hrun) rfl
    case h_2 => cases hreturned
  refine ⟨hresult, ?_, hmismatch, ?_, fun connection message ↦ step_of_idle h⟩
  · intro n m r s k hn hm
    obtain ⟨connection, hr⟩ := hn.arrived
    obtain ⟨other, hs⟩ := hm.arrived
    cases hr.symm.trans hs
    obtain ⟨b, hb, hregistered⟩ := hn.registered
    obtain ⟨b', hb', hregistered'⟩ := hm.registered
    obtain rfl := Option.some.inj (hb.symm.trans hb')
    have hconsistent := consistent_of_steps (consistent_start config) hb
    exact eq_of_registered hconsistent hregistered hregistered'
  · intro hlookups n expected found hreturned
    obtain ⟨σ, d, service, hhonest, hanswer⟩ := hlookups n _ (hmismatch n expected found hreturned)
    exact Directory.lookup_ne_mismatch hhonest hanswer.symm rfl

/-- Two calls over two connections; the response to each comes in over the other one, and a request
and a second response come in besides. -/
def crossedEvents : List Event :=
  [.begin (.call "a" "Hello" "hello" []), .begin (.call "b" "Bye" "bye" [])] ++
    opening 0 0 (.ok ⟨"::1", 7000⟩) none ++ opening 1 1 (.ok ⟨"::1", 7001⟩) none ++
    [arrival 1 (.response (.success "b" [2])), arrival 1 (.request (.alive "c")),
      arrival 1 (.response (.success "b" [3])), arrival 2 (.response (.success "a" [1]))] ++
    [RunEvent.collect, .exit].map (.run 1) ++ [RunEvent.collect, .exit].map (.run 0)

/-- The answers of the directory are those of registries that know one endpoint each. -/
theorem fromLookups_crossed : FromLookups crossedEvents := by
  intro n answer hfound
  have hcases : n = 0 ∧ answer = .ok ⟨"::1", 7000⟩ ∨ n = 1 ∧ answer = .ok ⟨"::1", 7001⟩ := by
    simpa [crossedEvents, opening, arrival] using hfound
  rcases hcases with ⟨-, rfl⟩ | ⟨-, rfl⟩
  · exact ⟨Unit, ⟨.fixed [⟨"::1", 7000⟩], (), .roundRobin 0⟩, "Hello",
      (Backend.Provided.fixed _).honest, rfl⟩
  · exact ⟨Unit, ⟨.fixed [⟨"::1", 7001⟩], (), .roundRobin 0⟩, "Bye",
      (Backend.Provided.fixed _).honest, rfl⟩

theorem answered_crossed : ∃ c, (start .standard).steps crossedEvents = some c ∧
    (∀ n expected found, c.returned? n ≠ some (.error (.responseMismatch expected found))) ∧
    (∃ k, AnsweredAt .standard crossedEvents 0 (.success "a" [1]) k) ∧
    ∃ k, AnsweredAt .standard crossedEvents 1 (.success "b" [2]) k := by
  have hruns : ((start .standard).steps crossedEvents).map Client.runs =
      some [⟨.call "a" "Hello" "hello" [], .over (some (.ok (.success "a" [1])))⟩,
        ⟨.call "b" "Bye" "bye" [], .over (some (.ok (.success "b" [2])))⟩] := by
    rfl
  obtain ⟨c, hc, hcruns⟩ := Option.map_eq_some_iff.mp hruns
  have hfirst : c.runs[0]? =
      some ⟨.call "a" "Hello" "hello" [], .over (some (.ok (.success "a" [1])))⟩ := by
    rw [hcruns]
    rfl
  have hsecond : c.runs[1]? =
      some ⟨.call "b" "Bye" "bye" [], .over (some (.ok (.success "b" [2])))⟩ := by
    rw [hcruns]
    rfl
  obtain ⟨hanswered, -, -, hmatched, -⟩ := answered_by_own_response hc
  exact ⟨c, hc, hmatched fromLookups_crossed, (hanswered 0 _ _ hfirst).2,
    (hanswered 1 _ _ hsecond).2⟩

end Client

end FramedRpc
