import FramedRpc.Proofs.Client.Entries

/-!
# Which attempt a response answers

A call sends its request over one connection and takes the first response with its identifier,
whatever connection that comes over. Where peers answer over the connection on which they are asked,
a response of another connection is one to another call of the same identifier, which was sent over
that: an earlier attempt, perhaps, whose caller gave up.
-/

namespace FramedRpc

namespace Client

variable {config : ClientConfig} {events : List Event} {event : Event} {c d : Client}
  {n : RunId} {id other : String} {connection found : ConnectionId} {r : Response}

/-! ## Where a call was sent -/

/-- After some of the events a run waits on a connection, on which its request was queued. -/
def Sent (config : ClientConfig) (events : List Event) (n : RunId) (id : String)
    (connection : ConnectionId) : Prop :=
  ∃ j b, (start config).steps (events.take j) = some b ∧ b.connection? n = some connection ∧
    Run.idAt b.runs n = some id

theorem phaseAt_of_connection? (h : c.connection? n = some connection) :
    ∃ ticket deadline, Run.phaseAt c.runs n = some (.waiting connection ticket deadline) := by
  unfold connection? at h
  split at h
  case h_1 hrun =>
    obtain rfl := Option.some.inj h
    exact ⟨_, _, Run.phaseAt_of_getElem? hrun⟩
  case h_2 => cases h

theorem connection?_of_getElem? {run : Run} {ticket : Ticket} {deadline : Nat}
    (hrun : c.runs[n]? = some run) (hphase : run.phase = .waiting connection ticket deadline) :
    c.connection? n = some connection := by
  obtain ⟨request, phase⟩ := run
  obtain rfl := hphase
  rw [connection?, hrun]

theorem Sent.append (h : Sent config events n id connection) (event : Event) :
    Sent config (events ++ [event]) n id connection := by
  obtain ⟨j, b, hb, hsent⟩ := h
  refine ⟨min j events.length, b, ?_, hsent⟩
  rw [List.take_append_of_le_length (Nat.min_le_right j events.length), ← List.take_eq_take_min]
  exact hb

/-- A call waits on one connection only. -/
theorem eq_of_sent_of_le {j k : Nat} (hjk : j ≤ k)
    (hj : (start config).steps (events.take j) = some c) (hc : c.connection? n = some connection)
    (hk : (start config).steps (events.take k) = some d) (hd : d.connection? n = some found) :
    found = connection := by
  obtain ⟨b, hb, hrest⟩ := steps_take_drop hk j
  rw [List.take_take, Nat.min_eq_left hjk] at hb
  obtain rfl := Option.some.inj (hj.symm.trans hb)
  obtain ⟨ticket, deadline, hphase⟩ := phaseAt_of_connection? hc
  have hregistered : Run.RegisteredOrLeft c.runs n (connection, ticket) := ⟨_, hphase, .inl rfl⟩
  obtain ⟨later, hlater, hstays⟩ := registeredOrLeft_of_steps hregistered hrest
  obtain ⟨_, _, hwaits⟩ := phaseAt_of_connection? hd
  obtain rfl := Option.some.inj (hwaits.symm.trans hlater)
  rcases hstays with hsame | hleft
  · exact congrArg Prod.fst (Option.some.inj hsame)
  · cases hleft

theorem Sent.unique (h : Sent config events n id connection)
    (hother : Sent config events n other found) : found = connection := by
  obtain ⟨j, b, hb, hsent, -⟩ := h
  obtain ⟨k, b', hb', hsent', -⟩ := hother
  rcases Nat.le_total j k with hjk | hkj
  · exact eq_of_sent_of_le hjk hb hsent hb' hsent'
  · exact (eq_of_sent_of_le hkj hb' hsent' hb hsent).symm

/-! ## Who returns a response was sent -/

/-- A run that has a response for its result had it before, or takes it where it waits. -/
theorem Effect.result_ok {pool : Pool} {pending : PendingCalls} {runs : List Run}
    (heffect : Effect c event pool pending runs) (h : Run.resultAt runs n = some (.ok r)) :
    Run.resultAt c.runs n = some (.ok r) ∨ ∃ connection, c.connection? n = some connection := by
  cases heffect with
  | begun request =>
    exact .inl (by simpa using h)
  | moved hrun hmoves =>
    rw [resultAt_setPhase hrun] at h
    split at h
    case isTrue =>
      obtain ⟨fault, hfault, -⟩ := hmoves.result _ h
      cases hfault
    case isFalse => exact .inl h
  | registered hrun =>
    rw [resultAt_setPhase hrun] at h
    split at h
    case isTrue => cases h
    case isFalse => exact .inl h
  | collected hrun hphase =>
    rw [resultAt_setPhase hrun] at h
    split at h
    case isTrue hn => exact .inr ⟨_, hn ▸ connection?_of_getElem? hrun hphase⟩
    case isFalse => exact .inl h
  | exited hrun hphase =>
    rw [resultAt_setPhase hrun] at h
    split at h
    case isTrue hn =>
      left
      rw [hn, Run.resultAt_of_getElem? hrun, hphase]
      exact h
    case isFalse => exact .inl h
  | pooled => exact .inl h
  | passed => exact .inl h

/-- Who has a response for its result was sent over a connection. -/
def Traced (config : ClientConfig) (events : List Event) (c : Client) : Prop :=
  ∀ n r id, Run.resultAt c.runs n = some (.ok r) → Run.idAt c.runs n = some id →
    ∃ connection, Sent config events n id connection

theorem traced_step (hsteps : (start config).steps events = some c)
    (htraced : Traced config events c) (h : c.step event = some d) :
    Traced config (events ++ [event]) d := by
  intro n r id hresult hid
  have heffect := effect_of_step h
  rcases heffect.result_ok hresult with hold | ⟨connection, hconnection⟩
  · obtain ⟨phase, hphase, -⟩ := Option.bind_eq_some_iff.mp hold
    obtain ⟨connection, hsent⟩ := htraced n r id hold (heffect.idAt_of_phaseAt hphase hid)
    exact ⟨connection, hsent.append event⟩
  · obtain ⟨ticket, deadline, hphase⟩ := phaseAt_of_connection? hconnection
    refine ⟨connection, events.length, c, ?_, hconnection, heffect.idAt_of_phaseAt hphase hid⟩
    rw [List.take_left]
    exact hsteps

theorem traced_of_steps (h : (start config).steps events = some c) : Traced config events c :=
  steps_induction nofun traced_step h

/-! ## Responses of other connections -/

/-- Over each connection come only responses to requests that are sent over it. -/
def PeersAnswer (config : ClientConfig) (events : List Event) : Prop :=
  ∀ (k : Nat) connection r, events[k]? = some (arrival connection (.response r)) →
    ∃ m, Sent config events m r.id connection

/-- After any steps of a client: who returns a response was sent over one connection, and the
response is the first one with its identifier that came in while it was registered. Where peers
answer only what they are asked, the response came over that very connection, unless another call of
the same identifier was sent over the connection of the response. -/
theorem returned_over_own_connection {request : Request}
    (h : (start config).steps events = some c)
    (hrun : c.runs[n]? = some ⟨request, .over (some (.ok r))⟩) :
    ∃ own, Sent config events n request.id own ∧
      (∀ id other, Sent config events n id other → other = own) ∧
      ∃ k via, AnsweredAt config events n r k ∧
        events[k]? = some (arrival via (.response r)) ∧
        (PeersAnswer config events → via ≠ own →
          ∃ m ≠ n, Sent config events m request.id via) := by
  have hresult := Run.resultAt_of_getElem? hrun
  have hrequest := Run.idAt_of_getElem? hrun
  obtain ⟨own, hown⟩ := traced_of_steps h n r request.id hresult hrequest
  obtain ⟨hid, k, hanswered⟩ := (history_of_steps h).result n r hresult
  obtain ⟨via, harrived⟩ := hanswered.arrived
  refine ⟨own, hown, fun id other ↦ hown.unique, k, via, hanswered, harrived, ?_⟩
  intro hpeers hvia
  obtain ⟨m, hm⟩ := hpeers k via r harrived
  rw [← Option.some.inj (hrequest.symm.trans hid)] at hm
  refine ⟨m, ?_, hm⟩
  rintro rfl
  exact hvia (hown.unique hm)

/-- A request is sent and times out, and is sent again over a second connection. Then the response
to the first attempt comes in over the first connection. -/
def lateEvents : List Event :=
  [.begin (.call "a" "Hello" "hello" [])] ++ opening 0 0 (.ok ⟨"::1", 7000⟩) none ++
    [.pass 10000, .run 0 .timeout, .run 0 .exit, .begin (.call "a" "Hello" "hello" [])] ++
    opening 1 1 (.ok ⟨"::1", 7001⟩) none ++
    [arrival 1 (.response (.success "a" [1]))] ++ [RunEvent.collect, .exit].map (.run 1)

theorem runs_late : ((start .standard).steps lateEvents).map Client.runs =
    some [⟨.call "a" "Hello" "hello" [], .over (some (.error (.timeout 10000)))⟩,
      ⟨.call "a" "Hello" "hello" [], .over (some (.ok (.success "a" [1])))⟩] := by
  rfl

theorem mem_lateEvents {k : Nat} (h : lateEvents[k]? = some (arrival connection (.response r))) :
    connection = 1 ∧ r = .success "a" [1] := by
  have hmem := List.mem_of_getElem? h
  simpa [lateEvents, opening, Pool.acquisition, arrival] using hmem

theorem sent_late_first : Sent .standard lateEvents 0 "a" 1 := by
  have h : ((start .standard).steps (lateEvents.take 10)).map (fun c ↦
      (c.connection? 0, Run.idAt c.runs 0)) = some (some 1, some "a") := by
    rfl
  obtain ⟨c, hc, hsent⟩ := Option.map_eq_some_iff.mp h
  exact ⟨10, c, hc, Prod.mk.inj hsent⟩

theorem sent_late_second : Sent .standard lateEvents 1 "a" 2 := by
  have h : ((start .standard).steps (lateEvents.take 23)).map (fun c ↦
      (c.connection? 1, Run.idAt c.runs 1)) = some (some 2, some "a") := by
    rfl
  obtain ⟨c, hc, hsent⟩ := Option.map_eq_some_iff.mp h
  exact ⟨23, c, hc, Prod.mk.inj hsent⟩

theorem peersAnswer_late : PeersAnswer .standard lateEvents := by
  intro k connection r h
  obtain ⟨rfl, rfl⟩ := mem_lateEvents h
  exact ⟨0, sent_late_first⟩

theorem sent_before_late : ∃ m ≠ 1, Sent .standard lateEvents m "a" 1 := by
  obtain ⟨c, hc, hruns⟩ := Option.map_eq_some_iff.mp runs_late
  have hrun : c.runs[1]? =
      some ⟨.call "a" "Hello" "hello" [], .over (some (.ok (.success "a" [1])))⟩ := by
    rw [hruns]
    rfl
  obtain ⟨own, hown, -, k, via, -, harrived, hother⟩ := returned_over_own_connection hc hrun
  obtain rfl := sent_late_second.unique hown
  obtain ⟨rfl, -⟩ := mem_lateEvents harrived
  exact hother peersAnswer_late (by decide)

/-- The second attempt returns the response to the first one, which comes in over a connection on
which the second attempt was not sent. -/
theorem late_response_answers_retry : ∃ c, (start .standard).steps lateEvents = some c ∧
    c.runs[1]? =
      some ⟨.call "a" "Hello" "hello" [], .over (some (.ok (.success "a" [1])))⟩ ∧
    PeersAnswer .standard lateEvents ∧
    ∀ (k : Nat) connection,
      lateEvents[k]? = some (arrival connection (.response (.success "a" [1]))) →
      ¬ Sent .standard lateEvents 1 "a" connection := by
  obtain ⟨c, hc, hruns⟩ := Option.map_eq_some_iff.mp runs_late
  refine ⟨c, hc, ?_, peersAnswer_late, ?_⟩
  · rw [hruns]
    rfl
  · intro k connection harrived hsent
    obtain ⟨rfl, -⟩ := mem_lateEvents harrived
    exact absurd (sent_late_second.unique hsent) (by decide)

end Client

end FramedRpc
