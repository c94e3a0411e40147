import FramedRpc.Proofs.Client.Sharing
import FramedRpc.Proofs.Client.Teardown
import FramedRpc.Proofs.Frame.RoundTrip
import FramedRpc.Proofs.Liveness

/-!
# What a connection is lost for

The calls over one connection share its fate. As long as it is active none of them fails for its
sake, and it stays active unless its loop is left for a reason outside, such as a peer that closes
it, or it comes to a request or a heartbeat that cannot be framed. Such a request is not written,
but it takes the connection with it, and so all the other calls that wait for responses over it.
-/

namespace FramedRpc

namespace Connection

variable {codec : Codec} {now : Nat} {c d : Connection} {r : Request}

/-- Why a connection is inactive, until it has ended. -/
def Stage.reason? : Stage → Option Reason
  | .inactive reason | .deaf reason | .leaving reason _ | .departed reason => some reason
  | _ => none

theorem isActive_of_reason? {reason : Reason} (h : c.stage.reason? = some reason) :
    c.isActive = false := by
  unfold isActive
  split
  case h_1 hstage =>
    rw [hstage] at h
    cases h
  case h_2 hstage =>
    rw [hstage] at h
    cases h
  case h_3 => rfl

/-- The next request is written if it can be framed. -/
theorem step_write_of_ok {rest : List Request} {bytes : List UInt8} (hserving : c.isServing = true)
    (hqueue : c.queue = r :: rest) (h : codec.encode (c.frame r) = .ok bytes) :
    c.step codec now .write = some ({ c with queue := rest }.wrote now r) := by
  rw [step, if_pos hserving]
  simp only [write, hqueue]
  rw [transmit_of_ok (c := { c with queue := rest }) h]

/-- A request that cannot be framed is not written, and the connection is given up. -/
theorem step_write_of_error {rest : List Request} {fault : Fault} (hserving : c.isServing = true)
    (hqueue : c.queue = r :: rest) (h : codec.encode (c.frame r) = .error fault) :
    c.step codec now .write = some ({ c with queue := rest }.leave (.writeFailed fault)) := by
  rw [step, if_pos hserving]
  simp only [write, hqueue]
  rw [transmit_of_error (c := { c with queue := rest }) h]

end Connection

namespace Client

variable {config : ClientConfig} {events : List Event} {event : Event} {c d : Client}
  {id : ConnectionId} {x y connection : Connection}

/-! ## Where connections come from -/

/-- A call queues its request on a connection. -/
def Queues (id : ConnectionId) (r : Request) (c : Client) (event : Event) : Prop :=
  ∃ n ticket, event = .run n .queue ∧ c.runs[n]? = some ⟨r, .queueing id ticket⟩

/-- Where the connection comes from that has a number behind a step of a client. -/
inductive Bearing (c : Client) (id : ConnectionId) : Event → Connection → Prop
  | kept {event : Event} {x : Connection} (hx : c.pool.connection? id = some x) :
    Bearing c id event x
  | queued {event : Event} {x : Connection} {r : Request} (hx : c.pool.connection? id = some x)
    (hqueues : Queues id r c event) : Bearing c id event { x with queue := x.queue ++ [r] }
  | pooled {own : Pool.Event} {y : Connection}
    (h : Pool.Origin c.pool c.now id (some own) y) : Bearing c id (.pool own) y

theorem bearing_of_pooled {n : RunId} {r : Run} {event : RunEvent} {pool : Pool}
    (hrun : c.runs[n]? = some r) (hpool : Pooled c r event pool)
    (hy : pool.connection? id = some y) : Bearing c id (.run n event) y := by
  cases hpool with
  | same => exact .kept hy
  | @pushed connection ticket hphase hconnection =>
    rcases Pool.connection?_cases hy rfl hconnection rfl with hold | ⟨rfl, rfl⟩
    · exact .kept hold
    · obtain ⟨request, phase⟩ := r
      obtain rfl : phase = _ := hphase
      exact .queued hconnection ⟨n, ticket, rfl, hrun⟩
  | asked hstep =>
    cases (Pool.effect_of_step hstep).origin hy with
    | kept hx => exact .kept hx
  | cancelled hstep =>
    cases (Pool.effect_of_step hstep).origin hy with
    | kept hx => exact .kept hx

theorem bearing_of_step (h : c.step event = some d) (hy : d.pool.connection? id = some y) :
    Bearing c id event y := by
  have heffect := effect_of_step h
  generalize d.pool = pool, d.pending = pending, d.runs = runs at heffect hy
  cases heffect with
  | moved hrun hmoves hpool => exact bearing_of_pooled hrun hpool hy
  | pooled hstep => exact .pooled ((Pool.effect_of_step hstep).origin hy)
  | _ => exact .kept hy

/-! ## Causes -/

/-- Why a connection was given up that was made for a key. -/
inductive Cause (config : ClientConfig) (events : List Event) (id : ConnectionId)
    (key : ConnectionKey) : Connection.Reason → Prop
  /-- The peer closed the connection or sent no frame, or it was closed here, or it broke. -/
  | outside {reason : Connection.Reason}
    (h : .pool (.connection id (.turn (.leave reason))) ∈ events) :
    Cause config events id key reason
  /-- A call queued a request that is too long for a frame. -/
  | unframed {r : Request} {fault : Fault} (h : Happened config events (Queues id r))
    (hlong : config.connection.maxFrameLength <
      (Frame.mk key.serializer (.request r)).content.length)
    (hfault : config.connection.codec.encode ⟨key.serializer, .request r⟩ = .error fault) :
    Cause config events id key (.writeFailed fault)
  /-- A heartbeat is too long for a frame. -/
  | unbeaten {beat : String} {fault : Fault}
    (h : .pool (.connection id (.turn (.wake beat))) ∈ events)
    (hlong : config.connection.maxFrameLength <
      (Frame.mk key.serializer (.request (.alive beat))).content.length)
    (hfault : config.connection.codec.encode ⟨key.serializer, .request (.alive beat)⟩ =
      .error fault) :
    Cause config events id key (.heartbeatFailed fault)

theorem Cause.append {key : ConnectionKey} {reason : Connection.Reason}
    (h : Cause config events id key reason) (event : Event) :
    Cause config (events ++ [event]) id key reason := by
  cases h with
  | outside h => exact .outside (List.mem_append_left _ h)
  | unframed h hlong hfault => exact .unframed (h.append event) hlong hfault
  | unbeaten h hlong hfault => exact .unbeaten (List.mem_append_left _ h) hlong hfault

/-- What is known of a connection after some events: whence its requests come, why it was given up
if it was, and that the clock ends if it was broken off. -/
structure Vouched (config : ClientConfig) (events : List Event) (x : Connection) : Prop where
  written : ∀ w ∈ x.written, config.connection.codec.writes (x.frame w.request) = true
  queued : ∀ r ∈ x.queue, Happened config events (Queues x.id r)
  lost : x.isActive = false → ∃ reason, Cause config events x.id x.key reason ∧
    (x.stage = .ended ∨ x.stage.reason? = some reason)
  broken : x.stage = .brokenOff → x.liveness.onClock = false

namespace Vouched

theorem append (h : Vouched config events x) (event : Event) :
    Vouched config (events ++ [event]) x where
  written := h.written
  queued r hr := (h.queued r hr).append event
  lost hinactive := by
    obtain ⟨reason, hcause, hstage⟩ := h.lost hinactive
    exact ⟨reason, hcause.append event, hstage⟩
  broken := h.broken

theorem establish (config : ClientConfig) (events : List Event) (id : ConnectionId)
    (key : ConnectionKey) (now : Nat) :
    Vouched config events (.establish id key config.connection.idleLimits now) :=
  ⟨nofun, nofun, nofun, nofun⟩

theorem wrote {now : Nat} {r : Request} {bytes : List UInt8} (h : Vouched config events x)
    (hserving : x.stage = .serving)
    (hencode : config.connection.codec.encode (x.frame r) = .ok bytes) :
    Vouched config events (x.wrote now r) := by
  refine ⟨fun w hw ↦ ?_, h.queued, h.lost, fun hbroken ↦ by cases hserving.symm.trans hbroken⟩
  rcases List.mem_append.mp hw with hold | hnew
  · exact h.written w hold
  · obtain rfl := List.mem_singleton.mp hnew
    show (config.connection.codec.encode (x.frame r)).isOk = true
    rw [hencode]
    rfl

theorem leave {reason : Connection.Reason} (h : Vouched config events x)
    (hcause : Cause config events x.id x.key reason) : Vouched config events (x.leave reason) :=
  ⟨h.written, h.queued, fun _ ↦ ⟨reason, hcause, .inr rfl⟩, nofun⟩

theorem turns {now : Nat} {turn : Connection.Event} (h : Vouched config events x)
    (hlimits : x.liveness.limits = config.connection.idleLimits)
    (hevent : .pool (.connection x.id (.turn turn)) ∈ events) (hserving : x.stage = .serving)
    (hturns : x.Turns config.connection.codec now turn y) : Vouched config events y := by
  have hrest {r : Request} {rest : List Request} (hqueue : x.queue = r :: rest) :
      Vouched config events { x with queue := rest } := by
    refine ⟨h.written, fun other hother ↦ ?_, h.lost, h.broken⟩
    exact h.queued other (hqueue ▸ List.mem_cons_of_mem _ hother)
  cases hturns with
  | wrote hqueue hencode => exact (hrest hqueue).wrote hserving hencode
  | refused hqueue hencode =>
    apply (hrest hqueue).leave
    have hqueued := h.queued _ (hqueue ▸ List.mem_cons_self)
    exact .unframed hqueued (Codec.lt_of_encode_eq_error hencode) hencode
  | beat hencode => exact h.wrote hserving hencode
  | unbeaten hencode =>
    exact h.leave (.unbeaten hevent (Codec.lt_of_encode_eq_error hencode) hencode)
  | starved beat hidle =>
    -- the limits of a client leave reading alone
    refine absurd hidle (Liveness.poll_ne_readerIdle ?_)
    rw [hlimits]
    rfl
  | woken => exact h
  | received =>
    exact ⟨h.written, h.queued, h.lost, fun hbroken ↦ by cases hserving.symm.trans hbroken⟩
  | left => exact h.leave (.outside hevent)
  | brokeOff hclock => exact ⟨h.written, nofun, nofun, fun _ ↦ hclock⟩

/-- A connection that was given up stays so, for the same reason. -/
theorem leaves {stage : Connection.Stage} {reason : Connection.Reason}
    (h : Vouched config events x) (hstage : x.stage.reason? = some reason)
    (hnext : stage = .ended ∨ stage.reason? = some reason) :
    Vouched config events { x with stage } := by
  obtain ⟨found, hcause, hfound⟩ := h.lost (Connection.isActive_of_reason? hstage)
  refine ⟨h.written, h.queued, fun _ ↦ ⟨found, hcause, hnext.imp_right fun hsame ↦ ?_⟩, ?_⟩
  · rcases hfound with hended | hfound
    · rw [hended] at hstage
      cases hstage
    · rw [hsame, ← hstage, hfound]
  · rintro (rfl : stage = .brokenOff)
    rcases hnext with hended | hreason
    · cases hended
    · cases hreason

theorem moves {now : Nat} {own : Pool.ConnectionEvent} (h : Vouched config events x)
    (hlimits : x.liveness.limits = config.connection.idleLimits)
    (hevent : .pool (.connection x.id own) ∈ events)
    (hmoves : x.Moves config.connection.codec now own y) : Vouched config events y := by
  cases hmoves with
  | closed => exact ⟨h.written, h.queued, h.lost, h.broken⟩
  | turned hserving hturns => exact h.turns hlimits hevent hserving hturns
  | @deafened reason hstage =>
    have hdeaf : Vouched config events { x with stage := .deaf reason } :=
      h.leaves (congrArg Connection.Stage.reason? hstage) (.inr rfl)
    exact ⟨h.written, nofun, hdeaf.lost, nofun⟩
  | finished hstage => exact h.leaves (congrArg Connection.Stage.reason? hstage) (.inl rfl)

end Vouched

theorem config_of_step (h : c.step event = some d) : d.pool.config = c.pool.config := by
  rcases pool_of_step h with hsame | ⟨own, heffect, -⟩
  · rw [hsame]
  · exact heffect.config_eq

/-- All connections are vouched for behind a step as before. -/
theorem vouched_step (hsteps : (start config).steps events = some c)
    (hconfig : c.pool.config = config.connection)
    (hvouched : ∀ id x, c.pool.connection? id = some x → Vouched config events x)
    (h : c.step event = some d) (hy : d.pool.connection? id = some y) :
    Vouched config (events ++ [event]) y := by
  have hlast : event ∈ events ++ [event] := List.mem_append_right _ List.mem_cons_self
  have hbehind {x : Connection} (hx : c.pool.connection? id = some x) :
      Vouched config (events ++ [event]) x := (hvouched id x hx).append event
  cases bearing_of_step h hy with
  | kept hx => exact hbehind hx
  | queued hx hqueues =>
    obtain ⟨hwritten, hqueued, hlost, hbroken⟩ := hbehind hx
    obtain rfl := Pool.id_of_connection? hx
    refine ⟨hwritten, fun r hr ↦ ?_, hlost, hbroken⟩
    rcases List.mem_append.mp hr with hold | hnew
    · exact hqueued r hold
    · obtain rfl := List.mem_singleton.mp hnew
      exact happened_last hsteps hqueues
  | pooled horigin =>
    cases horigin with
    | kept hx => exact hbehind hx
    | established =>
      rw [hconfig]
      exact Vouched.establish ..
    | moved hx hmoves =>
      obtain rfl := Pool.id_of_connection? hx
      rw [hconfig] at hmoves
      exact (hbehind hx).moves (limits_of_steps hsteps hx) hlast hmoves
    | searched hx hstage =>
      exact (hbehind hx).leaves (congrArg Connection.Stage.reason? hstage) (.inr rfl)
    | departed hx hstage =>
      exact (hbehind hx).leaves (congrArg Connection.Stage.reason? hstage) (.inr rfl)
    | told hx =>
      obtain ⟨hwritten, hqueued, hlost, hbroken⟩ := hbehind hx
      exact ⟨hwritten, hqueued, hlost, hbroken⟩

theorem config_of_steps (h : (start config).steps events = some c) :
    c.pool.config = config.connection := by
  refine steps_invariant (P := fun c ↦ c.pool.config = config.connection) ?_ rfl h
  intro c d event hconfig hstep
  exact (config_of_step hstep).trans hconfig

@[simp]
theorem connection?_start (config : ClientConfig) (id : ConnectionId) :
    (start config).pool.connection? id = none :=
  rfl

/-- What holds of the connections of a client after its events. -/
theorem vouched_of_steps (h : (start config).steps events = some c)
    (hx : c.pool.connection? id = some x) : Vouched config events x := by
  revert id x
  refine steps_induction (P := fun events c ↦ ∀ {id x}, c.pool.connection? id = some x →
    Vouched config events x) (fun {id x} hx ↦ ?_) ?_ h
  · simp at hx
  · intro events event c d hsteps hvouched hstep id y
    exact vouched_step hsteps (config_of_steps hsteps) (fun id x ↦ hvouched) hstep

/-! ## Calls that fail -/

/-- Registered calls fail only with their connections. -/
def Loyal (c : Client) : Prop :=
  ∀ n id ticket fault, Run.registrationAt c.runs n = some (id, ticket) →
    c.pending.outcome? ticket = some (.delivered (.error fault)) → c.pool.Ended id

theorem loyal_step (hc : Orderly c) (hloyal : Loyal c) (h : c.step event = some d) : Loyal d := by
  intro n id ticket fault hregistration hfailed
  have heffect := effect_of_step h
  have hended : c.pool.Ended id → d.pool.Ended id := by
    intro hended
    rcases pool_of_step h with hsame | ⟨own, hpool, -⟩
    · rw [hsame]
      exact hended
    · exact hpool.ended hended
  rcases heffect.outcome_error hc.consistent hfailed with hold | ⟨-, call, hcall, rfl, rfl⟩
  · rcases registrationAt_of_step h hregistration with hregistered | ⟨-, -, rfl⟩
    · exact hended (hloyal n id ticket fault hregistered hold)
    · have hunissued := hc.consistent.table.unissued _ (Nat.le_refl c.pending.nextTicket)
      cases hunissued.symm.trans hold
  · rcases registrationAt_of_step h hregistration with hregistered | ⟨hevent, -⟩
    · -- the entry of the run is the only one of its ticket
      have hunsettled := hc.consistent.table.unsettled call hcall
      obtain ⟨entry, hentry, hticket, rfl⟩ := hc.attached.exists_call hregistered hunsettled
      obtain rfl := hc.consistent.table.eq_of_ticket_eq hentry hcall hticket
      exact (effect_of_pool h).ended_of_finish
    · cases hevent

theorem loyal_of_steps (h : (start config).steps events = some c) : Loyal c := by
  have hboth : Orderly c ∧ Loyal c := by
    refine steps_invariant (P := fun c ↦ Orderly c ∧ Loyal c) ?_
      ⟨orderly_start config, fun n _ _ _ hregistration ↦ by cases hregistration⟩ h
    intro c d event ⟨horderly, hloyal⟩ hstep
    exact ⟨horderly.step hstep, loyal_step horderly hloyal hstep⟩
  exact hboth.2

/-! ## Connections and their requests -/

theorem step_turn {turn : Connection.Event} (hx : c.pool.connection? x.id = some x)
    (hy : x.step c.pool.config.codec c.now turn = some y) :
    c.step (.pool (.connection x.id (.turn turn))) = some { c with
      pool := c.pool.setConnection y
      pending := c.feel (.connection x.id (.turn turn)) } := by
  have hpool : c.pool.step c.now (.connection x.id (.turn turn)) =
      some (c.pool.setConnection y) := by
    show (c.pool.connection? x.id).bind _ = _
    rw [hx]
    show (x.step c.pool.config.codec c.now turn).bind _ = _
    rw [hy]
    rfl
  show (c.pool.step c.now (.connection x.id (.turn turn))).bind _ = _
  rw [hpool]
  rfl

/-- An active connection fails no call. -/
theorem feel_of_isActive {own : Pool.ConnectionEvent} (hx : c.pool.connection? x.id = some x)
    (hactive : x.isActive = true) (hread : ∀ r, own ≠ .turn (.receive (.response r))) :
    c.feel (.connection x.id own) = c.pending := by
  cases own with
  | turn turn =>
    cases turn with
    | receive message =>
      cases message with
      | response r => exact absurd rfl (hread r)
      | request => rfl
    | _ => rfl
  | finish =>
    rcases Connection.isActive_iff.mp hactive with hstage | hstage <;>
      simp only [feel, hx, hstage]
  | _ => rfl

/-- What calls can rely on that share a connection. -/
structure Dependable (config : ClientConfig) (events : List Event) (c : Client)
    (connection : Connection) : Prop where
  /-- Of what cannot be framed nothing was written. -/
  written : ∀ w ∈ connection.written,
    config.connection.codec.writes (connection.frame w.request) = true
  /-- The next request is written if it can be framed, and the connection stays active. -/
  sent : connection.isServing = true → ∀ r rest, connection.queue = r :: rest →
    config.connection.codec.writes (connection.frame r) = true →
    c.step (.pool (.connection connection.id (.turn .write))) =
      some { c with pool := c.pool.setConnection ({ connection with queue := rest }.wrote c.now r) }
  /-- A request that cannot be framed is not written, but the connection is given up for it. -/
  refused : connection.isServing = true → ∀ r rest, connection.queue = r :: rest →
    config.connection.codec.writes (connection.frame r) = false →
    ∃ fault, c.step (.pool (.connection connection.id (.turn .write))) = some { c with
      pool := c.pool.setConnection ({ connection with queue := rest }.leave (.writeFailed fault)) }
  /-- The loop of an active connection goes on, unless the clock ends before it need write again. -/
  halted : connection.isActive = true → connection.isServing = false →
    ∃ w, config.connection.writeIdle = some w ∧
      Liveness.clockEnd ≤ connection.liveness.lastWrite + w
  /-- While the connection is active no step of it ends a call, but by a response. -/
  kept : connection.isActive = true → ∀ own d, (∀ r, own ≠ .turn (.receive (.response r))) →
    c.step (.pool (.connection connection.id own)) = some d → d.pending = c.pending
  /-- The connection was given up for a reason outside, or for what cannot be framed. -/
  lost : connection.isActive = false →
    ∃ reason, Cause config events connection.id connection.key reason ∧
      (connection.stage = .ended ∨ connection.stage.reason? = some reason)
  /-- The calls that are registered over the connection fail only when it has ended. -/
  failed : ∀ n ticket fault, Run.registrationAt c.runs n = some (connection.id, ticket) →
    c.pending.outcome? ticket = some (.delivered (.error fault)) → connection.stage = .ended

/-- After any steps of a client: the calls over a connection that is active do not fail for its
sake, and a request that can be framed is written and changes nothing for the others. The connection
was given up only for a reason outside, or for a request or a heartbeat that is too long for a
frame, of which nothing was written. Short of that its loop goes on as long as the clock. -/
theorem dependable_of_steps (h : (start config).steps events = some c)
    (hconnection : c.pool.connection? id = some connection) :
    Dependable config events c connection := by
  have hvouched := vouched_of_steps h hconnection
  have hconfig := config_of_steps h
  obtain rfl := Pool.id_of_connection? hconnection
  refine
    { written := hvouched.written
      sent := fun hserving r rest hqueue hwrites ↦ ?sent
      refused := fun hserving r rest hqueue hwrites ↦ ?refused
      halted := fun hactive hhalted ↦ ?halted
      kept := fun hactive own d hread hstep ↦ ?kept
      lost := hvouched.lost
      failed := fun n ticket fault hregistration hfailed ↦ ?failed }
  case sent =>
    have hencode := Codec.encode_of_le (Codec.writes_iff.mp hwrites)
    rw [← hconfig] at hencode
    exact step_turn hconnection (Connection.step_write_of_ok hserving hqueue hencode)
  case refused =>
    have hlong : ¬ (connection.frame r).content.length ≤ config.connection.codec.limit := by
      rw [← Codec.writes_iff, hwrites]
      exact Bool.false_ne_true
    have hencode := Codec.encode_of_lt (Nat.lt_of_not_le hlong)
    rw [← hconfig] at hencode
    exact ⟨_, step_turn hconnection (Connection.step_write_of_error hserving hqueue hencode)⟩
  case halted =>
    have hclock : connection.liveness.onClock = false := by
      rcases Connection.isActive_iff.mp hactive with hstage | hbroken
      · rw [Connection.isServing, hstage] at hhalted
        exact hhalted
      · exact hvouched.broken hbroken
    exact Liveness.exists_of_onClock_eq_false (limits_of_steps h hconnection) hclock
  case kept =>
    rw [pending_of_connection_step hstep]
    exact feel_of_isActive hconnection hactive hread
  case failed =>
    obtain ⟨found, hfound, hended⟩ := loyal_of_steps h n connection.id ticket fault hregistration
      hfailed
    obtain rfl := Option.some.inj (hconnection.symm.trans hfound)
    exact hended

def shortRequest : Request := .call "a" "S" "s" []

/-- The longer one of two requests. -/
def longRequest : Request := .call "b" "S" "s" [⟨"u8", [1]⟩]

/-- Two calls over one connection. The request of the first one is written, and the longer one of
the second call is queued. -/
def pairedEvents : List Event :=
  [.begin shortRequest, .begin longRequest] ++ opening 0 0 (.ok ⟨"::1", 7000⟩) none ++
    [.pool (.connection 1 (.turn .write)), .run 1 (.found (.ok ⟨"::1", 7000⟩)),
      .pool (.get 1 .find), .pool (.get 1 .lock)] ++
    [RunEvent.connected, .register, .test, .queue].map (.run 1)

theorem dependable_paired : ∃ c d connection, (start .standard).steps pairedEvents = some c ∧
    c.pool.connection? 1 = some connection ∧ connection.isActive = true ∧
    Dependable .standard pairedEvents c connection ∧
    c.step (.pool (.connection connection.id (.turn .write))) = some d ∧
    d.pending = c.pending := by
  have hend : ((start .standard).steps pairedEvents).bind (fun c ↦
      (c.pool.connection? 1).map fun connection ↦
        (connection.isServing, connection.key.serializer, connection.queue)) =
      some (true, .standard, [longRequest]) := by
    rfl
  obtain ⟨c, hc, hend⟩ := Option.bind_eq_some_iff.mp hend
  obtain ⟨connection, hconnection, hend⟩ := Option.map_eq_some_iff.mp hend
  simp only [Prod.mk.injEq] at hend
  obtain ⟨hserving, hserializer, hqueue⟩ := hend
  have hactive := Connection.isActive_of_isServing hserving
  have hdependable := dependable_of_steps hc hconnection
  have hwrites : ClientConfig.standard.connection.codec.writes
      (connection.frame longRequest) = true := by
    rw [Connection.frame, hserializer]
    rfl
  have hsent := hdependable.sent hserving longRequest [] hqueue hwrites
  have hkept := hdependable.kept hactive (.turn .write) _ (fun r hr ↦ by cases hr) hsent
  exact ⟨c, _, connection, hc, hconnection, hactive, hdependable, hsent, hkept⟩

/-- A client whose frames hold at most 48 bytes. -/
def narrowConfig : ClientConfig :=
  { ClientConfig.standard with
    connection := { ConnectionConfig.standard with maxFrameLength := 48 } }

/-- The second request is refused and the connection ends. Both calls take their outcomes. -/
def refusedEvents : List Event :=
  pairedEvents ++ [Pool.ConnectionEvent.turn .write, .deafen, .search, .depart, .finish].map
      (fun event ↦ .pool (.connection 1 event)) ++
    [RunEvent.collect, .exit].map (.run 0) ++ [RunEvent.collect, .exit].map (.run 1)

/-- The fault of a call that waited for the connection. -/
def refusedFault : Fault :=
  .connection ("Connection to [::1]:7000 lost: write failed: Protocol violation: " ++
    "Frame too large: 63 bytes (max 48 bytes)")

/-- The first call fails together with the second one, whose request is too long: it was written and
waited for its response, and nobody but the client ended the connection. -/
theorem lost_by_long_request : ∃ d connection,
    (start narrowConfig).steps refusedEvents = some d ∧
    d.pool.connection? 1 = some connection ∧ connection.isActive = false ∧
    connection.written = [⟨0, shortRequest⟩] ∧
    narrowConfig.connection.codec.writes (connection.frame shortRequest) = true ∧
    narrowConfig.connection.codec.writes (connection.frame longRequest) = false ∧
    d.result? 0 = some (.error refusedFault) ∧ d.result? 1 = some (.error refusedFault) := by
  have hend : ((start narrowConfig).steps refusedEvents).bind (fun d ↦
      (d.pool.connection? 1).map fun connection ↦ (connection.isActive, connection.written,
        connection.key.serializer, d.result? 0, d.result? 1)) =
      some (false, [⟨0, shortRequest⟩], .standard, some (.error refusedFault),
        some (.error refusedFault)) := by
    rfl
  obtain ⟨d, hd, hend⟩ := Option.bind_eq_some_iff.mp hend
  obtain ⟨connection, hconnection, hend⟩ := Option.map_eq_some_iff.mp hend
  simp only [Prod.mk.injEq] at hend
  obtain ⟨hinactive, hwritten, hserializer, hfirst, hsecond⟩ := hend
  refine ⟨d, connection, hd, hconnection, hinactive, hwritten, ?_, ?_, hfirst, hsecond⟩
  · rw [Connection.frame, hserializer]
    rfl
  · rw [Connection.frame, hserializer]
    rfl

end Client

end FramedRpc
