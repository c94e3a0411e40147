import FramedRpc.Proofs.Server.Endings

/-!
# Connections that are closed as idle

A session notes when it reads a frame, not when the frame arrives. When it is left as idle, every
frame that it has read had arrived before the threshold began to run; what arrived since then is
still unread. So the peer was silent for that long exactly where nothing of it was left unread. While
a request waits for a worker nothing is read, and a peer that goes on sending is closed as idle.
-/

namespace FramedRpc

/-! ## What a session has heard -/

namespace Session

variable {S T : Session} {now : Nat} {arrival : Arrival}

/-- What arrived is unread, or came before the last frame was read. -/
def Heard (S : Session) (arrival : Arrival) : Prop :=
  arrival ∈ S.inbox ∨ arrival.time ≤ S.liveness.lastRead

@[simp]
theorem inbox_turn (S : Session) : S.turn.inbox = S.inbox := by
  unfold turn
  split <;> rfl

@[simp]
theorem liveness_turn (S : Session) : S.turn.liveness = S.liveness := by
  unfold turn
  split <;> rfl

@[simp]
theorem inbox_queue (S : Session) (r : Reply) : (S.queue r).inbox = S.inbox := by
  unfold Session.queue
  split <;> rfl

@[simp]
theorem liveness_queue (S : Session) (r : Reply) : (S.queue r).liveness = S.liveness := by
  unfold Session.queue
  split <;> rfl

/-- How a session goes on hearing in a step at a time, in which something arrives or not. -/
structure Listens (S : Session) (now : Nat) (inbound? : Option Inbound) (T : Session) : Prop where
  limits : T.liveness.limits = S.liveness.limits
  lastRead : T.liveness.lastRead ≤ now
  inbox : ∀ arrival ∈ T.inbox,
    arrival ∈ S.inbox ∨ inbound? = some arrival.inbound ∧ arrival.time = now
  heard : ∀ f time, time ≤ now → S.Heard ⟨time, .frame f⟩ → T.Heard ⟨time, .frame f⟩

theorem listens_of_eq (hlast : S.liveness.lastRead ≤ now) (hinbox : T.inbox = S.inbox)
    (hliveness : T.liveness = S.liveness) : S.Listens now none T where
  limits := congrArg Liveness.limits hliveness
  lastRead := by
    rw [hliveness]
    exact hlast
  inbox arrival harrival := .inl (hinbox ▸ harrival)
  heard f time _ h := by
    unfold Heard
    rw [hinbox, hliveness]
    exact h

theorem listens_arrive (hlast : S.liveness.lastRead ≤ now) (inbound : Inbound) :
    S.Listens now (some inbound) (S.arrive now inbound) where
  limits := rfl
  lastRead := hlast
  inbox arrival harrival := by
    rcases List.mem_append.mp harrival with hold | hnew
    · exact .inl hold
    · obtain rfl := List.mem_singleton.mp hnew
      exact .inr ⟨rfl, rfl⟩
  heard f time _ h := h.imp_left (List.mem_append_left _)

/-- A frame is read: it came by now, and so did all that was read before. -/
theorem listens_read {f : Frame} {time : Nat} {rest : List Arrival}
    (hinbox : S.inbox = ⟨time, .frame f⟩ :: rest) (hrest : T.inbox = rest)
    (hliveness : T.liveness = S.liveness.recordRead now) : S.Listens now none T where
  limits := by
    rw [hliveness]
    rfl
  lastRead := by
    rw [hliveness]
    exact Nat.le_refl now
  inbox arrival harrival := .inl (hinbox ▸ List.mem_cons_of_mem _ (hrest ▸ harrival))
  heard g arrived harrived h := by
    unfold Heard
    rw [hliveness]
    exact .inr harrived

/-- What ends the connection is read; it is no frame. -/
theorem listens_ended {inbound : Inbound} {time : Nat} {rest : List Arrival} {reason : Reason}
    (hlast : S.liveness.lastRead ≤ now) (hinbox : S.inbox = ⟨time, inbound⟩ :: rest)
    (hreason : inbound.reason? = some reason) :
    S.Listens now none ({ S with inbox := rest }.close reason now) where
  limits := rfl
  lastRead := hlast
  inbox arrival harrival := .inl (hinbox ▸ List.mem_cons_of_mem _ harrival)
  heard f arrived _ h := by
    rcases h with hunread | hread
    · rw [hinbox] at hunread
      rcases List.mem_cons.mp hunread with hfirst | hbehind
      · obtain ⟨-, rfl⟩ := Arrival.mk.inj hfirst
        cases hreason
      · exact .inl hbehind
    · exact .inr hread

theorem Reads.listens (h : S.Reads now T) (hlast : S.liveness.lastRead ≤ now) :
    S.Listens now none T := by
  cases h with
  | order hinbox => exact listens_read hinbox rfl rfl
  | sign hinbox => exact listens_read hinbox (by simp) (by simp)
  | ended hinbox _ hreason => exact listens_ended hlast hinbox hreason

theorem Writes.listens {Fails : Reply → Fault → Prop} (h : S.Writes now Fails T)
    (hlast : S.liveness.lastRead ≤ now) : S.Listens now none T := by
  cases h with
  | sent => exact listens_of_eq hlast (by simp) (by simp)
  | failed => exact listens_of_eq hlast rfl rfl

theorem Listens.weaken {inbound? : Option Inbound}
    (h : S.Listens now none T) : S.Listens now inbound? T where
  limits := h.limits
  lastRead := h.lastRead
  inbox arrival harrival := by
    rcases h.inbox arrival harrival with hold | ⟨hnone, -⟩
    · exact .inl hold
    · cases hnone
  heard := h.heard

/-- What arrives in a step of a session. -/
def inboundOf : Serving.SessionEvent → Option Inbound
  | .arrive inbound => some inbound
  | _ => none

theorem eq_arrive_of_inboundOf {event : Serving.SessionEvent} {inbound : Inbound}
    (h : inboundOf event = some inbound) : event = .arrive inbound := by
  cases event with
  | arrive => exact congrArg _ (Option.some.inj h)
  | _ => cases h

theorem Moves.listens {s : Serving} {event : Serving.SessionEvent} (h : S.Moves s event T)
    (hlast : S.liveness.lastRead ≤ s.now) : S.Listens s.now (inboundOf event) T := by
  cases h with
  | arrived inbound => exact listens_arrive hlast inbound
  | read hread => exact (reads_of_read? hread).2.listens hlast
  | wrote hwrite => exact (writes_of_write? hwrite).2.listens hlast
  | lost hlose => exact (writes_of_lose? hlose).2.listens hlast
  | woke hwake =>
    rcases wake?_cases hwake with ⟨-, rfl⟩ | rfl
    · exact listens_of_eq hlast rfl rfl
    · exact listens_of_eq hlast (by simp) (by simp)
  | _ => exact listens_of_eq hlast rfl rfl

end Session

namespace Serving

variable {server : Server} {s s' : Serving} {id : SessionId} {S T : Session} {event : Event}
  {catalogue : Catalogue} {steps : List (Catalogue × Event)} {arrival : Session.Arrival}

/-! ## What arrived -/

/-- Something arrived for a session in one of the steps, at the time that the clock then showed. -/
def Arrived (server : Server) (steps : List (Catalogue × Event)) (id : SessionId)
    (arrival : Session.Arrival) : Prop :=
  ∃ before catalogue a, before ++ [(catalogue, .session id (.arrive arrival.inbound))] <+: steps ∧
    (start server).stepsWith before = some a ∧ a.now = arrival.time

theorem Arrived.append (h : Arrived server steps id arrival) (step : Catalogue × Event) :
    Arrived server (steps ++ [step]) id arrival := by
  obtain ⟨before, catalogue, a, hbefore, ha, hnow⟩ := h
  exact ⟨before, catalogue, a, hbefore.trans (List.prefix_append _ _), ha, hnow⟩

theorem arrived_last (hs : (start server).stepsWith steps = some s)
    (hevent : event = .session id (.arrive arrival.inbound)) (hnow : s.now = arrival.time) :
    Arrived server (steps ++ [(catalogue, event)]) id arrival :=
  ⟨steps, catalogue, s, hevent ▸ List.prefix_rfl, hs, hnow⟩

/-- What arrived by the last step arrived before it or in it. -/
theorem Arrived.cases (h : Arrived server (steps ++ [(catalogue, event)]) id arrival)
    (hs : (start server).stepsWith steps = some s) : Arrived server steps id arrival ∨
      event = .session id (.arrive arrival.inbound) ∧ s.now = arrival.time := by
  obtain ⟨before, other, a, hbefore, ha, hnow⟩ := h
  rcases List.prefix_concat_iff.mp hbefore with heq | hprefix
  · obtain ⟨rfl, hlast⟩ := List.append_inj' heq rfl
    obtain ⟨-, hevent⟩ := Prod.mk.inj (List.singleton_inj.mp hlast)
    obtain rfl := Option.some.inj (hs.symm.trans ha)
    exact .inr ⟨hevent.symm, hnow⟩
  · exact .inl ⟨before, other, a, hprefix, ha, hnow⟩

theorem not_arrived_nil : ¬ Arrived server [] id arrival := by
  rintro ⟨before, catalogue, a, hbefore, -⟩
  simp at hbefore

/-! ## Sessions and what arrived for them -/

/-- A session and what arrived for it: that is unread, or was read by the time of the last read. -/
structure Hearing (server : Server) (steps : List (Catalogue × Event)) (id : SessionId)
    (now : Nat) (S : Session) : Prop where
  limits : S.liveness.limits = server.config.idleLimits
  lastRead : S.liveness.lastRead ≤ now
  inbox : ∀ arrival ∈ S.inbox, Arrived server steps id arrival
  heard : ∀ f time, Arrived server steps id ⟨time, .frame f⟩ → S.Heard ⟨time, .frame f⟩

/-- The sessions of a server and what arrived for them. -/
structure Attentive (server : Server) (steps : List (Catalogue × Event)) (s : Serving) : Prop where
  config : s.server.config = server.config
  arrived : ∀ id arrival, Arrived server steps id arrival →
    id < s.sessions.length ∧ arrival.time ≤ s.now
  sessions : ∀ id S, s.sessions[id]? = some S → Hearing server steps id s.now S

theorem attentive_start (server : Server) : Attentive server [] (start server) where
  config := rfl
  arrived _ _ h := (not_arrived_nil h).elim
  sessions _ _ h := by cases h

theorem Effect.now_le (heffect : Effect s event s') : s.now ≤ s'.now := by
  cases heffect with
  | @delivered k t response =>
    obtain ⟨sessions, -, hsessions⟩ := s.deliver_eq t response
    rw [hsessions]
    exact Nat.le_refl _
  | passed => exact Nat.le_add_right _ _
  | _ => exact Nat.le_refl _

/-- Only a session that is there makes a step. -/
theorem Effect.lt_length {event : SessionEvent} (heffect : Effect s (.session id event) s') :
    id < s.sessions.length := by
  cases heffect with
  | moved hS => exact (List.getElem?_eq_some_iff.mp hS).1
  | reserved hS => exact (List.getElem?_eq_some_iff.mp hS).1

/-- What arrives for a session is in its inbox behind the step. -/
theorem Effect.mem_inbox {inbound : Session.Inbound}
    (heffect : Effect s (.session id (.arrive inbound)) s') (hT : s'.sessions[id]? = some T) :
    ⟨s.now, inbound⟩ ∈ T.inbox := by
  cases heffect with
  | moved hS hmoves =>
    replace hT : (s.sessions.set id _)[id]? = some T := hT
    rw [getElem?_set_of_some hS, if_pos rfl] at hT
    obtain rfl := Option.some.inj hT
    cases hmoves with
    | arrived => exact List.mem_append_right _ List.mem_cons_self

/-- What arrives for the session of a number in a step. -/
def Event.inboundFor (event : Event) (id : SessionId) : Option Session.Inbound :=
  match event with
  | .session other event => if other = id then Session.inboundOf event else none
  | _ => none

theorem eq_arrive_of_inboundFor {inbound : Session.Inbound}
    (h : event.inboundFor id = some inbound) : event = .session id (.arrive inbound) := by
  cases event with
  | session other event =>
    obtain ⟨rfl, hinbound⟩ := Option.ite_none_right_eq_some.mp h
    exact congrArg _ (Session.eq_arrive_of_inboundOf hinbound)
  | _ => cases h

/-- A session that is there behind a step is a new one, or goes on hearing. -/
theorem Origin.listens (h : Origin s id event T)
    (hlast : ∀ S, s.sessions[id]? = some S → S.liveness.lastRead ≤ s.now) :
    (s.sessions[id]? = none ∧ T = .accept s.server.config.idleLimits s.now) ∨
      ∃ S, s.sessions[id]? = some S ∧ S.Listens s.now (event.inboundFor id) T := by
  cases h with
  | kept hS => exact .inr ⟨T, hS, (Session.listens_of_eq (hlast T hS) rfl rfl).weaken⟩
  | accepted hnone => exact .inl ⟨hnone, rfl⟩
  | @moved event S T hS hmoves =>
    refine .inr ⟨S, hS, ?_⟩
    have hinbound : (Event.session id event).inboundFor id = Session.inboundOf event := if_pos rfl
    rw [hinbound]
    exact hmoves.listens (hlast S hS)
  | @reserved S order hS hstage =>
    have hinbox : ({ S with stage := .serving } : Session).turn.inbox = S.inbox :=
      by simp
    have hliveness : ({ S with stage := .serving } : Session).turn.liveness = S.liveness :=
      by simp
    exact .inr ⟨S, hS, (Session.listens_of_eq (hlast S hS) hinbox hliveness).weaken⟩
  | @told k t S response hS =>
    exact .inr ⟨S, hS, (Session.listens_of_eq (hlast S hS) (by simp) (by simp)).weaken⟩

/-- What arrives for a session before a step is found behind it, and so is what arrives in it. -/
theorem Hearing.listens (h : Hearing server steps id s.now S)
    (hs : (start server).stepsWith steps = some s)
    (hlistens : S.Listens s.now (event.inboundFor id) T)
    (harrived : ∀ inbound, event = .session id (.arrive inbound) → ⟨s.now, inbound⟩ ∈ T.inbox)
    (htime : ∀ arrival, Arrived server steps id arrival → arrival.time ≤ s.now) :
    Hearing server (steps ++ [(catalogue, event)]) id s.now T where
  limits := hlistens.limits.trans h.limits
  lastRead := hlistens.lastRead
  inbox arrival harrival := by
    rcases hlistens.inbox arrival harrival with hold | ⟨hnew, hnow⟩
    · exact (h.inbox arrival hold).append _
    · exact arrived_last hs (eq_arrive_of_inboundFor hnew) hnow.symm
  heard f time harrival := by
    rcases harrival.cases hs with hbefore | ⟨hevent, rfl⟩
    · exact hlistens.heard f time (htime _ hbefore) (h.heard f time hbefore)
    · exact .inl (harrived _ hevent)

theorem Hearing.later {now : Nat} (h : Hearing server steps id s.now S) (hnow : s.now ≤ now) :
    Hearing server steps id now S where
  limits := h.limits
  lastRead := Nat.le_trans h.lastRead hnow
  inbox := h.inbox
  heard := h.heard

/-- For a connection that is accepted nothing has arrived. -/
theorem hearing_accept (hnone : ∀ arrival, ¬ Arrived server steps id arrival) (now : Nat) :
    Hearing server steps id now (.accept server.config.idleLimits now) where
  limits := by simp [Session.accept, Liveness.start]
  lastRead := by simp [Session.accept, Liveness.start]
  inbox arrival harrival := by simp [Session.accept] at harrival
  heard f time harrival := (hnone _ harrival).elim

theorem Attentive.step (h : Attentive server steps s)
    (hs : (start server).stepsWith steps = some s)
    (heffect : Effect (s.offering catalogue) event s') :
    Attentive server (steps ++ [(catalogue, event)]) s' where
  config := by
    rw [heffect.server_eq]
    exact h.config
  arrived id arrival harrival := by
    rcases harrival.cases hs with hbefore | ⟨rfl, hnow⟩
    · obtain ⟨hid, htime⟩ := h.arrived id arrival hbefore
      exact ⟨Nat.lt_of_lt_of_le hid heffect.length_sessions_le,
        Nat.le_trans htime heffect.now_le⟩
    · exact ⟨Nat.lt_of_lt_of_le heffect.lt_length heffect.length_sessions_le,
        hnow ▸ heffect.now_le⟩
  sessions id T hT := by
    have hlast : ∀ S, s.sessions[id]? = some S → S.liveness.lastRead ≤ s.now := fun S hS ↦
      (h.sessions id S hS).lastRead
    refine Hearing.later ?_ heffect.now_le
    rcases (heffect.origin hT).listens hlast with ⟨hnone, rfl⟩ | ⟨S, hS, hlistens⟩
    · have hconfig : (s.offering catalogue).server.config = server.config := h.config
      rw [hconfig]
      -- Nothing can have arrived for a number that no session had.
      have hid : s.sessions.length ≤ id := List.getElem?_eq_none_iff.mp hnone
      refine hearing_accept (fun arrival harrival ↦ ?_) s.now
      rcases harrival.cases hs with hbefore | ⟨rfl, -⟩
      · exact Nat.not_lt_of_le hid (h.arrived id arrival hbefore).1
      · exact Nat.not_lt_of_le hid heffect.lt_length
    · refine (h.sessions id S hS).listens hs hlistens ?_ fun arrival harrival ↦
        (h.arrived id arrival harrival).2
      rintro inbound rfl
      exact heffect.mem_inbox hT

/-- All that arrived for a session is found. -/
theorem attentive_of_stepsWith (h : (start server).stepsWith steps = some s) :
    Attentive server steps s :=
  stepsWith_induction (attentive_start server) (fun hs ha heffect ↦ ha.step hs heffect) h

/-! ## Connections that were left as idle -/

/-- A session that was left as idle at a time, for a threshold. -/
structure LeftIdle (server : Server) (steps : List (Catalogue × Event)) (id : SessionId)
    (S : Session) (limit time : Nat) : Prop where
  /-- Nothing was read for that long. -/
  overdue : S.liveness.lastRead + limit ≤ time
  /-- A frame that arrived later than the threshold before the end was not read, nor will it be. -/
  unread : ∀ f arrived, Arrived server steps id ⟨arrived, .frame f⟩ → time < arrived + limit →
    ⟨arrived, .frame f⟩ ∈ S.inbox
  /-- The peer was silent for that long exactly where what is unread shows that it was. -/
  silent : (∀ f arrived, Arrived server steps id ⟨arrived, .frame f⟩ → arrived ≤ time →
      arrived + limit ≤ time) ↔
    ∀ f arrived, ⟨arrived, .frame f⟩ ∈ S.inbox → arrived ≤ time → arrived + limit ≤ time

theorem exists_readIdle_of_cause {codec : Codec} {liveness : Liveness} {orders : List Session.Order}
    {stage : Session.Stage} {time : Nat} (h : Cause codec steps id liveness orders stage)
    (hstage : stage = .closed .readIdle time) :
    ∃ limit, liveness.limits.readIdle = some limit ∧ liveness.lastRead + limit ≤ time := by
  cases h with
  | silent hlimit hidle =>
    obtain ⟨-, rfl⟩ := Session.Stage.closed.inj hstage
    exact ⟨_, hlimit, hidle⟩
  | @input inbound reason _ harrived hreason =>
    obtain ⟨rfl, -⟩ := Session.Stage.closed.inj hstage
    cases inbound <;> cases hreason
  | _ => cases hstage

/-- Once nothing was read for the threshold, what arrived is unread or arrived before it began. -/
theorem Hearing.mem_inbox_or_le {now limit time arrived : Nat} {f : Frame}
    (h : Hearing server steps id now S) (hoverdue : S.liveness.lastRead + limit ≤ time)
    (harrived : Arrived server steps id ⟨arrived, .frame f⟩) :
    ⟨arrived, .frame f⟩ ∈ S.inbox ∨ arrived + limit ≤ time := by
  refine (h.heard f arrived harrived).imp_right fun hread ↦ ?_
  calc
    arrived + limit ≤ S.liveness.lastRead + limit := Nat.add_le_add_right hread limit
    _ ≤ time := hoverdue

theorem Hearing.leftIdle {now limit time : Nat} (h : Hearing server steps id now S)
    (hoverdue : S.liveness.lastRead + limit ≤ time) : LeftIdle server steps id S limit time where
  overdue := hoverdue
  unread f arrived harrived hlate :=
    (h.mem_inbox_or_le hoverdue harrived).resolve_right (Nat.not_le_of_lt hlate)
  silent := by
    refine ⟨fun hsilent f arrived hunread ↦ hsilent f arrived (h.inbox _ hunread), ?_⟩
    intro hsilent f arrived harrived htime
    rcases h.mem_inbox_or_le hoverdue harrived with hunread | hearly
    · exact hsilent f arrived hunread htime
    · exact hearly

/-- After any steps of a server, whatever its services do and however many workers it has: a session
that was left as idle had read nothing for the threshold. A frame that arrived in the meantime was
left unread, and without such frames the peer was silent. -/
theorem leftIdle_of_stepsWith {time : Nat} (h : (start server).stepsWith steps = some s)
    (hS : s.sessions[id]? = some S) (hstage : S.stage = .closed .readIdle time) :
    ∃ limit, server.config.readIdle = some limit ∧ LeftIdle server steps id S limit time := by
  have hleft : S.isOpen = false := by
    rw [Session.isOpen, hstage]
  have hcause := ((upright_of_stepsWith h).sessions id S hS).left hleft
  have hhearing := (attentive_of_stepsWith h).sessions id S hS
  obtain ⟨limit, hlimit, hidle⟩ := exists_readIdle_of_cause hcause hstage
  have hsame : S.liveness.limits.readIdle = server.config.readIdle :=
    congrArg IdleLimits.readIdle hhearing.limits
  exact ⟨limit, hsame ▸ hlimit, hhearing.leftIdle hidle⟩

/-- A server with one worker, whose connections may be silent for a second. -/
def patientServer : Server :=
  ⟨{ ServerConfig.standard with readIdle := some 1000, maxWorkers := 1 }, .empty, .all⟩

/-- The peer sends a heartbeat and is silent from then on, but for what comes after the end. -/
def silentEvents : List Event :=
  [.accept, .pass 200, .session 0 (.arrive (.frame ⟨.json, .request (.alive "a")⟩)),
    .session 0 .read, .pass 1100, .session 0 .wake, .pass 1,
    .session 0 (.arrive (.frame ⟨.json, .request (.alive "b")⟩))]

def silentSteps : List (Catalogue × Event) :=
  silentEvents.map fun event ↦ (.empty, event)

theorem leftIdle_silent : ∃ s S, (start patientServer).stepsWith silentSteps = some s ∧
    s.sessions[0]? = some S ∧ S.stage = .closed .readIdle 1300 ∧
    LeftIdle patientServer silentSteps 0 S 1000 1300 ∧
    ∀ f arrived, Arrived patientServer silentSteps 0 ⟨arrived, .frame f⟩ → arrived ≤ 1300 →
      arrived + 1000 ≤ 1300 := by
  have hend : ((start patientServer).stepsWith silentSteps).map (fun s ↦
      s.sessions[0]?.map fun S ↦ (S.stage, S.inbox)) =
      some (some (.closed .readIdle 1300, [⟨1301, .frame ⟨.json, .request (.alive "b")⟩⟩])) := by
    rfl
  obtain ⟨s, hs, hend⟩ := Option.map_eq_some_iff.mp hend
  obtain ⟨S, hS, hend⟩ := Option.map_eq_some_iff.mp hend
  obtain ⟨hstage, hinbox⟩ := Prod.mk.inj hend
  obtain ⟨limit, hlimit, hidle⟩ := leftIdle_of_stepsWith hs hS hstage
  obtain rfl : 1000 = limit := Option.some.inj hlimit
  refine ⟨s, S, hs, hS, hstage, hidle, hidle.silent.mpr fun f arrived hunread htime ↦ ?_⟩
  rw [hinbox] at hunread
  obtain ⟨rfl, -⟩ := Session.Arrival.mk.inj (List.mem_singleton.mp hunread)
  exact absurd htime (by decide)

/-- A service whose only method returns nothing, in its time. -/
def slowHandler : Handler where
  service := "Slow"
  methods := [⟨"wait", []⟩]
  call _ _ := .returned []

/-- The first request has the only worker for a second and a half, and the second one waits for it.
The peer sends heartbeats all the time. -/
def waitingEvents : List Event :=
  [.accept] ++
    [SessionEvent.arrive (.frame ⟨.json, .request (.call "a" "Slow" "wait" [])⟩), .read, .reserve,
      .arrive (.frame ⟨.json, .request (.call "b" "Slow" "wait" [])⟩), .read].map (.session 0) ++
    [.task 0 .call,
      .pass 500, .session 0 (.arrive (.frame ⟨.json, .request (.alive "c")⟩)),
      .pass 500, .session 0 (.arrive (.frame ⟨.json, .request (.alive "d")⟩)),
      .pass 400, .session 0 (.arrive (.frame ⟨.json, .request (.alive "e")⟩)),
      .pass 100, .task 0 .finish, .session 0 .reserve, .session 0 .wake]

def waitingSteps : List (Catalogue × Event) :=
  waitingEvents.map fun event ↦ (⟨[("Slow", slowHandler)]⟩, event)

/-- A connection is closed as idle a tenth of a second after a heartbeat has arrived. -/
theorem closed_while_heard : ∃ s S, patientServer.config.readIdle = some 1000 ∧
    (start patientServer).stepsWith waitingSteps = some s ∧ s.sessions[0]? = some S ∧
    S.stage = .closed .readIdle 1500 ∧ 1400 < 1500 ∧ 1500 < 1400 + 1000 ∧
    Arrived patientServer waitingSteps 0 ⟨1400, .frame ⟨.json, .request (.alive "e")⟩⟩ := by
  have hend : ((start patientServer).stepsWith waitingSteps).map (fun s ↦
      s.sessions[0]?.map Session.stage) = some (some (.closed .readIdle 1500)) := by
    rfl
  obtain ⟨s, hs, hend⟩ := Option.map_eq_some_iff.mp hend
  obtain ⟨S, hS, hstage⟩ := Option.map_eq_some_iff.mp hend
  have hnow : ((start patientServer).stepsWith (waitingSteps.take 12)).map Serving.now =
      some 1400 := by
    rfl
  obtain ⟨a, ha, hnow⟩ := Option.map_eq_some_iff.mp hnow
  have hprefix : waitingSteps.take 12 ++ [(⟨[("Slow", slowHandler)]⟩,
      .session 0 (.arrive (.frame ⟨.json, .request (.alive "e")⟩)))] <+: waitingSteps :=
    List.take_prefix 13 waitingSteps
  exact ⟨s, S, rfl, hs, hS, hstage, by decide, by decide, _, _, a, hprefix, ha, hnow⟩

end Serving

end FramedRpc
