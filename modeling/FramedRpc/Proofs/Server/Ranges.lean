import FramedRpc.CommandLine.Program
import FramedRpc.Proofs.CommandLine.Options
import FramedRpc.Proofs.Server.Silence
import FramedRpc.Proofs.Server.Startup

/-!
# Configurations out of range

A configuration may hold any number of workers and any limit for reading, and neither is checked
when it is made or told on the command line. A pool of too many workers cannot be made, and the
start breaks off behind the registrations, which stay. A deadline that the clock cannot show breaks
off the session that would wait for it; with a limit that is as long as the clock runs this is every
session, as soon as its connection is accepted. Up to a time nothing breaks off exactly where the
configuration is in range for that time. What else ends a session or refuses a start is not counted
here.
-/

namespace FramedRpc

/-- A configuration is in range up to a time: a pool of so many workers can be made, and the clock
can show the deadline of every connection that is accepted or read from by then. -/
structure ServerConfig.InRange (c : ServerConfig) (horizon : Nat) : Prop where
  workers : c.maxWorkers ≤ WorkerPool.countLimit
  readIdle : ∀ limit, c.readIdle = some limit → horizon + limit < Liveness.clockEnd

@[simp]
theorem WorkerPool.admits_iff {count : Nat} : admits count = true ↔ count ≤ countLimit := by
  unfold admits
  rw [decide_eq_true_iff, Nat.max_le]
  exact and_iff_left (by decide)

/-! ## Starts that break off -/

namespace Server

variable {σ : Type} {b : Backend σ} {server : Server} {listener : Except String Endpoint}
  {s s' : σ} {text : String}

/-- The start breaks off for one reason: there are too many workers. Nothing was refused by then, so
all services are registered. -/
theorem start_eq_panicked_iff : server.start b listener s = (.panicked text, s') ↔
    text = WorkerPool.tooManyMessage ∧ WorkerPool.countLimit < server.config.maxWorkers ∧
      ∃ bound, listener = .ok bound ∧
        registerAll b (server.announced bound) server.catalogue.names s = (.ok (), s') := by
  cases listener with
  | error detail => simp [start]
  | ok bound =>
    simp only [start, Except.ok.injEq, exists_eq_left']
    cases registerAll b (server.announced bound) server.catalogue.names s with
    | mk result t =>
      cases result with
      | error fault => simp
      | ok =>
        by_cases hadmits : WorkerPool.admits server.config.maxWorkers = true
        case pos =>
          have hworkers := WorkerPool.admits_iff.mp hadmits
          simp [hworkers]
        case neg =>
          have hworkers := Nat.lt_of_not_le (mt WorkerPool.admits_iff.mpr hadmits)
          simp [hadmits, hworkers, eq_comm]

/-- The registry in memory refuses no registration. -/
@[simp]
theorem registerAll_memory (e : Endpoint) (services : List String) (r : Registry) :
    registerAll .memory e services r =
      (.ok (), services.foldl (fun r service ↦ r.register service e) r) := by
  induction services generalizing r with
  | nil => rfl
  | cons service rest ih => exact ih (r.register service e)

end Server

/-! ## Sessions that break off -/

namespace Session

variable {S T : Session} {s : Serving}

/-- While the loop goes on, the clock can show its deadlines. -/
def Clocked (S : Session) : Prop := S.isServing = true → S.liveness.onClock = true

theorem clocked_turn (S : Session) : S.turn.Clocked := by
  intro hserving
  unfold turn at hserving ⊢
  split
  case isTrue hclock => exact hclock
  case isFalse hclock =>
    rw [if_neg hclock] at hserving
    cases hserving

/-- A session is broken off before it reads anything exactly where its first deadline is beyond the
end of the clock. -/
theorem stage_accept_eq_brokenOff_iff {limits : IdleLimits} {now : Nat}
    (h : limits.writeIdle = none) : (accept limits now).stage = .brokenOff ↔
      ∃ limit, limits.readIdle = some limit ∧ Liveness.clockEnd ≤ now + limit := by
  have hclock := Liveness.onClock_eq_false_iff (l := .start limits now) h
  refine Iff.trans ?_ hclock
  unfold accept turn
  split
  case isTrue htrue => exact iff_of_false nofun (Bool.eq_false_iff.not_left.mpr htrue)
  case isFalse hfalse => exact iff_of_true rfl (Bool.eq_false_iff.mpr hfalse)

theorem Reads.clocked {now : Nat} (h : S.Reads now T) : T.Clocked := by
  cases h with
  | order => exact nofun
  | sign => exact clocked_turn _
  | ended => exact nofun

theorem Writes.clocked {now : Nat} {Fails : Reply → Fault → Prop} (h : S.Writes now Fails T) :
    T.Clocked := by
  cases h with
  | sent => exact clocked_turn _
  | failed => exact nofun

theorem Clocked.moves {event : Serving.SessionEvent} (h : S.Clocked) (hmoves : S.Moves s event T) :
    T.Clocked := by
  cases hmoves with
  | arrived => exact h
  | read hread => exact (reads_of_read? hread).2.clocked
  | wrote hwrite => exact (writes_of_write? hwrite).2.clocked
  | lost hlose => exact (writes_of_lose? hlose).2.clocked
  | woke hwake =>
    rcases wake?_cases hwake with ⟨-, rfl⟩ | rfl
    · exact nofun
    · exact clocked_turn _
  | _ => exact nofun

theorem isOpen_of_brokenOff (h : S.stage = .brokenOff) : S.isOpen = false := by
  rw [Session.isOpen, h]

theorem Clocked.queue (h : S.Clocked) (r : Reply) : (S.queue r).Clocked := by
  unfold Session.queue
  split
  case isTrue => exact h
  case isFalse => exact h

end Session

namespace Serving

variable {server : Server} {s s' t : Serving} {id : SessionId} {S T : Session} {event : Event}
  {catalogue : Catalogue} {steps later : List (Catalogue × Event)} {limit : Nat}

theorem Origin.clocked (h : Origin s id event T)
    (hs : ∀ (id : SessionId) (S : Session), s.sessions[id]? = some S → S.Clocked) : T.Clocked := by
  cases h with
  | kept hS => exact hs id T hS
  | accepted => exact Session.clocked_turn _
  | moved hS hmoves => exact (hs id _ hS).moves hmoves
  | reserved => exact Session.clocked_turn _
  | told hS => exact (hs id _ hS).queue _

/-- After any steps, the clock can show the deadlines of every session whose loop goes on. -/
theorem clocked_of_stepsWith (h : (start server).stepsWith steps = some s)
    (hS : s.sessions[id]? = some S) : S.Clocked := by
  have hall : ∀ (id : SessionId) (S : Session), s.sessions[id]? = some S → S.Clocked := by
    refine stepsWith_induction (P := fun _ s ↦
      ∀ (id : SessionId) (S : Session), s.sessions[id]? = some S → S.Clocked) ?_ ?_ h
    · intro id S hS
      cases hS
    · intro before catalogue event a b _ hclocked heffect id T hT
      exact (heffect.origin hT).clocked hclocked
  exact hall id S hS

/-- The limits of new connections stay those of the configuration. -/
theorem idleLimits_of_stepsWith (h : (start server).stepsWith steps = some s) :
    s.server.config.idleLimits = server.config.idleLimits :=
  congrArg ServerConfig.idleLimits (attentive_of_stepsWith h).config

/-- A session that was broken off had begun or read something so late that its deadline is beyond
the end of the clock. -/
theorem beyond_of_brokenOff (h : (start server).stepsWith steps = some s)
    (hS : s.sessions[id]? = some S) (hstage : S.stage = .brokenOff) :
    ∃ limit, server.config.readIdle = some limit ∧ S.liveness.lastRead ≤ s.now ∧
      Liveness.clockEnd ≤ S.liveness.lastRead + limit := by
  have hhearing := (attentive_of_stepsWith h).sessions id S hS
  have hread : S.liveness.limits.readIdle = server.config.readIdle :=
    congrArg IdleLimits.readIdle hhearing.limits
  have hwrite : S.liveness.limits.writeIdle = none := congrArg IdleLimits.writeIdle hhearing.limits
  have hleft : S.isOpen = false := Session.isOpen_of_brokenOff hstage
  have hcause := ((upright_of_stepsWith h).sessions id S hS).left hleft
  rw [hstage] at hcause
  cases hcause with
  | beyond hclock =>
    obtain ⟨limit, hlimit, hbeyond⟩ := (Liveness.onClock_eq_false_iff hwrite).mp hclock
    exact ⟨limit, hread ▸ hlimit, hhearing.lastRead, hbeyond⟩

/-- The session of a connection that is accepted is broken off exactly where the clock cannot show
its first deadline. -/
theorem exists_accepted (h : (start server).stepsWith steps = some s)
    (haccept : s.stepWith catalogue .accept = some s') :
    ∃ S, s'.sessions[s.sessions.length]? = some S ∧ (S.stage = .brokenOff ↔
      ∃ limit, server.config.readIdle = some limit ∧ Liveness.clockEnd ≤ s.now + limit) := by
  cases effect_of_stepWith haccept with
  | accepted =>
    refine ⟨.accept s.server.config.idleLimits s.now, List.getElem?_concat_length, ?_⟩
    rw [idleLimits_of_stepsWith h]
    exact Session.stage_accept_eq_brokenOff_iff rfl

/-- A session that was broken off stays so, and nothing is read or written any more. -/
theorem lasts_of_brokenOff (hS : s.sessions[id]? = some S) (hstage : S.stage = .brokenOff)
    (h : s.stepsWith later = some t) : ∃ T, t.sessions[id]? = some T ∧ S.Lasts T :=
  lasts_of_stepsWith hS (Session.isOpen_of_brokenOff hstage) h

theorem Origin.brokenOff (h : Origin s id event T)
    (hs : ∀ (id : SessionId) (S : Session), s.sessions[id]? = some S → S.stage = .brokenOff)
    (haccept : (Session.accept s.server.config.idleLimits s.now).stage = .brokenOff) :
    T.stage = .brokenOff := by
  cases h with
  | kept hS => exact hs id T hS
  | accepted => exact haccept
  | moved hS hmoves =>
    have hstage := hs id _ hS
    exact (Session.lasts_of_moves (Session.isOpen_of_brokenOff hstage) hmoves).stage.trans hstage
  | reserved hS hstage => cases hstage.symm.trans (hs id _ hS)
  | told hS =>
    have hstage := hs id _ hS
    simpa [Session.isOpen_of_brokenOff hstage] using hstage

/-- Where the limit alone is as long as the clock runs, there are only sessions that were broken
off. -/
theorem brokenOff_of_clockEnd_le (hlimit : server.config.readIdle = some limit)
    (hbeyond : Liveness.clockEnd ≤ limit) (h : (start server).stepsWith steps = some s)
    (hS : s.sessions[id]? = some S) : S.stage = .brokenOff := by
  have hall : ∀ (id : SessionId) (S : Session), s.sessions[id]? = some S →
      S.stage = .brokenOff := by
    refine stepsWith_induction (P := fun _ s ↦
      ∀ (id : SessionId) (S : Session), s.sessions[id]? = some S → S.stage = .brokenOff) ?_ ?_ h
    · intro id S hS
      cases hS
    · intro before catalogue event a b hbefore hbroken heffect id T hT
      -- whatever the time is, the deadline of a connection comes no earlier than the limit
      have hlate : Liveness.clockEnd ≤ a.now + limit := Nat.le_trans hbeyond (Nat.le_add_left _ _)
      have hlimits : a.server.config.idleLimits = server.config.idleLimits :=
        idleLimits_of_stepsWith hbefore
      refine (heffect.origin hT).brokenOff hbroken ?_
      show (Session.accept a.server.config.idleLimits a.now).stage = .brokenOff
      rw [hlimits]
      exact (Session.stage_accept_eq_brokenOff_iff rfl).mpr ⟨limit, hlimit, hlate⟩
  exact hall id S hS

end Serving

/-! ## Servers in range -/

namespace Server

variable {server : Server} {horizon : Nat}

/-- Nothing of a server breaks off up to a time: neither its start, whatever the registry and the
address are, nor a session, whatever happens by then. -/
structure Unbroken (server : Server) (horizon : Nat) : Prop where
  start : ∀ {σ : Type} (b : Backend σ) (listener : Except String Endpoint) (s : σ) (text : String),
    (server.start b listener s).1 ≠ .panicked text
  sessions : ∀ (steps : List (Catalogue × Serving.Event)) (s : Serving) (id : SessionId)
    (S : Session), (Serving.start server).stepsWith steps = some s → s.now ≤ horizon →
      s.sessions[id]? = some S → S.stage ≠ .brokenOff

theorem Unbroken.workers (h : server.Unbroken horizon) :
    server.config.maxWorkers ≤ WorkerPool.countLimit := by
  by_contra hmany
  let bound : Endpoint := ⟨"localhost", 0⟩
  have hregistered := registerAll_memory (server.announced bound) server.catalogue.names .empty
  have hbroken := start_eq_panicked_iff.mpr
    ⟨rfl, Nat.lt_of_not_le hmany, bound, rfl, hregistered⟩
  exact h.start .memory (.ok bound) .empty _ (congrArg Prod.fst hbroken)

/-- A connection may be accepted at the last moment. -/
theorem Unbroken.readIdle (h : server.Unbroken horizon) :
    ∀ limit, server.config.readIdle = some limit → horizon + limit < Liveness.clockEnd := by
  intro limit hlimit
  by_contra hlate
  have hbeyond : Liveness.clockEnd ≤ 0 + horizon + limit := by omega
  have hsteps : (Serving.start server).stepsWith [(.empty, .pass horizon), (.empty, .accept)] =
      some _ := rfl
  refine h.sessions _ _ 0 (.accept server.config.idleLimits (0 + horizon)) hsteps ?_ rfl ?_
  · exact Nat.le_of_eq (Nat.zero_add horizon)
  · exact (Session.stage_accept_eq_brokenOff_iff rfl).mpr ⟨limit, hlimit, hbeyond⟩

theorem unbroken_of_inRange (h : server.config.InRange horizon) : server.Unbroken horizon where
  start b listener s text hbroken := by
    obtain ⟨-, hmany, -⟩ := start_eq_panicked_iff.mp (Prod.ext hbroken rfl)
    exact Nat.not_lt_of_le h.workers hmany
  sessions steps s id S hs hnow hS hstage := by
    obtain ⟨limit, hlimit, hread, hbeyond⟩ := Serving.beyond_of_brokenOff hs hS hstage
    have hrange : horizon + limit < Liveness.clockEnd := h.readIdle limit hlimit
    omega

/-- Up to a time nothing breaks off exactly where the configuration is in range. -/
theorem unbroken_iff : server.Unbroken horizon ↔ server.config.InRange horizon :=
  ⟨fun h ↦ ⟨h.workers, h.readIdle⟩, unbroken_of_inRange⟩

/-- What a server withstands, whatever its configuration is. -/
structure Withstands (server : Server) : Prop where
  /-- The start breaks off exactly where there are too many workers, behind all registrations. -/
  start : ∀ {σ : Type} (b : Backend σ) (listener : Except String Endpoint) (s s' : σ)
    (text : String), server.start b listener s = (.panicked text, s') ↔
      text = WorkerPool.tooManyMessage ∧ WorkerPool.countLimit < server.config.maxWorkers ∧
        ∃ bound, listener = .ok bound ∧
          registerAll b (server.announced bound) server.catalogue.names s = (.ok (), s')
  /-- While the loop of a session goes on, the clock can show its deadlines. -/
  serving : ∀ (steps : List (Catalogue × Serving.Event)) (s : Serving) (id : SessionId)
    (S : Session), (Serving.start server).stepsWith steps = some s → s.sessions[id]? = some S →
      S.isServing = true → S.liveness.onClock = true
  /-- A session is broken off by a deadline that the clock cannot show, and for good. -/
  brokenOff : ∀ (steps : List (Catalogue × Serving.Event)) (s : Serving) (id : SessionId)
    (S : Session), (Serving.start server).stepsWith steps = some s → s.sessions[id]? = some S →
      S.stage = .brokenOff →
        (∃ limit, server.config.readIdle = some limit ∧ S.liveness.lastRead ≤ s.now ∧
          Liveness.clockEnd ≤ S.liveness.lastRead + limit) ∧
        ∀ later t, s.stepsWith later = some t → ∃ T, t.sessions[id]? = some T ∧ S.Lasts T
  /-- A connection is broken off when it is accepted exactly where the clock cannot show its first
  deadline. -/
  accepted : ∀ (steps : List (Catalogue × Serving.Event)) (s s' : Serving) (catalogue : Catalogue),
    (Serving.start server).stepsWith steps = some s → s.stepWith catalogue .accept = some s' →
      ∃ S, s'.sessions[s.sessions.length]? = some S ∧ (S.stage = .brokenOff ↔
        ∃ limit, server.config.readIdle = some limit ∧ Liveness.clockEnd ≤ s.now + limit)
  /-- With a limit that is as long as the clock runs, no connection is served at any time. -/
  unserved : ∀ limit, server.config.readIdle = some limit → Liveness.clockEnd ≤ limit →
    ∀ (steps : List (Catalogue × Serving.Event)) (s : Serving) (id : SessionId) (S : Session),
      (Serving.start server).stepsWith steps = some s → s.sessions[id]? = some S →
        S.stage = .brokenOff
  /-- Up to a time nothing breaks off exactly where the configuration is in range. -/
  unbroken : ∀ horizon, server.Unbroken horizon ↔ server.config.InRange horizon

theorem withstands (server : Server) : server.Withstands where
  start _ _ _ _ _ := start_eq_panicked_iff
  serving _ _ _ _ hs hS := Serving.clocked_of_stepsWith hs hS
  brokenOff _ _ _ _ hs hS hstage :=
    ⟨Serving.beyond_of_brokenOff hs hS hstage, fun _ _ ↦ Serving.lasts_of_brokenOff hS hstage⟩
  accepted _ _ _ _ := Serving.exists_accepted
  unserved _ hlimit hbeyond _ _ _ _ := Serving.brokenOff_of_clockEnd_le hlimit hbeyond
  unbroken _ := unbroken_iff

end Server

/-! ## Servers of the command line -/

namespace CommandLine

namespace ServeOptions

variable {o : ServeOptions} {horizon : Nat}

/-- What a server withstands whose numbers are told on the command line, where zero is no limit. -/
structure Withstands (o : ServeOptions) : Prop where
  fits : o.Fits
  unbroken : ∀ horizon, o.server.Unbroken horizon ↔ o.workers ≤ WorkerPool.countLimit ∧
    (o.readIdle = 0 ∨ horizon + o.readIdle * 1000 < Liveness.clockEnd)

@[simp]
theorem maxWorkers_config_le_iff :
    o.config.maxWorkers ≤ WorkerPool.countLimit ↔ o.workers ≤ WorkerPool.countLimit :=
  decide_eq_true_iff.symm.trans WorkerPool.admits_iff

theorem inRange_config_iff : o.config.InRange horizon ↔ o.workers ≤ WorkerPool.countLimit ∧
    (o.readIdle = 0 ∨ horizon + o.readIdle * 1000 < Liveness.clockEnd) := by
  have hlimit : o.config.readIdle = if o.readIdle = 0 then none else some (o.readIdle * 1000) := rfl
  have hread : (∀ limit, o.config.readIdle = some limit → horizon + limit < Liveness.clockEnd) ↔
      o.readIdle = 0 ∨ horizon + o.readIdle * 1000 < Liveness.clockEnd := by
    rw [hlimit]
    by_cases hzero : o.readIdle = 0 <;> simp [hzero]
  rw [← maxWorkers_config_le_iff, ← hread]
  exact ⟨fun h ↦ ⟨h.workers, h.readIdle⟩, fun h ↦ ⟨h.1, h.2⟩⟩

/-- With not too many workers a server starts, wherever it listens. -/
theorem exists_start (h : o.workers ≤ WorkerPool.countLimit) (e : Endpoint) :
    ∃ running, (o.start (.ok e)).1 = .returned running := by
  have hadmits : WorkerPool.admits o.server.config.maxWorkers = true :=
    by simpa [server] using h
  refine ⟨⟨e, o.server.announced e, o.server.catalogue.names, true⟩, ?_⟩
  simp [start, Server.start, hadmits]

end ServeOptions

/-- Up to a time nothing of a server breaks off exactly where its configuration is in range.
Otherwise the start breaks off behind all registrations, or a session whose deadline the clock
cannot show. The command line accepts any two numbers of 64 bits, in range or not. -/
theorem withstands_configured_and_told (server : Server) (arguments : List String) :
    server.Withstands ∧
    (∀ o, Command.read arguments = .ok (.serve o) → o.Withstands) ∧
    ∀ readIdle workers, readIdle ≤ wordLimit → workers ≤ wordLimit →
      ∃ told o, Command.read told = .ok (.serve o) ∧ o.readIdle = readIdle ∧
        o.workers = workers := by
  refine ⟨server.withstands, fun o h ↦ ?_, fun readIdle workers hreadIdle hworkers ↦ ?_⟩
  · exact ⟨Command.fits_of_read h,
      fun horizon ↦ Server.unbroken_iff.trans ServeOptions.inRange_config_iff⟩
  · exact ⟨_, _, Command.read_serve hreadIdle hworkers, rfl, rfl⟩

/-- With four workers and a limit of a minute nothing breaks off for a thousand years. -/
theorem withstands_minute : ∃ o, Command.read
      ["serve", "--read-idle-secs", "60", "--workers", "4"] = .ok (.serve o) ∧
    o.Withstands ∧ o.server.Unbroken 31556952000000 := by
  have hnumbers : Numeral.text 60 = "60" ∧ Numeral.text 4 = "4" := by decide
  have hread := Command.read_serve (show 60 ≤ wordLimit by decide) (show 4 ≤ wordLimit by decide)
  rw [hnumbers.1, hnumbers.2] at hread
  let o : ServeOptions := { ServeOptions.standard with readIdle := 60, workers := 4 }
  have hwithstands : o.Withstands := (withstands_configured_and_told o.server _).2.1 o hread
  exact ⟨o, hread, hwithstands, (hwithstands.unbroken _).mpr ⟨by decide, .inr (by decide)⟩⟩

namespace ServeOptions

/-- One worker more than can be made. -/
def crowded : ServeOptions := { ServeOptions.standard with workers := 2305843009213693952 }

/-- A limit that is as long as the clock runs. -/
def patient : ServeOptions := { ServeOptions.standard with readIdle := 9223372036854775808 }

@[simp]
theorem names_server (o : ServeOptions) :
    o.server.catalogue.names = [Demo.Bye.service, Demo.Hello.service] := by
  have hother : (Demo.Bye.service == Demo.Hello.service) = false := by decide
  have hservices : o.server.catalogue.services =
      [(Demo.Hello.service, Demo.helloService.handler),
        (Demo.Bye.service, Demo.byeService.handler)] := by
    show (Catalogue.publishAs ⟨[(Demo.Hello.service, Demo.helloService.handler)]⟩
      Demo.Bye.service _).2.services = _
    simp [Catalogue.publishAs, Catalogue.get?, List.lookup_cons, hother]
  have horder : ¬ Demo.Hello.service ≤ Demo.Bye.service := by decide
  simp [Catalogue.names, hservices, List.mergeSort, horder]

/-- The start breaks off behind the registrations of the services. -/
theorem start_crowded (e : Endpoint) : crowded.start (.ok e) =
    (.panicked WorkerPool.tooManyMessage,
      (Registry.empty.register Demo.Bye.service e).register Demo.Hello.service e) := by
  refine Server.start_eq_panicked_iff.mpr ⟨rfl, by decide, e, rfl, ?_⟩
  rw [names_server]
  exact Server.registerAll_memory _ _ _

end ServeOptions

/-- The command line accepts both numbers. With so many workers the start breaks off, and clients
are sent to an endpoint where nobody listens. With so long a limit the server starts, and every
connection is broken off, at whatever time it is accepted. -/
theorem broken_off_as_told :
    Command.read ["serve", "--read-idle-secs", "30", "--workers", "2305843009213693952"] =
      .ok (.serve .crowded) ∧
    (∃ registry, ServeOptions.crowded.start (.ok ⟨"::1", 9000⟩) =
        (.panicked WorkerPool.tooManyMessage, registry) ∧
      registry.query Demo.Bye.service = [⟨"::1", 9000⟩]) ∧
    Command.read ["serve", "--read-idle-secs", "9223372036854775808", "--workers", "16"] =
      .ok (.serve .patient) ∧
    (∃ running, (ServeOptions.patient.start (.ok ⟨"::1", 9000⟩)).1 = .returned running) ∧
    (∃ s S, (Serving.start ServeOptions.patient.server).steps [.accept] = some s ∧
      s.sessions[0]? = some S ∧ S.stage = .brokenOff) ∧
    ∀ (steps : List (Catalogue × Serving.Event)) (s : Serving) (id : SessionId) (S : Session),
      (Serving.start ServeOptions.patient.server).stepsWith steps = some s →
        s.sessions[id]? = some S → S.stage = .brokenOff := by
  have hnumbers : Numeral.text 30 = "30" ∧ Numeral.text 2305843009213693952 =
      "2305843009213693952" ∧ Numeral.text 9223372036854775808 = "9223372036854775808" ∧
      Numeral.text 16 = "16" := by decide
  obtain ⟨hseconds, hcount, hlimit, hworkers⟩ := hnumbers
  have hcrowded := Command.read_serve (show 30 ≤ wordLimit by decide)
    (show 2305843009213693952 ≤ wordLimit by decide)
  have hpatient := Command.read_serve (show 9223372036854775808 ≤ wordLimit by decide)
    (show 16 ≤ wordLimit by decide)
  rw [hseconds, hcount] at hcrowded
  rw [hlimit, hworkers] at hpatient
  refine ⟨hcrowded, ⟨_, ServeOptions.start_crowded _, ?_⟩, hpatient, ?_, ?_, ?_⟩
  · decide
  · exact ServeOptions.exists_start (by decide) _
  · exact ⟨_, _, rfl, rfl, rfl⟩
  · intro steps s id S hs hS
    exact Serving.brokenOff_of_clockEnd_le rfl (Nat.le_refl _) hs hS

end CommandLine

end FramedRpc
