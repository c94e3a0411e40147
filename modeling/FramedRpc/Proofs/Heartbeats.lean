import FramedRpc.Proofs.Liveness

/-!
# Heartbeats

The two ends of a connection have a supervisor each. The client's one wakes up when nothing was
written for long, and sends a heartbeat; what it writes is on its way for some time, and the server's
supervisor notes when it is read. Two reads of the server are never further apart than the client's
threshold and the delay together. So a server that waits longer finds no connection idle whose client
is alive, whatever else is sent.
-/

namespace FramedRpc

/-- What the ends of a connection agree with: their limits, and how long a frame may be on its way
until the server has read it. -/
structure Terms where
  client : IdleLimits
  server : IdleLimits
  delay : Nat

/-- The supervisors of the two ends of a connection. -/
structure Link where
  now : Nat
  client : Liveness
  /-- The server has a supervisor once it has accepted the connection. -/
  server : Option Liveness
  /-- When the frames were written that the server has not read. -/
  underway : List Nat

namespace Link

def establish (terms : Terms) (now : Nat) : Link := ⟨now, .start terms.client now, none, []⟩

inductive Event where
  /-- The server accepts the connection. -/
  | accept
  /-- The client writes some frame. -/
  | write
  /-- The client acts on what its supervisor finds idle. -/
  | wake
  /-- The server reads one of the frames that are under way. -/
  | read (index : Nat)
  /-- The server writes some frame. -/
  | reply
  /-- The client reads some frame. -/
  | hear
  /-- Time passes. -/
  | pass (milliseconds : Nat)

def transmit (s : Link) : Link :=
  { s with client := s.client.recordWrite s.now, underway := s.underway ++ [s.now] }

/-- Whether a time may come before anything else happens: neither is the client late with a
heartbeat then, nor the server with a frame. -/
def mayCome (terms : Terms) (s : Link) (time : Nat) : Bool :=
  s.client.limits.writeIdle.all (time ≤ s.client.lastWrite + ·) &&
    s.underway.all (time ≤ · + terms.delay)

def step (terms : Terms) (s : Link) : Event → Option Link
  | .accept =>
    if s.server.isNone then some { s with server := some (.start terms.server s.now) } else none
  | .write => some s.transmit
  | .wake =>
    match s.client.poll s.now with
    | .ok (some .writerIdle) => some s.transmit
    | _ => none
  | .read index =>
    if index < s.underway.length then
      s.server.map fun l ↦ { s with
        server := some (l.recordRead s.now)
        underway := s.underway.eraseIdx index }
    else none
  | .reply => s.server.map fun l ↦ { s with server := some (l.recordWrite s.now) }
  | .hear => some { s with client := s.client.recordRead s.now }
  | .pass milliseconds =>
    if s.mayCome terms (s.now + milliseconds) then some { s with now := s.now + milliseconds }
    else none

def steps (terms : Terms) (s : Link) (events : List Event) : Option Link :=
  events.foldlM (step terms) s

variable {terms : Terms} {s s' : Link} {event : Event} {events : List Event} {w : Nat}

/-! ## What time may do -/

theorem mayCome_iff (h : s.client.limits.writeIdle = some w) (time : Nat) :
    s.mayCome terms time = true ↔
      time ≤ s.client.lastWrite + w ∧ ∀ written ∈ s.underway, time ≤ written + terms.delay := by
  simp [mayCome, h]

/-! ## The gap between two reads -/

/-- Nothing was written since the last read, or what was written first since then is under way, and
was written in time. -/
def Covered (s : Link) (w : Nat) (l : Liveness) : Prop :=
  s.client.lastWrite ≤ l.lastRead ∨ ∃ written ∈ s.underway, written ≤ l.lastRead + w

/-- The client writes in time, what it writes is read in time, and the server's supervisor is covered
by what is under way. -/
structure Beating (terms : Terms) (w : Nat) (s : Link) : Prop where
  client : s.client.limits = terms.client
  written : s.client.lastWrite ≤ s.now
  due : s.now ≤ s.client.lastWrite + w
  underway : ∀ written ∈ s.underway, s.now ≤ written + terms.delay
  limits : ∀ l, s.server = some l → l.limits = terms.server
  covered : ∀ l, s.server = some l → s.Covered w l

/-- Reads of the server are at most the client's threshold and the delay apart. -/
theorem Beating.now_le (h : Beating terms w s) {l : Liveness} (hserver : s.server = some l) :
    s.now ≤ l.lastRead + w + terms.delay := by
  rcases h.covered l hserver with hread | ⟨written, hunderway, htime⟩
  · calc
      s.now ≤ s.client.lastWrite + w := h.due
      _ ≤ l.lastRead + w := Nat.add_le_add_right hread w
      _ ≤ l.lastRead + w + terms.delay := Nat.le_add_right _ _
  · exact Nat.le_trans (h.underway written hunderway) (Nat.add_le_add_right htime _)

theorem beating_establish (terms : Terms) (w now : Nat) :
    Beating terms w (establish terms now) where
  client := rfl
  written := Nat.le_refl _
  due := Nat.le_add_right _ _
  underway _ hwritten := by cases hwritten
  limits _ hserver := by cases hserver
  covered _ hserver := by cases hserver

theorem Beating.supervise (h : Beating terms w s) {l : Liveness} (hlimits : l.limits = terms.server)
    (hcovered : s.Covered w l) : Beating terms w { s with server := some l } where
  client := h.client
  written := h.written
  due := h.due
  underway := h.underway
  limits _ hserver := by
    obtain rfl := Option.some.inj hserver
    exact hlimits
  covered _ hserver := by
    obtain rfl := Option.some.inj hserver
    exact hcovered

theorem Beating.transmit (h : Beating terms w s) : Beating terms w s.transmit where
  client := h.client
  written := Nat.le_refl _
  due := Nat.le_add_right _ _
  underway written hwritten := by
    rcases List.mem_append.mp hwritten with hold | hnew
    · exact h.underway written hold
    · obtain rfl := List.mem_singleton.mp hnew
      exact Nat.le_add_right _ _
  limits := h.limits
  covered l hserver := by
    refine .inr ?_
    rcases h.covered l hserver with hread | ⟨written, hunderway, htime⟩
    · -- The new frame is the first one since the last read.
      have htime : s.now ≤ l.lastRead + w := Nat.le_trans h.due (Nat.add_le_add_right hread w)
      exact ⟨s.now, List.mem_append_right _ List.mem_cons_self, htime⟩
    · exact ⟨written, List.mem_append_left _ hunderway, htime⟩

/-- What the server reads now was written before, and so was all else that is under way. -/
theorem Beating.read (h : Beating terms w s) {l : Liveness} (hserver : s.server = some l)
    (index : Nat) : Beating terms w { s with
      server := some (l.recordRead s.now)
      underway := s.underway.eraseIdx index } where
  client := h.client
  written := h.written
  due := h.due
  underway written hwritten := h.underway written (List.mem_of_mem_eraseIdx hwritten)
  limits l' hserver' := by
    obtain rfl := Option.some.inj hserver'
    exact h.limits l hserver
  covered l' hserver' := by
    obtain rfl := Option.some.inj hserver'
    exact .inl h.written

theorem Beating.pass (h : Beating terms w s) (hlimit : terms.client.writeIdle = some w)
    {milliseconds : Nat} (hcome : s.mayCome terms (s.now + milliseconds) = true) :
    Beating terms w { s with now := s.now + milliseconds } := by
  have hclient : s.client.limits.writeIdle = some w := by
    rw [h.client, hlimit]
  obtain ⟨hdue, hunderway⟩ := (mayCome_iff hclient _).mp hcome
  exact { h with
    written := Nat.le_trans h.written (Nat.le_add_right _ _)
    due := hdue
    underway := hunderway }

theorem Beating.step (h : Beating terms w s) (hlimit : terms.client.writeIdle = some w)
    (hstep : s.step terms event = some s') : Beating terms w s' := by
  cases event with
  | accept =>
    obtain ⟨-, hstep⟩ := Option.ite_none_right_eq_some.mp hstep
    obtain rfl := Option.some.inj hstep
    exact h.supervise rfl (.inl h.written)
  | write =>
    obtain rfl := Option.some.inj hstep
    exact h.transmit
  | wake =>
    rw [Link.step] at hstep
    split at hstep
    case h_1 =>
      obtain rfl := Option.some.inj hstep
      exact h.transmit
    case h_2 => cases hstep
  | read index =>
    obtain ⟨-, hstep⟩ := Option.ite_none_right_eq_some.mp hstep
    obtain ⟨l, hserver, rfl⟩ := Option.map_eq_some_iff.mp hstep
    exact h.read hserver index
  | reply =>
    obtain ⟨l, hserver, rfl⟩ := Option.map_eq_some_iff.mp hstep
    exact h.supervise (h.limits l hserver) (h.covered l hserver)
  | hear =>
    obtain rfl := Option.some.inj hstep
    exact { h with }
  | pass milliseconds =>
    obtain ⟨hcome, hstep⟩ := Option.ite_none_right_eq_some.mp hstep
    obtain rfl := Option.some.inj hstep
    exact h.pass hlimit hcome

theorem Beating.steps (h : Beating terms w s) (hlimit : terms.client.writeIdle = some w)
    (hsteps : s.steps terms events = some s') : Beating terms w s' := by
  induction events generalizing s with
  | nil =>
    obtain rfl := Option.some.inj hsteps
    exact h
  | cons event rest ih =>
    obtain ⟨next, hstep, hrest⟩ := Option.bind_eq_some_iff.mp hsteps
    exact ih (h.step hlimit hstep) hrest

/-! ## Connections on which only heartbeats are sent -/

/-- Whether nothing but a heartbeat is sent or read. -/
def Event.isIdle : Event → Bool
  | .write | .reply | .hear => false
  | _ => true

/-- A connection gets into a state although its ends have nothing to say. -/
def IdlesTo (terms : Terms) (s s' : Link) : Prop :=
  ∃ events, (∀ event ∈ events, Event.isIdle event = true) ∧ s.steps terms events = some s'

theorem IdlesTo.refl (terms : Terms) (s : Link) : s.IdlesTo terms s := ⟨[], nofun, rfl⟩

theorem IdlesTo.trans {t : Link} (h : s.IdlesTo terms s') (hnext : s'.IdlesTo terms t) :
    s.IdlesTo terms t := by
  obtain ⟨events, hidle, hevents⟩ := h
  obtain ⟨more, hidle', hmore⟩ := hnext
  refine ⟨events ++ more, fun event hevent ↦ ?_, ?_⟩
  · exact (List.mem_append.mp hevent).elim (hidle event) (hidle' event)
  · rw [steps, List.foldlM_append]
    exact Option.bind_eq_some_iff.mpr ⟨s', hevents, hmore⟩

theorem idlesTo_of_step (hidle : event.isIdle = true) (h : s.step terms event = some s') :
    s.IdlesTo terms s' := by
  refine ⟨[event], fun other hother ↦ ?_, ?_⟩
  · obtain rfl := List.mem_singleton.mp hother
    exact hidle
  · exact Option.bind_eq_some_iff.mpr ⟨s', h, rfl⟩

theorem exists_accepted (terms : Terms) (s : Link) :
    ∃ s', s.IdlesTo terms s' ∧ s'.now = s.now ∧ s'.server.isSome = true := by
  cases hserver : s.server with
  | none =>
    have haccept : s.step terms .accept =
        some { s with server := some (.start terms.server s.now) } := by
      simp [step, hserver]
    exact ⟨_, idlesTo_of_step rfl haccept, rfl, rfl⟩
  | some l => exact ⟨s, .refl terms s, rfl, by rw [hserver]; rfl⟩

/-- A heartbeat that is due is sent. -/
theorem Beating.exists_beaten (h : Beating terms w s) (hlimit : terms.client.writeIdle = some w)
    (hpos : 0 < w) (hread : terms.client.readIdle = none) (hclock : s.now < Liveness.clockEnd) :
    ∃ s', s.IdlesTo terms s' ∧
      s'.now = s.now ∧ s'.server = s.server ∧ s'.client.limits = s.client.limits ∧
      s'.now < s'.client.lastWrite + w := by
  rcases Nat.lt_or_eq_of_le h.due with hearly | hdue
  · exact ⟨s, .refl terms s, rfl, rfl, rfl, hearly⟩
  · have hidle : s.client.poll s.now = .ok (some .writerIdle) := by
      apply Liveness.poll_of_writeIdle _ _ (hdue ▸ hclock) (Nat.le_of_eq hdue.symm)
      · rw [h.client, hread]
      · rw [h.client, hlimit]
    have hwake : s.step terms .wake = some s.transmit := by
      rw [Link.step, hidle]
    exact ⟨_, idlesTo_of_step rfl hwake, rfl, rfl, rfl, Nat.lt_add_of_pos_right hpos⟩

/-- All that is under way is read. -/
theorem exists_read (terms : Terms) (hserver : s.server.isSome = true) :
    ∃ s', s.IdlesTo terms s' ∧ s'.now = s.now ∧ s'.client = s.client ∧
      s'.server.isSome = true ∧ s'.underway = [] := by
  induction hunderway : s.underway generalizing s with
  | nil => exact ⟨s, .refl terms s, rfl, rfl, hserver, hunderway⟩
  | cons first rest ih =>
    obtain ⟨l, hl⟩ := Option.isSome_iff_exists.mp hserver
    have hread : s.step terms (.read 0) =
        some { s with server := some (l.recordRead s.now), underway := rest } := by
      simp [step, hunderway, hl]
    obtain ⟨s', hidles, hrest⟩ :=
      @ih { s with server := some (l.recordRead s.now), underway := rest } rfl rfl
    exact ⟨s', (idlesTo_of_step rfl hread).trans hidles, hrest⟩

/-- Heartbeats alone take a connection to the next instant. -/
theorem Beating.exists_tick (h : Beating terms w s) (hlimit : terms.client.writeIdle = some w)
    (hpos : 0 < w) (hread : terms.client.readIdle = none) (hclock : s.now < Liveness.clockEnd)
    (hserver : s.server.isSome = true) :
    ∃ s', s.IdlesTo terms s' ∧ s'.now = s.now + 1 ∧ s'.server.isSome = true := by
  -- Behind a heartbeat that was due, and with nothing under way, no end is late.
  obtain ⟨a, ha, hnow, haserver, hlimits, hearly⟩ := h.exists_beaten hlimit hpos hread hclock
  obtain ⟨b, hb, hbnow, hbclient, hbserver, hempty⟩ :=
    @exists_read a terms (haserver ▸ hserver)
  have hbeats : b.client.limits.writeIdle = some w := by
    rw [hbclient, hlimits, h.client, hlimit]
  have hcome : b.mayCome terms (b.now + 1) = true := by
    rw [mayCome_iff hbeats, hempty, hbclient, hbnow]
    exact ⟨hearly, nofun⟩
  have hpass : b.step terms (.pass 1) = some { b with now := b.now + 1 } := if_pos hcome
  refine ⟨_, (ha.trans hb).trans (idlesTo_of_step rfl hpass), ?_, hbserver⟩
  rw [hbnow, hnow]

theorem Beating.idlesTo (h : Beating terms w s) (hlimit : terms.client.writeIdle = some w)
    (hidles : s.IdlesTo terms s') : Beating terms w s' := by
  obtain ⟨events, -, hevents⟩ := hidles
  exact h.steps hlimit hevents

/-- Heartbeats alone take a connection to any later time that the clock can show. -/
theorem Beating.exists_idlesTo (h : Beating terms w s) (hlimit : terms.client.writeIdle = some w)
    (hpos : 0 < w) (hread : terms.client.readIdle = none) (milliseconds : Nat)
    (hclock : s.now + milliseconds < Liveness.clockEnd) :
    ∃ s', s.IdlesTo terms s' ∧ s'.now = s.now + milliseconds ∧ s'.server.isSome = true := by
  induction milliseconds with
  | zero => exact exists_accepted terms s
  | succ milliseconds ih =>
    have hbefore : s.now + milliseconds < Liveness.clockEnd := Nat.lt_of_succ_lt hclock
    obtain ⟨a, ha, hnow, hserver⟩ := ih hbefore
    obtain ⟨b, hb, hbnow, hbserver⟩ :=
      (h.idlesTo hlimit ha).exists_tick hlimit hpos hread (hnow ▸ hbefore) hserver
    refine ⟨b, ha.trans hb, ?_, hbserver⟩
    rw [hbnow, hnow, Nat.add_assoc]

/-! ## Connections that are kept alive -/

/-- A connection whose client sends a heartbeat when nothing was written for so long. -/
structure KeptAlive (terms : Terms) (w : Nat) (s : Link) : Prop where
  /-- The server read something not long ago. -/
  heard : ∀ l, s.server = some l → s.now ≤ l.lastRead + w + terms.delay
  /-- The server's supervisor has never found reading idle since then, and does not now. -/
  active : ∀ l, s.server = some l → ∀ time ≤ s.now, l.poll time ≠ .ok (some .readerIdle)
  /-- The connection may go on to any time that the clock can show, even if nothing but heartbeats is
  sent. -/
  lasting : terms.client.readIdle = none → ∀ time, s.now ≤ time → time < Liveness.clockEnd →
    ∃ s', s.IdlesTo terms s' ∧ s'.now = time ∧ s'.server.isSome = true

/-- Whatever is sent, a server never finds a connection idle whose client sends heartbeats, if the
server waits for longer than the client does and a frame is under way together. -/
theorem keptAlive_of_steps {r opened : Nat} (hclient : terms.client.writeIdle = some w)
    (hpos : 0 < w) (hserver : terms.server.readIdle = some r) (hdelay : w + terms.delay < r)
    (h : (establish terms opened).steps terms events = some s) : s.KeptAlive terms w := by
  have hbeating := (beating_establish terms w opened).steps hclient h
  refine
    { heard := fun l hl ↦ hbeating.now_le hl
      active := fun l hl time htime ↦ ?active
      lasting := fun hread time htime hclock ↦ ?lasting }
  case active =>
    have hlimit : l.limits.readIdle = some r := by
      rw [hbeating.limits l hl, hserver]
    apply Liveness.poll_ne_readerIdle_of_lt hlimit
    calc
      time ≤ s.now := htime
      _ ≤ l.lastRead + w + terms.delay := hbeating.now_le hl
      _ = l.lastRead + (w + terms.delay) := Nat.add_assoc _ _ _
      _ < l.lastRead + r := Nat.add_lt_add_left hdelay _
  case lasting =>
    have hsum : s.now + (time - s.now) = time := Nat.add_sub_cancel' htime
    obtain ⟨s', hidles, hnow, hserver⟩ :=
      hbeating.exists_idlesTo hclient hpos hread (time - s.now) (hsum.symm ▸ hclock)
    exact ⟨s', hidles, hnow.trans hsum, hserver⟩

/-- A client and a server with the usual limits, between which a frame takes a tenth of a second. -/
def usualTerms : Terms := ⟨.client, .server, 100⟩

/-- The server accepts late, and reads a heartbeat, a request and a heartbeat late. -/
def usualEvents : List Event :=
  [.pass 60, .accept, .pass 4940, .wake, .pass 100, .read 0, .pass 2000, .write, .pass 50, .read 0,
    .reply, .hear, .pass 4950, .wake, .pass 100]

theorem keptAlive_usual : ∃ s l, (establish usualTerms 0).steps usualTerms usualEvents = some s ∧
    s.KeptAlive usualTerms 5000 ∧ s.server = some l ∧ l.lastRead = 7150 ∧ s.now = 12200 ∧
    s.underway = [12100] := by
  have hend : (establish usualTerms 0).steps usualTerms usualEvents =
      some ⟨12200, ⟨.client, 7150, 12100⟩, some ⟨.server, 7150, 7150⟩, [12100]⟩ := by
    rfl
  exact ⟨_, _, hend, keptAlive_of_steps rfl (by decide) rfl (by decide) hend, rfl, rfl, rfl, rfl⟩

end Link

end FramedRpc
