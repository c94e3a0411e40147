import FramedRpc.Proofs.Client.Losses

/-!
# When a client sends heartbeats

The loop of a connection wakes up once nothing was written for as long as the client allows, and
then only. It sends a heartbeat, which counts as something written, so the next deadline lies ahead
of it and the loop rests until then, unless the clock ends before. How long a frame takes to the
peer is not told here.
-/

namespace FramedRpc

namespace Connection

variable {codec : Codec} {now w : Nat} {c d : Connection} {beat : String}

/-! ## Waking up -/

/-- A loop whose deadline has come sends a heartbeat, and is left if that cannot be framed. -/
theorem wake_of_le (codec : Codec) (beat : String)
    (hlimits : c.liveness.limits = ⟨none, some w⟩) (hclock : c.liveness.onClock = true)
    (h : c.liveness.lastWrite + w ≤ now) :
    c.wake codec now beat = some (c.wrote now (.alive beat)) ∨
      ∃ fault, codec.encode (c.frame (.alive beat)) = .error fault ∧
        c.wake codec now beat = some (c.leave (.heartbeatFailed fault)) := by
  have hcome : c.liveness.isDue now = true :=
    (Liveness.isDue_of_writeIdle hlimits hclock).mpr h
  have hlt := (Liveness.onClock_of_writeIdle hlimits).mp hclock
  have hidle : c.liveness.poll now = .ok (some .writerIdle) := by
    apply Liveness.poll_of_writeIdle _ _ hlt h <;> rw [hlimits]
  cases hencode : codec.encode (c.frame (.alive beat)) with
  | ok bytes => exact .inl (by simp [wake, hcome, hidle, transmit_of_ok hencode])
  | error fault =>
    exact .inr ⟨fault, rfl, by simp [wake, hcome, hidle, transmit_of_error hencode]⟩

theorem wake_of_lt (hlimits : c.liveness.limits = ⟨none, some w⟩)
    (hclock : c.liveness.onClock = true) (h : now < c.liveness.lastWrite + w) :
    c.wake codec now beat = none := by
  apply if_neg
  rw [Liveness.isDue_of_writeIdle hlimits hclock]
  exact Nat.not_le_of_lt h

theorem isSome_step_wake (hlimits : c.liveness.limits = ⟨none, some w⟩) :
    (c.step codec now (.wake beat)).isSome = true ↔
      c.isServing = true ∧ c.liveness.lastWrite + w ≤ now := by
  unfold step
  by_cases hserving : c.isServing = true
  · have hclock := (isServing_iff.mp hserving).2
    rw [if_pos hserving, and_iff_right hserving]
    show (c.wake codec now beat).isSome = true ↔ _
    rcases Nat.lt_or_ge now (c.liveness.lastWrite + w) with hearly | hcome
    · simp [wake_of_lt hlimits hclock hearly, hearly]
    · rcases wake_of_le codec beat hlimits hclock hcome with hwake | ⟨fault, -, hwake⟩ <;>
        simp [hwake, hcome]
  · simp [hserving]

theorem step_wake_cases (hlimits : c.liveness.limits = ⟨none, some w⟩)
    (h : c.step codec now (.wake beat) = some d) : d = c.wrote now (.alive beat) ∨
      ∃ fault, codec.encode (c.frame (.alive beat)) = .error fault ∧
        d = c.leave (.heartbeatFailed fault) := by
  obtain ⟨hserving, hcome⟩ := (isSome_step_wake hlimits).mp (Option.isSome_of_eq_some h)
  have hwake : c.wake codec now beat = some d := by
    rw [step, if_pos hserving] at h
    exact h
  rcases wake_of_le codec beat hlimits (isServing_iff.mp hserving).2 hcome with
    hwrote | ⟨fault, hencode, hleft⟩
  · exact .inl (Option.some.inj (hwake.symm.trans hwrote))
  · exact .inr ⟨fault, hencode, Option.some.inj (hwake.symm.trans hleft)⟩

end Connection

namespace Client

variable {event : Event} {c d : Client}

/-- The deadline of a connection has come. A heartbeat would get this identifier. -/
def wakeup (id : ConnectionId) (beat : String) : Event :=
  .pool (.connection id (.turn (.wake beat)))

/-! ## The clock -/

theorem now_of_ask {n : RunId} {endpoint : Endpoint} (h : c.ask n endpoint = some d) :
    d.now = c.now := by
  simp only [ask, Option.bind_eq_bind, Option.bind_eq_some_iff] at h
  obtain ⟨pool, -, h⟩ := h
  cases h
  rfl

theorem now_of_takeConnection {n : RunId} {get : Pool.GetId}
    (h : c.takeConnection n get = some d) : d.now = c.now := by
  obtain ⟨g, -, h⟩ := Option.bind_eq_some_iff.mp h
  split at h <;> cases h <;> rfl

@[simp]
theorem now_register (c : Client) (n : RunId) (r : Request) (id : ConnectionId) :
    (c.register n r id).now = c.now := by
  unfold register
  split <;> rfl

@[simp]
theorem now_queue (c : Client) (n : RunId) (r : Request) (x : Connection) (ticket : Ticket) :
    (c.queue n r x ticket).now = c.now := by
  unfold queue
  split <;> rfl

theorem now_of_collect {n : RunId} {r : Request} {ticket : Ticket}
    (h : c.collect n r ticket = some d) : d.now = c.now := by
  unfold collect at h
  split at h <;> cases h <;> rfl

/-- The steps of a call take no time. -/
theorem now_of_stepRun {n : RunId} {r : Run} {event : RunEvent}
    (h : c.stepRun n r event = some d) : d.now = c.now := by
  -- opened as it stands: of each event only its own arm is needed
  delta stepRun at h
  cases event with
  | found found =>
    dsimp only at h
    split at h
    case h_1 => exact now_of_ask h
    all_goals cases h <;> rfl
  | connected =>
    dsimp only at h
    split at h
    case h_1 => exact now_of_takeConnection h
    case h_2 => cases h
  | register =>
    dsimp only at h
    split at h
    case h_1 =>
      cases h
      simp
    case h_2 => cases h
  | test =>
    dsimp only at h
    split at h
    case h_1 =>
      obtain ⟨connection, -, h⟩ := Option.bind_eq_some_iff.mp h
      split at h <;> cases h <;> rfl
    case h_2 => cases h
  | queue =>
    dsimp only at h
    split at h
    case h_1 =>
      obtain ⟨connection, -, h⟩ := Option.bind_eq_some_iff.mp h
      cases h
      simp
    case h_2 => cases h
  | collect =>
    dsimp only at h
    split at h
    case h_1 => exact now_of_collect h
    case h_2 => cases h
  | timeout =>
    dsimp only at h
    split at h
    case h_1 =>
      obtain ⟨-, h⟩ := Option.ite_none_right_eq_some.mp h
      cases h
      rfl
    case h_2 => cases h
  | cancel =>
    dsimp only at h
    split at h
    case h_2 =>
      obtain ⟨pool, -, h⟩ := Option.bind_eq_some_iff.mp h
      cases h
      rfl
    all_goals cases h <;> rfl
  | exit =>
    dsimp only at h
    split at h
    all_goals cases h <;> rfl

theorem now_le_of_step (h : c.step event = some d) : c.now ≤ d.now := by
  cases event with
  | begin request =>
    obtain rfl := Option.some.inj h
    exact Nat.le_refl _
  | run n event =>
    obtain ⟨r, -, h⟩ := Option.bind_eq_some_iff.mp h
    exact Nat.le_of_eq (now_of_stepRun h).symm
  | pool event =>
    obtain ⟨-, -, h⟩ := Option.bind_eq_some_iff.mp h
    obtain ⟨pool, -, h⟩ := Option.bind_eq_some_iff.mp h
    obtain rfl := Option.some.inj h
    exact Nat.le_refl _
  | pass milliseconds =>
    obtain rfl := Option.some.inj h
    exact Nat.le_add_right _ _

end Client

/-! ## What is written when -/

namespace Connection

variable {codec : Codec} {now : Nat} {c d : Connection} {event : Client.Event}

/-- What a connection has written behind a step: nothing more, or a request that was queued, or a
heartbeat when it woke up. -/
inductive Writes (now : Nat) (c d : Connection) : Client.Event → Prop
  | nothing (event : Client.Event) (hwritten : d.written = c.written)
    (hlast : d.liveness.lastWrite = c.liveness.lastWrite) : Writes now c d event
  | queued {r : Request} (hr : r ∈ c.queue) (hwritten : d.written = c.written ++ [⟨now, r⟩])
    (hlast : d.liveness.lastWrite = now) :
    Writes now c d (.pool (.connection c.id (.turn .write)))
  | heartbeat {beat : String} (hwritten : d.written = c.written ++ [⟨now, .alive beat⟩])
    (hlast : d.liveness.lastWrite = now) : Writes now c d (Client.wakeup c.id beat)

theorem Writes.subset (h : Writes now c d event) : c.written ⊆ d.written := by
  cases h with
  | nothing _ hwritten => exact hwritten ▸ List.Subset.refl _
  | queued _ hwritten => exact hwritten ▸ List.subset_append_left _ _
  | heartbeat hwritten => exact hwritten ▸ List.subset_append_left _ _

/-- The times of a connection: its last frame is the latest, and none was written in the future. -/
structure Timed (now : Nat) (c : Connection) : Prop where
  latest : c.liveness.lastWrite ≤ now
  written : ∀ f ∈ c.written, f.time ≤ c.liveness.lastWrite

theorem timed_establish (id : ConnectionId) (key : ConnectionKey) (limits : IdleLimits)
    (now : Nat) : Timed now (establish id key limits now) :=
  ⟨Nat.le_refl _, nofun⟩

/-- A frame that is written now is the latest one. -/
theorem Timed.append {r : Request} (h : Timed now c)
    (hwritten : d.written = c.written ++ [⟨now, r⟩]) (hlast : d.liveness.lastWrite = now) :
    Timed now d where
  latest := Nat.le_of_eq hlast
  written f hf := by
    rw [hwritten] at hf
    rcases List.mem_append.mp hf with hold | hnew
    · calc
        f.time ≤ c.liveness.lastWrite := h.written f hold
        _ ≤ now := h.latest
        _ = d.liveness.lastWrite := hlast.symm
    · obtain rfl := List.mem_singleton.mp hnew
      exact Nat.le_of_eq hlast.symm

theorem Timed.writes (h : Timed now c) (hwrites : Writes now c d event) : Timed now d := by
  cases hwrites with
  | nothing _ hwritten hlast =>
    refine ⟨hlast ▸ h.latest, fun f hf ↦ ?_⟩
    rw [hlast]
    exact h.written f (hwritten ▸ hf)
  | queued _ hwritten hlast => exact h.append hwritten hlast
  | heartbeat hwritten hlast => exact h.append hwritten hlast

/-- What a step makes of a connection that was there. -/
structure Follows (now : Nat) (c : Connection) (event : Client.Event) (d : Connection) : Prop where
  active : d.isActive = true → c.isActive = true
  writes : Writes now c d event

theorem Turns.writes {turn : Event} (h : c.Turns codec now turn d) :
    Writes now c d (.pool (.connection c.id (.turn turn))) := by
  cases h with
  | wrote hqueue => exact .queued (hqueue ▸ List.mem_cons_self) rfl rfl
  | beat => exact .heartbeat rfl rfl
  | _ => exact .nothing _ rfl rfl

theorem Moves.follows {own : Pool.ConnectionEvent} (h : c.Moves codec now own d) :
    c.Follows now (.pool (.connection c.id own)) d := by
  refine ⟨h.isActive, ?_⟩
  cases h with
  | turned hserving hturns => exact hturns.writes
  | _ => exact .nothing _ rfl rfl

end Connection

namespace Client

variable {config : ClientConfig} {events more : List Event} {event : Event} {c d e f : Client}
  {id : ConnectionId} {x y : Connection} {beat again : String} {time w : Nat}

/-- A connection was just established behind a step, or it was there before. -/
theorem follows_of_step (h : c.step event = some d) (hy : d.pool.connection? id = some y) :
    (c.pool.connection? id = none ∧
      ∃ key, y = .establish id key c.pool.config.idleLimits c.now) ∨
    ∃ x, c.pool.connection? id = some x ∧ x.Follows c.now event y := by
  cases bearing_of_step h hy with
  | kept hx => exact .inr ⟨y, hx, fun hactive ↦ hactive, .nothing _ rfl rfl⟩
  | queued hx => exact .inr ⟨_, hx, fun hactive ↦ hactive, .nothing _ rfl rfl⟩
  | pooled horigin =>
    cases horigin with
    | kept hx => exact .inr ⟨y, hx, fun hactive ↦ hactive, .nothing _ rfl rfl⟩
    | established _ _ hid hnone => exact .inl ⟨hnone, _, by rw [hid]⟩
    | moved hx hmoves =>
      obtain rfl := Pool.id_of_connection? hx
      exact .inr ⟨_, hx, hmoves.follows⟩
    | searched hx => exact .inr ⟨_, hx, nofun, .nothing _ rfl rfl⟩
    | departed hx => exact .inr ⟨_, hx, nofun, .nothing _ rfl rfl⟩
    | told hx => exact .inr ⟨_, hx, fun hactive ↦ hactive, .nothing _ rfl rfl⟩

/-- No step removes a connection. -/
theorem exists_follows (hx : c.pool.connection? id = some x) (h : c.step event = some d) :
    ∃ y, d.pool.connection? id = some y ∧ x.Follows c.now event y := by
  have hkey : c.pool.keyOf? id = some x.key := Option.map_eq_some_iff.mpr ⟨x, hx, rfl⟩
  have hkept : d.pool.keyOf? id = some x.key := by
    rcases pool_of_step h with hsame | ⟨own, heffect, -⟩
    · rw [hsame]
      exact hkey
    · exact heffect.keyOf? hkey
  obtain ⟨y, hy, -⟩ := Option.map_eq_some_iff.mp hkept
  rcases follows_of_step h hy with ⟨hnone, -⟩ | ⟨found, hfound, hfollows⟩
  · cases hnone.symm.trans hx
  · obtain rfl := Option.some.inj (hfound.symm.trans hx)
    exact ⟨y, hy, hfollows⟩

theorem timed_of_steps (h : (start config).steps events = some c)
    (hx : c.pool.connection? id = some x) : x.Timed c.now := by
  have hall : ∀ id x, c.pool.connection? id = some x → x.Timed c.now := by
    refine steps_invariant (P := fun c ↦ ∀ id x, c.pool.connection? id = some x →
      x.Timed c.now) ?_ (fun id x hx ↦ ?_) h
    · intro c d event htimed hstep id y hy
      have hbefore : y.Timed c.now := by
        rcases follows_of_step hstep hy with ⟨-, key, rfl⟩ | ⟨x, hx, hfollows⟩
        · exact Connection.timed_establish ..
        · exact (htimed id x hx).writes hfollows.writes
      exact ⟨Nat.le_trans hbefore.latest (now_le_of_step hstep), hbefore.written⟩
    · simp at hx
  exact hall id x hx

/-! ## Heartbeats -/

/-- A connection wrote a frame at a time, unless it was given up. -/
def Rested (c : Client) (id : ConnectionId) (time : Nat) : Prop :=
  ∃ x, c.pool.connection? id = some x ∧
    (x.isActive = true → ∃ f ∈ x.written, f.time = time)

theorem Rested.step (h : c.Rested id time) (hstep : c.step event = some d) : d.Rested id time := by
  obtain ⟨x, hx, hrested⟩ := h
  obtain ⟨y, hy, hfollows⟩ := exists_follows hx hstep
  refine ⟨y, hy, fun hactive ↦ ?_⟩
  obtain ⟨f, hf, htime⟩ := hrested (hfollows.active hactive)
  exact ⟨f, hfollows.writes.subset hf, htime⟩

theorem Rested.steps (h : c.Rested id time) (hsteps : c.steps more = some d) : d.Rested id time :=
  steps_invariant (P := fun c ↦ c.Rested id time) Rested.step h hsteps

theorem turn_of_step {turn : Connection.Event} (hx : c.pool.connection? id = some x)
    (h : c.step (.pool (.connection id (.turn turn))) = some d) :
    ∃ y, x.step c.pool.config.codec c.now turn = some y ∧ d.pool = c.pool.setConnection y ∧
      d.now = c.now := by
  obtain ⟨-, -, h⟩ := Option.bind_eq_some_iff.mp h
  obtain ⟨pool, hpool, h⟩ := Option.bind_eq_some_iff.mp h
  obtain ⟨found, hfound, hpool⟩ := Option.bind_eq_some_iff.mp hpool
  obtain rfl := Option.some.inj (hfound.symm.trans hx)
  obtain ⟨y, hy, hpool⟩ := Option.bind_eq_some_iff.mp hpool
  obtain rfl := Option.some.inj hpool
  obtain rfl := Option.some.inj h
  exact ⟨y, hy, rfl, rfl⟩

/-- How the loop of a connection sends heartbeats that may be silent for `w`. -/
structure Paced (config : ClientConfig) (w : Nat) (c : Client) (x : Connection) : Prop where
  /-- The loop wakes up exactly when the last frame was written so long ago. -/
  woken : ∀ beat, (c.step (wakeup x.id beat)).isSome = true ↔
    x.isServing = true ∧ x.liveness.lastWrite + w ≤ c.now
  /-- No frame was written later than that. -/
  silent : ∀ beat d, c.step (wakeup x.id beat) = some d → ∀ f ∈ x.written, f.time + w ≤ c.now
  /-- It sends a heartbeat, and its next deadline lies ahead of that or beyond the clock, where the
  loop breaks off. Or it is left for a heartbeat that cannot be framed. -/
  beats : ∀ beat d, c.step (wakeup x.id beat) = some d → ∃ y, d.pool.connection? x.id = some y ∧
    (y = x.wrote c.now (.alive beat) ∧ ((∃ deadline,
          y.liveness.nextDeadline = .ok (some deadline) ∧ y.liveness.lastWrite < deadline ∧
            d.now < deadline) ∨
        Liveness.clockEnd ≤ y.liveness.lastWrite + w ∧ y.isServing = false) ∨
      ∃ fault, config.connection.codec.encode (x.frame (.alive beat)) = .error fault ∧
        y = x.leave (.heartbeatFailed fault))
  /-- It does not wake up again before the same time has passed. -/
  spaced : ∀ beat d, c.step (wakeup x.id beat) = some d → ∀ more e again f,
    d.steps more = some e → e.step (wakeup x.id again) = some f → c.now + w ≤ e.now
  /-- Whatever happens, the connection writes nothing but what is queued, and heartbeats. -/
  writes : ∀ event d, c.step event = some d →
    ∃ y, d.pool.connection? x.id = some y ∧ x.Writes c.now y event

section

variable (hlimit : config.connection.writeIdle = some w)
  (hsteps : (start config).steps events = some c)
  (hx : c.pool.connection? x.id = some x)

include hlimit hsteps hx

theorem writeIdle_of_steps : x.liveness.limits = ⟨none, some w⟩ := by
  rw [limits_of_steps hsteps hx, ConnectionConfig.idleLimits, hlimit]

theorem isSome_step_wakeup : (c.step (wakeup x.id beat)).isSome = true ↔
    x.isServing = true ∧ x.liveness.lastWrite + w ≤ c.now := by
  rw [← Connection.isSome_step_wake (writeIdle_of_steps hlimit hsteps hx)]
  constructor
  · intro h
    obtain ⟨d, hd⟩ := Option.isSome_iff_exists.mp h
    obtain ⟨y, hy, -⟩ := turn_of_step hx hd
    exact Option.isSome_of_eq_some hy
  · intro h
    obtain ⟨y, hy⟩ := Option.isSome_iff_exists.mp h
    exact Option.isSome_of_eq_some (step_turn hx hy)

theorem wakeup_cases (h : c.step (wakeup x.id beat) = some d) : d.now = c.now ∧
    ∃ y, d.pool.connection? x.id = some y ∧ (y = x.wrote c.now (.alive beat) ∨
      ∃ fault, config.connection.codec.encode (x.frame (.alive beat)) = .error fault ∧
        y = x.leave (.heartbeatFailed fault)) := by
  obtain ⟨y, hy, hpool, hnow⟩ := turn_of_step hx h
  rw [config_of_steps hsteps] at hy
  have hid : y.id = x.id := (Connection.turns_of_step hy).2.same.1
  refine ⟨hnow, y, ?_, Connection.step_wake_cases (writeIdle_of_steps hlimit hsteps hx) hy⟩
  rw [hpool, Pool.connection?_setConnection (by rw [hid]; exact hx), if_pos hid.symm]

theorem rested_of_wakeup (h : c.step (wakeup x.id beat) = some d) : d.Rested x.id c.now := by
  obtain ⟨-, y, hy, rfl | ⟨fault, -, rfl⟩⟩ := wakeup_cases hlimit hsteps hx h
  · exact ⟨_, hy, fun _ ↦ ⟨_, List.mem_append_right _ List.mem_cons_self, rfl⟩⟩
  · exact ⟨_, hy, nofun⟩

theorem le_of_wakeup (h : c.step (wakeup x.id beat) = some d) :
    ∀ f ∈ x.written, f.time + w ≤ c.now := by
  intro f hf
  have htime := (timed_of_steps hsteps hx).written f hf
  have hwoken := (isSome_step_wakeup hlimit hsteps hx).mp (Option.isSome_of_eq_some h)
  calc
    f.time + w ≤ x.liveness.lastWrite + w := Nat.add_le_add_right htime w
    _ ≤ c.now := hwoken.2

/-- The frame of the first heartbeat is seen by the loop when it wakes up for the second one. -/
theorem le_of_wakeup_again (h : c.step (wakeup x.id beat) = some d) (hmore : d.steps more = some e)
    (hagain : e.step (wakeup x.id again) = some f) : c.now + w ≤ e.now := by
  obtain ⟨z, hz, hrested⟩ := (rested_of_wakeup hlimit hsteps hx h).steps hmore
  have hrun : (start config).steps (events ++ wakeup x.id beat :: more) = some e := by
    rw [steps, List.foldlM_append]
    refine Option.bind_eq_some_iff.mpr ⟨c, hsteps, ?_⟩
    exact Option.bind_eq_some_iff.mpr ⟨d, h, hmore⟩
  obtain hid : z.id = x.id := Pool.id_of_connection? hz
  rw [← hid] at hz hagain
  have hwoken := (isSome_step_wakeup hlimit hrun hz).mp (Option.isSome_of_eq_some hagain)
  obtain ⟨frame, hframe, htime⟩ := hrested (Connection.isActive_of_isServing hwoken.1)
  have hold := le_of_wakeup hlimit hrun hz hagain frame hframe
  rwa [htime] at hold

/-- The next deadline behind a heartbeat lies ahead, or beyond the clock. -/
theorem rests_of_wrote (hpos : 0 < w) : let y := x.wrote c.now (.alive beat)
    (∃ deadline, y.liveness.nextDeadline = .ok (some deadline) ∧
        y.liveness.lastWrite < deadline ∧ c.now < deadline) ∨
      Liveness.clockEnd ≤ y.liveness.lastWrite + w ∧ y.isServing = false := by
  intro y
  have hbefore := writeIdle_of_steps hlimit hsteps hx
  have hlimits : y.liveness.limits = ⟨none, some w⟩ := hbefore
  have hnext : c.now < c.now + w := Nat.lt_add_of_pos_right hpos
  rcases Nat.lt_or_ge (c.now + w) Liveness.clockEnd with hlt | hge
  · have hdeadline : y.liveness.nextDeadline = .ok (some (c.now + w)) :=
      (Liveness.nextDeadline_of_writeIdle hlimits).trans (Liveness.deadlineAfter_of_lt hlt)
    exact .inl ⟨_, hdeadline, hnext, hnext⟩
  · refine .inr ⟨hge, Bool.eq_false_iff.mpr fun hserving ↦ ?_⟩
    have hclock := (Connection.isServing_iff.mp hserving).2
    exact Nat.not_lt_of_le hge ((Liveness.onClock_of_writeIdle hlimits).mp hclock)

end

/-- Whatever was recorded, something is idle exactly when the next deadline has come, as long as the
clock can show all deadlines, and reading is idle exactly when its threshold has elapsed. So the
loop of a connection that may be silent for `w` wakes up only if nothing was written for `w`, sends
heartbeats that are at least as far apart, and rests in between. -/
theorem idle_iff_and_paced (l : Liveness) (now : Nat) :
    l.Agrees now ∧
    ∀ (config : ClientConfig) (w : Nat) (events : List Event) (c : Client) (id : ConnectionId)
      (x : Connection), config.connection.writeIdle = some w → 0 < w →
      (start config).steps events = some c → c.pool.connection? id = some x →
        Paced config w c x := by
  refine ⟨l.agrees now, ?_⟩
  intro config w events c id x hlimit hpos hsteps hx
  obtain rfl := Pool.id_of_connection? hx
  exact
    { woken := fun beat ↦ isSome_step_wakeup hlimit hsteps hx
      silent := fun beat d ↦ le_of_wakeup hlimit hsteps hx
      spaced := fun beat d hd more e again f ↦ le_of_wakeup_again hlimit hsteps hx hd
      beats := fun beat d hd ↦ by
        obtain ⟨hnow, y, hy, rfl | hleft⟩ := wakeup_cases hlimit hsteps hx hd
        · refine ⟨_, hy, .inl ⟨rfl, ?_⟩⟩
          rw [hnow]
          exact rests_of_wrote hlimit hsteps hx hpos
        · exact ⟨y, hy, .inr hleft⟩
      writes := fun event d hd ↦ by
        obtain ⟨y, hy, hfollows⟩ := exists_follows hx hd
        exact ⟨y, hy, hfollows.writes⟩ }

/-- A call sends its request, and nothing else is sent for so long that the loop sends a heartbeat.
Some time later it is not yet due to send another one. -/
def restingEvents : List Event :=
  .begin shortRequest :: opening 0 0 (.ok ⟨"::1", 7000⟩) none ++
    [.pool (.connection 1 (.turn .write)), .pass 5000, wakeup 1 "b", .pass 4999]

theorem paced_resting : ∃ c x, (start .standard).steps restingEvents = some c ∧
    c.pool.connection? 1 = some x ∧
    x.written = [⟨0, shortRequest⟩, ⟨5000, .alive "b"⟩] ∧
    x.liveness.Agrees c.now ∧ Paced .standard 5000 c x ∧
    c.step (wakeup x.id "c") = none := by
  have hend : ((start .standard).steps restingEvents).bind (fun c ↦
      (c.pool.connection? 1).map fun x ↦ (c.now, x.liveness.lastWrite, x.written)) =
      some (9999, 5000, [⟨0, shortRequest⟩, ⟨5000, .alive "b"⟩]) := by
    rfl
  obtain ⟨c, hc, hend⟩ := Option.bind_eq_some_iff.mp hend
  obtain ⟨x, hx, hend⟩ := Option.map_eq_some_iff.mp hend
  simp only [Prod.mk.injEq] at hend
  obtain ⟨hnow, hlast, hwritten⟩ := hend
  obtain ⟨hagrees, hall⟩ := idle_iff_and_paced x.liveness c.now
  have hpaced := hall .standard 5000 restingEvents c 1 x rfl (by decide) hc hx
  refine ⟨c, x, hc, hx, hwritten, hagrees, hpaced, ?_⟩
  have hsleeps : ¬ (c.step (wakeup x.id "c")).isSome = true := by
    rw [hpaced.woken, hnow, hlast]
    simp
  simpa using hsleeps

end Client

end FramedRpc
