import FramedRpc.Client.Connection

/-!
# Turns of the loop of a connection

What a turn does to the connection, by what the loop does: it writes a request or a heartbeat, or
finds that it cannot be framed, it reads, it is left, or it breaks off. A turn neither changes what
the connection is made for nor takes back that the connection is asked to end.
-/

namespace FramedRpc

namespace Connection

variable {c d : Connection} {codec : Codec} {now : Nat} {event : Event} {r : Request}

theorem isActive_iff : c.isActive = true ↔ c.stage = .serving ∨ c.stage = .brokenOff := by
  unfold isActive
  cases c.stage <;> simp

theorem isServing_iff :
    c.isServing = true ↔ c.stage = .serving ∧ c.liveness.onClock = true := by
  unfold isServing
  cases c.stage <;> simp

theorem isServing_congr (hstage : d.stage = c.stage)
    (hclock : d.liveness.onClock = c.liveness.onClock) : d.isServing = c.isServing := by
  rw [isServing, isServing, hstage, hclock]

theorem isActive_of_isServing (h : c.isServing = true) : c.isActive = true :=
  isActive_iff.mpr (.inl (isServing_iff.mp h).1)

def frame (c : Connection) (r : Request) : Frame := ⟨c.key.serializer, .request r⟩

def wrote (c : Connection) (now : Nat) (r : Request) : Connection :=
  { c with
    liveness := c.liveness.recordWrite now
    written := c.written ++ [⟨now, r⟩] }

/-- The connection behind a turn of its loop. -/
inductive Turns (codec : Codec) (now : Nat) (c : Connection) : Event → Connection → Prop
  | wrote {r : Request} {rest : List Request} {bytes : List UInt8} (hqueue : c.queue = r :: rest)
    (hencode : codec.encode (c.frame r) = .ok bytes) :
    Turns codec now c .write ({ c with queue := rest }.wrote now r)
  | refused {r : Request} {rest : List Request} {fault : Fault} (hqueue : c.queue = r :: rest)
    (hencode : codec.encode (c.frame r) = .error fault) :
    Turns codec now c .write ({ c with queue := rest }.leave (.writeFailed fault))
  | beat {id : String} {bytes : List UInt8}
    (hencode : codec.encode (c.frame (.alive id)) = .ok bytes) :
    Turns codec now c (.wake id) (c.wrote now (.alive id))
  | unbeaten {id : String} {fault : Fault}
    (hencode : codec.encode (c.frame (.alive id)) = .error fault) :
    Turns codec now c (.wake id) (c.leave (.heartbeatFailed fault))
  | starved (id : String) (hidle : c.liveness.poll now = .ok (some .readerIdle)) :
    Turns codec now c (.wake id) (c.leave .readIdle)
  | woken (id : String) : Turns codec now c (.wake id) c
  | received (message : Message) :
    Turns codec now c (.receive message) { c with liveness := c.liveness.recordRead now }
  | left {reason : Reason} (hmay : c.mayLeave reason = true) :
    Turns codec now c (.leave reason) (c.leave reason)
  | brokeOff (hclock : c.liveness.onClock = false) : Turns codec now c .breakOff c.breakOff

theorem transmit_of_ok {bytes : List UInt8} (h : codec.encode (c.frame r) = .ok bytes) :
    c.transmit codec now r = .ok (c.wrote now r) := by
  rw [transmit, ← frame, h]
  rfl

theorem transmit_of_error {fault : Fault} (h : codec.encode (c.frame r) = .error fault) :
    c.transmit codec now r = .error fault := by
  rw [transmit, ← frame, h]
  rfl

theorem turns_write (h : c.write codec now = some d) : Turns codec now c .write d := by
  unfold write at h
  split at h
  case h_1 => cases h
  case h_2 r rest hqueue =>
    cases hencode : codec.encode (c.frame r) with
    | ok bytes =>
      rw [transmit_of_ok (c := { c with queue := rest }) hencode] at h
      obtain rfl := Option.some.inj h
      exact .wrote hqueue hencode
    | error fault =>
      rw [transmit_of_error (c := { c with queue := rest }) hencode] at h
      obtain rfl := Option.some.inj h
      exact .refused hqueue hencode

theorem turns_wake {id : String} (h : c.wake codec now id = some d) :
    Turns codec now c (.wake id) d := by
  obtain ⟨-, h⟩ := Option.ite_none_right_eq_some.mp h
  split at h
  case h_1 =>
    cases hencode : codec.encode (c.frame (.alive id)) with
    | ok bytes =>
      rw [transmit_of_ok hencode] at h
      obtain rfl := Option.some.inj h
      exact .beat hencode
    | error fault =>
      rw [transmit_of_error hencode] at h
      obtain rfl := Option.some.inj h
      exact .unbeaten hencode
  case h_2 hidle =>
    obtain rfl := Option.some.inj h
    exact .starved id hidle
  case h_3 =>
    obtain rfl := Option.some.inj h
    exact .woken id

/-- Only a connection whose loop was not left takes a turn. -/
theorem turns_of_step (h : c.step codec now event = some d) :
    c.stage = .serving ∧ Turns codec now c event d := by
  unfold step at h
  split at h
  case isTrue hserving =>
    refine ⟨(isServing_iff.mp hserving).1, ?_⟩
    cases event with
    | write => exact turns_write h
    | wake id => exact turns_wake h
    | receive message =>
      obtain rfl := Option.some.inj h
      exact .received message
    | leave reason =>
      obtain ⟨hmay, h⟩ := Option.ite_none_right_eq_some.mp h
      obtain rfl := Option.some.inj h
      exact .left hmay
    | breakOff => cases h
  case isFalse hserving =>
    split at h
    case h_1 hstage =>
      obtain rfl := Option.some.inj h
      refine ⟨hstage, .brokeOff (Bool.eq_false_iff.mpr fun hclock ↦ ?_)⟩
      exact hserving (isServing_iff.mpr ⟨hstage, hclock⟩)
    case h_2 => cases h

/-- What a turn leaves as it is. -/
theorem Turns.same (h : Turns codec now c event d) :
    d.id = c.id ∧ d.key = c.key ∧ d.told = c.told := by
  cases h <;> exact ⟨rfl, rfl, rfl⟩

theorem Turns.limits (h : Turns codec now c event d) :
    d.liveness.limits = c.liveness.limits := by
  cases h <;> rfl

theorem Turns.stage (h : Turns codec now c event d) :
    d.stage = c.stage ∨ (∃ reason, d.stage = .inactive reason) ∨ d.stage = .brokenOff := by
  cases h with
  | wrote => exact .inl rfl
  | beat => exact .inl rfl
  | woken => exact .inl rfl
  | received => exact .inl rfl
  | refused => exact .inr (.inl ⟨_, rfl⟩)
  | unbeaten => exact .inr (.inl ⟨_, rfl⟩)
  | starved => exact .inr (.inl ⟨_, rfl⟩)
  | left => exact .inr (.inl ⟨_, rfl⟩)
  | brokeOff => exact .inr (.inr rfl)

end Connection

end FramedRpc
