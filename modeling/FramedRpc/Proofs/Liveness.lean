import FramedRpc.Liveness

/-!
# Idle connections

Something is found idle exactly when the next deadline has come, and what it says of the times of a
connection that it is found idle. A deadline that the clock cannot show is none: who asks for it
breaks off.
-/

namespace FramedRpc.Liveness

variable {l : Liveness} {time now limit : Nat} {limits : Option Nat}

/-! ## Deadlines -/

@[simp]
theorem deadlineAfter_none (time : Nat) : deadlineAfter time none = .ok none := rfl

theorem deadlineAfter_of_lt (h : time + limit < clockEnd) :
    deadlineAfter time (some limit) = .ok (some (time + limit)) := if_pos h

theorem deadlineAfter_of_le (h : clockEnd ≤ time + limit) :
    deadlineAfter time (some limit) = .error .beyondClock := if_neg (Nat.not_lt_of_le h)

/-- A deadline that the clock can show has come exactly when the time of its limit has passed. -/
theorem any_deadlineAfter_iff {deadline : Option Nat}
    (h : deadlineAfter time limits = .ok deadline) :
    deadline.any (· ≤ now) = true ↔ ∃ limit, limits = some limit ∧ time + limit ≤ now := by
  cases limits with
  | none =>
    cases h
    simp
  | some limit =>
    rw [deadlineAfter] at h
    split at h <;> cases h
    simp

theorem isOk_deadlineAfter_iff : (deadlineAfter time limits).isOk = true ↔
    ∀ limit, limits = some limit → time + limit < clockEnd := by
  cases limits with
  | none => exact iff_of_true rfl nofun
  | some limit =>
    rcases Nat.lt_or_ge (time + limit) clockEnd with hlt | hge
    · rw [deadlineAfter_of_lt hlt]
      exact iff_of_true rfl fun _ h ↦ Option.some.inj h ▸ hlt
    · rw [deadlineAfter_of_le hge]
      exact iff_of_false Bool.false_ne_true fun h ↦ Nat.not_lt_of_le hge (h limit rfl)

/-- The clock can show all deadlines. -/
theorem onClock_iff : l.onClock = true ↔
    (∀ limit, l.limits.readIdle = some limit → l.lastRead + limit < clockEnd) ∧
    ∀ limit, l.limits.writeIdle = some limit → l.lastWrite + limit < clockEnd := by
  rw [← isOk_deadlineAfter_iff, ← isOk_deadlineAfter_iff]
  unfold onClock nextDeadline readDeadline writeDeadline
  cases deadlineAfter l.lastRead l.limits.readIdle with
  | error => exact iff_of_false Bool.false_ne_true fun h ↦ Bool.false_ne_true h.1
  | ok read =>
    cases deadlineAfter l.lastWrite l.limits.writeIdle with
    | error => exact iff_of_false Bool.false_ne_true fun h ↦ Bool.false_ne_true h.2
    | ok write =>
      refine iff_of_true ?_ ⟨rfl, rfl⟩
      cases read <;> cases write <;> rfl

/-- Whoever asks for a deadline that the clock cannot show breaks off. -/
theorem nextDeadline_of_onClock_eq_false (h : l.onClock = false) :
    l.nextDeadline = .error .beyondClock := by
  unfold onClock at h
  cases hnext : l.nextDeadline with
  | error overrun => rfl
  | ok deadline =>
    rw [hnext] at h
    cases h

/-- Where reading has no limit, writing alone sets the deadline. -/
theorem nextDeadline_of_writeIdle (h : l.limits = ⟨none, some limit⟩) :
    l.nextDeadline = deadlineAfter l.lastWrite (some limit) := by
  unfold nextDeadline readDeadline writeDeadline
  rw [h]
  cases deadlineAfter l.lastWrite (some limit) <;> rfl

theorem onClock_of_writeIdle (h : l.limits = ⟨none, some limit⟩) :
    l.onClock = true ↔ l.lastWrite + limit < clockEnd := by
  rw [onClock, nextDeadline_of_writeIdle h, isOk_deadlineAfter_iff]
  exact ⟨fun hclock ↦ hclock limit rfl, fun hlt _ hlimit ↦ Option.some.inj hlimit ▸ hlt⟩

theorem isDue_of_writeIdle (h : l.limits = ⟨none, some limit⟩) (hclock : l.onClock = true) :
    l.isDue now = true ↔ l.lastWrite + limit ≤ now := by
  have hlt := (onClock_of_writeIdle h).mp hclock
  unfold isDue
  rw [nextDeadline_of_writeIdle h, deadlineAfter_of_lt hlt]
  exact decide_eq_true_iff

/-- Where writing has no limit, only a deadline of reading can lie beyond the clock. -/
theorem onClock_eq_false_iff (h : l.limits.writeIdle = none) : l.onClock = false ↔
    ∃ limit, l.limits.readIdle = some limit ∧ clockEnd ≤ l.lastRead + limit := by
  rw [← Bool.not_eq_true, onClock_iff, h]
  simp

/-- Where reading has no limit, only a deadline of writing can lie beyond the clock. -/
theorem exists_of_onClock_eq_false (hlimits : l.limits = ⟨none, limits⟩) (h : l.onClock = false) :
    ∃ limit, limits = some limit ∧ clockEnd ≤ l.lastWrite + limit := by
  cases limits with
  | none =>
    have hclock : l.onClock = true := by
      rw [onClock_iff, hlimits]
      exact ⟨nofun, nofun⟩
    cases hclock.symm.trans h
  | some limit =>
    refine ⟨limit, rfl, Nat.le_of_not_lt fun hlt ↦ ?_⟩
    cases ((onClock_of_writeIdle hlimits).mpr hlt).symm.trans h

/-- Where reading has no limit the clock does not care when a frame was read. -/
theorem onClock_recordRead (h : l.limits.readIdle = none) :
    (l.recordRead now).onClock = l.onClock := by
  unfold onClock nextDeadline readDeadline recordRead
  rw [h]
  rfl

/-! ## What is idle -/

/-- Reading is found idle once its deadline has come, whatever writing does. -/
theorem poll_eq_readerIdle_iff : l.poll now = .ok (some .readerIdle) ↔
    ∃ limit, l.limits.readIdle = some limit ∧ l.lastRead + limit < clockEnd ∧
      l.lastRead + limit ≤ now := by
  unfold poll readDeadline
  cases hread : deadlineAfter l.lastRead l.limits.readIdle with
  | error overrun =>
    refine iff_of_false nofun ?_
    rintro ⟨limit, hlimit, hlt, -⟩
    rw [hlimit, deadlineAfter_of_lt hlt] at hread
    cases hread
  | ok read =>
    have hclock := isOk_deadlineAfter_iff.mp (congrArg Except.isOk hread)
    have hcome : read.any (· ≤ now) = true ↔ _ := any_deadlineAfter_iff hread
    show (if read.any (· ≤ now) = true then Except.ok (some IdleEvent.readerIdle) else _) = _ ↔ _
    by_cases hany : read.any (· ≤ now) = true
    case pos =>
      obtain ⟨limit, hlimit, hle⟩ := hcome.mp hany
      rw [if_pos hany]
      exact iff_of_true rfl ⟨limit, hlimit, hclock limit hlimit, hle⟩
    case neg =>
      rw [if_neg hany]
      refine iff_of_false ?_ fun ⟨limit, hlimit, _, hle⟩ ↦ hany (hcome.mpr ⟨limit, hlimit, hle⟩)
      cases l.writeDeadline with
      | error => nofun
      | ok write =>
        show Except.ok (if write.any (· ≤ now) = true then _ else _) ≠ _
        split <;> nofun

/-- Without a limit reading is never idle. -/
theorem poll_ne_readerIdle (h : l.limits.readIdle = none) :
    l.poll now ≠ .ok (some .readerIdle) := by
  intro hidle
  obtain ⟨limit, hlimit, -⟩ := poll_eq_readerIdle_iff.mp hidle
  cases h.symm.trans hlimit

/-- Before its deadline reading is not idle. -/
theorem poll_ne_readerIdle_of_lt (hlimit : l.limits.readIdle = some limit)
    (h : now < l.lastRead + limit) : l.poll now ≠ .ok (some .readerIdle) := by
  intro hidle
  obtain ⟨found, hfound, -, hpassed⟩ := poll_eq_readerIdle_iff.mp hidle
  obtain rfl := Option.some.inj (hlimit.symm.trans hfound)
  exact Nat.not_le_of_lt h hpassed

/-- Where reading has no limit, writing is found idle once its deadline has come. -/
theorem poll_of_writeIdle (hread : l.limits.readIdle = none)
    (hwrite : l.limits.writeIdle = some limit) (hclock : l.lastWrite + limit < clockEnd)
    (h : l.lastWrite + limit ≤ now) : l.poll now = .ok (some .writerIdle) := by
  have hpassed : decide (l.lastWrite + limit ≤ now) = true := decide_eq_true h
  unfold poll readDeadline writeDeadline
  rw [hread, hwrite, deadlineAfter_of_lt hclock]
  show Except.ok (if decide (l.lastWrite + limit ≤ now) = true then _ else _) = _
  rw [if_pos hpassed]

/-- Where the clock cannot show a deadline, nothing but idle reading is found. -/
theorem poll_of_onClock_eq_false (h : l.onClock = false) :
    l.poll now = .error .beyondClock ∨ l.poll now = .ok (some .readerIdle) := by
  have hnext := nextDeadline_of_onClock_eq_false h
  unfold nextDeadline at hnext
  unfold poll
  cases hread : l.readDeadline with
  | error => exact .inl rfl
  | ok read =>
    show (if read.any (· ≤ now) = true then _ else _) = _ ∨
      (if read.any (· ≤ now) = true then Except.ok (some IdleEvent.readerIdle) else _) = _
    split
    case isTrue => exact .inr rfl
    case isFalse =>
      cases hwrite : l.writeDeadline with
      | error => exact .inl rfl
      | ok write =>
        rw [hread, hwrite] at hnext
        cases read <;> cases write <;> cases hnext

/-- The next deadline is the first time at which something is idle. -/
theorem exists_poll_iff (h : l.onClock = true) :
    (∃ event, l.poll now = .ok (some event)) ↔
      ∃ deadline, l.nextDeadline = .ok (some deadline) ∧ deadline ≤ now := by
  obtain ⟨hread, hwrite⟩ := onClock_iff.mp h
  unfold poll nextDeadline readDeadline writeDeadline
  cases hreadIdle : l.limits.readIdle with
  | none =>
    cases hwriteIdle : l.limits.writeIdle with
    | none => simp [bind, Except.bind, pure, Except.pure]
    | some w =>
      rw [deadlineAfter_of_lt (hwrite w hwriteIdle)]
      by_cases hw : l.lastWrite + w ≤ now <;>
        simp [bind, Except.bind, pure, Except.pure, hw]
  | some r =>
    rw [deadlineAfter_of_lt (hread r hreadIdle)]
    cases hwriteIdle : l.limits.writeIdle with
    | none =>
      by_cases hr : l.lastRead + r ≤ now <;>
        simp [bind, Except.bind, pure, Except.pure, hr]
    | some w =>
      rw [deadlineAfter_of_lt (hwrite w hwriteIdle)]
      have hmin : min (l.lastRead + r) (l.lastWrite + w) ≤ now ↔
          l.lastRead + r ≤ now ∨ l.lastWrite + w ≤ now := by omega
      by_cases hr : l.lastRead + r ≤ now <;> by_cases hw : l.lastWrite + w ≤ now <;>
        simp [bind, Except.bind, pure, Except.pure, hmin, hr, hw]

/-- How what is found idle at a time agrees with the deadlines of a connection. -/
structure Agrees (l : Liveness) (now : Nat) : Prop where
  clock : l.onClock = true ↔
    (∀ limit, l.limits.readIdle = some limit → l.lastRead + limit < clockEnd) ∧
    ∀ limit, l.limits.writeIdle = some limit → l.lastWrite + limit < clockEnd
  /-- Something is idle exactly when the next deadline has come. -/
  idle : l.onClock = true → ((∃ event, l.poll now = .ok (some event)) ↔
    ∃ deadline, l.nextDeadline = .ok (some deadline) ∧ deadline ≤ now)
  /-- With a deadline that the clock cannot show there is no next one, but reading may be idle. -/
  beyond : l.onClock = false → l.nextDeadline = .error .beyondClock ∧
    (l.poll now = .error .beyondClock ∨ l.poll now = .ok (some .readerIdle))
  /-- Reading is idle exactly when its threshold has elapsed. -/
  reading : now < clockEnd → (l.poll now = .ok (some .readerIdle) ↔
    ∃ limit, l.limits.readIdle = some limit ∧ l.lastRead + limit ≤ now)

theorem agrees (l : Liveness) (now : Nat) : l.Agrees now where
  clock := onClock_iff
  idle := exists_poll_iff
  beyond h := ⟨nextDeadline_of_onClock_eq_false h, poll_of_onClock_eq_false h⟩
  reading h := by
    rw [poll_eq_readerIdle_iff]
    refine exists_congr fun limit ↦ and_congr_right fun _ ↦ and_iff_right_of_imp fun hle ↦ ?_
    exact Nat.lt_of_le_of_lt hle h

/-- Reading is found idle, but whoever asks for the next deadline breaks off: writing may be silent
for longer than the clock goes. -/
theorem idle_beyond_clock :
    let l := start ⟨some 0, some 18446744073709551615999⟩ 0
    l.poll 0 = .ok (some .readerIdle) ∧ l.nextDeadline = .error .beyondClock ∧
      ¬ ((∃ event, l.poll 0 = .ok (some event)) ↔
        ∃ deadline, l.nextDeadline = .ok (some deadline) ∧ deadline ≤ 0) := by
  intro l
  have hpoll : l.poll 0 = .ok (some .readerIdle) :=
    poll_eq_readerIdle_iff.mpr ⟨0, rfl, by decide, by decide⟩
  have hbeyond : l.onClock = false :=
    Bool.eq_false_iff.mpr fun hclock ↦ absurd ((onClock_iff.mp hclock).2 _ rfl) (by decide)
  have hnext := nextDeadline_of_onClock_eq_false hbeyond
  refine ⟨hpoll, hnext, fun hiff ↦ ?_⟩
  obtain ⟨deadline, hdeadline, -⟩ := hiff.mp ⟨_, hpoll⟩
  cases hnext.symm.trans hdeadline

end FramedRpc.Liveness
