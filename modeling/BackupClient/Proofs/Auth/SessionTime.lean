import BackupClient.Proofs.Auth.Lifecycle
import BackupClient.Proofs.Time.UtcTime

/-!
The time of a session.

When a session expires and how much time is left are exact over the whole range of instants and durations,
leap seconds apart, and what a session reads as changes at most once, when its time is over.
-/

namespace BackupClient.AuthSession

def map {σ τ : Type} (scale : σ → τ) (session : AuthSession σ) : AuthSession τ where
  id := session.id
  status := session.status
  createdAt := scale session.createdAt
  expiresAt := scale session.expiresAt
  finishedAt := session.finishedAt.map scale
  tokens := session.tokens

section Scales

variable {τ : Type} [TimeScale τ]

/-- The time that is left is as long as the shift to the end. -/
theorem nanos_remaining_eq (session : AuthSession τ) (now : τ) :
    ((session.remaining now).nanos : Int) =
      max (TimeScale.shiftTo now session.expiresAt).nanos 0 :=
  (TimeScale.shiftTo now session.expiresAt).nanos_toDuration?_getD

variable [DecidableLE τ] {session : AuthSession τ} {earlier later now : τ}

/-- A session that is expired stays so. -/
theorem isExpired_mono (ordered : earlier ≤ later) (expired : session.isExpired earlier = true) :
    session.isExpired later = true :=
  isExpired_iff.mpr (TimeScale.le_trans (isExpired_iff.mp expired) ordered)

theorem statusAt_mono (ordered : earlier ≤ later) (ended : session.statusAt earlier ≠ .pending) :
    session.statusAt later = session.statusAt earlier := by
  by_cases pending : session.status = .pending
  case neg => simp only [statusAt, pending, false_and, if_false]
  case pos =>
      by_cases expired : session.isExpired earlier = true
      · have still := isExpired_mono ordered expired
        simp only [statusAt, pending, expired, still]
      · simp [statusAt, pending, expired] at ended

theorem statusAt_eq_pending_of_le (ordered : earlier ≤ later)
    (pending : session.statusAt later = .pending) : session.statusAt earlier = .pending := by
  by_contra ended
  exact ended (statusAt_mono ordered ended ▸ pending)

end Scales

/-! ### Instants -/

/-- A session expires after its lifetime, or with the last instant if that comes first. -/
theorem nanos_expiresAt_start (id : String) (created : Instant) (lifetime : Duration) :
    (start id created lifetime).expiresAt.nanos =
      min (created.nanos + lifetime.nanos) Instant.last.nanos :=
  created.nanos_shift?_getD_last lifetime

/-! ### Times in UTC -/

open UtcTime

theorem start_ofInstant (id : String) (created : Instant) (lifetime : Duration) :
    start id (ofInstant created) lifetime = (start id created lifetime).map ofInstant := by
  have ends : ((ofInstant created).shift? (.ofDuration lifetime)).getD (ofInstant .last) =
      ofInstant ((created.shift? (.ofDuration lifetime)).getD .last) := by
    rw [shift?_ofInstant]
    cases created.shift? (.ofDuration lifetime) <;> rfl
  simp only [start, map, TimeScale.shift?, TimeScale.last, ends, Option.map_none]

theorem remaining_ofInstant (session : AuthSession Instant) (now : Instant) :
    (session.map ofInstant).remaining (ofInstant now) = session.remaining now :=
  congrArg (fun shift : Shift => shift.toDuration?.getD .zero)
    (shiftTo_ofInstant now session.expiresAt)

theorem isExpired_ofInstant (session : AuthSession Instant) (now : Instant) :
    (session.map ofInstant).isExpired (ofInstant now) = session.isExpired now := by
  rw [Bool.eq_iff_iff, isExpired_iff, isExpired_iff]
  exact ofInstant_le_iff

theorem statusAt_ofInstant (session : AuthSession Instant) (now : Instant) :
    (session.map ofInstant).statusAt (ofInstant now) = session.statusAt now := by
  unfold statusAt
  rw [isExpired_ofInstant]
  rfl

theorem nanos_remaining_of_steady {session : AuthSession UtcTime} {now : UtcTime}
    (ends : session.expiresAt.isLeap = false) (steady : now.isLeap = false) :
    ((session.remaining now).nanos : Int) = max (session.expiresAt.count - now.count) 0 := by
  rw [nanos_remaining_eq session now]
  exact congrArg (max · 0) (nanos_shiftTo_of_steady steady ends)

theorem remaining_eq_zero_iff {session : AuthSession UtcTime} {now : UtcTime}
    (distant : ¬ LeapBefore now session.expiresAt) (distant' : ¬ LeapBefore session.expiresAt now) :
    session.remaining now = .zero ↔ session.isExpired now = true := by
  have left := nanos_remaining_eq session now
  have due := shiftTo_nonpos_iff_le distant distant'
  change (TimeScale.shiftTo now session.expiresAt).nanos ≤ 0 ↔ _ at due
  rw [Duration.eq_zero_iff, isExpired_iff, ← due]
  omega

theorem start_of_steady (id : String) {created : UtcTime} (lifetime : Duration)
    (steady : created.isLeap = false) :
    (start id created lifetime).expiresAt.isLeap = false ∧
      (start id created lifetime).expiresAt.count =
        min (created.count + lifetime.nanos) (ofInstant .last).count := by
  obtain ⟨created, rfl⟩ := exists_ofInstant steady
  rw [start_ofInstant, count_ofInstant, count_ofInstant]
  refine ⟨isLeap_ofInstant _, ?_⟩
  rw [← nanos_expiresAt_start id created lifetime]
  exact count_ofInstant _

/-- A session that does not begin beyond the last instant does not end beyond it. -/
theorem start_expiresAt_cases (id : String) {created : UtcTime} (lifetime : Duration)
    (within : created ≤ ofInstant .last) :
    (start id created lifetime).expiresAt ≤ ofInstant .last ∧
      (created.shift? (.ofDuration lifetime) = some (start id created lifetime).expiresAt ∨
        created.shift? (.ofDuration lifetime) = none ∧
          (start id created lifetime).expiresAt = ofInstant .last) := by
  have ends : (start id created lifetime).expiresAt =
      (created.shift? (.ofDuration lifetime)).getD (ofInstant .last) := rfl
  rw [ends]
  cases led : created.shift? (.ofDuration lifetime) with
  | some later => exact ⟨le_last_of_shift? within led, .inl rfl⟩
  | none => exact ⟨ofInstant_le_iff.mpr (Int.le_refl _), .inr ⟨rfl, rfl⟩⟩

/-- A session that begins is pending and expires after its lifetime, or with the last instant if there is
none so much later.  The time that is left is the difference between now and then if that is positive, and
nothing is left just if the session is expired, except in a leap second at the end of a day and right after
it.  A session that does not read as pending any more reads the same ever after.  The sessions on the scale
of instants are those apart from leap seconds. -/
theorem sessions_keep_time :
    (∀ id (created : UtcTime) lifetime,
      let session := start id created lifetime
      session.status = .pending ∧ session.createdAt = created ∧
        (created.isLeap = false → session.expiresAt.isLeap = false ∧
          session.expiresAt.count = min (created.count + lifetime.nanos) (ofInstant .last).count) ∧
        (created ≤ ofInstant .last → session.expiresAt ≤ ofInstant .last ∧
          (created.shift? (.ofDuration lifetime) = some session.expiresAt ∨
            created.shift? (.ofDuration lifetime) = none ∧
              session.expiresAt = ofInstant .last))) ∧
    (∀ (session : AuthSession UtcTime) (now : UtcTime),
      ((session.remaining now).nanos : Int) = max (now.shiftTo session.expiresAt).nanos 0 ∧
        (session.expiresAt.isLeap = false → now.isLeap = false →
          ((session.remaining now).nanos : Int) = max (session.expiresAt.count - now.count) 0) ∧
        (¬ LeapBefore now session.expiresAt → ¬ LeapBefore session.expiresAt now →
          (session.remaining now = .zero ↔ session.isExpired now = true))) ∧
    (∀ (session : AuthSession UtcTime) (earlier later : UtcTime), earlier ≤ later →
      session.statusAt earlier ≠ .pending → session.statusAt later = session.statusAt earlier) ∧
    ∀ (session : AuthSession Instant) (now : Instant),
      (session.map ofInstant).remaining (ofInstant now) = session.remaining now ∧
        (session.map ofInstant).statusAt (ofInstant now) = session.statusAt now ∧
        ∀ id lifetime, start id (ofInstant now) lifetime = (start id now lifetime).map ofInstant := by
  refine ⟨?_, ?_, ?_, ?_⟩
  · intro id created lifetime
    exact ⟨rfl, rfl, start_of_steady id lifetime, start_expiresAt_cases id lifetime⟩
  · intro session now
    exact ⟨nanos_remaining_eq session now, nanos_remaining_of_steady, remaining_eq_zero_iff⟩
  · intro session earlier later ordered ended
    exact statusAt_mono ordered ended
  · intro session now
    exact ⟨remaining_ofInstant session now, statusAt_ofInstant session now,
      fun id lifetime => start_ofInstant id now lifetime⟩

/-- Half a second into the leap second at the end of 2016. -/
def leapMoment : UtcTime := ⟨1483228799, 1500000000, by decide⟩

/-- In a leap second a session may have no time left that is not expired yet. -/
theorem no_time_left_before_expiry :
    let created : UtcTime := ⟨1483228200, 200000000, by decide⟩
    let session := start "s1" created (.ofSeconds 600)
    session.expiresAt = ⟨1483228800, 200000000, by decide⟩ ∧
      session.remaining leapMoment = .zero ∧ session.isExpired leapMoment = false ∧
      ¬ (session.remaining leapMoment = .zero ↔ session.isExpired leapMoment = true) := by
  intro created session
  have left : session.remaining leapMoment = .zero := by decide
  have unexpired : session.isExpired leapMoment = false := by decide
  refine ⟨by decide, left, unexpired, ?_⟩
  rw [unexpired]
  exact fun same => Bool.false_ne_true (same.mp left)

/-- A session whose lifetime is the longest lasts from the first instant to the last, and one of ten minutes
is expired from then on. -/
theorem longest_session_keeps_time :
    let longest : Duration := ⟨18446744073709551615999999999, by decide⟩
    let first : UtcTime := ofInstant ⟨Instant.least, by decide⟩
    let deadline : UtcTime := ⟨600, 0, by decide⟩
    let long := start "s1" first longest
    let short := start "s2" (ofInstant .epoch) (.ofSeconds 600)
    long.expiresAt.count = Instant.last.nanos ∧
      (long.remaining first).nanos = 16544868105599999999999 ∧
      long.remaining (ofInstant .last) = .zero ∧
      deadline ≤ ofInstant .last ∧ short.statusAt deadline ≠ .pending ∧
      short.statusAt (ofInstant .last) = .expired := by
  intro longest first deadline long short
  obtain ⟨begins, left, stays, -⟩ := sessions_keep_time
  obtain ⟨-, -, expires, -⟩ := begins "s1" first longest
  have ended : short.statusAt deadline = .expired := by decide
  have notPending : short.statusAt deadline ≠ .pending := by decide
  have ordered : deadline ≤ ofInstant .last := by decide
  obtain ⟨steady, ends⟩ := expires (isLeap_ofInstant _)
  have ends : long.expiresAt.count = Instant.last.nanos := ends.trans (by decide)
  have atFirst := (left long first).2.1 steady (isLeap_ofInstant _)
  have late := (left long (ofInstant .last)).2.2 (by decide) (by decide)
  refine ⟨ends, ?_, late.mpr (by decide), ordered, notPending, ?_⟩
  · rw [ends] at atFirst
    exact Int.ofNat.inj (atFirst.trans (by decide))
  · exact (stays short deadline (ofInstant .last) ordered notPending).trans ended

end BackupClient.AuthSession
