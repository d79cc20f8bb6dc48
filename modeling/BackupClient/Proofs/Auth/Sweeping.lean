import BackupClient.Proofs.Auth.SessionTime

/-!
What sweeping forgets, and what it leaves.

A session is due when it does not read as pending and the delay after its end is over.  What is due stays
due, and so it does not matter how often a registry was swept before.
-/

namespace BackupClient

namespace AuthSession

variable {session : AuthSession Instant} {delay : Duration} {earlier later now : Instant}

/-- When a session was finished, or else when it expires. -/
def endsAt (session : AuthSession Instant) : Instant :=
  session.finishedAt.getD session.expiresAt

/-- A session is due to be forgotten: it does not read as pending, and its end and the delay are over. -/
structure IsDue (delay : Duration) (now : Instant) (session : AuthSession Instant) : Prop where
  ended : session.statusAt now ≠ .pending
  delayed : session.endsAt.nanos + delay.nanos ≤ now.nanos

instance (delay : Duration) (now : Instant) : DecidablePred (IsDue delay now) := fun session =>
  decidable_of_iff
    (session.statusAt now ≠ .pending ∧ session.endsAt.nanos + delay.nanos ≤ now.nanos)
    ⟨fun parts => ⟨parts.1, parts.2⟩, fun due => ⟨due.ended, due.delayed⟩⟩

theorem IsDue.mono (ordered : earlier ≤ later) (due : session.IsDue delay earlier) :
    session.IsDue delay later where
  ended := by
    rw [statusAt_mono ordered due.ended]
    exact due.ended
  delayed := Int.le_trans due.delayed ordered

/-- A session whose delay leads beyond the last instant is never due. -/
theorem not_isDue_of_beyond (beyond : Instant.last.nanos < session.endsAt.nanos + delay.nanos) :
    ¬ session.IsDue delay now :=
  fun due => Int.not_le.mpr beyond (Int.le_trans due.delayed now.inRange.2)

end AuthSession

namespace Registry

variable {registry : Registry} {earlier later now : Instant} {entry : String × AuthSession Instant}

theorem isForgotten_iff {session : AuthSession Instant} :
    registry.isForgotten now session = true ↔ session.IsDue registry.collectionDelay now := by
  simp only [isForgotten, decide_eq_true_eq, Option.any_eq_true]
  constructor
  · rintro ⟨ended, forgetting, led, passed⟩
    have reached := Instant.shift?_ofDuration_eq_some_iff.mp led
    exact ⟨ended, reached ▸ Instant.le_iff.mp passed⟩
  · rintro ⟨ended, delayed⟩
    refine ⟨ended, ?_⟩
    cases led : session.endsAt.shift? (.ofDuration registry.collectionDelay) with
    | some forgetting =>
        have reached := Instant.shift?_ofDuration_eq_some_iff.mp led
        exact ⟨forgetting, led, Instant.le_iff.mpr (reached ▸ delayed)⟩
    | none =>
        have beyond := Instant.shift?_ofDuration_eq_none_iff.mp led
        exact absurd (Int.le_trans delayed now.inRange.2) (Int.not_le.mpr beyond)

/-- Sweeping leaves what is not due, as it was. -/
theorem sweep_snd (registry : Registry) (now : Instant) :
    (registry.sweep now).2 =
      { registry with
        sessions := registry.sessions.filter fun entry =>
          ¬ entry.2.IsDue registry.collectionDelay now } := by
  have same (session : AuthSession Instant) :
      registry.isForgotten now session = decide (session.IsDue registry.collectionDelay now) := by
    rw [Bool.eq_iff_iff, isForgotten_iff, decide_eq_true_iff]
  simp only [sweep, same, decide_not]

theorem sweep_fst (registry : Registry) (now : Instant) :
    (registry.sweep now).1 =
      registry.sessions.countP fun entry => entry.2.IsDue registry.collectionDelay now := by
  have told : (registry.sweep now).1 =
      registry.sessions.length - (registry.sweep now).2.sessions.length := rfl
  have parts := registry.sessions.length_eq_countP_add_countP fun entry =>
    entry.2.IsDue registry.collectionDelay now
  simp only [decide_eq_true_eq] at parts
  rw [told, sweep_snd, ← List.countP_eq_length_filter]
  omega

theorem mem_sweep_iff :
    entry ∈ (registry.sweep now).2.sessions ↔
      entry ∈ registry.sessions ∧ ¬ entry.2.IsDue registry.collectionDelay now := by
  simp [sweep_snd]

/-- What was due before is due still, so that an earlier sweep makes no difference to a later one. -/
theorem sweep_sweep (registry : Registry) (ordered : earlier ≤ later) :
    ((registry.sweep earlier).2.sweep later).2 = (registry.sweep later).2 := by
  simp only [sweep_snd, List.filter_filter]
  congr 1
  apply List.filter_congr
  intro entry _
  by_cases due : entry.2.IsDue registry.collectionDelay earlier
  · simp [due.mono ordered]
  · simp [due]

/-! ### Sweeping again and again -/

/-- Sweeps before, in whatever order, make no difference, by induction on them. -/
theorem sweep_run_sweeps (times : List Instant) (before : ∀ time ∈ times, time ≤ now) :
    ((registry.run (times.map .sweep)).sweep now).2 = (registry.sweep now).2 := by
  induction times generalizing registry with
  | nil => rfl
  | cons time times inductionHypothesis =>
      obtain ⟨first, others⟩ := List.forall_mem_cons.mp before
      calc ((registry.run ((time :: times).map .sweep)).sweep now).2
          = (((registry.sweep time).2.run (times.map .sweep)).sweep now).2 := rfl
        _ = ((registry.sweep time).2.sweep now).2 := inductionHypothesis others
        _ = (registry.sweep now).2 := registry.sweep_sweep first

/-- A session that still reads as pending has not been forgotten, by induction on the sweeps. -/
theorem mem_run_sweeps_of_pending (times : List Instant) (before : ∀ time ∈ times, time ≤ now)
    (member : entry ∈ registry.sessions) (pending : entry.2.statusAt now = .pending) :
    entry ∈ (registry.run (times.map .sweep)).sessions := by
  induction times generalizing registry with
  | nil => exact member
  | cons time times inductionHypothesis =>
      obtain ⟨first, others⟩ := List.forall_mem_cons.mp before
      apply inductionHypothesis others
      have still := AuthSession.statusAt_eq_pending_of_le first pending
      exact mem_sweep_iff.mpr ⟨member, fun due => due.ended still⟩

/-- Sweeping takes out exactly the sessions that are due, that is, do not read as pending and have their
end and the delay behind them, and tells how many these are; all others stay as they are.  A session
whose delay leads beyond the last instant stays for ever.  Sweeps before make no difference to what a sweep
leaves, and none of them loses a session that still reads as pending. -/
theorem sweeps_forget_what_is_due (registry : Registry) :
    (∀ now : Instant,
      (registry.sweep now).1 =
          (registry.sessions.countP fun entry => entry.2.IsDue registry.collectionDelay now) ∧
        (registry.sweep now).2 =
          { registry with
            sessions := registry.sessions.filter fun entry =>
              ¬ entry.2.IsDue registry.collectionDelay now }) ∧
    (∀ entry ∈ registry.sessions,
      Instant.last.nanos < entry.2.endsAt.nanos + registry.collectionDelay.nanos →
        ∀ now, entry ∈ (registry.sweep now).2.sessions) ∧
    (∀ earlier later : Instant, earlier ≤ later →
      ((registry.sweep earlier).2.sweep later).2 = (registry.sweep later).2) ∧
    ∀ (times : List Instant) (now : Instant), (∀ time ∈ times, time ≤ now) →
      ((registry.run (times.map .sweep)).sweep now).2 = (registry.sweep now).2 ∧
        ∀ entry ∈ registry.sessions, entry.2.statusAt now = .pending →
          entry ∈ (registry.run (times.map .sweep)).sessions := by
  refine ⟨?_, ?_, ?_, ?_⟩
  · intro now
    exact ⟨registry.sweep_fst now, registry.sweep_snd now⟩
  · intro entry member beyond now
    exact mem_sweep_iff.mpr ⟨member, AuthSession.not_isDue_of_beyond beyond⟩
  · intro earlier later ordered
    exact registry.sweep_sweep ordered
  · intro times now before
    exact ⟨sweep_run_sweeps times before, fun entry member pending =>
      mem_run_sweeps_of_pending times before member pending⟩

/-- A session that is cancelled is forgotten just when its delay is over, one that is pending stays, and so
does one that was finished at the last instant. -/
theorem cancelled_session_is_forgotten :
    let soon : Instant := ⟨299000000000, by decide⟩
    let due : Instant := ⟨300000000000, by decide⟩
    let waiting := AuthSession.start "waiting" .epoch (.ofSeconds 600)
    let done : AuthSession Instant := { waiting with status := .cancelled, finishedAt := some .epoch }
    let late : AuthSession Instant := { waiting with status := .cancelled, finishedAt := some .last }
    let entries := [("done", done), ("waiting", waiting), ("late", late)]
    let registry : Registry := ⟨.ofSeconds 600, .ofSeconds 300, entries⟩
    let left : Registry := ⟨.ofSeconds 600, .ofSeconds 300, [("waiting", waiting), ("late", late)]⟩
    registry.sweep soon = (0, registry) ∧ registry.sweep due = (1, left) ∧
      soon ≤ due ∧
      ((registry.sweep soon).2.sweep due).2 = left ∧
      ("late", late) ∈ (registry.sweep .last).2.sessions ∧
      waiting.statusAt due = .pending ∧
      ("waiting", waiting) ∈ (registry.run [.sweep due, .sweep soon]).sessions := by
  intro soon due waiting done late entries registry left
  obtain ⟨-, stays, twice, often⟩ := sweeps_forget_what_is_due registry
  have ordered : soon ≤ due := by decide
  have swept : registry.sweep due = (1, left) := by decide
  have pending : waiting.statusAt due = .pending := by decide
  refine ⟨by decide, swept, ordered, ?_, ?_, pending, ?_⟩
  · rw [twice _ _ ordered, swept]
  · exact stays ("late", late) (by decide) (by decide) .last
  · exact (often [due, soon] due (by decide)).2 ("waiting", waiting) (by decide) pending

end Registry

end BackupClient
