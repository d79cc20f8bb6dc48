import BackupClient.Time.Shift

/-!
Shifts by durations, and shifts between instants.

A duration that is too long for a shift leads out of the range of instants from wherever it begins.  So it
makes no difference that it is cut to the longest shift, and what is reckoned with instants and durations is
exact as long as its result is an instant or a duration.
-/

namespace BackupClient

theorem Duration.eq_zero_iff {duration : Duration} : duration = .zero ↔ duration.nanos = 0 := by
  obtain ⟨nanos, _⟩ := duration
  simp only [zero, mk.injEq]

theorem Shift.nanos_ofDuration (duration : Duration) :
    (ofDuration duration).nanos = min (duration.nanos : Int) greatest := by
  unfold ofDuration ofDuration?
  split
  case isTrue fits => exact (Int.min_eq_left fits).symm
  case isFalse tooLong => exact (Int.min_eq_right (Int.le_of_lt (Int.not_le.mp tooLong))).symm

/-- A shift that does not go back has a duration, of the same length. -/
theorem Shift.nanos_toDuration?_getD (shift : Shift) :
    ((shift.toDuration?.getD .zero).nanos : Int) = max shift.nanos 0 := by
  unfold toDuration?
  split
  case isTrue forward =>
      rw [Option.getD_some, Int.toNat_of_nonneg forward, Int.max_eq_left forward]
  case isFalse back =>
      exact (Int.max_eq_right (Int.le_of_lt (Int.not_le.mp back))).symm

namespace Instant

variable {instant later : Instant} {duration : Duration}

theorem le_iff : instant ≤ later ↔ instant.nanos ≤ later.nanos := Iff.rfl

theorem ofNanos?_eq_some_iff {nanos : Int} : ofNanos? nanos = some instant ↔ instant.nanos = nanos := by
  unfold ofNanos?
  split
  case isTrue =>
      obtain ⟨_, _⟩ := instant
      simp only [Option.some.injEq, mk.injEq]
      exact eq_comm
  case isFalse outside =>
      refine iff_of_false (fun none => nomatch none) fun same => outside ?_
      exact same ▸ instant.inRange

theorem ofNanos?_eq_none_iff {nanos : Int} :
    ofNanos? nanos = none ↔ nanos < least ∨ greatest < nanos := by
  unfold ofNanos?
  split
  case isTrue inside => exact iff_of_false (fun none => nomatch none) (by omega)
  case isFalse outside => exact iff_of_true rfl (by omega)

/-- The longest shift leads out of the range, even from the first instant. -/
theorem greatest_lt_add_longest (instant : Instant) : greatest < instant.nanos + Shift.greatest := by
  have first := instant.inRange.1
  simp only [least, greatest, Shift.greatest] at *
  omega

theorem shift?_ofDuration_eq_some_iff :
    instant.shift? (.ofDuration duration) = some later ↔
      later.nanos = instant.nanos + duration.nanos := by
  have far := greatest_lt_add_longest instant
  have last := later.inRange.2
  rw [shift?, ofNanos?_eq_some_iff, Shift.nanos_ofDuration]
  omega

/-- A shift by a duration leads nowhere just if there is no instant so much later. -/
theorem shift?_ofDuration_eq_none_iff :
    instant.shift? (.ofDuration duration) = none ↔
      greatest < instant.nanos + duration.nanos := by
  have far := greatest_lt_add_longest instant
  have first := instant.inRange.1
  rw [shift?, ofNanos?_eq_none_iff, Shift.nanos_ofDuration]
  omega

theorem nanos_shift?_getD_last (instant : Instant) (duration : Duration) :
    ((instant.shift? (.ofDuration duration)).getD last).nanos =
      min (instant.nanos + duration.nanos) last.nanos := by
  cases led : instant.shift? (.ofDuration duration) with
  | some later =>
      have reached := shift?_ofDuration_eq_some_iff.mp led
      rw [Option.getD_some, ← reached]
      exact (Int.min_eq_left later.inRange.2).symm
  | none =>
      have beyond := shift?_ofDuration_eq_none_iff.mp led
      exact (Int.min_eq_right (Int.le_of_lt beyond)).symm

end Instant

end BackupClient
