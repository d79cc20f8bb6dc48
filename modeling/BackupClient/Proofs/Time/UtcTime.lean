import BackupClient.Proofs.Time.Shift
import BackupClient.Time.UtcTime

/-!
Leap seconds apart.

The times that lie in no leap second are the instants: they are in the same order, shifts lead from one to
another in the same way, and the differences are the same.  Of other times, order and difference disagree
around midnight.
-/

namespace BackupClient.UtcTime

variable {time : UtcTime} {start stop : Instant}

theorem isLeap_ofInstant (instant : Instant) : (ofInstant instant).isLeap = false := by
  apply decide_eq_false
  simp only [ofInstant]
  omega

theorem count_ofInstant (instant : Instant) : (ofInstant instant).count = instant.nanos := by
  simp only [count, ofInstant]
  omega

theorem exists_ofInstant (steady : time.isLeap = false) : ∃ instant, time = ofInstant instant := by
  obtain ⟨second, nanos, inRange⟩ := time
  have within := inRange
  have fraction : nanos < 1000000000 := by simpa [isLeap] using steady
  refine ⟨⟨second * 1000000000 + nanos, ?_⟩, ?_⟩
  · simp only [Instant.least, Instant.greatest] at within ⊢
    omega
  · simp only [ofInstant, mk.injEq]
    omega

theorem ofInstant_le_iff : ofInstant start ≤ ofInstant stop ↔ start ≤ stop := by
  rw [le_iff, Instant.le_iff]
  simp only [ofInstant]
  omega

theorem shift?_ofInstant (instant : Instant) (shift : Shift) :
    (ofInstant instant).shift? shift = (instant.shift? shift).map ofInstant := by
  have steady : ¬ ((ofInstant instant).isLeap ∧ -1000000000 < shift.nanos) := by
    rw [isLeap_ofInstant]
    exact fun leap => Bool.false_ne_true leap.1
  rw [UtcTime.shift?, dif_neg steady, count_ofInstant]
  rfl

theorem nanos_shiftTo_of_steady {start stop : UtcTime} (begins : start.isLeap = false)
    (ends : stop.isLeap = false) : (start.shiftTo stop).nanos = stop.count - start.count := by
  simp [shiftTo, leapBetween, begins, ends]

theorem shiftTo_ofInstant (start stop : Instant) :
    (ofInstant start).shiftTo (ofInstant stop) = start.shiftTo stop := by
  have apart := nanos_shiftTo_of_steady (isLeap_ofInstant start) (isLeap_ofInstant stop)
  rw [count_ofInstant, count_ofInstant] at apart
  simp only [Instant.shiftTo, ← apart]

/-- The earlier time lies in a leap second at the end of a day, the later one in the second after it. -/
def LeapBefore (earlier later : UtcTime) : Prop :=
  earlier.isLeap = true ∧ later.second = earlier.second + 1 ∧ later.secondOfDay = 0

instance (earlier later : UtcTime) : Decidable (LeapBefore earlier later) :=
  inferInstanceAs (Decidable (_ ∧ _ ∧ _))

/-- A time in a leap second at the end of a day may count on beyond one in the second after it.  Of all
other times, the difference has the sign that their order says. -/
theorem shiftTo_nonpos_iff_le {start stop : UtcTime} (distant : ¬ LeapBefore start stop)
    (distant' : ¬ LeapBefore stop start) : (start.shiftTo stop).nanos ≤ 0 ↔ stop ≤ start := by
  have := start.inRange.2.2
  have := stop.inRange.2.2
  simp only [LeapBefore, isLeap, secondOfDay, decide_eq_true_eq] at distant distant'
  simp only [le_iff, shiftTo, leapBetween, count, secondOfDay, isLeap, decide_eq_true_eq]
  split
  · omega
  · split <;> omega

theorem ofCount?_le_last {nanos : Int} (counted : ofCount? nanos = some time) :
    time ≤ ofInstant .last := by
  obtain ⟨instant, -, rfl⟩ := Option.map_eq_some_iff.mp counted
  exact ofInstant_le_iff.mpr instant.inRange.2

/-- No shift leads beyond the last instant that does not begin there. -/
theorem le_last_of_shift? {later : UtcTime} {shift : Shift} (within : time ≤ ofInstant .last)
    (led : time.shift? shift = some later) : later ≤ ofInstant .last := by
  unfold UtcTime.shift? at led
  split at led
  case isTrue leap =>
      split at led
      case isTrue =>
          obtain rfl := Option.some.inj led
          have leap : 1000000000 ≤ time.nanos := of_decide_eq_true leap.1
          rw [le_iff] at within ⊢
          simp only [ofInstant, Instant.last, Instant.greatest] at *
          omega
      case isFalse => exact ofCount?_le_last led
  case isFalse => exact ofCount?_le_last led

end BackupClient.UtcTime
