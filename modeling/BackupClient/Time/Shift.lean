import BackupClient.Time.Instant

/-!
Shifts in time, forward or back, to the nanosecond.

A shift is of at most `2 ^ 63 - 1` milliseconds.  That is less than the longest duration and more than the
time between the first instant and the last.
-/

namespace BackupClient

/-- The length of the longest shifts, in nanoseconds. -/
def Shift.greatest : Int := 9223372036854775807 * 1000000

/-- A shift by a number of nanoseconds, back if it is negative. -/
structure Shift where
  nanos : Int
  inRange : -Shift.greatest ≤ nanos ∧ nanos ≤ Shift.greatest := by decide
  deriving DecidableEq, Repr

namespace Shift

def longest : Shift := ⟨greatest, by decide⟩

def ofDuration? (duration : Duration) : Option Shift :=
  if fits : (duration.nanos : Int) ≤ greatest then
    some ⟨duration.nanos, by
      have forward : -greatest ≤ 0 := by decide
      exact ⟨Int.le_trans forward (Int.natCast_nonneg _), fits⟩⟩
  else none

/-- The shift forward by a duration, and by as much as there can be if it is too long. -/
def ofDuration (duration : Duration) : Shift :=
  (ofDuration? duration).getD longest

def toDuration? (shift : Shift) : Option Duration :=
  if 0 ≤ shift.nanos then
    some ⟨shift.nanos.toNat, by
      have := shift.inRange
      simp only [greatest] at this
      rw [Nat.pow_eq]
      omega⟩
  else none

end Shift

namespace Instant

def shift? (instant : Instant) (shift : Shift) : Option Instant :=
  ofNanos? (instant.nanos + shift.nanos)

def shiftTo (start stop : Instant) : Shift :=
  ⟨stop.nanos - start.nanos, by
    have := start.inRange
    have := stop.inRange
    simp only [least, greatest, Shift.greatest] at *
    omega⟩

end Instant

/-- Times in order that can be shifted, up to a last one. -/
class TimeScale (τ : Type) extends LE τ where
  last : τ
  shift? : τ → Shift → Option τ
  shiftTo : τ → τ → Shift
  le_trans {first second third : τ} : first ≤ second → second ≤ third → first ≤ third

instance : TimeScale Instant where
  last := .last
  shift? := Instant.shift?
  shiftTo := Instant.shiftTo
  le_trans := Int.le_trans

end BackupClient
