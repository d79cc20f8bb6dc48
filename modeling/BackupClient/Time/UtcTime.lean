import BackupClient.Time.Shift

/-!
Times in UTC, leap seconds included.

A time in a leap second counts on from the second before it, so that it has a thousand million nanoseconds or
more.  Times are in order of their seconds first.  A shift knows of the leap second that it begins in, and a
difference of one at its earlier end, as far as the times of day tell which end is the earlier.
-/

namespace BackupClient

structure UtcTime where
  second : Int
  nanos : Nat
  inRange : Instant.least ≤ second * 1000000000 ∧ second * 1000000000 ≤ Instant.greatest ∧
    nanos < 2000000000 := by decide
  deriving DecidableEq, Repr

namespace UtcTime

/-- The time of a second and its nanoseconds, where only the last second of a minute may be a leap second. -/
def ofParts? (second : Int) (nanos : Nat) : Option UtcTime :=
  if parts : Instant.least ≤ second * 1000000000 ∧ second * 1000000000 ≤ Instant.greatest ∧
      nanos < 2000000000 ∧ (nanos < 1000000000 ∨ second % 60 = 59) then
    some ⟨second, nanos, parts.1, parts.2.1, parts.2.2.1⟩
  else none

def isLeap (time : UtcTime) : Bool :=
  1000000000 ≤ time.nanos

/-- The nanoseconds since the start of 1970, as if no leap second had been counted. -/
def count (time : UtcTime) : Int :=
  time.second * 1000000000 + time.nanos

def secondOfDay (time : UtcTime) : Int :=
  time.second % 86400

def ofInstant (instant : Instant) : UtcTime where
  second := instant.nanos / 1000000000
  nanos := (instant.nanos % 1000000000).toNat
  inRange := by
    have := instant.inRange
    simp only [Instant.least, Instant.greatest] at *
    omega

def ofCount? (nanos : Int) : Option UtcTime :=
  (Instant.ofNanos? nanos).map ofInstant

/-- Where a shift leads, unless that is out of range.  A leap second is left or not. -/
def shift? (time : UtcTime) (shift : Shift) : Option UtcTime :=
  if leap : time.isLeap ∧ -1000000000 < shift.nanos then
    if within : time.nanos + shift.nanos < 2000000000 then
      some { time with
        nanos := (time.nanos + shift.nanos).toNat
        inRange := by
          have := time.inRange
          omega }
    else ofCount? (time.count - 1000000000 + shift.nanos)
  else ofCount? (time.count + shift.nanos)

/-- The nanoseconds of a leap second that lies between two times of day. -/
def leapBetween (start stop : UtcTime) : Int :=
  if start.secondOfDay < stop.secondOfDay ∧ start.isLeap then 1000000000
  else if stop.secondOfDay < start.secondOfDay ∧ stop.isLeap then -1000000000
  else 0

theorem leapBetween_bounds (start stop : UtcTime) :
    -1000000000 ≤ leapBetween start stop ∧ leapBetween start stop ≤ 1000000000 := by
  unfold leapBetween
  split
  · omega
  · split <;> omega

def shiftTo (start stop : UtcTime) : Shift where
  nanos := stop.count - start.count + leapBetween start stop
  inRange := by
    have := start.inRange
    have := stop.inRange
    have := leapBetween_bounds start stop
    simp only [count, Instant.least, Instant.greatest, Shift.greatest] at *
    omega

instance : LE UtcTime :=
  ⟨fun earlier later => earlier.second < later.second ∨
    earlier.second = later.second ∧ earlier.nanos ≤ later.nanos⟩

instance (earlier later : UtcTime) : Decidable (earlier ≤ later) :=
  inferInstanceAs (Decidable (earlier.second < later.second ∨
    earlier.second = later.second ∧ earlier.nanos ≤ later.nanos))

theorem le_iff {earlier later : UtcTime} : earlier ≤ later ↔
    earlier.second < later.second ∨ earlier.second = later.second ∧ earlier.nanos ≤ later.nanos :=
  Iff.rfl

instance : TimeScale UtcTime where
  last := ofInstant .last
  shift? := shift?
  shiftTo := shiftTo
  le_trans := by
    intro first second third before after
    rw [le_iff] at *
    omega

end UtcTime

end BackupClient
