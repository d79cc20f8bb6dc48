/-!
Instants and durations, to the nanosecond.

An instant counts nanoseconds since the start of 1970 in UTC and lies within the years -262143 to
262142.  A duration is shorter than `2 ^ 64` seconds.
-/

namespace BackupClient

def nanosPerSecond : Nat := 1000000000

structure Duration where
  nanos : Nat
  inRange : nanos < Nat.pow 2 64 * 1000000000 := by decide
  deriving DecidableEq, Repr

namespace Duration

def zero : Duration := ⟨0, by decide⟩

instance : Inhabited Duration := ⟨zero⟩

def ofNanos? (nanos : Nat) : Option Duration :=
  if inRange : nanos < Nat.pow 2 64 * 1000000000 then some ⟨nanos, inRange⟩ else none

/-- A number of whole seconds below `2 ^ 32`. -/
def ofSeconds (seconds : UInt32) : Duration :=
  ⟨seconds.toNat * 1000000000, by
    have := seconds.toNat_lt
    rw [Nat.pow_eq]
    omega⟩

def seconds (duration : Duration) : Nat :=
  duration.nanos / nanosPerSecond

/-- The nanoseconds beyond the whole seconds. -/
def subsecond (duration : Duration) : Nat :=
  duration.nanos % nanosPerSecond

end Duration

/-- The first instant, in nanoseconds. -/
def Instant.least : Int := -8334601228800 * 1000000000

/-- The last instant, in nanoseconds. -/
def Instant.greatest : Int := 8210266876799 * 1000000000 + 999999999

structure Instant where
  nanos : Int
  inRange : Instant.least ≤ nanos ∧ nanos ≤ Instant.greatest := by decide
  deriving DecidableEq, Repr

namespace Instant

def epoch : Instant := ⟨0, by decide⟩

instance : Inhabited Instant := ⟨epoch⟩

def last : Instant := ⟨greatest, by decide⟩

def ofNanos? (nanos : Int) : Option Instant :=
  if inRange : least ≤ nanos ∧ nanos ≤ greatest then some ⟨nanos, inRange⟩ else none

/-- The whole seconds since the epoch, rounded down. -/
def seconds (instant : Instant) : Int :=
  instant.nanos.fdiv nanosPerSecond

def subsecond (instant : Instant) : Nat :=
  (instant.nanos.fmod nanosPerSecond).toNat

instance : LE Instant := ⟨fun left right => left.nanos ≤ right.nanos⟩

instance : LT Instant := ⟨fun left right => left.nanos < right.nanos⟩

instance (left right : Instant) : Decidable (left ≤ right) :=
  inferInstanceAs (Decidable (left.nanos ≤ right.nanos))

instance (left right : Instant) : Decidable (left < right) :=
  inferInstanceAs (Decidable (left.nanos < right.nanos))

end Instant

end BackupClient
