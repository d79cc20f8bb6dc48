import BackupClient.Time.Shift

/-!
A wall clock that is moved by hand.
-/

namespace BackupClient

structure Clock where
  now : Instant
  deriving DecidableEq, Repr

namespace Clock

/-- Move the clock forward, unless that leaves the range of instants. -/
def advance (clock : Clock) (duration : Duration) : Clock :=
  match clock.now.shift? (.ofDuration duration) with
  | some later => ⟨later⟩
  | none => clock

def set (_clock : Clock) (instant : Instant) : Clock :=
  ⟨instant⟩

end Clock

end BackupClient
