import BackupClient.Number.Binary64
import BackupClient.Time.Instant

/-!
Times and durations as doubles that count seconds.

The whole seconds and the rest are converted apart.  Each step rounds to the nearest double, so the
result is the one that a floating-point unit would give.
-/

namespace BackupClient

def billion : Binary64 :=
  Binary64.ofNat 1000000000

def Instant.ofEpoch? (seconds : Binary64) : Option Instant := do
  let whole ← seconds.floor?
  let rest := seconds.add (Binary64.ofInt (-whole))
  let nanos ← (rest.mul billion).roundHalfUp?
  Instant.ofNanos? (whole * 1000000000 + min nanos 999999999)

def Instant.toEpoch (instant : Instant) : Binary64 :=
  (Binary64.ofInt instant.seconds).add ((Binary64.ofNat instant.subsecond).div billion)

/-- The duration of a number of seconds, to the nearest nanosecond and to the even one at a tie. -/
def Duration.ofSecondsDouble? (seconds : Binary64) : Option Duration :=
  match seconds.view with
  | .finite negative mantissa scale =>
      if negative ∧ mantissa ≠ 0 then none
      else
        Duration.ofNanos?
          (Binary64.roundDiv (mantissa * 1000000000 * Nat.pow 2 scale.toNat) (Nat.pow 2 (-scale).toNat))
  | _ => none

def Duration.toSecondsDouble (duration : Duration) : Binary64 :=
  (Binary64.ofNat duration.seconds).add ((Binary64.ofNat duration.subsecond).div billion)

end BackupClient
