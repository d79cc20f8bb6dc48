/-!
When something that runs is cancelled.
-/

namespace BackupClient

/-- The time of a cancellation: never, before the start, or some milliseconds after it. -/
inductive Cancellation where
  | never
  | before
  | after (delay : Nat)
  deriving DecidableEq, Repr

def Cancellation.moment? (cancellation : Cancellation) (start : Nat) : Option Nat :=
  match cancellation with
  | .after delay => some (start + delay)
  | _ => none

end BackupClient
