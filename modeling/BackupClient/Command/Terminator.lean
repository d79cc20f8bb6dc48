import BackupClient.Text.Decimal

/-!
Signals to groups of processes.

A group is named by the number of the process that leads it.
-/

namespace BackupClient

/-- Why a group cannot be signalled: its number is none that a process can have, or there is no such
group. -/
inductive TerminatorError where
  | invalidNumber (process : Nat)
  | noSuchGroup
  deriving DecidableEq, Repr

namespace TerminatorError

def message : TerminatorError → String
  | .invalidNumber process => "invalid pid " ++ Text.Decimal.text process
  | .noSuchGroup => "No such process (os error 3)"

def name : TerminatorError → String
  | .invalidNumber _ => "InvalidInput"
  | .noSuchGroup => "Os"

end TerminatorError

/-- The group that is signalled, given the groups that there are. -/
def signalledGroup (groups : List Nat) (process : Nat) : Except TerminatorError Nat :=
  if Nat.pow 2 31 ≤ process then .error (.invalidNumber process)
  else if groups.contains process then .ok process
  else .error .noSuchGroup

end BackupClient
