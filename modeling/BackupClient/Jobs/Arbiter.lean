import BackupClient.Operation

/-!
The arbiter: at most one operation at a time works on a repository.

Two records are kept, the operations that run and the holder of each repository.  A reservation ends when
its guard is released or dropped, or when its operation is released by name.
-/

namespace BackupClient

inductive ArbiterError where
  | alreadyRunning (operation : Operation)
  | repositoryBusy (repository : Int) (holder : Operation)
  deriving DecidableEq, Repr

def ArbiterError.message : ArbiterError → String
  | .alreadyRunning operation =>
      operation.kind.name ++ " is already running for " ++ operation.id.display
  | .repositoryBusy repository holder =>
      "repository " ++ Text.Decimal.intText repository ++ " is busy with a " ++ holder.kind.name ++
        " for " ++ holder.id.display

/-- The operations that run, and who holds each repository. -/
structure Arbiter where
  running : List Operation
  occupied : List (Int × Operation)
  deriving DecidableEq, Repr

namespace Arbiter

def idle : Arbiter :=
  ⟨[], []⟩

def isRunning (arbiter : Arbiter) (operation : Operation) : Bool :=
  arbiter.running.contains operation

def holder? (arbiter : Arbiter) (repository : Int) : Option Operation :=
  (arbiter.occupied.find? (·.1 = repository)).map (·.2)

def isOccupied (arbiter : Arbiter) (repository : Int) : Bool :=
  (arbiter.holder? repository).isSome

def reserve (arbiter : Arbiter) (operation : Operation) : Except ArbiterError Arbiter :=
  if arbiter.isRunning operation then .error (.alreadyRunning operation)
  else
    match arbiter.holder? operation.id.repository with
    | some holder => .error (.repositoryBusy operation.id.repository holder)
    | none =>
        .ok ⟨operation :: arbiter.running, (operation.id.repository, operation) :: arbiter.occupied⟩

/-- End an operation, and free its repository if it is the holder.  The answer is whether it ran. -/
def release (arbiter : Arbiter) (operation : Operation) : Bool × Arbiter :=
  if arbiter.isRunning operation then
    (true,
      ⟨arbiter.running.filter (· ≠ operation),
        if arbiter.holder? operation.id.repository = some operation then
          arbiter.occupied.filter (·.1 ≠ operation.id.repository)
        else arbiter.occupied⟩)
  else (false, arbiter)

def display (arbiter : Arbiter) : String :=
  "Arbiter \x7b running: " ++ Text.Decimal.text arbiter.running.length ++ " \x7d"

end Arbiter

/-- A guard, which ends its reservation once. -/
structure Reservation where
  operation : Operation
  released : Bool
  deriving DecidableEq, Repr

def Reservation.finish (reservation : Reservation) (arbiter : Arbiter) : Reservation × Arbiter :=
  if reservation.released then (reservation, arbiter)
  else ({ reservation with released := true }, (arbiter.release reservation.operation).2)

/-- An arbiter together with all guards it ever granted, the oldest first. -/
structure GuardedArbiter where
  arbiter : Arbiter
  guards : List Reservation
  deriving DecidableEq, Repr

inductive ArbiterEvent where
  | reserve (operation : Operation)
  | release (operation : Operation)
  | finish (guard : Nat)
  deriving DecidableEq, Repr

namespace GuardedArbiter

def idle : GuardedArbiter :=
  ⟨Arbiter.idle, []⟩

def reserve (state : GuardedArbiter) (operation : Operation) :
    Except ArbiterError (Nat × GuardedArbiter) :=
  (state.arbiter.reserve operation).map fun arbiter =>
    (state.guards.length, ⟨arbiter, state.guards ++ [⟨operation, false⟩]⟩)

def release (state : GuardedArbiter) (operation : Operation) : Bool × GuardedArbiter :=
  let (ran, arbiter) := state.arbiter.release operation
  (ran, { state with arbiter := arbiter })

def finish (state : GuardedArbiter) (guard : Nat) : GuardedArbiter :=
  match state.guards[guard]? with
  | some reservation =>
      let (reservation, arbiter) := reservation.finish state.arbiter
      ⟨arbiter, state.guards.set guard reservation⟩
  | none => state

def step (state : GuardedArbiter) : ArbiterEvent → GuardedArbiter
  | .reserve operation =>
      match state.reserve operation with
      | .ok (_, next) => next
      | .error _ => state
  | .release operation => (state.release operation).2
  | .finish guard => state.finish guard

def run (state : GuardedArbiter) (events : List ArbiterEvent) : GuardedArbiter :=
  events.foldl step state

end GuardedArbiter

end BackupClient
