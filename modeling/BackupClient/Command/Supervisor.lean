import BackupClient.Command.Basic
import BackupClient.Log.Notice
import BackupClient.Time.Timer

/-!
Supervising a process until it has exited and its output has ended.

A cancelled process is asked to stop, and killed when it takes longer than the grace.  Once it has exited
the same goes for processes that it has left behind and that keep its output open.
-/

namespace BackupClient

/-- What the supervisor waits for: the exit of the process, or the end of its output after that.  After a
request to stop there is a moment at which patience ends, and after a kill there is none. -/
inductive SupervisorPhase where
  | waiting
  | interrupted (deadline : Nat)
  | killed
  | draining
  | drainInterrupted (deadline : Nat)
  | drainKilled
  | returned
  deriving DecidableEq, Repr

/-- What happens around a supervised process.  The exit may be impossible to learn and the output
impossible to read. -/
inductive SupervisorEvent where
  | exited (result : Except String (Option Int))
  | outputEnded (failure : Option String)
  | cancelled
  | tick

/-- What a supervisor asks for: that the group of a process stops, that it is killed, or that the process
alone is killed. -/
inductive SupervisorRequest where
  | terminate (process : Nat)
  | forceKill (process : Nat)
  | killAlone (process : Nat)
  deriving DecidableEq, Repr

/-- The supervisor of one process: its grace and the last moment that its clock holds, in nanoseconds; how
the process ended and how reading its output ended, once they have; whether the run is cancelled; and whether
that had any effect. -/
structure Supervisor where
  process : Nat
  grace : Nat
  lastMoment : Nat
  phase : SupervisorPhase
  exit : Option (Except String (Option Int))
  output : Option (Option String)
  cancelled : Bool
  interfered : Bool

namespace Supervisor

def start (process grace lastMoment : Nat) : Supervisor :=
  ⟨process, grace, lastMoment, .waiting, none, none, false, false⟩

/-- The moment at which a grace is over that begins now. -/
def graceEnd (supervisor : Supervisor) (now : Nat) : Nat :=
  Timer.ending supervisor.lastMoment now supervisor.grace

def interruptDrain (supervisor : Supervisor) (now : Nat) : List SupervisorRequest × Supervisor :=
  ([.terminate supervisor.process],
    { supervisor with
      phase := .drainInterrupted (supervisor.graceEnd now), interfered := true })

/-- The process has exited: wait for the end of its output, unless the exit could not be learned. -/
def afterExit (supervisor : Supervisor) (now : Nat) : List SupervisorRequest × Supervisor :=
  match supervisor.exit, supervisor.output with
  | some (.error _), _ => ([], { supervisor with phase := .returned })
  | _, some _ => ([], { supervisor with phase := .returned })
  | _, none =>
      if supervisor.cancelled then supervisor.interruptDrain now
      else ([], { supervisor with phase := .draining })

def onExit (supervisor : Supervisor) (now : Nat) (result : Except String (Option Int)) :
    List SupervisorRequest × Supervisor :=
  match supervisor.phase with
  | .waiting | .interrupted _ | .killed => { supervisor with exit := some result }.afterExit now
  | _ => ([], supervisor)

def onOutput (supervisor : Supervisor) (failure : Option String) : Supervisor :=
  let supervisor := { supervisor with output := some (supervisor.output.getD failure) }
  match supervisor.phase with
  | .draining | .drainInterrupted _ | .drainKilled => { supervisor with phase := .returned }
  | _ => supervisor

def onCancel (supervisor : Supervisor) (now : Nat) : List SupervisorRequest × Supervisor :=
  match supervisor.phase with
  | .returned => ([], supervisor)
  | .waiting =>
      ([.terminate supervisor.process],
        { supervisor with
          phase := .interrupted (supervisor.graceEnd now), cancelled := true, interfered := true })
  | .draining => { supervisor with cancelled := true }.interruptDrain now
  | _ => ([], { supervisor with cancelled := true })

def onTick (supervisor : Supervisor) (now : Nat) : List SupervisorRequest × Supervisor :=
  match supervisor.phase with
  | .interrupted deadline =>
      if deadline ≤ now then
        ([.forceKill supervisor.process, .killAlone supervisor.process],
          { supervisor with phase := .killed })
      else ([], supervisor)
  | .drainInterrupted deadline =>
      if deadline ≤ now then
        ([.forceKill supervisor.process], { supervisor with phase := .drainKilled })
      else ([], supervisor)
  | _ => ([], supervisor)

def step (supervisor : Supervisor) (now : Nat) :
    SupervisorEvent → List SupervisorRequest × Supervisor
  | .exited result => supervisor.onExit now result
  | .outputEnded failure => ([], supervisor.onOutput failure)
  | .cancelled => supervisor.onCancel now
  | .tick => supervisor.onTick now

def notice? (before after : Supervisor) : Option Notice :=
  if before.phase = after.phase then none
  else
    match after.phase with
    | .killed =>
        some ⟨.warn, "process ignored interrupt, killing",
          [("grace_ms", .int (after.grace / 1000000))]⟩
    | .drainKilled =>
        some ⟨.warn, "output still open after interrupt, killing group",
          [("pid", .int after.process)]⟩
    | _ => none

def deadline? (supervisor : Supervisor) : Option Nat :=
  match supervisor.phase with
  | .interrupted deadline | .drainInterrupted deadline => some deadline
  | _ => none

def result? (supervisor : Supervisor) : Option (Except RunError ExitState) :=
  match supervisor.phase, supervisor.exit with
  | .returned, some (.error reason) => some (.error (.wait reason))
  | .returned, some (.ok code) =>
      match supervisor.output with
      | some (some reason) => some (.error (.output reason))
      | _ => some (.ok ⟨code, supervisor.interfered⟩)
  | _, _ => none

end Supervisor

end BackupClient
