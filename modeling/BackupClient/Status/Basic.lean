import BackupClient.Status.Catalogue
import BackupClient.Command.Basic

/-!
Statuses: what became of an operation.

Every exit code is exactly one of success, a warning or an error.  A status holds at most one of each
and says whether the operation was cancelled.  Two errors are equal whatever caused them.
-/

namespace BackupClient

inductive Cause where
  | undecodable
  | run (error : RunError)
  | io (reason : String)
  | source (message : String)
  deriving DecidableEq, Repr

/-- An operation that did not complete.  Errors that never reached the engine have no exit code. -/
structure EngineError where
  exitCode : Option Int
  message : String
  category : Category
  cause : Option Cause
  deriving DecidableEq, Repr

namespace EngineError

def atRuntime (message : String) : EngineError :=
  ⟨none, message, .runtime, none⟩

def because (error : EngineError) (cause : Cause) : EngineError :=
  { error with cause := some cause }

/-- Equality of errors, causes left out. -/
def agrees (left right : EngineError) : Bool :=
  left.exitCode == right.exitCode && left.category == right.category && left.message == right.message

end EngineError

structure EngineWarning where
  exitCode : Int
  message : String
  category : Category
  deriving DecidableEq, Repr

inductive ExitClass where
  | success
  | warning (warning : EngineWarning)
  | error (error : EngineError)
  deriving DecidableEq, Repr

/-- Classify an exit code.  One that is not in the catalogue is a general error with that code. -/
def classify (code : Int) : ExitClass :=
  if code = 0 then .success
  else
    match Catalogue.findWarning code with
    | some entry => .warning ⟨code, entry.message, entry.category⟩
    | none =>
        let entry := (Catalogue.findError code).getD Catalogue.generic
        .error ⟨some code, entry.message, entry.category, none⟩

structure Status where
  error : Option EngineError
  warning : Option EngineWarning
  cancelled : Bool
  deriving DecidableEq, Repr

namespace Status

def success : Status :=
  ⟨none, none, false⟩

def stopped : Status :=
  ⟨none, none, true⟩

def failed (error : EngineError) : Status :=
  ⟨some error, none, false⟩

def withWarning (warning : EngineWarning) : Status :=
  ⟨none, some warning, false⟩

def ofClass : ExitClass → Status
  | .success => success
  | .warning warning => withWarning warning
  | .error error => failed error

def ofExitCode (code : Int) : Status :=
  ofClass (classify code)

/-- No error and not cancelled; a warning alone is still a success. -/
def isSuccess (status : Status) : Bool :=
  status.error.isNone && !status.cancelled

/-- Equality of statuses, causes left out. -/
def agrees (left right : Status) : Bool :=
  (match left.error, right.error with
    | none, none => true
    | some left, some right => left.agrees right
    | _, _ => false) &&
    left.warning == right.warning && left.cancelled == right.cancelled

def ofExit (exit : ExitState) : Status :=
  if exit.cancelled then stopped
  else
    match exit.code with
    | some code => ofExitCode code
    | none => failed (.atRuntime "engine process terminated by signal")

def ofRunError (error : RunError) : Status :=
  failed ((EngineError.atRuntime "failed to run engine process").because (.run error))

/-- The status of a run, whichever way it ended. -/
def ofRun : Except RunError ExitState → Status
  | .ok exit => ofExit exit
  | .error error => ofRunError error

def rejected (reason : String) : Status :=
  failed (.atRuntime reason)

end Status

end BackupClient
