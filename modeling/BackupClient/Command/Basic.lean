import BackupClient.Text.Quoted

/-!
Commands and how they end.

A command names a program, its arguments and the whole environment it runs in.
-/

namespace BackupClient

structure CommandSpec where
  program : String
  arguments : List String
  environment : List (String × String)
  deriving DecidableEq, Repr

namespace CommandSpec

/-- The first argument that is no flag, else the first argument, else nothing. -/
def verb (spec : CommandSpec) : String :=
  match spec.arguments.find? fun argument => argument.toList.head? ≠ some '-' with
  | some argument => argument
  | none => spec.arguments.headD ""

/-- The command line in print, which never shows the environment. -/
def commandLine (spec : CommandSpec) : String :=
  spec.arguments.foldl (fun line argument => line ++ " " ++ argument) spec.program

/-- The command in print, with the size of its environment only. -/
def redacted (spec : CommandSpec) : String :=
  "CommandSpec \x7b program: " ++ Text.quoted spec.program ++ ", args: " ++
    Text.quotedList spec.arguments ++ ", env_count: " ++
    Text.Decimal.text spec.environment.length ++ " \x7d"

end CommandSpec

/-- How a supervised process ended.  There is no code if a signal ended it. -/
structure ExitState where
  code : Option Int
  cancelled : Bool
  deriving DecidableEq, Repr

namespace ExitState

def exited (code : Int) : ExitState :=
  ⟨some code, false⟩

def stopped (code : Option Int) : ExitState :=
  ⟨code, true⟩

end ExitState

inductive RunError where
  | spawn (program : String) (reason : String)
  | wait (reason : String)
  | output (reason : String)
  deriving DecidableEq, Repr

def RunError.message : RunError → String
  | .spawn program reason => "failed to start " ++ program ++ ": " ++ reason
  | .wait reason => "failed waiting for process: " ++ reason
  | .output reason => "failed reading process output: " ++ reason

structure CommandOutput where
  exit : ExitState
  stdout : String
  stderr : String
  deriving DecidableEq, Repr

/-- How a runner is used: output collected until the end, or each line of stderr handed on at once. -/
inductive RunMode where
  | buffered
  | streaming
  deriving DecidableEq, Repr

end BackupClient
