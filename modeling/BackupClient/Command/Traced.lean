import BackupClient.Command.Basic
import BackupClient.Log.Notice
import BackupClient.Text.Utf8

/-!
Notices about processes: one when a process starts and one when it ends.

They show the command line and never the environment.
-/

namespace BackupClient.Traced

def starting (spec : CommandSpec) : Notice :=
  ⟨.info, "starting", [("cmd", .str spec.commandLine)]⟩

def codeText : Option Int → String
  | none => "None"
  | some code => "Some(" ++ Text.Decimal.intText code ++ ")"

/-- The notice about the end of a process.  Codes from 100 on are warnings, and so is 1. -/
def ended (exit : ExitState) : Notice :=
  if exit.cancelled then ⟨.info, "cancelled", [("exit_code", .str (codeText exit.code))]⟩
  else
    match exit.code with
    | none => ⟨.error, "terminated by signal", []⟩
    | some code =>
        if code = 0 then ⟨.info, "finished", []⟩
        else if code = 1 ∨ 100 ≤ code then
          ⟨.warn, "finished with warning", [("exit_code", .int code)]⟩
        else ⟨.error, "failed", [("exit_code", .int code)]⟩

def byteLength (text : String) : Nat :=
  (Text.Utf8.encode text.toList).length

def ran : Except RunError CommandOutput → List Notice
  | .ok output =>
      [ended output.exit,
        ⟨.debug, "captured", [("stdout_len", .int (byteLength output.stdout)),
          ("stderr_len", .int (byteLength output.stderr))]⟩]
  | .error error => [⟨.error, "run failed", [("error", .str error.message)]⟩]

def streamed : Except RunError ExitState → List Notice
  | .ok exit => [ended exit]
  | .error error => [⟨.error, "stream failed", [("error", .str error.message)]⟩]

def spanName : RunMode → String
  | .buffered => "borg.run"
  | .streaming => "borg.stream"

end BackupClient.Traced
