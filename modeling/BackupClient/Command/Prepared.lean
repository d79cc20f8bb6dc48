import BackupClient.Command.Scripted

/-!
A runner with prepared answers.

It records every call and answers it at once; only a process that hangs has to be cancelled.
-/

namespace BackupClient

structure PreparedAnswer where
  code : Int
  stdout : String
  lines : List String
  hangs : Bool
  spawnError : Option String
  deriving DecidableEq, Repr

namespace PreparedAnswer

def standard : PreparedAnswer :=
  ⟨0, "", [], false, none⟩

/-- The lines as one text, which ends its last line unless it is empty. -/
def stderrText (answer : PreparedAnswer) : String :=
  let text := "\n".intercalate answer.lines
  if text.isEmpty then text else text ++ "\n"

def exit (answer : PreparedAnswer) : ExitState :=
  if answer.hangs then ExitState.stopped none else ExitState.exited answer.code

def output (answer : PreparedAnswer) : CommandOutput :=
  ⟨answer.exit, answer.stdout, answer.stderrText⟩

end PreparedAnswer

/-- The runner: the answers that are left, by verb, and the calls so far. -/
structure PreparedRunner where
  answers : List (String × PreparedAnswer)
  calls : List Call
  deriving DecidableEq, Repr

namespace PreparedRunner

def empty : PreparedRunner :=
  ⟨[], []⟩

def prepare (runner : PreparedRunner) (verb : String) (answer : PreparedAnswer) :
    PreparedRunner :=
  { runner with answers := runner.answers ++ [(verb, answer)] }

def takeFirst (verb : String) :
    List (String × PreparedAnswer) → PreparedAnswer × List (String × PreparedAnswer)
  | [] => (PreparedAnswer.standard, [])
  | (other, answer) :: rest =>
      if other = verb then (answer, rest)
      else
        let (found, rest) := takeFirst verb rest
        (found, (other, answer) :: rest)

def call (runner : PreparedRunner) (mode : RunMode) (spec : CommandSpec) :
    Except RunError PreparedAnswer × PreparedRunner :=
  let (answer, answers) := takeFirst spec.verb runner.answers
  let runner : PreparedRunner := ⟨answers, runner.calls ++ [⟨mode, spec⟩]⟩
  match answer.spawnError with
  | some reason => (.error (.spawn spec.program reason), runner)
  | none => (.ok answer, runner)

def invocations (runner : PreparedRunner) : List (List String) :=
  runner.calls.map (·.spec.arguments)

end PreparedRunner

end BackupClient
