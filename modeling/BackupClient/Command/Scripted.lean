import BackupClient.Command.Basic

/-!
Processes that follow a script.

A response says what a process writes and how it ends.  A playbook holds the responses for each verb,
which are used up in order.
-/

namespace BackupClient

structure Response where
  spawnError : Option String
  waitError : Option String
  lines : List String
  stderr : Option String
  stdout : String
  hangs : Bool
  thenCancels : Bool
  outputError : Option String
  code : Option Int
  cancelled : Bool
  deriving DecidableEq, Repr

namespace Response

def silent : Response :=
  ⟨none, none, [], none, "", false, false, none, some 0, false⟩

def refusal? (response : Response) (spec : CommandSpec) : Option RunError :=
  match response.spawnError, response.waitError with
  | some reason, _ => some (.spawn spec.program reason)
  | none, some reason => some (.wait reason)
  | none, none => none

def stderrText (response : Response) : String :=
  response.stderr.getD (String.join (response.lines.map (· ++ "\n")))

def exit (response : Response) : ExitState :=
  ⟨response.code, response.hangs || response.cancelled⟩

def ending (response : Response) : Except RunError ExitState :=
  match response.outputError with
  | some reason => .error (.output reason)
  | none => .ok response.exit

def output (response : Response) : Except RunError CommandOutput :=
  response.ending.map fun exit => ⟨exit, response.stdout, response.stderrText⟩

end Response

def CommandOutput.stopped : CommandOutput :=
  ⟨ExitState.stopped none, "", ""⟩

/-- The responses that are left, by verb. -/
abbrev Playbook := List (String × List Response)

namespace Playbook

/-- Take the next response of a verb.  Without one the process succeeds silently. -/
def take (playbook : Playbook) (verb : String) : Response × Playbook :=
  match playbook with
  | [] => (Response.silent, [])
  | (other, responses) :: rest =>
      if other = verb then
        match responses with
        | [] => (Response.silent, playbook)
        | response :: responses => (response, (other, responses) :: rest)
      else
        let (response, rest) := take rest verb
        (response, (other, responses) :: rest)

def add (playbook : Playbook) (verb : String) (responses : List Response) : Playbook :=
  match playbook with
  | [] => [(verb, responses)]
  | (other, held) :: rest =>
      if other = verb then (other, held ++ responses) :: rest
      else (other, held) :: add rest verb responses

end Playbook

structure Call where
  mode : RunMode
  spec : CommandSpec
  deriving DecidableEq, Repr

def Call.lookup (call : Call) (name : String) : Option String :=
  (call.spec.environment.reverse.find? (·.1 = name)).map (·.2)

end BackupClient
