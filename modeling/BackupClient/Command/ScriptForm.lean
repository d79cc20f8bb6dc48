import BackupClient.Command.Live
import BackupClient.Command.Prepared
import BackupClient.Json.Lenient

/-!
Scripts of processes written as JSON documents.
-/

namespace BackupClient

/-- A command.  Its arguments may be given in groups. -/
def CommandSpec.ofJson (value : Json) : CommandSpec where
  program := value.textAt "program"
  arguments :=
    (value.itemsAt "args").flatMap fun argument =>
      match argument with
      | .arr items => items.map Json.text
      | item => [item.text]
  environment := (value.get "env").textPairs

/-- The behaviour of a process.  It succeeds where no exit code is given, unless it hangs. -/
def Response.ofJson (value : Json) : Response where
  spawnError := (value.get "spawn_error").text?
  waitError := (value.get "wait_error").text?
  lines := (value.get "lines").texts
  stderr := (value.get "stderr").text?
  stdout := value.textAt "stdout"
  hangs := (value.get "hang").flag
  thenCancels := (value.get "then_cancel").flag
  outputError := (value.get "output_error").text?
  code :=
    match value.get "code" with
    | .int code => some code
    | _ => if value.has "code" || (value.get "hang").flag then none else some 0
  cancelled := (value.get "cancelled").flag

def Cancellation.ofJson : Json → Cancellation
  | .str "before" => .before
  | .int delay => .after delay.toNat
  | _ => .never

/-- The time of a cancellation of a single run, which may also be a number of lines. -/
def LiveCancellation.ofJson (value : Json) : LiveCancellation :=
  if value.has "after_lines" then .afterLines (value.countAt "after_lines")
  else
    match (Cancellation.ofJson value).moment? 0 with
    | some delay => .at (delay * 1000000)
    | none => .never

def LiveSetting.ofJson (tree : Files.Tree) (value : Json) : LiveSetting where
  tree := tree
  executables := []
  grace := (Duration.ofNanos? (value.countOr "grace_ms" 5000 * 1000000)).getD Duration.zero
  broken := value.textAt "terminator" = "broken"

def RunMode.ofJson (value : Json) : RunMode :=
  if value.textAt "mode" = "stream" then .streaming else .buffered

def Playbook.ofJson : Json → Playbook
  | .obj members => members.map fun (verb, responses) => (verb, responses.items.map Response.ofJson)
  | _ => []

/-- A prepared answer.  A single line comes after the others. -/
def PreparedAnswer.ofJson (value : Json) : PreparedAnswer where
  code := (value.get "code").number
  stdout := value.textAt "stdout"
  lines := (value.get "lines").texts ++ (value.get "line").text?.toList
  hangs := (value.get "hang").flag
  spawnError := (value.get "spawn_error").text?

namespace Call

def members (call : Call) : List (String × Json) :=
  [("mode", .str (if call.mode = .streaming then "streaming" else "buffered")),
    ("args", .arr (call.spec.arguments.map .str))]

def report (call : Call) : Json :=
  .obj (call.members ++
    [("program", .str call.spec.program),
      ("env", .arr (call.spec.environment.map fun (key, value) => .arr [.str key, .str value]))])

end Call

end BackupClient
