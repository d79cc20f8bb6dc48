import BackupClient.ArchivePath
import BackupClient.Configuration
import BackupClient.Engine.Mounts
import BackupClient.Engine.Verb
import BackupClient.Environment
import BackupClient.Json.Reader
import BackupClient.Status.Basic
import BackupClient.Text.Banner

/-!
The client and what all its verbs share: commands, and results as statuses.
-/

namespace BackupClient

/-- What the client works with: its settings, the environment it was started in, and the user's
directory for running programs. -/
structure Client where
  configuration : Configuration
  parent : List (String × String)
  runtimeDirectory : String
  deriving DecidableEq, Repr

namespace Client

def environment (client : Client) (passphrase : String) : EngineEnvironment :=
  (EngineEnvironment.ofKeys client.configuration.sshKeys).withPassphrase passphrase

def command (client : Client) (environment : EngineEnvironment) (arguments : List String) :
    CommandSpec :=
  ⟨client.configuration.binaryPath, arguments, environment.buildFrom client.parent⟩

def mountCommand (client : Client) (environment : EngineEnvironment) (arguments : List String) :
    CommandSpec :=
  ⟨client.configuration.mountBinary, arguments, environment.buildFrom client.parent⟩

def mountRoot (client : Client) : String :=
  client.configuration.mountRoot.getD (Mounts.standardRoot client.runtimeDirectory)

def mounted (client : Client) (table : List Char) : Mounts :=
  Mounts.ofTable client.mountRoot table

end Client

/-- A run whose output is collected, with its status. -/
def Verb.buffered (spec : CommandSpec) : Verb (Status × Option CommandOutput) := do
  match ← Verb.collect spec with
  | .ok output => pure (Status.ofExit output.exit, some output)
  | .error error => pure (Status.ofRunError error, none)

/-- A run of which only the status counts. -/
def Verb.plain (spec : CommandSpec) : Verb Status := do
  pure (← Verb.buffered spec).1

def Status.undecodable : Status :=
  .failed ((EngineError.atRuntime "failed to decode engine output").because .undecodable)

def Text.Sanitized.notices (parts : Text.Sanitized) : List Notice :=
  if parts.banner.isEmpty then []
  else
    [⟨.warn, "engine printed text before its JSON output",
      [("banner", .str (String.ofList parts.banner))]⟩]

def decodeOutput {α : Type} (decode : Json → Option α) (stdout : String) :
    List Notice × Option α :=
  let parts := Text.sanitize stdout.toList
  (parts.notices, (Json.parse? parts.document).bind decode)

def Verb.sayAll : List Notice → Verb Unit
  | [] => pure ()
  | notice :: rest => do
      Verb.say notice
      Verb.sayAll rest

def Verb.document {α : Type} (decode : Json → Option α) (spec : CommandSpec) :
    Verb (Status × Option α) := do
  let (status, output) ← Verb.buffered spec
  match output with
  | some output =>
      if status.isSuccess then
        let (notices, value) := decodeOutput decode output.stdout
        Verb.sayAll notices
        match value with
        | some value => pure (status, some value)
        | none => pure (Status.undecodable, none)
      else pure (status, none)
  | none => pure (status, none)

/-- A second run that follows a first one which succeeded.  The first status stands if the second run
succeeds too. -/
def Verb.thenRun (status : Status) (second : Verb Status) : Verb Status := do
  if status.isSuccess then
    let later ← second
    pure (if later.isSuccess then status else later)
  else pure status

end BackupClient
