import BackupClient.Engine.Client
import BackupClient.Engine.Version

/-!
Asking the engine for its version.
-/

namespace BackupClient

def EngineVersion.unrecognized (stdout : String) : Notice × Status :=
  let text := Text.trimmed stdout
  (⟨.warn, "unrecognized version output", [("stdout", .str text)]⟩,
    .failed (.atRuntime ("unrecognized version output: " ++ text)))

namespace Client

def queryVersion (spec : CommandSpec) : Verb (Status × Option EngineVersion) := do
  let (status, output) ← Verb.buffered spec
  match output with
  | some output =>
      if status.isSuccess then
        match EngineVersion.parse? output.stdout.toList with
        | some version => pure (status, some version)
        | none =>
            let (notice, failed) := EngineVersion.unrecognized output.stdout
            Verb.say notice
            pure (failed, none)
      else pure (status, none)
  | none => pure (status, none)

def version (client : Client) : Verb (Status × Option EngineVersion) :=
  queryVersion (client.command EngineEnvironment.empty ["--version"])

def mountVersion (client : Client) : Verb (Status × Option EngineVersion) :=
  queryVersion (client.mountCommand EngineEnvironment.empty ["--version"])

end Client

end BackupClient
