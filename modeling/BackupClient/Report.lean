import BackupClient.Engine.Query
import BackupClient.Environment
import BackupClient.Jobs.Work
import BackupClient.Json.Canonical
import BackupClient.Time.UtcTime

/-!
Reports: JSON forms for those who look at what the client knows and does.
-/

namespace BackupClient

def Instant.report (instant : Instant) : Json :=
  .arr [.int instant.seconds, .ofNat instant.subsecond]

def Duration.report (duration : Duration) : Json :=
  .arr [.ofNat duration.seconds, .ofNat duration.subsecond]

/-- A date and time, taken as UTC, as its seconds and nanoseconds. -/
def LocalTime.report (time : LocalTime) : Json :=
  .arr [.int time.epochSeconds, .ofNat time.nanos]

def UtcTime.report (time : UtcTime) : Json :=
  .arr [.int time.second, .ofNat time.nanos]

namespace Json

def ofTexts (texts : List String) : Json :=
  ofList .str texts

def ofPairs (pairs : List (String × String)) : Json :=
  ofList (fun (key, value) => .arr [.str key, .str value]) pairs

def ofInstant? : Option Instant → Json :=
  ofOption Instant.report

end Json

def Cause.report : Cause → Json
  | .undecodable => .obj [("kind", .str "json")]
  | .run error => .obj [("kind", .str "run"), ("message", .str error.message)]
  | .io _ => .obj [("kind", .str "io")]
  | .source message => .obj [("kind", .str "other"), ("message", .str message)]

def EngineError.report (error : EngineError) : Json :=
  .obj [("exit_code", Json.ofOption .int error.exitCode), ("category", .str error.category.name),
    ("message", .str error.message), ("display", .str error.message),
    ("has_source", .bool error.cause.isSome), ("cause", Json.ofOption Cause.report error.cause)]

def EngineWarning.report (warning : EngineWarning) : Json :=
  .obj [("exit_code", .int warning.exitCode), ("category", .str warning.category.name),
    ("message", .str warning.message), ("display", .str warning.message)]

def Status.report (status : Status) : Json :=
  .obj [("success", .bool status.isSuccess), ("cancelled", .bool status.cancelled),
    ("has_error", .bool status.error.isSome), ("has_warning", .bool status.warning.isSome),
    ("error", Json.ofOption EngineError.report status.error),
    ("warning", Json.ofOption EngineWarning.report status.warning)]

def Status.members (status : Status) : List (String × Json) :=
  [("status", status.report), ("summary", status.summary.toJson)]

def Catalogue.Entry.report (entry : Catalogue.Entry) : Json :=
  .arr [.int entry.code, .str entry.message, .str entry.category.name]

def ExitClass.report : ExitClass → Json
  | .success => .str "success"
  | .warning caveat =>
      .obj [("warning", .arr [.int caveat.exitCode, .str caveat.message,
        .str caveat.category.name])]
  | .error reason => .obj [("error", reason.report)]

def Configuration.report (configuration : Configuration) : Json :=
  .obj [("binary_path", .str configuration.binaryPath),
    ("mount_binary_path", Json.ofOption .str configuration.mountBinaryPath),
    ("mount_binary", .str configuration.mountBinary),
    ("ssh_private_keys", .ofTexts configuration.sshKeys),
    ("mount_root", Json.ofOption .str configuration.mountRoot),
    ("termination_grace", configuration.terminationGrace.report),
    ("retry_interval", configuration.auth.retryInterval.report),
    ("max_retries", .ofNat configuration.auth.maxRetries),
    ("session_lifetime", configuration.auth.sessionLifetime.report),
    ("gc_delay", configuration.auth.collectionDelay.report),
    ("is_default", .bool (configuration = Configuration.standard)),
    ("serialized", configuration.toJson)]

def EngineVersion.report (version : EngineVersion) : Json :=
  .obj [("major", .ofNat version.major), ("minor", .ofNat version.minor),
    ("patch", .ofNat version.patch), ("display", .str version.display)]

def Mounts.report (mounts : Mounts) : Json :=
  let entries := Json.ofList (fun ((id, path) : Nat × String) => .arr [.ofNat id, .str path])
  .obj [("repositories", entries mounts.repositories), ("archives", entries mounts.archives),
    ("is_empty", .bool mounts.isEmpty)]

def LogRecord.report (record : LogRecord) : Json :=
  .obj [("kind", .str record.kind.display), ("record", record.toJson),
    ("time", .ofInstant? record.time)]

def BackupProgress.report (tick : BackupProgress) : Json :=
  .arr [.ofNat tick.totalFiles, .ofNat tick.processedFiles]

def EngineEnvironment.members (environment : EngineEnvironment) (parent : List (String × String)) :
    List (String × Json) :=
  [("remote_shell", .str (String.ofList environment.remoteShell)),
    ("overrides", .ofPairs environment.overrides),
    ("built", .ofPairs (environment.buildFrom parent)),
    ("is_default", .bool (environment = EngineEnvironment.empty))]

def CommandSpec.report (spec : CommandSpec) : Json :=
  .obj [("verb", .str spec.verb), ("command_line", .str spec.commandLine),
    ("args", .ofTexts spec.arguments), ("env", .ofPairs spec.environment),
    ("debug", .str spec.redacted)]

def ExitState.report (exit : ExitState) : Json :=
  .obj [("code", Json.ofOption .int exit.code), ("cancelled", .bool exit.cancelled)]

namespace RunError

def name : RunError → String
  | .spawn .. => "Spawn"
  | .wait .. => "Wait"
  | .output .. => "Output"

def members (error : RunError) : List (String × Json) :=
  [("error", .str error.name), ("message", .str error.message)]

end RunError

def runMembers : Except RunError CommandOutput → List (String × Json)
  | .ok output =>
      [("exit", output.exit.report), ("stdout", .str output.stdout),
        ("stderr", .str output.stderr)]
  | .error error => error.members

def streamMembers (lines : List String) (result : Except RunError ExitState) :
    List (String × Json) :=
  ("lines", .ofTexts lines) ::
    match result with
    | .ok exit => [("exit", exit.report)]
    | .error error => error.members

def Json.refusal (name message : String) : Json :=
  .obj [("error", .str name), ("message", .str message)]

def ArbiterError.report (error : ArbiterError) : Json :=
  match error with
  | .alreadyRunning _ => .refusal "AlreadyRunning" error.message
  | .repositoryBusy .. => .refusal "RepositoryBusy" error.message

def StartError.report : StartError → Json
  | .invalid id reason => .refusal "InvalidJob" (StartError.invalid id reason).message
  | .refused error => error.report

def Arbiter.report (arbiter : Arbiter) : Json :=
  .ofTexts ((arbiter.running.map (·.display)).mergeSort (· ≤ ·))

def JobOutcome.toJson (outcome : JobOutcome) : Json :=
  .obj <| [("id", .str outcome.operation.id.display),
    ("kind", .str outcome.operation.kind.name), ("started_at", outcome.startedAt.report),
    ("finished_at", outcome.finishedAt.report),
    ("archive_name", Json.ofOption .str outcome.report.archiveName),
    ("prune", Json.ofOption PruneResult.toJson outcome.report.prune)] ++ outcome.report.status.members

/-- The name of a level, the message, and its values.  A value that is itself called a message stands in
the place of the message. -/
def Notice.report (notice : Notice) : Json :=
  let message := ((notice.fields.find? (·.1 = "message")).map (·.2)).getD (.str notice.message)
  .arr [.str notice.level.name, message, .obj (notice.fields.filter (·.1 ≠ "message"))]

end BackupClient
