import BackupClient.Engine.Client
import BackupClient.Job
import BackupClient.Log.Line
import BackupClient.Time.LocalTime

/-!
Making archives.

A dry run comes first and lists the files, so that the progress of the real run can be told against
their number.
-/

namespace BackupClient

def LogRecord.listedPath? : LogRecord → Option String
  | .fileStatus file => some file.path
  | _ => none

def Verb.countFiles : List String → Verb Nat
  | [] => pure 0
  | path :: rest => do
      let found ← Verb.look path
      let others ← Verb.countFiles rest
      match found with
      | .ok .directory => pure others
      | .ok _ => pure (others + 1)
      | .error _ => pure others

namespace Client

def archiveName (stem : String) (now : Instant) : String :=
  stem ++ String.ofList (LocalTime.ofInstant now).stamp

def createArguments (flags : List String) (name : String) (job : BackupJob) : List String :=
  "create" :: flags ++ [(ArchivePath.mk job.repository (some name)).display] ++ job.backupPaths ++
    job.excludePaths.flatMap fun path => ["--exclude", path]

/-- Make an archive.  Its name is known even if that fails. -/
def create (client : Client) (job : BackupJob) (now : Instant) : Verb (Status × String) := do
  let name := archiveName job.stem now
  let environment := client.environment job.passphrase
  let (status, output) ← Verb.buffered
    (client.command environment
      (createArguments ["--dry-run", "--list", "--log-json"] name job))
  match output with
  | some output =>
      if status.isSuccess then
        let records := Log.decodeLines (Text.linesOf output.stderr)
        let total ← Verb.countFiles (records.filterMap LogRecord.listedPath?)
        let (ended, _) ← Verb.follow
          (client.command environment (createArguments ["--progress", "--log-json"] name job))
          (.progress total)
        pure (Status.ofRun ended, name)
      else pure (status, name)
  | none => pure (status, name)

end Client

end BackupClient
