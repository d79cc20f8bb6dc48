import BackupClient.Engine.PruneLine
import BackupClient.Engine.Repository
import BackupClient.Job

/-!
Thinning out archives.
-/

namespace BackupClient

def LogRecord.pruneLine? : LogRecord → Option PruneLine
  | .logMessage message => PruneLine.parse? message.text.toList
  | _ => none

namespace PruneLine

def prunedName : PruneLine → Option String
  | .pruned name => some name
  | .kept _ => none

def keptOne : PruneLine → Option KeptArchive
  | .pruned _ => none
  | .kept archive => some archive

end PruneLine

namespace PruneResult

def empty (dryRun : Bool) : PruneResult :=
  ⟨dryRun, [], []⟩

def ofRecords (dryRun : Bool) (records : List LogRecord) : PruneResult :=
  let lines := records.filterMap LogRecord.pruneLine?
  ⟨dryRun, lines.filterMap PruneLine.prunedName, lines.filterMap PruneLine.keptOne⟩

end PruneResult

namespace Client

def pruneArguments (job : PruneJob) : List String :=
  ["prune", "--list", "--log-json", "--glob-archives", archivePattern job.stem] ++
    (if job.dryRun then ["--dry-run"] else []) ++ job.rule.arguments ++ [job.repository]

def pruneNotice (job : PruneJob) (result : PruneResult) : Notice :=
  ⟨.info, "prune finished",
    [("repository", .str job.repository), ("pruned", .int result.pruned.length),
      ("kept", .int result.kept.length), ("dry_run", .bool job.dryRun)]⟩

/-- Prune the archives of a profile, then free the space unless it was only a trial. -/
def prune (client : Client) (job : PruneJob) : Verb (Status × PruneResult) :=
  if job.rule.isEmpty then
    .done (Status.rejected "prune requires at least one retention rule",
      PruneResult.empty job.dryRun)
  else do
    let (ended, records) ← Verb.follow
      (client.command (client.environment job.passphrase) (pruneArguments job)) .archives
    let status := Status.ofRun ended
    let result := PruneResult.ofRecords job.dryRun records
    Verb.say (pruneNotice job result)
    if job.dryRun then pure (status, result)
    else
      let status ← Verb.thenRun status (client.compact job.repository job.passphrase)
      pure (status, result)

end Client

end BackupClient
