import BackupClient.Engine.Create
import BackupClient.Engine.Prune
import BackupClient.Engine.Repository
import BackupClient.Jobs.Arbiter
import BackupClient.Status.Summary

/-!
What jobs do and what they report.
-/

namespace BackupClient

inductive Job where
  | backup (job : BackupJob)
  | prune (job : PruneJob)
  | delete (job : DeleteJob)
  deriving DecidableEq, Repr

structure JobReport where
  status : Status
  archiveName : Option String
  prune : Option PruneResult
  deriving DecidableEq, Repr

structure JobOutcome where
  operation : Operation
  startedAt : Instant
  finishedAt : Instant
  report : JobReport
  deriving DecidableEq, Repr

inductive StartError where
  | invalid (id : OperationId) (reason : String)
  | refused (error : ArbiterError)
  deriving DecidableEq, Repr

def StartError.message : StartError → String
  | .invalid id reason => "invalid job " ++ id.display ++ ": " ++ reason
  | .refused error => error.message

namespace Job

def operation : Job → Operation
  | .backup job => ⟨.backup, job.id⟩
  | .prune job => ⟨.prune, job.id⟩
  | .delete job => ⟨.delete, job.id⟩

def flaw? : Job → Option String
  | .backup job => if job.backupPaths.isEmpty then some "no paths to back up" else none
  | .prune job => if job.rule.isEmpty then some "no retention rule" else none
  | .delete job => if job.target = .stem "" then some "empty archive prefix" else none

def deletion (client : Client) (job : DeleteJob) : Verb Status :=
  match job.target with
  | .archive name => client.deleteArchive job.repository job.passphrase name
  | .stem stem => client.deleteArchives job.repository job.passphrase stem
  | .repository => client.deleteRepository job.repository job.passphrase

def work (client : Client) (now : Instant) : Job → Verb JobReport
  | .backup job => do
      let (status, name) ← client.create job now
      pure ⟨status, some name, none⟩
  | .prune job => do
      let (status, result) ← client.prune job
      pure ⟨status, none, some result⟩
  | .delete job => do
      let status ← deletion client job
      pure ⟨status, none, none⟩

end Job

namespace Operation

def fields (operation : Operation) : List (String × Json) :=
  [("kind", .str operation.kind.name), ("id", .str operation.id.display)]

def startedNotice (operation : Operation) : Notice :=
  ⟨.info, "job started", operation.fields⟩

def cancellingNotice (operation : Operation) : Notice :=
  ⟨.info, "cancelling job", operation.fields⟩

def unheardNotice (operation : Operation) : Notice :=
  ⟨.warn, "outcome receiver dropped", operation.fields⟩

end Operation

def JobOutcome.notice (outcome : JobOutcome) : Notice :=
  let fields := outcome.operation.fields
  let status := outcome.report.status
  if status.cancelled then ⟨.info, "job cancelled", fields⟩
  else
    match status.error, status.warning with
    | some error, _ =>
        ⟨.error, "job failed",
          fields ++ [("category", .str error.category.name), ("error", .str error.message)]⟩
    | none, some warning =>
        ⟨.warn, "job finished with warning", fields ++ [("warning", .str warning.message)]⟩
    | none, none => ⟨.info, "job finished", fields⟩

end BackupClient
