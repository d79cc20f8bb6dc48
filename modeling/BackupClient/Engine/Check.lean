import BackupClient.Engine.Client

/-!
Checking repositories.
-/

namespace BackupClient

inductive CheckMode where
  | quick
  | full
  deriving DecidableEq, Repr

def CheckMode.flag : CheckMode → String
  | .quick => "--repository-only"
  | .full => "--verify-data"

structure CheckResult where
  status : Status
  findings : List LogMessage
  deriving DecidableEq

def LogRecord.finding? : LogRecord → Option LogMessage
  | .logMessage message => if message.level.isError then some message else none
  | _ => none

namespace Client

def checkNotices (repository : String) (findings : List LogMessage) : List Notice :=
  if findings.isEmpty then []
  else
    [⟨.warn, "check reported problems",
      [("repository", .str repository), ("findings", .int findings.length)]⟩]

def check (client : Client) (repository passphrase : String) (mode : CheckMode) :
    Verb CheckResult := do
  let (result, records) ← Verb.follow
    (client.command (client.environment passphrase)
      ["check", mode.flag, "--log-json", repository]) .findings
  let findings := records.filterMap LogRecord.finding?
  Verb.sayAll (checkNotices repository findings)
  pure ⟨Status.ofRun result, findings⟩

end Client

end BackupClient
