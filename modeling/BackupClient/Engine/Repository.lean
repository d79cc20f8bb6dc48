import BackupClient.Engine.Client
import BackupClient.Response

/-!
Verbs on repositories and archives that start one process, or two of which the second compacts.
-/

namespace BackupClient

inductive EncryptionMode where
  | repokeyBlake2
  | none
  deriving DecidableEq, Repr

def EncryptionMode.flag : EncryptionMode → String
  | .repokeyBlake2 => "--encryption=repokey-blake2"
  | .none => "--encryption=none"

namespace Client

def init (client : Client) (repository passphrase : String) (encryption : EncryptionMode) :
    Verb Status :=
  Verb.plain (client.command (client.environment passphrase)
    ["init", encryption.flag, repository])

def info (client : Client) (repository passphrase : String) :
    Verb (Status × Option InfoResponse) :=
  Verb.document InfoResponse.ofJson?
    (client.command (client.environment passphrase) ["info", "--json", repository])

def list (client : Client) (repository passphrase : String) :
    Verb (Status × Option ListResponse) :=
  Verb.document ListResponse.ofJson?
    (client.command (client.environment passphrase) ["list", "--json", repository])

def compact (client : Client) (repository passphrase : String) : Verb Status :=
  Verb.plain (client.command (client.environment passphrase) ["compact", repository])

def deleteArchive (client : Client) (repository passphrase archive : String) : Verb Status :=
  Verb.plain (client.command (client.environment passphrase)
    ["delete", (ArchivePath.mk repository (some archive)).display])

/-- The pattern for all archives whose names begin with a text. -/
def archivePattern (stem : String) : String :=
  stem ++ "*"

/-- Delete all archives whose names begin with a text, which must not be empty. -/
def deleteArchives (client : Client) (repository passphrase stem : String) : Verb Status :=
  if stem.isEmpty then .done (Status.rejected "refusing to delete archives without a prefix")
  else do
    let status ← Verb.plain (client.command (client.environment passphrase)
      ["delete", "--glob-archives", archivePattern stem, repository])
    Verb.thenRun status (client.compact repository passphrase)

def deleteRepository (client : Client) (repository passphrase : String) : Verb Status :=
  Verb.plain (client.command (client.environment passphrase).withDeleteConfirmation
    ["delete", repository])

def rename (client : Client) (repository passphrase archive newName : String) : Verb Status :=
  Verb.plain (client.command (client.environment passphrase)
    ["rename", (ArchivePath.mk repository (some archive)).display, newName])

def recreate (client : Client) (repository passphrase archive comment : String) : Verb Status :=
  Verb.plain (client.command (client.environment passphrase)
    ["recreate", "--comment", comment, (ArchivePath.mk repository (some archive)).display])

def changePassphrase (client : Client) (repository passphrase newPassphrase : String) :
    Verb Status :=
  if newPassphrase.isEmpty then .done (Status.rejected "new passphrase must not be empty")
  else
    Verb.plain (client.command
      ((client.environment passphrase).withNewPassphrase newPassphrase)
      ["key", "change-passphrase", repository])

def breakLock (client : Client) (repository passphrase : String) : Verb Status :=
  Verb.plain (client.command (client.environment passphrase) ["break-lock", repository])

end Client

end BackupClient
