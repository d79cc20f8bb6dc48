import BackupClient.Json.Basic

/-!
What the client says about its own work.
-/

namespace BackupClient

inductive NoticeLevel where
  | debug
  | info
  | warn
  | error
  deriving DecidableEq, Repr

def NoticeLevel.name : NoticeLevel → String
  | .debug => "DEBUG"
  | .info => "INFO"
  | .warn => "WARN"
  | .error => "ERROR"

structure Notice where
  level : NoticeLevel
  message : String
  fields : List (String × Json)
  deriving DecidableEq

end BackupClient
