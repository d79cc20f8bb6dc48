import BackupClient.Status.Basic
import BackupClient.Json.Decode

/-!
Summaries of statuses for notifications.
-/

namespace BackupClient

structure Classification where
  exitCode : Option Int
  category : Category
  message : String
  deriving DecidableEq, Repr

structure StatusSummary where
  success : Bool
  cancelled : Bool
  error : Option Classification
  warning : Option Classification
  deriving DecidableEq, Repr

def Status.summary (status : Status) : StatusSummary where
  success := status.isSuccess
  cancelled := status.cancelled
  error := status.error.map fun error => ⟨error.exitCode, error.category, error.message⟩
  warning := status.warning.map fun warning =>
    ⟨some warning.exitCode, warning.category, warning.message⟩

def Classification.toJson (classification : Classification) : Json :=
  .obj [("exitCode", Json.ofOption .int classification.exitCode),
    ("category", .str classification.category.name), ("message", .str classification.message)]

def StatusSummary.toJson (summary : StatusSummary) : Json :=
  .obj [("success", .bool summary.success), ("cancelled", .bool summary.cancelled),
    ("error", Json.ofOption Classification.toJson summary.error),
    ("warning", Json.ofOption Classification.toJson summary.warning)]

def Category.ofJson? (value : Json) : Option Category :=
  (Json.decodeName value).bind Category.ofName?

end BackupClient
