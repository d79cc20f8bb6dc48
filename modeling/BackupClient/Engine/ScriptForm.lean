import BackupClient.Command.ScriptForm
import BackupClient.Engine.Live
import BackupClient.Engine.Version
import BackupClient.Operation

/-!
Circumstances of the engine's work written as JSON documents.
-/

namespace BackupClient

def EngineVersion.ofJson (value : Json) : EngineVersion :=
  match value with
  | .arr [major, minor, patch] => ⟨major.count, minor.count, patch.count⟩
  | _ => ⟨0, 0, 0⟩

def ProgressReader.ofJson (step : Json) : ProgressReader :=
  match step.textAt "reader" with
  | "held" => .held
  | "late" => .after (step.countAt "reader_delay_ms")
  | "dropped" => .dropped
  | _ => .after 0

def Operation.ofJson (value : Json) : Operation :=
  ⟨(OperationKind.ofJson? (value.get "kind")).getD .backup,
    (OperationId.ofJson? (value.get "id")).getD ⟨0, 0⟩⟩

/-- The queue of progress of a verb, closed where nobody reads. -/
def ProgressChannel.ofJson (step : Json) : ProgressChannel :=
  if ProgressReader.ofJson step = .dropped then .closed
  else .empty (step.countOr "progress_capacity" 1024)

def LiveScene.begin (scene : LiveScene) (step : Json) : LiveScene :=
  let cancellation := Cancellation.ofJson (step.get "cancel")
  { scene with
    cancelAt := (cancellation.moment? 0).map fun delay => scene.now + delay * 1000000
    cancelled := cancellation = .before, channel := .ofJson step
    reading := ProgressReader.ofJson step ≠ .held, ticks := [] }

end BackupClient
