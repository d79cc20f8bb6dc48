import BackupClient.Auth.Schedule
import BackupClient.Json.Lenient

/-!
Attempts of a source, and what happens to a registry, written as JSON documents.
-/

namespace BackupClient

/-- A message of a stream, or the reason why the stream fails. -/
def TimedMessage.ofJson {μ : Type} (content : Json → μ) (value : Json) : TimedMessage μ where
  delay := value.countAt "delay_ms"
  content :=
    match value.get "error" with
    | .str reason => .error reason
    | _ => .ok (content value)

def Attempt.ofJson {μ : Type} (content : Json → μ) (value : Json) : Attempt μ where
  openDelay := value.countAt "open_delay_ms"
  refusal := (value.get "fail").text?
  messages := (value.itemsAt "messages").map (TimedMessage.ofJson content)
  hangs := (value.get "hang").flag

/-- A message about the status of a login, a pending one if it cannot be read. -/
def AuthStatusUpdate.ofJson (value : Json) : AuthStatusUpdate :=
  (AuthStatusUpdate.ofJson? value).getD AuthStatusUpdate.pending

def Meanwhile.ofJson? (value : Json) : Option Meanwhile :=
  let id := value.textAt "id"
  match value.textAt "do" with
  | "advance" => some (.advance (value.get "by").duration)
  | "complete" =>
      let update := AuthStatusUpdate.ofJson value
      some (.complete id update.status update.tokens)
  | "sweep" => some .sweep
  | "create" => some (.create id)
  | "sink_fail" => some .refuseTokens
  | _ => none

end BackupClient
