import BackupClient.Auth.Monitor
import BackupClient.Report

/-!
JSON forms for those who look at logins.
-/

namespace BackupClient

class ReportsTime (τ : Type) where
  report : τ → Json

instance : ReportsTime Instant :=
  ⟨Instant.report⟩

instance : ReportsTime UtcTime :=
  ⟨UtcTime.report⟩

namespace AuthSession

variable {τ : Type}

def report [ReportsTime τ] (session : AuthSession τ) : Json :=
  .obj [("id", .str session.id), ("status", .str session.status.name),
    ("created_at", ReportsTime.report session.createdAt),
    ("expires_at", ReportsTime.report session.expiresAt),
    ("finished_at", Json.ofOption ReportsTime.report session.finishedAt),
    ("tokens", Json.ofOption TokenPair.toJson session.tokens)]

def view [TimeScale τ] [DecidableLE τ] (session : AuthSession τ) (now : τ) : Json :=
  let status := session.statusAt now
  .obj [("expired", .bool (session.isExpired now)), ("status", .str status.display),
    ("terminal", .bool status.isTerminal), ("remaining", (session.remaining now).report)]

end AuthSession

def PollOutcome.report : PollOutcome String → Json
  | .terminal value => .obj [("terminal", .str value)]
  | .exhausted => .str "exhausted"
  | .deadline => .str "deadline"
  | .cancelled => .str "cancelled"

def AuthEvent.report : AuthEvent → Json
  | .authenticated id => .ofTexts ["Authenticated", id]
  | .notAuthenticated id status => .ofTexts ["NotAuthenticated", id, status.display]

def Attempt.report (attempt : Attempt AuthStatusUpdate) : Json :=
  let attempt := attempt.worded
  match attempt.refusal with
  | some reason => .refusal "Open" reason
  | none =>
      let item (message : TimedMessage AuthStatusUpdate) : Json :=
        match message.content with
        | .ok update => update.toJson
        | .error reason => .obj [("error", .str reason)]
      .obj [("items", Json.ofList item attempt.messages),
        ("end", .str (if attempt.hangs then "open" else "closed"))]

namespace Monitor

/-- What a choice picks from what watches have done, in order, with the ids of their sessions. -/
def pick (monitor : Monitor) (choose : String → WatchAct → Option Json) : Json :=
  .arr (monitor.acts.reverse.filterMap fun (number, act) =>
    choose (((monitor.watches[number]?).map (·.id)).getD "") act)

def actMembers (monitor : Monitor) : List (String × Json) :=
  [("events", monitor.pick fun _ act =>
      match act with
      | .sends event => some event.report
      | _ => none),
    ("opened", monitor.pick fun id act =>
      match act with
      | .opens => some (.str id)
      | _ => none),
    ("stored", monitor.pick fun id act =>
      match act with
      | .stores tokens none => some (.ofTexts [id, tokens.access, tokens.refresh])
      | _ => none),
    ("store_errors", monitor.pick fun _ act =>
      match act with
      | .stores _ (some reason) => some (.str (tokenStoreMessage reason))
      | _ => none)]

def notices (monitor : Monitor) : List Notice :=
  monitor.acts.filterMap fun (_, act) =>
    match act with
    | .tells notice => some notice
    | _ => none

end Monitor

end BackupClient
