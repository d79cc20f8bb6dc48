import BackupClient.Auth.Session

/-!
Sources of status messages.

A source is opened as often as needed.  Each opening plays one of the attempts that are prepared, and
where none is left it fails.
-/

namespace BackupClient

inductive SourceEvent (μ : Type) where
  | refused (reason : String)
  | opened
  | message (content : μ)
  | failed (reason : String)
  | ended
  deriving DecidableEq, Repr

/-- A message, or the reason why a stream fails, with the milliseconds since the message before. -/
structure TimedMessage (μ : Type) where
  delay : Nat
  content : Except String μ

/-- What happens when a source is opened: how long that takes, why it fails if it does, and the messages
of the stream, which ends after the last one unless it hangs. -/
structure Attempt (μ : Type) where
  openDelay : Nat
  refusal : Option String
  messages : List (TimedMessage μ)
  hangs : Bool

inductive SourceError where
  | opening (reason : String)
  | streaming (reason : String)
  deriving DecidableEq, Repr

def SourceError.message : SourceError → String
  | .opening reason => "failed to open status stream: " ++ reason
  | .streaming reason => "status stream failed: " ++ reason

/-- The events that are still to come, each with its moment, the earliest first. -/
abbrev Feed (μ : Type) := List (Nat × SourceEvent μ)

namespace Attempt

variable {μ : Type}

def unavailable : Attempt μ :=
  ⟨0, some "unavailable", [], false⟩

/-- The messages from a moment on, and the end of the stream.  Nobody follows a stream beyond a
failure. -/
def follow (hangs : Bool) (moment : Nat) : List (TimedMessage μ) → Feed μ
  | [] => if hangs then [] else [(moment, .ended)]
  | message :: rest =>
      let moment := moment + message.delay
      match message.content with
      | .ok content => (moment, .message content) :: follow hangs moment rest
      | .error reason => [(moment, .failed reason)]

def feed (attempt : Attempt μ) (moment : Nat) : Feed μ :=
  let opened := moment + attempt.openDelay
  match attempt.refusal with
  | some reason => [(opened, .refused reason)]
  | none => (opened, .opened) :: follow attempt.hangs opened attempt.messages

def worded (attempt : Attempt μ) : Attempt μ :=
  { attempt with
    refusal := attempt.refusal.map fun reason => (SourceError.opening reason).message
    messages :=
      attempt.messages.map fun message =>
        { message with
          content := message.content.mapError fun reason => (SourceError.streaming reason).message } }

end Attempt

/-- A source that plays prepared attempts, and for whom it was opened, the latest first. -/
structure PreparedSource (μ : Type) where
  attempts : List (Attempt μ)
  opened : List String

namespace PreparedSource

variable {μ : Type}

def empty : PreparedSource μ :=
  ⟨[], []⟩

def prepare (source : PreparedSource μ) (attempts : List (Attempt μ)) : PreparedSource μ :=
  { source with attempts := source.attempts ++ attempts }

def openFor (source : PreparedSource μ) (id : String) : Attempt μ × PreparedSource μ :=
  match source.attempts with
  | [] => (.unavailable, ⟨[], id :: source.opened⟩)
  | attempt :: rest => (attempt, ⟨rest, id :: source.opened⟩)

end PreparedSource

def Feed.due? {μ : Type} (feed : Feed μ) (now : Nat) : Option (SourceEvent μ) :=
  match feed with
  | (moment, event) :: _ => if moment ≤ now then some event else none
  | [] => none

end BackupClient
