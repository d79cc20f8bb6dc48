import BackupClient.Json.Basic
import BackupClient.Time.UtcTime

/-!
Reading documents leniently.

What is missing or of another kind reads as an empty text, zero, false or an empty list.
-/

namespace BackupClient.Json

/-- The member of a name, `null` if there is none. -/
def get (value : Json) (name : String) : Json :=
  match value with
  | .obj members => (member? name members).getD .null
  | _ => .null

def has (value : Json) (name : String) : Bool :=
  match value with
  | .obj members => (member? name members).isSome
  | _ => false

def text? : Json → Option String
  | .str text => some text
  | _ => none

def text (value : Json) : String :=
  value.text?.getD ""

def number : Json → Int
  | .int value => value
  | _ => 0

def count (value : Json) : Nat :=
  value.number.toNat

def flag : Json → Bool
  | .bool value => value
  | _ => false

def items : Json → List Json
  | .arr items => items
  | _ => []

def texts (value : Json) : List String :=
  value.items.map text

def textAt (value : Json) (name : String) : String :=
  (value.get name).text

def countAt (value : Json) (name : String) : Nat :=
  (value.get name).count

def countOr (value : Json) (name : String) (missing : Nat) : Nat :=
  if value.has name then value.countAt name else missing

def itemsAt (value : Json) (name : String) : List Json :=
  (value.get name).items

def textPairs (value : Json) : List (String × String) :=
  value.items.map fun pair =>
    match pair with
    | .arr [key, value] => (key.text, value.text)
    | _ => ("", "")

def instant (value : Json) : Instant :=
  match value with
  | .arr [seconds, nanos] =>
      (Instant.ofNanos? (seconds.number * 1000000000 + nanos.number)).getD Instant.epoch
  | _ => Instant.epoch

def utcTime (value : Json) : UtcTime :=
  match value with
  | .arr [second, nanos] =>
      (UtcTime.ofParts? second.number nanos.count).getD (.ofInstant .epoch)
  | _ => .ofInstant .epoch

def duration (value : Json) : Duration :=
  match value with
  | .arr [seconds, nanos] =>
      (Duration.ofNanos? (seconds.count * 1000000000 + nanos.count)).getD Duration.zero
  | _ => Duration.zero

end BackupClient.Json
