import BackupClient.Time.Instant
import BackupClient.Text.Blank
import BackupClient.Text.Decimal

/-!
Durations written with units, such as `1h 30m` or `2days 3h`.

A year has 365.25 days and a month a twelfth of that, 30.44 days.  The writer takes the largest units
first and leaves out those that do not occur.  The reader takes units in any order, each with a whole
number that may have decimals, and adds them up.
-/

namespace BackupClient.Span

inductive TimeUnit where
  | nanosecond
  | microsecond
  | millisecond
  | second
  | minute
  | hour
  | day
  | week
  | month
  | year
  deriving DecidableEq, Repr

namespace TimeUnit

def ofName? (name : String) : Option TimeUnit :=
  match name with
  | "nanos" | "nsec" | "ns" => some .nanosecond
  | "usec" | "us" | "µs" => some .microsecond
  | "millis" | "msec" | "ms" => some .millisecond
  | "seconds" | "second" | "secs" | "sec" | "s" => some .second
  | "minutes" | "minute" | "min" | "mins" | "m" => some .minute
  | "hours" | "hour" | "hrs" | "hr" | "h" => some .hour
  | "days" | "day" | "d" => some .day
  | "weeks" | "week" | "wks" | "wk" | "w" => some .week
  | "months" | "month" | "M" => some .month
  | "years" | "year" | "yrs" | "yr" | "y" => some .year
  | _ => none

/-- The nanoseconds in a unit of less than a second, and none in the others. -/
def nanos : TimeUnit → Nat
  | .nanosecond => 1
  | .microsecond => 1000
  | .millisecond => 1000000
  | _ => 0

/-- The seconds in a unit, and none in those of less than a second. -/
def seconds : TimeUnit → Nat
  | .second => 1
  | .minute => 60
  | .hour => 3600
  | .day => 86400
  | .week => 604800
  | .month => 2630016
  | .year => 31557600
  | _ => 0

end TimeUnit

def writeNamed (name : String) (count : Nat) : List (List Char) :=
  if count = 0 then []
  else [Text.Decimal.digits count ++ name.toList ++ if count > 1 then ['s'] else []]

def writeSymbol (symbol : String) (count : Nat) : List (List Char) :=
  if count = 0 then [] else [Text.Decimal.digits count ++ symbol.toList]

/-- The counts of all units that occur, the largest first. -/
def parts (duration : Duration) : List (List Char) :=
  let seconds := duration.seconds
  let ofYear := seconds % 31557600
  let ofMonth := ofYear % 2630016
  let ofDay := ofMonth % 86400
  let nanos := duration.subsecond
  writeNamed "year" (seconds / 31557600) ++ writeNamed "month" (ofYear / 2630016) ++
    writeNamed "day" (ofMonth / 86400) ++ writeSymbol "h" (ofDay / 3600) ++
    writeSymbol "m" (ofDay % 3600 / 60) ++ writeSymbol "s" (ofDay % 60) ++
    writeSymbol "ms" (nanos / 1000000) ++ writeSymbol "us" (nanos / 1000 % 1000) ++
    writeSymbol "ns" (nanos % 1000)

def write (duration : Duration) : List Char :=
  if duration.nanos = 0 then ['0', 's'] else [' '].intercalate (parts duration)

def limit : Nat := Nat.pow 2 64

structure Count where
  whole : Nat
  decimals : Nat
  scale : Nat
  deriving DecidableEq, Repr

/-- The time a count of a unit adds, as seconds and nanoseconds, decimals apart. -/
def wholeTime (count : Count) (unit : TimeUnit) : Nat × Nat :=
  (count.whole * unit.seconds, count.whole * unit.nanos)

/-- The time that the decimals of a count add; those of a nanosecond are refused. -/
def decimalTime (count : Count) (unit : TimeUnit) : Option (Nat × Nat) :=
  if count.scale = 1 then some (0, 0)
  else
    match unit with
    | .nanosecond => none
    | .microsecond | .millisecond =>
        let scaled := count.decimals * unit.nanos
        if scaled < limit then some (0, scaled / count.scale) else none
    | .second | .minute =>
        let scaled := count.decimals * (unit.seconds * 1000000000)
        if scaled < limit then some (0, scaled / count.scale) else none
    | _ =>
        let scaled := count.decimals * unit.seconds
        if scaled < limit then some (scaled / count.scale, 0) else none

def addTime (total : Duration) (seconds nanos : Nat) : Option Duration :=
  if seconds < limit ∧ total.subsecond + nanos < limit then
    Duration.ofNanos? (total.nanos + seconds * 1000000000 + nanos)
  else none

def addCount (total : Duration) (count : Count) (name : List Char) : Option Duration := do
  let unit ← TimeUnit.ofName? (String.ofList name)
  let (seconds, nanos) := wholeTime count unit
  let total ← addTime total seconds nanos
  let (seconds, nanos) ← decimalTime count unit
  addTime total seconds nanos

def isNameChar (char : Char) : Bool :=
  char.isAlpha || char == 'µ'

inductive Stage where
  | gap
  | whole (number : Nat)
  | decimals (count : Count)
  | name (count : Count) (seen : List Char)
  deriving DecidableEq

/-- The reader: the sum so far, whether anything was read, and where it stands. -/
structure Reader where
  total : Duration
  started : Bool
  stage : Stage
  deriving DecidableEq

def appendDigit (number : Nat) (char : Char) : Option Nat :=
  let longer := number * 10 + Text.Decimal.digitValue char
  if longer < limit then some longer else none

def Reader.step (reader : Reader) (char : Char) : Option Reader :=
  match reader.stage with
  | .gap =>
      if Text.Decimal.isDigit char then
        some ⟨reader.total, true, .whole (Text.Decimal.digitValue char)⟩
      else if Text.isBlank char then some reader
      else none
  | .whole number =>
      if Text.Decimal.isDigit char then do
        let number ← appendDigit number char
        some { reader with stage := .whole number }
      else if Text.isBlank char then some reader
      else if isNameChar char then some { reader with stage := .name ⟨number, 0, 1⟩ [char] }
      else if char = '.' then some { reader with stage := .decimals ⟨number, 0, 1⟩ }
      else none
  | .decimals count =>
      if Text.Decimal.isDigit char then do
        let decimals ← appendDigit count.decimals char
        if count.scale * 10 < limit then
          some { reader with stage := .decimals ⟨count.whole, decimals, count.scale * 10⟩ }
        else none
      else if isNameChar char ∧ count.scale ≠ 1 then
        some { reader with stage := .name count [char] }
      else none
  | .name count seen =>
      if Text.Decimal.isDigit char then do
        let total ← addCount reader.total count seen.reverse
        some ⟨total, true, .whole (Text.Decimal.digitValue char)⟩
      else if Text.isBlank char then do
        let total ← addCount reader.total count seen.reverse
        some ⟨total, true, .gap⟩
      else if isNameChar char then some { reader with stage := .name count (char :: seen) }
      else none

def Reader.finish (reader : Reader) : Option Duration :=
  match reader.stage with
  | .gap => if reader.started then some reader.total else none
  | .name count seen => addCount reader.total count seen.reverse
  | _ => none

/-- Read a written duration.  A lone zero needs no unit. -/
def read? (chars : List Char) : Option Duration :=
  if chars = ['0'] then some Duration.zero
  else (chars.foldlM Reader.step ⟨Duration.zero, false, .gap⟩).bind Reader.finish

end BackupClient.Span
