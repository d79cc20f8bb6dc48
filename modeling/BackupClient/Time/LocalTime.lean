import BackupClient.Time.Calendar
import BackupClient.Text.Blank
import BackupClient.Text.Decimal

/-!
Dates with a time of day and no time zone, written `2024-12-02T10:28:45.000000`.

The written form has microseconds.  The reader takes any number of decimals, keeps nine, and lets blanks
stand before each number.  A leap second is second 59 with a thousand million nanoseconds or more.
-/

namespace BackupClient

open Calendar

structure LocalTime where
  date : Date
  hour : Nat
  minute : Nat
  second : Nat
  nanos : Nat
  deriving DecidableEq, Repr

namespace LocalTime

/-- Does the date exist, in a year with instants, and the time too? -/
def isValid (time : LocalTime) : Bool :=
  leastYear ≤ time.date.year && time.date.year ≤ greatestYear &&
    1 ≤ time.date.month && time.date.month ≤ 12 &&
    1 ≤ time.date.day && time.date.day ≤ daysInMonth time.date.year time.date.month &&
    time.hour < 24 && time.minute < 60 && time.second < 60 && time.nanos < 2000000000

/-- The seconds from the start of 1970, the time of day taken as UTC. -/
def epochSeconds (time : LocalTime) : Int :=
  time.date.toDays * 86400 + (time.hour * 3600 + time.minute * 60 + time.second : Nat)

/-- A year: four digits, or a sign and at least four digits where four do not suffice. -/
def writeYear (year : Int) : List Char :=
  if 0 ≤ year ∧ year ≤ 9999 then Text.Decimal.padded 4 year.toNat
  else (if year < 0 then '-' else '+') :: Text.Decimal.padded 4 year.natAbs

/-- The written form, down to microseconds. -/
def write (time : LocalTime) : List Char :=
  writeYear time.date.year ++ '-' :: Text.Decimal.padded 2 time.date.month ++
    '-' :: Text.Decimal.padded 2 time.date.day ++ 'T' :: Text.Decimal.padded 2 time.hour ++
    ':' :: Text.Decimal.padded 2 time.minute ++
    ':' :: Text.Decimal.padded 2 (time.second + time.nanos / 1000000000) ++
    '.' :: Text.Decimal.padded 6 (time.nanos % 1000000000 / 1000)

def readDigits (width : Nat) (chars : List Char) : Option (Nat × List Char) :=
  let digits := (chars.takeWhile Text.Decimal.isDigit).take width
  if digits.isEmpty then none else some (Text.Decimal.value digits, chars.drop digits.length)

/-- Read a number of at most two digits that lies between two bounds, after any blanks. -/
def readNumber (low high : Nat) (chars : List Char) : Option (Nat × List Char) := do
  let (number, rest) ← readDigits 2 (Text.trimStart chars)
  if low ≤ number ∧ number ≤ high then some (number, rest) else none

/-- Read a year after any blanks: four digits at most, or a sign and any number of digits. -/
def readYear (chars : List Char) : Option (Int × List Char) :=
  match Text.trimStart chars with
  | '-' :: rest => (readDigits rest.length rest).map fun (year, rest) => (-(year : Int), rest)
  | '+' :: rest => (readDigits rest.length rest).map fun (year, rest) => ((year : Int), rest)
  | rest => (readDigits 4 rest).map fun (year, rest) => ((year : Int), rest)

def expect (char : Char) : List Char → Option (List Char)
  | [] => none
  | first :: rest => if first = char then some rest else none

/-- Read the decimals of a second, if a point begins them.  Those beyond the ninth are dropped. -/
def readDecimals (chars : List Char) : Option (Nat × List Char) :=
  match chars with
  | '.' :: rest =>
      let digits := rest.takeWhile Text.Decimal.isDigit
      if digits.isEmpty then none
      else
        let kept := digits.take 9
        some (Text.Decimal.value kept * Nat.pow 10 (9 - kept.length), rest.drop digits.length)
  | _ => some (0, chars)

def read? (chars : List Char) : Option LocalTime := do
  let (year, rest) ← readYear chars
  let (month, rest) ← readNumber 1 12 (← expect '-' rest)
  let (day, rest) ← readNumber 1 31 (← expect '-' rest)
  let (hour, rest) ← readNumber 0 23 (← expect 'T' rest)
  let (minute, rest) ← readNumber 0 59 (← expect ':' rest)
  let (second, rest) ← readNumber 0 60 (← expect ':' rest)
  let (decimals, rest) ← readDecimals rest
  let time : LocalTime :=
    if second = 60 then ⟨⟨year, month, day⟩, hour, minute, 59, 1000000000 + decimals⟩
    else ⟨⟨year, month, day⟩, hour, minute, second, decimals⟩
  if rest.isEmpty && time.isValid then some time else none

/-- The time of day and date at an instant, in UTC. -/
def ofInstant (instant : Instant) : LocalTime :=
  let ofDay := (instant.seconds.fmod 86400).toNat
  ⟨Date.ofDays (instant.seconds.fdiv 86400), ofDay / 3600, ofDay / 60 % 60, ofDay % 60,
    instant.subsecond⟩

/-- The written form as it stands in the names of archives: `2024-12-02-10-28-45`. -/
def stamp (time : LocalTime) : List Char :=
  writeYear time.date.year ++ '-' :: Text.Decimal.padded 2 time.date.month ++
    '-' :: Text.Decimal.padded 2 time.date.day ++ '-' :: Text.Decimal.padded 2 time.hour ++
    '-' :: Text.Decimal.padded 2 time.minute ++ '-' :: Text.Decimal.padded 2 time.second

end LocalTime

end BackupClient
