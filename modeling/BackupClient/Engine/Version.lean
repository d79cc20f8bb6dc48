import BackupClient.Text.Blank
import BackupClient.Text.Decimal
import BackupClient.Text.Digit

/-!
Versions of the engine.

The engine prints its name and its version.  Other lines may stand around that one.
-/

namespace BackupClient

structure EngineVersion where
  major : Nat
  minor : Nat
  patch : Nat
  deriving DecidableEq, Repr

namespace EngineVersion

def display (version : EngineVersion) : String :=
  Text.Decimal.text version.major ++ "." ++ Text.Decimal.text version.minor ++ "." ++
    Text.Decimal.text version.patch

def order (left right : EngineVersion) : Ordering :=
  (compare left.major right.major).then
    ((compare left.minor right.minor).then (compare left.patch right.patch))

def digitRun? (chars : List Char) : Option (List Char × List Char) :=
  let run := chars.takeWhile Text.isUnicodeDigit
  if run.isEmpty then none else some (run, chars.drop run.length)

def point? : List Char → Option (List Char)
  | '.' :: rest => some rest
  | _ => none

def numerals? (chars : List Char) : Option (List Char × List Char × List Char) := do
  let (major, rest) ← digitRun? chars
  let (minor, rest) ← digitRun? (← point? rest)
  let (patch, _) ← digitRun? (← point? rest)
  some (major, minor, patch)

def afterWord? (chars : List Char) : Option (List Char × List Char × List Char) :=
  let word := chars.takeWhile (!Text.isBlank ·)
  let rest := chars.drop word.length
  if word.isEmpty || !(rest.head?.any Text.isBlank) then none else numerals? (Text.trimStart rest)

/-- The digits of a version behind the first word of a line, in the first line that has them. -/
def find? (atStart : Bool) : List Char → Option (List Char × List Char × List Char)
  | [] => none
  | char :: rest =>
      match if atStart then afterWord? (char :: rest) else none with
      | some numerals => some numerals
      | none => find? (char == '\n') rest

def number? (digits : List Char) : Option Nat :=
  (Text.Decimal.value? digits).bind fun number => if number < Nat.pow 2 32 then some number else none

def parse? (output : List Char) : Option EngineVersion := do
  let (major, minor, patch) ← find? true (Text.trim output)
  some ⟨← number? major, ← number? minor, ← number? patch⟩

end EngineVersion

end BackupClient
