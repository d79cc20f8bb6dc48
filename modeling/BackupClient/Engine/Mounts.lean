import BackupClient.Files.Path
import BackupClient.Text.Blank
import BackupClient.Text.Decimal
import BackupClient.Text.Utf8

/-!
Mount points of repositories and archives.

Everything is mounted below one directory under names that hold the kind and the number of what is
mounted, so that the mounts can be found again in the system's table.
-/

namespace BackupClient

/-- Where repositories and archives are mounted, sorted by number. -/
structure Mounts where
  repositories : List (Nat × String)
  archives : List (Nat × String)
  deriving DecidableEq, Repr

namespace Mounts

def none : Mounts :=
  ⟨[], []⟩

def isEmpty (mounts : Mounts) : Bool :=
  mounts.repositories.isEmpty && mounts.archives.isEmpty

def repositoryStem : String := "repo-"

def archiveStem : String := "archive-"

/-- The directory below which everything is mounted, in a user's directory for running programs. -/
def standardRoot (runtimeDirectory : String) : String :=
  String.ofList (Path.join runtimeDirectory.toList "arco".toList)

def directory (root : String) (stem : String) (id : Int) : String :=
  String.ofList (Path.join root.toList (stem ++ Text.Decimal.intText id).toList)

def repositoryDirectory (root : String) (id : Int) : String :=
  directory root repositoryStem id

def archiveDirectory (root : String) (id : Int) : String :=
  directory root archiveStem id

/-- Put an entry in its place, instead of one with the same number. -/
def insert (id : Nat) (path : String) : List (Nat × String) → List (Nat × String)
  | [] => [(id, path)]
  | (other, held) :: rest =>
      if id < other then (id, path) :: (other, held) :: rest
      else if id = other then (id, path) :: rest
      else (other, held) :: insert id path rest

/-- The number behind a stem, of sixty-four bits with a sign. -/
def numbered? (stem : List Char) (name : List Char) : Option Nat :=
  if stem.isPrefixOf name then
    (Text.Decimal.value? (name.drop stem.length)).bind fun id =>
      if id < Nat.pow 2 63 then some id else Option.none
  else Option.none

def add (root : List Char) (mounts : Mounts) (point : String) : Mounts :=
  if Path.parent? point.toList = some (Path.components root) then
    match Path.fileName? point.toList with
    | Option.none => mounts
    | some name =>
        match numbered? repositoryStem.toList name with
        | some id => { mounts with repositories := insert id point mounts.repositories }
        | Option.none =>
            match numbered? archiveStem.toList name with
            | some id => { mounts with archives := insert id point mounts.archives }
            | Option.none => mounts
  else mounts

/-- The client's mounts among some mount points.  Of several for one number the last one counts. -/
def ofPoints (root : String) (points : List String) : Mounts :=
  points.foldl (add root.toList) none

/-- The byte of three octal digits.  The first one may be a plus sign. -/
def octalByte? (first second third : UInt8) : Option UInt8 :=
  let digit? (byte : UInt8) : Option Nat :=
    if 0x30 ≤ byte ∧ byte ≤ 0x37 then some (byte.toNat - 0x30) else Option.none
  let high? := if first = 0x2B then some 0 else digit? first
  match high?, digit? second, digit? third with
  | some high, some middle, some low =>
      let value := high * 64 + middle * 8 + low
      if value ≤ 255 then some value.toUInt8 else Option.none
  | _, _, _ => Option.none

/-- Undo the escapes of a mount table: a backslash and three octal digits stand for a byte. -/
def unescape : List UInt8 → List UInt8
  | first :: second :: third :: fourth :: rest =>
      if first = 0x5C then
        match octalByte? second third fourth with
        | some byte => byte :: unescape rest
        | Option.none => first :: unescape (second :: third :: fourth :: rest)
      else first :: unescape (second :: third :: fourth :: rest)
  | short => short

def words : List Char → List (List Char)
  | [] => [[]]
  | char :: rest =>
      if char = ' ' then [] :: words rest
      else
        match words rest with
        | [] => [[char]]
        | word :: others => (char :: word) :: others

/-- The mount point of a line of the system's table, which is its fifth word. -/
def tablePoint? (line : List Char) : Option String :=
  (words line)[4]?.map fun word =>
    String.ofList (Text.Utf8.decodeLossy (unescape (Text.Utf8.encode word)))

def ofTable (root : String) (table : List Char) : Mounts :=
  ofPoints root ((Text.lines table).filterMap tablePoint?)

/-- What follows the first place where a text occurs. -/
def afterFirst? (separator : List Char) : List Char → Option (List Char)
  | [] => if separator.isEmpty then some [] else Option.none
  | char :: rest =>
      if separator.isPrefixOf (char :: rest) then some ((char :: rest).drop separator.length)
      else afterFirst? separator rest

/-- What stands before the last place where a text occurs, or all of it. -/
def beforeLast (separator : List Char) (chars : List Char) : List Char :=
  match afterFirst? separator.reverse chars.reverse with
  | some before => before.reverse
  | Option.none => chars

def listedPoint? (line : List Char) : Option String :=
  (afterFirst? " on ".toList line).map fun rest =>
    String.ofList (beforeLast " (".toList rest)

def ofListing (root : String) (output : List Char) : Mounts :=
  ofPoints root ((Text.lines output).filterMap listedPoint?)

end Mounts

end BackupClient
