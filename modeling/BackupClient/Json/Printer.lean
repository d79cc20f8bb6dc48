import BackupClient.Json.Basic
import BackupClient.Number.Shortest

/-!
JSON text of values, without any blanks.

Quotes, backslashes and control characters are escaped and everything else stands for itself.  A double
is written as its shortest numeral, and one that is no number as `null`.
-/

namespace BackupClient.Json

def hexDigit (value : Nat) : Char :=
  if value < 10 then Char.ofNat (48 + value) else Char.ofNat (87 + value)

def escapeChar (char : Char) : List Char :=
  match char with
  | '"' => ['\\', '"']
  | '\\' => ['\\', '\\']
  | '\n' => ['\\', 'n']
  | '\r' => ['\\', 'r']
  | '\t' => ['\\', 't']
  | _ =>
      if char.toNat = 8 then ['\\', 'b']
      else if char.toNat = 12 then ['\\', 'f']
      else if char.toNat < 0x20 then
        ['\\', 'u', '0', '0', hexDigit (char.toNat / 16), hexDigit (char.toNat % 16)]
      else [char]

def quote (text : List Char) : List Char :=
  '"' :: text.flatMap escapeChar ++ ['"']

mutual

def write : Json → List Char
  | .null => ['n', 'u', 'l', 'l']
  | .bool true => ['t', 'r', 'u', 'e']
  | .bool false => ['f', 'a', 'l', 's', 'e']
  | .int value => Text.Decimal.ofInt value
  | .float value => (value.numeral?).getD ['n', 'u', 'l', 'l']
  | .str text => quote text.toList
  | .arr items => '[' :: writeItems items ++ [']']
  | .obj members => '\x7b' :: writeMembers members ++ ['\x7d']
  | .unreadable => ['n', 'u', 'l', 'l']

def writeItems : List Json → List Char
  | [] => []
  | [item] => write item
  | item :: items => write item ++ ',' :: writeItems items

def writeMembers : List (String × Json) → List Char
  | [] => []
  | [(name, value)] => quote name.toList ++ ':' :: write value
  | (name, value) :: members =>
      quote name.toList ++ ':' :: write value ++ ',' :: writeMembers members

end

def render (value : Json) : String :=
  String.ofList value.write

end BackupClient.Json
