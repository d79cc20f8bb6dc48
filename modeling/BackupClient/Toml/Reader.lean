import BackupClient.Toml.Quoted
import BackupClient.Toml.Scalar
import BackupClient.Toml.Table

/-!
Reading TOML documents.

A document is a list of statements, one a line: a header opens a table or another item of a list of
tables, and an assignment gives a key its value.  A reader that may call itself is bounded by the number
of characters that are left.
-/

namespace BackupClient.Toml

def dropBlanks (chars : List Char) : List Char :=
  chars.dropWhile fun char => char == ' ' || char == '\t'

/-- Drop blanks, line breaks and comments.  A comment ends at a line break. -/
def dropTrivia (inComment : Bool) : List Char → List Char
  | [] => []
  | char :: rest =>
      if char = '\n' then dropTrivia false rest
      else if isLineBreak char rest then dropTrivia false rest
      else if inComment then
        if isPrintable char then dropTrivia true rest else char :: rest
      else if char = ' ' ∨ char = '\t' then dropTrivia false rest
      else if char = '#' then dropTrivia true rest
      else char :: rest

def isBareKeyChar (char : Char) : Bool :=
  char.isAlphanum || char == '_' || char == '-'

def key? (chars : List Char) : Option (String × List Char) :=
  match chars with
  | '"' :: _ | '\'' :: _ =>
      (quotedKey? chars).map fun (text, rest) => (String.ofList text, rest)
  | _ =>
      let bare := chars.takeWhile isBareKeyChar
      if bare.isEmpty then none else some (String.ofList bare, chars.drop bare.length)

/-- Read keys with dots between them: those before the last one, the last one, and what follows. -/
def keys? : Nat → List Char → Option (List String × String × List Char)
  | 0, _ => none
  | fuel + 1, chars => do
      let (key, rest) ← key? (dropBlanks chars)
      match dropBlanks rest with
      | '.' :: rest => do
          let (path, last, rest) ← keys? fuel rest
          some (key :: path, last, rest)
      | rest => some ([], key, rest)

/-- Characters of numbers, dates and names. -/
def isWordChar (char : Char) : Bool :=
  char.isAlphanum || char == '_' || char == '-' || char == '+' || char == '.' || char == ':'

/-- The length of the word at the front.  A date takes a time behind one space with it. -/
def wordLength (chars : List Char) : Nat :=
  let word := chars.takeWhile isWordChar
  match chars.drop word.length with
  | ' ' :: rest =>
      let time := rest.takeWhile isWordChar
      if isDate word && isZonedTime time then word.length + 1 + time.length else word.length
  | _ => word.length

mutual

def value? : Nat → List Char → Option (Json × List Char)
  | 0, _ => none
  | fuel + 1, chars =>
      match chars with
      | '"' :: _ | '\'' :: _ =>
          (quotedText? chars).map fun (text, rest) => (.str (String.ofList text), rest)
      | '[' :: rest => items? fuel [] rest
      | '\x7b' :: rest =>
          match dropBlanks rest with
          | '\x7d' :: rest => some (.obj [], rest)
          | rest => inlineMembers? fuel [] rest
      | _ =>
          let length := wordLength chars
          (scalar? (chars.take length)).map fun value => (value, chars.drop length)

def items? : Nat → List Json → List Char → Option (Json × List Char)
  | 0, _, _ => none
  | fuel + 1, done, chars => do
      match dropTrivia false chars with
      | ']' :: rest => some (.arr done.reverse, rest)
      | rest =>
          let (item, rest) ← value? fuel rest
          match dropTrivia false rest with
          | ']' :: rest => some (.arr (item :: done).reverse, rest)
          | ',' :: rest => items? fuel (item :: done) rest
          | _ => none

def inlineMembers? : Nat → Entries → List Char → Option (Json × List Char)
  | 0, _, _ => none
  | fuel + 1, done, chars => do
      let (path, key, rest) ← keys? fuel chars
      match rest with
      | '=' :: rest =>
          let (value, rest) ← value? fuel (dropBlanks rest)
          let done ← done.assign path key value
          match dropBlanks rest with
          | '\x7d' :: rest => some (.obj (members done), rest)
          | ',' :: rest => inlineMembers? fuel done rest
          | _ => none
      | _ => none

end

/-- Read to the end of a line on which nothing but blanks and a comment is left. -/
def lineEnd? (chars : List Char) : Option (List Char) :=
  let rest :=
    match dropBlanks chars with
    | '#' :: rest => rest.dropWhile isPrintable
    | rest => rest
  match rest with
  | [] => some []
  | '\n' :: rest => some rest
  | '\r' :: '\n' :: rest => some rest
  | _ => none

/-- A document so far: its tables, and the path of the table that is being filled. -/
structure Document where
  entries : Entries
  current : List String

def statement? (fuel : Nat) (document : Document) (chars : List Char) :
    Option (Document × List Char) := do
  match chars with
  | '[' :: '[' :: rest =>
      let (path, key, rest) ← keys? fuel rest
      match rest with
      | ']' :: ']' :: rest =>
          some (⟨← document.entries.append? path key, path ++ [key]⟩, ← lineEnd? rest)
      | _ => none
  | '[' :: rest =>
      let (path, key, rest) ← keys? fuel rest
      match rest with
      | ']' :: rest => some (⟨← document.entries.open? path key, path ++ [key]⟩, ← lineEnd? rest)
      | _ => none
  | _ =>
      let (path, key, rest) ← keys? fuel chars
      match rest with
      | '=' :: rest =>
          let (value, rest) ← value? fuel (dropBlanks rest)
          let entries ←
            Entries.within .subheader (fun _ table => table.assign path key value)
              document.current .header document.entries
          some (⟨entries, document.current⟩, ← lineEnd? rest)
      | _ => none

def lines? : Nat → Document → List Char → Option Document
  | 0, _, _ => none
  | fuel + 1, document, chars =>
      match dropBlanks chars with
      | [] => some document
      | char :: rest =>
          match lineEnd? (char :: rest) with
          | some rest => lines? fuel document rest
          | none => do
              let (document, rest) ← statement? fuel document (char :: rest)
              lines? fuel document rest

/-- The root table of a document.  A byte order mark may stand before it. -/
def parse? (text : List Char) : Option Json :=
  let chars :=
    match text with
    | char :: rest => if char.toNat = 0xFEFF then rest else text
    | [] => []
  (lines? (2 * chars.length + 4) ⟨[], []⟩ chars).map fun document => .obj (members document.entries)

end BackupClient.Toml
