/-!
Shell patterns.

A star stands for any text, a question mark for any one character, and brackets for one character of a
class.  Quoted signs stand for themselves, and so does everything else.
-/

namespace BackupClient.Shell

inductive ClassItem where
  | single (char : Char)
  | range (first last : Char)
  deriving DecidableEq, Repr

inductive Piece where
  | literal (char : Char)
  | anyText
  | anyChar
  | oneOf (inverted : Bool) (items : List ClassItem)
  deriving DecidableEq, Repr

def ClassItem.holds (item : ClassItem) (char : Char) : Bool :=
  match item with
  | .single other => other == char
  | .range first last => first ≤ char && char ≤ last

def Piece.accepts (piece : Piece) (char : Char) : Bool :=
  match piece with
  | .literal other => other == char
  | .anyText => false
  | .anyChar => true
  | .oneOf inverted items => (items.any (·.holds char)) != inverted

/-- What is left of a text after each of its beginnings, the whole text first. -/
def suffixes : List Char → List (List Char)
  | [] => [[]]
  | char :: text => (char :: text) :: suffixes text

def matchPieces : List Piece → List Char → Bool
  | [], text => text.isEmpty
  | .anyText :: pieces, text => (suffixes text).any (matchPieces pieces)
  | _ :: _, [] => false
  | piece :: pieces, char :: text => piece.accepts char && matchPieces pieces text

/-- A character, and whether it is quoted. -/
abbrev Marked := Char × Bool

def closesClass (isFirst : Bool) (marked : Marked) : Bool :=
  marked.1 == ']' && !marked.2 && !isFirst

/-- The members of a class up to its end, and the rest after it.  A closing bracket counts as a member
where it comes first. -/
def readClass (isFirst : Bool) : List Marked → Option (List ClassItem × List Marked)
  | [] => none
  | (char, quoted) :: ('-', false) :: last :: rest =>
      if closesClass isFirst (char, quoted) then some ([], ('-', false) :: last :: rest)
      else if closesClass false last then some ([.single char, .single '-'], rest)
      else
        (readClass false rest).map fun (items, after) => (.range char last.1 :: items, after)
  | marked :: rest =>
      if closesClass isFirst marked then some ([], rest)
      else (readClass false rest).map fun (items, after) => (.single marked.1 :: items, after)

/-- The class that begins after a bracket: its sign of inversion, its members and the rest. -/
def readBracket (chars : List Marked) : Option (Piece × List Marked) :=
  match chars with
  | ('!', false) :: rest =>
      (readClass true rest).map fun (items, after) => (.oneOf true items, after)
  | _ => (readClass true chars).map fun (items, after) => (.oneOf false items, after)

def readPattern : Nat → List Marked → List Piece
  | 0, _ => []
  | _, [] => []
  | fuel + 1, (char, quoted) :: rest =>
      if quoted then .literal char :: readPattern fuel rest
      else if char = '*' then .anyText :: readPattern fuel rest
      else if char = '?' then .anyChar :: readPattern fuel rest
      else if char = '[' then
        match readBracket rest with
        | some (piece, after) => piece :: readPattern fuel after
        | none => .literal char :: readPattern fuel rest
      else .literal char :: readPattern fuel rest

def matchMarked (pattern : List Marked) (text : List Char) : Bool :=
  matchPieces (readPattern pattern.length pattern) text

def withoutStart (longest : Bool) (pattern : List Marked) (text : List Char) : List Char :=
  let sizes := List.range text.length.succ
  let sizes := if longest then sizes.reverse else sizes
  match sizes.find? fun size => matchMarked pattern (text.take size) with
  | some size => text.drop size
  | none => text

def withoutEnd (longest : Bool) (pattern : List Marked) (text : List Char) : List Char :=
  let sizes := List.range text.length.succ
  let sizes := if longest then sizes else sizes.reverse
  match sizes.find? fun size => matchMarked pattern (text.drop size) with
  | some size => text.take size
  | none => text

end BackupClient.Shell
