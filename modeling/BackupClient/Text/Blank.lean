/-!
Blank characters, trimming and lines.

A character is blank when Unicode gives it the property `White_Space`.  Lines end at a line feed;
a carriage return just before the line feed belongs to the line's end and not to the line.
-/

namespace BackupClient.Text

/-- Unicode's property `White_Space`. -/
def isBlank (char : Char) : Bool :=
  let code := char.toNat
  (9 ≤ code && code ≤ 13) || code == 0x20 || code == 0x85 || code == 0xA0 || code == 0x1680 ||
    (0x2000 ≤ code && code ≤ 0x200A) || code == 0x2028 || code == 0x2029 || code == 0x202F ||
    code == 0x205F || code == 0x3000

def trimStart (chars : List Char) : List Char :=
  chars.dropWhile isBlank

def trimEnd (chars : List Char) : List Char :=
  (chars.reverse.dropWhile isBlank).reverse

def trim (chars : List Char) : List Char :=
  trimEnd (trimStart chars)

/-- Cut after every line feed, so that the pieces join to the whole text again. -/
def segments : List Char → List (List Char)
  | [] => []
  | char :: rest =>
      if char = '\n' then [char] :: segments rest
      else
        match segments rest with
        | [] => [[char]]
        | segment :: others => (char :: segment) :: others

theorem flatten_segments (chars : List Char) : (segments chars).flatten = chars := by
  induction chars with
  | nil => rfl
  | cons char rest inductionHypothesis =>
      unfold segments
      split
      · simp [inductionHypothesis]
      · split <;> simp_all

/-- The text of a segment, without its line feed and one carriage return before that. -/
def chomp (segment : List Char) : List Char :=
  match segment.reverse with
  | '\n' :: '\r' :: line => line.reverse
  | '\n' :: line => line.reverse
  | _ => segment

def lines (chars : List Char) : List (List Char) :=
  (segments chars).map chomp

def trimmed (text : String) : String :=
  String.ofList (trim text.toList)

def linesOf (text : String) : List String :=
  (lines text.toList).map String.ofList

end BackupClient.Text

