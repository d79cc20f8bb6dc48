import BackupClient.Files.Tree
import BackupClient.Shell.Arithmetic
import BackupClient.Text.Utf8

/-!
What the commands of a shell write and answer that need nothing but their arguments.
-/

namespace BackupClient.Shell

def bytesOf (chars : List Char) : List UInt8 :=
  Text.Utf8.encode chars

def isOctal (char : Char) : Bool :=
  '0' ≤ char && char ≤ '7'

/-- Where the meaning of a backslash is looked for: in a format, or in an argument, where an octal number
may have one more digit after a zero and `c` ends all output. -/
inductive EscapeStyle where
  | format
  | argument
  deriving DecidableEq, Repr

def readEscape (style : EscapeStyle) (chars : List Char) : List UInt8 × List Char × Bool :=
  match chars with
  | [] => (bytesOf ['\\'], [], false)
  | char :: rest =>
      if isOctal char then
        let source := if style = .argument ∧ char = '0' then rest else chars
        let digits := (source.take 3).takeWhile isOctal
        let value := digits.foldl (fun total digit => total * 8 + (digit.toNat - 48)) 0
        ([value.toUInt8], source.drop digits.length, false)
      else
        match char with
        | 'a' => ([7], rest, false)
        | 'b' => ([8], rest, false)
        | 'e' => ([27], rest, false)
        | 'f' => ([12], rest, false)
        | 'n' => ([10], rest, false)
        | 'r' => ([13], rest, false)
        | 't' => ([9], rest, false)
        | 'v' => ([11], rest, false)
        | '\\' => (bytesOf ['\\'], rest, false)
        | 'c' => if style = .argument then ([], [], true) else (bytesOf ['\\', 'c'], rest, false)
        | other => (bytesOf ['\\', other], rest, false)

def escapedBytes : Nat → List Char → List UInt8 × Bool
  | 0, _ => ([], false)
  | _, [] => ([], false)
  | fuel + 1, '\\' :: rest =>
      let (bytes, rest, stops) := readEscape .argument rest
      if stops then (bytes, true)
      else
        let (others, stops) := escapedBytes fuel rest
        (bytes ++ others, stops)
  | fuel + 1, char :: rest =>
      let (others, stops) := escapedBytes fuel rest
      (bytesOf [char] ++ others, stops)

def echoBytes (arguments : List (List Char)) : List UInt8 :=
  let (arguments, ending) : List (List Char) × List UInt8 :=
    match arguments with
    | ['-', 'n'] :: rest => (rest, [])
    | _ => (arguments, [10])
  let line := [' '].intercalate arguments
  let (bytes, stops) := escapedBytes line.length.succ line
  if stops then bytes else bytes ++ ending

/-- How a value is printed: at the left, filled with zeros, and how wide. -/
structure FieldStyle where
  left : Bool
  zero : Bool
  width : Nat
  deriving DecidableEq, Repr

def FieldStyle.fill (style : FieldStyle) (bytes : List UInt8) : List UInt8 :=
  let blanks := List.replicate (style.width - bytes.length) 32
  if style.left then bytes ++ blanks else blanks ++ bytes

def FieldStyle.number (style : FieldStyle) (value : Int) : List UInt8 :=
  let digits := Text.Decimal.digits value.natAbs
  let sign := if value < 0 then ['-'] else []
  let fillers :=
    if style.zero ∧ ¬ style.left then
      List.replicate (style.width - digits.length - sign.length) '0'
    else []
  style.fill (bytesOf (sign ++ fillers ++ digits))

def readStyle (style : FieldStyle) : List Char → FieldStyle × List Char
  | '-' :: rest => readStyle { style with left := true } rest
  | '0' :: rest => readStyle { style with zero := true } rest
  | chars =>
      let width := chars.takeWhile Char.isDigit
      ({ style with width := Text.Decimal.value width }, chars.drop width.length)

/-- The number that an argument begins with, zero where it begins with none. -/
def argumentNumber (argument : List Char) : Int :=
  match argument with
  | '-' :: rest => -(Text.Decimal.value (rest.takeWhile Char.isDigit) : Int)
  | _ => Text.Decimal.value (argument.takeWhile Char.isDigit)

def convert (style : FieldStyle) (kind : Char) (argument : List Char) : List UInt8 × Bool :=
  match kind with
  | 's' => (style.fill (bytesOf argument), false)
  | 'b' =>
      let (bytes, stops) := escapedBytes argument.length.succ argument
      (style.fill bytes, stops)
  | 'c' => (style.fill (bytesOf (argument.take 1)), false)
  | 'd' => (style.number (argumentNumber argument), false)
  | other => (bytesOf ['%', other], false)

/-- One pass over a format: the bytes, the arguments that are left, and whether output ends. -/
def formatOnce : Nat → List Char → List (List Char) → List UInt8 × List (List Char) × Bool
  | 0, _, arguments => ([], arguments, true)
  | _, [], arguments => ([], arguments, false)
  | fuel + 1, '\\' :: rest, arguments =>
      let (bytes, rest, _) := readEscape .format rest
      let (others, arguments, stops) := formatOnce fuel rest arguments
      (bytes ++ others, arguments, stops)
  | fuel + 1, '%' :: '%' :: rest, arguments =>
      let (others, arguments, stops) := formatOnce fuel rest arguments
      (bytesOf ['%'] ++ others, arguments, stops)
  | fuel + 1, '%' :: rest, arguments =>
      match readStyle ⟨false, false, 0⟩ rest with
      | (_, []) => (bytesOf ('%' :: rest), arguments, true)
      | (style, kind :: rest) =>
          let (bytes, stops) := convert style kind (arguments.headD [])
          if stops then (bytes, [], true)
          else
            let (others, arguments, stops) := formatOnce fuel rest arguments.tail
            (bytes ++ others, arguments, stops)
  | fuel + 1, char :: rest, arguments =>
      let (others, arguments, stops) := formatOnce fuel rest arguments
      (bytesOf [char] ++ others, arguments, stops)

/-- What `printf` writes.  The format is used again while arguments are left. -/
def printfBytes (format : List Char) : Nat → List (List Char) → List UInt8
  | 0, _ => []
  | fuel + 1, arguments =>
      let (bytes, left, stops) := formatOnce format.length.succ format arguments
      if stops ∨ left.isEmpty ∨ left.length = arguments.length then bytes
      else bytes ++ printfBytes format fuel left

def testUnary (tree : Files.Tree) (operator : String) (operand : List Char) : Option Bool :=
  let found := tree.inspect operand
  match operator with
  | "-n" => some !operand.isEmpty
  | "-z" => some operand.isEmpty
  | "-e" | "-r" | "-w" | "-x" => some found.toOption.isSome
  | "-d" => some (tree.isDirectory operand)
  | "-f" =>
      some (match found with
        | .ok (.file _) => true
        | _ => false)
  | "-s" =>
      some (match found with
        | .ok (.file content) => !content.isEmpty
        | _ => false)
  | "-t" => some false
  | _ => none

def testBinary (operator : String) (left right : List Char) : Option Bool := do
  match operator with
  | "=" | "==" => some (left = right)
  | "!=" => some (left ≠ right)
  | _ =>
      let left ← integer? left
      let right ← integer? right
      match operator with
      | "-eq" => some (left = right)
      | "-ne" => some (left ≠ right)
      | "-lt" => some (left < right)
      | "-le" => some (left ≤ right)
      | "-gt" => some (right < left)
      | "-ge" => some (right ≤ left)
      | _ => none

/-- Whether a test holds, unless it is none. -/
def testHolds? (tree : Files.Tree) : List (List Char) → Option Bool
  | [] => some false
  | [word] => some !word.isEmpty
  | [left, operator, right] =>
      (testBinary (String.ofList operator) left right).or
        (if left = ['!'] then
          (testUnary tree (String.ofList operator) right).map fun holds => !holds
        else none)
  | ['!'] :: rest => (testHolds? tree rest).map fun holds => !holds
  | [operator, operand] => testUnary tree (String.ofList operator) operand
  | _ => none

/-- The exit status of `test`: 0 if the test holds, 1 if not, 2 if it is none. -/
def testStatus (tree : Files.Tree) (words : List (List Char)) : Nat :=
  match testHolds? tree words with
  | some holds => if holds then 0 else 1
  | none => 2

def firstLines : Nat → List UInt8 → List UInt8
  | 0, _ => []
  | _, [] => []
  | count + 1, byte :: rest =>
      if byte = 10 then byte :: firstLines count rest else byte :: firstLines (count + 1) rest

def setBytes : Nat → List Char → List UInt8
  | 0, _ => []
  | _, [] => []
  | fuel + 1, '\\' :: rest =>
      let (bytes, rest, _) := readEscape .format rest
      bytes ++ setBytes fuel rest
  | fuel + 1, first :: '-' :: last :: rest =>
      ((List.range (last.toNat + 1 - first.toNat)).map fun step => (first.toNat + step).toUInt8) ++
        setBytes fuel rest
  | fuel + 1, char :: rest => bytesOf [char] ++ setBytes fuel rest

/-- What `tr` writes: bytes of one set become those of another, whose last one is used again, or they are
left out. -/
def translate (words : List (List Char)) (bytes : List UInt8) : List UInt8 :=
  match words with
  | [['-', 'd'], source] =>
      let set := setBytes source.length.succ source
      bytes.filter fun byte => !set.contains byte
  | [source, target] =>
      let source := setBytes source.length.succ source
      let target := setBytes target.length.succ target
      bytes.map fun byte =>
        match source.findIdx? (· = byte) with
        | some index => (target[index]?).getD (target.getLastD byte)
        | none => byte
  | _ => bytes

def sleepNanos? (argument : List Char) : Option Nat :=
  let whole := argument.takeWhile Char.isDigit
  let rest := argument.drop whole.length
  let (fraction, rest) :=
    match rest with
    | '.' :: rest => (rest.takeWhile Char.isDigit, rest.dropWhile Char.isDigit)
    | _ => ([], rest)
  let unit? : Option Nat :=
    match rest with
    | [] | ['s'] => some 1
    | ['m'] => some 60
    | ['h'] => some 3600
    | ['d'] => some 86400
    | _ => none
  if whole.isEmpty ∧ fraction.isEmpty then none
  else
    unit?.map fun unit =>
      unit * Text.Decimal.value (whole ++ (fraction ++ List.replicate 9 '0').take 9)

end BackupClient.Shell
