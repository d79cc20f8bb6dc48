/-!
Decimal numerals of natural numbers and integers.

A numeral is written without leading zeros, and `value` reads any run of ASCII digits.
-/

namespace BackupClient.Text.Decimal

def digitChar (digit : Nat) : Char :=
  Char.ofNat (48 + digit)

/-- The digits of a number, most significant first. -/
def digits (number : Nat) : List Char :=
  if number < 10 then [digitChar number]
  else digits (number / 10) ++ [digitChar (number % 10)]
termination_by number
decreasing_by omega

def isDigit (char : Char) : Bool :=
  '0' ≤ char && char ≤ '9'

def digitValue (char : Char) : Nat :=
  char.toNat - 48

/-- The number that a run of digits denotes, continuing from `start`. -/
def valueFrom (start : Nat) (chars : List Char) : Nat :=
  chars.foldl (fun total char => total * 10 + digitValue char) start

def value (chars : List Char) : Nat :=
  valueFrom 0 chars

def value? (chars : List Char) : Option Nat :=
  if chars.isEmpty || !chars.all isDigit then none else some (value chars)

def ofInt (number : Int) : List Char :=
  if number < 0 then '-' :: digits number.natAbs else digits number.natAbs

/-- A numeral filled with zeros at the front up to the given width. -/
def padded (width number : Nat) : List Char :=
  let chars := digits number
  List.replicate (width - chars.length) '0' ++ chars

def text (number : Nat) : String :=
  String.ofList (digits number)

def intText (number : Int) : String :=
  String.ofList (ofInt number)

end BackupClient.Text.Decimal
