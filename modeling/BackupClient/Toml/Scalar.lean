import BackupClient.Json.Basic
import BackupClient.Text.Decimal
import BackupClient.Time.Calendar

/-!
Numbers, dates and truth values of TOML.

Whole numbers have sixty-four bits.  Other numbers, dates and times are recognised, and as no setting is
of such a kind they are `unreadable`.
-/

namespace BackupClient.Toml

open Text.Decimal (isDigit)

/-- Take single underscores out from between the digits of a run that begins and ends with a digit. -/
def digits? (accepts : Char → Bool) : List Char → Option (List Char)
  | [] => none
  | [char] => if accepts char then some [char] else none
  | char :: '_' :: rest =>
      if accepts char then (digits? accepts rest).map (char :: ·) else none
  | char :: rest => if accepts char then (digits? accepts rest).map (char :: ·) else none

def baseValue (base : Nat) (digits : List Char) : Nat :=
  digits.foldl
    (fun total char =>
      let digit :=
        if isDigit char then char.toNat - 48
        else if char.toNat ≥ 97 then char.toNat - 87
        else char.toNat - 55
      total * base + digit)
    0

def bounded (number : Int) : Option Json :=
  if -(Nat.pow 2 63) ≤ number ∧ number < Nat.pow 2 63 then some (.int number) else none

def isHexDigit (char : Char) : Bool :=
  isDigit char || ('a' ≤ char && char ≤ 'f') || ('A' ≤ char && char ≤ 'F')

def unsigned (word : List Char) : Bool × List Char :=
  match word with
  | '-' :: rest => (true, rest)
  | '+' :: rest => (false, rest)
  | rest => (false, rest)

def wholeDigits? (word : List Char) : Option (List Char) :=
  if word.head? = some '0' ∧ word.length > 1 then none else digits? isDigit word

def integer? (word : List Char) : Option Json :=
  match word with
  | '0' :: 'x' :: rest =>
      (digits? isHexDigit rest).bind fun digits => bounded (baseValue 16 digits)
  | '0' :: 'o' :: rest =>
      (digits? (fun char => '0' ≤ char && char ≤ '7') rest).bind fun digits =>
        bounded (baseValue 8 digits)
  | '0' :: 'b' :: rest =>
      (digits? (fun char => char == '0' || char == '1') rest).bind fun digits =>
        bounded (baseValue 2 digits)
  | _ =>
      let (negative, rest) := unsigned word
      (wholeDigits? rest).bind fun digits =>
        let number : Int := baseValue 10 digits
        bounded (if negative then -number else number)

/-- Is the word an exponent, its letter left out? -/
def isExponent (word : List Char) : Bool :=
  (digits? isDigit (unsigned word).2).isSome

/-- Is the word a number with a fraction or an exponent, or one that is no finite number? -/
def isFloat (word : List Char) : Bool :=
  let rest := (unsigned word).2
  let whole := rest.takeWhile fun char => isDigit char || char == '_'
  let after := rest.dropWhile fun char => isDigit char || char == '_'
  rest == ['i', 'n', 'f'] || rest == ['n', 'a', 'n'] ||
    ((wholeDigits? whole).isSome &&
      match after with
      | '.' :: fraction =>
          let places := fraction.takeWhile fun char => isDigit char || char == '_'
          let after := fraction.dropWhile fun char => isDigit char || char == '_'
          (digits? isDigit places).isSome &&
            match after with
            | [] => true
            | char :: exponent => (char == 'e' || char == 'E') && isExponent exponent
      | char :: exponent => (char == 'e' || char == 'E') && isExponent exponent
      | [] => false)

/-- A run of exactly `width` digits that denotes a number between two bounds. -/
def isField (width low high : Nat) (word : List Char) : Bool :=
  word.length == width && word.all isDigit &&
    low ≤ Text.Decimal.value word && Text.Decimal.value word ≤ high

def isDate (word : List Char) : Bool :=
  let year := word.take 4
  let month := (word.drop 5).take 2
  let day := word.drop 8
  isField 4 0 9999 year && word[4]? == some '-' && isField 2 1 12 month && word[7]? == some '-' &&
    isField 2 1 (Calendar.daysInMonth (Text.Decimal.value year) (Text.Decimal.value month)) day

/-- Is the word a time of day, with or without decimals of a second? -/
def isTime (word : List Char) : Bool :=
  let decimals := word.drop 8
  isField 2 0 23 (word.take 2) && word[2]? == some ':' &&
    isField 2 0 59 ((word.drop 3).take 2) && word[5]? == some ':' &&
    isField 2 0 60 ((word.drop 6).take 2) &&
    (decimals.isEmpty ||
      (decimals.head? == some '.' && decimals.length > 1 && (decimals.drop 1).all isDigit))

def isOffset (word : List Char) : Bool :=
  word == ['Z'] || word == ['z'] ||
    ((word.head? == some '+' || word.head? == some '-') && isField 2 0 23 ((word.drop 1).take 2) &&
      word[3]? == some ':' && isField 2 0 59 (word.drop 4))

/-- Is the word a time of day, perhaps with a time zone? -/
def isZonedTime (word : List Char) : Bool :=
  let time := word.takeWhile fun char => isDigit char || char == ':' || char == '.'
  isTime time && (time.length == word.length || isOffset (word.drop time.length))

/-- Is the word a date, a time, or both? -/
def isDateTime (word : List Char) : Bool :=
  isTime word || isDate word ||
    (isDate (word.take 10) && (word[10]? == some 'T' || word[10]? == some 't' ||
      word[10]? == some ' ') && isZonedTime (word.drop 11))

def scalar? (word : List Char) : Option Json :=
  if word = ['t', 'r', 'u', 'e'] then some (.bool true)
  else if word = ['f', 'a', 'l', 's', 'e'] then some (.bool false)
  else if isDateTime word || isFloat word then some .unreadable
  else integer? word

end BackupClient.Toml
