import BackupClient.Json.Basic
import BackupClient.Number.Scaled
import BackupClient.Text.Decimal

/-!
The tokens of JSON text.

The reader is a character machine, so that a text is read by folding `Lexer.step` over it.  A run of
letters, digits, signs and points is one word; what word it is gets decided when the run ends.
-/

namespace BackupClient.Json

/-- A token.  The text of a string is `none` if it holds half of a surrogate pair. -/
inductive Token where
  | openArray
  | closeArray
  | openObject
  | closeObject
  | comma
  | colon
  | scalar (value : Json)
  | text (content : Option String)
  deriving DecidableEq

/-- A string on its way: the characters so far, last first, and a high surrogate that waits for its
other half. -/
structure Quoted where
  chars : List Char
  waiting : Option Nat
  paired : Bool
  deriving DecidableEq

namespace Quoted

def empty : Quoted :=
  ⟨[], none, true⟩

def push (quoted : Quoted) (char : Char) : Quoted :=
  ⟨char :: quoted.chars, none, quoted.paired && quoted.waiting.isNone⟩

/-- Read the sixteen bits of a numeric escape. -/
def pushUnit (quoted : Quoted) (unit : Nat) : Quoted :=
  if 0xD800 ≤ unit ∧ unit < 0xDC00 then
    { quoted with waiting := some unit, paired := quoted.paired && quoted.waiting.isNone }
  else if 0xDC00 ≤ unit ∧ unit < 0xE000 then
    match quoted.waiting with
    | some high =>
        let code := 0x10000 + (high - 0xD800) * 0x400 + (unit - 0xDC00)
        { quoted with chars := Char.ofNat code :: quoted.chars, waiting := none }
    | none => { quoted with paired := false }
  else quoted.push (Char.ofNat unit)

/-- The text of the string, if every surrogate has found its partner. -/
def content (quoted : Quoted) : Option String :=
  if quoted.paired && quoted.waiting.isNone then some (String.ofList quoted.chars.reverse)
  else none

end Quoted

inductive Mode where
  | between
  | word (chars : List Char)
  | quoted (quoted : Quoted)
  | escape (quoted : Quoted)
  | numeric (quoted : Quoted) (due : Nat) (unit : Nat)
  deriving DecidableEq

/-- The reader: the tokens so far, last first, and where it stands. -/
structure Lexer where
  tokens : List Token
  mode : Mode
  deriving DecidableEq

def isSpace (char : Char) : Bool :=
  char == ' ' || char == '\t' || char == '\n' || char == '\r'

def isWordChar (char : Char) : Bool :=
  char.isAlphanum || char == '-' || char == '+' || char == '.'

/-- Read an exponent: an optional sign and at least one digit. -/
def exponent? (chars : List Char) : Option Int :=
  match chars with
  | '-' :: digits => (Text.Decimal.value? digits).map fun number => -(number : Int)
  | '+' :: digits => (Text.Decimal.value? digits).map Int.ofNat
  | digits => (Text.Decimal.value? digits).map Int.ofNat

/-- The greatest significand that is kept; digits beyond it only count as places. -/
def significandLimit : Nat := Nat.pow 2 64

/-- Read whole digits into a significand.  Digits that no longer fit raise the exponent. -/
def wholeDigits (chars : List Char) : Nat × Nat :=
  go 0 chars
where
  /-- Continue from a significand. -/
  go (significand : Nat) : List Char → Nat × Nat
    | [] => (significand, 0)
    | char :: rest =>
        let longer := significand * 10 + Text.Decimal.digitValue char
        if longer < significandLimit then go longer rest else (significand, rest.length + 1)

/-- Read digits after the point into a significand.  Digits that no longer fit are dropped. -/
def fractionDigits (significand : Nat) : List Char → Nat × Nat
  | [] => (significand, 0)
  | char :: rest =>
      let longer := significand * 10 + Text.Decimal.digitValue char
      if longer < significandLimit then
        let (total, places) := fractionDigits longer rest
        (total, places + 1)
      else (significand, 0)

/-- The parts of a number: sign, whole digits, digits after a point, exponent. -/
structure NumberParts where
  negative : Bool
  whole : List Char
  fraction : Option (List Char)
  exponent : Option Int
  deriving DecidableEq

def numberParts? (word : List Char) : Option NumberParts :=
  let (negative, rest) :=
    match word with
    | '-' :: rest => (true, rest)
    | rest => (false, rest)
  let whole := rest.takeWhile Text.Decimal.isDigit
  let rest := rest.dropWhile Text.Decimal.isDigit
  if whole.isEmpty || (whole.head? = some '0' && whole.length > 1) then none
  else
    let (fraction, rest) :=
      match rest with
      | '.' :: rest =>
          (some (rest.takeWhile Text.Decimal.isDigit), rest.dropWhile Text.Decimal.isDigit)
      | rest => (none, rest)
    if fraction = some [] then none
    else
      match rest with
      | [] => some ⟨negative, whole, fraction, none⟩
      | 'e' :: rest => (exponent? rest).map fun exponent => ⟨negative, whole, fraction, some exponent⟩
      | 'E' :: rest => (exponent? rest).map fun exponent => ⟨negative, whole, fraction, some exponent⟩
      | _ => none

/-- The value of a number.  Whole numbers of at most sixty-four bits stay exact, minus zero excepted;
all others are doubles. -/
def NumberParts.value (parts : NumberParts) : Json :=
  let (significand, dropped) := wholeDigits parts.whole
  match parts.fraction, parts.exponent with
  | none, none =>
      if dropped = 0 ∧ ¬ parts.negative then .int significand
      else if dropped = 0 ∧ 0 < significand ∧ significand ≤ Nat.pow 2 63 then .int (-(significand : Int))
      else double parts.negative significand dropped
  | fraction, exponent =>
      let (significand, places) := fractionDigits significand (fraction.getD [])
      double parts.negative significand (dropped - places + exponent.getD 0)
where
  /-- The double of a scaled significand. -/
  double (negative : Bool) (significand : Nat) (exponent : Int) : Json :=
    match Binary64.scaled negative significand exponent with
    | some value => .float value
    | none => .unreadable

def wordValue? (word : List Char) : Option Json :=
  match word with
  | ['n', 'u', 'l', 'l'] => some .null
  | ['t', 'r', 'u', 'e'] => some (.bool true)
  | ['f', 'a', 'l', 's', 'e'] => some (.bool false)
  | _ => (numberParts? word).map NumberParts.value

def hexValue? (char : Char) : Option Nat :=
  if '0' ≤ char ∧ char ≤ '9' then some (char.toNat - 48)
  else if 'a' ≤ char ∧ char ≤ 'f' then some (char.toNat - 87)
  else if 'A' ≤ char ∧ char ≤ 'F' then some (char.toNat - 55)
  else none

def escapeValue? (char : Char) : Option Char :=
  match char with
  | '"' => some '"'
  | '\\' => some '\\'
  | '/' => some '/'
  | 'b' => some (Char.ofNat 8)
  | 'f' => some (Char.ofNat 12)
  | 'n' => some '\n'
  | 'r' => some '\r'
  | 't' => some '\t'
  | _ => none

namespace Lexer

def start : Lexer :=
  ⟨[], .between⟩

def stepBetween (tokens : List Token) (char : Char) : Option Lexer :=
  match char with
  | '[' => some ⟨.openArray :: tokens, .between⟩
  | ']' => some ⟨.closeArray :: tokens, .between⟩
  | '\x7b' => some ⟨.openObject :: tokens, .between⟩
  | '\x7d' => some ⟨.closeObject :: tokens, .between⟩
  | ',' => some ⟨.comma :: tokens, .between⟩
  | ':' => some ⟨.colon :: tokens, .between⟩
  | '"' => some ⟨tokens, .quoted .empty⟩
  | _ =>
      if isSpace char then some ⟨tokens, .between⟩
      else if isWordChar char then some ⟨tokens, .word [char]⟩
      else none

def step (lexer : Lexer) (char : Char) : Option Lexer :=
  match lexer.mode with
  | .between => stepBetween lexer.tokens char
  | .word chars =>
      if isWordChar char then some { lexer with mode := .word (char :: chars) }
      else
        match wordValue? chars.reverse with
        | some value => stepBetween (.scalar value :: lexer.tokens) char
        | none => none
  | .quoted quoted =>
      if char = '"' then some ⟨.text quoted.content :: lexer.tokens, .between⟩
      else if char = '\\' then some { lexer with mode := .escape quoted }
      else if char.toNat < 0x20 then none
      else some { lexer with mode := .quoted (quoted.push char) }
  | .escape quoted =>
      if char = 'u' then some { lexer with mode := .numeric quoted 4 0 }
      else (escapeValue? char).map fun value => { lexer with mode := .quoted (quoted.push value) }
  | .numeric quoted due unit =>
      match hexValue? char with
      | none => none
      | some digit =>
          let unit := unit * 16 + digit
          if due = 1 then some { lexer with mode := .quoted (quoted.pushUnit unit) }
          else some { lexer with mode := .numeric quoted (due - 1) unit }

def finish (lexer : Lexer) : Option (List Token) :=
  match lexer.mode with
  | .between => some lexer.tokens.reverse
  | .word chars =>
      (wordValue? chars.reverse).map fun value => (.scalar value :: lexer.tokens).reverse
  | _ => none

end Lexer

def tokens? (chars : List Char) : Option (List Token) :=
  (chars.foldlM Lexer.step Lexer.start).bind Lexer.finish

end BackupClient.Json
