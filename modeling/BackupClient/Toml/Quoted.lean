import BackupClient.Text.Decimal

/-!
Quoted text of TOML, on one line or on several.

Each reader starts behind the opening quotes and gives the text and what follows the closing ones.
-/

namespace BackupClient.Toml

/-- May the character stand in a comment or in quotes?  Control characters may not, the tab excepted. -/
def isPrintable (char : Char) : Bool :=
  char == '\t' || (char.toNat ≥ 0x20 && char.toNat ≠ 0x7F)

inductive QuoteMode where
  | plain
  | escape
  | hex (due : Nat) (code : Nat)
  | fold (broken : Bool)
  | quotes (count : Nat)
  deriving DecidableEq, Repr

def escaped? (char : Char) : Option Char :=
  match char with
  | '"' => some '"'
  | '\\' => some '\\'
  | 'b' => some (Char.ofNat 8)
  | 'f' => some (Char.ofNat 12)
  | 'n' => some '\n'
  | 'r' => some '\r'
  | 't' => some '\t'
  | _ => none

def hexDigit? (char : Char) : Option Nat :=
  if '0' ≤ char ∧ char ≤ '9' then some (char.toNat - 48)
  else if 'a' ≤ char ∧ char ≤ 'f' then some (char.toNat - 87)
  else if 'A' ≤ char ∧ char ≤ 'F' then some (char.toNat - 55)
  else none

def scalarChar? (code : Nat) : Option Char :=
  if code.isValidChar then some (Char.ofNat code) else none

/-- Begin an escape, its backslash and letter read. -/
def beginEscape (done : List Char) (char : Char) : Option (List Char × QuoteMode) :=
  if char = 'u' then some (done, .hex 4 0)
  else if char = 'U' then some (done, .hex 8 0)
  else (escaped? char).map fun value => (value :: done, .plain)

def hexEscape (done : List Char) (due code : Nat) (char : Char) :
    Option (List Char × QuoteMode) := do
  let digit ← hexDigit? char
  let code := code * 16 + digit
  if due = 1 then
    let value ← scalarChar? code
    some (value :: done, .plain)
  else some (done, .hex (due - 1) code)

def basicText (done : List Char) (mode : QuoteMode) :
    List Char → Option (List Char × List Char)
  | [] => none
  | char :: rest =>
      match mode with
      | .escape =>
          match beginEscape done char with
          | some (done, mode) => basicText done mode rest
          | none => none
      | .hex due code =>
          match hexEscape done due code char with
          | some (done, mode) => basicText done mode rest
          | none => none
      | _ =>
          if char = '"' then some (done.reverse, rest)
          else if char = '\\' then basicText done .escape rest
          else if isPrintable char then basicText (char :: done) .plain rest
          else none

/-- Read a text between single quotes, in which nothing is escaped. -/
def literalText (done : List Char) : List Char → Option (List Char × List Char)
  | [] => none
  | char :: rest =>
      if char = '\'' then some (done.reverse, rest)
      else if isPrintable char then literalText (char :: done) rest
      else none

def isLineBreak (char : Char) (rest : List Char) : Bool :=
  char == '\r' && rest.head? == some '\n'

def dropLineBreak (chars : List Char) : List Char :=
  match chars with
  | '\n' :: rest => rest
  | '\r' :: '\n' :: rest => rest
  | _ => chars

def multilinePlain (escapes : Bool) (done : List Char) (char : Char) (rest : List Char) :
    Option (List Char × QuoteMode) :=
  if escapes ∧ char = '\\' then some (done, .escape)
  else if char = '\n' then some (char :: done, .plain)
  else if isLineBreak char rest then some (done, .plain)
  else if isPrintable char then some (char :: done, .plain)
  else none

/-- Read a character where blanks after a backslash are dropped. -/
def folded (done : List Char) (broken : Bool) (char : Char) (rest : List Char) :
    Option (List Char × QuoteMode) :=
  if char = '\n' then some (done, .fold true)
  else if char = ' ' ∨ char = '\t' ∨ isLineBreak char rest then some (done, .fold broken)
  else if broken then multilinePlain true done char rest
  else none

def multilineEscape (done : List Char) (char : Char) (rest : List Char) :
    Option (List Char × QuoteMode) :=
  if char = ' ' ∨ char = '\t' ∨ char = '\n' ∨ isLineBreak char rest then
    folded done false char rest
  else beginEscape done char

/-- Read a text of several lines.  Three quotes end it; one or two more may stand before them. -/
def multilineText (quote : Char) (escapes : Bool) (done : List Char) (mode : QuoteMode) :
    List Char → Option (List Char × List Char)
  | [] =>
      match mode with
      | .quotes count =>
          if 3 ≤ count then some ((List.replicate (count - 3) quote ++ done).reverse, []) else none
      | _ => none
  | char :: rest =>
      match mode with
      | .escape =>
          match multilineEscape done char rest with
          | some (done, mode) => multilineText quote escapes done mode rest
          | none => none
      | .hex due code =>
          match hexEscape done due code char with
          | some (done, mode) => multilineText quote escapes done mode rest
          | none => none
      | .fold broken =>
          if broken ∧ char = quote then multilineText quote escapes done (.quotes 1) rest
          else
            match folded done broken char rest with
            | some (done, mode) => multilineText quote escapes done mode rest
            | none => none
      | .plain =>
          if char = quote then multilineText quote escapes done (.quotes 1) rest
          else
            match multilinePlain escapes done char rest with
            | some (done, mode) => multilineText quote escapes done mode rest
            | none => none
      | .quotes count =>
          if char = quote ∧ count < 5 then
            multilineText quote escapes done (.quotes (count + 1)) rest
          else if 3 ≤ count then
            some ((List.replicate (count - 3) quote ++ done).reverse, char :: rest)
          else
            match multilinePlain escapes (List.replicate count quote ++ done) char rest with
            | some (done, mode) => multilineText quote escapes done mode rest
            | none => none

/-- Read a quoted text, its opening quotes included. -/
def quotedText? (chars : List Char) : Option (List Char × List Char) :=
  match chars with
  | '"' :: '"' :: '"' :: rest => multilineText '"' true [] .plain (dropLineBreak rest)
  | '\'' :: '\'' :: '\'' :: rest => multilineText '\'' false [] .plain (dropLineBreak rest)
  | '"' :: rest => basicText [] .plain rest
  | '\'' :: rest => literalText [] rest
  | _ => none

/-- Read a quoted key, its opening quote included. -/
def quotedKey? (chars : List Char) : Option (List Char × List Char) :=
  match chars with
  | '"' :: rest => basicText [] .plain rest
  | '\'' :: rest => literalText [] rest
  | _ => none

end BackupClient.Toml
