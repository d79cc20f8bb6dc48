import BackupClient.Shell.Lexer
import BackupClient.Text.Decimal

/-!
Arithmetic on 64-bit numbers.

Operators bind as they do in C.  Names stand for variables, which count as zero where they hold no number.
-/

namespace BackupClient.Shell

inductive ArithmeticToken where
  | number (value : Int)
  | name (name : List Char)
  | sign (text : String)
  deriving DecidableEq, Repr

/-- A number, as 64 bits with a sign hold it. -/
def wrap (value : Int) : Int :=
  value.bmod (Nat.pow 2 64)

def integer? (text : List Char) : Option Int :=
  match text with
  | '-' :: rest => (Text.Decimal.value? rest).map fun value => -(value : Int)
  | '+' :: rest => (Text.Decimal.value? rest).map Int.ofNat
  | _ => (Text.Decimal.value? text).map Int.ofNat

/-- The signs of expressions, the longer ones first. -/
def arithmeticSigns : List String :=
  ["<=", ">=", "==", "!=", "&&", "||", "+", "-", "*", "/", "%", "<", ">", "!", "(", ")"]

def arithmeticTokens : Nat → List Char → Option (List ArithmeticToken)
  | 0, _ => none
  | _, [] => some []
  | fuel + 1, char :: rest =>
      if char = ' ' ∨ char = '\t' ∨ char = '\n' then arithmeticTokens fuel rest
      else if char.isDigit then
        let digits := (char :: rest).takeWhile Char.isDigit
        (arithmeticTokens fuel ((char :: rest).drop digits.length)).map
          (.number (wrap (Text.Decimal.value digits)) :: ·)
      else if isNameStart char then
        let name := (char :: rest).takeWhile isNameChar
        (arithmeticTokens fuel ((char :: rest).drop name.length)).map (.name name :: ·)
      else
        match takeOperator? arithmeticSigns (char :: rest) with
        | some (sign, after) => (arithmeticTokens fuel after).map (.sign sign :: ·)
        | none => none

def binding? (sign : String) : Option Nat :=
  match sign with
  | "||" => some 1
  | "&&" => some 2
  | "==" | "!=" => some 3
  | "<" | "<=" | ">" | ">=" => some 4
  | "+" | "-" => some 5
  | "*" | "/" | "%" => some 6
  | _ => none

def truth (value : Bool) : Int :=
  if value then 1 else 0

def operate (sign : String) (left right : Int) : Option Int :=
  match sign with
  | "||" => some (truth (left ≠ 0 ∨ right ≠ 0))
  | "&&" => some (truth (left ≠ 0 ∧ right ≠ 0))
  | "==" => some (truth (left = right))
  | "!=" => some (truth (left ≠ right))
  | "<" => some (truth (left < right))
  | "<=" => some (truth (left ≤ right))
  | ">" => some (truth (right < left))
  | ">=" => some (truth (right ≤ left))
  | "+" => some (wrap (left + right))
  | "-" => some (wrap (left - right))
  | "*" => some (wrap (left * right))
  | "/" => if right = 0 then none else some (wrap (left.tdiv right))
  | "%" => if right = 0 then none else some (left.tmod right)
  | _ => none

/-- What reading an expression gives: its value and the tokens left. -/
abbrev Evaluation := Option (Int × List ArithmeticToken)

section

variable (lookup : List Char → List Char)

mutual

def evaluate : Nat → Nat → List ArithmeticToken → Evaluation
  | 0, _, _ => none
  | fuel + 1, least, tokens => do
      let (left, rest) ← evaluateUnary fuel tokens
      evaluateRest fuel least left rest

def evaluateRest : Nat → Nat → Int → List ArithmeticToken → Evaluation
  | 0, _, _, _ => none
  | fuel + 1, least, left, tokens =>
      match tokens with
      | .sign sign :: rest =>
          match binding? sign with
          | some level =>
              if least ≤ level then do
                let (right, rest) ← evaluate fuel (level + 1) rest
                let value ← operate sign left right
                evaluateRest fuel least value rest
              else some (left, tokens)
          | none => some (left, tokens)
      | _ => some (left, tokens)

def evaluateUnary : Nat → List ArithmeticToken → Evaluation
  | 0, _ => none
  | fuel + 1, tokens =>
      match tokens with
      | .number value :: rest => some (value, rest)
      | .name name :: rest => some ((integer? (lookup name)).getD 0, rest)
      | .sign "(" :: rest => do
          let (value, rest) ← evaluate fuel 1 rest
          match rest with
          | .sign ")" :: rest => some (value, rest)
          | _ => none
      | .sign "-" :: rest => do
          let (value, rest) ← evaluateUnary fuel rest
          some (wrap (-value), rest)
      | .sign "!" :: rest => do
          let (value, rest) ← evaluateUnary fuel rest
          some (truth (value = 0), rest)
      | _ => none

end

/-- The value of an expression.  An empty one is zero. -/
def arithmetic? (source : List Char) : Option Int := do
  let tokens ← arithmeticTokens source.length.succ source
  if tokens.isEmpty then some 0
  else
    let (value, rest) ← evaluate lookup (8 * tokens.length + 8) 1 tokens
    if rest.isEmpty then some value else none

end

end BackupClient.Shell
