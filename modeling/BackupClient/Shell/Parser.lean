import BackupClient.Shell.Lexer

/-!
Reading the commands of a script from its tokens.
-/

namespace BackupClient.Shell

/-- What reading some tokens gives, and the tokens that are left. -/
abbrev Reading (α : Type) := List Token → Option (α × List Token)

def bareText? : Lexeme → Option String
  | .word [.text chars false] => some (String.ofList chars)
  | _ => none

def nextIsBare (text : String) (tokens : List Token) : Bool :=
  match tokens with
  | token :: _ => bareText? token.lexeme = some text
  | [] => false

def nextIsOneOf (texts : List String) (tokens : List Token) : Bool :=
  texts.any (nextIsBare · tokens)

def nextIsOperator (text : String) (tokens : List Token) : Bool :=
  match tokens with
  | ⟨_, .operator other⟩ :: _ => other = text
  | _ => false

def expectBare (text : String) : Reading Unit := fun tokens =>
  if nextIsBare text tokens then some ((), tokens.tail) else none

def expectOperator (text : String) : Reading Unit := fun tokens =>
  if nextIsOperator text tokens then some ((), tokens.tail) else none

def skipLines (tokens : List Token) : List Token :=
  tokens.dropWhile fun token => token.lexeme = .operator "\n"

def skipSeparators (tokens : List Token) : List Token :=
  tokens.dropWhile fun token => token.lexeme = .operator "\n" || token.lexeme = .operator ";"

def closingWords : List String :=
  ["then", "else", "elif", "fi", "do", "done", "esac", "\x7d"]

def atEnd (tokens : List Token) : Bool :=
  match tokens with
  | [] => true
  | token :: _ =>
      nextIsOneOf closingWords tokens || token.lexeme = .operator ")" ||
        token.lexeme = .operator ";;"

def assignment? : Word → Option (List Char × Word)
  | .text chars false :: rest =>
      let name := chars.takeWhile isNameChar
      match chars.drop name.length with
      | '=' :: value =>
          if name.head?.any isNameStart then
            some (name, if value.isEmpty then rest else .text value false :: rest)
          else none
      | _ => none
  | _ => none

def readRedirect : Reading (Option Redirect)
  | ⟨_, .redirect descriptor operator⟩ :: ⟨_, .document body⟩ :: rest =>
      if operator = "<<" ∨ operator = "<<-" then
        some (some ⟨descriptor.getD 0, .document body⟩, rest)
      else none
  | ⟨_, .redirect descriptor operator⟩ :: ⟨_, .word word⟩ :: rest =>
      match operator with
      | "<" | "<>" => some (some ⟨descriptor.getD 0, .source word⟩, rest)
      | ">" | ">|" => some (some ⟨descriptor.getD 1, .sink word false⟩, rest)
      | ">>" => some (some ⟨descriptor.getD 1, .sink word true⟩, rest)
      | ">&" => some (some ⟨descriptor.getD 1, .copy word⟩, rest)
      | "<&" => some (some ⟨descriptor.getD 0, .copy word⟩, rest)
      | _ => none
  | ⟨_, .redirect _ _⟩ :: _ => none
  | tokens => some (none, tokens)

def readRedirects : Nat → Reading (List Redirect)
  | 0, _ => none
  | fuel + 1, tokens => do
      let (redirect, tokens) ← readRedirect tokens
      match redirect with
      | none => some ([], tokens)
      | some redirect =>
          let (redirects, tokens) ← readRedirects fuel tokens
          some (redirect :: redirects, tokens)

def readSimple : Nat → SimpleCommand → Reading SimpleCommand
  | 0, _, _ => none
  | fuel + 1, command, tokens =>
      match tokens with
      | ⟨_, .word word⟩ :: rest =>
          match if command.words.isEmpty then assignment? word else none with
          | some assignment =>
              readSimple fuel
                { command with assignments := command.assignments ++ [assignment] } rest
          | none => readSimple fuel { command with words := command.words ++ [word] } rest
      | ⟨_, .redirect _ _⟩ :: _ => do
          let (redirect, tokens) ← readRedirect tokens
          readSimple fuel
            { command with redirects := command.redirects ++ redirect.toList } tokens
      | _ => some (command, tokens)

def readWords : List Token → List Word × List Token
  | ⟨_, .word word⟩ :: rest =>
      let (words, rest) := readWords rest
      (word :: words, rest)
  | tokens => ([], tokens)

def readPatterns : List Token → Option (List Word × List Token)
  | ⟨_, .word word⟩ :: ⟨_, .operator "|"⟩ :: rest => do
      let (words, rest) ← readPatterns rest
      some (word :: words, rest)
  | ⟨_, .word word⟩ :: ⟨_, .operator ")"⟩ :: rest => some ([word], rest)
  | _ => none

def definedName? (tokens : List Token) : Option (List Char × List Token) :=
  match tokens with
  | ⟨_, .word [.text name false]⟩ :: ⟨_, .operator "("⟩ :: ⟨_, .operator ")"⟩ :: rest =>
      some (name, rest)
  | _ => none

mutual

def readList : Nat → Reading Command
  | 0, _ => none
  | fuel + 1, tokens =>
      let tokens := skipSeparators tokens
      if atEnd tokens then some (.nothing, tokens)
      else do
        let (first, tokens) ← readAndOr fuel tokens
        let (first, tokens) :=
          if nextIsOperator "&" tokens then (Command.background first, tokens.tail)
          else (first, tokens)
        let (others, tokens) ← readList fuel tokens
        match others with
        | .sequence commands => some (.sequence (first :: commands), tokens)
        | other => some (.sequence [first, other], tokens)

def readAndOr : Nat → Reading Command
  | 0, _ => none
  | fuel + 1, tokens => do
      let (first, tokens) ← readPipeline fuel tokens
      readAndOrRest fuel first tokens

def readAndOrRest : Nat → Command → Reading Command
  | 0, _, _ => none
  | fuel + 1, left, tokens =>
      if nextIsOperator "&&" tokens then do
        let (right, tokens) ← readPipeline fuel (skipLines tokens.tail)
        readAndOrRest fuel (.both true left right) tokens
      else if nextIsOperator "||" tokens then do
        let (right, tokens) ← readPipeline fuel (skipLines tokens.tail)
        readAndOrRest fuel (.both false left right) tokens
      else some (left, tokens)

def readPipeline : Nat → Reading Command
  | 0, _ => none
  | fuel + 1, tokens =>
      if nextIsBare "!" tokens then do
        let (body, tokens) ← readPipeline fuel tokens.tail
        some (.negated body, tokens)
      else do
        let (left, tokens) ← readCommand fuel tokens
        if nextIsOperator "|" tokens then do
          let (right, tokens) ← readPipeline fuel (skipLines tokens.tail)
          some (.pipe left right, tokens)
        else some (left, tokens)

def readCommand : Nat → Reading Command
  | 0, _ => none
  | fuel + 1, tokens =>
      match definedName? tokens with
      | some (name, rest) => do
          let (body, tokens) ← readCommand fuel (skipLines rest)
          some (.define name body, tokens)
      | none =>
          match tokens with
          | [] => none
          | token :: rest =>
              if token.lexeme = .operator "(" then do
                let (body, tokens) ← readList fuel rest
                let ((), tokens) ← expectOperator ")" tokens
                readTail fuel (.subshell body) tokens
              else
                match bareText? token.lexeme with
                | some "if" => do
                    let (command, tokens) ← readConditional fuel rest
                    readTail fuel command tokens
                | some "while" => do
                    let (command, tokens) ← readLoop fuel true rest
                    readTail fuel command tokens
                | some "until" => do
                    let (command, tokens) ← readLoop fuel false rest
                    readTail fuel command tokens
                | some "for" => do
                    let (command, tokens) ← readEach fuel rest
                    readTail fuel command tokens
                | some "case" => do
                    let (command, tokens) ← readChoice fuel rest
                    readTail fuel command tokens
                | some "\x7b" => do
                    let (body, tokens) ← readList fuel rest
                    let ((), tokens) ← expectBare "\x7d" tokens
                    readTail fuel body tokens
                | _ => do
                    let (command, left) ←
                      readSimple tokens.length.succ ⟨token.line, [], [], []⟩ tokens
                    if left.length = tokens.length then none
                    else some (.simple command, left)

def readTail : Nat → Command → Reading Command
  | 0, _, _ => none
  | _ + 1, command, tokens => do
      let (redirects, tokens) ← readRedirects tokens.length.succ tokens
      some (if redirects.isEmpty then command else .redirected command redirects, tokens)

def readConditional : Nat → Reading Command
  | 0, _ => none
  | fuel + 1, tokens => do
      let (test, tokens) ← readList fuel tokens
      let ((), tokens) ← expectBare "then" tokens
      let (body, tokens) ← readList fuel tokens
      if nextIsBare "elif" tokens then do
        let (otherwise, tokens) ← readConditional fuel tokens.tail
        some (.conditional test body otherwise, tokens)
      else if nextIsBare "else" tokens then do
        let (otherwise, tokens) ← readList fuel tokens.tail
        let ((), tokens) ← expectBare "fi" tokens
        some (.conditional test body otherwise, tokens)
      else do
        let ((), tokens) ← expectBare "fi" tokens
        some (.conditional test body .nothing, tokens)

def readLoop : Nat → Bool → Reading Command
  | 0, _, _ => none
  | fuel + 1, whileTrue, tokens => do
      let (test, tokens) ← readList fuel tokens
      let ((), tokens) ← expectBare "do" tokens
      let (body, tokens) ← readList fuel tokens
      let ((), tokens) ← expectBare "done" tokens
      some (.loop whileTrue test body, tokens)

def readEach : Nat → Reading Command
  | 0, _ => none
  | fuel + 1, tokens =>
      match tokens with
      | ⟨_, .word [.text name false]⟩ :: rest => do
          let rest := skipLines rest
          let (items, rest) :=
            if nextIsBare "in" rest then
              let (words, rest) := readWords rest.tail
              (some words, rest)
            else (none, rest)
          let ((), tokens) ← expectBare "do" (skipSeparators rest)
          let (body, tokens) ← readList fuel tokens
          let ((), tokens) ← expectBare "done" tokens
          some (.each name items body, tokens)
      | _ => none

def readChoice : Nat → Reading Command
  | 0, _ => none
  | fuel + 1, tokens =>
      match tokens with
      | ⟨_, .word subject⟩ :: rest => do
          let ((), tokens) ← expectBare "in" (skipLines rest)
          let (arms, tokens) ← readArms fuel tokens
          some (.choice subject arms, tokens)
      | _ => none

def readArms : Nat → Reading (List (List Word × Command))
  | 0, _ => none
  | fuel + 1, tokens =>
      let tokens := skipLines tokens
      if nextIsBare "esac" tokens then some ([], tokens.tail)
      else do
        let tokens := if nextIsOperator "(" tokens then tokens.tail else tokens
        let (patterns, tokens) ← readPatterns tokens
        let (body, tokens) ← readList fuel tokens
        let tokens := if nextIsOperator ";;" tokens then tokens.tail else tokens
        let (arms, tokens) ← readArms fuel tokens
        some ((patterns, body) :: arms, tokens)

end

/-- Read a script, if all of it can be read. -/
def parse? (source : List Char) : Option Command :=
  let tokens := tokens source
  match readList (8 * tokens.length + 8) tokens with
  | some (command, []) => some command
  | _ => none

end BackupClient.Shell
