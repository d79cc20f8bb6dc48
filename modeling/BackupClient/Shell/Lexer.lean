import BackupClient.Shell.Syntax

/-!
Reading the words and operators of a script.
-/

namespace BackupClient.Shell

/-- A lexeme: a word, an operator or the end of a line, or a redirect with its descriptor. -/
inductive Lexeme where
  | word (word : Word)
  | operator (text : String)
  | redirect (descriptor : Option Nat) (operator : String)
  | document (body : Word)
  deriving DecidableEq, Repr

structure Token where
  line : Nat
  lexeme : Lexeme
  deriving DecidableEq, Repr

def isNameStart (char : Char) : Bool :=
  char.isAlpha || char == '_'

def isNameChar (char : Char) : Bool :=
  char.isAlphanum || char == '_'

def isSpecialName (char : Char) : Bool :=
  ['@', '*', '#', '?', '$', '!', '-'].contains char

inductive QuoteMode where
  | plain
  | single
  | double
  deriving DecidableEq, Repr

def takeBracketed (opening closing : Char) :
    Nat → QuoteMode → List Char → Option (List Char × List Char)
  | _, _, [] => none
  | depth, .single, char :: rest =>
      (takeBracketed opening closing depth (if char = '\'' then .plain else .single) rest).map
        fun (inside, after) => (char :: inside, after)
  | depth, mode, '\\' :: char :: rest =>
      (takeBracketed opening closing depth mode rest).map
        fun (inside, after) => ('\\' :: char :: inside, after)
  | depth, .double, char :: rest =>
      (takeBracketed opening closing depth (if char = '"' then .plain else .double) rest).map
        fun (inside, after) => (char :: inside, after)
  | depth, .plain, char :: rest =>
      if char = closing ∧ depth = 0 then some ([], rest)
      else
        let depth :=
          if char = opening then depth + 1 else if char = closing then depth - 1 else depth
        let mode : QuoteMode :=
          if char = '\'' then .single else if char = '"' then .double else .plain
        (takeBracketed opening closing depth mode rest).map
          fun (inside, after) => (char :: inside, after)

/-- Everything up to a sign, with escaped signs kept, and the rest after it. -/
def takeUntil (closing : Char) : List Char → List Char × List Char
  | [] => ([], [])
  | '\\' :: char :: rest =>
      let (inside, after) := takeUntil closing rest
      (if char = closing then char :: inside else '\\' :: char :: inside, after)
  | char :: rest =>
      if char = closing then ([], rest)
      else
        let (inside, after) := takeUntil closing rest
        (char :: inside, after)

def readBraced (source : List Char) (quoted : Bool) : Part :=
  let nameOf (chars : List Char) : List Char × List Char :=
    match chars with
    | char :: rest =>
        if isSpecialName char then ([char], rest)
        else (chars.takeWhile isNameChar, chars.dropWhile isNameChar)
    | [] => ([], [])
  match source with
  | '#' :: char :: rest =>
      if isNameStart char || char.isDigit then .parameter (char :: rest) .size quoted
      else .parameter ['#'] .value quoted
  | _ =>
      let (name, rest) := nameOf source
      let use : ParameterUse :=
        match rest with
        | [] => .value
        | ':' :: mark :: word => .guarded mark true word
        | '%' :: '%' :: pattern => .trimmed true true pattern
        | '%' :: pattern => .trimmed true false pattern
        | '#' :: '#' :: pattern => .trimmed false true pattern
        | '#' :: pattern => .trimmed false false pattern
        | mark :: word => .guarded mark false word
      .parameter name use quoted

def readDollar (chars : List Char) (quoted : Bool) : Part × List Char :=
  match chars with
  | '(' :: '(' :: rest =>
      match takeBracketed '(' ')' 0 .plain rest with
      | some (source, ')' :: after) => (.arithmetic source quoted, after)
      | _ => (.text ['$'] quoted, chars)
  | '(' :: rest =>
      match takeBracketed '(' ')' 0 .plain rest with
      | some (source, after) => (.command source quoted, after)
      | none => (.text ['$'] quoted, chars)
  | '\x7b' :: rest =>
      match takeBracketed '\x7b' '\x7d' 0 .plain rest with
      | some (source, after) => (readBraced source quoted, after)
      | none => (.text ['$'] quoted, chars)
  | char :: rest =>
      if isNameStart char then
        (.parameter (chars.takeWhile isNameChar) .value quoted, chars.dropWhile isNameChar)
      else if isSpecialName char || char.isDigit then (.parameter [char] .value quoted, rest)
      else (.text ['$'] quoted, chars)
  | [] => (.text ['$'] quoted, [])

def consText (char : Char) (quoted : Bool) (parts : List Part) : List Part :=
  match parts with
  | .text chars other :: rest =>
      if other = quoted ∧ ¬ chars.isEmpty then .text (char :: chars) quoted :: rest
      else .text [char] quoted :: parts
  | _ => .text [char] quoted :: parts

/-- The parts of a text in which only dollar signs, accents and some backslashes have a meaning. -/
def quotedParts (escapable : List Char) : Nat → List Char → List Part
  | 0, _ => []
  | _, [] => []
  | fuel + 1, '\\' :: char :: rest =>
      if char = '\n' then quotedParts escapable fuel rest
      else if escapable.contains char then consText char true (quotedParts escapable fuel rest)
      else consText '\\' true (consText char true (quotedParts escapable fuel rest))
  | fuel + 1, '$' :: rest =>
      let (part, after) := readDollar rest true
      part :: quotedParts escapable fuel after
  | fuel + 1, char :: rest =>
      if char = Char.ofNat 96 then
        let (source, after) := takeUntil char rest
        .command source true :: quotedParts escapable fuel after
      else consText char true (quotedParts escapable fuel rest)

def doubleEscapable : List Char :=
  ['$', '"', '\\', Char.ofNat 96]

def documentEscapable : List Char :=
  ['$', '\\', Char.ofNat 96]

/-- Everything up to the closing double quote, and the rest after it.  Quotes inside of brackets after a
dollar sign do not count. -/
def takeDouble : Nat → List Char → List Char × List Char
  | 0, chars => ([], chars)
  | _, [] => ([], [])
  | fuel + 1, '\\' :: char :: rest =>
      let (inside, after) := takeDouble fuel rest
      ('\\' :: char :: inside, after)
  | fuel + 1, '$' :: opening :: rest =>
      let closing := if opening = '(' then some ')' else if opening = '\x7b' then some '\x7d' else none
      match closing.bind fun closing =>
          (takeBracketed opening closing 0 .plain rest).map (closing, ·) with
      | some (closing, bracketed, after) =>
          let (inside, after) := takeDouble fuel after
          ('$' :: opening :: bracketed ++ closing :: inside, after)
      | none =>
          let (inside, after) := takeDouble fuel (opening :: rest)
          ('$' :: inside, after)
  | fuel + 1, char :: rest =>
      if char = '"' then ([], rest)
      else
        let (inside, after) := takeDouble fuel rest
        (char :: inside, after)

def endsWord (char : Char) : Bool :=
  [' ', '\t', '\n', ';', '&', '|', '<', '>', '(', ')'].contains char

def readWord : Nat → List Char → List Part × List Char
  | 0, chars => ([], chars)
  | _, [] => ([], [])
  | fuel + 1, '\\' :: '\n' :: rest => readWord fuel rest
  | fuel + 1, '\\' :: char :: rest =>
      let (parts, after) := readWord fuel rest
      (consText char true parts, after)
  | fuel + 1, '\'' :: rest =>
      let inside := rest.takeWhile (· ≠ '\'')
      let (parts, after) := readWord fuel (rest.dropWhile (· ≠ '\'')).tail
      (.text inside true :: parts, after)
  | fuel + 1, '"' :: rest =>
      let (inside, rest) := takeDouble rest.length.succ rest
      let (parts, after) := readWord fuel rest
      let quoted := quotedParts doubleEscapable inside.length.succ inside
      ((if quoted.isEmpty then [.text [] true] else quoted) ++ parts, after)
  | fuel + 1, '$' :: rest =>
      let (part, rest) := readDollar rest false
      let (parts, after) := readWord fuel rest
      (part :: parts, after)
  | fuel + 1, char :: rest =>
      if endsWord char then ([], char :: rest)
      else if char = Char.ofNat 96 then
        let (source, rest) := takeUntil char rest
        let (parts, after) := readWord fuel rest
        (.command source false :: parts, after)
      else
        let (parts, after) := readWord fuel rest
        (consText char false parts, after)

/-- The word of a text that is wholly inside of other words, with no sign that ends it. -/
def readInner : Nat → List Char → List Part
  | 0, _ => []
  | _, [] => []
  | fuel + 1, chars =>
      match readWord chars.length.succ chars with
      | (parts, []) => parts
      | (parts, char :: rest) => parts ++ consText char false (readInner fuel rest)

/-- A document that is still to be read: where it ends, whether its text is literal, and whether tabs at
the starts of its lines are left out. -/
structure PendingDocument where
  delimiter : List Char
  literal : Bool
  stripTabs : Bool
  deriving DecidableEq, Repr

def plainText : List Part → List Char
  | [] => []
  | .text chars _ :: rest => chars ++ plainText rest
  | _ :: rest => plainText rest

def hasQuotes (parts : List Part) : Bool :=
  parts.any fun part =>
    match part with
    | .text _ quoted => quoted
    | _ => false

def takeDocument (pending : PendingDocument) : Nat → List Char → List Char × List Char
  | 0, chars => ([], chars)
  | _, [] => ([], [])
  | fuel + 1, chars =>
      let line := chars.takeWhile (· ≠ '\n')
      let after := chars.drop (line.length + 1)
      let shown := if pending.stripTabs then line.dropWhile (· = '\t') else line
      if shown = pending.delimiter then ([], after)
      else
        let (body, rest) := takeDocument pending fuel after
        (shown ++ '\n' :: body, rest)

def takeDocuments : List PendingDocument → List Char → List Word × List Char
  | [], chars => ([], chars)
  | pending :: others, chars =>
      let (body, rest) := takeDocument pending chars.length.succ chars
      let word : Word :=
        if pending.literal ∨ body.isEmpty then [.text body true]
        else quotedParts documentEscapable body.length.succ body
      let (words, rest) := takeDocuments others rest
      (word :: words, rest)

def fillDocuments : List Word → List Token → List Token
  | _, [] => []
  | word :: words, ⟨line, .document []⟩ :: rest =>
      ⟨line, .document word⟩ :: fillDocuments words rest
  | words, token :: rest => token :: fillDocuments words rest

/-- The operators, the longer ones first. -/
def operators : List String :=
  ["&&", "||", ";;", "&", "|", ";", "(", ")"]

/-- The redirects, the longer ones first. -/
def redirectOperators : List String :=
  ["<<-", "<<", "<&", "<>", "<", ">>", ">&", ">|", ">"]

def takeOperator? (texts : List String) (chars : List Char) : Option (String × List Char) :=
  (texts.find? fun text => text.toList.isPrefixOf chars).map fun text =>
    (text, chars.drop text.length)

def takeRedirect? (chars : List Char) : Option (Option Nat × String × List Char) :=
  let digits := chars.takeWhile Char.isDigit
  (takeOperator? redirectOperators (chars.drop digits.length)).map fun (operator, rest) =>
    let descriptor :=
      if digits.isEmpty then none
      else some (digits.foldl (fun total digit => total * 10 + (digit.toNat - 48)) 0)
    (descriptor, operator, rest)

def linesBetween (before after : List Char) : Nat :=
  ((before.take (before.length - after.length)).filter (· = '\n')).length

def awaitsDelimiter (tokens : List Token) : Option Bool :=
  match tokens with
  | ⟨_, .redirect _ "<<"⟩ :: _ => some false
  | ⟨_, .redirect _ "<<-"⟩ :: _ => some true
  | _ => none

/-- Read tokens; those read so far come with the latest first. -/
def readTokens : Nat → Nat → List PendingDocument → List Token → List Char → List Token
  | 0, _, _, tokens, _ => tokens.reverse
  | fuel + 1, line, pending, tokens, chars =>
      match chars with
      | [] => tokens.reverse
      | '\n' :: rest =>
          let (bodies, after) := takeDocuments pending rest
          let filled := (fillDocuments bodies tokens.reverse).reverse
          readTokens fuel (line + 1 + linesBetween rest after) []
            (⟨line, .operator "\n"⟩ :: filled) after
      | '\\' :: '\n' :: rest => readTokens fuel (line + 1) pending tokens rest
      | char :: rest =>
          if char = ' ' ∨ char = '\t' then readTokens fuel line pending tokens rest
          else if char = '#' then
            readTokens fuel line pending tokens (rest.dropWhile (· ≠ '\n'))
          else
            match takeRedirect? chars with
            | some (descriptor, operator, after) =>
                readTokens fuel line pending (⟨line, .redirect descriptor operator⟩ :: tokens) after
            | none =>
                match takeOperator? operators chars with
                | some (operator, after) =>
                    readTokens fuel line pending (⟨line, .operator operator⟩ :: tokens) after
                | none =>
                    let (parts, after) := readWord chars.length.succ chars
                    let line' := line + linesBetween chars after
                    match awaitsDelimiter tokens with
                    | some stripTabs =>
                        let document := ⟨plainText parts, hasQuotes parts, stripTabs⟩
                        readTokens fuel line' (pending ++ [document])
                          (⟨line, .document []⟩ :: tokens) after
                    | none =>
                        readTokens fuel line' pending (⟨line, .word parts⟩ :: tokens) after

def tokens (source : List Char) : List Token :=
  readTokens source.length.succ 1 [] [] source

end BackupClient.Shell
