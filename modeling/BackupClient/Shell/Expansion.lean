import BackupClient.Shell.Arithmetic
import BackupClient.Shell.Pattern

/-!
Expanding words to fields.

What was quoted stays together.  The values of parameters that were not quoted fall apart at blanks.
-/

namespace BackupClient.Shell

/-- A variable, and whether programs get it too. -/
structure Variable where
  name : List Char
  value : List Char
  exported : Bool
  deriving DecidableEq, Repr

structure Scope where
  bindings : List Variable
  title : List Char
  arguments : List (List Char)
  status : Nat
  shellNumber : Nat
  lastBackground : Option Nat
  deriving DecidableEq, Repr

namespace Scope

def find? (scope : Scope) (name : List Char) : Option Variable :=
  scope.bindings.find? (·.name = name)

def set (scope : Scope) (name value : List Char) : Scope :=
  let exported := ((scope.find? name).map (·.exported)).getD false
  { scope with
    bindings := ⟨name, value, exported⟩ :: scope.bindings.filter (·.name ≠ name) }

def publish (scope : Scope) (name : List Char) : Scope :=
  let value := ((scope.find? name).map (·.value)).getD []
  { scope with
    bindings := ⟨name, value, true⟩ :: scope.bindings.filter (·.name ≠ name) }

def unset (scope : Scope) (name : List Char) : Scope :=
  { scope with bindings := scope.bindings.filter (·.name ≠ name) }

def joinWords (words : List (List Char)) : List Char :=
  [' '].intercalate words

def value? (scope : Scope) (name : List Char) : Option (List Char) :=
  match name with
  | ['@'] | ['*'] => if scope.arguments.isEmpty then none else some (joinWords scope.arguments)
  | ['#'] => some (Text.Decimal.digits scope.arguments.length)
  | ['?'] => some (Text.Decimal.digits scope.status)
  | ['$'] => some (Text.Decimal.digits scope.shellNumber)
  | ['!'] => scope.lastBackground.map Text.Decimal.digits
  | ['-'] => some []
  | ['0'] => some scope.title
  | _ =>
      if name.all Char.isDigit then scope.arguments[Text.Decimal.value name - 1]?
      else (scope.find? name).map (·.value)

def value (scope : Scope) (name : List Char) : List Char :=
  (scope.value? name).getD []

def separators (scope : Scope) : List Char :=
  (scope.value? "IFS".toList).getD [' ', '\t', '\n']

end Scope

/-- A stretch of a word that is being expanded: one that stays together, one that may fall apart, or a
boundary between fields. -/
inductive Chunk where
  | solid (chars : List Marked)
  | loose (chars : List Char)
  | boundary
  deriving DecidableEq, Repr

def mark (quoted : Bool) (chars : List Char) : List Marked :=
  chars.map fun char => (char, quoted)

def valueChunk (quoted : Bool) (chars : List Char) : Chunk :=
  if quoted then .solid (mark true chars) else .loose chars

def joinChunks (chunks : List Chunk) : List Marked :=
  chunks.flatMap fun chunk =>
    match chunk with
    | .solid chars => chars
    | .loose chars => mark false chars
    | .boundary => [(' ', true)]

def unmark (chars : List Marked) : List Char :=
  chars.map (·.1)

/-- The fields so far and the one that has begun, if one has. -/
abbrev Fields := List (List Marked) × Option (List Marked)

def Fields.add (fields : Fields) (chars : List Marked) : Fields :=
  (fields.1, some (fields.2.getD [] ++ chars))

def Fields.close (fields : Fields) : Fields :=
  match fields.2 with
  | some field => (fields.1 ++ [field], none)
  | none => fields

def Fields.addLoose (separators : List Char) (fields : Fields) (char : Char) : Fields :=
  if !separators.contains char then fields.add [(char, false)]
  else if char = ' ' ∨ char = '\t' ∨ char = '\n' then fields.close
  else (fields.add []).close

def fieldsOf (separators : List Char) (chunks : List Chunk) : List (List Char) :=
  let fields : Fields :=
    chunks.foldl
      (fun fields chunk =>
        match chunk with
        | .solid chars => fields.add chars
        | .loose chars => chars.foldl (Fields.addLoose separators) fields
        | .boundary => fields.close)
      ([], none)
  fields.close.1.map unmark

def argumentChunks (quoted : Bool) : List (List Char) → List Chunk
  | [] => []
  | [argument] => [valueChunk quoted argument]
  | argument :: rest => valueChunk quoted argument :: .boundary :: argumentChunks quoted rest

/-- What expanding gives: stretches and what words can refer to afterwards, or an error. -/
abbrev Expanded := Except String (List Chunk × Scope)

def parameterChunks (scope : Scope) (name : List Char) (quoted : Bool) : List Chunk :=
  match name with
  | ['@'] => argumentChunks quoted scope.arguments
  | ['*'] =>
      if quoted then
        let separator := scope.separators.take 1
        [.solid (mark true (separator.intercalate scope.arguments))]
      else argumentChunks false scope.arguments
  | _ => [valueChunk quoted (scope.value name)]

/-- A part of a word that takes the place of an unquoted parameter, so that it may fall apart. -/
def loosen : Part → Part
  | .text chars false => .captured chars false
  | part => part

/-- The parts of a word that takes the place of a parameter.  Double quotes inside of others have no
meaning of their own. -/
def innerParts (quoted : Bool) (word : List Char) : List Part :=
  if quoted then
    let bare := word.filter (· ≠ '"')
    quotedParts doubleEscapable bare.length.succ bare
  else (readInner word.length.succ word).map loosen

def emptyChunks (quoted : Bool) : List Chunk :=
  if quoted then [.solid []] else []

mutual

def expandParts : Nat → Scope → List Part → Expanded
  | 0, scope, _ => .ok ([], scope)
  | _ + 1, scope, [] => .ok ([], scope)
  | fuel + 1, scope, part :: rest => do
      let (chunks, scope) ← expandPart fuel scope part
      let (others, scope) ← expandParts fuel scope rest
      .ok (chunks ++ others, scope)

def expandPart : Nat → Scope → Part → Expanded
  | 0, scope, _ => .ok ([], scope)
  | fuel + 1, scope, part =>
      match part with
      | .text chars quoted => .ok ([.solid (mark quoted chars)], scope)
      | .captured chars quoted => .ok ([valueChunk quoted chars], scope)
      | .command _ _ => .ok ([], scope)
      | .arithmetic source quoted => do
          let (chunks, scope) ←
            expandParts fuel scope (quotedParts doubleEscapable source.length.succ source)
          match arithmetic? scope.value (unmark (joinChunks chunks)) with
          | some value => .ok ([valueChunk quoted (Text.Decimal.ofInt value)], scope)
          | none => .error "arithmetic expression"
      | .parameter name use quoted => expandParameter fuel scope name use quoted

def expandParameter : Nat → Scope → List Char → ParameterUse → Bool → Expanded
  | 0, scope, _, _, _ => .ok ([], scope)
  | fuel + 1, scope, name, use, quoted =>
      match use with
      | .value => .ok (parameterChunks scope name quoted, scope)
      | .size =>
          .ok ([valueChunk quoted (Text.Decimal.digits (scope.value name).length)], scope)
      | .trimmed fromEnd longest pattern => do
          let (chunks, scope) ←
            expandParts fuel scope (readInner pattern.length.succ pattern)
          let pattern := joinChunks chunks
          let value := scope.value name
          let value :=
            if fromEnd then withoutEnd longest pattern value
            else withoutStart longest pattern value
          .ok ([valueChunk quoted value], scope)
      | .guarded sign orEmpty word =>
          let isPresent :=
            match scope.value? name with
            | none => false
            | some value => !(orEmpty && value.isEmpty)
          if sign = '+' then
            if isPresent then do
              let (chunks, scope) ← expandParts fuel scope (innerParts quoted word)
              .ok (emptyChunks quoted ++ chunks, scope)
            else .ok (emptyChunks quoted, scope)
          else if isPresent then .ok (parameterChunks scope name quoted, scope)
          else do
            let (chunks, scope) ← expandParts fuel scope (innerParts quoted word)
            let value := unmark (joinChunks chunks)
            if sign = '-' then .ok (emptyChunks quoted ++ chunks, scope)
            else if sign = '=' then .ok ([valueChunk quoted value], scope.set name value)
            else
              .error (String.ofList (name ++ ": ".toList ++
                if !value.isEmpty then value
                else if orEmpty then "parameter not set or null".toList
                else "parameter not set".toList))

end

def expansionFuel (word : Word) : Nat :=
  word.length + 64

def Scope.fields (scope : Scope) (word : Word) : Except String (List (List Char) × Scope) := do
  let (chunks, scope) ← expandParts (expansionFuel word) scope word
  .ok (fieldsOf scope.separators chunks, scope)

def Scope.allFields (scope : Scope) : List Word → Except String (List (List Char) × Scope)
  | [] => .ok ([], scope)
  | word :: rest => do
      let (fields, scope) ← scope.fields word
      let (others, scope) ← scope.allFields rest
      .ok (fields ++ others, scope)

def Scope.text (scope : Scope) (word : Word) : Except String (List Char × Scope) := do
  let (chunks, scope) ← expandParts (expansionFuel word) scope word
  .ok (unmark (joinChunks chunks), scope)

def Scope.pattern (scope : Scope) (word : Word) : Except String (List Marked) := do
  let (chunks, _) ← expandParts (expansionFuel word) scope word
  .ok (joinChunks chunks)

end BackupClient.Shell
