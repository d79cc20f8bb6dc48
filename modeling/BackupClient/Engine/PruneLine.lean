import BackupClient.Engine.Version
import BackupClient.Response

/-!
What the engine says about an archive when it prunes.
-/

namespace BackupClient

inductive PruneLine where
  | pruned (name : String)
  | kept (archive : KeptArchive)
  deriving DecidableEq, Repr

namespace PruneLine

def after? : List Char → List Char → Option (List Char)
  | [], chars => some chars
  | _ :: _, [] => none
  | expected :: rest, char :: chars => if expected = char then after? rest chars else none

def subject? (chars : List Char) : Option String :=
  match chars with
  | ':' :: rest =>
      let word := (Text.trimStart rest).takeWhile (!Text.isBlank ·)
      if rest.head?.any Text.isBlank && !word.isEmpty then some (String.ofList word) else none
  | _ => none

def afterCounter? (chars : List Char) : Option (List Char) := do
  let rest ← after? [' ', '('] chars
  let (_, rest) ← EngineVersion.digitRun? rest
  let rest ← after? ['/'] rest
  let (_, rest) ← EngineVersion.digitRun? rest
  after? [')'] rest

def rule? (chars : List Char) : Option (List Char × List Char) := do
  let rest ← after? " (rule: ".toList chars
  let rule := rest.takeWhile (· != ')')
  some (rule, ← after? [')'] (rest.drop rule.length))

def prunedName? (text : List Char) : Option String :=
  match after? "Would prune".toList text with
  | some rest => subject? rest
  | none => do
      let rest ← after? "Pruning archive".toList text
      subject? ((afterCounter? rest).getD rest)

def keptArchive? (text : List Char) : Option KeptArchive := do
  let rest ← after? "Keeping archive".toList text
  match rule? rest with
  | some (rule, rest) => some ⟨← subject? rest, String.ofList rule⟩
  | none => some ⟨← subject? rest, ""⟩

def parse? (text : List Char) : Option PruneLine :=
  match prunedName? text with
  | some name => some (.pruned name)
  | none => (keptArchive? text).map .kept

end PruneLine

end BackupClient
