import BackupClient.Json.Decode
import BackupClient.Text.Decimal

/-!
Operations: a kind of work of a backup profile on a repository.
-/

namespace BackupClient

structure OperationId where
  profile : Int
  repository : Int
  deriving DecidableEq, Repr

namespace OperationId

def display (id : OperationId) : String :=
  Text.Decimal.intText id.profile ++ ":" ++ Text.Decimal.intText id.repository

/-- Profiles first, then repositories. -/
def le (left right : OperationId) : Bool :=
  left.profile < right.profile ||
    (left.profile == right.profile && left.repository ≤ right.repository)

def toJson (id : OperationId) : Json :=
  .obj [("profileId", .int id.profile), ("repositoryId", .int id.repository)]

def ofJson? (value : Json) : Option OperationId := do
  let fields ← value.fields? ["profileId", "repositoryId"]
  let profile ← fields.required "profileId" Json.decodeInt64
  let repository ← fields.required "repositoryId" Json.decodeInt64
  some ⟨profile, repository⟩

end OperationId

inductive OperationKind where
  | backup
  | prune
  | delete
  deriving DecidableEq, Repr

namespace OperationKind

def name : OperationKind → String
  | .backup => "backup"
  | .prune => "prune"
  | .delete => "delete"

def ofName? (name : String) : Option OperationKind :=
  [OperationKind.backup, .prune, .delete].find? (·.name = name)

def ofJson? (value : Json) : Option OperationKind :=
  (Json.decodeName value).bind ofName?

end OperationKind

/-- A kind of work together with who does it and where. -/
structure Operation where
  kind : OperationKind
  id : OperationId
  deriving DecidableEq, Repr

def Operation.display (operation : Operation) : String :=
  operation.kind.name ++ " " ++ operation.id.display

end BackupClient
