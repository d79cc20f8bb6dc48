import BackupClient.Operation

/-!
Jobs: what is to be backed up, pruned or deleted.

A job's JSON form leaves the passphrase out; reading one takes the passphrase if it is there.
-/

namespace BackupClient

def bound32 : Nat := Nat.pow 2 32

def bound64 : Nat := Nat.pow 2 64

/-- A backup of some paths into a repository.  The archive's name is the stem and a time stamp. -/
structure BackupJob where
  id : OperationId
  repository : String
  passphrase : String
  stem : String
  backupPaths : List String
  excludePaths : List String
  deriving DecidableEq, Repr

namespace BackupJob

def toJson (job : BackupJob) : Json :=
  .obj [("id", job.id.toJson), ("repository", .str job.repository), ("prefix", .str job.stem),
    ("backupPaths", Json.ofList .str job.backupPaths),
    ("excludePaths", Json.ofList .str job.excludePaths)]

def ofJson? (value : Json) : Option BackupJob := do
  let fields ← value.fields?
    ["id", "repository", "passphrase", "prefix", "backupPaths", "excludePaths"]
  let id ← fields.required "id" OperationId.ofJson?
  let repository ← fields.required "repository" Json.decodeString
  let passphrase ← fields.withDefault "passphrase" "" Json.decodeString
  let stem ← fields.required "prefix" Json.decodeString
  let backupPaths ← fields.required "backupPaths" (Json.decodeList Json.decodeString)
  let excludePaths ← fields.withDefault "excludePaths" [] (Json.decodeList Json.decodeString)
  some ⟨id, repository, passphrase, stem, backupPaths, excludePaths⟩

end BackupJob

/-- How many archives to keep, by age and by interval.  A count of zero keeps none for its sake. -/
structure PruneRule where
  hourly : Nat
  daily : Nat
  weekly : Nat
  monthly : Nat
  yearly : Nat
  withinDays : Nat
  deriving DecidableEq, Repr

namespace PruneRule

/-- A flag with a count, unless the count is zero. -/
def flag (name : String) (count : Nat) (unit : String) : List String :=
  if count > 0 then [name ++ "=" ++ Text.Decimal.text count ++ unit] else []

def arguments (rule : PruneRule) : List String :=
  flag "--keep-within" rule.withinDays "d" ++ flag "--keep-hourly" rule.hourly "" ++
    flag "--keep-daily" rule.daily "" ++ flag "--keep-weekly" rule.weekly "" ++
    flag "--keep-monthly" rule.monthly "" ++ flag "--keep-yearly" rule.yearly ""

def isEmpty (rule : PruneRule) : Bool :=
  rule.arguments.isEmpty

def toJson (rule : PruneRule) : Json :=
  .obj [("keepHourly", .ofNat rule.hourly), ("keepDaily", .ofNat rule.daily),
    ("keepWeekly", .ofNat rule.weekly), ("keepMonthly", .ofNat rule.monthly),
    ("keepYearly", .ofNat rule.yearly), ("keepWithinDays", .ofNat rule.withinDays)]

def ofJson? (value : Json) : Option PruneRule := do
  let fields ← value.fields?
    ["keepHourly", "keepDaily", "keepWeekly", "keepMonthly", "keepYearly", "keepWithinDays"]
  let hourly ← fields.withDefault "keepHourly" 0 (Json.decodeNat bound32)
  let daily ← fields.withDefault "keepDaily" 0 (Json.decodeNat bound32)
  let weekly ← fields.withDefault "keepWeekly" 0 (Json.decodeNat bound32)
  let monthly ← fields.withDefault "keepMonthly" 0 (Json.decodeNat bound32)
  let yearly ← fields.withDefault "keepYearly" 0 (Json.decodeNat bound32)
  let withinDays ← fields.withDefault "keepWithinDays" 0 (Json.decodeNat bound32)
  some ⟨hourly, daily, weekly, monthly, yearly, withinDays⟩

end PruneRule

structure PruneJob where
  id : OperationId
  repository : String
  passphrase : String
  stem : String
  rule : PruneRule
  dryRun : Bool
  deriving DecidableEq, Repr

namespace PruneJob

def toJson (job : PruneJob) : Json :=
  .obj [("id", job.id.toJson), ("repository", .str job.repository), ("prefix", .str job.stem),
    ("rule", job.rule.toJson), ("dryRun", .bool job.dryRun)]

def ofJson? (value : Json) : Option PruneJob := do
  let fields ← value.fields? ["id", "repository", "passphrase", "prefix", "rule", "dryRun"]
  let id ← fields.required "id" OperationId.ofJson?
  let repository ← fields.required "repository" Json.decodeString
  let passphrase ← fields.withDefault "passphrase" "" Json.decodeString
  let stem ← fields.required "prefix" Json.decodeString
  let rule ← fields.required "rule" PruneRule.ofJson?
  let dryRun ← fields.withDefault "dryRun" false Json.decodeBool
  some ⟨id, repository, passphrase, stem, rule, dryRun⟩

end PruneJob

inductive DeleteTarget where
  | archive (name : String)
  | stem (text : String)
  | repository
  deriving DecidableEq, Repr

namespace DeleteTarget

/-- The JSON form: the kind of the target, and its name if it has one. -/
def toJson : DeleteTarget → Json
  | .archive name => .obj [("kind", .str "archive"), ("name", .str name)]
  | .stem text => .obj [("kind", .str "prefix"), ("name", .str text)]
  | .repository => .obj [("kind", .str "repository")]

/-- Read `null` and nothing else. -/
def decodeNull : Json → Option Unit
  | .null => some ()
  | _ => none

/-- Read the JSON form.  A whole repository needs no name, and takes `null` for one. -/
def ofJson? (value : Json) : Option DeleteTarget := do
  let fields ← value.fields? ["kind", "name"]
  match ← fields.required "kind" Json.decodeName with
  | "archive" => (fields.required "name" Json.decodeString).map DeleteTarget.archive
  | "prefix" => (fields.required "name" Json.decodeString).map DeleteTarget.stem
  | "repository" =>
      if fields.positional then
        (fields.required "name" decodeNull).map fun _ => DeleteTarget.repository
      else (fields.withDefault "name" () decodeNull).map fun _ => DeleteTarget.repository
  | _ => none

end DeleteTarget

structure DeleteJob where
  id : OperationId
  repository : String
  passphrase : String
  target : DeleteTarget
  deriving DecidableEq, Repr

namespace DeleteJob

def toJson (job : DeleteJob) : Json :=
  .obj [("id", job.id.toJson), ("repository", .str job.repository),
    ("target", job.target.toJson)]

def ofJson? (value : Json) : Option DeleteJob := do
  let fields ← value.fields? ["id", "repository", "passphrase", "target"]
  let id ← fields.required "id" OperationId.ofJson?
  let repository ← fields.required "repository" Json.decodeString
  let passphrase ← fields.withDefault "passphrase" "" Json.decodeString
  let target ← fields.required "target" DeleteTarget.ofJson?
  some ⟨id, repository, passphrase, target⟩

end DeleteJob

structure BackupProgress where
  totalFiles : Nat
  processedFiles : Nat
  deriving DecidableEq, Repr

namespace BackupProgress

def toJson (progress : BackupProgress) : Json :=
  .obj [("totalFiles", .ofNat progress.totalFiles),
    ("processedFiles", .ofNat progress.processedFiles)]

def ofJson? (value : Json) : Option BackupProgress := do
  let fields ← value.fields? ["totalFiles", "processedFiles"]
  let totalFiles ← fields.required "totalFiles" (Json.decodeNat bound64)
  let processedFiles ← fields.required "processedFiles" (Json.decodeNat bound64)
  some ⟨totalFiles, processedFiles⟩

end BackupProgress

end BackupClient
