import BackupClient.Json.Decode
import BackupClient.Time.Epoch

/-!
Records of the engine's log, one JSON object a line.

Names that a record does not know are ignored, and a record that says nothing about a counter leaves it
at zero.
-/

namespace BackupClient

inductive RecordKind where
  | archiveProgress
  | progressMessage
  | progressPercent
  | fileStatus
  | logMessage
  | unknown
  deriving DecidableEq, Repr

namespace RecordKind

/-- The kind of a name.  Names that are not known are a kind of their own. -/
def ofName (name : String) : RecordKind :=
  match name with
  | "archive_progress" => .archiveProgress
  | "progress_message" => .progressMessage
  | "progress_percent" => .progressPercent
  | "file_status" => .fileStatus
  | "log_message" => .logMessage
  | _ => .unknown

def ofJson? (value : Json) : Option RecordKind :=
  (Json.decodeName value).map ofName

def display : RecordKind → String
  | .archiveProgress => "ArchiveProgress"
  | .progressMessage => "ProgressMessage"
  | .progressPercent => "ProgressPercent"
  | .fileStatus => "FileStatus"
  | .logMessage => "LogMessage"
  | .unknown => "Unknown"

end RecordKind

inductive LogLevel where
  | debug
  | info
  | warning
  | error
  | critical
  | other
  deriving DecidableEq, Repr

namespace LogLevel

def name : LogLevel → String
  | .debug => "DEBUG"
  | .info => "INFO"
  | .warning => "WARNING"
  | .error => "ERROR"
  | .critical => "CRITICAL"
  | .other => "OTHER"

def named : List LogLevel :=
  [.debug, .info, .warning, .error, .critical]

/-- The level of a name.  Names that are not known share one level. -/
def ofName (name : String) : LogLevel :=
  (named.find? (·.name = name)).getD .other

def ofJson? (value : Json) : Option LogLevel :=
  (Json.decodeName value).map ofName

def isError (level : LogLevel) : Bool :=
  level == .error || level == .critical

def rank : LogLevel → Nat
  | .debug => 0
  | .info => 1
  | .warning => 2
  | .error => 3
  | .critical => 4
  | .other => 5

end LogLevel

namespace Json

/-- The time of a record: seconds since the start of 1970, or nothing. -/
def decodeTime : Json → Option (Option Instant)
  | .null => some none
  | value => (decodeDouble value).bind fun seconds => (Instant.ofEpoch? seconds).map some

def ofTime : Option Instant → Json :=
  ofOption fun instant => .float instant.toEpoch

def decodeCount : Json → Option Nat :=
  decodeNat (Nat.pow 2 64)

end Json

structure ArchiveProgress where
  originalSize : Nat
  compressedSize : Nat
  dedupedSize : Nat
  fileCount : Nat
  currentPath : String
  time : Option Instant
  finished : Bool
  deriving DecidableEq, Repr

namespace ArchiveProgress

def toJson (progress : ArchiveProgress) : Json :=
  .obj [("original_size", .ofNat progress.originalSize),
    ("compressed_size", .ofNat progress.compressedSize),
    ("deduplicated_size", .ofNat progress.dedupedSize), ("nfiles", .ofNat progress.fileCount),
    ("path", .str progress.currentPath), ("time", .ofTime progress.time),
    ("finished", .bool progress.finished)]

def ofJson? (value : Json) : Option ArchiveProgress := do
  let fields ← value.fields?
    ["original_size", "compressed_size", "deduplicated_size", "nfiles", "path", "time", "finished"]
  let originalSize ← fields.withDefault "original_size" 0 Json.decodeCount
  let compressedSize ← fields.withDefault "compressed_size" 0 Json.decodeCount
  let dedupedSize ← fields.withDefault "deduplicated_size" 0 Json.decodeCount
  let fileCount ← fields.withDefault "nfiles" 0 Json.decodeCount
  let currentPath ← fields.withDefault "path" "" Json.decodeString
  let time ← fields.withDefault "time" none Json.decodeTime
  let finished ← fields.withDefault "finished" false Json.decodeBool
  some ⟨originalSize, compressedSize, dedupedSize, fileCount, currentPath, time, finished⟩

end ArchiveProgress

structure ProgressMessage where
  operationId : Nat
  messageId : Option String
  finished : Bool
  text : String
  time : Option Instant
  deriving DecidableEq, Repr

namespace ProgressMessage

def toJson (message : ProgressMessage) : Json :=
  .obj [("operation", .ofNat message.operationId),
    ("msgid", Json.ofOption .str message.messageId), ("finished", .bool message.finished),
    ("message", .str message.text), ("time", .ofTime message.time)]

def ofJson? (value : Json) : Option ProgressMessage := do
  let fields ← value.fields? ["operation", "msgid", "finished", "message", "time"]
  let operationId ← fields.required "operation" Json.decodeCount
  let messageId ← fields.withDefault "msgid" none (Json.decodeOption Json.decodeString)
  let finished ← fields.withDefault "finished" false Json.decodeBool
  let text ← fields.withDefault "message" "" Json.decodeString
  let time ← fields.withDefault "time" none Json.decodeTime
  some ⟨operationId, messageId, finished, text, time⟩

end ProgressMessage

structure ProgressPercent where
  operationId : Nat
  messageId : Option String
  finished : Bool
  text : String
  current : Nat
  total : Nat
  info : List String
  time : Option Instant
  deriving DecidableEq, Repr

namespace ProgressPercent

def toJson (progress : ProgressPercent) : Json :=
  .obj [("operation", .ofNat progress.operationId),
    ("msgid", Json.ofOption .str progress.messageId), ("finished", .bool progress.finished),
    ("message", .str progress.text), ("current", .ofNat progress.current),
    ("total", .ofNat progress.total), ("info", Json.ofList .str progress.info),
    ("time", .ofTime progress.time)]

def ofJson? (value : Json) : Option ProgressPercent := do
  let fields ← value.fields?
    ["operation", "msgid", "finished", "message", "current", "total", "info", "time"]
  let operationId ← fields.required "operation" Json.decodeCount
  let messageId ← fields.withDefault "msgid" none (Json.decodeOption Json.decodeString)
  let finished ← fields.withDefault "finished" false Json.decodeBool
  let text ← fields.withDefault "message" "" Json.decodeString
  let current ← fields.withDefault "current" 0 Json.decodeCount
  let total ← fields.withDefault "total" 0 Json.decodeCount
  let info ← fields.withDefault "info" [] (Json.decodeList Json.decodeString)
  let time ← fields.withDefault "time" none Json.decodeTime
  some ⟨operationId, messageId, finished, text, current, total, info, time⟩

end ProgressPercent

structure FileStatus where
  status : String
  path : String
  deriving DecidableEq, Repr

namespace FileStatus

def toJson (file : FileStatus) : Json :=
  .obj [("status", .str file.status), ("path", .str file.path)]

def ofJson? (value : Json) : Option FileStatus := do
  let fields ← value.fields? ["status", "path"]
  let status ← fields.required "status" Json.decodeString
  let path ← fields.required "path" Json.decodeString
  some ⟨status, path⟩

end FileStatus

structure LogMessage where
  time : Option Instant
  level : LogLevel
  loggerName : String
  text : String
  messageId : Option String
  deriving DecidableEq, Repr

namespace LogMessage

def toJson (message : LogMessage) : Json :=
  .obj [("time", .ofTime message.time), ("levelname", .str message.level.name),
    ("name", .str message.loggerName), ("message", .str message.text),
    ("msgid", Json.ofOption .str message.messageId)]

def ofJson? (value : Json) : Option LogMessage := do
  let fields ← value.fields? ["time", "levelname", "name", "message", "msgid"]
  let time ← fields.withDefault "time" none Json.decodeTime
  let level ← fields.required "levelname" LogLevel.ofJson?
  let loggerName ← fields.withDefault "name" "" Json.decodeString
  let text ← fields.required "message" Json.decodeString
  let messageId ← fields.withDefault "msgid" none (Json.decodeOption Json.decodeString)
  some ⟨time, level, loggerName, text, messageId⟩

end LogMessage

inductive LogRecord where
  | archiveProgress (progress : ArchiveProgress)
  | progressMessage (message : ProgressMessage)
  | progressPercent (progress : ProgressPercent)
  | fileStatus (file : FileStatus)
  | logMessage (message : LogMessage)
  deriving DecidableEq, Repr

namespace LogRecord

def kind : LogRecord → RecordKind
  | .archiveProgress _ => .archiveProgress
  | .progressMessage _ => .progressMessage
  | .progressPercent _ => .progressPercent
  | .fileStatus _ => .fileStatus
  | .logMessage _ => .logMessage

def time : LogRecord → Option Instant
  | .archiveProgress progress => progress.time
  | .progressMessage message => message.time
  | .progressPercent progress => progress.time
  | .fileStatus _ => none
  | .logMessage message => message.time

def toJson : LogRecord → Json
  | .archiveProgress progress => progress.toJson
  | .progressMessage message => message.toJson
  | .progressPercent progress => progress.toJson
  | .fileStatus file => file.toJson
  | .logMessage message => message.toJson

/-- Read a record of a given kind.  There are none of a kind that is not known. -/
def ofJson? (kind : RecordKind) (value : Json) : Option LogRecord :=
  match kind with
  | .archiveProgress => (ArchiveProgress.ofJson? value).map .archiveProgress
  | .progressMessage => (ProgressMessage.ofJson? value).map .progressMessage
  | .progressPercent => (ProgressPercent.ofJson? value).map .progressPercent
  | .fileStatus => (FileStatus.ofJson? value).map .fileStatus
  | .logMessage => (LogMessage.ofJson? value).map .logMessage
  | .unknown => none

end LogRecord

end BackupClient
