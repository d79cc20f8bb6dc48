import BackupClient.Json.Decode
import BackupClient.Time.Epoch
import BackupClient.Time.LocalTime

/-!
The engine's answers: what a repository and its archives are made of.
-/

namespace BackupClient

namespace Json

def decodeLocalTime (value : Json) : Option LocalTime :=
  (decodeString value).bind fun text => LocalTime.read? text.toList

def ofLocalTime (time : LocalTime) : Json :=
  .str (String.ofList time.write)

def decodeSeconds (value : Json) : Option Duration :=
  (decodeDouble value).bind Duration.ofSecondsDouble?

def decodeSize : Json → Option Nat :=
  decodeNat (Nat.pow 2 64)

end Json

structure Encryption where
  mode : String
  keyfile : Option String
  deriving DecidableEq, Repr

namespace Encryption

def toJson (encryption : Encryption) : Json :=
  .obj <| ("mode", .str encryption.mode) ::
    match encryption.keyfile with
    | some keyfile => [("keyfile", .str keyfile)]
    | none => []

def ofJson? (value : Json) : Option Encryption := do
  let fields ← value.fields? ["mode", "keyfile"]
  let mode ← fields.required "mode" Json.decodeString
  let keyfile ← fields.withDefault "keyfile" none (Json.decodeOption Json.decodeString)
  some ⟨mode, keyfile⟩

end Encryption

structure RepositoryInfo where
  id : String
  lastModified : String
  location : String
  deriving DecidableEq, Repr

namespace RepositoryInfo

def toJson (repository : RepositoryInfo) : Json :=
  .obj [("id", .str repository.id), ("last_modified", .str repository.lastModified),
    ("location", .str repository.location)]

def ofJson? (value : Json) : Option RepositoryInfo := do
  let fields ← value.fields? ["id", "last_modified", "location"]
  let id ← fields.required "id" Json.decodeString
  let lastModified ← fields.withDefault "last_modified" "" Json.decodeString
  let location ← fields.required "location" Json.decodeString
  some ⟨id, lastModified, location⟩

end RepositoryInfo

structure CacheStats where
  totalChunks : Nat
  totalCompressedSize : Nat
  totalSize : Nat
  totalUniqueChunks : Nat
  uniqueCompressedSize : Nat
  uniqueSize : Nat
  deriving DecidableEq, Repr

namespace CacheStats

def toJson (stats : CacheStats) : Json :=
  .obj [("total_chunks", .ofNat stats.totalChunks),
    ("total_csize", .ofNat stats.totalCompressedSize), ("total_size", .ofNat stats.totalSize),
    ("total_unique_chunks", .ofNat stats.totalUniqueChunks),
    ("unique_csize", .ofNat stats.uniqueCompressedSize), ("unique_size", .ofNat stats.uniqueSize)]

def ofJson? (value : Json) : Option CacheStats := do
  let fields ← value.fields?
    ["total_chunks", "total_csize", "total_size", "total_unique_chunks", "unique_csize",
      "unique_size"]
  let totalChunks ← fields.required "total_chunks" Json.decodeSize
  let totalCompressedSize ← fields.required "total_csize" Json.decodeSize
  let totalSize ← fields.required "total_size" Json.decodeSize
  let totalUniqueChunks ← fields.required "total_unique_chunks" Json.decodeSize
  let uniqueCompressedSize ← fields.required "unique_csize" Json.decodeSize
  let uniqueSize ← fields.required "unique_size" Json.decodeSize
  some ⟨totalChunks, totalCompressedSize, totalSize, totalUniqueChunks, uniqueCompressedSize,
    uniqueSize⟩

end CacheStats

structure Cache where
  path : String
  stats : CacheStats
  deriving DecidableEq, Repr

namespace Cache

def toJson (cache : Cache) : Json :=
  .obj [("path", .str cache.path), ("stats", cache.stats.toJson)]

def ofJson? (value : Json) : Option Cache := do
  let fields ← value.fields? ["path", "stats"]
  let path ← fields.required "path" Json.decodeString
  let stats ← fields.required "stats" CacheStats.ofJson?
  some ⟨path, stats⟩

end Cache

structure ArchiveStats where
  compressedSize : Nat
  dedupedSize : Nat
  fileCount : Nat
  originalSize : Nat
  deriving DecidableEq, Repr

namespace ArchiveStats

def zero : ArchiveStats :=
  ⟨0, 0, 0, 0⟩

def toJson (stats : ArchiveStats) : Json :=
  .obj [("compressed_size", .ofNat stats.compressedSize),
    ("deduplicated_size", .ofNat stats.dedupedSize), ("nfiles", .ofNat stats.fileCount),
    ("original_size", .ofNat stats.originalSize)]

def ofJson? (value : Json) : Option ArchiveStats := do
  let fields ← value.fields?
    ["compressed_size", "deduplicated_size", "nfiles", "original_size"]
  let compressedSize ← fields.required "compressed_size" Json.decodeSize
  let dedupedSize ← fields.required "deduplicated_size" Json.decodeSize
  let fileCount ← fields.required "nfiles" Json.decodeSize
  let originalSize ← fields.required "original_size" Json.decodeSize
  some ⟨compressedSize, dedupedSize, fileCount, originalSize⟩

end ArchiveStats

structure Limits where
  maxArchiveSize : Binary64
  deriving DecidableEq, Repr

namespace Limits

def zero : Limits :=
  ⟨Binary64.zero false⟩

def toJson (limits : Limits) : Json :=
  .obj [("max_archive_size", .float limits.maxArchiveSize)]

def ofJson? (value : Json) : Option Limits := do
  let fields ← value.fields? ["max_archive_size"]
  let maxArchiveSize ← fields.required "max_archive_size" Json.decodeDouble
  some ⟨maxArchiveSize⟩

end Limits

structure ArchiveInfo where
  chunkerParams : List Json
  commandLine : List String
  comment : String
  duration : Duration
  stop : LocalTime
  hostname : String
  id : String
  limits : Limits
  name : String
  start : LocalTime
  stats : ArchiveStats
  username : String
  deriving DecidableEq

namespace ArchiveInfo

def toJson (archive : ArchiveInfo) : Json :=
  .obj [("chunker_params", .arr archive.chunkerParams),
    ("command_line", Json.ofList .str archive.commandLine), ("comment", .str archive.comment),
    ("duration", .float archive.duration.toSecondsDouble), ("end", .ofLocalTime archive.stop),
    ("hostname", .str archive.hostname), ("id", .str archive.id),
    ("limits", archive.limits.toJson), ("name", .str archive.name),
    ("start", .ofLocalTime archive.start), ("stats", archive.stats.toJson),
    ("username", .str archive.username)]

def ofJson? (value : Json) : Option ArchiveInfo := do
  let fields ← value.fields?
    ["chunker_params", "command_line", "comment", "duration", "end", "hostname", "id", "limits",
      "name", "start", "stats", "username"]
  let chunkerParams ← fields.withDefault "chunker_params" [] (Json.decodeList Json.decodeAny)
  let commandLine ← fields.withDefault "command_line" [] (Json.decodeList Json.decodeString)
  let comment ← fields.withDefault "comment" "" Json.decodeString
  let duration ← fields.required "duration" Json.decodeSeconds
  let stop ← fields.required "end" Json.decodeLocalTime
  let hostname ← fields.withDefault "hostname" "" Json.decodeString
  let id ← fields.required "id" Json.decodeString
  let limits ← fields.withDefault "limits" Limits.zero Limits.ofJson?
  let name ← fields.required "name" Json.decodeString
  let start ← fields.required "start" Json.decodeLocalTime
  let stats ← fields.withDefault "stats" ArchiveStats.zero ArchiveStats.ofJson?
  let username ← fields.withDefault "username" "" Json.decodeString
  some ⟨chunkerParams, commandLine, comment, duration, stop, hostname, id, limits, name, start,
    stats, username⟩

end ArchiveInfo

structure ArchiveListEntry where
  archive : String
  barchive : String
  id : String
  name : String
  start : LocalTime
  stop : Option LocalTime
  deriving DecidableEq, Repr

namespace ArchiveListEntry

def toJson (entry : ArchiveListEntry) : Json :=
  .obj <| [("archive", .str entry.archive), ("barchive", .str entry.barchive),
      ("id", .str entry.id), ("name", .str entry.name), ("start", .ofLocalTime entry.start)] ++
    match entry.stop with
    | some stop => [("end", .ofLocalTime stop)]
    | none => []

def ofJson? (value : Json) : Option ArchiveListEntry := do
  let fields ← value.fields? ["archive", "barchive", "id", "name", "start", "end"]
  let archive ← fields.required "archive" Json.decodeString
  let barchive ← fields.withDefault "barchive" "" Json.decodeString
  let id ← fields.required "id" Json.decodeString
  let name ← fields.required "name" Json.decodeString
  let start ← fields.required "start" Json.decodeLocalTime
  let stop ← fields.withDefault "end" none (Json.decodeOption Json.decodeLocalTime)
  some ⟨archive, barchive, id, name, start, stop⟩

end ArchiveListEntry

structure InfoResponse where
  archives : List ArchiveInfo
  cache : Cache
  encryption : Encryption
  repository : RepositoryInfo
  securityDirectory : String
  deriving DecidableEq

namespace InfoResponse

def toJson (response : InfoResponse) : Json :=
  .obj [("archives", Json.ofList ArchiveInfo.toJson response.archives),
    ("cache", response.cache.toJson), ("encryption", response.encryption.toJson),
    ("repository", response.repository.toJson),
    ("security_dir", .str response.securityDirectory)]

def ofJson? (value : Json) : Option InfoResponse := do
  let fields ← value.fields?
    ["archives", "cache", "encryption", "repository", "security_dir"]
  let archives ← fields.withDefault "archives" [] (Json.decodeList ArchiveInfo.ofJson?)
  let cache ← fields.required "cache" Cache.ofJson?
  let encryption ← fields.required "encryption" Encryption.ofJson?
  let repository ← fields.required "repository" RepositoryInfo.ofJson?
  let securityDirectory ← fields.withDefault "security_dir" "" Json.decodeString
  some ⟨archives, cache, encryption, repository, securityDirectory⟩

end InfoResponse

structure ListResponse where
  archives : List ArchiveListEntry
  encryption : Encryption
  repository : RepositoryInfo
  deriving DecidableEq, Repr

namespace ListResponse

def toJson (response : ListResponse) : Json :=
  .obj [("archives", Json.ofList ArchiveListEntry.toJson response.archives),
    ("encryption", response.encryption.toJson), ("repository", response.repository.toJson)]

def ofJson? (value : Json) : Option ListResponse := do
  let fields ← value.fields? ["archives", "encryption", "repository"]
  let archives ← fields.withDefault "archives" [] (Json.decodeList ArchiveListEntry.ofJson?)
  let encryption ← fields.required "encryption" Encryption.ofJson?
  let repository ← fields.required "repository" RepositoryInfo.ofJson?
  some ⟨archives, encryption, repository⟩

end ListResponse

/-- An archive that a prune run keeps, and why. -/
structure KeptArchive where
  name : String
  reason : String
  deriving DecidableEq, Repr

structure PruneResult where
  dryRun : Bool
  pruned : List String
  kept : List KeptArchive
  deriving DecidableEq, Repr

namespace PruneResult

def toJson (result : PruneResult) : Json :=
  .obj [("isDryRun", .bool result.dryRun),
    ("pruned", Json.ofList (fun name => .obj [("name", .str name)]) result.pruned),
    ("kept", Json.ofList (fun (archive : KeptArchive) =>
      .obj [("name", .str archive.name), ("reason", .str archive.reason)]) result.kept)]

end PruneResult

end BackupClient
