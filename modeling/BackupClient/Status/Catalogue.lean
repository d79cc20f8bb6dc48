import BackupClient.Status.Category

/-!
The catalogue of the engine's exit codes.

The messages are fixed and do not depend on what the engine prints.  Codes from 2 to 99 are errors;
code 1 and those from 100 on are warnings.  Both tables have gaps.
-/

namespace BackupClient.Catalogue

structure Entry where
  code : Int
  message : String
  category : Category
  deriving DecidableEq, Repr

def generic : Entry :=
  ⟨2, "error", .general⟩

def errors : List Entry :=
  [
    ⟨2, "error", .general⟩,
    ⟨3, "cancelled by user", .general⟩,
    ⟨4, "command error", .general⟩,
    ⟨5, "placeholder error", .general⟩,
    ⟨6, "invalid placeholder", .general⟩,
    ⟨10, "repository already exists", .repository⟩,
    ⟨11, "attic repository detected", .repository⟩,
    ⟨12, "repository check needed", .repository⟩,
    ⟨13, "repository does not exist", .repository⟩,
    ⟨14, "insufficient free space", .repository⟩,
    ⟨15, "invalid repository", .repository⟩,
    ⟨16, "invalid repository config", .repository⟩,
    ⟨17, "object not found in repository", .repository⟩,
    ⟨18, "parent path does not exist", .repository⟩,
    ⟨19, "path already exists", .repository⟩,
    ⟨20, "storage quota exceeded", .repository⟩,
    ⟨21, "permission denied to path", .permission⟩,
    ⟨25, "unsupported repository feature", .repository⟩,
    ⟨26, "repository has no manifest", .repository⟩,
    ⟨27, "unsupported manifest envelope", .repository⟩,
    ⟨30, "archive already exists", .archive⟩,
    ⟨31, "archive does not exist", .archive⟩,
    ⟨32, "failed to encode filename", .archive⟩,
    ⟨40, "invalid key data", .key⟩,
    ⟨41, "mismatch between repository and key file", .key⟩,
    ⟨42, "no key file found", .key⟩,
    ⟨43, "not a borg key backup", .key⟩,
    ⟨44, "no key entry found", .key⟩,
    ⟨45, "key backup for different repository", .key⟩,
    ⟨46, "key management not available", .key⟩,
    ⟨47, "unknown key type", .key⟩,
    ⟨48, "unsupported payload type", .key⟩,
    ⟨50, "cannot acquire a passphrase", .passphrase⟩,
    ⟨51, "passcommand failed", .passphrase⟩,
    ⟨52, "incorrect passphrase", .passphrase⟩,
    ⟨53, "exceeded password retries", .passphrase⟩,
    ⟨60, "cache initialization aborted", .cache⟩,
    ⟨61, "encryption method mismatch", .cache⟩,
    ⟨62, "repository access aborted", .cache⟩,
    ⟨63, "repository ID not unique", .cache⟩,
    ⟨64, "cache newer than repository", .cache⟩,
    ⟨70, "failed to acquire lock", .lock⟩,
    ⟨71, "failed to acquire lock with traceback", .lock⟩,
    ⟨72, "failed to create/acquire lock", .lock⟩,
    ⟨73, "lock timeout", .lock⟩,
    ⟨74, "failed to release lock (not locked)", .lock⟩,
    ⟨75, "failed to release lock (not by me)", .lock⟩,
    ⟨80, "connection closed by remote host", .connection⟩,
    ⟨81, "connection closed by remote host with hint", .connection⟩,
    ⟨82, "invalid RPC method", .connection⟩,
    ⟨83, "repository path not allowed", .permission⟩,
    ⟨84, "borg server too old", .connection⟩,
    ⟨85, "unexpected RPC data format from client", .connection⟩,
    ⟨86, "unexpected RPC data format from server", .connection⟩,
    ⟨87, "connection to remote host broken", .connection⟩,
    ⟨90, "data integrity error", .integrity⟩,
    ⟨91, "file integrity check failed", .integrity⟩,
    ⟨92, "decompression error", .integrity⟩,
    ⟨95, "archive TAM invalid", .integrity⟩,
    ⟨96, "archive unauthenticated", .integrity⟩,
    ⟨97, "TAM invalid", .integrity⟩,
    ⟨98, "manifest unauthenticated", .integrity⟩,
    ⟨99, "unsupported suite", .integrity⟩
  ]

def warnings : List Entry :=
  [
    ⟨1, "warning", .general⟩,
    ⟨100, "file changed during backup", .backup⟩,
    ⟨101, "include pattern never matched", .backup⟩,
    ⟨102, "backup error", .backup⟩,
    ⟨103, "file type or inode changed during backup", .backup⟩,
    ⟨104, "backup OS error", .backup⟩,
    ⟨105, "backup permission error", .backup⟩,
    ⟨106, "backup IO error", .backup⟩,
    ⟨107, "backup file not found", .backup⟩
  ]

def findError (code : Int) : Option Entry :=
  errors.find? (·.code = code)

def findWarning (code : Int) : Option Entry :=
  warnings.find? (·.code = code)

end BackupClient.Catalogue
