import BackupClient.Files.Tree
import BackupClient.Json.Decode
import BackupClient.Time.Span
import BackupClient.Toml.Reader

/-!
Settings of the client.

Every setting has a default, so that an empty document is a valid configuration, and settings that do
not exist are refused.  Durations are written with units.
-/

namespace BackupClient

namespace Json

def decodeSpan (value : Json) : Option Duration :=
  (decodeString value).bind fun text => Span.read? text.toList

def ofSpan (duration : Duration) : Json :=
  .str (String.ofList (Span.write duration))

end Json

structure AuthConfiguration where
  retryInterval : Duration
  maxRetries : Nat
  sessionLifetime : Duration
  collectionDelay : Duration
  deriving DecidableEq, Repr

namespace AuthConfiguration

def standard : AuthConfiguration where
  retryInterval := .ofSeconds 30
  maxRetries := 20
  sessionLifetime := .ofSeconds 600
  collectionDelay := .ofSeconds 300

def names : List String :=
  ["retry_interval", "max_retries", "session_lifetime", "gc_delay"]

def toJson (configuration : AuthConfiguration) : Json :=
  .obj [("retry_interval", .ofSpan configuration.retryInterval),
    ("max_retries", .ofNat configuration.maxRetries),
    ("session_lifetime", .ofSpan configuration.sessionLifetime),
    ("gc_delay", .ofSpan configuration.collectionDelay)]

def ofJson? (value : Json) : Option AuthConfiguration := do
  let fields ← value.strictFields? names
  let retryInterval ← fields.withDefault "retry_interval" standard.retryInterval Json.decodeSpan
  let maxRetries ← fields.withDefault "max_retries" standard.maxRetries (Json.decodeNat (Nat.pow 2 32))
  let sessionLifetime ←
    fields.withDefault "session_lifetime" standard.sessionLifetime Json.decodeSpan
  let collectionDelay ← fields.withDefault "gc_delay" standard.collectionDelay Json.decodeSpan
  some ⟨retryInterval, maxRetries, sessionLifetime, collectionDelay⟩

/-- Read the settings from a TOML value.  Items of an array beyond the settings are ignored. -/
def ofToml? : Json → Option AuthConfiguration
  | .arr items => ofJson? (.arr (items.take names.length))
  | value => ofJson? value

end AuthConfiguration

inductive ConfigurationError where
  | unreadable (path : String) (reason : String)
  | invalid
  deriving DecidableEq, Repr

def ConfigurationError.message? : ConfigurationError → Option String
  | .unreadable path reason => some ("failed to read " ++ path ++ ": " ++ reason)
  | .invalid => none

structure Configuration where
  binaryPath : String
  mountBinaryPath : Option String
  sshKeys : List String
  mountRoot : Option String
  terminationGrace : Duration
  auth : AuthConfiguration
  deriving DecidableEq, Repr

namespace Configuration

def standard : Configuration where
  binaryPath := "borg"
  mountBinaryPath := none
  sshKeys := []
  mountRoot := none
  terminationGrace := .ofSeconds 30
  auth := .standard

def names : List String :=
  ["binary_path", "mount_binary_path", "ssh_private_keys", "mount_root", "termination_grace",
    "auth"]

/-- The program for mounts: one of its own, else the engine. -/
def mountBinary (configuration : Configuration) : String :=
  configuration.mountBinaryPath.getD configuration.binaryPath

def withBinaryPath (configuration : Configuration) (path : String) : Configuration :=
  { configuration with binaryPath := path }

def withTerminationGrace (configuration : Configuration) (grace : Duration) : Configuration :=
  { configuration with terminationGrace := grace }

def toJson (configuration : Configuration) : Json :=
  .obj [("binary_path", .str configuration.binaryPath),
    ("mount_binary_path", Json.ofOption .str configuration.mountBinaryPath),
    ("ssh_private_keys", Json.ofList .str configuration.sshKeys),
    ("mount_root", Json.ofOption .str configuration.mountRoot),
    ("termination_grace", .ofSpan configuration.terminationGrace),
    ("auth", configuration.auth.toJson)]

def read? (readAuth : Json → Option AuthConfiguration) (value : Json) : Option Configuration := do
  let fields ← value.strictFields? names
  let binaryPath ← fields.withDefault "binary_path" standard.binaryPath Json.decodeString
  let mountBinaryPath ←
    fields.withDefault "mount_binary_path" none (Json.decodeOption Json.decodeString)
  let sshKeys ← fields.withDefault "ssh_private_keys" [] (Json.decodeList Json.decodeString)
  let mountRoot ← fields.withDefault "mount_root" none (Json.decodeOption Json.decodeString)
  let terminationGrace ←
    fields.withDefault "termination_grace" standard.terminationGrace Json.decodeSpan
  let auth ← fields.withDefault "auth" standard.auth readAuth
  some ⟨binaryPath, mountBinaryPath, sshKeys, mountRoot, terminationGrace, auth⟩

def ofJson? (value : Json) : Option Configuration :=
  read? AuthConfiguration.ofJson? value

def ofToml (text : List Char) : Except ConfigurationError Configuration :=
  match (Toml.parse? text).bind (read? AuthConfiguration.ofToml?) with
  | some configuration => .ok configuration
  | none => .error .invalid

def load (tree : Files.Tree) (path : String) : Except ConfigurationError Configuration :=
  match tree.readText path.toList with
  | .error error => .error (.unreadable path error.message)
  | .ok text => ofToml text

end Configuration

end BackupClient
