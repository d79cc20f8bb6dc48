/-!
Categories of engine errors and warnings.

Callers branch on the category and not on the text of a message.
-/

namespace BackupClient

inductive Category where
  | general
  | repository
  | archive
  | key
  | passphrase
  | cache
  | lock
  | connection
  | integrity
  | backup
  | permission
  | runtime
  deriving DecidableEq, Repr

namespace Category

def name : Category → String
  | .general => "general"
  | .repository => "repository"
  | .archive => "archive"
  | .key => "key"
  | .passphrase => "passphrase"
  | .cache => "cache"
  | .lock => "lock"
  | .connection => "connection"
  | .integrity => "integrity"
  | .backup => "backup"
  | .permission => "permission"
  | .runtime => "runtime"

def all : List Category :=
  [.general, .repository, .archive, .key, .passphrase, .cache, .lock, .connection, .integrity,
    .backup, .permission, .runtime]

def ofName? (name : String) : Option Category :=
  all.find? (·.name = name)

end Category

end BackupClient
