import BackupClient.Text.Quoted

/-!
The environment that engine processes run in.

The parent's variables are passed on except those that carry credentials, answers or settings of the
engine; these are set afresh, so that a repository without a passphrase never inherits one.
-/

namespace BackupClient

structure EngineEnvironment where
  sshKeys : List String
  passphrase : Option String
  newPassphrase : Option String
  confirmDelete : Bool
  deriving DecidableEq, Repr

namespace EngineEnvironment

def remoteShellName : String := "BORG_RSH"

def exitCodesName : String := "BORG_EXIT_CODES"

def passphraseName : String := "BORG_PASSPHRASE"

def newPassphraseName : String := "BORG_NEW_PASSPHRASE"

/-- The answer to the question whether a repository may be deleted. -/
def confirmationName : String := "BORG_DELETE_I_KNOW_WHAT_I_AM_DOING"

def empty : EngineEnvironment :=
  ⟨[], none, none, false⟩

def ofKeys (sshKeys : List String) : EngineEnvironment :=
  { empty with sshKeys := sshKeys }

def nonEmpty (text : String) : Option String :=
  if text.isEmpty then none else some text

/-- Set the passphrase.  An empty one is not exported. -/
def withPassphrase (environment : EngineEnvironment) (passphrase : String) : EngineEnvironment :=
  { environment with passphrase := nonEmpty passphrase }

/-- Set the passphrase that a key change switches to.  An empty one is not exported. -/
def withNewPassphrase (environment : EngineEnvironment) (passphrase : String) :
    EngineEnvironment :=
  { environment with newPassphrase := nonEmpty passphrase }

def withDeleteConfirmation (environment : EngineEnvironment) : EngineEnvironment :=
  { environment with confirmDelete := true }

def isPlain (char : Char) : Bool :=
  char.isAlphanum || ['/', '.', '_', '-', '+', ':', '@', '~'].contains char

/-- The characters of a text between single quotes.  A quote ends them, stands for itself behind a
backslash, and begins them again. -/
def quotedChars (text : List Char) : List Char :=
  text.flatMap fun char => if char = '\'' then ['\'', '\\', '\'', '\''] else [char]

def shellWord (text : List Char) : List Char :=
  if !text.isEmpty && text.all isPlain then text
  else '\'' :: quotedChars text ++ ['\'']

def remoteShellStem : String :=
  "ssh -oBatchMode=yes -oStrictHostKeyChecking=accept-new"

/-- The remote shell command: one option per key. -/
def remoteShell (environment : EngineEnvironment) : List Char :=
  environment.sshKeys.foldl
    (fun command key => command ++ [' ', '-', 'i', ' '] ++ shellWord key.toList)
    remoteShellStem.toList

def whenSet (name : String) : Option String → List (String × String)
  | some value => [(name, value)]
  | none => []

/-- The variables that are set afresh, in order. -/
def overrides (environment : EngineEnvironment) : List (String × String) :=
  [(remoteShellName, String.ofList environment.remoteShell), (exitCodesName, "modern")] ++
    whenSet passphraseName environment.passphrase ++
    whenSet newPassphraseName environment.newPassphrase ++
    if environment.confirmDelete then [(confirmationName, "YES")] else []

def redactedPassphrase : Option String → String
  | some _ => "Some(\"<redacted>\")"
  | none => "None"

/-- The environment in print, without the passphrases. -/
def redacted (environment : EngineEnvironment) : String :=
  "BorgEnv \x7b ssh_keys: " ++ Text.quotedList environment.sshKeys ++ ", passphrase: " ++
    redactedPassphrase environment.passphrase ++ ", new_passphrase: " ++
    redactedPassphrase environment.newPassphrase ++ ", confirm_delete: " ++
    Text.boolText environment.confirmDelete ++ " \x7d"

/-- The names that are never passed on. -/
def isManaged (name : String) : Bool :=
  name == remoteShellName || name == exitCodesName || name == passphraseName ||
    name == newPassphraseName || name == confirmationName

def buildFrom (environment : EngineEnvironment) (parent : List (String × String)) :
    List (String × String) :=
  parent.filter (fun (name, _) => !isManaged name) ++ environment.overrides

end EngineEnvironment

end BackupClient
