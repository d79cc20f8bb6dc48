import BackupClient.Command.Basic
import BackupClient.Files.Tree
import BackupClient.Log.Notice
import BackupClient.Log.Record

/-!
The verbs of the engine as plans.

A plan says which processes to start, one after the other, and what to do with the results.  It is
carried out elsewhere, step by step, so that what it may do can be read off its shape.
-/

namespace BackupClient

inductive Consumer where
  | findings
  | archives
  | progress (total : Nat)
  deriving DecidableEq, Repr

inductive Verb (α : Type) where
  | done (value : α)
  | note (notice : Notice) (next : Verb α)
  | makeDirectories (path : String) (next : Except Files.FileError Unit → Verb α)
  | inspect (path : String) (next : Except Files.FileError Files.Entry → Verb α)
  | run (spec : CommandSpec) (next : Except RunError CommandOutput → Verb α)
  | stream (spec : CommandSpec) (consumer : Consumer)
      (next : Except RunError ExitState → List LogRecord → Verb α)

namespace Verb

def bind {α β : Type} : Verb α → (α → Verb β) → Verb β
  | .done value, after => after value
  | .note notice next, after => .note notice (next.bind after)
  | .makeDirectories path next, after =>
      .makeDirectories path fun result => (next result).bind after
  | .inspect path next, after => .inspect path fun result => (next result).bind after
  | .run spec next, after => .run spec fun result => (next result).bind after
  | .stream spec consumer next, after =>
      .stream spec consumer fun result records => (next result records).bind after

instance : Monad Verb where
  pure := .done
  bind := Verb.bind

def say (notice : Notice) : Verb Unit :=
  .note notice (.done ())

def ensureDirectory (path : String) : Verb (Except Files.FileError Unit) :=
  .makeDirectories path .done

def look (path : String) : Verb (Except Files.FileError Files.Entry) :=
  .inspect path .done

def collect (spec : CommandSpec) : Verb (Except RunError CommandOutput) :=
  .run spec .done

def follow (spec : CommandSpec) (consumer : Consumer) :
    Verb (Except RunError ExitState × List LogRecord) :=
  .stream spec consumer fun result records => .done (result, records)

end Verb

end BackupClient
