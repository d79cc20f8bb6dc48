/-!
Paths of repositories and of archives inside them.
-/

namespace BackupClient

/-- A repository, or an archive in a repository. -/
structure ArchivePath where
  repository : String
  archive : Option String
  deriving DecidableEq, Repr

namespace ArchivePath

def display (path : ArchivePath) : String :=
  match path.archive with
  | some archive => path.repository ++ "::" ++ archive
  | none => path.repository

def isArchive (path : ArchivePath) : Bool :=
  path.archive.isSome

end ArchivePath

end BackupClient
