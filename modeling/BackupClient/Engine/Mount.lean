import BackupClient.Engine.Client

/-!
Mounting and unmounting repositories and archives.
-/

namespace BackupClient.Client

def mountPointFailure (directory : String) (error : Files.FileError) : Notice × Status :=
  (⟨.error, "failed to create mount point",
      [("dir", .str directory), ("error", .str error.message)]⟩,
    .failed ((EngineError.atRuntime ("failed to create mount point " ++ directory)).because
      (.io error.message)))

/-- Mount a target at a directory, which is made first. -/
def mount (client : Client) (target : ArchivePath) (passphrase directory : String) :
    Verb Status := do
  match ← Verb.ensureDirectory directory with
  | .error error =>
      let (notice, failed) := mountPointFailure directory error
      Verb.say notice
      pure failed
  | .ok () =>
      Verb.plain (client.mountCommand (client.environment passphrase)
        ["mount", target.display, directory])

/-- Mount a repository.  Its directory is known even if the mount fails. -/
def mountRepository (client : Client) (repository passphrase : String) (id : Int) :
    Verb (Status × String) := do
  let directory := Mounts.repositoryDirectory client.mountRoot id
  pure (← client.mount ⟨repository, none⟩ passphrase directory, directory)

/-- Mount an archive.  Its directory is known even if the mount fails. -/
def mountArchive (client : Client) (repository passphrase archive : String) (id : Int) :
    Verb (Status × String) := do
  let directory := Mounts.archiveDirectory client.mountRoot id
  pure (← client.mount ⟨repository, some archive⟩ passphrase directory, directory)

def unmount (client : Client) (mountPoint : String) : Verb Status :=
  Verb.plain (client.mountCommand (client.environment "") ["umount", mountPoint])

end BackupClient.Client
