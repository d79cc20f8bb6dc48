import BackupClient.Engine.Check
import BackupClient.Engine.Create
import BackupClient.Engine.Mount
import BackupClient.Engine.Prune
import BackupClient.Engine.Query
import BackupClient.Proofs.Engine.Endings

/-!
The requests to the client, each with the processes that it starts if all goes well.
-/

namespace BackupClient

inductive Request where
  | init (repository passphrase : String) (encryption : EncryptionMode)
  | info (repository passphrase : String)
  | list (repository passphrase : String)
  | compact (repository passphrase : String)
  | deleteArchive (repository passphrase archive : String)
  | deleteArchives (repository passphrase stem : String)
  | deleteRepository (repository passphrase : String)
  | rename (repository passphrase archive newName : String)
  | recreate (repository passphrase archive comment : String)
  | changePassphrase (repository passphrase newPassphrase : String)
  | breakLock (repository passphrase : String)
  | check (repository passphrase : String) (mode : CheckMode)
  | create (job : BackupJob) (now : Instant)
  | prune (job : PruneJob)
  | mountRepository (repository passphrase : String) (id : Int)
  | mountArchive (repository passphrase archive : String) (id : Int)
  | unmount (mountPoint : String)
  | version
  | mountVersion

namespace Request

/-- The plan of a request, of which only the status is kept. -/
def verb (client : Client) : Request → Verb Status
  | .init repository passphrase encryption => client.init repository passphrase encryption
  | .info repository passphrase => do return (← client.info repository passphrase).1
  | .list repository passphrase => do return (← client.list repository passphrase).1
  | .compact repository passphrase => client.compact repository passphrase
  | .deleteArchive repository passphrase archive =>
      client.deleteArchive repository passphrase archive
  | .deleteArchives repository passphrase stem => client.deleteArchives repository passphrase stem
  | .deleteRepository repository passphrase => client.deleteRepository repository passphrase
  | .rename repository passphrase archive newName =>
      client.rename repository passphrase archive newName
  | .recreate repository passphrase archive comment =>
      client.recreate repository passphrase archive comment
  | .changePassphrase repository passphrase newPassphrase =>
      client.changePassphrase repository passphrase newPassphrase
  | .breakLock repository passphrase => client.breakLock repository passphrase
  | .check repository passphrase mode => do return (← client.check repository passphrase mode).status
  | .create job now => do return (← client.create job now).1
  | .prune job => do return (← client.prune job).1
  | .mountRepository repository passphrase id => do
      return (← client.mountRepository repository passphrase id).1
  | .mountArchive repository passphrase archive id => do
      return (← client.mountArchive repository passphrase archive id).1
  | .unmount mountPoint => client.unmount mountPoint
  | .version => do return (← client.version).1
  | .mountVersion => do return (← client.mountVersion).1

/-- The calls of the processes that a request starts if all of them succeed. -/
def plan (client : Client) : Request → List Call
  | .init repository passphrase encryption =>
      [⟨.buffered, client.command (client.environment passphrase)
        ["init", encryption.flag, repository]⟩]
  | .info repository passphrase =>
      [⟨.buffered, client.command (client.environment passphrase) ["info", "--json", repository]⟩]
  | .list repository passphrase =>
      [⟨.buffered, client.command (client.environment passphrase) ["list", "--json", repository]⟩]
  | .compact repository passphrase =>
      [⟨.buffered, client.command (client.environment passphrase) ["compact", repository]⟩]
  | .deleteArchive repository passphrase archive =>
      [⟨.buffered, client.command (client.environment passphrase)
        ["delete", (ArchivePath.mk repository (some archive)).display]⟩]
  | .deleteArchives repository passphrase stem =>
      [⟨.buffered, client.command (client.environment passphrase)
          ["delete", "--glob-archives", Client.archivePattern stem, repository]⟩,
        ⟨.buffered, client.command (client.environment passphrase) ["compact", repository]⟩]
  | .deleteRepository repository passphrase =>
      [⟨.buffered, client.command (client.environment passphrase).withDeleteConfirmation
        ["delete", repository]⟩]
  | .rename repository passphrase archive newName =>
      [⟨.buffered, client.command (client.environment passphrase)
        ["rename", (ArchivePath.mk repository (some archive)).display, newName]⟩]
  | .recreate repository passphrase archive comment =>
      [⟨.buffered, client.command (client.environment passphrase)
        ["recreate", "--comment", comment, (ArchivePath.mk repository (some archive)).display]⟩]
  | .changePassphrase repository passphrase newPassphrase =>
      [⟨.buffered, client.command ((client.environment passphrase).withNewPassphrase newPassphrase)
        ["key", "change-passphrase", repository]⟩]
  | .breakLock repository passphrase =>
      [⟨.buffered, client.command (client.environment passphrase) ["break-lock", repository]⟩]
  | .check repository passphrase mode =>
      [⟨.streaming, client.command (client.environment passphrase)
        ["check", mode.flag, "--log-json", repository]⟩]
  | .create job now =>
      [⟨.buffered, client.command (client.environment job.passphrase)
          (Client.createArguments ["--dry-run", "--list", "--log-json"]
            (Client.archiveName job.stem now) job)⟩,
        ⟨.streaming, client.command (client.environment job.passphrase)
          (Client.createArguments ["--progress", "--log-json"]
            (Client.archiveName job.stem now) job)⟩]
  | .prune job =>
      ⟨.streaming, client.command (client.environment job.passphrase) (Client.pruneArguments job)⟩ ::
        if job.dryRun then []
        else
          [⟨.buffered, client.command (client.environment job.passphrase)
            ["compact", job.repository]⟩]
  | .mountRepository repository passphrase id =>
      [⟨.buffered, client.mountCommand (client.environment passphrase)
        ["mount", (ArchivePath.mk repository none).display,
          Mounts.repositoryDirectory client.mountRoot id]⟩]
  | .mountArchive repository passphrase archive id =>
      [⟨.buffered, client.mountCommand (client.environment passphrase)
        ["mount", (ArchivePath.mk repository (some archive)).display,
          Mounts.archiveDirectory client.mountRoot id]⟩]
  | .unmount mountPoint =>
      [⟨.buffered, client.mountCommand (client.environment "") ["umount", mountPoint]⟩]
  | .version => [⟨.buffered, client.command EngineEnvironment.empty ["--version"]⟩]
  | .mountVersion => [⟨.buffered, client.mountCommand EngineEnvironment.empty ["--version"]⟩]

def Refused : Request → Prop
  | .deleteArchives _ _ stem => stem = ""
  | .changePassphrase _ _ newPassphrase => newPassphrase = ""
  | .prune job => job.rule = ⟨0, 0, 0, 0, 0, 0⟩
  | _ => False

def mountPoint? (client : Client) : Request → Option String
  | .mountRepository _ _ id => some (Mounts.repositoryDirectory client.mountRoot id)
  | .mountArchive _ _ _ id => some (Mounts.archiveDirectory client.mountRoot id)
  | _ => none

def Obstructed (client : Client) (request : Request) (events : List PlanEvent) : Prop :=
  ∃ path error, request.mountPoint? client = some path ∧ .directory path (.error error) ∈ events

/-- The output of a process that succeeds is what the request asks for. -/
def understands : Request → ProcessRun → Bool
  | .info _ _, run => (decodeOutput InfoResponse.ofJson? run.stdout).2.isSome
  | .list _ _, run => (decodeOutput ListResponse.ofJson? run.stdout).2.isSome
  | .version, run | .mountVersion, run => (EngineVersion.parse? run.stdout.toList).isSome
  | _, _ => true

end Request

namespace PruneRule

theorem flag_eq_nil_iff {name unit : String} {count : Nat} : flag name count unit = [] ↔ count = 0 := by
  unfold flag
  split <;> simp <;> omega

theorem isEmpty_iff {rule : PruneRule} : rule.isEmpty = true ↔ rule = ⟨0, 0, 0, 0, 0, 0⟩ := by
  obtain ⟨hourly, daily, weekly, monthly, yearly, withinDays⟩ := rule
  simp [isEmpty, arguments, flag_eq_nil_iff]
  omega

end PruneRule

namespace Verb

variable {spec : CommandSpec} {status : Status} {events : List PlanEvent}

theorem course_map_iff {α β : Type} {verb : Verb α} {after : α → β} {result : β} :
    (verb >>= fun value => pure (after value)).Course result events ↔
      ∃ value, verb.Course value events ∧ result = after value := by
  constructor
  · intro course
    obtain ⟨value, early, late, first, second, rfl⟩ := course.of_bind
    obtain ⟨rfl, rfl⟩ := course_pure_iff.mp second
    exact ⟨value, by simpa using first, rfl⟩
  · rintro ⟨value, course, rfl⟩
    have whole : (verb >>= fun value => pure (after value)).Course (after value) (events ++ []) :=
      course.bind (course_pure_iff.mpr ⟨rfl, rfl⟩)
    rwa [List.append_nil] at whole

theorem Course.of_countFiles {paths : List String} {total : Nat}
    (course : (countFiles paths).Course total events) : events = [] := by
  induction paths generalizing total events with
  | nil => exact (course_pure_iff.mp course).2
  | cons path paths inductionHypothesis =>
      obtain ⟨found, _, _, looked, rest, rfl⟩ := course.of_bind
      obtain ⟨others, _, _, counted, last, rfl⟩ := rest.of_bind
      obtain rfl := course_look_iff.mp looked
      obtain rfl := inductionHypothesis counted
      rcases found with error | entry
      · exact (course_pure_iff.mp last).2
      · cases entry <;> exact (course_pure_iff.mp last).2

/-- A process whose output is read after it has succeeded.  Its status stands unless the output does not
show what is looked for. -/
theorem Course.of_reading {α : Type} {answer : Status × Option α}
    {read : Status × Option CommandOutput → Verb (Status × Option α)} (shows : String → Bool)
    (misread : String → Status) (course : (buffered spec >>= read).Course answer events)
    (leaves : ∀ status output, status.isSuccess = false →
      read (status, output) = pure (status, none))
    (reads : ∀ status output late, status.isSuccess = true →
      (read (status, some output)).Course answer late →
        late = [] ∧ answer.1 = if shows output.stdout then status else misread output.stdout) :
    ∃ run : ProcessRun, run.call = ⟨.buffered, spec⟩ ∧ events = [.process run] ∧
      answer.1 =
        if run.status.isSuccess && !shows run.stdout then misread run.stdout else run.status := by
  obtain ⟨_, _, late, first, rest, rfl⟩ := course.of_bind
  obtain ⟨result, rfl, rfl⟩ := course_buffered_iff.mp first
  refine ⟨.ofOutput spec result, rfl, ?_⟩
  cases success : (ProcessRun.ofOutput spec result).status.isSuccess with
  | false =>
      rw [leaves _ _ success] at rest
      obtain ⟨rfl, rfl⟩ := course_pure_iff.mp rest
      exact ⟨rfl, rfl⟩
  | true =>
      cases result with
      | error reason => cases success
      | ok output =>
          obtain ⟨rfl, stands⟩ := reads _ output late success rest
          have shown : (ProcessRun.ofOutput spec (.ok output)).stdout = output.stdout := rfl
          rw [stands, shown]
          cases shows output.stdout <;> exact ⟨rfl, rfl⟩

theorem Course.of_document {α : Type} {decode : Json → Option α} {answer : Status × Option α}
    (course : (document decode spec).Course answer events) :
    ∃ run : ProcessRun, run.call = ⟨.buffered, spec⟩ ∧ events = [.process run] ∧
      answer.1 =
        if run.status.isSuccess && !(decodeOutput decode run.stdout).2.isSome then
          Status.undecodable
        else run.status := by
  refine course.of_reading (fun stdout => (decodeOutput decode stdout).2.isSome)
    (fun _ => .undecodable) ?_ ?_
  · intro status output failed
    cases output <;> simp [failed]
  · intro status output late succeeded rest
    simp only [succeeded, if_true] at rest
    obtain ⟨_, _, _, said, last, rfl⟩ := rest.of_bind
    obtain rfl := course_sayAll_iff.mp said
    cases decoded : (decodeOutput decode output.stdout).2 with
    | none =>
        simp only [decoded] at last
        obtain ⟨rfl, rfl⟩ := course_pure_iff.mp last
        exact ⟨rfl, rfl⟩
    | some value =>
        simp only [decoded] at last
        obtain ⟨rfl, rfl⟩ := course_pure_iff.mp last
        exact ⟨rfl, rfl⟩

theorem Course.of_queryVersion {answer : Status × Option EngineVersion}
    (course : (Client.queryVersion spec).Course answer events) :
    ∃ run : ProcessRun, run.call = ⟨.buffered, spec⟩ ∧ events = [.process run] ∧
      answer.1 =
        if run.status.isSuccess && !(EngineVersion.parse? run.stdout.toList).isSome then
          (EngineVersion.unrecognized run.stdout).2
        else run.status := by
  refine Course.of_reading (fun stdout => (EngineVersion.parse? stdout.toList).isSome)
    (fun stdout => (EngineVersion.unrecognized stdout).2) course ?_ ?_
  · intro status output failed
    cases output <;> simp [failed]
  · intro status output late succeeded rest
    simp only [succeeded, if_true] at rest
    cases parsed : EngineVersion.parse? output.stdout.toList with
    | none =>
        simp only [parsed] at rest
        obtain ⟨_, _, _, said, last, rfl⟩ := rest.of_bind
        obtain rfl := course_say_iff.mp said
        obtain ⟨rfl, rfl⟩ := course_pure_iff.mp last
        exact ⟨rfl, rfl⟩
    | some version =>
        simp only [parsed] at rest
        obtain ⟨rfl, rfl⟩ := course_pure_iff.mp rest
        exact ⟨rfl, rfl⟩

/-- A mount makes its directory and then starts one process, or none if there is no directory. -/
theorem Course.of_mount {client : Client} {target : ArchivePath} {passphrase directory : String}
    (course : (client.mount target passphrase directory).Course status events) :
    (∃ error, events = [.directory directory (.error error)] ∧ status.IsRuntimeError) ∨
      ∃ run : ProcessRun, run.call = ⟨.buffered, client.mountCommand (client.environment passphrase)
        ["mount", target.display, directory]⟩ ∧
        events = [.directory directory (.ok ()), .process run] ∧ status = run.status := by
  obtain ⟨made, _, late, first, rest, rfl⟩ := course.of_bind
  obtain rfl := course_ensureDirectory_iff.mp first
  cases made with
  | error error =>
      obtain ⟨_, _, _, said, last, rfl⟩ := Course.of_bind rest
      obtain rfl := course_say_iff.mp said
      obtain ⟨rfl, rfl⟩ := course_pure_iff.mp last
      exact .inl ⟨error, rfl, _, rfl, rfl, rfl⟩
  | ok nothing =>
      obtain ⟨result, rfl, rfl⟩ := course_plain_iff.mp rest
      exact .inr ⟨.ofOutput _ result, rfl, rfl, rfl⟩

theorem Course.of_deleteArchives {client : Client} {repository passphrase stem : String}
    (named : stem ≠ "")
    (course : (client.deleteArchives repository passphrase stem).Course status events) :
    ∃ run : ProcessRun, run.call = ⟨.buffered, client.command (client.environment passphrase)
        ["delete", "--glob-archives", Client.archivePattern stem, repository]⟩ ∧
      ∃ late, events = .process run :: late ∧
        (thenRun run.status (client.compact repository passphrase)).Course status late := by
  rw [Client.deleteArchives, if_neg (by simpa using named)] at course
  obtain ⟨_, _, late, first, second, rfl⟩ := course.of_bind
  obtain ⟨result, rfl, rfl⟩ := course_plain_iff.mp first
  exact ⟨_, rfl, late, rfl, second⟩

theorem Course.of_prune {client : Client} {job : PruneJob} {answer : Status × PruneResult}
    (ruled : job.rule ≠ ⟨0, 0, 0, 0, 0, 0⟩) (course : (client.prune job).Course answer events) :
    ∃ run : ProcessRun, run.call = ⟨.streaming, client.command (client.environment job.passphrase)
        (Client.pruneArguments job)⟩ ∧
      ∃ late, events = .process run :: late ∧
        (if job.dryRun then pure run.status
          else thenRun run.status (client.compact job.repository job.passphrase)).Course
            answer.1 late := by
  rw [Client.prune, if_neg (mt PruneRule.isEmpty_iff.mp ruled)] at course
  obtain ⟨ended, _, _, follows, rest, rfl⟩ := course.of_bind
  obtain rfl := course_follow_iff.mp follows
  obtain ⟨_, _, late, said, further, rfl⟩ := Course.of_bind rest
  obtain rfl := course_say_iff.mp said
  refine ⟨_, rfl, late, rfl, ?_⟩
  by_cases trial : job.dryRun = true
  · rw [if_pos trial] at further ⊢
    obtain ⟨rfl, rfl⟩ := course_pure_iff.mp further
    exact .done
  · rw [if_neg trial] at further ⊢
    obtain ⟨status, compacts, rfl⟩ := course_map_iff.mp further
    exact compacts

end Verb

end BackupClient
