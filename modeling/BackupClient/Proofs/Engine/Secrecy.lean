import BackupClient.Proofs.Engine.FailStop
import BackupClient.Proofs.Engine.Performance
import BackupClient.Proofs.Environment.Credentials

/-!
Passphrases reach the environments of processes and nothing else.

Two executions of a request that differ in their passphrases start the same processes, say the same and come
back with the same answer.  Each process is given the passphrases of its own request and none from elsewhere.
-/

namespace BackupClient

/-- What a request comes back with: a status, and whatever else its verb finds out. -/
inductive Answer where
  | plain (status : Status)
  | informed (status : Status) (response : Option InfoResponse)
  | listed (status : Status) (response : Option ListResponse)
  | checked (result : CheckResult)
  | created (status : Status) (archive : String)
  | pruned (status : Status) (result : PruneResult)
  | mounted (status : Status) (directory : String)
  | versioned (status : Status) (version : Option EngineVersion)

def Answer.status : Answer → Status
  | .plain status | .informed status _ | .listed status _ | .created status _ | .pruned status _
  | .mounted status _ | .versioned status _ => status
  | .checked result => result.status

/-- The passphrases of a request: that of its repository, and the one that a key change switches to. -/
structure Secrets where
  passphrase : String
  newPassphrase : String

namespace Client

variable {client : Client}

/-! ### Verbs with different passphrases -/

theorem create_alike (job : BackupJob) (passphrase other : String) {now : Instant} :
    (client.create { job with passphrase := passphrase } now).mapCommands
        CommandSpec.withoutSecrets =
      (client.create { job with passphrase := other } now).mapCommands
        CommandSpec.withoutSecrets := by
  simp only [create, Verb.mapCommands_bind, Verb.mapCommands_buffered, withoutSecrets_command,
    withoutSecrets_environment]
  refine bind_congr fun answer => ?_
  split
  · split
    · simp only [Verb.mapCommands_bind, Verb.mapCommands_countFiles, Verb.mapCommands_follow,
        withoutSecrets_command, withoutSecrets_environment]
      rfl
    · rfl
  · rfl

theorem prune_alike (job : PruneJob) (passphrase other : String) :
    (client.prune { job with passphrase := passphrase }).mapCommands CommandSpec.withoutSecrets =
      (client.prune { job with passphrase := other }).mapCommands CommandSpec.withoutSecrets := by
  simp only [prune]
  split
  · rfl
  · simp only [Verb.mapCommands_bind, Verb.mapCommands_follow, withoutSecrets_command,
      withoutSecrets_environment, Verb.mapCommands_say]
    refine bind_congr fun answer => bind_congr fun _ => ?_
    split
    · rfl
    · simp [compact]

theorem mount_alike (target : ArchivePath) (passphrase other : String) {directory : String} :
    (client.mount target passphrase directory).mapCommands CommandSpec.withoutSecrets =
      (client.mount target other directory).mapCommands CommandSpec.withoutSecrets := by
  simp only [mount, Verb.mapCommands_bind, Verb.mapCommands_ensureDirectory]
  refine bind_congr fun made => ?_
  split
  · rfl
  · simp

end Client

namespace Request

def answer (client : Client) : Request → Verb Answer
  | .init repository passphrase encryption => do
      return .plain (← client.init repository passphrase encryption)
  | .info repository passphrase => do
      let (status, response) ← client.info repository passphrase
      return .informed status response
  | .list repository passphrase => do
      let (status, response) ← client.list repository passphrase
      return .listed status response
  | .compact repository passphrase => do return .plain (← client.compact repository passphrase)
  | .deleteArchive repository passphrase archive => do
      return .plain (← client.deleteArchive repository passphrase archive)
  | .deleteArchives repository passphrase stem => do
      return .plain (← client.deleteArchives repository passphrase stem)
  | .deleteRepository repository passphrase => do
      return .plain (← client.deleteRepository repository passphrase)
  | .rename repository passphrase archive newName => do
      return .plain (← client.rename repository passphrase archive newName)
  | .recreate repository passphrase archive comment => do
      return .plain (← client.recreate repository passphrase archive comment)
  | .changePassphrase repository passphrase newPassphrase => do
      return .plain (← client.changePassphrase repository passphrase newPassphrase)
  | .breakLock repository passphrase => do
      return .plain (← client.breakLock repository passphrase)
  | .check repository passphrase mode => do
      return .checked (← client.check repository passphrase mode)
  | .create job now => do
      let (status, archive) ← client.create job now
      return .created status archive
  | .prune job => do
      let (status, result) ← client.prune job
      return .pruned status result
  | .mountRepository repository passphrase id => do
      let (status, directory) ← client.mountRepository repository passphrase id
      return .mounted status directory
  | .mountArchive repository passphrase archive id => do
      let (status, directory) ← client.mountArchive repository passphrase archive id
      return .mounted status directory
  | .unmount mountPoint => do return .plain (← client.unmount mountPoint)
  | .version => do
      let (status, found) ← client.version
      return .versioned status found
  | .mountVersion => do
      let (status, found) ← client.mountVersion
      return .versioned status found

/-- The request with these passphrases instead of its own, as far as it takes any. -/
def withSecrets (secrets : Secrets) : Request → Request
  | .init repository _ encryption => .init repository secrets.passphrase encryption
  | .info repository _ => .info repository secrets.passphrase
  | .list repository _ => .list repository secrets.passphrase
  | .compact repository _ => .compact repository secrets.passphrase
  | .deleteArchive repository _ archive => .deleteArchive repository secrets.passphrase archive
  | .deleteArchives repository _ stem => .deleteArchives repository secrets.passphrase stem
  | .deleteRepository repository _ => .deleteRepository repository secrets.passphrase
  | .rename repository _ archive newName => .rename repository secrets.passphrase archive newName
  | .recreate repository _ archive comment =>
      .recreate repository secrets.passphrase archive comment
  | .changePassphrase repository _ _ =>
      .changePassphrase repository secrets.passphrase secrets.newPassphrase
  | .breakLock repository _ => .breakLock repository secrets.passphrase
  | .check repository _ mode => .check repository secrets.passphrase mode
  | .create job now => .create { job with passphrase := secrets.passphrase } now
  | .prune job => .prune { job with passphrase := secrets.passphrase }
  | .mountRepository repository _ id => .mountRepository repository secrets.passphrase id
  | .mountArchive repository _ archive id => .mountArchive repository secrets.passphrase archive id
  | .unmount mountPoint => .unmount mountPoint
  | .version => .version
  | .mountVersion => .mountVersion

/-- The passphrase of its repository that a request takes, if it takes one. -/
def passphrase? : Request → Option String
  | .init _ passphrase _ | .info _ passphrase | .list _ passphrase | .compact _ passphrase
  | .deleteArchive _ passphrase _ | .deleteArchives _ passphrase _ | .deleteRepository _ passphrase
  | .rename _ passphrase _ _ | .recreate _ passphrase _ _ | .changePassphrase _ passphrase _
  | .breakLock _ passphrase | .check _ passphrase _ | .mountRepository _ passphrase _
  | .mountArchive _ passphrase _ _ => some passphrase
  | .create job _ => some job.passphrase
  | .prune job => some job.passphrase
  | .unmount _ | .version | .mountVersion => none

/-- The passphrase that a request switches to, if it changes passphrases. -/
def newPassphrase? : Request → Option String
  | .changePassphrase _ _ newPassphrase => some newPassphrase
  | _ => none

/-- The answer that a request gives beforehand to whether a repository may be deleted. -/
def confirmation? : Request → Option String
  | .deleteRepository _ _ => some "YES"
  | _ => none

/-- The command is given the passphrases of the request, unless they are empty, and its confirmation.  It
finds no other value for their variables. -/
structure Equips (request : Request) (spec : CommandSpec) : Prop where
  passphrase : valuesOf EngineEnvironment.passphraseName spec.environment =
    (request.passphrase?.filter (· ≠ "")).toList
  newPassphrase : valuesOf EngineEnvironment.newPassphraseName spec.environment =
    (request.newPassphrase?.filter (· ≠ "")).toList
  confirmation : valuesOf EngineEnvironment.confirmationName spec.environment =
    request.confirmation?.toList

variable {client : Client} {request : Request} {first second : Secrets}

/-! ### Plans with different passphrases -/

theorem answer_alike (alike : first.newPassphrase = "" ↔ second.newPassphrase = "") :
    ((request.withSecrets first).answer client).mapCommands CommandSpec.withoutSecrets =
      ((request.withSecrets second).answer client).mapCommands CommandSpec.withoutSecrets := by
  cases request with
  | init | compact | deleteArchive | deleteRepository | rename | recreate | breakLock =>
      simp [withSecrets, answer, Client.init, Client.compact, Client.deleteArchive,
        Client.deleteRepository, Client.rename, Client.recreate, Client.breakLock]
  | unmount | version | mountVersion => rfl
  | info | list => simp [withSecrets, answer, Client.info, Client.list]
  | check => simp [withSecrets, answer, Client.check]
  | deleteArchives =>
      simp only [withSecrets, answer, Client.deleteArchives]
      split
      · rfl
      · simp [Client.compact]
  | changePassphrase =>
      -- an empty new passphrase is refused before anything starts
      simp only [withSecrets, answer, Client.changePassphrase, String.isEmpty_iff, alike]
      split
      · rfl
      · simp
  | create job now =>
      simp only [withSecrets, answer, Verb.mapCommands_bind,
        Client.create_alike job first.passphrase second.passphrase]
  | prune job =>
      simp only [withSecrets, answer, Verb.mapCommands_bind,
        Client.prune_alike job first.passphrase second.passphrase]
  | mountRepository | mountArchive =>
      simp only [withSecrets, answer, Client.mountRepository, Client.mountArchive,
        Verb.mapCommands_bind, Client.mount_alike _ first.passphrase second.passphrase]

/-! ### The variables of processes -/

theorem Equips.of_environment {environment : EngineEnvironment} {spec : CommandSpec}
    (built : spec.environment = environment.buildFrom client.parent)
    (passphrase : environment.passphrase = request.passphrase?.filter (· ≠ ""))
    (newPassphrase : environment.newPassphrase = request.newPassphrase?.filter (· ≠ ""))
    (confirmation : request.confirmation? =
      if environment.confirmDelete then some "YES" else none) :
    request.Equips spec where
  passphrase := by simp [built, passphrase]
  newPassphrase := by simp [built, newPassphrase]
  confirmation := by
    rw [built, confirmation, EngineEnvironment.valuesOf_confirmationName]
    split <;> rfl

theorem equips_of_plan {call : Call} (planned : call ∈ request.plan client) :
    request.Equips call.spec := by
  cases request with
  | init | info | list | compact | deleteArchive | deleteRepository | rename | recreate | breakLock
  | check | mountRepository | mountArchive =>
      obtain rfl := List.mem_singleton.mp planned
      exact .of_environment rfl (EngineEnvironment.nonEmpty_eq _) rfl rfl
  | changePassphrase =>
      obtain rfl := List.mem_singleton.mp planned
      exact .of_environment rfl (EngineEnvironment.nonEmpty_eq _) (EngineEnvironment.nonEmpty_eq _) rfl
  | unmount | version | mountVersion =>
      obtain rfl := List.mem_singleton.mp planned
      exact .of_environment rfl rfl rfl rfl
  | deleteArchives | create =>
      simp only [plan, List.mem_cons, List.not_mem_nil, or_false] at planned
      rcases planned with rfl | rfl
      · exact .of_environment rfl (EngineEnvironment.nonEmpty_eq _) rfl rfl
      · exact .of_environment rfl (EngineEnvironment.nonEmpty_eq _) rfl rfl
  | prune job =>
      rcases List.mem_cons.mp planned with rfl | compacts
      · exact .of_environment rfl (EngineEnvironment.nonEmpty_eq _) rfl rfl
      · split at compacts
        · cases compacts
        · obtain rfl := List.mem_singleton.mp compacts
          exact .of_environment rfl (EngineEnvironment.nonEmpty_eq _) rfl rfl

/-- A course of the plan with the whole answer is one of the plan of which the status is kept. -/
theorem course_verb_of_answer {answer : Answer} {events : List PlanEvent}
    (course : (request.answer client).Course answer events) :
    (request.verb client).Course answer.status events := by
  cases request with
  | init | compact | deleteArchive | deleteArchives | deleteRepository | rename | recreate
  | changePassphrase | breakLock | unmount =>
      obtain ⟨status, ended, rfl⟩ := Verb.course_map_iff.mp course
      exact ended
  | info | list | check | create | prune | mountRepository | mountArchive | version
  | mountVersion =>
      obtain ⟨value, ended, rfl⟩ := Verb.course_map_iff.mp course
      exact Verb.course_map_iff.mpr ⟨value, ended, rfl⟩

/-- However the processes of a request end, each is given the passphrases of the request. -/
theorem equips_of_course {answer : Answer} {events : List PlanEvent} {call : Call}
    (course : (request.answer client).Course answer events)
    (called : call ∈ PlanEvent.calls events) : request.Equips call.spec := by
  have stops := failStop_of_course (course_verb_of_answer course)
  by_cases refused : request.Refused ∨ request.Obstructed client events
  · have untouched := (stops.refused refused).1
    simp [PlanEvent.calls, untouched] at called
  · exact equips_of_plan ((stops.carriedOut refused).planned.subset called)

/-- Passphrases reach the environments of processes and nothing else.  Executions that differ in their
passphrases only are the same but for the values of the two variables for passphrases, whether they meet a
world that does not look at environments or processes that follow a script.  Whatever the parent holds, each
process finds the passphrases of its own request. -/
theorem passphrases_stay_in_environments (client : Client) (request : Request)
    {first second : Secrets} (alike : first.newPassphrase = "" ↔ second.newPassphrase = "") :
    (∀ (σ : Type) (world : World σ) (state : σ),
      (((request.withSecrets first).answer client).perform world state).mapCommands
          CommandSpec.withoutSecrets =
        (((request.withSecrets second).answer client).perform world state).mapCommands
          CommandSpec.withoutSecrets ∧
      ∀ call ∈ ((request.answer client).perform world state).calls, request.Equips call.spec) ∧
    ∀ fuel scene cancellation capacity reader,
      (((request.withSecrets first).answer client).watch fuel scene cancellation capacity
          reader).mapCommands CommandSpec.withoutSecrets =
        (((request.withSecrets second).answer client).watch fuel scene cancellation capacity
          reader).mapCommands CommandSpec.withoutSecrets ∧
      ∃ begun : List Call, (∀ call ∈ begun, request.Equips call.spec) ∧
        ((request.answer client).watch fuel scene cancellation capacity reader).scene.calls =
          begun.reverse ++ scene.calls := by
  have keeps := CommandSpec.withoutSecrets_keepsLines
  have samePlans : ((request.withSecrets first).answer client).mapCommands
      CommandSpec.withoutSecrets = ((request.withSecrets second).answer client).mapCommands
      CommandSpec.withoutSecrets := answer_alike alike
  constructor
  · intro σ world state
    constructor
    · rw [← Verb.mapCommands_perform keeps, ← Verb.mapCommands_perform keeps, samePlans]
    · intro call called
      obtain ⟨events, course, made⟩ := (request.answer client).perform_follows_course world state
      rw [made] at called
      exact equips_of_course course called
  · intro fuel scene cancellation capacity reader
    constructor
    · rw [← Verb.mapCommands_watch keeps, ← Verb.mapCommands_watch keeps, samePlans]
    · obtain ⟨answer, events, begun, course, isBegun, made⟩ :=
        (request.answer client).watch_begins_course fuel scene cancellation capacity reader
      refine ⟨begun, ?_, made⟩
      intro call called
      exact equips_of_course course (isBegun.subset called)

/-- A key change is the same for other passphrases, and the passphrase that the parent holds does not
replace its own. -/
theorem key_change_keeps_passphrases :
    let client : Client :=
      ⟨Configuration.standard, [("LANG", "C"), ("BORG_PASSPHRASE", "inherited")], "/run"⟩
    let request := Request.changePassphrase "/r" "hunter2" "hunter3"
    let other := request.withSecrets ⟨"swordfish", "xyzzy"⟩
    let world : World Unit :=
      ⟨fun _ state => (.ok (), state), fun _ state => (.ok .directory, state),
        fun _ _ state => (.ok ⟨.exited 0, "", ""⟩, state),
        fun _ _ state => (⟨.ok (.exited 0), [], []⟩, state)⟩
    ((request.answer client).perform world ()).mapCommands CommandSpec.withoutSecrets =
        ((other.answer client).perform world ()).mapCommands CommandSpec.withoutSecrets ∧
      ∀ call ∈ ((request.answer client).perform world ()).calls,
        valuesOf EngineEnvironment.passphraseName call.spec.environment = ["hunter2"] := by
  intro client request other world
  have alike : "hunter3" = "" ↔ "xyzzy" = "" := by decide
  obtain ⟨same, equipped⟩ := (@passphrases_stay_in_environments client request
    ⟨"hunter2", "hunter3"⟩ ⟨"swordfish", "xyzzy"⟩ alike).1 Unit world ()
  exact ⟨same, fun call called => (equipped call called).passphrase.trans (by decide)⟩

end Request

end BackupClient
