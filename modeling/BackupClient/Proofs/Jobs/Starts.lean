import BackupClient.Proofs.Engine.Requests
import BackupClient.Proofs.Jobs.Beginnings

/-!
Starts that are refused and starts that are accepted.

A start is refused for a flaw of the job, whoever holds the repository, or else for the holder of the
repository.  A refusal changes nothing at all.  An acceptance reserves the repository and lists a token, and
only later steps of the job start its processes.
-/

namespace BackupClient

/-- What is wrong with a job, as its refusal says it. -/
inductive Job.Invalid : Job → String → Prop where
  | backup {job : BackupJob} : job.backupPaths = [] → Invalid (.backup job) "no paths to back up"
  | prune {job : PruneJob} : job.rule = ⟨0, 0, 0, 0, 0, 0⟩ → Invalid (.prune job) "no retention rule"
  | delete {job : DeleteJob} : job.target = .stem "" → Invalid (.delete job) "empty archive prefix"

theorem Job.flaw?_eq_some_iff {job : Job} {reason : String} :
    job.flaw? = some reason ↔ job.Invalid reason := by
  constructor
  · intro flaw
    cases job with
    | backup job =>
        simp only [flaw?, List.isEmpty_iff, Option.ite_none_right_eq_some, Option.some.injEq] at flaw
        obtain ⟨empty, rfl⟩ := flaw
        exact .backup empty
    | prune job =>
        simp only [flaw?, PruneRule.isEmpty_iff, Option.ite_none_right_eq_some, Option.some.injEq]
          at flaw
        obtain ⟨empty, rfl⟩ := flaw
        exact .prune empty
    | delete job =>
        simp only [flaw?, Option.ite_none_right_eq_some, Option.some.injEq] at flaw
        obtain ⟨empty, rfl⟩ := flaw
        exact .delete empty
  · rintro (⟨empty⟩ | ⟨empty⟩ | ⟨empty⟩)
    · simp [flaw?, empty]
    · simp [flaw?, PruneRule.isEmpty_iff.mpr empty]
    · simp [flaw?, empty]

theorem Job.flaw?_eq_none_iff {job : Job} : job.flaw? = none ↔ ∀ reason, ¬ job.Invalid reason := by
  simp only [← flaw?_eq_some_iff, Option.eq_none_iff_forall_ne_some, ne_eq]

namespace JobService

variable {service next : JobService} {number : Nat} {job : Job} {channel : ProgressChannel}

/-- A job was let in: its repository is reserved and its token listed, and nothing else has come of it. -/
structure LetIn (service : JobService) (job : Job) (number : Nat) (next : JobService) : Prop where
  newest : number = service.tasks.length
  running : next.arbiter.isRunning job.operation = true
  held : next.arbiter.holder? job.operation.id.repository = some job.operation
  others : ∀ repository, repository ≠ job.operation.id.repository →
    next.arbiter.holder? repository = service.arbiter.holder? repository
  listed : next.token? job.operation = some number
  waits : ∃ task, next.tasks = service.tasks ++ [task] ∧ task.job = job ∧ task.stage = .queued
  scene : next.scene = service.scene
  outcomes : next.outcomes = service.outcomes

theorem start_eq_invalid_iff {id : OperationId} {reason : String} :
    service.start job channel = .error (.invalid id reason) ↔
      job.Invalid reason ∧ id = job.operation.id := by
  rw [start_eq_error_iff, ← Job.flaw?_eq_some_iff]
  unfold accept
  cases job.flaw? with
  | some flaw => simp [and_comm, eq_comm]
  | none => cases service.arbiter.reserve job.operation <;> simp

theorem start_eq_refused_iff (coherent : service.arbiter.Coherent) {error : ArbiterError} :
    service.start job channel = .error (.refused error) ↔
      (∀ reason, ¬ job.Invalid reason) ∧
        ∃ holder, service.arbiter.holder? job.operation.id.repository = some holder ∧
          error = if holder = job.operation then .alreadyRunning job.operation
            else .repositoryBusy job.operation.id.repository holder := by
  rw [start_eq_error_iff, ← Job.flaw?_eq_none_iff]
  unfold accept
  cases job.flaw? with
  | some flaw => simp
  | none =>
      rw [coherent.reserve_eq]
      cases service.arbiter.holder? job.operation.id.repository with
      | some holder => simp [eq_comm]
      | none => simp

theorem start_fails_iff (coherent : service.arbiter.Coherent) :
    (∃ error, service.start job channel = .error error) ↔
      (∃ reason, job.Invalid reason) ∨
        service.arbiter.isOccupied job.operation.id.repository = true := by
  constructor
  · rintro ⟨⟨id, reason⟩ | error, failed⟩
    · exact .inl ⟨reason, (start_eq_invalid_iff.mp failed).1⟩
    · obtain ⟨-, holder, held, -⟩ := (start_eq_refused_iff coherent).mp failed
      right
      rw [Arbiter.isOccupied, held]
      rfl
  · intro hindered
    by_cases invalid : ∃ reason, job.Invalid reason
    · obtain ⟨reason, invalid⟩ := invalid
      exact ⟨_, start_eq_invalid_iff.mpr ⟨invalid, rfl⟩⟩
    · rcases hindered with wrong | occupied
      · exact absurd wrong invalid
      · obtain ⟨holder, held⟩ := Option.isSome_iff_exists.mp occupied
        exact ⟨_, (start_eq_refused_iff coherent).mpr ⟨not_exists.mp invalid, holder, held, rfl⟩⟩

/-- Accepting a job reserves its repository, which was free. -/
theorem accept_reserves (accepted : service.accept job channel = .ok (number, next)) :
    service.arbiter.holder? job.operation.id.repository = none ∧
      next.arbiter.holder? job.operation.id.repository = some job.operation := by
  obtain ⟨-, arbiter, reserved, -, rfl⟩ := accept_eq_ok_iff.mp accepted
  refine ⟨(Arbiter.reserve_eq_ok_iff.mp reserved).2.1, ?_⟩
  rw [Arbiter.holder?_reserve reserved, if_pos rfl]

theorem letIn_of_start (started : service.start job channel = .ok (number, next)) :
    service.LetIn job number next := by
  obtain ⟨after, accepted, rfl⟩ := start_eq_ok_iff.mp started
  obtain ⟨-, arbiter, reserved, rfl, rfl⟩ := accept_eq_ok_iff.mp accepted
  simp only [stepTask, List.getElem?_concat_length]
  constructor
  case newest => rfl
  case running => exact (Arbiter.isRunning_reserve reserved _).mpr (.inl rfl)
  case held => exact (accept_reserves accepted).2
  case others =>
      intro repository elsewhere
      exact (Arbiter.holder?_reserve reserved repository).trans (if_neg elsewhere)
  case listed => simp [listToken, setTask, token?, JobTask.operation]
  case waits =>
      refine ⟨⟨job, false, channel, service.clock.now, .queued⟩, ?_, rfl, rfl⟩
      simp [listToken, setTask]
  case scene => rfl
  case outcomes => rfl

end JobService

namespace SharedService

/-- How a service answers to starts, in the state that it has. -/
structure Admits (state : SharedService) : Prop where
  /-- A start fails just if the job is invalid or its repository is occupied. -/
  fails_iff : ∀ job channel, (∃ error, state.service.start job channel = .error error) ↔
    (∃ reason, job.Invalid reason) ∨
      state.service.arbiter.isOccupied job.operation.id.repository = true
  /-- The flaw of a job comes before the holder of its repository. -/
  invalid_iff : ∀ job channel id reason,
    state.service.start job channel = .error (.invalid id reason) ↔
      job.Invalid reason ∧ id = job.operation.id
  refused_iff : ∀ job channel error,
    state.service.start job channel = .error (.refused error) ↔
      (∀ reason, ¬ job.Invalid reason) ∧
        ∃ holder, state.service.arbiter.holder? job.operation.id.repository = some holder ∧
          error = if holder = job.operation then .alreadyRunning job.operation
            else .repositoryBusy job.operation.id.repository holder
  unchanged : ∀ job channel error, state.service.start job channel = .error error →
    state.step (.work (.accept job channel)) = state
  letIn : ∀ job channel number next, state.service.start job channel = .ok (number, next) →
    state.service.LetIn job number next

theorem admits_of_coherent {state : SharedService} (coherent : state.service.arbiter.Coherent) :
    state.Admits := by
  constructor
  case fails_iff => exact fun _ _ => JobService.start_fails_iff coherent
  case invalid_iff => exact fun _ _ _ _ => JobService.start_eq_invalid_iff
  case refused_iff => exact fun _ _ _ => JobService.start_eq_refused_iff coherent
  case unchanged =>
      intro job channel error failed
      have rejected := JobService.start_eq_error_iff.mp failed
      rw [service] at rejected
      simp only [step, JobTraffic.step, rejected]
  case letIn => exact fun _ _ _ _ => JobService.letIn_of_start

/-- In a run a repository was free, and the event that accepted a job with a number reserved it. -/
def ReservedIn (start : SharedService) (events : List SharedEvent) (number : Nat) (job : Job) : Prop :=
  ∃ before channel after, events = before ++ .work (.accept job channel) :: after ∧
    (start.run before).service.tasks.length = number ∧
    (start.run before).service.arbiter.isOccupied job.operation.id.repository = false ∧
    (start.run (before ++ [.work (.accept job channel)])).service.arbiter.holder?
      job.operation.id.repository = some job.operation

theorem AcceptedIn.reservedIn {start : SharedService} {events : List SharedEvent} {number : Nat}
    {job : Job} (accepted : start.AcceptedIn events number job) : start.ReservedIn events number job := by
  obtain ⟨before, channel, next, after, rfl, answer⟩ := accepted
  obtain ⟨free, held⟩ := JobService.accept_reserves answer
  obtain ⟨-, -, -, rfl, -⟩ := JobService.accept_eq_ok_iff.mp answer
  refine ⟨before, channel, after, rfl, rfl, Arbiter.isOccupied_eq_false_iff.mpr free, ?_⟩
  rw [run_concat]
  rw [service] at answer
  simpa only [step, service, JobTraffic.step, answer] using held

/-- Whatever the jobs do and whatever others do with the arbiter, a start fails just if the job is invalid,
which is told first, or its repository occupied, and then nothing has changed.  A process is started only by
a step of a job that was accepted before and has reserved its repository, and unless somebody has released the
operation by name it holds the repository at that step. -/
theorem starts_reserve_first (client : Client) (scene : Scene) (clock : Clock)
    (outcomes : OutcomeChannel) (events : List SharedEvent) :
    let start := fresh client scene clock outcomes
    let state := start.run events
    state.Admits ∧
      (∀ number call, state.service.Starts number call →
        ∃ task, state.service.tasks[number]? = some task ∧ start.ReservedIn events number task.job ∧
          (.outside (.release task.operation) ∉ events →
            state.service.arbiter.holder? task.operation.id.repository = some task.operation)) ∧
      ∀ event, (∀ number, event ≠ .work (.step number)) →
        (∀ scene clock outcomes, event ≠ .work (.surround scene clock outcomes)) →
        (state.step event).service.scene.calls = state.service.scene.calls := by
  intro start state
  have coherent : state.service.arbiter.Coherent :=
    run_coherent events (fresh_coherent client scene clock outcomes)
  have vetted : state.service.Vetted := run_vetted events (fresh_vetted client scene clock outcomes)
  refine ⟨admits_of_coherent coherent, ?_, ?_⟩
  · intro number call starts
    obtain ⟨task, found, stands, -, -⟩ := starts.of_vetted vetted
    refine ⟨task, found, (acceptedIn_of_found rfl events found).reservedIn, fun unnamed => ?_⟩
    have claimed : state.Claimed task.operation :=
      run_claimed events (fresh_coherent client scene clock outcomes)
        (fresh_claimed client scene clock outcomes task.operation) unnamed
    have owns : state.Owns task.operation (.job number) :=
      ⟨.listed, by decide, stands ▸ JobService.standing?_of_found found⟩
    exact (claimed (.job number) owns).1
  · intro event noStep within
    cases event with
    | work event =>
        apply JobTraffic.step_calls_eq state.traffic event
        · exact fun number same => noStep number (by rw [same])
        · exact fun scene clock outcomes same => within scene clock outcomes (by rw [same])
    | outside event => rfl

/-- While somebody else prunes the repository, a deletion without a prefix is told to be invalid and one with
a prefix has to wait.  When the repository is free, the second one reserves it and starts its process. -/
theorem deletion_starts_when_repository_is_free :
    let client : Client := ⟨Configuration.standard, [], "/run"⟩
    let start := fresh client ⟨[], [], [], [], 0⟩ ⟨.epoch⟩ ⟨1, [], true⟩
    let prune : Operation := ⟨.prune, ⟨2, 1⟩⟩
    let all : Job := .delete ⟨⟨1, 1⟩, "/r", "hunter2", .stem ""⟩
    let home : Job := .delete ⟨⟨1, 1⟩, "/r", "hunter2", .stem "home-"⟩
    let busy := start.run [.outside (.reserve prune)]
    let begun := start.run [.work (.accept home .closed), .work (.step 0)]
    let call : Call := ⟨.buffered, client.command (client.environment "hunter2")
      ["delete", "--glob-archives", "home-*", "/r"]⟩
    busy.service.start all .closed = .error (.invalid ⟨1, 1⟩ "empty archive prefix") ∧
      busy.service.start home .closed = .error (.refused (.repositoryBusy 1 prune)) ∧
      busy.step (.work (.accept home .closed)) = busy ∧
      begun.service.Starts 0 call ∧ begun.service.arbiter.holder? 1 = some home.operation := by
  intro client start prune all home busy begun call
  have reservesFirst := starts_reserve_first client ⟨[], [], [], [], 0⟩ ⟨.epoch⟩ ⟨1, [], true⟩
  obtain ⟨admits, -, -⟩ := reservesFirst [.outside (.reserve prune)]
  obtain ⟨-, reserves, -⟩ := reservesFirst [.work (.accept home .closed), .work (.step 0)]
  have refused : busy.service.start home .closed = .error (.refused (.repositoryBusy 1 prune)) := by
    apply (admits.refused_iff _ _ _).mpr
    exact ⟨Job.flaw?_eq_none_iff.mp rfl, prune, rfl, rfl⟩
  have starts : begun.service.Starts 0 call := ⟨[_, call], rfl, by simp⟩
  refine ⟨(admits.invalid_iff _ _ _ _).mpr ⟨.delete rfl, rfl⟩, refused,
    admits.unchanged _ _ _ refused, starts, ?_⟩
  obtain ⟨task, found, -, holds⟩ := reserves 0 call starts
  obtain rfl := Option.some.inj found
  exact holds (by simp)

end SharedService

end BackupClient
