import BackupClient.Proofs.Engine.FailStop
import BackupClient.Proofs.Jobs.RuleFlags
import BackupClient.Proofs.Jobs.Starts

/-!
Processes that destroy archives, and what must be given for them to be started.

Both the requests to the client and the jobs of a service are looked at, so each guard is stated for the call
that is made and for whoever asked for it.
-/

namespace BackupClient

namespace Client

def pruneOptions (arguments : List String) : List String :=
  (arguments.drop 5).dropLast

def keepFlags (arguments : List String) : List String :=
  (pruneOptions arguments).filter fun option => "--keep-".toList <+: option.toList

theorem pruneOptions_pruneArguments (job : PruneJob) :
    pruneOptions (pruneArguments job) =
      (if job.dryRun then ["--dry-run"] else []) ++ job.rule.arguments := by
  simp [pruneOptions, pruneArguments]

theorem keepFlags_pruneArguments (job : PruneJob) :
    keepFlags (pruneArguments job) = job.rule.arguments := by
  have trial : (if job.dryRun then ["--dry-run"] else []).filter
      (fun option => decide ("--keep-".toList <+: option.toList)) = [] := by
    cases job.dryRun <;> decide
  rw [keepFlags, pruneOptions_pruneArguments, List.filter_append, trial, List.nil_append]
  apply List.filter_eq_self.mpr
  intro option member
  rw [PruneRule.arguments_eq] at member
  obtain ⟨keep, -, rfl⟩ := List.mem_map.mp member
  exact decide_eq_true (keep.flag_begins _)

theorem dryRun_not_mem_arguments (rule : PruneRule) : "--dry-run" ∉ rule.arguments := by
  intro member
  rw [PruneRule.arguments_eq] at member
  obtain ⟨keep, -, same⟩ := List.mem_map.mp member
  have begins := keep.flag_begins (keep.count rule)
  rw [same] at begins
  revert begins
  decide

end Client

/-- The arguments of a prune run say what is kept, each kind once, and nothing else than its job's rule.
They say that it is a trial just if the job does. -/
structure PruneJob.Guarded (job : PruneJob) (arguments : List String) : Prop where
  begins : ["prune", "--list", "--log-json", "--glob-archives", Client.archivePattern job.stem] <+:
    arguments
  ends : arguments.getLast? = some job.repository
  flagged : Client.keepFlags arguments ≠ []
  counted : ∀ flag ∈ Client.keepFlags arguments, ∃ keep count, 0 < count ∧
    flag = Keep.flag keep count ∧ Keep.read? flag = some (keep, count)
  once : (((Client.keepFlags arguments).filterMap Keep.read?).map (·.1)).Nodup
  recovered : PruneRule.ofFlags (Client.keepFlags arguments) = job.rule
  trial : "--dry-run" ∈ Client.pruneOptions arguments ↔ job.dryRun = true

theorem PruneJob.guarded {job : PruneJob} (ruled : job.rule ≠ ⟨0, 0, 0, 0, 0, 0⟩) :
    job.Guarded (Client.pruneArguments job) := by
  constructor
  case begins => simp [Client.pruneArguments]
  case ends => exact List.getLast?_concat
  case flagged =>
      rw [Client.keepFlags_pruneArguments]
      intro none
      apply ruled
      apply PruneRule.isEmpty_iff.mp
      rw [PruneRule.isEmpty, none]
      rfl
  case counted =>
      intro flag member
      rw [Client.keepFlags_pruneArguments, PruneRule.arguments_eq] at member
      obtain ⟨keep, counted, rfl⟩ := List.mem_map.mp member
      exact ⟨keep, _, PruneRule.mem_kinds_iff.mp counted, rfl, keep.read?_flag _⟩
  case once =>
      rw [Client.keepFlags_pruneArguments, PruneRule.read_arguments, List.map_map]
      simpa [Function.comp_def] using job.rule.kinds_nodup
  case recovered =>
      rw [Client.keepFlags_pruneArguments]
      exact PruneRule.ofFlags_arguments job.rule
  case trial =>
      rw [Client.pruneOptions_pruneArguments]
      cases job.dryRun <;> simp [Client.dryRun_not_mem_arguments]

theorem ArchivePath.display_ne (repository archive : String) :
    (ArchivePath.mk repository (some archive)).display ≠ repository := by
  intro same
  have lengths := congrArg (·.toList.length) same
  simp [display] at lengths

/-! ### Requests -/

namespace Request

/-- A request that may start a process that deletes. -/
inductive Deletes : Request → Prop where
  | archive (repository passphrase archive) : Deletes (.deleteArchive repository passphrase archive)
  | archives (repository passphrase) {stem} : stem ≠ "" →
      Deletes (.deleteArchives repository passphrase stem)
  | repository (repository passphrase) : Deletes (.deleteRepository repository passphrase)

/-- What must be given for a request to make a call. -/
structure Guards (request : Request) (call : Call) : Prop where
  prune : call.spec.arguments.head? = some "prune" →
    ∃ job, request = .prune job ∧ job.Guarded call.spec.arguments
  trial : ∀ job, request = .prune job → job.dryRun = true →
    call.spec.arguments.head? ≠ some "compact"
  delete : call.spec.arguments.head? = some "delete" → request.Deletes
  /-- Only a request for the whole repository deletes the bare repository. -/
  whole : ∀ target, call.spec.arguments = ["delete", target] →
    (∃ passphrase, request = .deleteRepository target passphrase) ∨
      ∃ repository passphrase archive, request = .deleteArchive repository passphrase archive ∧
        target = (ArchivePath.mk repository (some archive)).display ∧ target ≠ repository

variable {client : Client} {request : Request} {events : List PlanEvent} {status : Status} {call : Call}

theorem planned_of_course (course : (request.verb client).Course status events)
    (member : call ∈ PlanEvent.calls events) : ¬ request.Refused ∧ call ∈ request.plan client := by
  have stops := failStop_of_course course
  by_cases hindered : request.Refused ∨ request.Obstructed client events
  · rw [PlanEvent.calls, (stops.refused hindered).1] at member
    cases member
  · exact ⟨fun refused => hindered (.inl refused), (stops.carriedOut hindered).planned.subset member⟩

theorem guards_of_verb {verb : String} (begins : call.spec.arguments.head? = some verb)
    (notPrune : verb ≠ "prune") (notDelete : verb ≠ "delete")
    (trial : ∀ job, request = .prune job → job.dryRun = true → verb ≠ "compact") :
    request.Guards call := by
  constructor
  case prune =>
      intro prunes
      rw [begins] at prunes
      exact absurd (Option.some.inj prunes) notPrune
  case trial =>
      intro job same tried compacts
      rw [begins] at compacts
      exact trial job same tried (Option.some.inj compacts)
  case delete =>
      intro deletes
      rw [begins] at deletes
      exact absurd (Option.some.inj deletes) notDelete
  case whole =>
      intro target same
      rw [same] at begins
      exact absurd (Option.some.inj begins).symm notDelete

theorem guards_of_prune {job : PruneJob} (begins : call.spec.arguments.head? = some "prune")
    (guarded : job.Guarded call.spec.arguments) : Guards (.prune job) call := by
  constructor
  case prune => exact fun _ => ⟨job, rfl, guarded⟩
  case trial =>
      exact fun _ _ _ compacts => absurd (Option.some.inj (begins.symm.trans compacts)) (by decide)
  case delete => exact fun deletes => absurd (Option.some.inj (begins.symm.trans deletes)) (by decide)
  case whole =>
      intro target same
      rw [same] at begins
      exact absurd (Option.some.inj begins) (by decide)

theorem guards_of_delete (deletes : request.Deletes)
    (begins : call.spec.arguments.head? = some "delete")
    (whole : ∀ target, call.spec.arguments = ["delete", target] →
      (∃ passphrase, request = .deleteRepository target passphrase) ∨
        ∃ repository passphrase archive, request = .deleteArchive repository passphrase archive ∧
          target = (ArchivePath.mk repository (some archive)).display ∧ target ≠ repository) :
    request.Guards call := by
  constructor
  case prune => exact fun prunes => absurd (Option.some.inj (begins.symm.trans prunes)) (by decide)
  case trial =>
      rintro job rfl
      cases deletes
  case delete => exact fun _ => deletes
  case whole => exact whole

theorem guards_of_planned (accepted : ¬ request.Refused) (planned : call ∈ request.plan client) :
    request.Guards call := by
  cases request with
  | init | info | list | compact | rename | recreate | changePassphrase | breakLock | check
  | mountRepository | mountArchive | unmount | version | mountVersion =>
      obtain rfl := List.mem_singleton.mp planned
      exact guards_of_verb rfl (by decide) (by decide) nofun
  | create job now =>
      rcases List.mem_pair.mp planned with rfl | rfl
      · exact guards_of_verb rfl (by decide) (by decide) nofun
      · exact guards_of_verb rfl (by decide) (by decide) nofun
  | deleteArchive repository passphrase archive =>
      obtain rfl := List.mem_singleton.mp planned
      apply guards_of_delete (.archive repository passphrase archive) rfl
      rintro target ⟨⟩
      exact .inr ⟨repository, passphrase, archive, rfl, rfl, ArchivePath.display_ne _ _⟩
  | deleteArchives repository passphrase stem =>
      rcases List.mem_pair.mp planned with rfl | rfl
      · apply guards_of_delete (.archives repository passphrase accepted) rfl
        rintro target ⟨⟩
      · exact guards_of_verb rfl (by decide) (by decide) nofun
  | deleteRepository repository passphrase =>
      obtain rfl := List.mem_singleton.mp planned
      apply guards_of_delete (.repository repository passphrase) rfl
      rintro target ⟨⟩
      exact .inl ⟨passphrase, rfl⟩
  | prune job =>
      rcases List.mem_cons.mp planned with rfl | compacts
      · exact guards_of_prune rfl (PruneJob.guarded accepted)
      · by_cases tried : job.dryRun = true
        · rw [if_pos tried] at compacts
          cases compacts
        · rw [if_neg tried] at compacts
          obtain rfl := List.mem_singleton.mp compacts
          apply guards_of_verb rfl (by decide) (by decide)
          rintro _ ⟨⟩ trial
          exact absurd trial tried

/-- Whatever its processes answer, a request makes no call without what must be given for it. -/
theorem guards_of_course (course : (request.verb client).Course status events)
    (member : call ∈ PlanEvent.calls events) : request.Guards call := by
  obtain ⟨accepted, planned⟩ := planned_of_course course member
  exact guards_of_planned accepted planned

end Request

/-! ### Jobs -/

namespace Job

inductive Asks : Job → Request → Prop where
  | backup (job now) : Asks (.backup job) (.create job now)
  | prune (job) : Asks (.prune job) (.prune job)
  | archive {job name} : job.target = .archive name →
      Asks (.delete job) (.deleteArchive job.repository job.passphrase name)
  | stem {job stem} : job.target = .stem stem →
      Asks (.delete job) (.deleteArchives job.repository job.passphrase stem)
  | repository {job} : job.target = .repository →
      Asks (.delete job) (.deleteRepository job.repository job.passphrase)

/-- What must be given for the work of a job to make a call. -/
structure Guards (job : Job) (call : Call) : Prop where
  prune : call.spec.arguments.head? = some "prune" →
    ∃ pruning, job = .prune pruning ∧ pruning.Guarded call.spec.arguments
  trial : ∀ pruning, job = .prune pruning → pruning.dryRun = true →
    call.spec.arguments.head? ≠ some "compact"
  delete : call.spec.arguments.head? = some "delete" →
    ∃ deletion, job = .delete deletion ∧ deletion.target ≠ .stem ""
  /-- Only a job for the whole repository deletes the bare repository. -/
  whole : ∀ deletion, job = .delete deletion →
    call.spec.arguments = ["delete", deletion.repository] → deletion.target = .repository

variable {client : Client} {job : Job} {now : Instant} {report : JobReport} {events : List PlanEvent}
  {call : Call}

theorem exists_asks (course : (job.work client now).Course report events) :
    ∃ request status, job.Asks request ∧ (request.verb client).Course status events := by
  cases job with
  | backup job =>
      obtain ⟨answer, _, _, made, rest, rfl⟩ := course.of_bind
      obtain ⟨rfl, rfl⟩ := Verb.course_pure_iff.mp rest
      refine ⟨.create job now, answer.1, .backup job now, ?_⟩
      rw [List.append_nil]
      exact Verb.course_map_iff.mpr ⟨answer, made, rfl⟩
  | prune job =>
      obtain ⟨answer, _, _, made, rest, rfl⟩ := course.of_bind
      obtain ⟨rfl, rfl⟩ := Verb.course_pure_iff.mp rest
      refine ⟨.prune job, answer.1, .prune job, ?_⟩
      rw [List.append_nil]
      exact Verb.course_map_iff.mpr ⟨answer, made, rfl⟩
  | delete job =>
      obtain ⟨status, _, _, made, rest, rfl⟩ := course.of_bind
      obtain ⟨rfl, rfl⟩ := Verb.course_pure_iff.mp rest
      rw [List.append_nil]
      unfold deletion at made
      cases target : job.target with
      | archive name =>
          rw [target] at made
          exact ⟨_, status, .archive target, made⟩
      | stem stem =>
          rw [target] at made
          exact ⟨_, status, .stem target, made⟩
      | repository =>
          rw [target] at made
          exact ⟨_, status, .repository target, made⟩

theorem guards_of_asks {request : Request} (asks : job.Asks request) (guards : request.Guards call) :
    job.Guards call := by
  constructor
  case prune =>
      intro begins
      obtain ⟨pruning, rfl, guarded⟩ := guards.prune begins
      cases asks
      exact ⟨pruning, rfl, guarded⟩
  case trial =>
      rintro pruning rfl tried
      cases asks
      exact guards.trial pruning rfl tried
  case delete =>
      intro begins
      have deletes := guards.delete begins
      cases asks with
      | backup | prune => cases deletes
      | archive target => exact ⟨_, rfl, by simp [target]⟩
      | stem target =>
          cases deletes with
          | archives _ _ named => exact ⟨_, rfl, by simpa [target] using named⟩
      | repository target => exact ⟨_, rfl, by simp [target]⟩
  case whole =>
      rintro deletion rfl same
      have whole := guards.whole deletion.repository same
      cases asks with
      | archive target =>
          rcases whole with ⟨_, other⟩ | ⟨repository, passphrase, archive, same, -, elsewhere⟩
          · cases other
          · exact absurd (Request.deleteArchive.inj same).1 elsewhere
      | stem target => rcases whole with ⟨_, other⟩ | ⟨_, _, _, other, -⟩ <;> cases other
      | repository target => exact target

theorem guards_of_course (course : (job.work client now).Course report events)
    (member : call ∈ PlanEvent.calls events) : job.Guards call := by
  obtain ⟨request, status, asks, made⟩ := exists_asks course
  exact guards_of_asks asks (Request.guards_of_course made member)

end Job

/-- A process that destroys archives is started only for what is guarded. -/
theorem destructive_processes_are_guarded (client : Client) :
    Function.Injective PruneRule.arguments ∧
    (∀ request status events, (Request.verb client request).Course status events →
      ∀ call ∈ PlanEvent.calls events, request.Guards call) ∧
    (∀ job now report events, (Job.work client now job).Course report events →
      ∀ call ∈ PlanEvent.calls events, job.Guards call) ∧
    ∀ scene clock outcomes events number call,
      let state := (SharedService.fresh client scene clock outcomes).run events
      state.service.Starts number call →
        ∃ task, state.service.tasks[number]? = some task ∧ task.job.flaw? = none ∧
          task.job.Guards call := by
  refine ⟨PruneRule.arguments_injective, ?_, ?_, ?_⟩
  · exact fun _ _ _ course _ member => Request.guards_of_course course member
  · exact fun _ _ _ _ course _ member => Job.guards_of_course course member
  · intro scene clock outcomes events number call state starts
    have vetted : state.service.Vetted :=
      SharedService.run_vetted events (SharedService.fresh_vetted client scene clock outcomes)
    obtain ⟨task, found, -, flawless, now, report, course, work, member⟩ := starts.of_vetted vetted
    exact ⟨task, found, flawless, Job.guards_of_course work member⟩

/-- A trial that keeps a month and the days of a week. -/
theorem trial_of_month_and_week_is_guarded :
    let client : Client := ⟨Configuration.standard, [], "/run"⟩
    let job : PruneJob := ⟨⟨1, 1⟩, "/r", "hunter2", "home-", ⟨0, 7, 0, 0, 0, 30⟩, true⟩
    let run := ProcessRun.ofStream (client.command (client.environment "hunter2")
      (Client.pruneArguments job)) (.ok (.exited 0))
    ((Request.prune job).verb client).Course run.status [.process run] ∧
      (Request.prune job).Guards run.call ∧
      Client.keepFlags run.call.spec.arguments = ["--keep-within=30d", "--keep-daily=7"] ∧
      "--dry-run" ∈ Client.pruneOptions run.call.spec.arguments := by
  intro client job run
  have course : ((Request.prune job).verb client).Course run.status [.process run] :=
    .stream (.ok (.exited 0)) [] (.note .done)
  have guards : (Request.prune job).Guards run.call :=
    (destructive_processes_are_guarded client).2.1 _ _ _ course run.call
      (by simp [PlanEvent.calls, PlanEvent.runs, PlanEvent.run?])
  obtain ⟨other, same, guarded⟩ := guards.prune rfl
  obtain rfl := Request.prune.inj same
  exact ⟨course, guards, by decide +kernel, guarded.trial.mpr rfl⟩

end BackupClient
