import BackupClient.Proofs.Engine.Following
import BackupClient.Proofs.Jobs.Standing

/-!
What the jobs of a service come to report.

The work of a backup names an archive and that of a prune lists archives, and no other work does either.
A job keeps what its work gave until its outcome is in the queue, and puts it in at most once.
-/

namespace BackupClient

namespace Job

/-- A report names an archive just if a backup gave it, and lists archives just if a prune did. -/
def Fits (job : Job) (report : JobReport) : Prop :=
  (report.archiveName.isSome = true ↔ job.operation.kind = .backup) ∧
    (report.prune.isSome = true ↔ job.operation.kind = .prune)

theorem fits_of_course {job : Job} {client : Client} {now : Instant} {report : JobReport}
    {events : List PlanEvent} (course : (job.work client now).Course report events) :
    job.Fits report := by
  cases job with
  | backup job =>
      obtain ⟨⟨status, name⟩, _, _, -, rest, -⟩ := Verb.course_bind_iff.mp course
      obtain ⟨rfl, -⟩ := Verb.course_pure_iff.mp rest
      simp [Fits, operation]
  | prune job =>
      obtain ⟨⟨status, result⟩, _, _, -, rest, -⟩ := Verb.course_bind_iff.mp course
      obtain ⟨rfl, -⟩ := Verb.course_pure_iff.mp rest
      simp [Fits, operation]
  | delete job =>
      obtain ⟨status, _, _, -, rest, -⟩ := Verb.course_bind_iff.mp course
      obtain ⟨rfl, -⟩ := Verb.course_pure_iff.mp rest
      simp [Fits, operation]

end Job

def JobStage.Fits (job : Job) : JobStage → Prop
  | .accepted => True
  | .queued => True
  | .working activity => ∀ report rest, activity.Rest report rest → job.Fits report
  | .unlisted report => job.Fits report
  | .released report => job.Fits report
  | .reporting outcome => outcome.operation = job.operation ∧ job.Fits outcome.report
  | .ended outcome => outcome.operation = job.operation ∧ job.Fits outcome.report

namespace JobService

def Fitting (service : JobService) : Prop :=
  ∀ task ∈ service.tasks, task.stage.Fits task.job

/-- No job is started and none ends, and the queue of outcomes stays as it is. -/
structure Quiet (service next : JobService) : Prop where
  jobs : next.tasks.map (·.job) = service.tasks.map (·.job)
  fitting : service.Fitting → next.Fitting
  endings : ∀ other, next.ended? other = service.ended? other
  outcomes : next.outcomes = service.outcomes

/-- A step of a job is quiet or ends it, and then its outcome comes into the queue, if somebody listens. -/
inductive Handled (service : JobService) (number : Nat) (next : JobService) : Prop where
  | kept (quiet : service.Quiet next)
  | ended (outcome : JobOutcome)
      (before : service.ended? number = none)
      (jobs : next.tasks.map (·.job) = service.tasks.map (·.job))
      (fitting : service.Fitting → next.Fitting)
      (endings : ∀ other, next.ended? other =
        if other = number then some outcome else service.ended? other)
      (outcomes : next.outcomes =
        if service.outcomes.isOpen then
          { service.outcomes with held := service.outcomes.held ++ [outcome] }
        else service.outcomes)

variable {service next : JobService} {number : Nat}

theorem ended?_eq_some_iff {outcome : JobOutcome} :
    service.ended? number = some outcome ↔
      ∃ task, service.tasks[number]? = some task ∧ task.stage = .ended outcome := by
  unfold ended?
  cases found : service.tasks[number]? with
  | none => simp
  | some task =>
      rcases task with ⟨job, cancelled, channel, startedAt, stage⟩
      cases stage <;> simp [JobTask.ended?]

theorem ended?_of_found {task : JobTask} (found : service.tasks[number]? = some task) :
    service.ended? number = task.ended? := by
  simp [ended?, found]

theorem ended?_of_set {old task : JobTask} (found : service.tasks[number]? = some old)
    (tasks : next.tasks = service.tasks.set number task) (other : Nat) :
    next.ended? other = if other = number then task.ended? else service.ended? other := by
  obtain ⟨inside, -⟩ := List.getElem?_eq_some_iff.mp found
  unfold ended?
  rw [tasks]
  by_cases same : other = number
  · subst same
    simp [inside]
  · rw [List.getElem?_set_ne (Ne.symm same), if_neg same]

theorem jobs_of_set {old task : JobTask} (found : service.tasks[number]? = some old)
    (tasks : next.tasks = service.tasks.set number task) (job : task.job = old.job) :
    next.tasks.map (·.job) = service.tasks.map (·.job) := by
  obtain ⟨inside, rfl⟩ := List.getElem?_eq_some_iff.mp found
  rw [tasks, List.map_set, job]
  apply List.ext_getElem?
  intro other
  rw [List.getElem?_set]
  split
  case isTrue same =>
      subst same
      simp [inside]
  case isFalse => rfl

theorem Fitting.set {old task : JobTask} (fitting : service.Fitting)
    (found : service.tasks[number]? = some old)
    (tasks : next.tasks = service.tasks.set number task) (job : task.job = old.job)
    (fits : old.stage.Fits old.job → task.stage.Fits old.job) : next.Fitting := by
  intro other member
  rw [tasks] at member
  rcases List.mem_or_eq_of_mem_set member with older | rfl
  · exact fitting other older
  · rw [job]
    exact fits (fitting old (List.mem_of_getElem? found))

theorem Quiet.of_tasks (tasks : next.tasks = service.tasks)
    (outcomes : next.outcomes = service.outcomes) : service.Quiet next := by
  constructor
  · rw [tasks]
  · simp only [Fitting, tasks, imp_self]
  · simp only [ended?, tasks, implies_true]
  · exact outcomes

theorem Quiet.of_set {old task : JobTask} (found : service.tasks[number]? = some old)
    (tasks : next.tasks = service.tasks.set number task)
    (outcomes : next.outcomes = service.outcomes) (job : task.job = old.job)
    (ended : task.ended? = old.ended?)
    (fits : old.stage.Fits old.job → task.stage.Fits old.job) : service.Quiet next := by
  constructor
  · exact jobs_of_set found tasks job
  · intro fitting
    exact fitting.set found tasks job fits
  · intro other
    rw [ended?_of_set found tasks, ended]
    split
    case isTrue same => rw [same, ended?_of_found found]
    case isFalse => rfl
  · exact outcomes

theorem beginWork_fits (service : JobService) (task : JobTask) (now : Instant) :
    (JobStage.working
      ((task.job.work service.client now).advance (service.setting task)).1).Fits task.job := by
  intro report rest reached
  obtain ⟨_, -, back⟩ := (task.job.work service.client now).advance_leads (service.setting task)
  obtain ⟨events, course, -⟩ := back report rest reached
  exact Job.fits_of_course course

theorem continueWork_fits {job : Job} {activity : Activity JobReport}
    (fits : (JobStage.working activity).Fits job) (setting : Setting) :
    (JobStage.working (activity.resume setting).1).Fits job := by
  intro report rest reached
  obtain ⟨_, -, back⟩ := activity.resume_leads setting
  obtain ⟨events, earlier, -⟩ := back report rest reached
  exact fits report events earlier

theorem Handled.of_ended {task : JobTask} {outcome : JobOutcome}
    (found : service.tasks[number]? = some task) (stage : task.stage = .reporting outcome)
    (tasks : next.tasks = service.tasks.set number { task with stage := .ended outcome })
    (outcomes : next.outcomes =
      if service.outcomes.isOpen then
        { service.outcomes with held := service.outcomes.held ++ [outcome] }
      else service.outcomes) : service.Handled number next := by
  apply Handled.ended outcome
  · rw [ended?_of_found found, JobTask.ended?, stage]
  · exact jobs_of_set found tasks rfl
  · intro fitting
    apply fitting.set found tasks rfl
    intro fits
    rw [stage] at fits
    exact fits
  · exact ended?_of_set found tasks
  · exact outcomes

theorem report_handled {task : JobTask} {outcome : JobOutcome}
    (found : service.tasks[number]? = some task) (stage : task.stage = .reporting outcome) :
    service.Handled number (service.report number task outcome) := by
  unfold report
  cases isOpen : service.outcomes.isOpen with
  | false =>
      apply Handled.of_ended found stage rfl
      rw [isOpen]
      rfl
  | true =>
      by_cases room : service.outcomes.held.length < service.outcomes.capacity
      · simp only [Bool.not_true, Bool.false_eq_true, if_false, room, if_true]
        apply Handled.of_ended found stage rfl
        simp only [isOpen, if_true]
        rfl
      · simp only [Bool.not_true, Bool.false_eq_true, if_false, room]
        exact .kept (.of_tasks rfl rfl)

theorem stepTask_handled (service : JobService) (number : Nat) :
    service.Handled number (service.stepTask number) := by
  unfold stepTask
  cases found : service.tasks[number]? with
  | none => exact .kept (.of_tasks rfl rfl)
  | some task =>
      dsimp only
      split
      case h_1 stage =>
          refine .kept (.of_set found rfl rfl rfl (by simp [JobTask.ended?, stage]) ?_)
          intro _
          trivial
      case h_2 stage =>
          refine .kept (.of_set found rfl rfl rfl (by simp [JobTask.ended?, stage]) ?_)
          intro _
          exact beginWork_fits (service.say [task.operation.startedNotice])
            { task with startedAt := service.clock.now } service.clock.now
      case h_3 report stage =>
          refine .kept (.of_set found rfl rfl rfl (by simp [JobTask.ended?, stage]) ?_)
          intro fits
          rw [stage] at fits
          exact fits report [] ⟨rfl, rfl⟩
      case h_4 activity unfinished stage =>
          refine .kept (.of_set found rfl rfl rfl (by simp [JobTask.ended?, stage]) ?_)
          intro fits
          rw [stage] at fits
          exact continueWork_fits fits (service.setting task)
      case h_5 report stage =>
          refine .kept (.of_set found rfl rfl rfl (by simp [JobTask.ended?, stage]) ?_)
          intro fits
          rwa [stage] at fits
      case h_6 report stage =>
          refine .kept (.of_set found rfl rfl rfl (by simp [JobTask.ended?, stage]) ?_)
          intro fits
          rw [stage] at fits
          exact ⟨rfl, fits⟩
      case h_7 outcome stage => exact report_handled found stage
      case h_8 => exact .kept (.of_tasks rfl rfl)

theorem accept_handled {job : Job} {channel : ProgressChannel}
    (accepted : service.accept job channel = .ok (number, next)) :
    next.tasks.map (·.job) = service.tasks.map (·.job) ++ [job] ∧
      (service.Fitting → next.Fitting) ∧
      (∀ other, next.ended? other = service.ended? other) ∧
      next.outcomes = service.outcomes := by
  obtain ⟨-, arbiter, -, rfl, rfl⟩ := accept_eq_ok_iff.mp accepted
  refine ⟨List.map_append, ?_, ?_, rfl⟩
  · intro fitting task member
    rcases List.mem_append.mp member with older | newest
    · exact fitting task older
    · obtain rfl := List.mem_singleton.mp newest
      trivial
  · intro other
    unfold ended?
    rw [Keyed.getElem?_concat]
    split
    case isTrue same =>
        rw [same, List.getElem?_eq_none (Nat.le_refl _)]
        rfl
    case isFalse => rfl

end JobService

end BackupClient
