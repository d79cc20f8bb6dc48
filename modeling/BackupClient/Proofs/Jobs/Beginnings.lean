import BackupClient.Proofs.Jobs.Outcomes
import BackupClient.Proofs.Jobs.Sharing
import Mathlib.Data.List.Induction

/-!
Which processes the jobs of a service start.

A process is started only by a step of a job whose token is listed, and it is one of those in the courses of
the work of this job.  The job was accepted by an earlier event.
-/

namespace BackupClient

variable {α : Type}

/-- The calls that are made from one point of a plan to a later one are those of a course. -/
theorem Leads.exists_course {earlier later : α → List PlanEvent → Prop}
    {before after begun : List Call} (leads : Leads earlier before later after) (goesOn : ∃ value rest, later value rest)
    (made : after = begun ++ before) {call : Call} (member : call ∈ begun) :
    ∃ value events, earlier value events ∧ call ∈ PlanEvent.calls events := by
  obtain ⟨further, madeToo, back⟩ := leads
  obtain ⟨value, rest, reached⟩ := goesOn
  obtain ⟨events, course, calls⟩ := back value rest reached
  obtain rfl : begun = further.reverse := List.append_cancel_right (made.symm.trans madeToo)
  refine ⟨value, events, course, ?_⟩
  rw [calls]
  exact List.mem_append_left _ (List.mem_reverse.mp member)

def Job.MayStart (job : Job) (client : Client) (call : Call) : Prop :=
  ∃ now report events, (job.work client now).Course report events ∧ call ∈ PlanEvent.calls events

def JobStage.KeepsTo (client : Client) (job : Job) : JobStage → Prop
  | .working activity => ∀ report rest, activity.Rest report rest →
      ∀ call ∈ PlanEvent.calls rest, job.MayStart client call
  | _ => True

namespace JobService

variable {service next : JobService} {number : Nat} {call : Call}

def Starts (service : JobService) (number : Nat) (call : Call) : Prop :=
  ∃ begun, (service.stepTask number).scene.calls = begun ++ service.scene.calls ∧ call ∈ begun

/-- All jobs that were accepted are without a flaw, and they keep to their work. -/
def Vetted (service : JobService) : Prop :=
  ∀ task ∈ service.tasks, task.job.flaw? = none ∧ task.stage.KeepsTo service.client task.job

/-! ### Processes that are started -/

theorem not_starts_of_calls_eq
    (same : (service.stepTask number).scene.calls = service.scene.calls) :
    ¬ service.Starts number call := by
  rintro ⟨begun, made, member⟩
  rw [same, List.self_eq_append_left] at made
  subst made
  cases member

theorem report_calls (service : JobService) (number : Nat) (task : JobTask) (outcome : JobOutcome) :
    (service.report number task outcome).scene.calls = service.scene.calls := by
  unfold report
  split
  · rfl
  · split <;> rfl

theorem Starts.cases (starts : service.Starts number call) :
    ∃ task, service.tasks[number]? = some task ∧
      (task.stage = .queued ∧ task.job.MayStart service.client call ∨
        ∃ activity, task.stage = .working activity ∧
          ∃ report rest, activity.Rest report rest ∧ call ∈ PlanEvent.calls rest) := by
  cases found : service.tasks[number]? with
  | none => exact absurd starts (not_starts_of_calls_eq (by simp [stepTask, found]))
  | some task =>
      refine ⟨task, rfl, ?_⟩
      obtain ⟨begun, made, member⟩ := starts
      have quiet (same : (service.stepTask number).scene.calls = service.scene.calls) : False :=
        not_starts_of_calls_eq same ⟨begun, made, member⟩
      cases stage : task.stage with
      | queued =>
          left
          simp only [stepTask, found, stage] at made
          obtain ⟨report, events, course, inside⟩ := Leads.exists_course
            ((task.job.work service.client service.clock.now).advance_leads _)
            (Activity.exists_rest _) made member
          exact ⟨rfl, _, report, events, course, inside⟩
      | working activity =>
          right
          refine ⟨activity, rfl, ?_⟩
          cases activity with
          | finished report =>
              exact (quiet (by simp [stepTask, found, stage, removeToken, setTask])).elim
          | _ =>
              simp only [stepTask, found, stage] at made
              exact Leads.exists_course (Activity.resume_leads _ _) (Activity.exists_rest _) made member
      | accepted => exact (quiet (by simp [stepTask, found, stage, listToken, setTask])).elim
      | unlisted report =>
          exact (quiet (by simp [stepTask, found, stage, releaseRepository, setTask])).elim
      | released report => exact (quiet (by simp only [stepTask, found, stage]; rfl)).elim
      | reporting outcome =>
          exact (quiet (by simp only [stepTask, found, stage, report_calls])).elim
      | ended outcome => exact (quiet (by simp [stepTask, found, stage])).elim

theorem Starts.of_vetted (vetted : service.Vetted) (starts : service.Starts number call) :
    ∃ task, service.tasks[number]? = some task ∧ task.stage.standing = .listed ∧
      task.job.flaw? = none ∧ task.job.MayStart service.client call := by
  obtain ⟨task, found, begins⟩ := starts.cases
  obtain ⟨flawless, keeps⟩ := vetted task (List.mem_of_getElem? found)
  refine ⟨task, found, ?_⟩
  rcases begins with ⟨stage, may⟩ | ⟨activity, stage, report, rest, reached, inside⟩
  · rw [stage]
    exact ⟨rfl, flawless, may⟩
  · rw [stage] at keeps ⊢
    exact ⟨rfl, flawless, keeps report rest reached call inside⟩

/-! ### One step -/

theorem Vetted.congr (vetted : service.Vetted) (client : next.client = service.client)
    (tasks : next.tasks = service.tasks) : next.Vetted := by
  unfold Vetted
  rw [client, tasks]
  exact vetted

theorem Vetted.set {old task : JobTask} (vetted : service.Vetted)
    (found : service.tasks[number]? = some old) (client : next.client = service.client)
    (tasks : next.tasks = service.tasks.set number task) (job : task.job = old.job)
    (keeps : old.stage.KeepsTo service.client old.job → task.stage.KeepsTo service.client old.job) :
    next.Vetted := by
  intro other member
  rw [tasks] at member
  rw [client]
  rcases List.mem_or_eq_of_mem_set member with older | rfl
  · exact vetted other older
  · obtain ⟨flawless, kept⟩ := vetted old (List.mem_of_getElem? found)
    rw [job]
    exact ⟨flawless, keeps kept⟩

theorem beginWork_keepsTo (client : Client) (job : Job) (now : Instant) (setting : Setting) :
    (JobStage.working ((job.work client now).advance setting).1).KeepsTo client job := by
  intro report rest reached call member
  obtain ⟨_, -, back⟩ := (job.work client now).advance_leads setting
  obtain ⟨events, course, calls⟩ := back report rest reached
  refine ⟨now, report, events, course, ?_⟩
  rw [calls]
  exact List.mem_append_right _ member

theorem continueWork_keepsTo {client : Client} {job : Job} {activity : Activity JobReport}
    (keeps : (JobStage.working activity).KeepsTo client job) (setting : Setting) :
    (JobStage.working (activity.resume setting).1).KeepsTo client job := by
  intro report rest reached call member
  obtain ⟨_, -, back⟩ := activity.resume_leads setting
  obtain ⟨events, earlier, calls⟩ := back report rest reached
  apply keeps report events earlier
  rw [calls]
  exact List.mem_append_right _ member

theorem Vetted.accept {job : Job} {channel : ProgressChannel} (vetted : service.Vetted)
    (accepted : service.accept job channel = .ok (number, next)) : next.Vetted := by
  obtain ⟨flawless, arbiter, -, -, rfl⟩ := accept_eq_ok_iff.mp accepted
  intro task member
  rcases List.mem_append.mp member with older | newest
  · exact vetted task older
  · obtain rfl := List.mem_singleton.mp newest
    exact ⟨flawless, trivial⟩

theorem Vetted.report {task : JobTask} {outcome : JobOutcome} (vetted : service.Vetted)
    (found : service.tasks[number]? = some task) : (service.report number task outcome).Vetted := by
  unfold JobService.report
  split
  · exact vetted.set found rfl rfl rfl fun _ => trivial
  · split
    · exact vetted.set found rfl rfl rfl fun _ => trivial
    · exact vetted

theorem Vetted.stepTask (vetted : service.Vetted) (number : Nat) : (service.stepTask number).Vetted := by
  unfold JobService.stepTask
  cases found : service.tasks[number]? with
  | none => exact vetted
  | some task =>
      dsimp only
      split
      case h_1 stage => exact vetted.set found rfl rfl rfl fun _ => trivial
      case h_2 stage =>
          exact vetted.set found rfl rfl rfl fun _ => beginWork_keepsTo service.client task.job _ _
      case h_3 report stage => exact vetted.set found rfl rfl rfl fun _ => trivial
      case h_4 activity unfinished stage =>
          refine vetted.set found rfl rfl rfl fun keeps => ?_
          rw [stage] at keeps
          exact continueWork_keepsTo keeps (service.setting task)
      case h_5 report stage => exact vetted.set found rfl rfl rfl fun _ => trivial
      case h_6 report stage => exact vetted.set found rfl rfl rfl fun _ => trivial
      case h_7 outcome stage => exact vetted.report found
      case h_8 => exact vetted

theorem Vetted.cancelTask (vetted : service.Vetted) (notices : List Notice) (number : Nat) :
    ((service.say notices).cancelTask number).Vetted := by
  unfold JobService.cancelTask
  cases found : (service.say notices).tasks[number]? with
  | none => exact vetted
  | some task => exact vetted.set found rfl rfl rfl id

end JobService

namespace JobTraffic

variable {traffic : JobTraffic}

theorem step_vetted (vetted : traffic.service.Vetted) (event : JobEvent) :
    (traffic.step event).service.Vetted := by
  cases event with
  | accept job channel =>
      simp only [step]
      cases accepted : traffic.service.accept job channel with
      | error refusal => exact vetted
      | ok answer => exact vetted.accept accepted
  | step number => exact vetted.stepTask number
  | look operation => exact vetted
  | fire call =>
      simp only [step]
      split
      · exact vetted.cancelTask _ _
      · exact vetted
  | cancelHandle number => exact vetted.cancelTask [] number
  | follow number channel =>
      simp only [step]
      cases found : traffic.service.tasks[number]? with
      | none => exact vetted
      | some task => exact vetted.set found rfl rfl rfl id
  | surround scene clock outcomes => exact vetted.congr rfl rfl

/-- Jobs are added by events that accept them, and none is replaced. -/
theorem step_jobs (traffic : JobTraffic) (event : JobEvent) :
    (traffic.step event).service.tasks.map (·.job) = traffic.service.tasks.map (·.job) ∨
      ∃ job channel next, event = .accept job channel ∧
        traffic.service.accept job channel = .ok (traffic.service.tasks.length, next) ∧
        (traffic.step event).service.tasks.map (·.job) = traffic.service.tasks.map (·.job) ++ [job] := by
  cases event with
  | accept job channel =>
      simp only [step]
      cases accepted : traffic.service.accept job channel with
      | error refusal => exact .inl rfl
      | ok answer =>
          obtain ⟨number, next⟩ := answer
          obtain ⟨-, arbiter, -, rfl, rfl⟩ := JobService.accept_eq_ok_iff.mp accepted
          exact .inr ⟨job, channel, _, rfl, accepted, (JobService.accept_handled accepted).1⟩
  | step number =>
      left
      cases traffic.service.stepTask_handled number with
      | kept quiet => exact quiet.jobs
      | ended outcome before jobs => exact jobs
  | look operation => exact .inl rfl
  | fire call => exact .inl (traffic.step_quiet (.fire call) (by simp) (by simp)).jobs
  | cancelHandle number =>
      exact .inl (traffic.step_quiet (.cancelHandle number) (by simp) (by simp)).jobs
  | follow number channel =>
      exact .inl (traffic.step_quiet (.follow number channel) (by simp) (by simp)).jobs
  | surround scene clock outcomes => exact .inl rfl

theorem step_calls_eq (traffic : JobTraffic) (event : JobEvent)
    (noStep : ∀ number, event ≠ .step number) (within : ∀ scene clock outcomes, event ≠ .surround scene clock outcomes) :
    (traffic.step event).service.scene.calls = traffic.service.scene.calls := by
  cases event with
  | accept job channel =>
      simp only [step]
      cases accepted : traffic.service.accept job channel with
      | error refusal => rfl
      | ok answer =>
          obtain ⟨number, next⟩ := answer
          obtain ⟨-, arbiter, -, rfl, rfl⟩ := JobService.accept_eq_ok_iff.mp accepted
          rfl
  | step number => exact absurd rfl (noStep number)
  | look operation => rfl
  | fire call =>
      simp only [step]
      split
      · unfold JobService.cancelTask
        split <;> rfl
      · rfl
  | cancelHandle number =>
      simp only [step]
      unfold JobService.cancelTask
      split <;> rfl
  | follow number channel =>
      simp only [step]
      split <;> rfl
  | surround scene clock outcomes => exact absurd rfl (within scene clock outcomes)

end JobTraffic

namespace SharedService

variable {state : SharedService} {number : Nat} {call : Call}

theorem step_vetted (vetted : state.service.Vetted) (event : SharedEvent) :
    (state.step event).service.Vetted := by
  cases event with
  | work event => exact JobTraffic.step_vetted vetted event
  | outside event => exact vetted.congr rfl rfl

theorem run_vetted (events : List SharedEvent) (vetted : state.service.Vetted) :
    (state.run events).service.Vetted := by
  induction events generalizing state with
  | nil => exact vetted
  | cons event events inductionHypothesis => exact inductionHypothesis (step_vetted vetted event)

theorem fresh_vetted (client : Client) (scene : Scene) (clock : Clock) (outcomes : OutcomeChannel) :
    (fresh client scene clock outcomes).service.Vetted := by
  intro task member
  cases member

/-- A job was accepted by an event before which its number was free. -/
def AcceptedIn (start : SharedService) (events : List SharedEvent) (number : Nat) (job : Job) : Prop :=
  ∃ before channel next after, events = before ++ .work (.accept job channel) :: after ∧
    (start.run before).service.accept job channel = .ok (number, next)

theorem AcceptedIn.concat {events : List SharedEvent} {job : Job}
    (accepted : state.AcceptedIn events number job) (event : SharedEvent) :
    state.AcceptedIn (events ++ [event]) number job := by
  obtain ⟨before, channel, next, after, rfl, answer⟩ := accepted
  exact ⟨before, channel, next, after ++ [event], by simp, answer⟩

theorem acceptedIn_of_found (none : state.service.tasks = []) (events : List SharedEvent)
    {task : JobTask} (found : (state.run events).service.tasks[number]? = some task) :
    state.AcceptedIn events number task.job := by
  have job : ((state.run events).service.tasks.map (·.job))[number]? = some task.job := by
    rw [List.getElem?_map, found]
    rfl
  clear found
  generalize task.job = accepted at job
  induction events using List.reverseRecOn with
  | nil =>
      rw [run, List.foldl_nil, none] at job
      cases job
  | append_singleton events event inductionHypothesis =>
      rw [run_concat] at job
      cases event with
      | outside event => exact (inductionHypothesis job).concat _
      | work event =>
          rcases (state.run events).traffic.step_jobs event with
            same | ⟨added, channel, next, rfl, answer, more⟩
          · exact (inductionHypothesis (same ▸ job)).concat _
          · have grown : ((state.run events).step (.work (.accept added channel))).service.tasks.map
                (·.job) = (state.run events).service.tasks.map (·.job) ++ [added] := more
            rw [grown, Keyed.getElem?_concat, List.length_map] at job
            split at job
            case isTrue same =>
                obtain rfl := Option.some.inj job
                subst same
                exact ⟨events, channel, next, [], by simp, answer⟩
            case isFalse => exact (inductionHypothesis job).concat _

end SharedService

end BackupClient
