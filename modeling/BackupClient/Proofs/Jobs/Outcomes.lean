import BackupClient.Proofs.Jobs.Records
import BackupClient.Proofs.Jobs.Reports
import BackupClient.Proofs.Jobs.Traffic

/-!
The outcomes that a service sends.

Every job that is accepted sends one outcome, unless nobody listens any more, and it does so only when its
token is removed and its repository released.  The receiver may take outcomes out at any pace and may stop
at any time.
-/

namespace BackupClient

namespace JobService

/-- Take some outcomes out of the queue, the oldest first. -/
def receive (service : JobService) (count : Nat) : List JobOutcome × JobService :=
  (service.outcomes.held.take count,
    { service with
      outcomes := { service.outcomes with held := service.outcomes.held.drop count } })

theorem takeOutcomes_eq_receive (service : JobService) :
    service.takeOutcomes = service.receive service.outcomes.held.length := by
  simp [takeOutcomes, receive]

/-- Nothing of a job is left in the records.  A job that has no flaw can be started on its repository,
unless another job has reserved it. -/
structure Freed (service : JobService) (number : Nat) (repository : Int) : Prop where
  token : ∀ operation, (operation, number) ∉ service.tokens
  reservation : ∀ operation, ¬ service.Holds number operation
  startable : ∀ job channel, job.flaw? = none → job.operation.id.repository = repository →
    (∃ next, service.start job channel = .ok (service.tasks.length, next)) ∨
      ∃ other holder, other ≠ number ∧ service.Holds other holder ∧
        holder.id.repository = repository

theorem Reserved.holder_of_held {service : JobService} (reserved : service.Reserved)
    {repository : Int} {holder : Operation} (held : service.arbiter.holder? repository = some holder) :
    holder.id.repository = repository ∧ ∃ number, service.Holds number holder := by
  have own := reserved.coherent.keyed repository holder held
  subst own
  exact ⟨rfl, (reserved.held_iff holder).mp held⟩

theorem Sound.freed {service : JobService} {number : Nat} {operation : Operation}
    (sound : service.Sound) (standing : service.standing? number = some (operation, .freed)) :
    service.Freed number operation.id.repository := by
  have released (other : Operation) : ¬ service.Holds number other := by
    rintro ⟨stands, holding, found⟩
    rw [standing] at found
    exact holding (Prod.mk.inj (Option.some.inj found)).2.symm
  constructor
  case token =>
      intro other entry
      exact released other (sound.holds_of_listed entry)
  case reservation => exact released
  case startable =>
      intro job channel flawless same
      have answer := sound.coherent.reserve_eq job.operation
      rw [same] at answer
      cases held : service.arbiter.holder? operation.id.repository with
      | none =>
          rw [held] at answer
          left
          simp [start, accept, flawless, answer, Except.map]
      | some holder =>
          right
          obtain ⟨own, other, otherHolds⟩ := sound.holder_of_held held
          refine ⟨other, holder, ?_, otherHolds, own⟩
          rintro rfl
          exact released holder otherHolds

theorem reporting?_eq_some_iff {service : JobService} {number : Nat} {outcome : JobOutcome} :
    service.reporting? number = some outcome ↔
      ∃ task, service.tasks[number]? = some task ∧ task.stage = .reporting outcome := by
  unfold reporting?
  cases found : service.tasks[number]? with
  | none => simp
  | some task =>
      rcases task with ⟨job, cancelled, channel, startedAt, stage⟩
      cases stage <;> simp [JobTask.reporting?]

theorem accept_of_start_error {service : JobService} {job : Job} {channel : ProgressChannel}
    {error : StartError} (rejected : service.start job channel = .error error) :
    service.accept job channel = .error error :=
  start_eq_error_iff.mp rejected

theorem cancelTask_quiet (service : JobService) (notices : List Notice) (number : Nat) :
    service.Quiet ((service.say notices).cancelTask number) := by
  unfold cancelTask
  cases found : (service.say notices).tasks[number]? with
  | none => exact .of_tasks rfl rfl
  | some task => exact .of_set found rfl rfl rfl rfl id

end JobService

/-- Whatever else changes around the jobs, the queue of outcomes does not. -/
def JobEvent.sparing (outcomes : OutcomeChannel) : JobEvent → JobEvent
  | .surround scene clock _ => .surround scene clock outcomes
  | event => event

namespace JobTraffic

theorem step_quiet (traffic : JobTraffic) (event : JobEvent)
    (noStart : ∀ job channel, event ≠ .accept job channel) (noStep : ∀ number, event ≠ .step number) :
    traffic.service.Quiet (traffic.step (event.sparing traffic.service.outcomes)).service := by
  cases event with
  | accept job channel => exact absurd rfl (noStart job channel)
  | step number => exact absurd rfl (noStep number)
  | look operation => exact .of_tasks rfl rfl
  | fire call =>
      simp only [JobEvent.sparing, step]
      split
      case h_1 operation number found => exact traffic.service.cancelTask_quiet _ number
      case h_2 => exact .of_tasks rfl rfl
  | cancelHandle number => exact traffic.service.cancelTask_quiet [] number
  | follow number channel =>
      simp only [JobEvent.sparing, step]
      cases found : traffic.service.tasks[number]? with
      | none => exact .of_tasks rfl rfl
      | some task => exact .of_set found rfl rfl rfl rfl id
  | surround scene clock outcomes => exact .of_tasks rfl rfl

end JobTraffic

/-- A service, the jobs whose start was accepted, the outcomes that entered the queue with the numbers of
their jobs, and those that were received, all with the oldest first. -/
structure OutcomeTraffic where
  traffic : JobTraffic
  accepted : List Job
  sent : List (Nat × JobOutcome)
  received : List JobOutcome

inductive OutcomeEvent where
  | work (event : JobEvent)
  | receive (count : Nat)
  | close

namespace OutcomeTraffic

def service (state : OutcomeTraffic) : JobService :=
  state.traffic.service

def withService (state : OutcomeTraffic) (service : JobService) : OutcomeTraffic :=
  { state with traffic := { state.traffic with service := service } }

/-- The job whose start an event is, if the start is accepted. -/
def acceptedBy (service : JobService) : JobEvent → List Job
  | .accept job channel =>
      match service.accept job channel with
      | .ok _ => [job]
      | .error _ => []
  | _ => []

def sentBy (service next : JobService) : JobEvent → List (Nat × JobOutcome)
  | .step number =>
      (next.outcomes.held.drop service.outcomes.held.length).map fun outcome => (number, outcome)
  | _ => []

def step (state : OutcomeTraffic) : OutcomeEvent → OutcomeTraffic
  | .work event =>
      let next := state.traffic.step (event.sparing state.service.outcomes)
      { traffic := next
        accepted := state.accepted ++ acceptedBy state.service event
        sent := state.sent ++ sentBy state.service next.service event
        received := state.received }
  | .receive count =>
      let (taken, service) := state.service.receive count
      { state.withService service with received := state.received ++ taken }
  | .close => state.withService state.service.closeOutcomes

def run (state : OutcomeTraffic) (events : List OutcomeEvent) : OutcomeTraffic :=
  events.foldl step state

/-- A service at which nothing was started, with an empty queue of outcomes that is listened to. -/
def fresh (client : Client) (scene : Scene) (clock : Clock) (capacity : Nat) : OutcomeTraffic where
  traffic := ⟨.fresh client scene clock ⟨capacity, [], true⟩, []⟩
  accepted := []
  sent := []
  received := []

/-- What was sent stems from jobs that have ended, once from each, and from all of them as long as there is
a listener. -/
structure Recorded (state : OutcomeTraffic) : Prop where
  sound : state.service.Sound
  fitting : state.service.Fitting
  jobs : state.accepted = state.service.tasks.map (·.job)
  once : (state.sent.map (·.1)).Nodup
  ended : ∀ number outcome, (number, outcome) ∈ state.sent →
    state.service.ended? number = some outcome
  all : state.service.outcomes.isOpen = true → ∀ number outcome,
    state.service.ended? number = some outcome → (number, outcome) ∈ state.sent
  queued : state.received ++ state.service.outcomes.held <+: state.sent.map (·.2)
  waiting : state.service.outcomes.isOpen = true →
    state.received ++ state.service.outcomes.held = state.sent.map (·.2)

variable {state : OutcomeTraffic} {service : JobService} {calls : List (Operation × Option Nat)}
  {number : Nat}

theorem fresh_recorded (client : Client) (scene : Scene) (clock : Clock) (capacity : Nat) :
    (fresh client scene clock capacity).Recorded where
  sound := JobService.fresh_sound client scene clock _
  fitting := by
    intro task member
    cases member
  jobs := rfl
  once := List.nodup_nil
  ended := by
    intro number outcome member
    cases member
  all := by
    intro _ number outcome ended
    cases ended
  queued := List.prefix_refl _
  waiting := fun _ => rfl

@[simp]
theorem service_mk {accepted : List Job} {sent : List (Nat × JobOutcome)}
    {received : List JobOutcome} :
    OutcomeTraffic.service ⟨⟨service, calls⟩, accepted, sent, received⟩ = service := rfl

/-! ### One event -/

theorem step_rejected {job : Job} {channel : ProgressChannel} {error : StartError}
    (rejected : state.service.accept job channel = .error error) :
    state.step (.work (.accept job channel)) = state := by
  have unchanged : state.traffic.step (.accept job channel) = state.traffic := by
    rw [OutcomeTraffic.service] at rejected
    simp [JobTraffic.step, rejected]
  simp [step, JobEvent.sparing, unchanged, acceptedBy, sentBy, rejected]

theorem step_accepted {job : Job} {channel : ProgressChannel}
    (accepted : state.service.accept job channel = .ok (number, service)) :
    state.step (.work (.accept job channel)) =
      ⟨⟨service, state.traffic.calls⟩, state.accepted ++ [job], state.sent, state.received⟩ := by
  have changed : state.traffic.step (.accept job channel) = ⟨service, state.traffic.calls⟩ := by
    rw [OutcomeTraffic.service] at accepted
    simp [JobTraffic.step, accepted]
  simp [step, JobEvent.sparing, changed, acceptedBy, sentBy, accepted]

/-- As long as no job ends and the queue stays as it is, only jobs may be added. -/
theorem Recorded.kept (recorded : state.Recorded) (sound : service.Sound)
    {accepted : List Job} (jobs : accepted = service.tasks.map (·.job))
    (fitting : service.Fitting)
    (endings : ∀ other, service.ended? other = state.service.ended? other)
    (outcomes : service.outcomes = state.service.outcomes) :
    Recorded ⟨⟨service, calls⟩, accepted, state.sent, state.received⟩ := by
  constructor <;> simp only [service_mk, endings, outcomes]
  case sound => exact sound
  case fitting => exact fitting
  case jobs => exact jobs
  case once => exact recorded.once
  case ended => exact recorded.ended
  case all => exact recorded.all
  case queued => exact recorded.queued
  case waiting => exact recorded.waiting

theorem Recorded.quiet (recorded : state.Recorded) (sound : service.Sound)
    (quiet : state.service.Quiet service) :
    Recorded ⟨⟨service, calls⟩, state.accepted, state.sent, state.received⟩ :=
  recorded.kept sound (recorded.jobs.trans quiet.jobs.symm) (quiet.fitting recorded.fitting)
    quiet.endings quiet.outcomes

theorem Recorded.ended_once (recorded : state.Recorded)
    (before : state.service.ended? number = none) : number ∉ state.sent.map (·.1) := by
  intro member
  obtain ⟨⟨other, outcome⟩, entry, rfl⟩ := List.mem_map.mp member
  rw [recorded.ended other outcome entry] at before
  cases before

theorem Recorded.sends (recorded : state.Recorded) (sound : service.Sound) {outcome : JobOutcome}
    (isOpen : state.service.outcomes.isOpen = true)
    (before : state.service.ended? number = none)
    (jobs : service.tasks.map (·.job) = state.service.tasks.map (·.job))
    (fitting : service.Fitting)
    (endings : ∀ other, service.ended? other =
      if other = number then some outcome else state.service.ended? other)
    (outcomes : service.outcomes =
      { state.service.outcomes with held := state.service.outcomes.held ++ [outcome] }) :
    Recorded ⟨⟨service, calls⟩, state.accepted, state.sent ++ [(number, outcome)],
      state.received⟩ := by
  have fresh := recorded.ended_once before
  have arrived : state.received ++ service.outcomes.held =
      (state.sent ++ [(number, outcome)]).map (·.2) := by
    rw [outcomes, List.map_append, ← recorded.waiting isOpen, List.append_assoc]
    rfl
  constructor <;> simp only [service_mk]
  case sound => exact sound
  case fitting => exact fitting
  case jobs => rw [jobs, recorded.jobs]
  case once =>
      rw [List.map_append]
      apply List.nodup_append.mpr
      refine ⟨recorded.once, List.pairwise_singleton _ _, ?_⟩
      rintro other member _ newest rfl
      obtain rfl := List.mem_singleton.mp newest
      exact fresh member
  case ended =>
      intro other sent entry
      rw [endings]
      rcases List.mem_append.mp entry with older | newest
      · have different : other ≠ number := by
          rintro rfl
          exact fresh (List.mem_map_of_mem older)
        rw [if_neg different]
        exact recorded.ended other sent older
      · obtain ⟨rfl, rfl⟩ := Prod.mk.inj (List.mem_singleton.mp newest)
        rw [if_pos rfl]
  case all =>
      intro _ other sent ended
      rw [endings] at ended
      apply List.mem_append.mpr
      split at ended
      case isTrue same =>
          obtain rfl := Option.some.inj ended
          exact .inr (List.mem_singleton.mpr (by rw [same]))
      case isFalse => exact .inl (recorded.all isOpen other sent ended)
  case queued =>
      exact ⟨[], (List.append_nil _).trans arrived⟩
  case waiting =>
      intro _
      exact arrived

theorem Recorded.unheard (recorded : state.Recorded) (sound : service.Sound) {outcome : JobOutcome}
    (closed : state.service.outcomes.isOpen = false)
    (before : state.service.ended? number = none)
    (jobs : service.tasks.map (·.job) = state.service.tasks.map (·.job))
    (fitting : service.Fitting)
    (endings : ∀ other, service.ended? other =
      if other = number then some outcome else state.service.ended? other)
    (outcomes : service.outcomes = state.service.outcomes) :
    Recorded ⟨⟨service, calls⟩, state.accepted, state.sent, state.received⟩ := by
  have fresh := recorded.ended_once before
  constructor <;> simp only [service_mk, outcomes]
  case sound => exact sound
  case fitting => exact fitting
  case jobs => rw [jobs, recorded.jobs]
  case once => exact recorded.once
  case ended =>
      intro other sent entry
      have different : other ≠ number := by
        rintro rfl
        exact fresh (List.mem_map_of_mem entry)
      rw [endings, if_neg different]
      exact recorded.ended other sent entry
  case all =>
      intro isOpen
      rw [closed] at isOpen
      cases isOpen
  case queued => exact recorded.queued
  case waiting => exact recorded.waiting

theorem Recorded.stepTask (recorded : state.Recorded) (number : Nat) :
    (state.step (.work (.step number))).Recorded := by
  have sound := recorded.sound.change (state.service.stepTask_change number)
  show Recorded ⟨⟨state.service.stepTask number, state.traffic.calls⟩, state.accepted ++ [],
    state.sent ++ (((state.service.stepTask number).outcomes.held.drop
      state.service.outcomes.held.length).map fun outcome => (number, outcome)), state.received⟩
  rw [List.append_nil]
  cases state.service.stepTask_handled number with
  | kept quiet =>
      rw [quiet.outcomes, List.drop_length, List.map_nil, List.append_nil]
      exact recorded.quiet sound quiet
  | ended outcome before jobs fitting endings outcomes =>
      cases isOpen : state.service.outcomes.isOpen with
      | true =>
          rw [isOpen, if_pos rfl] at outcomes
          rw [outcomes, List.drop_left, List.map_singleton]
          exact recorded.sends sound isOpen before jobs (fitting recorded.fitting) endings outcomes
      | false =>
          rw [isOpen, if_neg Bool.false_ne_true] at outcomes
          rw [outcomes, List.drop_length, List.map_nil, List.append_nil]
          exact recorded.unheard sound isOpen before jobs (fitting recorded.fitting) endings outcomes

theorem Recorded.accept (recorded : state.Recorded) (job : Job) (channel : ProgressChannel) :
    (state.step (.work (.accept job channel))).Recorded := by
  cases accepted : state.service.accept job channel with
  | error refusal =>
      rw [step_rejected accepted]
      exact recorded
  | ok answer =>
      obtain ⟨number, service⟩ := answer
      obtain ⟨jobs, fitting, endings, outcomes⟩ := JobService.accept_handled accepted
      have sound := recorded.sound.change (JobService.accept_change accepted)
      rw [step_accepted accepted]
      apply recorded.kept sound _ (fitting recorded.fitting) endings outcomes
      rw [jobs, recorded.jobs]

theorem step_other {event : JobEvent} (noStart : ∀ job channel, event ≠ .accept job channel)
    (noStep : ∀ number, event ≠ .step number) :
    state.step (.work event) =
      ⟨state.traffic.step (event.sparing state.service.outcomes), state.accepted, state.sent,
        state.received⟩ := by
  have nothing : acceptedBy state.service event = [] := by
    unfold acceptedBy
    split
    case h_1 job channel => exact absurd rfl (noStart job channel)
    case h_2 => rfl
  have unsent (next : JobService) : sentBy state.service next event = [] := by
    unfold sentBy
    split
    case h_1 number => exact absurd rfl (noStep number)
    case h_2 => rfl
  simp only [step, nothing, unsent, List.append_nil]

theorem Recorded.work (recorded : state.Recorded) (event : JobEvent) :
    (state.step (.work event)).Recorded := by
  by_cases start : ∃ job channel, event = .accept job channel
  · obtain ⟨job, channel, rfl⟩ := start
    exact recorded.accept job channel
  by_cases stepped : ∃ number, event = .step number
  · obtain ⟨number, rfl⟩ := stepped
    exact recorded.stepTask number
  · have noStart (job : Job) (channel : ProgressChannel) : event ≠ .accept job channel :=
      fun same => start ⟨job, channel, same⟩
    have noStep (number : Nat) : event ≠ .step number := fun same => stepped ⟨number, same⟩
    rw [step_other noStart noStep]
    apply recorded.quiet
    · exact JobTraffic.step_sound recorded.sound _
    · exact state.traffic.step_quiet event noStart noStep

theorem Recorded.receive (recorded : state.Recorded) (count : Nat) :
    (state.step (.receive count)).Recorded := by
  have inOrder : (state.received ++ state.service.outcomes.held.take count) ++
      state.service.outcomes.held.drop count = state.received ++ state.service.outcomes.held := by
    rw [List.append_assoc, List.take_append_drop]
  constructor
  case sound => exact recorded.sound.kept rfl rfl fun _ => rfl
  case fitting => exact recorded.fitting
  case jobs => exact recorded.jobs
  case once => exact recorded.once
  case ended => exact recorded.ended
  case all => exact recorded.all
  case queued => exact inOrder ▸ recorded.queued
  case waiting => exact inOrder ▸ recorded.waiting

theorem Recorded.close (recorded : state.Recorded) : (state.step .close).Recorded := by
  constructor
  case sound => exact recorded.sound.kept rfl rfl fun _ => rfl
  case fitting => exact recorded.fitting
  case jobs => exact recorded.jobs
  case once => exact recorded.once
  case ended => exact recorded.ended
  case all =>
      intro isOpen
      cases isOpen
  case queued =>
      show state.received ++ [] <+: state.sent.map (·.2)
      rw [List.append_nil]
      exact (List.prefix_append _ _).trans recorded.queued
  case waiting =>
      intro isOpen
      cases isOpen

theorem Recorded.step (recorded : state.Recorded) (event : OutcomeEvent) :
    (state.step event).Recorded := by
  cases event with
  | work event => exact recorded.work event
  | receive count => exact recorded.receive count
  | close => exact recorded.close

/-! ### Many events -/

theorem Recorded.run (events : List OutcomeEvent) {state : OutcomeTraffic}
    (recorded : state.Recorded) : (state.run events).Recorded := by
  induction events generalizing state with
  | nil => exact recorded
  | cons event events inductionHypothesis => exact inductionHypothesis (recorded.step event)

/-- What a run has delivered to its listener. -/
structure Delivered (state : OutcomeTraffic) : Prop where
  /-- No job sends twice. -/
  once : (state.sent.map (·.1)).Nodup
  own : ∀ number outcome, (number, outcome) ∈ state.sent → ∃ job,
    state.accepted[number]? = some job ∧ outcome.operation = job.operation ∧
      job.Fits outcome.report
  rejected : ∀ job channel error, state.service.start job channel = .error error →
    state.step (.work (.accept job channel)) = state
  /-- The records are free of a job when it is about to send, and ever after. -/
  freed : ∀ number outcome,
    state.service.reporting? number = some outcome ∨ (number, outcome) ∈ state.sent →
      state.service.Freed number outcome.operation.id.repository
  queued : state.received ++ state.service.outcomes.held <+: state.sent.map (·.2)
  /-- With a listener to the end, every accepted job has sent when all have ended. -/
  complete : state.service.outcomes.isOpen = true →
    (∀ number < state.accepted.length, (state.service.ended? number).isSome = true) →
      (state.sent.map (·.1)).Perm (List.range state.accepted.length) ∧
        state.received ++ state.service.outcomes.held = state.sent.map (·.2)
  /-- Whoever takes all outcomes that wait receives as many. -/
  takes :
    let after := state.step (.receive state.service.outcomes.held.length)
    (after.received, after.service) =
      (state.received ++ state.service.takeOutcomes.1, state.service.takeOutcomes.2)

theorem Recorded.accepted_of_ended (recorded : state.Recorded) {outcome : JobOutcome}
    (ended : state.service.ended? number = some outcome) :
    ∃ task, state.service.tasks[number]? = some task ∧ task.stage = .ended outcome ∧
      state.accepted[number]? = some task.job ∧ outcome.operation = task.job.operation ∧
      task.job.Fits outcome.report := by
  obtain ⟨task, found, stage⟩ := JobService.ended?_eq_some_iff.mp ended
  have fits := recorded.fitting task (List.mem_of_getElem? found)
  rw [stage] at fits
  refine ⟨task, found, stage, ?_, fits.1, fits.2⟩
  rw [recorded.jobs, List.getElem?_map, found]
  rfl

/-- In every run of any number of jobs and of calls that cancel them, whatever the pace of the listener and
whenever it stops, no job sends two outcomes, the one that it sends is its own and finds the job's
repository released, and with a listener to the end no outcome is missing. -/
theorem run_delivered (client : Client) (scene : Scene) (clock : Clock) (capacity : Nat)
    (events : List OutcomeEvent) :
    ((fresh client scene clock capacity).run events).Delivered := by
  have recorded := Recorded.run events (fresh_recorded client scene clock capacity)
  generalize (fresh client scene clock capacity).run events = state at recorded
  constructor
  case once => exact recorded.once
  case own =>
      intro number outcome entry
      obtain ⟨task, -, -, accepted, operation, fits⟩ :=
        recorded.accepted_of_ended (recorded.ended number outcome entry)
      exact ⟨task.job, accepted, operation, fits⟩
  case rejected =>
      intro job channel error rejected
      exact step_rejected (JobService.accept_of_start_error rejected)
  case freed =>
      rintro number outcome (waits | entry)
      · obtain ⟨task, found, stage⟩ := JobService.reporting?_eq_some_iff.mp waits
        have fits := recorded.fitting task (List.mem_of_getElem? found)
        have standing := JobService.standing?_of_found found
        rw [stage] at fits standing
        rw [fits.1]
        exact recorded.sound.freed standing
      · obtain ⟨task, found, stage, -, operation, -⟩ :=
          recorded.accepted_of_ended (recorded.ended number outcome entry)
        have standing := JobService.standing?_of_found found
        rw [stage] at standing
        rw [operation]
        exact recorded.sound.freed standing
  case queued => exact recorded.queued
  case complete =>
      intro isOpen allEnded
      refine ⟨?_, recorded.waiting isOpen⟩
      apply (List.perm_ext_iff_of_nodup recorded.once List.nodup_range).mpr
      intro number
      rw [List.mem_range]
      constructor
      · intro member
        obtain ⟨⟨_, outcome⟩, entry, rfl⟩ := List.mem_map.mp member
        obtain ⟨task, -, -, accepted, -⟩ :=
          recorded.accepted_of_ended (recorded.ended _ outcome entry)
        exact (List.getElem?_eq_some_iff.mp accepted).1
      · intro inside
        obtain ⟨outcome, ended⟩ := Option.isSome_iff_exists.mp (allEnded number inside)
        exact List.mem_map_of_mem (recorded.all isOpen number outcome ended)
  case takes =>
      rw [JobService.takeOutcomes_eq_receive]
      rfl

end OutcomeTraffic

end BackupClient
