import BackupClient.Jobs.Service
import BackupClient.Proofs.Jobs.Arbiter

/-!
What a job has of the two records that all jobs share.

A job reserves its repository before its token is listed, and its token is removed before its repository is
released.  So every token that is listed is the token of the one job that holds its operation, and this is
kept by every step of every job.
-/

namespace BackupClient

/-- A job first has a reservation alone, then a listed token too, then a reservation alone again, and at
last neither. -/
inductive JobStanding where
  | accepted
  | listed
  | unlisted
  | freed
  deriving DecidableEq, Repr

def JobStage.standing : JobStage → JobStanding
  | .accepted => .accepted
  | .queued => .listed
  | .working _ => .listed
  | .unlisted _ => .unlisted
  | .released _ => .freed
  | .reporting _ => .freed
  | .ended _ => .freed

namespace JobService

/-- The operation and the standing of a job that was ever started. -/
def standing? (service : JobService) (number : Nat) : Option (Operation × JobStanding) :=
  service.tasks[number]?.map fun task => (task.operation, task.stage.standing)

/-- The reservation of a job is not released. -/
def Holds (service : JobService) (number : Nat) (operation : Operation) : Prop :=
  ∃ standing, standing ≠ .freed ∧ service.standing? number = some (operation, standing)

/-- What may become of the two records and of the standings in one step that concerns a job. -/
inductive Change (service : JobService) (number : Nat) (next : JobService) : Prop where
  | kept
      (arbiter : next.arbiter = service.arbiter)
      (tokens : next.tokens = service.tokens)
      (standings : ∀ other, next.standing? other = service.standing? other)
  | accepted (operation : Operation)
      (unknown : service.standing? number = none)
      (reserved : service.arbiter.reserve operation = .ok next.arbiter)
      (tokens : next.tokens = service.tokens)
      (standings : ∀ other, next.standing? other =
        if other = number then some (operation, .accepted) else service.standing? other)
  | listed (operation : Operation)
      (before : service.standing? number = some (operation, .accepted))
      (arbiter : next.arbiter = service.arbiter)
      (tokens : next.tokens = (operation, number) :: service.tokens.filter (·.1 ≠ operation))
      (standings : ∀ other, next.standing? other =
        if other = number then some (operation, .listed) else service.standing? other)
  | unlisted (operation : Operation)
      (before : service.standing? number = some (operation, .listed))
      (arbiter : next.arbiter = service.arbiter)
      (tokens : next.tokens = service.tokens.filter (·.1 ≠ operation))
      (standings : ∀ other, next.standing? other =
        if other = number then some (operation, .unlisted) else service.standing? other)
  | released (operation : Operation)
      (before : service.standing? number = some (operation, .unlisted))
      (arbiter : next.arbiter = (service.arbiter.release operation).2)
      (tokens : next.tokens = service.tokens)
      (standings : ∀ other, next.standing? other =
        if other = number then some (operation, .freed) else service.standing? other)

variable {service next : JobService} {number other : Nat} {operation : Operation}

/-! ### The steps -/

theorem standing?_of_found {task : JobTask} (found : service.tasks[number]? = some task) :
    service.standing? number = some (task.operation, task.stage.standing) := by
  simp [standing?, found]

theorem standing?_of_set {old task : JobTask} {standing : JobStanding}
    (found : service.tasks[number]? = some old)
    (tasks : next.tasks = service.tasks.set number task)
    (owner : task.operation = operation) (stands : task.stage.standing = standing) (other : Nat) :
    next.standing? other =
      if other = number then some (operation, standing) else service.standing? other := by
  obtain ⟨inside, -⟩ := List.getElem?_eq_some_iff.mp found
  unfold standing?
  rw [tasks]
  by_cases same : other = number
  · subst same
    simp [inside, owner, stands]
  · rw [List.getElem?_set_ne (Ne.symm same), if_neg same]

theorem Change.of_set {old task : JobTask} (found : service.tasks[number]? = some old)
    (tasks : next.tasks = service.tasks.set number task)
    (arbiter : next.arbiter = service.arbiter) (tokens : next.tokens = service.tokens)
    (owner : task.operation = old.operation)
    (stands : task.stage.standing = old.stage.standing) : service.Change number next := by
  refine .kept arbiter tokens fun other => ?_
  rw [standing?_of_set found tasks owner stands]
  split
  case isTrue same => rw [same, standing?_of_found found]
  case isFalse => rfl

theorem accept_eq_ok_iff {job : Job} {channel : ProgressChannel} :
    service.accept job channel = .ok (number, next) ↔
      job.flaw? = none ∧ ∃ arbiter, service.arbiter.reserve job.operation = .ok arbiter ∧
        number = service.tasks.length ∧
        next =
          { service with
            arbiter := arbiter
            tasks := service.tasks ++ [⟨job, false, channel, service.clock.now, .accepted⟩] } := by
  unfold accept
  cases flaw : job.flaw? with
  | some reason => simp
  | none =>
      cases reserved : service.arbiter.reserve job.operation with
      | error refusal => simp
      | ok arbiter => simp [eq_comm]

theorem start_eq_ok_iff {job : Job} {channel : ProgressChannel} :
    service.start job channel = .ok (number, next) ↔
      ∃ accepted, service.accept job channel = .ok (number, accepted) ∧
        next = accepted.stepTask number := by
  unfold start
  cases service.accept job channel with
  | error refusal => simp [Except.map]
  | ok answer =>
      obtain ⟨newest, accepted⟩ := answer
      simp only [Except.map, Except.ok.injEq, Prod.mk.injEq]
      constructor
      · rintro ⟨rfl, rfl⟩
        exact ⟨accepted, ⟨rfl, rfl⟩, rfl⟩
      · rintro ⟨_, ⟨rfl, rfl⟩, rfl⟩
        exact ⟨rfl, rfl⟩

theorem start_eq_error_iff {job : Job} {channel : ProgressChannel} {error : StartError} :
    service.start job channel = .error error ↔ service.accept job channel = .error error := by
  unfold start
  cases service.accept job channel with
  | error refusal => simp [Except.map]
  | ok answer => simp [Except.map]

theorem accept_change {job : Job} {channel : ProgressChannel}
    (accepted : service.accept job channel = .ok (number, next)) :
    service.Change number next := by
  obtain ⟨-, arbiter, reserved, rfl, rfl⟩ := accept_eq_ok_iff.mp accepted
  refine .accepted job.operation (by simp [standing?]) reserved rfl fun other => ?_
  unfold standing?
  rw [Keyed.getElem?_concat]
  split <;> rfl

theorem report_change {task : JobTask} {outcome : JobOutcome}
    (found : service.tasks[number]? = some task) (stage : task.stage = .reporting outcome) :
    service.Change number (service.report number task outcome) := by
  unfold report
  split
  · exact .of_set found rfl rfl rfl rfl (by rw [stage]; rfl)
  · split
    · exact .of_set found rfl rfl rfl rfl (by rw [stage]; rfl)
    · exact .kept rfl rfl fun _ => rfl

theorem stepTask_change (service : JobService) (number : Nat) :
    service.Change number (service.stepTask number) := by
  unfold stepTask
  cases found : service.tasks[number]? with
  | none => exact .kept rfl rfl fun _ => rfl
  | some task =>
      have before := standing?_of_found found
      dsimp only
      split
      case h_1 stage =>
          rw [stage] at before
          exact .listed task.operation before rfl rfl (standing?_of_set found rfl rfl rfl)
      case h_2 stage =>
          exact .of_set found rfl rfl rfl rfl (by rw [stage]; rfl)
      case h_3 report stage =>
          rw [stage] at before
          exact .unlisted task.operation before rfl rfl (standing?_of_set found rfl rfl rfl)
      case h_4 activity unfinished stage =>
          exact .of_set found rfl rfl rfl rfl (by rw [stage]; rfl)
      case h_5 report stage =>
          rw [stage] at before
          exact .released task.operation before rfl rfl (standing?_of_set found rfl rfl rfl)
      case h_6 report stage =>
          exact .of_set found rfl rfl rfl rfl (by rw [stage]; rfl)
      case h_7 outcome stage => exact report_change found stage
      case h_8 => exact .kept rfl rfl fun _ => rfl

end JobService

end BackupClient
