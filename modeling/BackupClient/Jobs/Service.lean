import BackupClient.Engine.Activity
import BackupClient.Jobs.Work
import BackupClient.Time.Clock

/-!
The service that runs jobs.

A job reserves its repository when it is started, and then its token is listed.  When its work has ended
its token is removed, its reservation released, and then its outcome is put into the queue of outcomes,
where it may have to wait for room.  Each of these is a step of its own, and the steps of jobs may come in
any order.
-/

namespace BackupClient

inductive JobStage where
  | accepted
  | queued
  | working (activity : Activity JobReport)
  | unlisted (report : JobReport)
  | released (report : JobReport)
  | reporting (outcome : JobOutcome)
  | ended (outcome : JobOutcome)

/-- A job that was started, with its token and its queue of progress. -/
structure JobTask where
  job : Job
  cancelled : Bool
  channel : ProgressChannel
  startedAt : Instant
  stage : JobStage

def JobTask.operation (task : JobTask) : Operation :=
  task.job.operation

def JobTask.ended? (task : JobTask) : Option JobOutcome :=
  match task.stage with
  | .ended outcome => some outcome
  | _ => none

def JobTask.reporting? (task : JobTask) : Option JobOutcome :=
  match task.stage with
  | .reporting outcome => some outcome
  | _ => none

structure OutcomeChannel where
  capacity : Nat
  held : List JobOutcome
  isOpen : Bool
  deriving DecidableEq, Repr

/-- The service: who holds which repository, which job's token is listed for which operation, and all
jobs that were ever started, the oldest first. -/
structure JobService where
  client : Client
  arbiter : Arbiter
  tokens : List (Operation × Nat)
  tasks : List JobTask
  outcomes : OutcomeChannel
  scene : Scene
  clock : Clock

namespace JobService

def setTask (service : JobService) (number : Nat) (task : JobTask) : JobService :=
  { service with tasks := service.tasks.set number task }

def say (service : JobService) (notices : List Notice) : JobService :=
  { service with scene := service.scene.say notices }

/-- Accept a job that has no flaw and whose repository is free, by reserving it.  The answer is the job's
number. -/
def accept (service : JobService) (job : Job) (channel : ProgressChannel) :
    Except StartError (Nat × JobService) :=
  match job.flaw? with
  | some reason => .error (.invalid job.operation.id reason)
  | none =>
      match service.arbiter.reserve job.operation with
      | .error error => .error (.refused error)
      | .ok arbiter =>
          .ok (service.tasks.length,
            { service with
              arbiter := arbiter
              tasks := service.tasks ++ [⟨job, false, channel, service.clock.now, .accepted⟩] })

def token? (service : JobService) (operation : Operation) : Option Nat :=
  (service.tokens.find? (·.1 = operation)).map (·.2)

def cancelTask (service : JobService) (number : Nat) : JobService :=
  match service.tasks[number]? with
  | some task => service.setTask number { task with cancelled := true }
  | none => service

/-- Cancel the job whose token is listed for an operation.  The answer is its number. -/
def cancel (service : JobService) (operation : Operation) : Option Nat × JobService :=
  match service.token? operation with
  | some number =>
      (some number, (service.say [operation.cancellingNotice]).cancelTask number)
  | none => (none, service)

def setting (service : JobService) (task : JobTask) : Setting :=
  ⟨service.scene, task.cancelled, task.channel⟩

def afterWork (service : JobService) (number : Nat) (task : JobTask)
    (result : Activity JobReport × Setting) : JobService :=
  { service with scene := result.2.scene }.setTask number
    { task with
      cancelled := result.2.cancelled, channel := result.2.channel, stage := .working result.1 }

def listToken (service : JobService) (number : Nat) (task : JobTask) : JobService :=
  let others := service.tokens.filter (·.1 ≠ task.operation)
  { service with tokens := (task.operation, number) :: others }.setTask number
    { task with stage := .queued }

def beginWork (service : JobService) (number : Nat) (task : JobTask) : JobService :=
  let now := service.clock.now
  let service := service.say [task.operation.startedNotice]
  service.afterWork number { task with startedAt := now }
    ((task.job.work service.client now).advance (service.setting task))

def continueWork (service : JobService) (number : Nat) (task : JobTask)
    (activity : Activity JobReport) : JobService :=
  service.afterWork number task (activity.resume (service.setting task))

def removeToken (service : JobService) (number : Nat) (task : JobTask) (report : JobReport) :
    JobService :=
  { service with tokens := service.tokens.filter (·.1 ≠ task.operation) }.setTask number
    { task with stage := .unlisted report }

def releaseRepository (service : JobService) (number : Nat) (task : JobTask)
    (report : JobReport) : JobService :=
  { service with arbiter := (service.arbiter.release task.operation).2 }.setTask number
    { task with stage := .released report }

def conclude (service : JobService) (number : Nat) (task : JobTask) (report : JobReport) :
    JobService :=
  let outcome : JobOutcome := ⟨task.operation, task.startedAt, service.clock.now, report⟩
  (service.say [outcome.notice]).setTask number { task with stage := .reporting outcome }

/-- Put an outcome into the queue, if there is room or nobody listens. -/
def report (service : JobService) (number : Nat) (task : JobTask) (outcome : JobOutcome) :
    JobService :=
  let ended := { task with stage := JobStage.ended outcome }
  if !service.outcomes.isOpen then
    (service.say [task.operation.unheardNotice]).setTask number ended
  else if service.outcomes.held.length < service.outcomes.capacity then
    { service with
      outcomes := { service.outcomes with held := service.outcomes.held ++ [outcome] } }.setTask
      number ended
  else service

def stepTask (service : JobService) (number : Nat) : JobService :=
  match service.tasks[number]? with
  | none => service
  | some task =>
      match task.stage with
      | .accepted => service.listToken number task
      | .queued => service.beginWork number task
      | .working (.finished report) => service.removeToken number task report
      | .working activity => service.continueWork number task activity
      | .unlisted report => service.releaseRepository number task report
      | .released report => service.conclude number task report
      | .reporting outcome => service.report number task outcome
      | .ended _ => service

/-- Start a job: accept it and list its token.  The answer is its number. -/
def start (service : JobService) (job : Job) (channel : ProgressChannel) :
    Except StartError (Nat × JobService) :=
  (service.accept job channel).map fun (number, service) => (number, service.stepTask number)

def ended? (service : JobService) (number : Nat) : Option JobOutcome :=
  service.tasks[number]?.bind JobTask.ended?

def reporting? (service : JobService) (number : Nat) : Option JobOutcome :=
  service.tasks[number]?.bind JobTask.reporting?

def takeOutcomes (service : JobService) : List JobOutcome × JobService :=
  (service.outcomes.held, { service with outcomes := { service.outcomes with held := [] } })

def closeOutcomes (service : JobService) : JobService :=
  { service with outcomes := { service.outcomes with held := [], isOpen := false } }

end JobService

end BackupClient
