import BackupClient.Jobs.Service

/-!
Running the jobs of a service in virtual time.

Jobs make progress only while somebody waits.  Those that can go on do so in the order in which they
became able to; when none can, time jumps to the next moment at which one can.
-/

namespace BackupClient

/-- A service with the jobs that can go on, those that wait to report, the handles that are held, and the
guard that is kept. -/
structure Schedule where
  service : JobService
  ready : List Nat
  reporting : List Nat
  handles : List Nat
  kept : Option Operation

namespace Schedule

def wake (schedule : Schedule) (number : Nat) : Schedule :=
  if schedule.ready.contains number then schedule
  else { schedule with ready := schedule.ready ++ [number] }

def start (schedule : Schedule) (job : Job) (channel : ProgressChannel) :
    Except StartError (Nat × Schedule) :=
  (schedule.service.start job channel).map fun (number, service) =>
    (number,
      { schedule with service := service, handles := number :: schedule.handles }.wake number)

/-- Cancel the job of an operation.  The answer is whether there was one. -/
def cancel (schedule : Schedule) (operation : Operation) : Bool × Schedule :=
  match schedule.service.cancel operation with
  | (some number, service) => (true, { schedule with service := service }.wake number)
  | (none, service) => (false, { schedule with service := service })

/-- Cancel the job of a handle.  The answer is whether the handle is held. -/
def cancelHandle (schedule : Schedule) (number : Nat) : Bool × Schedule :=
  if schedule.handles.contains number then
    (true, { schedule with service := schedule.service.cancelTask number }.wake number)
  else (false, schedule)

def dropHandle (schedule : Schedule) (number : Nat) : Bool × Schedule :=
  (schedule.handles.contains number,
    { schedule with handles := schedule.handles.filter (· ≠ number) })

/-- The most steps that a job takes before it waits or ends. -/
def stepsPerTurn : Nat := 6

def turn (service : JobService) (number : Nat) : Nat → JobService
  | 0 => service
  | steps + 1 =>
      if (service.reporting? number).isSome then service
      else turn (service.stepTask number) number steps

/-- Let the jobs that wait to report do so, as far as there is room. -/
def reportAll (schedule : Schedule) : List Nat → Schedule
  | [] => schedule
  | number :: rest =>
      let service := schedule.service.stepTask number
      if (service.reporting? number).isSome then
        reportAll { schedule with service := service } rest
      else
        reportAll
          { schedule with
            service := service, reporting := schedule.reporting.filter (· ≠ number) } rest

def runTask (schedule : Schedule) (number : Nat) : Schedule :=
  let service := turn schedule.service number stepsPerTurn
  let schedule := { schedule with service := service }
  let schedule :=
    if (service.reporting? number).isSome ∧ ¬ schedule.reporting.contains number then
      { schedule with reporting := schedule.reporting ++ [number] }
    else schedule
  schedule.reportAll schedule.reporting

def runReady (fuel : Nat) (schedule : Schedule) : Schedule :=
  match fuel with
  | 0 => schedule
  | fuel + 1 =>
      match schedule.ready with
      | [] => schedule
      | number :: rest => runReady fuel ({ schedule with ready := rest }.runTask number)

def deadline? (task : JobTask) : Option Nat :=
  match task.stage with
  | .working activity => activity.deadline?
  | _ => none

def due (schedule : Schedule) (now : Nat) : List Nat :=
  (List.range schedule.service.tasks.length).filter fun number =>
    match schedule.service.tasks[number]? with
    | some task => (deadline? task).any (· ≤ now)
    | none => false

def moveTo (schedule : Schedule) (now : Nat) : Schedule :=
  let service := schedule.service
  let schedule := { schedule with service := { service with scene := { service.scene with now := now } } }
  (schedule.due now).foldl wake schedule

def nextMoment (schedule : Schedule) (limit : Nat) : Option Nat :=
  ((schedule.service.tasks.filterMap deadline?).filter (· < limit)).min?

/-- Let all jobs go on, and time too, until a limit or until a condition holds. -/
def runUntil (fuel : Nat) (limit : Nat) (stop : Schedule → Bool) (schedule : Schedule) : Schedule :=
  match fuel with
  | 0 => schedule
  | fuel + 1 =>
      let schedule := schedule.runReady (fuel + 1)
      if stop schedule then schedule
      else
        match schedule.nextMoment limit with
        | some moment => runUntil fuel limit stop (schedule.moveTo moment)
        | none => schedule.moveTo limit

/-- Let the jobs that wait to report do so first, then let time pass. -/
def settle (fuel : Nat) (schedule : Schedule) (milliseconds : Nat) : Schedule :=
  let schedule := schedule.reportAll schedule.reporting
  runUntil fuel (schedule.service.scene.now + milliseconds) (fun _ => false) schedule

inductive Waited where
  | outcome (outcome : JobOutcome)
  | noHandle
  | timeout
  deriving DecidableEq

/-- The number of milliseconds that a job is waited for. -/
def waitLimit : Nat := 3600000

def wait (fuel : Nat) (schedule : Schedule) (number : Nat) : Waited × Schedule :=
  if schedule.handles.contains number then
    let schedule := { schedule with handles := schedule.handles.filter (· ≠ number) }
    let schedule := schedule.reportAll schedule.reporting
    let schedule :=
      runUntil fuel (schedule.service.scene.now + waitLimit)
        (fun schedule => (schedule.service.ended? number).isSome) schedule
    match schedule.service.ended? number with
    | some outcome => (.outcome outcome, schedule)
    | none => (.timeout, schedule)
  else (.noHandle, schedule)

/-- Reserve a repository beside the jobs.  The guard takes the place of an earlier one. -/
def reserve (schedule : Schedule) (operation : Operation) : Except ArbiterError Schedule :=
  (schedule.service.arbiter.reserve operation).map fun arbiter =>
    let arbiter :=
      match schedule.kept with
      | some earlier => (arbiter.release earlier).2
      | none => arbiter
    { schedule with
      service := { schedule.service with arbiter := arbiter }, kept := some operation }

def releaseKept (schedule : Schedule) : Bool × Schedule :=
  match schedule.kept with
  | some operation =>
      (true,
        { schedule with
          service :=
            { schedule.service with
              arbiter := (schedule.service.arbiter.release operation).2 }
          kept := none })
  | none => (false, schedule)

def takeProgress (schedule : Schedule) (number : Nat) : List BackupProgress × Schedule :=
  match schedule.service.tasks[number]? with
  | some task =>
      let (ticks, channel) := task.channel.drain
      let schedule :=
        { schedule with service := schedule.service.setTask number { task with channel := channel } }
      (ticks, if ticks.isEmpty then schedule else schedule.wake number)
  | none => ([], schedule)

/-- Stop reading a job's progress.  The answer is whether it was read. -/
def dropProgress (schedule : Schedule) (number : Nat) : Bool × Schedule :=
  match schedule.service.tasks[number]? with
  | some task =>
      if task.channel.isOpen then
        (true,
          { schedule with
            service := schedule.service.setTask number { task with channel := task.channel.close }
            }.wake number)
      else (false, schedule)
  | none => (false, schedule)

/-- Stop listening to outcomes.  The answer is whether anybody listened. -/
def dropOutcomes (schedule : Schedule) : Bool × Schedule :=
  (schedule.service.outcomes.isOpen,
    { schedule with service := schedule.service.closeOutcomes })

end Schedule

end BackupClient
