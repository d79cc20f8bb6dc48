import BackupClient.Command.Supervisor
import Mathlib.Logic.Relation

/-!
Supervised processes under every schedule.

The token is cancelled, the process exits and its output ends at any time and in any order, and a supervisor
notices each of them whenever it comes to it.  Nothing is assumed of the clock that it reads.  What it asks
for escalates in two stages, one before the exit and one after it.
-/

namespace BackupClient

inductive SupervisorStage where
  | exit
  | output
  deriving DecidableEq, Repr

/-- A request, with the moment and the stage in which it was sent. -/
structure SentRequest where
  moment : Nat
  stage : SupervisorStage
  request : SupervisorRequest
  deriving DecidableEq, Repr

namespace SupervisorRequest

def isForGroup : SupervisorRequest → Bool
  | .terminate _ | .forceKill _ => true
  | .killAlone _ => false

end SupervisorRequest

namespace SupervisorPhase

def awaitsExit : SupervisorPhase → Bool
  | .waiting | .interrupted _ | .killed => true
  | _ => false

def awaitsOutput : SupervisorPhase → Bool
  | .draining | .drainInterrupted _ | .drainKilled => true
  | _ => false

theorem awaitsExit_of_awaitsOutput {phase : SupervisorPhase} (awaited : phase.awaitsOutput = true) :
    phase.awaitsExit = false := by
  cases phase with
  | waiting => cases awaited
  | interrupted => cases awaited
  | killed => cases awaited
  | draining => rfl
  | drainInterrupted => rfl
  | drainKilled => rfl
  | returned => rfl

end SupervisorPhase

/-! ### What a supervisor does -/

namespace Supervisor

def stage (supervisor : Supervisor) : SupervisorStage :=
  if supervisor.exit.isNone then .exit else .output

inductive Goes (now : Nat) (supervisor : Supervisor) :
    SupervisorEvent → List SupervisorRequest × Supervisor → Prop where
  | stays (event : SupervisorEvent) : Goes now supervisor event ([], supervisor)
  | concludes (result : Except String (Option Int)) (awaited : supervisor.phase.awaitsExit = true)
      (finished : (∃ reason, result = .error reason) ∨ supervisor.output.isSome) :
      Goes now supervisor (.exited result)
        ([], { supervisor with exit := some result, phase := .returned })
  | drains (result : Except String (Option Int)) (awaited : supervisor.phase.awaitsExit = true) :
      Goes now supervisor (.exited result)
        ([], { supervisor with exit := some result, phase := .draining })
  | drainsInterrupted (result : Except String (Option Int))
      (awaited : supervisor.phase.awaitsExit = true) (known : supervisor.cancelled = true) :
      Goes now supervisor (.exited result)
        ([.terminate supervisor.process],
          { supervisor with
            exit := some result, phase := .drainInterrupted (supervisor.graceEnd now)
            interfered := true })
  | reads (failure : Option String) :
      Goes now supervisor (.outputEnded failure)
        ([], { supervisor with output := some (supervisor.output.getD failure) })
  | readsLast (failure : Option String) (awaited : supervisor.phase.awaitsOutput = true) :
      Goes now supervisor (.outputEnded failure)
        ([], { supervisor with output := some (supervisor.output.getD failure), phase := .returned })
  | learns : Goes now supervisor .cancelled ([], { supervisor with cancelled := true })
  | interrupts (phase : supervisor.phase = .waiting) :
      Goes now supervisor .cancelled
        ([.terminate supervisor.process],
          { supervisor with
            phase := .interrupted (supervisor.graceEnd now), cancelled := true, interfered := true })
  | interruptsDrain (phase : supervisor.phase = .draining) :
      Goes now supervisor .cancelled
        ([.terminate supervisor.process],
          { supervisor with
            phase := .drainInterrupted (supervisor.graceEnd now), cancelled := true
            interfered := true })
  | kills (deadline : Nat) (phase : supervisor.phase = .interrupted deadline)
      (passed : deadline ≤ now) :
      Goes now supervisor .tick
        ([.forceKill supervisor.process, .killAlone supervisor.process],
          { supervisor with phase := .killed })
  | killsDrain (deadline : Nat) (phase : supervisor.phase = .drainInterrupted deadline)
      (passed : deadline ≤ now) :
      Goes now supervisor .tick
        ([.forceKill supervisor.process], { supervisor with phase := .drainKilled })

variable {supervisor : Supervisor}

theorem afterExit_goes (now : Nat) (result : Except String (Option Int))
    (awaited : supervisor.phase.awaitsExit = true) :
    supervisor.Goes now (.exited result) ({ supervisor with exit := some result }.afterExit now) := by
  unfold afterExit
  split
  case h_1 _ reason failed =>
      apply Goes.concludes result awaited
      exact Or.inl ⟨reason, Option.some.inj failed⟩
  case h_2 ended _ =>
      apply Goes.concludes result awaited
      exact Or.inr (Option.isSome_iff_exists.mpr ⟨_, ended⟩)
  case h_3 =>
      split
      case isTrue known => exact Goes.drainsInterrupted result awaited known
      case isFalse => exact Goes.drains result awaited

theorem onOutput_goes (now : Nat) (failure : Option String) :
    supervisor.Goes now (.outputEnded failure) ([], supervisor.onOutput failure) := by
  unfold onOutput
  dsimp only
  split
  case h_1 phase => exact .readsLast failure (by rw [phase]; rfl)
  case h_2 phase => exact .readsLast failure (by rw [phase]; rfl)
  case h_3 phase => exact .readsLast failure (by rw [phase]; rfl)
  case h_4 => exact .reads failure

theorem onCancel_goes (now : Nat) : supervisor.Goes now .cancelled (supervisor.onCancel now) := by
  unfold onCancel
  split
  case h_1 => exact .stays _
  case h_2 phase => exact .interrupts phase
  case h_3 phase => exact .interruptsDrain phase
  case h_4 => exact .learns

theorem onTick_goes (now : Nat) : supervisor.Goes now .tick (supervisor.onTick now) := by
  unfold onTick
  split
  case h_1 deadline phase =>
      split
      case isTrue passed => exact .kills deadline phase passed
      case isFalse => exact .stays _
  case h_2 deadline phase =>
      split
      case isTrue passed => exact .killsDrain deadline phase passed
      case isFalse => exact .stays _
  case h_3 => exact .stays _

theorem step_goes (supervisor : Supervisor) (now : Nat) (event : SupervisorEvent) :
    supervisor.Goes now event (supervisor.step now event) := by
  cases event with
  | exited result =>
      unfold step onExit
      dsimp only
      split
      case h_1 phase => exact afterExit_goes now result (by rw [phase]; rfl)
      case h_2 phase => exact afterExit_goes now result (by rw [phase]; rfl)
      case h_3 phase => exact afterExit_goes now result (by rw [phase]; rfl)
      case h_4 => exact .stays _
  | outputEnded failure => exact onOutput_goes now failure
  | cancelled => exact onCancel_goes now
  | tick => exact onTick_goes now

end Supervisor

/-! ### Schedules -/

/-- A supervised process with all that stands around it: the clock, the token, how the process has ended and
how reading its output has ended, once they have, and the requests that were sent. -/
structure Supervision where
  now : Nat
  cancelled : Bool
  exit : Option (Except String (Option Int))
  output : Option (Option String)
  supervisor : Supervisor
  sent : List SentRequest

namespace Supervision

/-- The supervision of a process that was just started. -/
def start (process grace lastMoment now : Nat) : Supervision :=
  ⟨now, false, none, none, .start process grace lastMoment, []⟩

/-- What the supervisor can notice: what has happened, and at any time that time has passed. -/
def Allows (supervision : Supervision) : SupervisorEvent → Prop
  | .exited result => supervision.exit = some result
  | .outputEnded failure => supervision.output = some failure
  | .cancelled => supervision.cancelled = true
  | .tick => True

def proceed (supervision : Supervision) (went : List SupervisorRequest × Supervisor) : Supervision :=
  { supervision with
    supervisor := went.2
    sent := supervision.sent ++ went.1.map (⟨supervision.now, went.2.stage, ·⟩) }

def notice (supervision : Supervision) (event : SupervisorEvent) : Supervision :=
  supervision.proceed (supervision.supervisor.step supervision.now event)

inductive Step (supervision : Supervision) : Supervision → Prop where
  | clock (moment : Nat) : Step supervision { supervision with now := moment }
  | cancel : Step supervision { supervision with cancelled := true }
  | exits (result : Except String (Option Int)) (unfinished : supervision.exit = none) :
      Step supervision { supervision with exit := some result }
  | ends (failure : Option String) (unfinished : supervision.output = none) :
      Step supervision { supervision with output := some failure }
  | notices (event : SupervisorEvent) (allowed : supervision.Allows event) :
      Step supervision (supervision.notice event)

def Reaches : Supervision → Supervision → Prop :=
  Relation.ReflTransGen Step

/-- The requests to the group in a stage, each with its moment. -/
def groupRequests (supervision : Supervision) (stage : SupervisorStage) :
    List (Nat × SupervisorRequest) :=
  (supervision.sent.filter fun sent => sent.stage = stage ∧ sent.request.isForGroup).map
    fun sent => (sent.moment, sent.request)

/-- One stage: nothing is sent, or the group is asked to stop, or it is killed after the grace as well. -/
inductive Escalates (process : Nat) (graceEnd : Nat → Nat) :
    List (Nat × SupervisorRequest) → Prop where
  | quiet : Escalates process graceEnd []
  | asked (moment : Nat) : Escalates process graceEnd [(moment, .terminate process)]
  | killed (moment later : Nat) (patient : graceEnd moment ≤ later) :
      Escalates process graceEnd [(moment, .terminate process), (later, .forceKill process)]

/-- What was sent in the two stages, by the phase that the supervisor is in. -/
def Phased (process : Nat) (graceEnd : Nat → Nat) (first second : List (Nat × SupervisorRequest)) :
    SupervisorPhase → Prop
  | .waiting => first = [] ∧ second = []
  | .interrupted deadline =>
      (∃ moment, graceEnd moment = deadline ∧ first = [(moment, .terminate process)]) ∧ second = []
  | .killed | .draining => Escalates process graceEnd first ∧ second = []
  | .drainInterrupted deadline =>
      Escalates process graceEnd first ∧
        ∃ moment, graceEnd moment = deadline ∧ second = [(moment, .terminate process)]
  | .drainKilled | .returned => Escalates process graceEnd first ∧ Escalates process graceEnd second

/-- What holds of a supervision in every state: the supervisor knows only what has happened, and its phase
tells what was sent. -/
structure Sound (process : Nat) (graceEnd : Nat → Nat) (supervision : Supervision) : Prop where
  process_eq : supervision.supervisor.process = process
  graceEnd_eq : supervision.supervisor.graceEnd = graceEnd
  exit_happened : ∀ result, supervision.supervisor.exit = some result → supervision.exit = some result
  output_happened : ∀ failure, supervision.supervisor.output = some failure →
    supervision.output = some failure
  cancel_happened : supervision.supervisor.cancelled = true → supervision.cancelled = true
  cancel_known : supervision.supervisor.interfered = true → supervision.supervisor.cancelled = true
  interfered_iff : supervision.supervisor.interfered = true ↔ supervision.sent ≠ []
  awaitsExit_eq : supervision.supervisor.phase.awaitsExit = supervision.supervisor.exit.isNone
  phased : Phased process graceEnd (supervision.groupRequests .exit) (supervision.groupRequests .output)
    supervision.supervisor.phase
  complete : supervision.supervisor.phase = .returned →
    (∃ reason, supervision.supervisor.exit = some (.error reason)) ∨
      supervision.supervisor.output.isSome

variable {process : Nat} {graceEnd : Nat → Nat} {supervision next : Supervision} {event : SupervisorEvent}
  {first second : List (Nat × SupervisorRequest)}

theorem Phased.escalates_of_awaitsExit {phase : SupervisorPhase}
    (phased : Phased process graceEnd first second phase) (awaited : phase.awaitsExit = true) :
    Escalates process graceEnd first ∧ second = [] := by
  cases phase with
  | waiting =>
      obtain ⟨rfl, nothing⟩ := phased
      exact ⟨.quiet, nothing⟩
  | interrupted deadline =>
      obtain ⟨⟨moment, -, rfl⟩, nothing⟩ := phased
      exact ⟨.asked moment, nothing⟩
  | killed => exact phased
  | draining => cases awaited
  | drainInterrupted deadline => cases awaited
  | drainKilled => cases awaited
  | returned => cases awaited

theorem Phased.escalates {phase : SupervisorPhase}
    (phased : Phased process graceEnd first second phase) :
    Escalates process graceEnd first ∧ Escalates process graceEnd second := by
  have quiet {escalated : Prop} (only : escalated ∧ second = []) :
      escalated ∧ Escalates process graceEnd second := ⟨only.1, only.2 ▸ .quiet⟩
  cases phase with
  | waiting => exact quiet (phased.escalates_of_awaitsExit rfl)
  | interrupted deadline => exact quiet (phased.escalates_of_awaitsExit rfl)
  | killed => exact quiet phased
  | draining => exact quiet phased
  | drainInterrupted deadline =>
      obtain ⟨escalates, moment, -, rfl⟩ := phased
      exact ⟨escalates, .asked moment⟩
  | drainKilled => exact phased
  | returned => exact phased

@[simp]
theorem proceed_supervisor (supervision : Supervision) (went : List SupervisorRequest × Supervisor) :
    (supervision.proceed went).supervisor = went.2 := rfl

theorem groupRequests_proceed (supervision : Supervision)
    (went : List SupervisorRequest × Supervisor) (stage : SupervisorStage) :
    (supervision.proceed went).groupRequests stage = supervision.groupRequests stage ++
      if went.2.stage = stage then
        (went.1.filter (·.isForGroup)).map fun request => (supervision.now, request)
      else [] := by
  unfold groupRequests proceed
  rw [List.filter_append, List.map_append, List.filter_map, List.map_map]
  by_cases same : went.2.stage = stage
  · simp [same, Function.comp_def]
  · simp [same, Function.comp_def]

theorem proceed_nil (supervision : Supervision) (after : Supervisor) :
    supervision.proceed ([], after) = { supervision with supervisor := after } := by
  simp [proceed]

theorem Sound.interfered_of_request (sound : Sound process graceEnd supervision) {stage : SupervisorStage}
    {request : Nat × SupervisorRequest} (requested : supervision.groupRequests stage = [request]) :
    supervision.supervisor.interfered = true := by
  apply sound.interfered_iff.mpr
  intro nothing
  rw [groupRequests, nothing] at requested
  cases requested

theorem Sound.notice (sound : Sound process graceEnd supervision) (allowed : supervision.Allows event) :
    Sound process graceEnd (supervision.notice event) := by
  obtain rfl := sound.process_eq
  obtain rfl := sound.graceEnd_eq
  have goes := supervision.supervisor.step_goes supervision.now event
  unfold notice
  generalize supervision.supervisor.step supervision.now event = went at goes ⊢
  -- What was noticed of the output first is kept, and nothing else happens to the output later.
  have kept (failure : Option String) (allowed : supervision.output = some failure) :
      supervision.output = some (supervision.supervisor.output.getD failure) := by
    cases noticed : supervision.supervisor.output with
    | none => exact allowed
    | some earlier => exact sound.output_happened earlier noticed
  cases goes with
  | stays =>
      rw [proceed_nil]
      exact sound
  | concludes result awaited finished =>
      rw [proceed_nil]
      refine { sound with
        exit_happened := ?_, awaitsExit_eq := rfl, phased := ?_, complete := ?_ }
      · rintro _ ⟨⟩
        exact allowed
      · exact sound.phased.escalates
      · intro _
        rcases finished with ⟨reason, rfl⟩ | ended
        · exact Or.inl ⟨reason, rfl⟩
        · exact Or.inr ended
  | drains result awaited =>
      rw [proceed_nil]
      refine { sound with
        exit_happened := ?_, awaitsExit_eq := rfl, phased := ?_, complete := nofun }
      · rintro _ ⟨⟩
        exact allowed
      · exact sound.phased.escalates_of_awaitsExit awaited
  | drainsInterrupted result awaited known =>
      refine { sound with
        exit_happened := ?_, cancel_known := fun _ => known, interfered_iff := ?_,
        awaitsExit_eq := rfl, phased := ?_, complete := nofun }
      · rintro _ ⟨⟩
        exact allowed
      · simp [proceed]
      · obtain ⟨first, second⟩ := sound.phased.escalates_of_awaitsExit awaited
        rw [groupRequests_proceed, groupRequests_proceed, second]
        simpa [Phased, Supervisor.stage, SupervisorRequest.isForGroup] using first
  | reads failure =>
      rw [proceed_nil]
      refine { sound with output_happened := ?_, complete := ?_ }
      · rintro _ ⟨⟩
        exact kept failure allowed
      · intro _
        exact Or.inr rfl
  | readsLast failure awaited =>
      rw [proceed_nil]
      refine { sound with
        output_happened := ?_, awaitsExit_eq := ?_, phased := ?_, complete := ?_ }
      · rintro _ ⟨⟩
        exact kept failure allowed
      · rw [← sound.awaitsExit_eq]
        exact (SupervisorPhase.awaitsExit_of_awaitsOutput awaited).symm
      · exact sound.phased.escalates
      · intro _
        exact Or.inr rfl
  | learns =>
      rw [proceed_nil]
      exact { sound with cancel_happened := fun _ => allowed, cancel_known := fun _ => rfl }
  | interrupts phase =>
      have awaited := sound.awaitsExit_eq
      have phased := sound.phased
      rw [phase] at awaited phased
      refine { sound with
        cancel_happened := fun _ => allowed, cancel_known := fun _ => rfl, interfered_iff := ?_
        awaitsExit_eq := awaited, phased := ?_, complete := nofun }
      · simp [proceed]
      · obtain ⟨first, second⟩ := phased
        rw [groupRequests_proceed, groupRequests_proceed, first, second]
        simp [Phased, Supervisor.stage, ← awaited, SupervisorPhase.awaitsExit,
          SupervisorRequest.isForGroup]
  | interruptsDrain phase =>
      have awaited := sound.awaitsExit_eq
      have phased := sound.phased
      rw [phase] at awaited phased
      refine { sound with
        cancel_happened := fun _ => allowed, cancel_known := fun _ => rfl, interfered_iff := ?_
        awaitsExit_eq := awaited, phased := ?_, complete := nofun }
      · simp [proceed]
      · obtain ⟨first, second⟩ := phased
        rw [groupRequests_proceed, groupRequests_proceed, second]
        simpa [Phased, Supervisor.stage, ← awaited, SupervisorPhase.awaitsExit,
          SupervisorRequest.isForGroup] using first
  | kills deadline phase passed =>
      have awaited := sound.awaitsExit_eq
      have phased := sound.phased
      rw [phase] at awaited phased
      obtain ⟨⟨moment, rfl, first⟩, second⟩ := phased
      refine { sound with
        interfered_iff := ?_, awaitsExit_eq := awaited, phased := ?_, complete := nofun }
      · simp [proceed, sound.interfered_of_request first]
      · rw [groupRequests_proceed, groupRequests_proceed, first, second]
        simpa [Phased, Supervisor.stage, ← awaited, SupervisorPhase.awaitsExit,
          SupervisorRequest.isForGroup] using Escalates.killed moment supervision.now passed
  | killsDrain deadline phase passed =>
      have awaited := sound.awaitsExit_eq
      have phased := sound.phased
      rw [phase] at awaited phased
      obtain ⟨first, moment, rfl, second⟩ := phased
      refine { sound with
        interfered_iff := ?_, awaitsExit_eq := awaited, phased := ?_, complete := nofun }
      · simp [proceed, sound.interfered_of_request second]
      · rw [groupRequests_proceed, groupRequests_proceed, second]
        simpa [Phased, Supervisor.stage, ← awaited, SupervisorPhase.awaitsExit,
          SupervisorRequest.isForGroup] using
          And.intro first (Escalates.killed moment supervision.now passed)

theorem Sound.step (sound : Sound process graceEnd supervision) (step : Step supervision next) :
    Sound process graceEnd next := by
  cases step with
  | clock moment => exact { sound with }
  | cancel => exact { sound with cancel_happened := fun _ => rfl }
  | exits result unfinished =>
      refine { sound with exit_happened := ?_ }
      intro noticed known
      exact absurd (unfinished.symm.trans (sound.exit_happened noticed known)) nofun
  | ends failure unfinished =>
      refine { sound with output_happened := ?_ }
      intro noticed known
      exact absurd (unfinished.symm.trans (sound.output_happened noticed known)) nofun
  | notices event allowed => exact sound.notice allowed

theorem Sound.of_reaches (sound : Sound process graceEnd supervision)
    (reaches : Reaches supervision next) : Sound process graceEnd next := by
  induction reaches with
  | refl => exact sound
  | tail _ step inductionHypothesis => exact inductionHypothesis.step step

/-! ### Results -/

end Supervision

end BackupClient
