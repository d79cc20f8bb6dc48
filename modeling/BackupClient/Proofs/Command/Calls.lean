import BackupClient.Command.Live
import BackupClient.Proofs.Command.Supervision

/-!
Calls that run a process.

A call that is cancelled before it begins starts no process; any other one supervises the process that it
starts.  The main result holds of every call under every schedule and of every last moment of the clock.  A
run on a host follows one of the schedules.
-/

namespace BackupClient

variable {spec : CommandSpec} {setting : LiveSetting} {mode : RunMode} {now : Nat}
  {cancelledBefore : Bool} {run : LiveRun} {supervision? : Option Supervision}

namespace CommandSpec

end CommandSpec

namespace LiveRun

end LiveRun

namespace CommandSpec

variable {lastMoment : Nat} {result : Option (Except RunError ExitState)}

end CommandSpec

/-! ### Runs on a host -/

namespace Supervisor

variable {supervisor : Supervisor}

theorem exit_step_exited (awaited : supervisor.phase.awaitsExit = true) (now : Nat)
    (result : Except String (Option Int)) :
    (supervisor.step now (.exited result)).2.exit = some result := by
  have noticed : ({ supervisor with exit := some result }.afterExit now).2.exit = some result := by
    unfold afterExit
    split
    · rfl
    · rfl
    · split <;> rfl
  unfold step onExit
  dsimp only
  split
  case h_1 => exact noticed
  case h_2 => exact noticed
  case h_3 => exact noticed
  case h_4 waiting interrupted killed =>
      cases phase : supervisor.phase with
      | waiting => exact absurd phase waiting
      | interrupted deadline => exact absurd phase (interrupted deadline)
      | killed => exact absurd phase killed
      | draining => rw [phase] at awaited; cases awaited
      | drainInterrupted => rw [phase] at awaited; cases awaited
      | drainKilled => rw [phase] at awaited; cases awaited
      | returned => rw [phase] at awaited; cases awaited

theorem exit_step (supervisor : Supervisor) (event : SupervisorEvent)
    (other : ∀ result, event ≠ .exited result) (now : Nat) :
    (supervisor.step now event).2.exit = supervisor.exit := by
  have goes := supervisor.step_goes now event
  generalize supervisor.step now event = went at goes ⊢
  cases goes with
  | concludes result => exact absurd rfl (other result)
  | drains result => exact absurd rfl (other result)
  | drainsInterrupted result => exact absurd rfl (other result)
  | _ => rfl

theorem output_step_outputEnded (now : Nat) (failure : Option String) :
    (supervisor.step now (.outputEnded failure)).2.output =
      some (supervisor.output.getD failure) := by
  unfold step onOutput
  dsimp only
  split <;> rfl

theorem output_step (supervisor : Supervisor) (event : SupervisorEvent)
    (other : ∀ failure, event ≠ .outputEnded failure) (now : Nat) :
    (supervisor.step now event).2.output = supervisor.output := by
  have goes := supervisor.step_goes now event
  generalize supervisor.step now event = went at goes ⊢
  cases goes with
  | reads failure => exact absurd rfl (other failure)
  | readsLast failure => exact absurd rfl (other failure)
  | _ => rfl

end Supervisor

namespace LiveRun

variable {supervision : Supervision} {event : SupervisorEvent} {process : Nat} {graceEnd : Nat → Nat}

inductive IsNews (supervisor : Supervisor) : SupervisorEvent → Prop where
  | outputEnded (unread : supervisor.output = none) : IsNews supervisor (.outputEnded none)
  | exited (code : Option Int) (unfinished : supervisor.exit = none) :
      IsNews supervisor (.exited (.ok code))
  | cancelled : IsNews supervisor .cancelled
  | tick : IsNews supervisor .tick

theorem isNews_of_event? (next : run.event? = some event) : IsNews run.supervisor event := by
  unfold event? at next
  dsimp only at next
  split at next
  case isTrue ended =>
      obtain rfl := Option.some.inj next
      exact .outputEnded (Option.isNone_iff_eq_none.mp ended.1)
  case isFalse =>
      split at next
      case h_1 code found =>
          obtain rfl := Option.some.inj next
          split at found
          case isTrue unfinished => exact .exited code (Option.isNone_iff_eq_none.mp unfinished)
          case isFalse => cases found
      case h_2 =>
          split at next
          case isTrue =>
              obtain rfl := Option.some.inj next
              exact .cancelled
          case isFalse =>
              split at next
              case isTrue =>
                  obtain rfl := Option.some.inj next
                  exact .tick
              case isFalse => cases next

/-- A supervision in which nothing has happened that the supervisor of the run has not noticed. -/
structure IsShown (run : LiveRun) (supervision : Supervision) : Prop where
  supervisor_eq : supervision.supervisor = run.supervisor
  cancelled_eq : supervision.cancelled = run.cancelled
  exit_eq : supervision.exit = run.supervisor.exit
  output_eq : supervision.output = run.supervisor.output
  requests_eq : supervision.sent.map (·.request) = run.requests.reverse

theorem foldl_obey (requests : List SupervisorRequest) (run : LiveRun) :
    (requests.foldl obey run).supervisor = run.supervisor ∧
      (requests.foldl obey run).cancelled = run.cancelled ∧
      (requests.foldl obey run).requests = requests.reverse ++ run.requests := by
  induction requests generalizing run with
  | nil => exact ⟨rfl, rfl, rfl⟩
  | cons request requests inductionHypothesis =>
      obtain ⟨supervisor, cancelled, asked⟩ := inductionHypothesis (run.obey request)
      refine ⟨supervisor, cancelled, ?_⟩
      rw [List.foldl_cons, asked, List.reverse_cons, List.append_assoc]
      rfl

theorem supervisor_happen (run : LiveRun) (event : SupervisorEvent) :
    (run.happen event).supervisor = (run.supervisor.step run.host.now event).2 :=
  (foldl_obey _ _).1

theorem requests_happen (run : LiveRun) (event : SupervisorEvent) :
    (run.happen event).requests =
      (run.supervisor.step run.host.now event).1.reverse ++ run.requests :=
  (foldl_obey _ _).2.2

theorem cancelled_happen (run : LiveRun) : (run.happen .cancelled).cancelled = true :=
  (foldl_obey _ _).2.1

theorem cancelled_happen_of_ne (run : LiveRun) (event : SupervisorEvent)
    (other : event ≠ .cancelled) :
    (run.happen event).cancelled = run.cancelled := by
  cases event with
  | cancelled => exact absurd rfl other
  | exited result => exact (foldl_obey _ _).2.1
  | outputEnded failure => exact (foldl_obey _ _).2.1
  | tick => exact (foldl_obey _ _).2.1

theorem isShown_notice (now_eq : supervision.now = run.host.now)
    (supervisor_eq : supervision.supervisor = run.supervisor)
    (cancelled_eq : supervision.cancelled = (run.happen event).cancelled)
    (exit_eq : supervision.exit = (run.supervisor.step run.host.now event).2.exit)
    (output_eq : supervision.output = (run.supervisor.step run.host.now event).2.output)
    (requests_eq : supervision.sent.map (·.request) = run.requests.reverse) :
    IsShown (run.happen event) (supervision.notice event) where
  supervisor_eq := by
    rw [supervisor_happen, ← now_eq, ← supervisor_eq]
    rfl
  cancelled_eq := cancelled_eq
  exit_eq := by
    rw [supervisor_happen]
    exact exit_eq
  output_eq := by
    rw [supervisor_happen]
    exact output_eq
  requests_eq := by
    rw [requests_happen, List.reverse_append, List.reverse_reverse, ← requests_eq, ← now_eq,
      ← supervisor_eq]
    simp [Supervision.notice, Supervision.proceed, Function.comp_def]

open Supervision in
theorem IsShown.happen (shown : IsShown run supervision)
    (sound : Supervision.Sound process graceEnd supervision) (next : run.event? = some event) :
    ∃ later, Reaches supervision later ∧ IsShown (run.happen event) later := by
  obtain ⟨supervisor_eq, cancelled_eq, exit_eq, output_eq, requests_eq⟩ := shown
  have clock : Reaches supervision { supervision with now := run.host.now } :=
    Relation.ReflTransGen.single (.clock run.host.now)
  cases isNews_of_event? next with
  | outputEnded unread =>
      have ends := clock.tail (.ends none (output_eq.trans unread))
      refine ⟨_, ends.tail (.notices (.outputEnded none) rfl), ?_⟩
      refine isShown_notice rfl supervisor_eq ?_ ?_ ?_ requests_eq
      · exact cancelled_eq.trans (run.cancelled_happen_of_ne (.outputEnded none) nofun).symm
      · exact exit_eq.trans (run.supervisor.exit_step (.outputEnded none) nofun _).symm
      · rw [Supervisor.output_step_outputEnded, unread]
        rfl
  | exited code unfinished =>
      have exits := clock.tail (.exits (.ok code) (exit_eq.trans unfinished))
      refine ⟨_, exits.tail (.notices (.exited (.ok code)) rfl), ?_⟩
      have awaited : run.supervisor.phase.awaitsExit = true := by
        rw [← supervisor_eq, sound.awaitsExit_eq, supervisor_eq, unfinished]
        rfl
      refine isShown_notice rfl supervisor_eq ?_ ?_ ?_ requests_eq
      · exact cancelled_eq.trans (run.cancelled_happen_of_ne (.exited (.ok code)) nofun).symm
      · exact (Supervisor.exit_step_exited awaited _ _).symm
      · exact output_eq.trans (run.supervisor.output_step (.exited (.ok code)) nofun _).symm
  | cancelled =>
      refine ⟨_, (clock.tail .cancel).tail (.notices .cancelled rfl), ?_⟩
      refine isShown_notice rfl supervisor_eq ?_ ?_ ?_ requests_eq
      · exact (cancelled_happen run).symm
      · exact exit_eq.trans (run.supervisor.exit_step .cancelled nofun _).symm
      · exact output_eq.trans (run.supervisor.output_step .cancelled nofun _).symm
  | tick =>
      refine ⟨_, clock.tail (.notices .tick trivial), ?_⟩
      refine isShown_notice rfl supervisor_eq ?_ ?_ ?_ requests_eq
      · exact cancelled_eq.trans (run.cancelled_happen_of_ne .tick nofun).symm
      · exact exit_eq.trans (run.supervisor.exit_step .tick nofun _).symm
      · exact output_eq.trans (run.supervisor.output_step .tick nofun _).symm

open Supervision in
theorem IsShown.carryOn (shown : IsShown run supervision)
    (sound : Supervision.Sound process graceEnd supervision)
    (fuel : Nat) : ∃ later, Reaches supervision later ∧ IsShown (run.carryOn fuel) later := by
  induction fuel generalizing run supervision with
  | zero => exact ⟨supervision, .refl, shown⟩
  | succ fuel inductionHypothesis =>
      -- Only the host changes while processes go on or time passes.
      have elsewhere (host : Shell.Host) : IsShown { run with host := host } supervision :=
        ⟨shown.supervisor_eq, shown.cancelled_eq, shown.exit_eq, shown.output_eq, shown.requests_eq⟩
      unfold LiveRun.carryOn
      dsimp only
      split
      case isTrue => exact ⟨supervision, .refl, elsewhere _⟩
      case isFalse =>
          split
          case h_1 event next =>
              obtain ⟨later, reaches, happened⟩ := (elsewhere _).happen sound next
              obtain ⟨last, further, carried⟩ :=
                inductionHypothesis happened (sound.of_reaches reaches)
              exact ⟨last, reaches.trans further, carried⟩
          case h_2 =>
              split
              case h_1 => exact inductionHypothesis (elsewhere _) sound
              case h_2 => exact inductionHypothesis (elsewhere _) sound

end LiveRun

namespace CommandSpec

end CommandSpec

end BackupClient
