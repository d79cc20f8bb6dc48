import BackupClient.Auth.Monitor
import BackupClient.Proofs.Auth.Registry

/-!
Watches whose steps come in any order, between sweeps and sessions that are begun.

To create a session is to sweep and then to begin it, and anything may come in between.  A watch touches
the record of its own id only, and only in the steps that complete or withdraw a session.
-/

namespace BackupClient

/-- What may come next: a new watch, a step of a watch with what it finds, a sweep, or a new session. -/
inductive MonitorEvent where
  | watch (id : String)
  | step (number : Nat) (input : WatchInput)
  | sweep (now : Instant)
  | begin (now : Instant) (id : String)
  deriving DecidableEq

namespace WatchStage

/-- A watch that has read its session may still change the record of its id. -/
def isEngaged : WatchStage → Bool
  | .measuring _ => true
  | .polling _ _ => true
  | .completing _ _ => true
  | .storing _ => true
  | .withdrawing => true
  | _ => false

variable {configuration : AuthConfiguration} {id : String} {input : WatchInput}
  {registry : Registry} {stage : WatchStage} {step : WatchStep}

/-- A watch that polls goes on with the outcome of its poller, or lets the poller take a step. -/
theorem poll?_cases {rules : PollRules} {poller : Poller AuthStatusUpdate}
    (polled : poll? id input registry rules poller = some step) :
    (∃ outcome, poller.outcome? = some outcome ∧
      step = ⟨.completing (verdict outcome).1 (verdict outcome).2, registry, false,
        verdictActs id outcome⟩) ∨
    ∃ next, poller.step? rules AuthStatusUpdate.classify input.now input.cancelled input.event =
        some next ∧
      step = ⟨.polling rules next.poller, registry, next.took, next.acts.filterMap ofPollAct⟩ := by
  unfold poll? at polled
  split at polled
  case h_1 outcome stopped => exact .inl ⟨outcome, stopped, (Option.some.inj polled).symm⟩
  case h_2 =>
      obtain ⟨next, moved, rfl⟩ := Option.map_eq_some_iff.mp polled
      exact .inr ⟨next, moved, rfl⟩

theorem poll?_registry {rules : PollRules} {poller : Poller AuthStatusUpdate}
    (polled : poll? id input registry rules poller = some step) : step.registry = registry := by
  rcases poll?_cases polled with ⟨_, -, rfl⟩ | ⟨_, -, rfl⟩ <;> rfl

inductive Leaves (id : String) (input : WatchInput) (registry : Registry) :
    WatchStage → Registry → Prop where
  | kept {stage : WatchStage} : Leaves id input registry stage registry
  | completed {status : SessionStatus} {tokens : Option TokenPair} :
      Leaves id input registry (.completing status tokens)
        (registry.complete input.clock id status tokens).2
  | withdrawn : Leaves id input registry .withdrawing (registry.revoke id)

theorem step?_leaves (stepped : stage.step? configuration id input registry = some step) :
    stage.Leaves id input registry step.registry := by
  cases stage with
  | reading =>
      obtain rfl := Option.some.inj stepped
      simp only [read]
      split <;> exact .kept
  | measuring session =>
      obtain rfl := Option.some.inj stepped
      exact .kept
  | polling rules poller => exact poll?_registry stepped ▸ .kept
  | completing status tokens =>
      obtain rfl := Option.some.inj stepped
      exact .completed
  | recalling =>
      obtain rfl := Option.some.inj stepped
      exact .kept
  | storing tokens =>
      obtain rfl := Option.some.inj stepped
      simp only [store]
      split <;> exact .kept
  | withdrawing =>
      obtain rfl := Option.some.inj stepped
      exact .withdrawn
  | announcing status =>
      obtain rfl := Option.some.inj stepped
      exact .kept
  | returned status => cases stepped

theorem registry_of_step?_of_not_engaged (quiet : stage.isEngaged = false)
    (stepped : stage.step? configuration id input registry = some step) :
    step.registry = registry := by
  have leaves := step?_leaves stepped
  generalize step.registry = next at leaves
  cases leaves with
  | kept => rfl
  | completed => cases quiet
  | withdrawn => cases quiet

theorem find?_of_step?_of_ne {other : String} (different : other ≠ id)
    (stepped : stage.step? configuration id input registry = some step) :
    step.registry.find? other = registry.find? other := by
  have leaves := step?_leaves stepped
  generalize step.registry = next at leaves
  cases leaves with
  | kept => rfl
  | completed => exact Registry.find?_complete_of_ne different registry _ _ _
  | withdrawn => exact Registry.find?_revoke_of_ne different registry

theorem unique_of_step? (unique : registry.Unique)
    (stepped : stage.step? configuration id input registry = some step) : step.registry.Unique := by
  have leaves := step?_leaves stepped
  generalize step.registry = next at leaves ⊢
  cases leaves with
  | kept => exact unique
  | completed => exact unique.complete _ _ _ _
  | withdrawn => exact unique.revoke id

theorem settled_of_step? {other : String} (settled : registry.Settled other)
    (stepped : stage.step? configuration id input registry = some step) :
    step.registry.Settled other := by
  have leaves := step?_leaves stepped
  generalize step.registry = next at leaves ⊢
  cases leaves with
  | kept => exact settled
  | completed => exact settled.complete _ _ _ _
  | withdrawn => exact settled.revoke id

end WatchStage

namespace Monitor

def react (monitor : Monitor) : MonitorEvent → Monitor
  | .watch id => monitor.watch id
  | .step number input => monitor.advance number input
  | .sweep now => monitor.withRegistry (monitor.registry.sweep now).2
  | .begin now id => monitor.withRegistry (monitor.registry.begin now id).2

def run (monitor : Monitor) (events : List MonitorEvent) : Monitor :=
  events.foldl react monitor

variable {monitor : Monitor} {watch : Watch} {number : Nat}

theorem run_append (monitor : Monitor) (early late : List MonitorEvent) :
    monitor.run (early ++ late) = (monitor.run early).run late :=
  List.foldl_append

theorem create_eq_sweep_begin (monitor : Monitor) (now : Instant) (id : String) :
    monitor.run [.sweep now, .begin now id] =
      monitor.withRegistry (monitor.registry.create now id).2 := rfl

/-! ### What a watch finds after an event -/

theorem apply_watch (found : monitor.watches[number]? = some watch) (step : WatchStep) :
    (monitor.apply number step).watches[number]? = some ⟨watch.id, step.stage⟩ := by
  simp [apply, found]

/-- Either a watch takes a step of its own, or it is as it was. -/
theorem react_watch (found : monitor.watches[number]? = some watch) (event : MonitorEvent) :
    (∃ input step, event = .step number input ∧
      watch.stage.step? monitor.configuration watch.id input monitor.registry = some step ∧
      monitor.react event = monitor.apply number step ∧
      (monitor.react event).watches[number]? = some ⟨watch.id, step.stage⟩) ∨
    (monitor.react event).watches[number]? = some watch := by
  obtain ⟨inside, -⟩ := List.getElem?_eq_some_iff.mp found
  cases event with
  | watch id =>
      right
      simp only [react, Monitor.watch]
      rw [List.getElem?_append_left inside, found]
  | sweep now => exact .inr found
  | begin now id => exact .inr found
  | step other input =>
      simp only [react, advance]
      cases stepped : monitor.step? other input with
      | none => exact .inr found
      | some step =>
          by_cases same : other = number
          · subst same
            left
            exact ⟨input, step, rfl, by simpa [step?, found] using stepped, rfl,
              apply_watch found step⟩
          · right
            simp [apply, same, found]

theorem step?_eq_some_iff {input : WatchInput} {step : WatchStep} :
    monitor.step? number input = some step ↔
      ∃ watch, monitor.watches[number]? = some watch ∧
        watch.stage.step? monitor.configuration watch.id input monitor.registry = some step :=
  Option.bind_eq_some_iff

/-- A monitor leaves the registry as it is, or as a step of one of its watches leaves it. -/
theorem advance_registry (monitor : Monitor) (number : Nat) (input : WatchInput) :
    (monitor.advance number input).registry = monitor.registry ∨
      ∃ watch step, monitor.watches[number]? = some watch ∧
        watch.stage.step? monitor.configuration watch.id input monitor.registry = some step ∧
        (monitor.advance number input).registry = step.registry := by
  unfold advance
  cases stepped : monitor.step? number input with
  | none => exact .inl rfl
  | some step =>
      obtain ⟨watch, found, moved⟩ := step?_eq_some_iff.mp stepped
      exact .inr ⟨watch, step, found, moved, rfl⟩

theorem advance_find?_of_ne {other : String} (found : monitor.watches[number]? = some watch)
    (different : other ≠ watch.id) (input : WatchInput) :
    (monitor.advance number input).registry.find? other = monitor.registry.find? other := by
  rcases monitor.advance_registry number input with same | ⟨owner, step, again, moved, left⟩
  · rw [same]
  · obtain rfl := Option.some.inj (found.symm.trans again)
    rw [left, WatchStage.find?_of_step?_of_ne different moved]

theorem advance_registry_of_not_engaged (found : monitor.watches[number]? = some watch)
    (quiet : watch.stage.isEngaged = false) (input : WatchInput) :
    (monitor.advance number input).registry = monitor.registry := by
  rcases monitor.advance_registry number input with same | ⟨owner, step, again, moved, left⟩
  · exact same
  · obtain rfl := Option.some.inj (found.symm.trans again)
    rw [left, WatchStage.registry_of_step?_of_not_engaged quiet moved]

theorem react_unique (unique : monitor.registry.Unique) (event : MonitorEvent) :
    (monitor.react event).registry.Unique := by
  cases event with
  | watch id => exact unique
  | sweep now => exact unique.sweep now
  | begin now id => exact unique.put id _
  | step number input =>
      show (monitor.advance number input).registry.Unique
      rcases monitor.advance_registry number input with same | ⟨_, step, -, moved, left⟩
      · rwa [same]
      · rw [left]
        exact WatchStage.unique_of_step? unique moved

theorem react_settled {id : String} (unique : monitor.registry.Unique)
    (settled : monitor.registry.Settled id) {event : MonitorEvent}
    (other : ∀ now, event ≠ .begin now id) : (monitor.react event).registry.Settled id := by
  cases event with
  | watch _ => exact settled
  | sweep now => exact settled.sweep unique now
  | begin now begun => exact settled.begin now fun same => other now (same ▸ rfl)
  | step number input =>
      show (monitor.advance number input).registry.Settled id
      rcases monitor.advance_registry number input with same | ⟨_, step, -, moved, left⟩
      · rwa [same]
      · rw [left]
        exact WatchStage.settled_of_step? settled moved

theorem run_unique (events : List MonitorEvent) (unique : monitor.registry.Unique) :
    (monitor.run events).registry.Unique := by
  induction events generalizing monitor with
  | nil => exact unique
  | cons event events inductionHypothesis => exact inductionHypothesis (react_unique unique event)

theorem watch_of_react {event : MonitorEvent}
    (found : (monitor.react event).watches[number]? = some watch) :
    (∃ old, monitor.watches[number]? = some old) ∨ watch.stage = .reading := by
  cases event with
  | sweep now => exact .inl ⟨watch, found⟩
  | begin now id => exact .inl ⟨watch, found⟩
  | watch id =>
      simp only [react, Monitor.watch] at found
      rcases Nat.lt_or_ge number monitor.watches.length with inside | beyond
      · exact .inl ⟨_, List.getElem?_eq_getElem inside⟩
      · right
        rw [List.getElem?_append_right beyond] at found
        obtain rfl := List.mem_singleton.mp (List.mem_of_getElem? found)
        rfl
  | step other input =>
      left
      simp only [react, advance] at found
      split at found
      · obtain ⟨inside, -⟩ := List.getElem?_eq_some_iff.mp found
        simp only [apply, List.length_modify] at inside
        exact ⟨_, List.getElem?_eq_getElem inside⟩
      · exact ⟨watch, found⟩

/-- What holds of a watch that begins, and is kept by every step of a watch, holds of all watches. -/
theorem run_watches {Holds : WatchStage → Prop} (begins : Holds .reading)
    (kept : ∀ {configuration : AuthConfiguration} {id : String} {input : WatchInput}
      {registry : Registry} {stage : WatchStage} {step : WatchStep},
      Holds stage → stage.step? configuration id input registry = some step → Holds step.stage)
    (events : List MonitorEvent)
    (before : ∀ (number : Nat) (watch : Watch),
      monitor.watches[number]? = some watch → Holds watch.stage) :
    ∀ (number : Nat) (watch : Watch),
      (monitor.run events).watches[number]? = some watch → Holds watch.stage := by
  induction events generalizing monitor with
  | nil => exact before
  | cons event events inductionHypothesis =>
      refine inductionHypothesis fun number watch found => ?_
      rcases watch_of_react found with ⟨old, was⟩ | reading
      · -- A watch that was there takes a step or stands still.
        rcases react_watch was event with ⟨input, step, -, stepped, -, moved⟩ | still
        · obtain rfl := Option.some.inj (found.symm.trans moved)
          exact kept (before number old was) stepped
        · obtain rfl := Option.some.inj (found.symm.trans still)
          exact before number watch was
      · rw [reading]
        exact begins

end Monitor

end BackupClient
