import BackupClient.Proofs.Auth.Interleaving
import BackupClient.Proofs.Auth.Polling

/-!
What a watch does to a session that is begun under its id after it has read another one.

A watch that is engaged may go on to finish or to withdraw whatever stands under its id by then.  A watch
that is not engaged any more leaves every record as it is.
-/

namespace BackupClient

namespace WatchStage

variable {configuration : AuthConfiguration} {id : String} {input : WatchInput}
  {registry : Registry} {stage : WatchStage} {step : WatchStep}

/-! ### A watch that is not engaged -/

theorem step?_of_not_engaged (quiet : stage.isEngaged = false) (read : stage ≠ .reading)
    (stepped : stage.step? configuration id input registry = some step) :
    step.stage.isEngaged = false ∧ step.stage ≠ .reading := by
  cases stage with
  | reading => exact absurd rfl read
  | recalling =>
      obtain rfl := Option.some.inj stepped
      exact ⟨rfl, WatchStage.noConfusion⟩
  | announcing status =>
      obtain rfl := Option.some.inj stepped
      exact ⟨rfl, WatchStage.noConfusion⟩
  | returned status => cases stepped
  | measuring session => cases quiet
  | polling rules poller => cases quiet
  | completing status tokens => cases quiet
  | storing tokens => cases quiet
  | withdrawing => cases quiet

/-! ### A watch that is engaged -/

def IsFinal : WatchStage → Prop
  | .polling _ poller =>
      ∀ update, poller.outcome? = some (.terminal update) → update.status.isTerminal = true
  | .completing status _ => status.isTerminal = true
  | _ => True

theorem verdict_isTerminal {outcome : PollOutcome AuthStatusUpdate}
    (final : ∀ update, outcome = .terminal update → update.status.isTerminal = true) :
    (verdict outcome).1.isTerminal = true := by
  cases outcome with
  | terminal update =>
      obtain ⟨status, tokens⟩ := update
      have terminal := final _ rfl
      cases status <;> cases tokens <;> first | rfl | exact terminal
  | exhausted => rfl
  | deadline => rfl
  | cancelled => rfl

theorem classify_eq_some_iff {content update : AuthStatusUpdate} :
    content.classify = some update ↔ content = update ∧ update.status.isTerminal = true := by
  unfold AuthStatusUpdate.classify
  constructor
  · intro classified
    split at classified
    case isTrue terminal =>
        obtain rfl := Option.some.inj classified
        exact ⟨rfl, terminal⟩
    case isFalse => cases classified
  · rintro ⟨rfl, terminal⟩
    rw [if_pos terminal]

theorem isFinal_of_step? (final : stage.IsFinal)
    (stepped : stage.step? configuration id input registry = some step) : step.stage.IsFinal := by
  cases stage with
  | reading =>
      obtain rfl := Option.some.inj stepped
      simp only [read]
      split
      · trivial
      · dsimp only
        split
        · trivial
        case isFalse finished => simpa [IsFinal, SessionStatus.isTerminal] using finished
  | measuring session =>
      obtain rfl := Option.some.inj stepped
      intro update stopped
      cases stopped
  | polling rules poller =>
      rcases poll?_cases stepped with ⟨outcome, stopped, rfl⟩ | ⟨next, moved, rfl⟩
      · exact verdict_isTerminal fun update same => final update (same ▸ stopped)
      · intro update stopped
        obtain ⟨-, content, -, classified⟩ := Poller.step?_terminal moved stopped
        exact (classify_eq_some_iff.mp classified).2
  | completing status tokens =>
      obtain rfl := Option.some.inj stepped
      simp only [complete]
      split <;> trivial
  | recalling =>
      obtain rfl := Option.some.inj stepped
      trivial
  | storing tokens =>
      obtain rfl := Option.some.inj stepped
      simp only [store]
      split <;> trivial
  | withdrawing =>
      obtain rfl := Option.some.inj stepped
      trivial
  | announcing status =>
      obtain rfl := Option.some.inj stepped
      trivial
  | returned status => cases stepped

end WatchStage

namespace Monitor

variable {monitor : Monitor} {watch : Watch} {number : Nat}

theorem idle_run_isFinal (configuration : AuthConfiguration) (events : List MonitorEvent)
    (found : ((idle configuration).run events).watches[number]? = some watch) :
    watch.stage.IsFinal :=
  run_watches trivial WatchStage.isFinal_of_step? events
    (fun _ _ absent => by simp [idle] at absent) number watch found

theorem run_advance_registry_of_not_engaged (found : monitor.watches[number]? = some watch)
    (quiet : watch.stage.isEngaged = false) (read : watch.stage ≠ .reading)
    (later : List MonitorEvent) (input : WatchInput) :
    ((monitor.run later).advance number input).registry = (monitor.run later).registry := by
  induction later generalizing monitor watch with
  | nil => exact advance_registry_of_not_engaged found quiet input
  | cons event later inductionHypothesis =>
      rcases react_watch found event with ⟨_, step, -, moved, -, next⟩ | still
      · obtain ⟨quietNext, readNext⟩ := WatchStage.step?_of_not_engaged quiet read moved
        exact inductionHypothesis next quietNext readNext
      · exact inductionHypothesis still quiet read

/-- The watch may go on so that it changes the record of an id. -/
def MayTouch (monitor : Monitor) (number : Nat) (id : String) : Prop :=
  ∃ later input, ((monitor.run later).advance number input).registry.find? id ≠
    (monitor.run later).registry.find? id

theorem MayTouch.of_step {input : WatchInput} {step : WatchStep} {id : String}
    (stepped : monitor.step? number input = some step)
    (touches : (monitor.apply number step).MayTouch number id) : monitor.MayTouch number id := by
  obtain ⟨later, last, differs⟩ := touches
  refine ⟨.step number input :: later, last, ?_⟩
  have same : monitor.run (.step number input :: later) = (monitor.apply number step).run later := by
    simp [run, react, advance, stepped]
  rwa [same]

def adverse : WatchInput :=
  ⟨.epoch, 0, true, none, some "", false⟩

theorem step?_of_found (found : monitor.watches[number]? = some watch) (input : WatchInput) :
    monitor.step? number input =
      watch.stage.step? monitor.configuration watch.id input monitor.registry := by
  simp [step?, found]

theorem advance_of_step? {input : WatchInput} {step : WatchStep}
    (stepped : monitor.step? number input = some step) :
    monitor.advance number input = monitor.apply number step := by
  simp [advance, stepped]

section Touching

variable {id : String} {session : AuthSession Instant}
  (stands : monitor.registry.find? id = some session) (pending : session.status = .pending)

include stands pending

theorem mayTouch_of_completing {status : SessionStatus} {tokens : Option TokenPair}
    (found : monitor.watches[number]? = some ⟨id, .completing status tokens⟩)
    (terminal : status.isTerminal = true) : monitor.MayTouch number id := by
  refine ⟨[], adverse, ?_⟩
  obtain ⟨finished, recorded, notPending⟩ :=
    Registry.complete_of_pending stands pending terminal adverse.clock tokens
  have stepped := step?_of_found found adverse
  change (monitor.advance number adverse).registry.find? id ≠ monitor.registry.find? id
  rw [advance_of_step? stepped, stands]
  change (monitor.registry.complete adverse.clock id status tokens).2.find? id ≠ some session
  rw [recorded]
  rintro ⟨⟩
  exact notPending pending

theorem mayTouch_of_withdrawing (found : monitor.watches[number]? = some ⟨id, .withdrawing⟩) :
    monitor.MayTouch number id := by
  refine ⟨[], adverse, ?_⟩
  have stepped := step?_of_found found adverse
  change (monitor.advance number adverse).registry.find? id ≠ monitor.registry.find? id
  rw [advance_of_step? stepped]
  change (monitor.registry.revoke id).find? id ≠ monitor.registry.find? id
  rw [Registry.find?_revoke stands, stands]
  intro same
  have status := congrArg AuthSession.status (Option.some.inj same)
  rw [pending] at status
  cases status

theorem mayTouch_of_storing {tokens : TokenPair}
    (found : monitor.watches[number]? = some ⟨id, .storing tokens⟩) :
    monitor.MayTouch number id := by
  have stepped := step?_of_found found adverse
  exact .of_step stepped (mayTouch_of_withdrawing stands pending (apply_watch found _))

theorem mayTouch_of_stopped {rules : PollRules} {poller : Poller AuthStatusUpdate}
    {outcome : PollOutcome AuthStatusUpdate} (stopped : poller.outcome? = some outcome)
    (found : monitor.watches[number]? = some ⟨id, .polling rules poller⟩)
    (final : (WatchStage.polling rules poller).IsFinal) : monitor.MayTouch number id := by
  have stepped := step?_of_found found adverse
  simp only [WatchStage.step?, WatchStage.poll?, stopped] at stepped
  refine .of_step stepped (mayTouch_of_completing stands pending (apply_watch found _) ?_)
  exact WatchStage.verdict_isTerminal fun update same => final update (same ▸ stopped)

theorem mayTouch_of_polling {rules : PollRules} {poller : Poller AuthStatusUpdate}
    (found : monitor.watches[number]? = some ⟨id, .polling rules poller⟩)
    (final : (WatchStage.polling rules poller).IsFinal) : monitor.MayTouch number id := by
  cases stopped : poller.outcome? with
  | some outcome => exact mayTouch_of_stopped stands pending stopped found final
  | none =>
      -- A cancellation stops the poller, whatever it is about.
      have stepped := step?_of_found found adverse
      have stops : WatchStage.step? monitor.configuration id adverse monitor.registry
          (.polling rules poller) =
          some ⟨.polling rules { poller with phase := .stopped .cancelled }, monitor.registry, false,
            []⟩ := by
        simp [WatchStage.step?, WatchStage.poll?, Poller.step?, Poller.stop, stopped, adverse]
      rw [stops] at stepped
      have finalNext := WatchStage.isFinal_of_step? final stops
      exact .of_step stepped
        (mayTouch_of_stopped stands pending rfl (apply_watch found _) finalNext)

theorem mayTouch_of_measuring {measured : AuthSession Instant}
    (found : monitor.watches[number]? = some ⟨id, .measuring measured⟩) :
    monitor.MayTouch number id := by
  have stepped := step?_of_found found adverse
  refine .of_step stepped (mayTouch_of_polling stands pending (apply_watch found _) ?_)
  rintro update ⟨⟩

/-- While a watch is engaged, any pending session that stands under its id may be changed by it. -/
theorem mayTouch_of_engaged (found : monitor.watches[number]? = some watch) (same : watch.id = id)
    (final : watch.stage.IsFinal) (engaged : watch.stage.isEngaged = true) :
    monitor.MayTouch number id := by
  obtain ⟨_, stage⟩ := watch
  obtain rfl := same
  cases stage with
  | measuring measured => exact mayTouch_of_measuring stands pending found
  | polling rules poller => exact mayTouch_of_polling stands pending found final
  | completing status tokens => exact mayTouch_of_completing stands pending found final
  | storing tokens => exact mayTouch_of_storing stands pending found
  | withdrawing => exact mayTouch_of_withdrawing stands pending found
  | reading => cases engaged
  | recalling => cases engaged
  | announcing status => cases engaged
  | returned status => cases engaged

end Touching

/-- A watch that has read its session leaves the next one that is begun under its id alone, however things
go on, just if it is not engaged by then. -/
theorem spares_next_session_iff (configuration : AuthConfiguration) {before : List MonitorEvent}
    (found : ((idle configuration).run before).watches[number]? = some watch)
    (read : watch.stage ≠ .reading) (now : Instant) :
    ¬ (((idle configuration).run before).react (.begin now watch.id)).MayTouch number watch.id ↔
      watch.stage.isEngaged = false := by
  have foundNext :
      (((idle configuration).run before).react (.begin now watch.id)).watches[number]? =
        some watch := found
  constructor
  · intro spared
    by_contra engaged
    -- The new session is pending, so that completing or withdrawing it makes a difference.
    have stands := ((idle configuration).run before).registry.find?_begin now watch.id watch.id
    rw [if_pos rfl] at stands
    exact spared (mayTouch_of_engaged stands rfl foundNext rfl
      (idle_run_isFinal configuration before found) (by simpa using engaged))
  · rintro quiet ⟨later, input, differs⟩
    rw [run_advance_registry_of_not_engaged foundNext quiet read later input] at differs
    exact differs rfl

end Monitor

end BackupClient
