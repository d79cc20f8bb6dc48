import BackupClient.Proofs.Auth.Creation

/-!
What watches deliver: the tokens that they hand to the token store, and the events that they send.

A watch delivers something only in the steps after the one in which it has finished its session.
-/

namespace BackupClient

/-- Tokens are handed to the token store, or an event is sent. -/
def WatchAct.isDelivery : WatchAct → Bool
  | .stores _ _ => true
  | .sends _ => true
  | _ => false

/-- A session that ends at an instant with a status.  Tokens are kept with an authentication only. -/
def AuthSession.endedAs (session : AuthSession Instant) (now : Instant) (recorded : SessionStatus)
    (tokens : Option TokenPair) : AuthSession Instant :=
  { session with
    status := recorded, finishedAt := some now
    tokens := if recorded = .authenticated then tokens else none }

namespace WatchStage

/-- A watch has finished its session and has something left to do for it. -/
def delivers : WatchStage → Bool
  | .storing _ => true
  | .withdrawing => true
  | .announcing _ => true
  | _ => false

variable {configuration : AuthConfiguration} {id : String} {input : WatchInput}
  {registry : Registry} {stage : WatchStage} {step : WatchStep}

def afterFinish (recorded : SessionStatus) (tokens : Option TokenPair) : WatchStage :=
  match recorded, tokens with
  | .authenticated, some tokens => .storing tokens
  | status, _ => .announcing status

inductive Moves (id : String) (input : WatchInput) (registry : Registry) :
    WatchStage → WatchStep → Prop where
  | quiet {stage : WatchStage} {step : WatchStep} (before : stage.delivers = false)
      (notReturned : stage.returned? = none) (after : step.stage.delivers = false)
      (kept : step.registry = registry) (silent : step.acts.filter WatchAct.isDelivery = []) :
      Moves id input registry stage step
  | finishes {status recorded : SessionStatus} {tokens : Option TokenPair} {session : AuthSession Instant}
      (found : registry.find? id = some session) (pending : session.status = .pending)
      (terminal : status.isTerminal = true)
      (judged : recorded = if session.isExpired input.clock then .expired else status) :
      Moves id input registry (.completing status tokens)
        ⟨afterFinish recorded tokens,
          registry.put id (session.endedAs input.clock recorded tokens), false, []⟩
  | keeps {tokens : TokenPair} (accepted : input.refusal = none) :
      Moves id input registry (.storing tokens)
        ⟨.announcing .authenticated, registry, false, [.stores tokens none]⟩
  | refuses {tokens : TokenPair} {reason : String} {notice : Notice}
      (refused : input.refusal = some reason) :
      Moves id input registry (.storing tokens)
        ⟨.withdrawing, registry, false, [.stores tokens (some reason), .tells notice]⟩
  | withdraws :
      Moves id input registry .withdrawing
        ⟨.announcing .cancelled, registry.revoke id, false, []⟩
  | announces {status : SessionStatus} {first second : Notice} :
      Moves id input registry (.announcing status)
        ⟨.returned status, registry, false,
          [.tells first,
            if input.listening then .sends (.ofStatus id status) else .tells second]⟩

theorem polling_delivers_nothing {rules : PollRules} {poller : Poller AuthStatusUpdate}
    (polled : poll? id input registry rules poller = some step) :
    step.stage.delivers = false ∧ step.acts.filter WatchAct.isDelivery = [] := by
  rcases poll?_cases polled with ⟨outcome, -, rfl⟩ | ⟨next, -, rfl⟩
  · refine ⟨rfl, ?_⟩
    simp only [verdictActs]
    split <;> rfl
  · refine ⟨rfl, List.filter_eq_nil_iff.mpr fun act member => ?_⟩
    obtain ⟨pollAct, -, shown⟩ := List.mem_filterMap.mp member
    cases pollAct <;> cases shown <;> simp [WatchAct.isDelivery]

theorem step?_moves (stepped : stage.step? configuration id input registry = some step) :
    Moves id input registry stage step := by
  cases stage with
  | reading =>
      obtain rfl := Option.some.inj stepped
      unfold read
      split
      · exact .quiet rfl rfl rfl rfl rfl
      · refine .quiet rfl rfl ?_ rfl rfl
        dsimp only
        split <;> rfl
  | measuring session =>
      obtain rfl := Option.some.inj stepped
      exact .quiet rfl rfl rfl rfl rfl
  | polling rules poller =>
      obtain ⟨after, silent⟩ := polling_delivers_nothing stepped
      exact .quiet rfl rfl after (poll?_registry stepped) silent
  | completing status tokens =>
      obtain rfl := Option.some.inj stepped
      have completion := registry.complete_completion input.clock id status tokens
      unfold complete
      generalize registry.complete input.clock id status tokens = result at completion ⊢
      cases completion with
      | refused => exact .quiet rfl rfl rfl rfl rfl
      | @recorded session recorded found terminal pending judged =>
          cases recorded <;> cases tokens <;> exact .finishes found pending terminal judged
  | recalling =>
      obtain rfl := Option.some.inj stepped
      exact .quiet rfl rfl rfl rfl rfl
  | storing tokens =>
      obtain rfl := Option.some.inj stepped
      unfold store
      split
      case h_1 accepted => exact .keeps accepted
      case h_2 reason refused => exact .refuses refused
  | withdrawing =>
      obtain rfl := Option.some.inj stepped
      exact .withdraws
  | announcing status =>
      obtain rfl := Option.some.inj stepped
      exact .announces
  | returned status => cases stepped

end WatchStage

namespace Monitor

variable {configuration : AuthConfiguration} {events : List MonitorEvent} {number : Nat}
  {id : String} {monitor : Monitor} {watch : Watch}

def owner? (monitor : Monitor) (number : Nat) : Option String :=
  monitor.watches[number]?.map (·.id)

/-- What the watches of an id have delivered, the latest first. -/
def deliveries (monitor : Monitor) (id : String) : List (Nat × WatchAct) :=
  monitor.acts.filter fun (number, act) => act.isDelivery && monitor.owner? number = some id

theorem owner?_apply (monitor : Monitor) (number other : Nat) (step : WatchStep) :
    (monitor.apply number step).owner? other = monitor.owner? other := by
  simp only [owner?, apply, List.getElem?_modify]
  cases monitor.watches[other]? with
  | none => rfl
  | some watch =>
      simp only [Option.map_some]
      split <;> rfl

theorem deliveries_apply (monitor : Monitor) (number : Nat) (step : WatchStep) (id : String) :
    (monitor.apply number step).deliveries id =
      (if monitor.owner? number = some id then
        ((step.acts.filter WatchAct.isDelivery).map fun act => (number, act)).reverse
      else []) ++ monitor.deliveries id := by
  have acts : (monitor.apply number step).acts =
      (step.acts.map fun act => (number, act)).reverse ++ monitor.acts := rfl
  simp only [deliveries, acts, List.filter_append, owner?_apply, List.append_cancel_right_eq,
    List.filter_reverse, List.filter_map]
  split
  case isTrue own => simp [Function.comp_def, own]
  case isFalse foreign => simp [Function.comp_def, foreign]

theorem owner?_react (event : MonitorEvent) (known : (monitor.owner? number).isSome = true) :
    (monitor.react event).owner? number = monitor.owner? number := by
  cases event with
  | sweep now => rfl
  | begin now id => rfl
  | watch id =>
      have inside : number < monitor.watches.length := by simpa [owner?] using known
      simp [owner?, react, Monitor.watch, List.getElem?_append_left inside]
  | step other input =>
      simp only [react, advance]
      split
      · exact owner?_apply monitor other number _
      · rfl

theorem owner?_of_act {act : WatchAct} (done : (number, act) ∈ (history configuration events).acts) :
    ((history configuration events).owner? number).isSome = true := by
  induction events using List.reverseRecOn with
  | nil => simp [history, run, idle] at done
  | append_singleton events event inductionHypothesis =>
      rw [history_append] at done ⊢
      have earlier (before : (number, act) ∈ (history configuration events).acts) :
          (((history configuration events).react event).owner? number).isSome = true := by
        rw [owner?_react event (inductionHypothesis before)]
        exact inductionHypothesis before
      cases event with
      | watch id => exact earlier done
      | sweep now => exact earlier done
      | begin now id => exact earlier done
      | step other input =>
          simp only [react, advance] at done earlier ⊢
          cases stepped : (history configuration events).step? other input with
          | none =>
              simp only [stepped] at done earlier ⊢
              exact earlier done
          | some step =>
              simp only [stepped] at done earlier ⊢
              rcases List.mem_append.mp done with last | before
              · obtain ⟨latest, -, entry⟩ := List.mem_map.mp (List.mem_reverse.mp last)
                obtain ⟨watch, found, -⟩ := step?_eq_some_iff.mp stepped
                obtain ⟨rfl, -⟩ := Prod.mk.inj entry
                rw [owner?_apply]
                simp [owner?, found]
              · exact earlier before

theorem deliveries_watch (configuration : AuthConfiguration) (events : List MonitorEvent)
    (id other : String) :
    ((history configuration events).watch other).deliveries id =
      (history configuration events).deliveries id := by
  refine List.filter_congr fun ⟨number, act⟩ done => ?_
  have same : ((history configuration events).watch other).owner? number =
      (history configuration events).owner? number :=
    owner?_react (.watch other) (owner?_of_act done)
  simp only [same]

end Monitor

end BackupClient
