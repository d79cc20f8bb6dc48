import BackupClient.Proofs.Auth.Delivery

/-!
What a session that is created once may have come to.

At any moment it is either open, and nothing was delivered for it, or one watch has finished it in one
step.  From then on this watch alone delivers something, the record of the session follows it, and the
other watches of the session only look.
-/

namespace BackupClient

namespace Monitor

variable {configuration : AuthConfiguration} {events : List MonitorEvent} {number : Nat}
  {id : String} {monitor : Monitor} {watch : Watch} {input : WatchInput} {event : MonitorEvent}
  {finished record : AuthSession Instant} {stage : WatchStage}

/-- The next step of a watch finishes its session, which is then recorded so. -/
def Finishes (monitor : Monitor) (number : Nat) (input : WatchInput) (id : String)
    (finished : AuthSession Instant) : Prop :=
  ∃ status tokens,
    monitor.watches[number]? = some ⟨id, .completing status tokens⟩ ∧
      (monitor.registry.complete input.clock id status tokens).1.isSome = true ∧
      (monitor.registry.complete input.clock id status tokens).2.find? id = some finished

/-- A watch has finished its session in the step after the early events. -/
def FinishedAt (configuration : AuthConfiguration) (events early : List MonitorEvent) (number : Nat)
    (id : String) (finished : AuthSession Instant) : Prop :=
  ∃ input late, events = early ++ .step number input :: late ∧
    (history configuration early).Finishes number input id finished

def Begun (configuration : AuthConfiguration) (events : List MonitorEvent) (id : String)
    (begun : AuthSession Instant) : Prop :=
  ∃ early now late, events = early ++ .begin now id :: late ∧
    begun = ((history configuration early).registry.begin now id).1

/-- A watch has announced a status when nobody listened. -/
def Unheard (configuration : AuthConfiguration) (events : List MonitorEvent) (number : Nat)
    (id : String) (status : SessionStatus) : Prop :=
  ∃ early input late, events = early ++ .step number input :: late ∧
    (history configuration early).watches[number]? = some ⟨id, .announcing status⟩ ∧
      input.listening = false

/-- What a finished session has come to: the status that is announced, what was delivered for it until
then, and its record. -/
inductive Outcome (number : Nat) (finished : AuthSession Instant) :
    SessionStatus → List (Nat × WatchAct) → AuthSession Instant → Prop where
  | kept {tokens : TokenPair} (authentic : finished.status = .authenticated)
      (brought : finished.tokens = some tokens) :
      Outcome number finished .authenticated [(number, .stores tokens none)] finished
  | withdrawn {tokens : TokenPair} {reason : String} (authentic : finished.status = .authenticated)
      (brought : finished.tokens = some tokens) :
      Outcome number finished .cancelled [(number, .stores tokens (some reason))]
        { finished with status := .cancelled, tokens := none }
  | ended (final : finished.status ≠ .pending) (other : finished.status ≠ .authenticated) :
      Outcome number finished finished.status [] finished

/-- How far the watch that has finished a session has come, what was delivered for the session, and how
it is recorded. -/
inductive Conclusion (configuration : AuthConfiguration) (events : List MonitorEvent) (number : Nat)
    (id : String) (finished : AuthSession Instant) :
    WatchStage → List (Nat × WatchAct) → AuthSession Instant → Prop where
  | storing {tokens : TokenPair} (authentic : finished.status = .authenticated)
      (brought : finished.tokens = some tokens) :
      Conclusion configuration events number id finished (.storing tokens) [] finished
  | withdrawing {tokens : TokenPair} {reason : String}
      (authentic : finished.status = .authenticated) (brought : finished.tokens = some tokens) :
      Conclusion configuration events number id finished .withdrawing
        [(number, .stores tokens (some reason))] finished
  | announcing {status : SessionStatus} {deliveries : List (Nat × WatchAct)} {record : AuthSession Instant}
      (outcome : Outcome number finished status deliveries record) :
      Conclusion configuration events number id finished (.announcing status) deliveries record
  | sent {status : SessionStatus} {deliveries : List (Nat × WatchAct)} {record : AuthSession Instant}
      (outcome : Outcome number finished status deliveries record) :
      Conclusion configuration events number id finished (.returned status)
        ((number, .sends (.ofStatus id status)) :: deliveries) record
  | unheard {status : SessionStatus} {deliveries : List (Nat × WatchAct)} {record : AuthSession Instant}
      (outcome : Outcome number finished status deliveries record)
      (missed : Unheard configuration events number id status) :
      Conclusion configuration events number id finished (.returned status) deliveries record

/-- No watch has finished the session of an id, and nothing was delivered for it. -/
structure Open (configuration : AuthConfiguration) (events : List MonitorEvent) (id : String) :
    Prop where
  unfinished : ∀ early number finished, ¬ FinishedAt configuration events early number id finished
  idle : ∀ (number : Nat) (watch : Watch),
    (history configuration events).watches[number]? = some watch → watch.id = id →
      watch.stage.delivers = false
  nothing : (history configuration events).deliveries id = []
  fresh : ∀ session, (history configuration events).registry.find? id = some session →
    session.status = .pending ∧ Begun configuration events id session

structure Concluded (configuration : AuthConfiguration) (events early : List MonitorEvent)
    (number : Nat) (id : String) (finished : AuthSession Instant) (stage : WatchStage)
    (record : AuthSession Instant) : Prop where
  finish : FinishedAt configuration events early number id finished
  unique : ∀ early' number' finished',
    FinishedAt configuration events early' number' id finished' →
      early' = early ∧ number' = number ∧ finished' = finished
  origin : ∃ begun, Begun configuration events id begun ∧ finished.expiresAt = begun.expiresAt
  recorded : ∀ session, (history configuration events).registry.find? id = some session →
    session = record
  found : (history configuration events).watches[number]? = some ⟨id, stage⟩
  conclusion : Conclusion configuration events number id finished stage
    ((history configuration events).deliveries id) record
  others : ∀ (other : Nat) (watch : Watch),
    (history configuration events).watches[other]? = some watch → watch.id = id → other ≠ number →
      watch.stage.delivers = false

/-- The session of an id is open, or was finished. -/
inductive Fate (configuration : AuthConfiguration) (events : List MonitorEvent) (id : String) :
    Prop where
  | isOpen : Open configuration events id → Fate configuration events id
  | isConcluded {early : List MonitorEvent} {number : Nat} {finished : AuthSession Instant}
      {stage : WatchStage} {record : AuthSession Instant} :
      Concluded configuration events early number id finished stage record →
        Fate configuration events id

/-! ### Steps that finish a session -/

theorem Finishes.eq {other : AuthSession Instant} (finishes : monitor.Finishes number input id finished)
    (again : monitor.Finishes number input id other) : other = finished := by
  obtain ⟨status, tokens, found, -, stands⟩ := finishes
  obtain ⟨_, _, foundAgain, -, standsAgain⟩ := again
  obtain ⟨rfl, rfl⟩ := by simpa using found.symm.trans foundAgain
  exact Option.some.inj (standsAgain.symm.trans stands)

theorem Finishes.delivers {step : WatchStep} (finishes : monitor.Finishes number input id finished)
    (stepped : monitor.step? number input = some step) : step.stage.delivers = true := by
  obtain ⟨status, tokens, found, recorded, -⟩ := finishes
  have moved := (step?_of_found found input).symm.trans stepped
  obtain rfl := Option.some.inj moved
  simp only [WatchStage.complete]
  generalize monitor.registry.complete input.clock id status tokens = answer at recorded ⊢
  obtain ⟨recordedAs, registry⟩ := answer
  cases recordedAs with
  | none => cases recorded
  | some recordedAs => cases recordedAs <;> cases tokens <;> rfl

theorem Finishes.step? (finishes : monitor.Finishes number input id finished) :
    ∃ step, monitor.step? number input = some step := by
  obtain ⟨status, tokens, found, -⟩ := finishes
  exact ⟨_, step?_of_found found input⟩

theorem FinishedAt.append {early : List MonitorEvent}
    (finish : FinishedAt configuration events early number id finished) (later : List MonitorEvent) :
    FinishedAt configuration (events ++ later) early number id finished := by
  obtain ⟨input, late, rfl, finishes⟩ := finish
  exact ⟨input, late ++ later, by simp, finishes⟩

theorem FinishedAt.of_append {early : List MonitorEvent}
    (finish : FinishedAt configuration (events ++ [event]) early number id finished) :
    FinishedAt configuration events early number id finished ∨
      early = events ∧ ∃ input, event = .step number input ∧
        (history configuration events).Finishes number input id finished := by
  obtain ⟨input, late, same, finishes⟩ := finish
  rcases List.eq_nil_or_concat late with rfl | ⟨late, last, rfl⟩
  · obtain ⟨rfl, lastly⟩ := List.append_inj' same rfl
    obtain rfl := List.singleton_inj.mp lastly
    exact .inr ⟨rfl, input, rfl, finishes⟩
  · left
    rw [List.concat_eq_append, ← List.cons_append, ← List.append_assoc] at same
    obtain ⟨rfl, -⟩ := List.append_inj' same rfl
    exact ⟨input, late, rfl, finishes⟩

theorem Begun.append {begun : AuthSession Instant} (origin : Begun configuration events id begun)
    (event : MonitorEvent) : Begun configuration (events ++ [event]) id begun := by
  obtain ⟨early, now, late, rfl, same⟩ := origin
  exact ⟨early, now, late ++ [event], by simp, same⟩

theorem Unheard.append {status : SessionStatus}
    (missed : Unheard configuration events number id status) (event : MonitorEvent) :
    Unheard configuration (events ++ [event]) number id status := by
  obtain ⟨early, input, late, rfl, found, deaf⟩ := missed
  exact ⟨early, input, late ++ [event], by simp, found, deaf⟩

theorem Conclusion.append {deliveries : List (Nat × WatchAct)}
    (conclusion : Conclusion configuration events number id finished stage deliveries record)
    (event : MonitorEvent) :
    Conclusion configuration (events ++ [event]) number id finished stage deliveries record := by
  cases conclusion with
  | storing authentic brought => exact .storing authentic brought
  | withdrawing authentic brought => exact .withdrawing authentic brought
  | announcing outcome => exact .announcing outcome
  | sent outcome => exact .sent outcome
  | unheard outcome missed => exact .unheard outcome (missed.append event)

theorem finishes_of_pending {status recorded : SessionStatus} {tokens : Option TokenPair}
    {session : AuthSession Instant}
    (watching : monitor.watches[number]? = some ⟨id, .completing status tokens⟩)
    (found : monitor.registry.find? id = some session) (pending : session.status = .pending)
    (terminal : status.isTerminal = true)
    (judged : recorded = if session.isExpired input.clock then .expired else status) :
    monitor.Finishes number input id (session.endedAs input.clock recorded tokens) := by
  subst judged
  refine ⟨status, tokens, watching, ?_, ?_⟩
  · simp [Registry.complete, found, pending, terminal]
  · simp [Registry.complete, found, pending, terminal, Registry.find?_put, AuthSession.endedAs]

/-! ### Sessions that are finished -/

theorem Conclusion.settled {deliveries : List (Nat × WatchAct)}
    (conclusion : Conclusion configuration events number id finished stage deliveries record) :
    stage.delivers = true ∨ stage.returned?.isSome = true := by
  cases conclusion <;> simp [WatchStage.delivers, WatchStage.returned?]

theorem Outcome.record_ne_pending {status : SessionStatus} {deliveries : List (Nat × WatchAct)}
    (outcome : Outcome number finished status deliveries record) : record.status ≠ .pending := by
  cases outcome with
  | kept authentic brought => simp [authentic]
  | withdrawn authentic brought => simp
  | ended final other => exact final

theorem Outcome.record_status {status : SessionStatus} {deliveries : List (Nat × WatchAct)}
    (outcome : Outcome number finished status deliveries record) : record.status = status := by
  cases outcome with
  | kept authentic brought => exact authentic
  | withdrawn authentic brought => rfl
  | ended final other => rfl

theorem Conclusion.outcome_of_returned {status : SessionStatus}
    {deliveries : List (Nat × WatchAct)}
    (conclusion : Conclusion configuration events number id finished (.returned status) deliveries
      record) : ∃ delivered, Outcome number finished status delivered record := by
  cases conclusion with
  | sent outcome => exact ⟨_, outcome⟩
  | unheard outcome missed => exact ⟨_, outcome⟩

theorem Conclusion.authentic_of_withdrawing {deliveries : List (Nat × WatchAct)}
    (conclusion : Conclusion configuration events number id finished .withdrawing deliveries record) :
    record.status = .authenticated := by
  cases conclusion with
  | withdrawing authentic brought => exact authentic

theorem Conclusion.record_ne_pending {deliveries : List (Nat × WatchAct)}
    (conclusion : Conclusion configuration events number id finished stage deliveries record) :
    record.status ≠ .pending := by
  cases conclusion with
  | storing authentic brought => simp [authentic]
  | withdrawing authentic brought => simp [authentic]
  | announcing outcome => exact outcome.record_ne_pending
  | sent outcome => exact outcome.record_ne_pending
  | unheard outcome missed => exact outcome.record_ne_pending

theorem Concluded.eq_of_delivers {early : List MonitorEvent} {other : Nat} {going : WatchStage}
    (concluded : Concluded configuration events early number id finished stage record)
    (found : (history configuration events).watches[other]? = some ⟨id, going⟩)
    (delivers : going.delivers = true) : other = number ∧ going = stage := by
  have same : other = number := by
    by_contra different
    have idle := concluded.others other _ found rfl different
    rw [delivers] at idle
    cases idle
  subst same
  exact ⟨rfl, by simpa using found.symm.trans concluded.found⟩

theorem Finishes.found (finishes : monitor.Finishes number input id finished) :
    ∃ session, monitor.registry.find? id = some session ∧ session.status = .pending ∧
      ∃ status tokens, finished = session.endedAs input.clock
        (if session.isExpired input.clock then .expired else status) tokens := by
  obtain ⟨status, tokens, watching, recorded, stands⟩ := finishes
  have completion := monitor.registry.complete_completion input.clock id status tokens
  generalize monitor.registry.complete input.clock id status tokens = answer
    at recorded stands completion
  cases completion with
  | refused => cases recorded
  | recorded found terminal pending judged =>
      subst judged
      rw [Registry.find?_put, if_pos rfl] at stands
      exact ⟨_, found, pending, status, tokens, (Option.some.inj stands).symm⟩

end Monitor

end BackupClient
