import BackupClient.Proofs.Auth.Withdrawal

/-!
Whether the watches of a session that is created once report what the registry tells of it in the end.

The watch that has finished the session does.  Another watch looks at the record when it returns, and it
reports an authentication that may still be withdrawn afterwards.  A watch that comes before the session
finds none and reports that it has expired.
-/

namespace BackupClient

namespace WatchStage

variable {configuration : AuthConfiguration} {id : String} {input : WatchInput}
  {registry : Registry} {stage : WatchStage} {step : WatchStep}

/-- A watch has nothing left to do but to report a status. -/
def reports : WatchStage → Bool
  | .recalling => true
  | .returned _ => true
  | _ => false

/-- The steps by which a watch comes to report a status. -/
inductive Reports (id : String) (input : WatchInput) (registry : Registry) :
    WatchStage → WatchStage → Prop where
  | unknown (absent : registry.find? id = none) :
      Reports id input registry .reading (.returned .expired)
  | refused {status : SessionStatus} {tokens : Option TokenPair}
      (answer : (registry.complete input.clock id status tokens).1 = none) :
      Reports id input registry (.completing status tokens) .recalling
  | recalled :
      Reports id input registry .recalling
        (.returned (((registry.get? input.clock id).map (·.status)).getD .expired))
  | announced {status : SessionStatus} :
      Reports id input registry (.announcing status) (.returned status)

theorem reports_of_step? (stepped : stage.step? configuration id input registry = some step)
    (reporting : step.stage.reports = true) : Reports id input registry stage step.stage := by
  cases stage with
  | reading =>
      obtain rfl := Option.some.inj stepped
      simp only [read] at reporting ⊢
      cases observed : registry.get? input.clock id with
      | none => exact .unknown (Option.map_eq_none_iff.mp observed)
      | some session =>
          simp only [observed] at reporting
          split at reporting <;> cases reporting
  | completing status tokens =>
      obtain rfl := Option.some.inj stepped
      have completion := registry.complete_completion input.clock id status tokens
      simp only [complete] at reporting ⊢
      generalize answered : registry.complete input.clock id status tokens = result
        at completion reporting ⊢
      cases completion with
      | refused => exact .refused (by rw [answered])
      | @recorded session recorded => cases recorded <;> cases tokens <;> cases reporting
  | recalling =>
      obtain rfl := Option.some.inj stepped
      exact .recalled
  | announcing status =>
      obtain rfl := Option.some.inj stepped
      exact .announced
  | polling rules poller =>
      rcases poll?_cases stepped with ⟨_, -, rfl⟩ | ⟨_, -, rfl⟩ <;> cases reporting
  | storing tokens =>
      obtain rfl := Option.some.inj stepped
      simp only [store] at reporting
      split at reporting <;> cases reporting
  | measuring session =>
      obtain rfl := Option.some.inj stepped
      cases reporting
  | withdrawing =>
      obtain rfl := Option.some.inj stepped
      cases reporting
  | returned status => cases stepped

end WatchStage

namespace Monitor

variable {configuration : AuthConfiguration} {events later : List MonitorEvent} {number : Nat}
  {id : String} {monitor : Monitor} {session : AuthSession Instant} {stage : WatchStage}
  {status : SessionStatus}

/-- A watch has looked again at a session that was finished already, and the session was withdrawn after
that. -/
def Misled (configuration : AuthConfiguration) (events : List MonitorEvent) (number : Nat)
    (id : String) : Prop :=
  ∃ early input late, events = early ++ .step number input :: late ∧
    (history configuration early).watches[number]? = some ⟨id, .recalling⟩ ∧
      (history configuration (early ++ [.step number input])).Withdraws id late

/-- A watch has asked for a session when there was none. -/
def Strayed (configuration : AuthConfiguration) (events : List MonitorEvent) (number : Nat)
    (id : String) : Prop :=
  ∃ early input late, events = early ++ .step number input :: late ∧
    (history configuration early).watches[number]? = some ⟨id, .reading⟩ ∧
      (history configuration early).registry.find? id = none

/-- All watches of an id that have returned report a status. -/
def Agree (monitor : Monitor) (id : String) (status : SessionStatus) : Prop :=
  ∀ watch ∈ monitor.watches, watch.id = id → ∀ told ∈ watch.stage.returned?, told = status

instance (monitor : Monitor) (id : String) (status : SessionStatus) :
    Decidable (monitor.Agree id status) :=
  inferInstanceAs (Decidable (∀ watch ∈ monitor.watches, _ → ∀ told ∈ watch.stage.returned?, _))

/-! ### How a watch came to its stage -/

/-- A watch that has gone on came to its stage by a step, and has stood still since. -/
theorem came_to_stage (found : (history configuration events).watches[number]? = some ⟨id, stage⟩)
    (gone : stage ≠ .reading) :
    ∃ early input late before step, events = early ++ .step number input :: late ∧
      (history configuration early).watches[number]? = some ⟨id, before⟩ ∧
      before.step? (history configuration early).configuration id input
        (history configuration early).registry = some step ∧ step.stage = stage := by
  induction events using List.reverseRecOn with
  | nil => simp [history, run, idle] at found
  | append_singleton events event inductionHypothesis =>
      -- The last event is a step of the watch itself, or leaves it where it was, or begins it.
      rw [history_append] at found
      rcases watch_of_react found with ⟨old, was⟩ | reading
      · rcases react_watch was event with ⟨input, step, rfl, moved, -, next⟩ | still
        · obtain ⟨rfl, rfl⟩ := by simpa using found.symm.trans next
          exact ⟨events, input, [], old.stage, step, rfl, was, moved, rfl⟩
        · obtain rfl := Option.some.inj (found.symm.trans still)
          obtain ⟨early, input, late, before, step, rfl, stood, moved, same⟩ :=
            inductionHypothesis was
          exact ⟨early, input, late ++ [event], before, step, by simp, stood, moved, same⟩
      · exact absurd reading gone

theorem run_returned (found : monitor.watches[number]? = some ⟨id, .returned status⟩)
    (later : List MonitorEvent) :
    (monitor.run later).watches[number]? = some ⟨id, .returned status⟩ := by
  induction later generalizing monitor with
  | nil => exact found
  | cons event later inductionHypothesis =>
      rcases react_watch found event with ⟨_, _, -, moved, -⟩ | still
      · cases moved
      · exact inductionHypothesis still

theorem returned_of_step? {early : List MonitorEvent} {input : WatchInput} {step : WatchStep}
    (was : (history configuration early).watches[number]? = some ⟨id, stage⟩)
    (stepped : stage.step? (history configuration early).configuration id input
      (history configuration early).registry = some step)
    (returns : step.stage = .returned status) (late : List MonitorEvent) :
    (history configuration (early ++ .step number input :: late)).watches[number]? =
      some ⟨id, .returned status⟩ := by
  have next := history_step ((step?_of_found was input).trans stepped)
  have returned : (history configuration (early ++ [.step number input])).watches[number]? =
      some ⟨id, .returned status⟩ := by
    rw [next, apply_watch was, returns]
  rw [List.append_cons, history, run_append]
  exact run_returned returned late

theorem settled_of_recalling (once : BegunOnce events id)
    (found : (history configuration events).watches[number]? = some ⟨id, .recalling⟩) :
    (history configuration events).registry.Settled id := by
  obtain ⟨early, input, late, before, step, rfl, was, stepped, recalls⟩ :=
    came_to_stage found WatchStage.noConfusion
  have reports := WatchStage.reports_of_step? stepped (by rw [recalls]; rfl)
  rw [recalls] at reports
  cases reports with
  | @refused status tokens answer =>
      have terminal : status.isTerminal = true := idle_run_isFinal configuration early was
      -- What was to be recorded was final, so that a pending session would have taken it.
      have settled : (history configuration early).registry.Settled id := by
        intro session stands pending
        simp [Registry.complete, stands, terminal, pending] at answer
      rw [history, run_append]
      exact run_settled (history_unique configuration early) settled (once.unbegun_after was rfl)

theorem recorded_of_announcing {early : List MonitorEvent} (once : BegunOnce (early ++ later) id)
    (announcing : (history configuration early).watches[number]? = some ⟨id, .announcing status⟩)
    (returned : (history configuration (early ++ later)).watches[number]? =
      some ⟨id, .returned status⟩)
    (stands : (history configuration (early ++ later)).registry.find? id = some session) :
    session.status = status ∧ session.status ≠ .pending := by
  -- This watch had finished the session when it announced, and nobody else finishes it later.
  obtain ⟨_, finished, _, before⟩ := concluded_of_delivers once.of_append announcing rfl
  have finish := before.finish.append later
  cases history_fate configuration once with
  | isOpen isOpen => exact absurd finish (isOpen.unfinished _ _ _)
  | isConcluded concluded =>
      obtain ⟨-, rfl, rfl⟩ := concluded.unique _ _ _ finish
      obtain rfl := concluded.recorded session stands
      obtain ⟨-, rfl⟩ := by simpa using returned.symm.trans concluded.found
      obtain ⟨_, outcome⟩ := concluded.conclusion.outcome_of_returned
      exact ⟨outcome.record_status, outcome.record_ne_pending⟩

/-! ### What a watch reports -/

theorem Strayed.returned (strayed : Strayed configuration events number id) :
    (history configuration events).watches[number]? = some ⟨id, .returned .expired⟩ := by
  obtain ⟨early, input, late, rfl, reading, absent⟩ := strayed
  refine returned_of_step? reading rfl ?_ late
  simp [WatchStage.read, Registry.get?, absent]

theorem Misled.returned (misled : Misled configuration events number id) :
    ∃ status, (history configuration events).watches[number]? = some ⟨id, .returned status⟩ := by
  obtain ⟨early, input, late, rfl, recalling, -⟩ := misled
  exact ⟨_, returned_of_step? recalling rfl rfl late⟩

/-- A watch that looks again reports the record of its session, which may be withdrawn afterwards. -/
theorem reports_of_recalling {early late : List MonitorEvent} {input : WatchInput}
    (once : BegunOnce (early ++ .step number input :: late) id)
    (recalling : (history configuration early).watches[number]? = some ⟨id, .recalling⟩)
    (returned : (history configuration (early ++ .step number input :: late)).watches[number]? =
      some ⟨id, .returned status⟩)
    (stands : (history configuration (early ++ .step number input :: late)).registry.find? id =
      some session) :
    ((history configuration (early ++ [.step number input])).Withdraws id late →
      status = .authenticated ∧ session.status = .cancelled) ∧
    (¬ (history configuration (early ++ [.step number input])).Withdraws id late →
      status = session.status ∧ session.status ≠ .pending) := by
  have settled := settled_of_recalling once.of_append recalling
  have unbegun : Unbegun late id := (once.unbegun_after recalling rfl).of_cons.2
  -- To look again leaves the record as it is.
  have after : (history configuration (early ++ [.step number input])).registry =
      (history configuration early).registry := by
    rw [history_append]
    exact advance_registry_of_not_engaged recalling rfl input
  rw [List.append_cons] at once stands
  have remains := stands
  rw [history, run_append] at stands
  obtain ⟨before, found, withdrawn, kept⟩ :=
    find?_of_run (history_unique configuration _) (after ▸ settled) unbegun stands
  rw [after] at found
  have ended := settled before found
  have reported : status = before.status := by
    have looked : (WatchStage.lookAgain id input (history configuration early).registry).stage =
        .returned before.status := by
      simp [WatchStage.lookAgain, Registry.get?, found, before.statusAt_of_ne_pending ended]
    simpa using returned.symm.trans (returned_of_step? recalling rfl looked late)
  refine ⟨fun withdraws => ?_, fun none => ?_⟩
  · obtain ⟨again, foundAgain, authentic⟩ :=
      authenticated_of_withdraws once (after ▸ settled) unbegun withdraws remains
    rw [after, found] at foundAgain
    obtain rfl := Option.some.inj foundAgain
    exact ⟨reported.trans authentic, withdrawn withdraws⟩
  · obtain rfl := kept none
    exact ⟨reported, ended⟩

section Agreement

variable (once : BegunOnce events id)
  (found : (history configuration events).registry.find? id = some session)
  (returned : (history configuration events).watches[number]? = some ⟨id, .returned status⟩)

include once found returned

theorem Misled.reports (misled : Misled configuration events number id) :
    status = .authenticated ∧ session.status = .cancelled := by
  obtain ⟨early, input, late, rfl, recalling, withdraws⟩ := misled
  exact (reports_of_recalling once recalling returned found).1 withdraws

/-- A watch that found its session, and is not misled, reports its record. -/
theorem reports_of_fair (fair : ¬ Misled configuration events number id)
    (settled : ¬ Strayed configuration events number id) :
    status = session.status ∧ session.status ≠ .pending := by
  obtain ⟨early, input, late, before, step, rfl, was, stepped, returns⟩ :=
    came_to_stage returned WatchStage.noConfusion
  have reports := WatchStage.reports_of_step? stepped (by rw [returns]; rfl)
  rw [returns] at reports
  cases reports with
  | unknown absent => exact absurd ⟨early, input, late, rfl, was, absent⟩ settled
  | recalled =>
      exact (reports_of_recalling once was returned found).2 fun withdraws =>
        fair ⟨early, input, late, rfl, was, withdraws⟩
  | announced =>
      obtain ⟨same, ended⟩ := recorded_of_announcing once was returned found
      exact ⟨same.symm, ended⟩

end Agreement

theorem reports_iff (once : BegunOnce events id) {now : Instant}
    (stands : (history configuration events).registry.get? now id = some session)
    (returned : (history configuration events).watches[number]? = some ⟨id, .returned status⟩) :
    status = session.status ↔
      ¬ Misled configuration events number id ∧
        (Strayed configuration events number id → session.status = .expired) := by
  obtain ⟨record, found, rfl⟩ := Option.map_eq_some_iff.mp stands
  constructor
  · refine fun same => ⟨fun misled => ?_, fun strayed => ?_⟩
    · obtain ⟨rfl, cancelled⟩ := misled.reports once found returned
      simp [AuthSession.statusAt, cancelled] at same
    · obtain rfl : status = .expired := by simpa using returned.symm.trans strayed.returned
      exact same.symm
  · rintro ⟨fair, unlessStrayed⟩
    by_cases strayed : Strayed configuration events number id
    · obtain rfl : status = .expired := by simpa using returned.symm.trans strayed.returned
      exact (unlessStrayed strayed).symm
    · obtain ⟨same, ended⟩ := reports_of_fair once found returned fair strayed
      exact same.trans (record.statusAt_of_ne_pending ended now).symm

theorem agree_iff : monitor.Agree id status ↔
    ∀ (number : Nat) (told : SessionStatus),
      monitor.watches[number]? = some ⟨id, .returned told⟩ → told = status := by
  constructor
  · intro agree number told found
    exact agree _ (List.mem_of_getElem? found) rfl told rfl
  · rintro agree ⟨_, stage⟩ member rfl told returned
    obtain ⟨number, found⟩ := List.mem_iff_getElem?.mp member
    cases stage with
    | returned status =>
        obtain rfl := Option.some.inj returned
        exact agree number status found
    | _ => cases returned

/-- The watches of a session that is begun once, and that the registry still tells of, all report what it
tells just if none of them is misled, and none has come before the session unless this has expired.  Those
that are misled report an authentication that is withdrawn. -/
theorem watches_agree_iff (configuration : AuthConfiguration) (events : List MonitorEvent)
    (id : String) (once : BegunOnce events id) (now : Instant) (session : AuthSession Instant)
    (stands : (history configuration events).registry.get? now id = some session) :
    ((history configuration events).Agree id session.status ↔
      ∀ number, ¬ Misled configuration events number id ∧
        (Strayed configuration events number id → session.status = .expired)) ∧
    ∀ (number : Nat) (status : SessionStatus),
      (history configuration events).watches[number]? = some ⟨id, .returned status⟩ →
        (status = session.status ↔
          ¬ Misled configuration events number id ∧
            (Strayed configuration events number id → session.status = .expired)) ∧
        (Misled configuration events number id →
          status = .authenticated ∧ session.status = .cancelled) := by
  refine ⟨agree_iff.trans ⟨fun agree number => ⟨fun misled => ?_, fun strayed => ?_⟩,
    fun fair number status returned => (reports_iff once stands returned).mpr (fair number)⟩,
    fun number status returned => ⟨reports_iff once stands returned, fun misled => ?_⟩⟩
  · obtain ⟨status, returned⟩ := misled.returned
    exact ((reports_iff once stands returned).mp (agree number status returned)).1 misled
  · exact (agree number .expired strayed.returned).symm
  · obtain ⟨record, found, rfl⟩ := Option.map_eq_some_iff.mp stands
    obtain ⟨told, cancelled⟩ := misled.reports once found returned
    exact ⟨told, by simp [AuthSession.statusAt, cancelled]⟩

def hears (number : Nat) (tokens : TokenPair) : List MonitorEvent :=
  [.step number (finds none), .step number (finds none), .step number (finds none),
    .step number (finds (some .opened)),
    .step number (finds (some (.message ⟨.authenticated, some tokens⟩))), .step number (finds none)]

/-- Two watches hear that their session is authenticated, and the first one is storing its tokens, while
the second one is about to look again. -/
def contest : List MonitorEvent :=
  [.begin .epoch "s1", .watch "s1", .watch "s1"] ++ hears 0 ⟨"access", "refresh"⟩ ++
    hears 1 ⟨"access", "refresh"⟩ ++ [.step 0 (finds none), .step 1 (finds none)]

/-- The tokens of a watch are refused, and it withdraws its session and returns. -/
def withdrawal : List MonitorEvent :=
  [.step 0 { finds none with refusal := some "keyring locked" }, .step 0 (finds none),
    .step 0 (finds none)]

/-- The second watch looks again after the withdrawal. -/
theorem watches_agree_on_withdrawn_session :
    let configuration := AuthConfiguration.standard
    let events := contest ++ withdrawal ++ [.step 1 (finds none)]
    let session : AuthSession Instant :=
      { AuthSession.start "s1" .epoch configuration.sessionLifetime with
        status := .cancelled, finishedAt := some .epoch }
    BegunOnce events "s1" ∧
      (history configuration events).registry.get? .epoch "s1" = some session ∧
      (history configuration events).watches =
        [⟨"s1", .returned .cancelled⟩, ⟨"s1", .returned .cancelled⟩] ∧
      (history configuration events).Agree "s1" .cancelled ∧
      ∀ number, ¬ Misled configuration events number "s1" := by
  intro configuration events session
  have once : BegunOnce events "s1" := by decide
  have stands : (history configuration events).registry.get? .epoch "s1" = some session := by decide
  have agree : (history configuration events).Agree "s1" .cancelled := by decide
  have condition := (watches_agree_iff configuration events "s1" once .epoch session stands).1.mp agree
  exact ⟨once, stands, by decide, agree, fun number => (condition number).1⟩

/-- The second watch looks again before the withdrawal.  In a second run it comes before the session. -/
theorem watches_disagree_on_withdrawn_session :
    let configuration := AuthConfiguration.standard
    let events := contest ++ [.step 1 (finds none)] ++ withdrawal
    let strayed : List MonitorEvent :=
      [.watch "s1", .step 0 (finds none), .begin .epoch "s1", .watch "s1"] ++
        hears 1 ⟨"access", "refresh"⟩ ++
        [.step 1 (finds none), .step 1 (finds none), .step 1 (finds none)]
    (BegunOnce events "s1" ∧
      (history configuration events).watches =
        [⟨"s1", .returned .cancelled⟩, ⟨"s1", .returned .authenticated⟩] ∧
      ((history configuration events).registry.get? .epoch "s1").map (·.status) = some .cancelled ∧
      ¬ (history configuration events).Agree "s1" .cancelled) ∧
    (BegunOnce strayed "s1" ∧
      (history configuration strayed).watches =
        [⟨"s1", .returned .expired⟩, ⟨"s1", .returned .authenticated⟩] ∧
      ((history configuration strayed).registry.get? .epoch "s1").map (·.status) =
        some .authenticated ∧
      ¬ (history configuration strayed).Agree "s1" .authenticated) := by
  decide

end Monitor

end BackupClient
