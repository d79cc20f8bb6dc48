import BackupClient.Proofs.Auth.Conclusion

/-!
The fate of a session that is created once, event by event.

Most events leave it as it is.  It changes when the session is begun, when a watch finishes it, and when
this watch goes on.
-/

namespace BackupClient

namespace Monitor

variable {configuration : AuthConfiguration} {events : List MonitorEvent} {number : Nat}
  {id : String} {monitor : Monitor} {watch : Watch} {input : WatchInput} {event : MonitorEvent}
  {finished record : AuthSession Instant} {stage : WatchStage}

/-! ### Events that leave the fate of a session as it is -/

theorem apply_watch_of_ne {other : Nat} (different : other ≠ number) (step : WatchStep) :
    (monitor.apply number step).watches[other]? = monitor.watches[other]? := by
  simp [apply, Ne.symm different]

/-- An event finishes nothing under an id, nothing is delivered for it, its record stays or is forgotten,
and no watch of it leaves or comes to a stage in which it delivers. -/
structure Undisturbed (configuration : AuthConfiguration) (events : List MonitorEvent)
    (event : MonitorEvent) (id : String) : Prop where
  recorded : ∀ session, (history configuration (events ++ [event])).registry.find? id = some session →
    (history configuration events).registry.find? id = some session
  stays : ∀ (number : Nat) (stage : WatchStage),
    (history configuration events).watches[number]? = some ⟨id, stage⟩ →
      stage.delivers = true ∨ stage.returned?.isSome = true →
        (history configuration (events ++ [event])).watches[number]? = some ⟨id, stage⟩
  idle : ∀ (number : Nat) (watch : Watch),
    (history configuration (events ++ [event])).watches[number]? = some watch → watch.id = id →
      watch.stage.delivers = true →
        (history configuration events).watches[number]? = some watch
  silent : (history configuration (events ++ [event])).deliveries id =
    (history configuration events).deliveries id
  unfinished : ∀ number input finished, event = .step number input →
    ¬ (history configuration events).Finishes number input id finished

/-- An event changes nothing but the registry, where it makes no new record for an id. -/
theorem undisturbed_of_registry {registry : Registry}
    (reacts : (history configuration events).react event =
      (history configuration events).withRegistry registry)
    (kept : ∀ session, registry.find? id = some session →
      (history configuration events).registry.find? id = some session)
    (noStep : ∀ number input, event ≠ .step number input) :
    Undisturbed configuration events event id := by
  have after := (history_append configuration events event).trans reacts
  refine ⟨fun session found => ?_, fun number stage found _ => ?_, fun number watch found _ _ => ?_,
    ?_, fun number input finished same => absurd same (noStep number input)⟩
  · rw [after] at found
    exact kept session found
  · rwa [after]
  · rwa [after] at found
  · rw [after]
    rfl

theorem undisturbed_of_watch (configuration : AuthConfiguration) (events : List MonitorEvent)
    (id other : String) : Undisturbed configuration events (.watch other) id := by
  have after := history_append configuration events (.watch other)
  refine ⟨fun session found => ?_, fun number stage found _ => ?_,
    fun number watch found _ delivers => ?_, ?_, fun number input finished same => by cases same⟩
  · rwa [after] at found
  · rw [after]
    rcases react_watch found (.watch other) with ⟨_, _, same, -⟩ | still
    · cases same
    · exact still
  · rw [after] at found
    rcases watch_of_react found with ⟨old, was⟩ | reading
    · rcases react_watch was (.watch other) with ⟨_, _, same, -⟩ | still
      · cases same
      · rwa [← still, found] at was
    · rw [reading] at delivers
      cases delivers
  · rw [after]
    exact deliveries_watch configuration events id other

theorem undisturbed_of_stuck (stuck : (history configuration events).step? number input = none) :
    Undisturbed configuration events (.step number input) id := by
  have after : history configuration (events ++ [.step number input]) =
      history configuration events := by
    rw [history_append]
    simp [react, advance, stuck]
  refine ⟨fun session found => ?_, fun other stage found _ => ?_, fun other watch found _ _ => ?_,
    ?_, fun other again finished same finishes => ?_⟩
  · rwa [after] at found
  · rwa [after]
  · rwa [after] at found
  · rw [after]
  · obtain ⟨rfl, rfl⟩ := MonitorEvent.step.inj same
    obtain ⟨step, stepped⟩ := finishes.step?
    rw [stuck] at stepped
    cases stepped

section Steps

variable {step : WatchStep}

theorem history_step (stepped : (history configuration events).step? number input = some step) :
    history configuration (events ++ [.step number input]) =
      (history configuration events).apply number step := by
  rw [history_append]
  exact advance_of_step? stepped

theorem undisturbed_of_foreign
    (stepped : (history configuration events).step? number input = some step)
    (found : (history configuration events).watches[number]? = some watch) (foreign : watch.id ≠ id) :
    Undisturbed configuration events (.step number input) id := by
  have after := history_step stepped
  have moved := (step?_of_found found input).symm.trans stepped
  refine ⟨fun session recorded => ?_, fun other stage stays _ => ?_,
    fun other going came own _ => ?_, ?_, fun other again finished same finishes => ?_⟩
  · rw [after] at recorded
    exact (WatchStage.find?_of_step?_of_ne (Ne.symm foreign) moved).symm.trans recorded
  · have different : other ≠ number := by
      rintro rfl
      obtain rfl := Option.some.inj (found.symm.trans stays)
      exact foreign rfl
    rw [after, apply_watch_of_ne different, stays]
  · have different : other ≠ number := by
      rintro rfl
      rw [after, apply_watch found] at came
      obtain rfl := Option.some.inj came
      exact foreign own
    rwa [after, apply_watch_of_ne different] at came
  · have unowned : ¬ (history configuration events).owner? number = some id := by
      simpa [owner?, found] using foreign
    rw [after, deliveries_apply, if_neg unowned, List.nil_append]
  · obtain ⟨rfl, rfl⟩ := MonitorEvent.step.inj same
    obtain ⟨_, _, watching, -⟩ := finishes
    obtain rfl := Option.some.inj (found.symm.trans watching)
    exact foreign rfl

theorem undisturbed_of_quiet
    (stepped : (history configuration events).step? number input = some step)
    (found : (history configuration events).watches[number]? = some ⟨id, stage⟩)
    (before : stage.delivers = false) (notReturned : stage.returned? = none)
    (quiet : step.stage.delivers = false)
    (kept : step.registry = (history configuration events).registry)
    (silent : step.acts.filter WatchAct.isDelivery = []) :
    Undisturbed configuration events (.step number input) id := by
  have after := history_step stepped
  refine ⟨fun session recorded => ?_, fun other going stays settled => ?_,
    fun other going came own delivers => ?_, ?_, fun other again finished same finishes => ?_⟩
  · rw [after] at recorded
    exact kept ▸ recorded
  · have different : other ≠ number := by
      rintro rfl
      obtain ⟨-, rfl⟩ := by simpa using found.symm.trans stays
      simp [before, notReturned] at settled
    rw [after, apply_watch_of_ne different, stays]
  · have different : other ≠ number := by
      rintro rfl
      rw [after, apply_watch found] at came
      obtain rfl := Option.some.inj came
      rw [quiet] at delivers
      cases delivers
    rwa [after, apply_watch_of_ne different] at came
  · rw [after, deliveries_apply, silent]
    simp
  · obtain ⟨rfl, rfl⟩ := MonitorEvent.step.inj same
    have delivers := finishes.delivers stepped
    rw [quiet] at delivers
    cases delivers

end Steps

/-- The event begins the session of an id, or a watch of the id delivers something or begins to, or the
fate of the session is left as it is. -/
theorem event_cases (configuration : AuthConfiguration) (events : List MonitorEvent)
    (event : MonitorEvent) (id : String) :
    Undisturbed configuration events event id ∨ (∃ now, event = .begin now id) ∨
      ∃ number input stage step, event = .step number input ∧
        (history configuration events).watches[number]? = some ⟨id, stage⟩ ∧
        (history configuration events).step? number input = some step ∧
        (stage.delivers = true ∨ step.stage.delivers = true) := by
  cases event with
  | watch other => exact .inl (undisturbed_of_watch configuration events id other)
  | sweep now =>
      exact .inl (undisturbed_of_registry rfl
        (fun session found => (history_unique configuration events).find?_of_sweep found) (by simp))
  | begin now other =>
      by_cases same : id = other
      · exact .inr (.inl ⟨now, by rw [same]⟩)
      · refine .inl (undisturbed_of_registry rfl (fun session found => ?_) (by simp))
        exact (Registry.find?_begin _ now other id).trans (if_neg same) ▸ found
  | step number input =>
      cases stepped : (history configuration events).step? number input with
      | none => exact .inl (undisturbed_of_stuck stepped)
      | some step =>
          obtain ⟨⟨owner, stage⟩, found, moved⟩ := step?_eq_some_iff.mp stepped
          by_cases own : owner = id
          · subst own
            have moves := WatchStage.step?_moves moved
            by_cases loud : stage.delivers = true ∨ step.stage.delivers = true
            · exact .inr (.inr ⟨number, input, stage, step, rfl, found, stepped, loud⟩)
            · left
              cases moves with
              | quiet before notReturned after kept silent =>
                  exact undisturbed_of_quiet stepped found before notReturned after kept silent
              | @finishes _ recorded tokens =>
                  cases recorded <;> cases tokens <;> simp [WatchStage.afterFinish, WatchStage.delivers] at loud
              | _ => simp [WatchStage.delivers] at loud
          · exact .inl (undisturbed_of_foreign stepped found own)

/-! ### The fate after one more event -/

theorem Undisturbed.of_finishedAt {early : List MonitorEvent}
    (undisturbed : Undisturbed configuration events event id)
    (finish : FinishedAt configuration (events ++ [event]) early number id finished) :
    FinishedAt configuration events early number id finished := by
  rcases finish.of_append with before | ⟨-, input, last, finishes⟩
  · exact before
  · exact absurd finishes (undisturbed.unfinished number input finished last)

theorem Open.undisturbed (isOpen : Open configuration events id)
    (undisturbed : Undisturbed configuration events event id) :
    Open configuration (events ++ [event]) id where
  unfinished := fun early number finished finish =>
    isOpen.unfinished early number finished (undisturbed.of_finishedAt finish)
  idle := by
    intro number watch found own
    cases delivers : watch.stage.delivers with
    | false => rfl
    | true =>
        have was := undisturbed.idle number watch found own delivers
        exact delivers.symm.trans (isOpen.idle number watch was own)
  nothing := undisturbed.silent.trans isOpen.nothing
  fresh := fun session found =>
    have ⟨pending, begun⟩ := isOpen.fresh session (undisturbed.recorded session found)
    ⟨pending, begun.append event⟩

theorem Concluded.undisturbed {early : List MonitorEvent}
    (concluded : Concluded configuration events early number id finished stage record)
    (undisturbed : Undisturbed configuration events event id) :
    Concluded configuration (events ++ [event]) early number id finished stage record where
  finish := concluded.finish.append [event]
  unique := fun _ _ _ finish => concluded.unique _ _ _ (undisturbed.of_finishedAt finish)
  origin :=
    have ⟨begun, origin, expires⟩ := concluded.origin
    ⟨begun, origin.append event, expires⟩
  recorded := fun session found => concluded.recorded session (undisturbed.recorded session found)
  found := undisturbed.stays number stage concluded.found concluded.conclusion.settled
  conclusion := undisturbed.silent ▸ concluded.conclusion.append event
  others := by
    intro other watch found own different
    cases delivers : watch.stage.delivers with
    | false => rfl
    | true =>
        have was := undisturbed.idle other watch found own delivers
        exact delivers.symm.trans (concluded.others other watch was own different)

theorem Fate.begin {now : Instant} (fate : Fate configuration events id) (unbegun : Unbegun events id) :
    Fate configuration (events ++ [.begin now id]) id := by
  have after := history_append configuration events (.begin now id)
  cases fate with
  | isConcluded concluded =>
      obtain ⟨begun, ⟨early, now, late, rfl, -⟩, -⟩ := concluded.origin
      have begins := unbegun (.begin now id) (by simp)
      simp [MonitorEvent.begins] at begins
  | isOpen isOpen =>
      refine .isOpen ⟨fun early number finished finish => ?_, fun number watch found own => ?_, ?_,
        fun session found => ?_⟩
      · rcases finish.of_append with before | ⟨-, input, last, -⟩
        · exact isOpen.unfinished early number finished before
        · cases last
      · rw [after] at found
        exact isOpen.idle number watch found own
      · rw [after]
        exact isOpen.nothing
      · rw [after] at found
        have begun := (Registry.find?_begin _ now id id).symm.trans found
        rw [if_pos rfl] at begun
        obtain rfl := Option.some.inj begun
        exact ⟨rfl, events, now, [], rfl, rfl⟩

section Steps

variable {step : WatchStep}

theorem idle_of_others
    (stepped : (history configuration events).step? number input = some step)
    (others : ∀ (other : Nat) (watch : Watch),
      (history configuration events).watches[other]? = some watch → watch.id = id →
        other ≠ number → watch.stage.delivers = false)
    (other : Nat) (watch : Watch)
    (found : (history configuration (events ++ [.step number input])).watches[other]? = some watch)
    (own : watch.id = id) (different : other ≠ number) : watch.stage.delivers = false := by
  rw [history_step stepped, apply_watch_of_ne different] at found
  exact others other watch found own different

/-- The session is finished by the last step, and its watch goes on to store its tokens or to announce its
status. -/
theorem conclusion_of_finish {status recorded : SessionStatus} {tokens : Option TokenPair}
    {session : AuthSession Instant} (spared : Spared configuration events number)
    (watching : (history configuration events).watches[number]? =
      some ⟨id, .completing status tokens⟩)
    (stands : (history configuration events).registry.find? id = some session)
    (pending : session.status = .pending) (terminal : status.isTerminal = true)
    (judged : recorded = if session.isExpired input.clock then .expired else status) :
    Conclusion configuration (events ++ [.step number input]) number id
      (session.endedAs input.clock recorded tokens) (WatchStage.afterFinish recorded tokens) []
      (session.endedAs input.clock recorded tokens) := by
  by_cases authentic : recorded = .authenticated
  · subst authentic
    obtain rfl := WatchStage.authenticated_of_recorded judged rfl
    cases tokens with
    | some pair => exact .storing rfl rfl
    | none =>
        -- Without tokens the watch would have found the session finished, and so not pending.
        have settled : (history configuration events).registry.Settled id :=
          history_backed spared watching
        exact absurd pending (settled session stands)
  · have final : recorded ≠ .pending := by
      rintro rfl
      split at judged
      · cases judged
      · subst judged
        cases terminal
    have announces : WatchStage.afterFinish recorded tokens = .announcing recorded := by
      cases recorded <;> first | rfl | exact absurd rfl authentic
    rw [announces]
    exact .announcing (.ended final authentic)

theorem Open.finish {status recorded : SessionStatus} {tokens : Option TokenPair}
    {session : AuthSession Instant} (isOpen : Open configuration events id)
    (spared : Spared configuration events number)
    (watching : (history configuration events).watches[number]? =
      some ⟨id, .completing status tokens⟩)
    (stands : (history configuration events).registry.find? id = some session)
    (pending : session.status = .pending) (terminal : status.isTerminal = true)
    (judged : recorded = if session.isExpired input.clock then .expired else status)
    (stepped : (history configuration events).step? number input =
      some ⟨WatchStage.afterFinish recorded tokens,
        (history configuration events).registry.put id
          (session.endedAs input.clock recorded tokens), false, []⟩) :
    Concluded configuration (events ++ [.step number input]) events number id
      (session.endedAs input.clock recorded tokens) (WatchStage.afterFinish recorded tokens)
      (session.endedAs input.clock recorded tokens) := by
  have after := history_step stepped
  have finishes := finishes_of_pending watching stands pending terminal judged
  have conclusion := conclusion_of_finish spared watching stands pending terminal judged
  refine ⟨⟨input, [], rfl, finishes⟩, ?_, ?_, ?_, ?_, ?_, ?_⟩
  · intro early' number' finished' finish
    rcases finish.of_append with before | ⟨rfl, again, same, finishesAgain⟩
    · exact absurd before (isOpen.unfinished early' number' finished')
    · obtain ⟨rfl, rfl⟩ := MonitorEvent.step.inj same
      exact ⟨rfl, rfl, finishes.eq finishesAgain⟩
  · exact ⟨session, (isOpen.fresh session stands).2.append _, rfl⟩
  · intro other found
    rw [after] at found
    exact Option.some.inj
      (found.symm.trans ((Registry.find?_put _ id id _).trans (if_pos rfl)))
  · rw [after, apply_watch watching]
  · have nothing : ((history configuration (events ++ [.step number input])).deliveries id) = [] := by
      rw [after, deliveries_apply, isOpen.nothing]
      simp
    rw [nothing]
    exact conclusion
  · exact idle_of_others stepped fun other watch found own _ => isOpen.idle other watch found own

theorem Concluded.not_finishes {early : List MonitorEvent} {other : Nat} {again : AuthSession Instant}
    (concluded : Concluded configuration events early number id finished stage record)
    (finishes : (history configuration events).Finishes other input id again) : False := by
  obtain ⟨session, found, pending, -⟩ := finishes.found
  obtain rfl := concluded.recorded session found
  exact concluded.conclusion.record_ne_pending pending

theorem Concluded.of_step {early : List MonitorEvent} {later : AuthSession Instant}
    (concluded : Concluded configuration events early number id finished stage record)
    (stepped : (history configuration events).step? number input = some step)
    (recorded : ∀ session, step.registry.find? id = some session → session = later)
    (conclusion : Conclusion configuration (events ++ [.step number input]) number id finished
      step.stage (((step.acts.filter WatchAct.isDelivery).map fun act => (number, act)).reverse ++
        (history configuration events).deliveries id) later) :
    Concluded configuration (events ++ [.step number input]) early number id finished step.stage
      later := by
  have after := history_step stepped
  refine ⟨concluded.finish.append _, ?_, ?_, ?_, ?_, ?_, ?_⟩
  · intro early' number' finished' finish
    rcases finish.of_append with before | ⟨-, again, -, finishes⟩
    · exact concluded.unique early' number' finished' before
    · exact (concluded.not_finishes finishes).elim
  · obtain ⟨begun, origin, expires⟩ := concluded.origin
    exact ⟨begun, origin.append _, expires⟩
  · intro session found
    rw [after] at found
    exact recorded session found
  · rw [after, apply_watch concluded.found]
  · have owned : (history configuration events).owner? number = some id := by
      simp [owner?, concluded.found]
    rw [after, deliveries_apply, if_pos owned]
    exact conclusion
  · exact idle_of_others stepped concluded.others

theorem Concluded.eq_of_loud {early : List MonitorEvent} {other : Nat} {going : WatchStage}
    (concluded : Concluded configuration events early number id finished stage record)
    (found : (history configuration events).watches[other]? = some ⟨id, going⟩)
    (moves : WatchStage.Moves id input (history configuration events).registry going step)
    (loud : going.delivers = true ∨ step.stage.delivers = true) : other = number := by
  cases moves with
  | quiet before notReturned after kept silent => simp [before, after] at loud
  | finishes stands pending terminal judged =>
      obtain rfl := concluded.recorded _ stands
      exact absurd pending concluded.conclusion.record_ne_pending
  | keeps accepted => exact (concluded.eq_of_delivers found rfl).1
  | refuses refused => exact (concluded.eq_of_delivers found rfl).1
  | withdraws => exact (concluded.eq_of_delivers found rfl).1
  | announces => exact (concluded.eq_of_delivers found rfl).1

theorem Concluded.goes_on {early : List MonitorEvent}
    (concluded : Concluded configuration events early number id finished stage record)
    (stepped : (history configuration events).step? number input = some step)
    (moves : WatchStage.Moves id input (history configuration events).registry stage step)
    (loud : stage.delivers = true ∨ step.stage.delivers = true) :
    ∃ later, Concluded configuration (events ++ [.step number input]) early number id finished
      step.stage later := by
  have conclusion := concluded.conclusion
  cases moves with
  | quiet before notReturned after kept silent => simp [before, after] at loud
  | finishes => cases conclusion
  | keeps accepted =>
      refine ⟨record, concluded.of_step stepped concluded.recorded ?_⟩
      generalize (history configuration events).deliveries id = deliveries at conclusion ⊢
      cases conclusion with
      | storing authentic brought => exact .announcing (.kept authentic brought)
  | refuses refused =>
      refine ⟨record, concluded.of_step stepped concluded.recorded ?_⟩
      generalize (history configuration events).deliveries id = deliveries at conclusion ⊢
      cases conclusion with
      | storing authentic brought => exact .withdrawing authentic brought
  | withdraws =>
      refine ⟨{ record with status := .cancelled, tokens := none }, concluded.of_step stepped ?_ ?_⟩
      · intro session found
        obtain ⟨before, stands, rfl⟩ := Registry.find?_of_revoke found
        rw [concluded.recorded before stands]
      · generalize (history configuration events).deliveries id = deliveries at conclusion ⊢
        cases conclusion with
        | withdrawing authentic brought => exact .announcing (.withdrawn authentic brought)
  | @announces status first second =>
      refine ⟨record, concluded.of_step stepped concluded.recorded ?_⟩
      generalize (history configuration events).deliveries id = deliveries at conclusion ⊢
      cases conclusion with
      | announcing outcome =>
          cases heard : input.listening with
          | true => exact .sent outcome
          | false => exact .unheard outcome ⟨events, input, [], rfl, concluded.found, heard⟩

end Steps

theorem Fate.of_step {going : WatchStage} {step : WatchStep} (fate : Fate configuration events id)
    (once : BegunOnce events id)
    (found : (history configuration events).watches[number]? = some ⟨id, going⟩)
    (stepped : (history configuration events).step? number input = some step)
    (loud : going.delivers = true ∨ step.stage.delivers = true) :
    Fate configuration (events ++ [.step number input]) id := by
  have moves := WatchStage.step?_moves ((step?_of_found found input).symm.trans stepped)
  cases fate with
  | isOpen isOpen =>
      have idle := isOpen.idle number _ found rfl
      cases moves with
      | quiet before notReturned after kept silent => simp [before, after] at loud
      | finishes stands pending terminal judged =>
          have spared := once.spared found rfl
          exact .isConcluded (isOpen.finish spared found stands pending terminal judged stepped)
      | _ => cases idle
  | isConcluded concluded =>
      obtain rfl := concluded.eq_of_loud found moves loud
      obtain ⟨-, rfl⟩ := by simpa using found.symm.trans concluded.found
      obtain ⟨later, concludedLater⟩ := concluded.goes_on stepped moves loud
      exact .isConcluded concludedLater

/-- The fate of a session that is begun once, by induction on all that has happened. -/
theorem history_fate (configuration : AuthConfiguration) (once : BegunOnce events id) :
    Fate configuration events id := by
  induction events using List.reverseRecOn with
  | nil =>
      refine .isOpen ⟨fun early number finished finish => ?_, fun number watch found => ?_, rfl,
        fun session found => ?_⟩
      · obtain ⟨input, late, same, -⟩ := finish
        simp at same
      · simp [history, run, idle] at found
      · cases found
  | append_singleton events event inductionHypothesis =>
      have fate := inductionHypothesis once.of_append
      rcases event_cases configuration events event id with
        undisturbed | ⟨now, rfl⟩ | ⟨number, input, going, step, rfl, found, stepped, loud⟩
      · cases fate with
        | isOpen isOpen => exact .isOpen (isOpen.undisturbed undisturbed)
        | isConcluded concluded => exact .isConcluded (concluded.undisturbed undisturbed)
      · exact fate.begin once.unbegun
      · exact fate.of_step once.of_append found stepped loud

theorem concluded_of_delivers (once : BegunOnce events id)
    (found : (history configuration events).watches[number]? = some ⟨id, stage⟩)
    (delivers : stage.delivers = true) :
    ∃ early finished record, Concluded configuration events early number id finished stage record := by
  cases history_fate configuration once with
  | isOpen isOpen =>
      have idle := isOpen.idle number _ found rfl
      rw [delivers] at idle
      cases idle
  | @isConcluded early other finished going record concluded =>
      obtain ⟨rfl, rfl⟩ := concluded.eq_of_delivers found delivers
      exact ⟨early, finished, record, concluded⟩

end Monitor

end BackupClient
