import BackupClient.Proofs.Auth.Interleaving

/-!
In which steps a watch authenticates a session, and in which it sends that it has.

Both go back to the verdict on the outcome of polling, which is an authentication only for a message that
brings tokens, or to the status that the watch found when it read its session.
-/

namespace BackupClient

namespace WatchStage

variable {configuration : AuthConfiguration} {id other : String} {input : WatchInput}
  {registry : Registry} {stage : WatchStage} {step : WatchStep}

theorem verdict_authenticated {outcome : PollOutcome AuthStatusUpdate} {tokens : Option TokenPair}
    (judged : verdict outcome = (.authenticated, tokens)) :
    ∃ pair, tokens = some pair ∧ outcome = .terminal ⟨.authenticated, some pair⟩ := by
  cases outcome with
  | terminal update =>
      obtain ⟨status, brought⟩ := update
      cases status <;> cases brought <;> simp [verdict] at judged ⊢
      exact judged.symm
  | exhausted => cases judged
  | deadline => cases judged
  | cancelled => cases judged

theorem authenticated_of_recorded {recorded status : SessionStatus} {late : Bool}
    (same : recorded = (if late then .expired else status)) (authentic : recorded = .authenticated) :
    status = .authenticated := by
  subst authentic
  cases late with
  | true => cases same
  | false => exact same.symm

/-- A watch makes a session authenticated only where it completes a pending one as such. -/
theorem completes_of_authenticated
    (stepped : stage.step? configuration id input registry = some step)
    (before : ¬ registry.Authenticated other) (after : step.registry.Authenticated other) :
    other = id ∧ ∃ tokens, stage = .completing .authenticated tokens ∧ ¬ registry.Settled id := by
  by_cases same : other = id
  · subst same
    refine ⟨rfl, ?_⟩
    have leaves := step?_leaves stepped
    generalize step.registry = next at leaves after
    cases leaves with
    | kept => exact absurd after before
    | @completed status tokens =>
        have completion := registry.complete_completion input.clock other status tokens
        generalize registry.complete input.clock other status tokens = result at completion after
        cases completion with
        | refused => exact absurd after before
        | recorded stands _ pending judged =>
            obtain ⟨finished, found, authentic⟩ := after
            rw [Registry.find?_put, if_pos rfl] at found
            obtain rfl := Option.some.inj found
            obtain rfl := authenticated_of_recorded judged authentic
            exact ⟨tokens, rfl, fun settled => settled _ stands pending⟩
    | withdrawn =>
        obtain ⟨_, found, authentic⟩ := after
        obtain ⟨_, -, rfl⟩ := Registry.find?_of_revoke found
        cases authentic
  · obtain ⟨session, found, authentic⟩ := after
    rw [find?_of_step?_of_ne same stepped] at found
    exact absurd ⟨session, found, authentic⟩ before

theorem polling_sends_nothing {rules : PollRules} {poller : Poller AuthStatusUpdate}
    (polled : poll? id input registry rules poller = some step) (event : AuthEvent) :
    .sends event ∉ step.acts := by
  rcases poll?_cases polled with ⟨outcome, -, rfl⟩ | ⟨next, -, rfl⟩
  · simp only [verdictActs]
    split <;> simp [notice]
  · simp only [List.mem_filterMap, not_exists, not_and]
    intro act _
    cases act <;> simp [ofPollAct]

theorem announces_of_sends (stepped : stage.step? configuration id input registry = some step)
    (sent : .sends (.authenticated other) ∈ step.acts) :
    other = id ∧ stage = .announcing .authenticated := by
  cases stage with
  | announcing status =>
      obtain rfl := Option.some.inj stepped
      simp only [announce, notice, List.mem_cons, List.not_mem_nil, or_false, reduceCtorEq,
        false_or] at sent
      split at sent
      · cases status <;> simp only [AuthEvent.ofStatus, WatchAct.sends.injEq, reduceCtorEq] at sent
        exact ⟨AuthEvent.authenticated.inj sent, rfl⟩
      · cases sent
  | polling rules poller => exact absurd sent (polling_sends_nothing stepped _)
  | reading =>
      obtain rfl := Option.some.inj stepped
      simp only [read] at sent
      split at sent <;> simp [notice] at sent
  | storing tokens =>
      obtain rfl := Option.some.inj stepped
      simp only [store] at sent
      split at sent <;> simp [notice] at sent
  | measuring session =>
      obtain rfl := Option.some.inj stepped
      cases sent
  | completing status tokens =>
      obtain rfl := Option.some.inj stepped
      cases sent
  | recalling =>
      obtain rfl := Option.some.inj stepped
      cases sent
  | withdrawing =>
      obtain rfl := Option.some.inj stepped
      cases sent
  | returned status => cases stepped

end WatchStage

end BackupClient
