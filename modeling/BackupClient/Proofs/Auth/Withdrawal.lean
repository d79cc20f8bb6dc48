import BackupClient.Proofs.Auth.Fate

/-!
What becomes of the record of a session that is not pending.

It stays as it is, or is forgotten, until a watch withdraws it.  Only an authentication is withdrawn, by the
watch whose tokens were refused.
-/

namespace BackupClient

namespace Monitor

variable {configuration : AuthConfiguration} {events later : List MonitorEvent} {id : String}
  {monitor : Monitor} {event : MonitorEvent} {session : AuthSession Instant}

/-- In an event a watch of an id withdraws its session. -/
def Withdrawal (monitor : Monitor) (id : String) : MonitorEvent → Prop
  | .step number _ => monitor.watches[number]? = some ⟨id, .withdrawing⟩
  | _ => False

/-- In one of some events, each after those before it, a watch of an id withdraws its session. -/
def Withdraws (monitor : Monitor) (id : String) : List MonitorEvent → Prop
  | [] => False
  | event :: later => monitor.Withdrawal id event ∨ (monitor.react event).Withdraws id later

/-- Only a withdrawal changes the record of a session that is not pending. -/
theorem find?_of_react (unique : monitor.registry.Unique) (settled : monitor.registry.Settled id)
    (other : event.begins id = false) (kept : ¬ monitor.Withdrawal id event)
    (found : (monitor.react event).registry.find? id = some session) :
    monitor.registry.find? id = some session := by
  cases event with
  | watch _ => exact found
  | sweep now => exact unique.find?_of_sweep found
  | begin now begun =>
      have different : id ≠ begun := fun same => MonitorEvent.ne_begin other now (same ▸ rfl)
      exact ((Registry.find?_begin _ now begun id).trans (if_neg different)).symm.trans found
  | step number input =>
      change (monitor.advance number input).registry.find? id = some session at found
      rcases monitor.advance_registry number input with same | ⟨watch, step, stands, moved, left⟩
      · rwa [same] at found
      · rw [left] at found
        by_cases own : watch.id = id
        · obtain ⟨owner, stage⟩ := watch
          obtain rfl := own
          have leaves := WatchStage.step?_leaves moved
          generalize step.registry = next at leaves found
          cases leaves with
          | kept => exact found
          | completed =>
              rw [settled.complete_eq] at found
              exact found
          | withdrawn => exact absurd stands kept
        · exact (WatchStage.find?_of_step?_of_ne (Ne.symm own) moved).symm.trans found

theorem cancelled_of_withdrawal (withdrawal : monitor.Withdrawal id event)
    (found : (monitor.react event).registry.find? id = some session) :
    ∃ before, monitor.registry.find? id = some before ∧ session.status = .cancelled := by
  cases event with
  | step number input =>
      have stepped := step?_of_found withdrawal input
      change (monitor.advance number input).registry.find? id = some session at found
      rw [advance_of_step? stepped] at found
      obtain ⟨before, stands, rfl⟩ := Registry.find?_of_revoke found
      exact ⟨before, stands, rfl⟩
  | watch _ => cases withdrawal
  | sweep now => cases withdrawal
  | begin now begun => cases withdrawal

/-- A record that is not pending is withdrawn, or stays as it is. -/
theorem find?_of_run (unique : monitor.registry.Unique) (settled : monitor.registry.Settled id)
    (unbegun : Unbegun later id)
    (found : (monitor.run later).registry.find? id = some session) :
    ∃ before, monitor.registry.find? id = some before ∧
      (monitor.Withdraws id later → session.status = .cancelled) ∧
      (¬ monitor.Withdraws id later → session = before) := by
  induction later generalizing monitor with
  | nil => exact ⟨session, found, fun withdraws => withdraws.elim, fun _ => rfl⟩
  | cons event later inductionHypothesis =>
      obtain ⟨other, unbegunLater⟩ := unbegun.of_cons
      have settledNext := react_settled unique settled (MonitorEvent.ne_begin other)
      obtain ⟨middle, stands, withdrawn, kept⟩ :=
        inductionHypothesis (react_unique unique event) settledNext unbegunLater found
      by_cases withdrawal : monitor.Withdrawal id event
      · obtain ⟨before, stood, cancelled⟩ := cancelled_of_withdrawal withdrawal stands
        refine ⟨before, stood, fun _ => ?_, fun none => absurd (.inl withdrawal) none⟩
        by_cases again : (monitor.react event).Withdraws id later
        · exact withdrawn again
        · rw [kept again, cancelled]
      · have stood := find?_of_react unique settled other withdrawal stands
        refine ⟨middle, stood, fun some => ?_, fun none => kept fun again => none (.inr again)⟩
        exact withdrawn (some.resolve_left withdrawal)

theorem authenticated_of_withdrawal (once : BegunOnce events id)
    (withdrawal : (history configuration events).Withdrawal id event)
    (stands : (history configuration events).registry.find? id = some session) :
    session.status = .authenticated := by
  cases event with
  | step number input =>
      obtain ⟨early, finished, record, concluded⟩ := concluded_of_delivers once withdrawal rfl
      obtain rfl := concluded.recorded session stands
      exact concluded.conclusion.authentic_of_withdrawing
  | watch _ => cases withdrawal
  | sweep now => cases withdrawal
  | begin now begun => cases withdrawal

theorem authenticated_of_withdraws (once : BegunOnce (events ++ later) id)
    (settled : (history configuration events).registry.Settled id) (unbegun : Unbegun later id)
    (withdraws : (history configuration events).Withdraws id later)
    (remains : (history configuration (events ++ later)).registry.find? id = some session) :
    ∃ before, (history configuration events).registry.find? id = some before ∧
      before.status = .authenticated := by
  induction later generalizing events with
  | nil => cases withdraws
  | cons event later inductionHypothesis =>
      -- The first withdrawal decides, and up to it the record stays as it is.
      have unique := history_unique configuration events
      by_cases withdrawal : (history configuration events).Withdrawal id event
      · rw [history, run_append] at remains
        obtain ⟨before, stands, -⟩ := find?_of_run unique settled unbegun remains
        exact ⟨before, stands, authenticated_of_withdrawal once.of_append withdrawal stands⟩
      · obtain ⟨other, unbegunLater⟩ := unbegun.of_cons
        have after := history_append configuration events event
        have settledNext := react_settled unique settled (MonitorEvent.ne_begin other)
        rw [List.append_cons] at once remains
        obtain ⟨before, stands, authentic⟩ := inductionHypothesis once (after ▸ settledNext)
          unbegunLater (after ▸ withdraws.resolve_left withdrawal) remains
        rw [after] at stands
        exact ⟨before, find?_of_react unique settled other withdrawal stands, authentic⟩

end Monitor

end BackupClient
