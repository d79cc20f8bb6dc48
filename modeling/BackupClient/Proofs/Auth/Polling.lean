import BackupClient.Auth.Poller

/-!
When a poller stops.

A poller stops with a value only in the step that takes the message which has this value.
-/

namespace BackupClient.Poller

variable {μ α : Type} {rules : PollRules} {classify : μ → Option α} {now : Nat} {cancelled : Bool}
  {event : Option (SourceEvent μ)} {poller : Poller α} {step : PollStep μ α}

theorem endAttempt_outcome?_ne (rules : PollRules) (now : Nat) (failures : UInt32)
    (acts : List (PollAct μ)) (value : α) :
    (endAttempt rules now failures acts : PollStep μ α).poller.outcome? ≠
      some (.terminal value) := by
  unfold endAttempt
  split <;> simp [outcome?]

theorem take?_terminal {told : SourceEvent μ} {value : α}
    (taken : poller.take? rules classify now told = some step)
    (stopped : step.poller.outcome? = some (.terminal value)) :
    step.took = true ∧ ∃ content, told = .message content ∧ classify content = some value := by
  cases told with
  | refused reason =>
      simp only [take?] at taken
      split at taken
      · obtain rfl := Option.some.inj taken
        exact absurd stopped (endAttempt_outcome?_ne rules now _ _ value)
      · cases taken
  | opened =>
      simp only [take?] at taken
      split at taken
      · obtain rfl := Option.some.inj taken
        simp [outcome?] at stopped
      · cases taken
  | message content =>
      simp only [take?] at taken
      split at taken
      · obtain rfl := Option.some.inj taken
        refine ⟨rfl, content, rfl, ?_⟩
        cases classified : classify content with
        | none => simp [outcome?, classified] at stopped
        | some other => simpa [outcome?, classified] using stopped
      · cases taken
  | failed reason =>
      simp only [take?] at taken
      split at taken
      · obtain rfl := Option.some.inj taken
        exact absurd stopped (endAttempt_outcome?_ne rules now _ _ value)
      · cases taken
  | ended =>
      simp only [take?] at taken
      split at taken
      · obtain rfl := Option.some.inj taken
        exact absurd stopped (endAttempt_outcome?_ne rules now _ _ value)
      · cases taken

theorem step?_terminal {value : α}
    (stepped : poller.step? rules classify now cancelled event = some step)
    (stopped : step.poller.outcome? = some (.terminal value)) :
    step.took = true ∧ ∃ content, event = some (.message content) ∧
      classify content = some value := by
  unfold step? at stepped
  split at stepped
  · cases stepped
  split at stepped
  · obtain rfl := Option.some.inj stepped
    simp [stop, outcome?] at stopped
  split at stepped
  · obtain rfl := Option.some.inj stepped
    simp [stop, outcome?] at stopped
  split at stepped
  · obtain rfl := Option.some.inj stepped
    simp [outcome?] at stopped
  · split at stepped
    · obtain rfl := Option.some.inj stepped
      simp [outcome?] at stopped
    · cases stepped
  · obtain ⟨told, rfl, taken⟩ := Option.bind_eq_some_iff.mp stepped
    obtain ⟨took, content, rfl, classified⟩ := take?_terminal taken stopped
    exact ⟨took, content, rfl, classified⟩

end BackupClient.Poller
