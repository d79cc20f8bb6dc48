import BackupClient.Proofs.Auth.PollCourse
import Mathlib.Data.List.Perm.Subperm

/-!
Pollers keep their deadlines.

Whatever the source does and whenever the token is cancelled, a poller opens the source in time only, rests
between two openings, and has returned by its deadline and by its cancellation.
-/

namespace BackupClient

namespace PollRules

/-- A rest lies between two moments, which begins when an attempt has ended.  It takes the interval of the
rules, or thirty years if the clock does not hold its end. -/
def Apart (rules : PollRules) (later earlier : Nat) : Prop :=
  ∃ ended, earlier ≤ ended ∧
    Timer.ending rules.lastMoment (ended * 1000000) rules.retryInterval.nanos ≤ later * 1000000

variable {rules : PollRules} {earlier later moment : Nat}

theorem apart_wake (rules : PollRules) {ended : Nat} (notEarlier : earlier ≤ ended) :
    rules.Apart (rules.wake ended) earlier :=
  ⟨ended, notEarlier, rules.ending_le_wake ended⟩

theorem Apart.mono (apart : rules.Apart later earlier) (notLater : later ≤ moment) :
    rules.Apart moment earlier := by
  obtain ⟨ended, notEarlier, rested⟩ := apart
  exact ⟨ended, notEarlier, Nat.le_trans rested (Nat.mul_le_mul_right _ notLater)⟩

theorem Apart.le (apart : rules.Apart later earlier) : earlier ≤ later := by
  obtain ⟨ended, notEarlier, rested⟩ := apart
  have ending := Timer.le_ending rules.lastMoment (ended * 1000000) rules.retryInterval.nanos
  omega

theorem Apart.lt (apart : rules.Apart later earlier) (positive : 0 < rules.retryInterval.nanos) :
    earlier < later := by
  obtain ⟨ended, notEarlier, rested⟩ := apart
  have ending := Timer.lt_ending positive rules.lastMoment (ended * 1000000)
  omega

end PollRules

/-- An opening lies as far back as the phase of the poller asks for. -/
def PollPhase.Rested {α : Type} (rules : PollRules) (now opening : Nat) : PollPhase α → Prop
  | .beginning => rules.Apart now opening
  | .resting wake => rules.Apart wake opening
  | .opening => opening ≤ now
  | .reading _ => opening ≤ now
  | .stopped _ => True

namespace Polling

variable {μ α : Type} {rules : PollRules} {classify : μ → Option α} {source : TimedSource μ}
  {began : Nat} {state next later : Polling μ α}

/-- What holds of a poller that was called at a moment, whatever has come since. -/
structure OnTime (rules : PollRules) (began : Nat) (state : Polling μ α) : Prop where
  notLater : state.now ≤ max began rules.deadline
  cancelled : ∀ moment, state.cancelledAt = some moment → state.now = moment
  opened : ∀ moment ∈ state.opened, moment < rules.deadline
  spaced : state.opened.Pairwise rules.Apart
  rested : ∀ moment ∈ state.opened, state.poller.phase.Rested rules state.now moment

theorem onTime_start (rules : PollRules) (began : Nat) :
    OnTime rules began (start began : Polling μ α) where
  notLater := Nat.le_max_left _ _
  cancelled := by
    intro moment cancelled
    cases cancelled
  opened := by
    intro moment member
    cases member
  spaced := List.Pairwise.nil
  rested := by
    intro moment member
    cases member

theorem rested_afterAttempt {moment now : Nat} (rules : PollRules) (failures : UInt32)
    (notLater : moment ≤ now) :
    (Poller.afterAttempt rules now failures : Poller α).phase.Rested rules now moment := by
  unfold Poller.afterAttempt
  split
  · trivial
  · exact rules.apart_wake notLater

theorem Turn.onTime (turn : Turn rules classify source state next)
    (onTime : state.OnTime rules began) : next.OnTime rules began := by
  cases turn with
  | stops outcome why => exact { onTime with rested := fun _ _ => trivial }
  | begins timely phase =>
      have rested := onTime.rested
      rw [phase] at rested
      refine { onTime with opened := ?_, spaced := ?_, rested := ?_ }
      · intro moment member
        rcases List.mem_cons.mp member with rfl | older
        · exact timely.2
        · exact onTime.opened moment older
      · exact List.pairwise_cons.mpr ⟨rested, onTime.spaced⟩
      · intro moment member
        rcases List.mem_cons.mp member with rfl | older
        · exact Nat.le_refl _
        · exact (rested moment older).le
  | wakes timely wake phase due =>
      refine { onTime with rested := ?_ }
      intro moment member
      have rested := onTime.rested moment member
      rw [phase] at rested
      exact rested.mono due
  | opened timely moment rest phase came =>
      have rested := onTime.rested
      rw [phase] at rested
      exact { onTime with rested := rested }
  | refused timely moment rest reason phase came =>
      have rested := onTime.rested
      rw [phase] at rested
      refine { onTime with rested := ?_ }
      intro opening member
      exact rested_afterAttempt rules _ (rested opening member)
  | hears timely moment rest heard content phase came unfinal =>
      have rested := onTime.rested
      rw [phase] at rested
      exact { onTime with rested := rested }
  | concludes timely moment rest heard content value phase came final =>
      exact { onTime with rested := fun _ _ => trivial }
  | breaks timely moment rest heard told phase came isEnd =>
      have rested := onTime.rested
      rw [phase] at rested
      refine { onTime with rested := ?_ }
      intro opening member
      exact rested_afterAttempt rules _ (rested opening member)

theorem rested_mono {phase : PollPhase α} {opening moment now : Nat}
    (rested : phase.Rested rules now opening) (notEarlier : now ≤ moment) :
    phase.Rested rules moment opening := by
  cases phase with
  | beginning => exact rested.mono notEarlier
  | opening => exact Nat.le_trans rested notEarlier
  | reading heard => exact Nat.le_trans rested notEarlier
  | resting wake => exact rested
  | stopped outcome => trivial

theorem Next.onTime (step : Next rules classify source state next)
    (onTime : state.OnTime rules began) : next.OnTime rules began := by
  cases step with
  | turn step stepped => exact (turn_of_step? source stepped).2.onTime onTime
  | cancel running pending =>
      refine { onTime with cancelled := ?_ }
      intro moment cancelled
      exact Option.some.inj cancelled
  | pass moment running later idle =>
      obtain ⟨pending, within⟩ := pass_bounds running later idle
      refine { onTime with notLater := ?_, cancelled := ?_, rested := ?_ }
      · exact Nat.le_trans within (Nat.le_max_right _ _)
      · intro cancellation cancelled
        rw [pending] at cancelled
        cases cancelled
      · intro opening member
        exact rested_mono (onTime.rested opening member) (Nat.le_of_lt later)

theorem Reaches.onTime (reached : Reaches rules classify source state later)
    (onTime : state.OnTime rules began) : later.OnTime rules began := by
  induction reached with
  | refl => exact onTime
  | tail reached step inductionHypothesis => exact step.onTime inductionHypothesis

/-! ### No opening too late -/

/-- The token is cancelled or the deadline has come. -/
def Closed (rules : PollRules) (state : Polling μ α) : Prop :=
  state.cancelledAt.isSome = true ∨ rules.deadline ≤ state.now

theorem Closed.not_timely (closed : state.Closed rules) : ¬ state.Timely rules := by
  rintro ⟨pending, early⟩
  rcases closed with cancelled | late
  · rw [pending] at cancelled
    cases cancelled
  · exact Nat.not_lt_of_le late early

theorem Next.closed (step : Next rules classify source state next) (closed : state.Closed rules) :
    next.Closed rules ∧ next.opened = state.opened := by
  cases step with
  | turn step stepped =>
      refine ⟨closed, ?_⟩
      obtain ⟨-, turn⟩ := turn_of_step? source stepped
      generalize state.after source step = next at turn ⊢
      cases turn with
      | begins timely phase => exact absurd timely closed.not_timely
      | stops => rfl
      | wakes => rfl
      | opened => rfl
      | refused => rfl
      | hears => rfl
      | concludes => rfl
      | breaks => rfl
  | cancel running pending => exact ⟨.inl rfl, rfl⟩
  | pass moment running later idle =>
      obtain ⟨pending, within⟩ := pass_bounds running later idle
      exact absurd ⟨pending, Nat.lt_of_lt_of_le later within⟩ closed.not_timely

theorem Reaches.closed (reached : Reaches rules classify source state later)
    (closed : state.Closed rules) : later.Closed rules ∧ later.opened = state.opened := by
  induction reached with
  | refl => exact ⟨closed, rfl⟩
  | tail reached step inductionHypothesis =>
      obtain ⟨stillClosed, unopened⟩ := step.closed inductionHypothesis.1
      exact ⟨stillClosed, unopened.trans inductionHypothesis.2⟩

/-! ### No run without an end -/

theorem OnTime.openings_le (onTime : state.OnTime rules began) (positive : 0 < rules.retryInterval.nanos) :
    state.openings ≤ rules.deadline := by
  have nodup : state.opened.Nodup := by
    refine onTime.spaced.imp ?_
    intro later earlier apart
    exact Nat.ne_of_gt (apart.lt positive)
  have inRange : state.opened ⊆ List.range rules.deadline := by
    intro moment member
    exact List.mem_range.mpr (onTime.opened moment member)
  have shorter := (nodup.subperm inRange).length_le
  rwa [List.length_range] at shorter

theorem OnTime.ends (onTime : state.OnTime rules began)
    (bounded : 0 < rules.retryInterval.nanos ∨ state.Closed rules) : Ends rules classify source state := by
  rcases bounded with positive | closed
  · apply ends_of_bounded rules.deadline
    intro later reached
    exact (Reaches.onTime reached onTime).openings_le positive
  · apply ends_of_bounded state.openings
    intro later reached
    exact Nat.le_of_eq (congrArg List.length (Reaches.closed reached closed).2)

/-- The openings of a poller are in time and a rest apart, and it returns in time. -/
structure Punctual (rules : PollRules) (classify : μ → Option α) (source : TimedSource μ)
    (began : Nat) (state : Polling μ α) : Prop where
  opened : ∀ moment ∈ state.opened, moment < rules.deadline
  closed : state.Closed rules → ∀ later, Reaches rules classify source state later →
    later.opened = state.opened
  apart : state.opened.Pairwise rules.Apart
  /-- Neither the deadline nor the cancellation lies in the past, unless it did so at the call. -/
  notLater : state.now ≤ max began rules.deadline
  cancelled : ∀ moment, state.cancelledAt = some moment → state.now = moment
  /-- A cancellation stops the poller first and its deadline second, whatever else may be due. -/
  obeys : state.poller.outcome? = none → state.Closed rules → ∀ event,
    state.poller.step? rules classify state.now state.cancelledAt.isSome event =
      some (state.poller.stop (if state.cancelledAt.isSome then .cancelled else .deadline))
  returned : state.poller.outcome? ≠ none → ∀ next, ¬ Next rules classify source state next
  goesOn : state.poller.outcome? = none →
    ∃ next, Next rules classify source state next ∧ next.cancelledAt = state.cancelledAt
  /-- A poller without an interval may be refused as often as one likes before any time passes. -/
  ends : 0 < rules.retryInterval.nanos ∨ state.Closed rules → Ends rules classify source state

/-- Whatever a source does and whenever the token is cancelled, a poller opens the source neither at its
deadline or later nor after its cancellation, it returns at the earlier of the two at the latest, and it
rests between any two openings. -/
theorem punctual_of_reaches (reached : Reaches rules classify source (start began) state) :
    state.Punctual rules classify source began := by
  have onTime := Reaches.onTime reached (onTime_start rules began)
  constructor
  case opened => exact onTime.opened
  case closed =>
      intro closed later reaches
      exact (Reaches.closed reaches closed).2
  case apart => exact onTime.spaced
  case notLater => exact onTime.notLater
  case cancelled => exact onTime.cancelled
  case obeys =>
      intro running closed event
      exact step?_of_due running closed event
  case returned =>
      intro stopped next step
      exact not_next_of_stopped stopped step
  case goesOn => exact goes_on source
  case ends => exact onTime.ends

def refusing : TimedSource String :=
  fun _ moment => [(moment, .refused "unavailable")]

def briefRules : PollRules where
  retryInterval := ⟨7000000, by decide⟩
  maxRetries := 3
  deadline := 60

theorem punctual_at_second_opening :
    ∃ state, Reaches briefRules (fun _ => some true) refusing (start 0) state ∧
      state.opened = [7, 0] ∧
      state.Punctual briefRules (fun _ => some true) refusing 0 := by
  have reached : Reaches briefRules (fun _ => some true) refusing (start 0) _ :=
    reaches_of_moves? [none, none, some 7, none, none] rfl
  exact ⟨_, reached, rfl, punctual_of_reaches reached⟩

/-- An interval of three hundred thousand million years, and a deadline in forty years. -/
def endlessRules : PollRules where
  retryInterval := ⟨300000000000 * 31557600 * 1000000000, by decide⟩
  maxRetries := 3
  deadline := 40 * 31557600 * 1000

/-- Openings lie less than the interval apart if no clock can measure it. -/
theorem openings_closer_than_interval :
    ∃ state, Reaches endlessRules (fun _ => some true) refusing (start 0) state ∧
      state.opened = [946080000000, 0] ∧
      946080000000 * 1000000 < endlessRules.retryInterval.nanos := by
  have reached : Reaches endlessRules (fun _ => some true) refusing (start 0) _ :=
    reaches_of_moves? [none, none, some 946080000000, none, none] rfl
  exact ⟨_, reached, rfl, by decide⟩

end Polling

end BackupClient
