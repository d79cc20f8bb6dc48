import BackupClient.Auth.Poller
import Mathlib.Logic.Relation

/-!
Pollers in time.

A poller that can go on without its source goes on at once, and time passes only while it cannot.  What the
source has to tell may be taken later than it comes, and the token may be cancelled at any moment.
-/

namespace BackupClient

namespace PollRules

variable {rules : PollRules} {now : Nat}

theorem ending_le_wake (rules : PollRules) (now : Nat) :
    Timer.ending rules.lastMoment (now * 1000000) rules.retryInterval.nanos ≤
      rules.wake now * 1000000 := by
  unfold wake
  omega

theorem le_wake (rules : PollRules) (now : Nat) : now ≤ rules.wake now := by
  have ended := Timer.le_ending rules.lastMoment (now * 1000000) rules.retryInterval.nanos
  have rung := rules.ending_le_wake now
  omega

theorem wake_of_le (held : now * 1000000 + rules.retryInterval.nanos ≤ rules.lastMoment) :
    rules.wake now = now + rules.retryInterval.milliseconds := by
  unfold wake Duration.milliseconds
  rw [Timer.ending_of_le held]
  omega

theorem wake_of_lt (beyond : rules.lastMoment < now * 1000000 + rules.retryInterval.nanos) :
    rules.wake now = now + Timer.farFuture / 1000000 := by
  unfold wake
  rw [Timer.ending_of_lt beyond]
  unfold Timer.farFuture nanosPerSecond
  omega

end PollRules

namespace PollAct

variable {μ : Type}

def isOpens : PollAct μ → Bool
  | .opens => true
  | _ => false

def message? : PollAct μ → Option μ
  | .reads message => some message
  | _ => none

end PollAct

namespace PollStep

variable {μ α : Type}

def opens (step : PollStep μ α) : Bool :=
  step.acts.any (·.isOpens)

def messages (step : PollStep μ α) : List μ :=
  step.acts.filterMap (·.message?)

end PollStep

namespace PollPhase

variable {α : Type}

/-- How far a poller is from its next opening, in steps of its phases. -/
def distance : PollPhase α → Nat
  | .opening => 4
  | .reading _ => 3
  | .resting _ => 2
  | .beginning => 1
  | .stopped _ => 0

@[simp]
theorem distance_opening : (opening : PollPhase α).distance = 4 := rfl

@[simp]
theorem distance_reading (heard : Bool) : (reading heard : PollPhase α).distance = 3 := rfl

@[simp]
theorem distance_resting (wake : Nat) : (resting wake : PollPhase α).distance = 2 := rfl

@[simp]
theorem distance_beginning : (beginning : PollPhase α).distance = 1 := rfl

@[simp]
theorem distance_stopped (outcome : PollOutcome α) : (stopped outcome).distance = 0 := rfl

end PollPhase

namespace Poller

variable {μ α : Type}

/-- A step of a poller that has neither stopped nor to stop.  An attempt ends with or without a notice. -/
inductive Goes (rules : PollRules) (classify : μ → Option α) (now : Nat)
    (event : Option (SourceEvent μ)) (poller : Poller α) : PollStep μ α → Prop where
  | begins (phase : poller.phase = .beginning) :
      Goes rules classify now event poller ⟨{ poller with phase := .opening }, false, [.opens]⟩
  | wakes (wake : Nat) (phase : poller.phase = .resting wake) (due : wake ≤ now) :
      Goes rules classify now event poller ⟨{ poller with phase := .beginning }, false, []⟩
  | opened (phase : poller.phase = .opening) (came : event = some .opened) :
      Goes rules classify now event poller ⟨{ poller with phase := .reading false }, true, []⟩
  | refused (reason : String) (phase : poller.phase = .opening)
      (came : event = some (.refused reason)) :
      Goes rules classify now event poller
        (endAttempt rules now (poller.failures + 1)
          ([openNotice reason (poller.failures + 1)].map .tells))
  | hears (heard : Bool) (content : μ) (phase : poller.phase = .reading heard)
      (came : event = some (.message content)) (unfinal : classify content = none) :
      Goes rules classify now event poller ⟨⟨.reading true, 0⟩, true, [.reads content]⟩
  | concludes (heard : Bool) (content : μ) (value : α) (phase : poller.phase = .reading heard)
      (came : event = some (.message content)) (final : classify content = some value) :
      Goes rules classify now event poller
        ⟨⟨.stopped (.terminal value), 0⟩, true, [.reads content]⟩
  | failed (heard : Bool) (reason : String) (phase : poller.phase = .reading heard)
      (came : event = some (.failed reason)) :
      Goes rules classify now event poller
        (endAttempt rules now (poller.failuresAfter heard) ([streamNotice reason].map .tells))
  | ended (heard : Bool) (phase : poller.phase = .reading heard) (came : event = some .ended) :
      Goes rules classify now event poller
        (endAttempt rules now (poller.failuresAfter heard) (([] : List Notice).map .tells))

variable {rules : PollRules} {classify : μ → Option α} {now : Nat} {cancelled : Bool}
  {event : Option (SourceEvent μ)} {poller : Poller α} {step : PollStep μ α}

theorem outcome?_eq_some_iff {outcome : PollOutcome α} :
    poller.outcome? = some outcome ↔ poller.phase = .stopped outcome := by
  unfold outcome?
  cases poller.phase <;> simp

theorem take?_goes {told : SourceEvent μ} (taken : poller.take? rules classify now told = some step) :
    poller.Goes rules classify now (some told) step := by
  cases told with
  | refused reason =>
      simp only [take?] at taken
      split at taken
      case h_1 phase =>
          obtain rfl := Option.some.inj taken
          exact .refused reason phase rfl
      case h_2 => cases taken
  | opened =>
      simp only [take?] at taken
      split at taken
      case h_1 phase =>
          obtain rfl := Option.some.inj taken
          exact .opened phase rfl
      case h_2 => cases taken
  | message content =>
      simp only [take?] at taken
      split at taken
      case h_1 heard phase =>
          obtain rfl := Option.some.inj taken
          cases classified : classify content with
          | none => exact .hears heard content phase rfl classified
          | some value => exact .concludes heard content value phase rfl classified
      case h_2 => cases taken
  | failed reason =>
      simp only [take?] at taken
      split at taken
      case h_1 heard phase =>
          obtain rfl := Option.some.inj taken
          exact .failed heard reason phase rfl
      case h_2 => cases taken
  | ended =>
      simp only [take?] at taken
      split at taken
      case h_1 heard phase =>
          obtain rfl := Option.some.inj taken
          exact .ended heard phase rfl
      case h_2 => cases taken

/-! ### One step -/

def afterAttempt (rules : PollRules) (now : Nat) (failures : UInt32) : Poller α :=
  if rules.maxRetries < failures then ⟨.stopped .exhausted, failures⟩
  else ⟨.resting (rules.wake now), failures⟩

theorem endAttempt_poller (rules : PollRules) (now : Nat) (failures : UInt32)
    (acts : List (PollAct μ)) :
    (endAttempt rules now failures acts : PollStep μ α).poller = afterAttempt rules now failures := by
  unfold endAttempt afterAttempt
  split <;> rfl

theorem endAttempt_opens (rules : PollRules) (now : Nat) (failures : UInt32) (acts : List Notice) :
    (endAttempt rules now failures (acts.map .tells) : PollStep μ α).opens = false := by
  unfold endAttempt
  split <;> simp [PollStep.opens, PollAct.isOpens]

theorem endAttempt_messages (rules : PollRules) (now : Nat) (failures : UInt32)
    (acts : List Notice) :
    (endAttempt rules now failures (acts.map .tells) : PollStep μ α).messages = [] := by
  unfold endAttempt
  split <;> simp [PollStep.messages, PollAct.message?]

theorem endAttempt_took (rules : PollRules) (now : Nat) (failures : UInt32)
    (acts : List (PollAct μ)) :
    (endAttempt rules now failures acts : PollStep μ α).took = true := by
  unfold endAttempt
  split <;> rfl

theorem step?_cases (stepped : poller.step? rules classify now cancelled event = some step) :
    poller.outcome? = none ∧
      (cancelled = true ∧ step = poller.stop .cancelled ∨
        cancelled = false ∧ rules.deadline ≤ now ∧ step = poller.stop .deadline ∨
        cancelled = false ∧ now < rules.deadline ∧
          poller.Goes rules classify now event step) := by
  unfold step? at stepped
  split at stepped
  case isTrue => cases stepped
  case isFalse running =>
      refine ⟨Option.not_isSome_iff_eq_none.mp running, ?_⟩
      cases cancelled with
      | true =>
          rw [if_pos rfl] at stepped
          exact .inl ⟨rfl, (Option.some.inj stepped).symm⟩
      | false =>
          rw [if_neg Bool.false_ne_true] at stepped
          right
          by_cases late : rules.deadline ≤ now
          · rw [if_pos late] at stepped
            exact .inl ⟨rfl, late, (Option.some.inj stepped).symm⟩
          · rw [if_neg late] at stepped
            refine .inr ⟨rfl, Nat.lt_of_not_le late, ?_⟩
            split at stepped
            case h_1 phase =>
                obtain rfl := Option.some.inj stepped
                exact .begins phase
            case h_2 wake phase =>
                split at stepped
                case isTrue due =>
                    obtain rfl := Option.some.inj stepped
                    exact .wakes wake phase due
                case isFalse => cases stepped
            case h_3 =>
                obtain ⟨told, rfl, taken⟩ := Option.bind_eq_some_iff.mp stepped
                exact take?_goes taken

end Poller

/-- What a source tells when it is opened at a moment, after a number of earlier openings. -/
abbrev TimedSource (μ : Type) := Nat → Nat → Feed μ

/-- A poller in time, with the moments at which it opened the source, the latest first, and the messages
that it read, the oldest first. -/
structure Polling (μ α : Type) where
  poller : Poller α
  feed : Feed μ
  opened : List Nat
  read : List μ
  cancelledAt : Option Nat
  now : Nat

namespace Polling

variable {μ α : Type}

def start (now : Nat) : Polling μ α :=
  ⟨.start, [], [], [], none, now⟩

def openings (state : Polling μ α) : Nat :=
  state.opened.length

def after (source : TimedSource μ) (state : Polling μ α) (step : PollStep μ α) : Polling μ α where
  poller := step.poller
  feed :=
    if step.opens then source state.openings state.now
    else if step.took then state.feed.tail
    else state.feed
  opened := if step.opens then state.now :: state.opened else state.opened
  read := state.read ++ step.messages
  cancelledAt := state.cancelledAt
  now := state.now

/-- What may come next: a step of the poller, its cancellation, or the passing of time, in which there is
nothing that the poller might do.  Timers and messages are on time. -/
inductive Next (rules : PollRules) (classify : μ → Option α) (source : TimedSource μ)
    (state : Polling μ α) : Polling μ α → Prop where
  | turn (step : PollStep μ α)
      (stepped : state.poller.step? rules classify state.now state.cancelledAt.isSome
        (state.feed.due? state.now) = some step) :
      Next rules classify source state (state.after source step)
  | cancel (running : state.poller.outcome? = none) (pending : state.cancelledAt = none) :
      Next rules classify source state { state with cancelledAt := some state.now }
  | pass (moment : Nat) (running : state.poller.outcome? = none) (later : state.now < moment)
      (idle : ∀ between, state.now ≤ between → between < moment →
        state.poller.step? rules classify between state.cancelledAt.isSome
          (state.feed.due? between) = none) :
      Next rules classify source state { state with now := moment }

abbrev Reaches (rules : PollRules) (classify : μ → Option α) (source : TimedSource μ) :
    Polling μ α → Polling μ α → Prop :=
  Relation.ReflTransGen (Next rules classify source)

abbrev Proceeds (rules : PollRules) (classify : μ → Option α) (source : TimedSource μ) :
    Polling μ α → Polling μ α → Prop :=
  Relation.TransGen (Next rules classify source)

def Ends (rules : PollRules) (classify : μ → Option α) (source : TimedSource μ) :
    Polling μ α → Prop :=
  Acc fun later earlier => Next rules classify source earlier later

variable {rules : PollRules} {classify : μ → Option α} {source : TimedSource μ}
  {state next later : Polling μ α} {step : PollStep μ α}

/-! ### What a step leaves -/

theorem due_of_came {event : SourceEvent μ} (came : state.feed.due? state.now = some event) :
    ∃ moment rest, state.feed = (moment, event) :: rest := by
  cases feed : state.feed with
  | nil =>
      rw [feed] at came
      cases came
  | cons first rest =>
      obtain ⟨moment, told⟩ := first
      rw [feed] at came
      simp only [Feed.due?] at came
      split at came
      case isTrue =>
          obtain rfl := Option.some.inj came
          exact ⟨moment, rest, rfl⟩
      case isFalse => cases came

def Timely (rules : PollRules) (state : Polling μ α) : Prop :=
  state.cancelledAt = none ∧ state.now < rules.deadline

inductive Turn (rules : PollRules) (classify : μ → Option α) (source : TimedSource μ)
    (state : Polling μ α) : Polling μ α → Prop where
  | stops (outcome : PollOutcome α)
      (why : state.cancelledAt.isSome = true ∧ outcome = .cancelled ∨
        state.cancelledAt = none ∧ rules.deadline ≤ state.now ∧ outcome = .deadline) :
      Turn rules classify source state
        { state with poller := { state.poller with phase := .stopped outcome } }
  | begins (timely : state.Timely rules) (phase : state.poller.phase = .beginning) :
      Turn rules classify source state
        { state with
          poller := { state.poller with phase := .opening }
          feed := source state.openings state.now
          opened := state.now :: state.opened }
  | wakes (timely : state.Timely rules) (wake : Nat) (phase : state.poller.phase = .resting wake)
      (due : wake ≤ state.now) :
      Turn rules classify source state
        { state with poller := { state.poller with phase := .beginning } }
  | opened (timely : state.Timely rules) (moment : Nat) (rest : Feed μ)
      (phase : state.poller.phase = .opening) (came : state.feed = (moment, .opened) :: rest) :
      Turn rules classify source state
        { state with poller := { state.poller with phase := .reading false }, feed := rest }
  | refused (timely : state.Timely rules) (moment : Nat) (rest : Feed μ) (reason : String)
      (phase : state.poller.phase = .opening)
      (came : state.feed = (moment, .refused reason) :: rest) :
      Turn rules classify source state
        { state with
          poller := .afterAttempt rules state.now (state.poller.failures + 1), feed := rest }
  | hears (timely : state.Timely rules) (moment : Nat) (rest : Feed μ) (heard : Bool) (content : μ)
      (phase : state.poller.phase = .reading heard)
      (came : state.feed = (moment, .message content) :: rest) (unfinal : classify content = none) :
      Turn rules classify source state
        { state with
          poller := ⟨.reading true, 0⟩, feed := rest, read := state.read ++ [content] }
  | concludes (timely : state.Timely rules) (moment : Nat) (rest : Feed μ) (heard : Bool)
      (content : μ) (value : α) (phase : state.poller.phase = .reading heard)
      (came : state.feed = (moment, .message content) :: rest)
      (final : classify content = some value) :
      Turn rules classify source state
        { state with
          poller := ⟨.stopped (.terminal value), 0⟩, feed := rest
          read := state.read ++ [content] }
  | breaks (timely : state.Timely rules) (moment : Nat) (rest : Feed μ) (heard : Bool)
      (told : SourceEvent μ) (phase : state.poller.phase = .reading heard)
      (came : state.feed = (moment, told) :: rest)
      (isEnd : told = .ended ∨ ∃ reason, told = .failed reason) :
      Turn rules classify source state
        { state with
          poller := .afterAttempt rules state.now (state.poller.failuresAfter heard), feed := rest }

theorem after_endAttempt {moment : Nat} {told : SourceEvent μ} {rest : Feed μ}
    (came : state.feed = (moment, told) :: rest) (failures : UInt32) (notices : List Notice) :
    state.after source
        (Poller.endAttempt rules state.now failures (notices.map .tells) : PollStep μ α) =
      { state with poller := .afterAttempt rules state.now failures, feed := rest } := by
  simp [after, Poller.endAttempt_poller, Poller.endAttempt_opens, Poller.endAttempt_messages,
    Poller.endAttempt_took, came]

theorem turn_of_step? (source : TimedSource μ)
    (stepped : state.poller.step? rules classify state.now state.cancelledAt.isSome
      (state.feed.due? state.now) = some step) :
    state.poller.outcome? = none ∧ Turn rules classify source state (state.after source step) := by
  obtain ⟨running, ⟨cancelled, rfl⟩ | ⟨pending, late, rfl⟩ | ⟨pending, early, goes⟩⟩ :=
    Poller.step?_cases stepped
  · refine ⟨running, ?_⟩
    have stops : Turn rules classify source state _ := .stops .cancelled (.inl ⟨cancelled, rfl⟩)
    simpa [after, Poller.stop, PollStep.opens, PollStep.messages] using stops
  · refine ⟨running, ?_⟩
    have pending := Option.not_isSome_iff_eq_none.mp (Bool.eq_false_iff.mp pending)
    have stops : Turn rules classify source state _ :=
      .stops .deadline (.inr ⟨pending, late, rfl⟩)
    simpa [after, Poller.stop, PollStep.opens, PollStep.messages] using stops
  · refine ⟨running, ?_⟩
    have timely : state.Timely rules :=
      ⟨Option.not_isSome_iff_eq_none.mp (Bool.eq_false_iff.mp pending), early⟩
    cases goes with
    | begins phase =>
        have begins : Turn rules classify source state _ := .begins timely phase
        simpa [after, PollStep.opens, PollStep.messages, PollAct.isOpens, PollAct.message?]
          using begins
    | wakes wake phase due =>
        have wakes : Turn rules classify source state _ := .wakes timely wake phase due
        simpa [after, PollStep.opens, PollStep.messages] using wakes
    | opened phase came =>
        obtain ⟨moment, rest, feed⟩ := due_of_came came
        have opened : Turn rules classify source state _ := .opened timely moment rest phase feed
        simpa [after, PollStep.opens, PollStep.messages, feed] using opened
    | refused reason phase came =>
        obtain ⟨moment, rest, feed⟩ := due_of_came came
        rw [after_endAttempt feed]
        exact .refused timely moment rest reason phase feed
    | hears heard content phase came unfinal =>
        obtain ⟨moment, rest, feed⟩ := due_of_came came
        have hears : Turn rules classify source state _ :=
          .hears timely moment rest heard content phase feed unfinal
        simpa [after, PollStep.opens, PollStep.messages, PollAct.isOpens, PollAct.message?, feed]
          using hears
    | concludes heard content value phase came final =>
        obtain ⟨moment, rest, feed⟩ := due_of_came came
        have concludes : Turn rules classify source state _ :=
          .concludes timely moment rest heard content value phase feed final
        simpa [after, PollStep.opens, PollStep.messages, PollAct.isOpens, PollAct.message?, feed]
          using concludes
    | failed heard reason phase came =>
        obtain ⟨moment, rest, feed⟩ := due_of_came came
        rw [after_endAttempt feed]
        exact .breaks timely moment rest heard _ phase feed (.inr ⟨reason, rfl⟩)
    | ended heard phase came =>
        obtain ⟨moment, rest, feed⟩ := due_of_came came
        rw [after_endAttempt feed]
        exact .breaks timely moment rest heard _ phase feed (.inl rfl)

/-! ### The end of a run -/

/-- What is left to do until the next opening or the end, as long as time stands still. -/
def effort (state : Polling μ α) : Nat :=
  state.poller.phase.distance + state.feed.length

/-- What may still come from outside: a cancellation, and the milliseconds to the deadline. -/
def remaining (rules : PollRules) (state : Polling μ α) : Nat :=
  (if state.cancelledAt.isSome then 0 else 1) + (rules.deadline - state.now)

theorem distance_pos (running : state.poller.outcome? = none) :
    0 < state.poller.phase.distance := by
  unfold Poller.outcome? at running
  cases phase : state.poller.phase with
  | stopped outcome =>
      rw [phase] at running
      cases running
  | beginning => simp
  | opening => simp
  | reading heard => simp
  | resting wake => simp

theorem distance_afterAttempt (rules : PollRules) (now : Nat) (failures : UInt32) :
    (Poller.afterAttempt rules now failures : Poller α).phase.distance ≤ 2 := by
  unfold Poller.afterAttempt
  split <;> simp

theorem Turn.decreases (turn : Turn rules classify source state next)
    (running : state.poller.outcome? = none) :
    next.openings = state.openings + 1 ∨
      next.openings = state.openings ∧ next.effort < state.effort := by
  cases turn with
  | stops outcome why =>
      have positive := distance_pos running
      refine .inr ⟨rfl, ?_⟩
      simp only [effort, PollPhase.distance_stopped]
      omega
  | begins timely phase => exact .inl rfl
  | wakes timely wake phase due =>
      refine .inr ⟨rfl, ?_⟩
      simp [effort, phase]
  | opened timely moment rest phase came =>
      refine .inr ⟨rfl, ?_⟩
      simp only [effort, phase, came, List.length_cons, PollPhase.distance_opening,
        PollPhase.distance_reading]
      omega
  | refused timely moment rest reason phase came =>
      have near := distance_afterAttempt (α := α) rules state.now (state.poller.failures + 1)
      refine .inr ⟨rfl, ?_⟩
      simp only [effort, phase, came, List.length_cons, PollPhase.distance_opening]
      omega
  | hears timely moment rest heard content phase came unfinal =>
      refine .inr ⟨rfl, ?_⟩
      simp [effort, phase, came]
  | concludes timely moment rest heard content value phase came final =>
      refine .inr ⟨rfl, ?_⟩
      simp only [effort, phase, came, List.length_cons, PollPhase.distance_reading,
        PollPhase.distance_stopped]
      omega
  | breaks timely moment rest heard told phase came isEnd =>
      have near :=
        distance_afterAttempt (α := α) rules state.now (state.poller.failuresAfter heard)
      refine .inr ⟨rfl, ?_⟩
      simp only [effort, phase, came, List.length_cons, PollPhase.distance_reading]
      omega

theorem step?_of_due {now : Nat} {cancelled : Bool} {poller : Poller α}
    (running : poller.outcome? = none) (due : cancelled = true ∨ rules.deadline ≤ now)
    (event : Option (SourceEvent μ)) :
    poller.step? rules classify now cancelled event =
      some (poller.stop (if cancelled then .cancelled else .deadline)) := by
  unfold Poller.step?
  rw [running]
  cases cancelled with
  | true => rfl
  | false =>
      have late : rules.deadline ≤ now := due.resolve_left Bool.false_ne_true
      simp [late]

theorem pass_bounds {moment : Nat} (running : state.poller.outcome? = none)
    (later : state.now < moment)
    (idle : ∀ between, state.now ≤ between → between < moment →
      state.poller.step? rules classify between state.cancelledAt.isSome
        (state.feed.due? between) = none) :
    state.cancelledAt = none ∧ moment ≤ rules.deadline := by
  -- At each moment that is passed neither a cancellation nor the deadline was due.
  have undue (between : Nat) (notBefore : state.now ≤ between) (before : between < moment) :
      state.cancelledAt.isSome = false ∧ between < rules.deadline := by
    have waits := idle between notBefore before
    by_cases due : state.cancelledAt.isSome = true ∨ rules.deadline ≤ between
    · rw [step?_of_due running due] at waits
      cases waits
    · rw [not_or, Bool.not_eq_true, Nat.not_le] at due
      exact due
  constructor
  · have uncancelled := (undue state.now (Nat.le_refl _) later).1
    exact Option.not_isSome_iff_eq_none.mp (Bool.eq_false_iff.mp uncancelled)
  · have last := (undue (moment - 1) (by omega) (by omega)).2
    omega

theorem Next.decreases (step : Next rules classify source state next) :
    next.openings = state.openings + 1 ∨
      next.openings = state.openings ∧
        (next.effort < state.effort ∨
          next.effort = state.effort ∧ next.remaining rules < state.remaining rules) := by
  cases step with
  | turn step stepped =>
      obtain ⟨running, turn⟩ := turn_of_step? source stepped
      rcases turn.decreases running with more | ⟨same, less⟩
      · exact .inl more
      · exact .inr ⟨same, .inl less⟩
  | cancel running pending =>
      refine .inr ⟨rfl, .inr ⟨rfl, ?_⟩⟩
      simp [remaining, pending]
  | pass moment running later idle =>
      obtain ⟨-, within⟩ := pass_bounds running later idle
      refine .inr ⟨rfl, .inr ⟨rfl, ?_⟩⟩
      simp only [remaining]
      omega

/-- A run in which the source is opened a bounded number of times comes to an end. -/
theorem ends_of_bounded (bound : Nat) (state : Polling μ α)
    (bounded : ∀ later, Reaches rules classify source state later → later.openings ≤ bound) :
    Ends rules classify source state := by
  -- Each event opens the source, or leaves less to do until the next opening, or uses up what may still
  -- come from outside.
  apply Acc.intro
  intro next step
  have inBound := bounded next (.single step)
  have decreases := step.decreases
  exact ends_of_bounded bound next fun later reached => bounded later (.head step reached)
termination_by (bound - state.openings, state.effort, state.remaining rules)
decreasing_by
  rcases decreases with more | ⟨same, less | ⟨level, less⟩⟩
  · exact Prod.Lex.left _ _ (by omega)
  · rw [same]
    exact Prod.Lex.right _ (Prod.Lex.left _ _ less)
  · rw [same, level]
    exact Prod.Lex.right _ (Prod.Lex.right _ less)

theorem Ends.of_reaches (ends : Ends rules classify source state)
    (reached : Reaches rules classify source state later) : Ends rules classify source later := by
  induction reached with
  | refl => exact ends
  | tail reached step inductionHypothesis => exact inductionHypothesis.inv step

theorem not_next_of_stopped (stopped : state.poller.outcome? ≠ none)
    (step : Next rules classify source state next) : False := by
  cases step with
  | turn step stepped => exact stopped (turn_of_step? source stepped).1
  | cancel running pending => exact stopped running
  | pass moment running later idle => exact stopped running

/-- As long as a poller has not stopped it goes on or time passes, without any cancellation. -/
theorem goes_on (source : TimedSource μ) (running : state.poller.outcome? = none) :
    ∃ next, Next rules classify source state next ∧ next.cancelledAt = state.cancelledAt := by
  cases own : state.poller.step? rules classify state.now state.cancelledAt.isSome
      (state.feed.due? state.now) with
  | some step => exact ⟨_, .turn step own, rfl⟩
  | none =>
      refine ⟨_, .pass (state.now + 1) running (Nat.lt_succ_self _) ?_, rfl⟩
      intro between notBefore before
      obtain rfl : between = state.now := by omega
      exact own

/-! ### Runs that are computed -/

def waitsUntil (rules : PollRules) (state : Polling μ α) (moment : Nat) : Bool :=
  state.cancelledAt.isNone && moment ≤ rules.deadline &&
    match state.poller.phase with
    | .opening => state.feed.head?.all (moment ≤ ·.1)
    | .reading _ => state.feed.head?.all (moment ≤ ·.1)
    | .resting wake => moment ≤ wake
    | _ => false

def move? (rules : PollRules) (classify : μ → Option α) (source : TimedSource μ)
    (state : Polling μ α) : Option Nat → Option (Polling μ α)
  | none =>
      (state.poller.step? rules classify state.now state.cancelledAt.isSome
        (state.feed.due? state.now)).map (state.after source)
  | some moment =>
      if state.now < moment ∧ state.waitsUntil rules moment = true then
        some { state with now := moment }
      else none

def moves? (rules : PollRules) (classify : μ → Option α) (source : TimedSource μ)
    (state : Polling μ α) : List (Option Nat) → Option (Polling μ α)
  | [] => some state
  | move :: moves =>
      (state.move? rules classify source move).bind (moves? rules classify source · moves)

theorem running_of_waitsUntil {moment : Nat} (waits : state.waitsUntil rules moment = true) :
    state.poller.outcome? = none := by
  unfold waitsUntil at waits
  unfold Poller.outcome?
  cases phase : state.poller.phase with
  | stopped outcome => simp [phase] at waits
  | beginning => rfl
  | opening => rfl
  | reading heard => rfl
  | resting wake => rfl

theorem due?_of_head {feed : Feed μ} {moment between : Nat}
    (ahead : feed.head?.all (moment ≤ ·.1) = true) (before : between < moment) :
    feed.due? between = none := by
  cases feed with
  | nil => rfl
  | cons first rest =>
      have later : moment ≤ first.1 := by simpa using ahead
      exact if_neg (Nat.not_le_of_lt (Nat.lt_of_lt_of_le before later))

theorem idle_of_waitsUntil {moment : Nat} (waits : state.waitsUntil rules moment = true)
    {between : Nat} (before : between < moment) :
    state.poller.step? rules classify between state.cancelledAt.isSome
      (state.feed.due? between) = none := by
  have running := running_of_waitsUntil waits
  unfold waitsUntil at waits
  simp only [Bool.and_eq_true, decide_eq_true_eq, Option.isNone_iff_eq_none] at waits
  obtain ⟨⟨pending, within⟩, own⟩ := waits
  have early : ¬ rules.deadline ≤ between := Nat.not_le_of_lt (Nat.lt_of_lt_of_le before within)
  unfold Poller.step?
  rw [running, pending]
  simp only [Option.isSome_none, Bool.false_eq_true, if_false, early]
  cases phase : state.poller.phase with
  | beginning => simp [phase] at own
  | stopped outcome => simp [phase] at own
  | resting wake =>
      rw [phase] at own
      exact if_neg (Nat.not_le_of_lt (Nat.lt_of_lt_of_le before (of_decide_eq_true own)))
  | opening =>
      rw [phase] at own
      rw [due?_of_head own before]
      rfl
  | reading heard =>
      rw [phase] at own
      rw [due?_of_head own before]
      rfl

theorem next_of_move? {move : Option Nat}
    (moved : state.move? rules classify source move = some next) :
    Next rules classify source state next := by
  cases move with
  | none =>
      obtain ⟨step, stepped, rfl⟩ := Option.map_eq_some_iff.mp moved
      exact .turn step stepped
  | some moment =>
      simp only [move?] at moved
      split at moved
      case isTrue waits =>
          obtain rfl := Option.some.inj moved
          apply Next.pass moment (running_of_waitsUntil waits.2) waits.1
          intro between _ before
          exact idle_of_waitsUntil waits.2 before
      case isFalse => cases moved

theorem reaches_of_moves? (moves : List (Option Nat))
    (moved : state.moves? rules classify source moves = some later) :
    Reaches rules classify source state later := by
  induction moves generalizing state with
  | nil =>
      obtain rfl := Option.some.inj moved
      exact .refl
  | cons move moves inductionHypothesis =>
      obtain ⟨next, first, rest⟩ := Option.bind_eq_some_iff.mp moved
      exact .head (next_of_move? first) (inductionHypothesis rest)

end Polling

end BackupClient
