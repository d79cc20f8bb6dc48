import BackupClient.Proofs.Auth.PollRuns

/-!
When a poller gives up.

A source plays one attempt of a script after the other.  A poller reads the messages of all attempts in
order until one is final, and gives up right after the first attempt that completes more silent attempts in
a row than its rules allow.
-/

namespace BackupClient

/-- What a poller has done, without the moments. -/
structure PollView (μ α : Type) where
  poller : Poller α
  feed : Feed μ
  openings : Nat
  read : List μ

namespace PollView

variable {μ α : Type} {rules : PollRules} {classify : μ → Option α} {script : PollScript μ}
  {number : Nat} {before : List μ} {view : PollView μ α}

/-- The first attempts are over, and some messages of the next have been read. -/
structure Progress (rules : PollRules) (classify : μ → Option α) (script : PollScript μ)
    (number : Nat) (before read : List μ) : Prop where
  patient : ∀ earlier < number, ¬ script.GivesUp rules earlier
  unfinal : ∀ content ∈ script.heard number, classify content = none
  inOrder : read = script.heard number ++ before

variable (rules classify script)

/-- All attempts are over that were begun. -/
structure Between (view : PollView μ α) : Prop where
  progress : Progress rules classify script view.openings [] view.read
  failures : view.poller.failures.toNat = script.silence view.openings

structure Opening (number start : Nat) (view : PollView μ α) : Prop where
  openings : view.openings = number + 1
  progress : Progress rules classify script number [] view.read
  feed : view.feed = (script number).feed start
  failures : view.poller.failures.toNat = script.silence number

structure Reading (number start : Nat) (before : List μ) (messages : List (TimedMessage μ))
    (view : PollView μ α) : Prop where
  openings : view.openings = number + 1
  progress : Progress rules classify script number before view.read
  feed : view.feed = Attempt.follow (script number).hangs start messages
  heard : (script number).heard = before ++ Attempt.heardIn messages
  unfinal : ∀ content ∈ before, classify content = none
  failures : view.poller.failures.toNat = if before.isEmpty then script.silence number else 0

structure Concluded (number : Nat) (before : List μ) (content : μ) (value : α)
    (view : PollView μ α) : Prop where
  openings : view.openings = number + 1
  progress : Progress rules classify script number (before ++ [content]) view.read
  heard : before ++ [content] <+: (script number).heard
  unfinal : ∀ content ∈ before, classify content = none
  final : classify content = some value

structure Exhausted (number : Nat) (view : PollView μ α) : Prop where
  openings : view.openings = number + 1
  progress : Progress rules classify script number [] view.read
  givesUp : script.GivesUp rules number

structure Underway (number : Nat) (before : List μ) (view : PollView μ α) : Prop where
  openings : view.openings = number ∧ before = [] ∨ view.openings = number + 1
  progress : Progress rules classify script number before view.read
  heard : before <+: (script number).heard

/-- Where a poller is in its script, by its phase. -/
def Placed (view : PollView μ α) : PollPhase α → Prop
  | .beginning => Between rules classify script view
  | .resting _ => Between rules classify script view
  | .opening => ∃ number start, Opening rules classify script number start view
  | .reading heard => ∃ number start before messages,
      heard = !before.isEmpty ∧ Reading rules classify script number start before messages view
  | .stopped (.terminal value) => ∃ number before content,
      Concluded rules classify script number before content value view
  | .stopped .exhausted => ∃ number, Exhausted rules classify script number view
  | .stopped _ => ∃ number before,
      Underway rules classify script number before view ∧
        ∀ content ∈ before, classify content = none

def Place (view : PollView μ α) : Prop :=
  Placed rules classify script view view.poller.phase

variable {rules classify script}

theorem Progress.append {read : List μ} (progress : Progress rules classify script number before read)
    (content : μ) :
    Progress rules classify script number (before ++ [content]) (read ++ [content]) := by
  refine ⟨progress.patient, progress.unfinal, ?_⟩
  rw [progress.inOrder, List.append_assoc]

theorem place_start (feed : Feed μ) :
    Place rules classify script (⟨.start, feed, 0, []⟩ : PollView μ α) := by
  refine ⟨⟨?_, ?_, rfl⟩, rfl⟩
  · intro earlier before
    exact absurd before (Nat.not_lt_zero _)
  · intro content member
    cases member

theorem Place.of_phase (place : Place rules classify script view) {phase : PollPhase α}
    (isPhase : view.poller.phase = phase) : Placed rules classify script view phase :=
  isPhase ▸ place

theorem underway_of_place (place : Place rules classify script view) :
    ∃ number before, Underway rules classify script number before view ∧
      ((∀ value, view.poller.outcome? ≠ some (.terminal value)) →
        ∀ content ∈ before, classify content = none) := by
  unfold Place Placed at place
  unfold Poller.outcome?
  split at place
  case h_1 =>
      exact ⟨_, [], ⟨.inl ⟨rfl, rfl⟩, place.progress, List.nil_prefix⟩, by simp⟩
  case h_2 =>
      exact ⟨_, [], ⟨.inl ⟨rfl, rfl⟩, place.progress, List.nil_prefix⟩, by simp⟩
  case h_3 =>
      obtain ⟨number, start, opening⟩ := place
      exact ⟨number, [], ⟨.inr opening.openings, opening.progress, List.nil_prefix⟩, by simp⟩
  case h_4 =>
      obtain ⟨number, start, before, messages, -, reading⟩ := place
      refine ⟨number, before, ⟨.inr reading.openings, reading.progress, ?_⟩, fun _ => reading.unfinal⟩
      rw [reading.heard]
      exact List.prefix_append _ _
  case h_5 value phase =>
      obtain ⟨number, before, content, concluded⟩ := place
      refine ⟨number, _, ⟨.inr concluded.openings, concluded.progress, concluded.heard⟩, ?_⟩
      intro running
      rw [phase] at running
      exact absurd rfl (running value)
  case h_6 =>
      obtain ⟨number, exhausted⟩ := place
      exact ⟨number, [], ⟨.inr exhausted.openings, exhausted.progress, List.nil_prefix⟩, by simp⟩
  case h_7 =>
      obtain ⟨number, before, underway, unfinal⟩ := place
      exact ⟨number, before, underway, fun _ => unfinal⟩

theorem place_afterAttempt (view : PollView μ α)
    (progress : Progress rules classify script number (script number).heard view.read)
    (openings : view.openings = number + 1)
    (unfinal : ∀ content ∈ (script number).heard, classify content = none)
    {failures : UInt32} {now : Nat} (counted : failures.toNat = script.silence (number + 1))
    (rest : Feed μ) :
    Place rules classify script
      { view with poller := .afterAttempt rules now failures, feed := rest } := by
  -- The failures are counted as the script is silent, so they tell whether this is the attempt.
  have decides : rules.maxRetries < failures ↔ script.GivesUp rules number := by
    rw [PollScript.givesUp_iff, ← counted]
    exact UInt32.lt_iff_toNat_lt
  unfold Poller.afterAttempt
  split
  case isTrue tooMany =>
      have givesUp := decides.mp tooMany
      have read := progress.inOrder
      rw [givesUp.2 number (Nat.le_refl _) (Nat.sub_le _ _)] at read
      exact ⟨number, openings, ⟨progress.patient, progress.unfinal, read⟩, givesUp⟩
  case isFalse enough =>
      refine ⟨⟨?_, ?_, ?_⟩, counted.trans (congrArg _ openings.symm)⟩
      · intro earlier inside
        replace inside : earlier < number + 1 := openings ▸ inside
        rcases Nat.lt_succ_iff_lt_or_eq.mp inside with before | rfl
        · exact progress.patient earlier before
        · exact fun givesUp => enough (decides.mpr givesUp)
      · intro content member
        replace member : content ∈ script.heard (number + 1) := openings ▸ member
        rw [PollScript.heard_succ] at member
        rcases List.mem_append.mp member with older | newer
        · exact progress.unfinal content older
        · exact unfinal content newer
      · show view.read = script.heard view.openings ++ []
        rw [openings, PollScript.heard_succ, List.append_nil]
        exact progress.inOrder

theorem failures_succ {failures : UInt32} (small : rules.maxRetries.toNat < Nat.pow 2 32 - 1)
    (patient : ∀ earlier < number, ¬ script.GivesUp rules earlier)
    (counted : failures.toNat = script.silence number)
    (silent : (script number).heard = []) :
    (failures + 1).toNat = script.silence (number + 1) := by
  have bounded := PollScript.silence_le patient
  rw [PollScript.silence_succ_of_heard silent, UInt32.toNat_add, counted]
  apply Nat.mod_eq_of_lt
  exact Nat.add_lt_of_lt_sub (Nat.lt_of_le_of_lt bounded small)

theorem Underway.number_le (underway : Underway rules classify script number before view) :
    view.openings - 1 ≤ number ∧ number ≤ view.openings := by
  rcases underway.openings with ⟨same, -⟩ | more <;> omega

theorem Underway.inOrder (underway : Underway rules classify script number before view) :
    view.read <+: script.heard view.openings := by
  rw [underway.progress.inOrder]
  rcases underway.openings with ⟨same, rfl⟩ | more
  · exact ⟨[], by rw [same, List.append_nil, List.append_nil]⟩
  · rw [more, PollScript.heard_succ]
    exact (List.prefix_append_right_inj _).mpr underway.heard

theorem Underway.earlier (underway : Underway rules classify script number before view) :
    script.heard (view.openings - 1) <+: view.read := by
  rw [underway.progress.inOrder]
  exact (PollScript.heard_prefix underway.number_le.1).trans (List.prefix_append _ _)

/-- No attempt is begun after one with a verdict. -/
theorem Place.openings_le (place : Place rules classify script view)
    (verdict : script.GivesUp rules number ∨
      ∃ content ∈ (script number).heard, classify content ≠ none) :
    view.openings ≤ number + 1 := by
  obtain ⟨reached, before, underway, -⟩ := underway_of_place place
  apply Nat.le_of_not_lt
  intro more
  have passed : number < reached := by
    have bounds := underway.number_le
    omega
  rcases verdict with givesUp | ⟨content, member, final⟩
  · exact underway.progress.patient number passed givesUp
  · apply final
    apply underway.progress.unfinal
    apply (PollScript.heard_prefix passed).subset
    rw [PollScript.heard_succ]
    exact List.mem_append_right _ member

end PollView

namespace Polling

variable {μ α : Type} {rules : PollRules} {classify : μ → Option α} {script : PollScript μ}
  {state next later : Polling μ α}

def view (state : Polling μ α) : PollView μ α :=
  ⟨state.poller, state.feed, state.openings, state.read⟩

open PollView

theorem Turn.place (turn : Turn rules classify script.source state next)
    (small : rules.maxRetries.toNat < Nat.pow 2 32 - 1)
    (running : state.poller.outcome? = none)
    (place : Place rules classify script state.view) : Place rules classify script next.view := by
  cases turn with
  | stops outcome why =>
      obtain ⟨number, before, underway, unfinal⟩ := underway_of_place place
      have unstopped (value : α) : state.view.poller.outcome? ≠ some (.terminal value) := by
        simp [view, running]
      have here : Underway rules classify script number before
          { state.view with poller := { state.poller with phase := .stopped outcome } } :=
        ⟨underway.openings, underway.progress, underway.heard⟩
      rcases why with ⟨-, rfl⟩ | ⟨-, -, rfl⟩
      · exact ⟨number, before, here, unfinal unstopped⟩
      · exact ⟨number, before, here, unfinal unstopped⟩
  | begins timely phase =>
      have between := place.of_phase phase
      exact ⟨state.openings, state.now, rfl, between.progress, rfl, between.failures⟩
  | wakes timely wake phase due =>
      have between := place.of_phase phase
      exact ⟨between.progress, between.failures⟩
  | opened timely moment rest phase came =>
      obtain ⟨number, start, opening⟩ := place.of_phase phase
      obtain ⟨heard, follows⟩ := Attempt.follow_of_opened (opening.feed.symm.trans came)
      exact ⟨number, moment, [], _, rfl, opening.openings, opening.progress, follows, heard, by simp,
        opening.failures⟩
  | refused timely moment rest reason phase came =>
      obtain ⟨number, start, opening⟩ := place.of_phase phase
      have silent := (Attempt.heard_of_refused (opening.feed.symm.trans came)).1
      have counted := failures_succ small opening.progress.patient opening.failures silent
      apply place_afterAttempt state.view _ opening.openings _ counted
      · rw [silent]
        exact opening.progress
      · simp [silent]
  | hears timely moment rest heard content phase came unfinal =>
      obtain ⟨number, start, before, messages, -, reading⟩ := place.of_phase phase
      obtain ⟨later, hears, follows⟩ := Attempt.heardIn_of_message (reading.feed.symm.trans came)
      refine ⟨number, moment, before ++ [content], later, by simp, reading.openings,
        reading.progress.append content, follows, ?_, ?_, by simp [view]⟩
      · rw [reading.heard, hears, List.append_assoc, List.singleton_append]
      · intro other member
        rcases List.mem_append.mp member with older | newest
        · exact reading.unfinal other older
        · rwa [List.mem_singleton.mp newest]
  | concludes timely moment rest heard content value phase came final =>
      obtain ⟨number, start, before, messages, -, reading⟩ := place.of_phase phase
      obtain ⟨later, hears, -⟩ := Attempt.heardIn_of_message (reading.feed.symm.trans came)
      refine ⟨number, before, content, reading.openings, reading.progress.append content, ?_,
        reading.unfinal, final⟩
      rw [reading.heard, hears]
      exact (List.prefix_append_right_inj _).mpr (List.prefix_append [content] _)
  | breaks timely moment rest heard told phase came isEnd =>
      obtain ⟨number, start, before, messages, rfl, reading⟩ := place.of_phase phase
      have nothing := (Attempt.heardIn_of_over (reading.feed.symm.trans came) isEnd).1
      have complete : (script number).heard = before := by
        rw [reading.heard, nothing, List.append_nil]
      have counted : (state.poller.failuresAfter !before.isEmpty).toNat =
          script.silence (number + 1) := by
        have failures := reading.failures
        cases before with
        | nil => exact failures_succ small reading.progress.patient failures complete
        | cons first others =>
            rw [PollScript.silence_succ_of_unheard (by simp [complete])]
            exact failures
      apply place_afterAttempt state.view _ reading.openings _ counted
      · rw [complete]
        exact reading.progress
      · rw [complete]
        exact reading.unfinal

theorem Next.place (step : Next rules classify script.source state next)
    (small : rules.maxRetries.toNat < Nat.pow 2 32 - 1)
    (place : Place rules classify script state.view) : Place rules classify script next.view := by
  cases step with
  | turn step stepped =>
      obtain ⟨running, turn⟩ := turn_of_step? script.source stepped
      exact turn.place small running place
  | cancel running pending => exact place
  | pass moment running later idle => exact place

theorem Reaches.place (reached : Reaches rules classify script.source state later)
    (small : rules.maxRetries.toNat < Nat.pow 2 32 - 1)
    (place : Place rules classify script state.view) : Place rules classify script later.view := by
  induction reached with
  | refl => exact place
  | tail reached step inductionHypothesis => exact step.place small inductionHypothesis

/-! ### What a poller has read and when it returns -/

theorem phase_of_outcome? {poller : Poller α} {outcome : PollOutcome α}
    (stopped : poller.outcome? = some outcome) : poller.phase = .stopped outcome :=
  Poller.outcome?_eq_some_iff.mp stopped

/-- A poller is stopped by its deadline or its token only when the deadline has come or the token is
cancelled. -/
structure Excused (rules : PollRules) (state : Polling μ α) : Prop where
  deadline : state.poller.outcome? = some .deadline → rules.deadline ≤ state.now
  cancelled : state.poller.outcome? = some .cancelled → state.cancelledAt.isSome = true

theorem excused_of_outcome? (excused : state.poller.outcome? ≠ some .deadline ∧
    state.poller.outcome? ≠ some .cancelled) : state.Excused rules :=
  ⟨fun stopped => absurd stopped excused.1, fun stopped => absurd stopped excused.2⟩

theorem afterAttempt_outcome?_ne (rules : PollRules) (now : Nat) (failures : UInt32) :
    (Poller.afterAttempt rules now failures : Poller α).outcome? ≠ some .deadline ∧
      (Poller.afterAttempt rules now failures : Poller α).outcome? ≠ some .cancelled := by
  unfold Poller.afterAttempt
  split <;> exact ⟨nofun, nofun⟩

theorem Turn.excused {source : TimedSource μ} (turn : Turn rules classify source state next) :
    next.Excused rules := by
  cases turn with
  | stops outcome why =>
      rcases why with ⟨cancelled, rfl⟩ | ⟨-, late, rfl⟩
      · exact ⟨nofun, fun _ => cancelled⟩
      · exact ⟨fun _ => late, nofun⟩
  | begins timely phase => exact excused_of_outcome? ⟨nofun, nofun⟩
  | wakes timely wake phase due => exact excused_of_outcome? ⟨nofun, nofun⟩
  | opened timely moment rest phase came => exact excused_of_outcome? ⟨nofun, nofun⟩
  | refused timely moment rest reason phase came =>
      exact excused_of_outcome? (afterAttempt_outcome?_ne rules _ _)
  | hears timely moment rest heard content phase came unfinal =>
      exact excused_of_outcome? ⟨nofun, nofun⟩
  | concludes timely moment rest heard content value phase came final =>
      exact excused_of_outcome? ⟨nofun, nofun⟩
  | breaks timely moment rest heard told phase came isEnd =>
      exact excused_of_outcome? (afterAttempt_outcome?_ne rules _ _)

theorem Next.excused {source : TimedSource μ} (step : Next rules classify source state next) :
    next.Excused rules := by
  cases step with
  | turn step stepped => exact (turn_of_step? source stepped).2.excused
  | cancel running pending => exact excused_of_outcome? (by simp [running])
  | pass moment running later idle => exact excused_of_outcome? (by simp [running])

theorem excused_of_reaches {source : TimedSource μ} {began : Nat}
    (reached : Reaches rules classify source (start began) state) : state.Excused rules := by
  cases reached with
  | refl => exact excused_of_outcome? ⟨nofun, nofun⟩
  | tail reached step => exact step.excused

/-- What a poller reads, when it gives up and what it returns are told by its script. -/
structure Faithful (rules : PollRules) (classify : μ → Option α) (script : PollScript μ)
    (state : Polling μ α) : Prop where
  /-- The messages of all attempts are read in order, each once, and those of an earlier one all. -/
  inOrder : state.read <+: script.heard state.openings ∧
    script.heard (state.openings - 1) <+: state.read
  /-- The poller returns with the first message that is final. -/
  terminal : ∀ value, state.poller.outcome? = some (.terminal value) →
    ∃ before content, state.read = before ++ [content] ∧
      (∀ other ∈ before, classify other = none) ∧ classify content = some value
  unfinal : (∀ value, state.poller.outcome? ≠ some (.terminal value)) →
    ∀ content ∈ state.read, classify content = none
  /-- It gives up in the attempt that is the first to make it do so, and not later. -/
  exhausted : state.poller.outcome? = some .exhausted →
    0 < state.openings ∧ script.GivesUp rules (state.openings - 1) ∧
      state.read = script.heard state.openings
  patient : ∀ number, number + 1 < state.openings → ¬ script.GivesUp rules number
  between : (state.poller.phase = .beginning ∨ ∃ wake, state.poller.phase = .resting wake) →
    state.read = script.heard state.openings ∧
      ∀ number < state.openings, ¬ script.GivesUp rules number
  /-- Before the deadline and without a cancellation a poller returns nothing else, it takes all that has
  come, and it waits only for its own timer and for what its source tells later. -/
  concluded : state.poller.outcome? ≠ none → state.Timely rules →
    (∃ value, state.poller.outcome? = some (.terminal value)) ∨
      state.poller.outcome? = some .exhausted
  taken : state.poller.outcome? = none → state.Timely rules →
    ∀ event, state.feed.due? state.now = some event →
      ∃ step, state.poller.step? rules classify state.now state.cancelledAt.isSome (some event) =
          some step ∧
        step.took = true
  /-- Nothing is overdue: whatever comes is taken at its moment. -/
  onTime : ∀ moment event, (moment, event) ∈ state.feed → state.now ≤ moment
  waits : state.poller.outcome? = none →
    state.poller.step? rules classify state.now state.cancelledAt.isSome
      (state.feed.due? state.now) = none →
    state.Timely rules ∧ state.poller.phase ≠ .beginning ∧
      (∀ wake, state.poller.phase = .resting wake → state.now < wake) ∧
      ∀ moment event rest, state.feed = (moment, event) :: rest → state.now < moment
  excused : state.Excused rules
  returned : state.poller.outcome? ≠ none →
    ∀ next, ¬ Next rules classify script.source state next
  goesOn : state.poller.outcome? = none →
    ∃ next, Next rules classify script.source state next ∧ next.cancelledAt = state.cancelledAt
  ends : (∃ number, script.GivesUp rules number ∨
      ∃ content ∈ (script number).heard, classify content ≠ none) →
    Ends rules classify script.source state

theorem faithful_of_reaches (small : rules.maxRetries.toNat < Nat.pow 2 32 - 1) {began : Nat}
    (reached : Reaches rules classify script.source (start began) state) :
    state.Faithful rules classify script := by
  have place : Place rules classify script state.view :=
    Reaches.place reached small (place_start [])
  obtain ⟨number, before, underway, unfinal⟩ := underway_of_place place
  constructor
  case inOrder => exact ⟨underway.inOrder, underway.earlier⟩
  case terminal =>
      intro value stopped
      obtain ⟨number, before, content, concluded⟩ := place.of_phase (phase_of_outcome? stopped)
      refine ⟨script.heard number ++ before, content, ?_, ?_, concluded.final⟩
      · rw [List.append_assoc]
        exact concluded.progress.inOrder
      · intro other member
        rcases List.mem_append.mp member with older | newer
        · exact concluded.progress.unfinal other older
        · exact concluded.unfinal other newer
  case unfinal =>
      intro unstopped content member
      replace member : content ∈ script.heard number ++ before := underway.progress.inOrder ▸ member
      rcases List.mem_append.mp member with older | newer
      · exact underway.progress.unfinal content older
      · exact unfinal unstopped content newer
  case exhausted =>
      intro stopped
      obtain ⟨number, exhausted⟩ := place.of_phase (phase_of_outcome? stopped)
      have openings : state.openings = number + 1 := exhausted.openings
      have silent := exhausted.givesUp.2 number (Nat.le_refl _) (Nat.sub_le _ _)
      rw [openings, PollScript.heard_succ, silent]
      exact ⟨Nat.succ_pos number, exhausted.givesUp, exhausted.progress.inOrder⟩
  case patient =>
      intro earlier before
      apply underway.progress.patient earlier
      have bounds : state.openings - 1 ≤ number := underway.number_le.1
      omega
  case between =>
      intro phase
      have between : Between rules classify script state.view := by
        rcases phase with beginning | ⟨wake, resting⟩
        · exact place.of_phase beginning
        · exact place.of_phase resting
      refine ⟨?_, between.progress.patient⟩
      have inOrder := between.progress.inOrder
      rwa [List.append_nil] at inOrder
  case concluded =>
      intro stopped timely
      have excused := excused_of_reaches reached
      obtain ⟨outcome, returned⟩ := Option.ne_none_iff_exists'.mp stopped
      cases outcome with
      | terminal value => exact .inl ⟨value, returned⟩
      | exhausted => exact .inr returned
      | deadline => exact absurd (excused.deadline returned) (Nat.not_le_of_lt timely.2)
      | cancelled =>
          have cancelled := excused.cancelled returned
          rw [timely.1] at cancelled
          cases cancelled
  case taken =>
      intro running timely event came
      exact exists_step?_of_due (fed_of_reaches reached) running timely came
  case onTime =>
      intro moment event member
      obtain ⟨least, -⟩ := List.pairwise_cons.mp (comesFrom_of_reaches reached)
      exact least moment (List.mem_map_of_mem member)
  case waits =>
      intro running waits
      obtain ⟨uncancelled, early, begun, resting, coming⟩ :=
        waits_cases (fed_of_reaches reached) running waits
      have pending := Option.not_isSome_iff_eq_none.mp (Bool.eq_false_iff.mp uncancelled)
      exact ⟨⟨pending, early⟩, begun, fun wake phase => (resting wake phase).1, coming⟩
  case excused => exact excused_of_reaches reached
  case returned =>
      intro stopped next step
      exact not_next_of_stopped stopped step
  case goesOn => exact goes_on script.source
  case ends =>
      rintro ⟨number, verdict⟩
      apply ends_of_bounded (number + 1)
      intro later reaches
      exact (Reaches.place reaches small place).openings_le verdict

/-- Where no attempt is left, a poller gives up. -/
theorem ends_prepared (small : rules.maxRetries.toNat < Nat.pow 2 32 - 1)
    (classify : μ → Option α) (attempts : List (Attempt μ)) (began : Nat) :
    Ends rules classify (PollScript.prepared attempts).source (start began) := by
  apply (faithful_of_reaches small .refl).ends
  refine ⟨attempts.length + rules.maxRetries.toNat, .inl ⟨Nat.le_add_left _ _, ?_⟩⟩
  intro attempt _ last
  have left : attempts.length ≤ attempt := by omega
  rw [PollScript.prepared, List.getD_eq_getElem?_getD, List.getElem?_eq_none left]
  rfl

/-- However long everything takes, a poller reads the messages of its script in order and returns with the
first that is final, or right after the first attempt that completes more silent ones in a row than its
rules allow, unless its deadline or a cancellation stops it before.  A poller that is played in virtual
time takes such a course, to its end. -/
theorem polls_are_faithful [DecidableEq μ] (small : rules.maxRetries.toNat < Nat.pow 2 32 - 1)
    (classify : μ → Option α) :
    (∀ (script : PollScript μ) began state,
        Reaches rules classify script.source (start began) state →
        state.Faithful rules classify script) ∧
      ∀ (attempts : List (Attempt μ)) (cancellation : Cancellation),
        (∀ fuel, ∃ state,
          Reaches rules classify (PollScript.prepared attempts).source (start 0) state ∧
          PollRun.Mirrors (.prepared attempts)
            (PollRun.play fuel rules classify attempts cancellation) state) ∧
        ∃ enough, ∀ fuel, enough ≤ fuel →
          (PollRun.play fuel rules classify attempts cancellation).poller.outcome? ≠ none := by
  refine ⟨fun script began state reached => faithful_of_reaches small reached, ?_⟩
  intro attempts cancellation
  constructor
  · intro fuel
    exact PollRun.play_reaches fuel rules classify attempts cancellation
  · exact PollRun.play_stops rules classify attempts cancellation
      (ends_prepared small classify attempts 0)

/-- Silent attempts of three kinds, with a message between the first and the second. -/
def fitfulScript : PollScript Nat
  | 0 => ⟨0, some "unavailable", [], false⟩
  | 1 => ⟨0, none, [⟨0, .ok 7⟩], false⟩
  | 2 => ⟨0, none, [], false⟩
  | _ => ⟨0, none, [⟨0, .error "lost"⟩], false⟩

def impatientRules : PollRules where
  retryInterval := ⟨5000000, by decide⟩
  maxRetries := 1
  deadline := 60

theorem faithful_when_exhausted :
    ∃ state, impatientRules.maxRetries.toNat < Nat.pow 2 32 - 1 ∧
      Reaches impatientRules (fun message => if message = 0 then some true else none)
        fitfulScript.source (start 0) state ∧
      state.poller.outcome? = some .exhausted ∧ state.openings = 4 ∧ state.read = [7] ∧
      state.Faithful impatientRules (fun message => if message = 0 then some true else none)
        fitfulScript := by
  have reached : Reaches impatientRules (fun message => if message = 0 then some true else none)
      fitfulScript.source (start 0) _ :=
    reaches_of_moves? [none, none, some 5, none, none, none, none, none, some 10, none, none, none,
      none, some 15, none, none, none, none] rfl
  exact ⟨_, by decide, reached, rfl, rfl, rfl, (polls_are_faithful (by decide) _).1 _ _ _ reached⟩

end Polling

end BackupClient
