import BackupClient.Auth.Schedule
import BackupClient.Proofs.Auth.PollScript

/-!
Pollers of prepared attempts.

A poller that is played in virtual time takes one of the courses that it may take in time, so that it keeps
its deadline and gives up as its attempts tell.
-/

namespace BackupClient

def PollScript.prepared {μ : Type} (attempts : List (Attempt μ)) : PollScript μ :=
  fun number => attempts.getD number .unavailable

namespace Polling

variable {μ α : Type} {rules : PollRules} {classify : μ → Option α} {script : PollScript μ}
  {state next later : Polling μ α}

def Fed (feed : Feed μ) : PollPhase α → Prop
  | .beginning => feed = []
  | .resting _ => feed = []
  | .opening => ∃ (attempt : Attempt μ) (start : Nat), feed = attempt.feed start
  | .reading _ => ∃ hangs start messages, feed = Attempt.follow hangs start messages
  | .stopped _ => True

theorem openings_after_of_opens {source : TimedSource μ} {step : PollStep μ α}
    (opens : step.opens = true) : (state.after source step).openings = state.openings + 1 := by
  simp [openings, after, opens]

theorem openings_after_of_shut {source : TimedSource μ} {step : PollStep μ α}
    (shut : step.opens = false) : (state.after source step).openings = state.openings := by
  simp [openings, after, shut]

theorem fed_afterAttempt (now : Nat) (failures : UInt32) :
    Fed ([] : Feed μ) (Poller.afterAttempt rules now failures : Poller α).phase := by
  unfold Poller.afterAttempt
  split
  · trivial
  · rfl

theorem Turn.fed {source : TimedSource μ} (turn : Turn rules classify source state next)
    (attempts : ∀ number start, ∃ attempt : Attempt μ, source number start = attempt.feed start)
    (fed : Fed state.feed state.poller.phase) : Fed next.feed next.poller.phase := by
  cases turn with
  | stops outcome why => trivial
  | begins timely phase =>
      obtain ⟨attempt, feed⟩ := attempts state.openings state.now
      exact ⟨attempt, state.now, feed⟩
  | wakes timely wake phase due =>
      rw [phase] at fed
      exact fed
  | opened timely moment rest phase came =>
      rw [phase] at fed
      obtain ⟨attempt, start, feed⟩ := fed
      obtain ⟨-, follows⟩ := Attempt.follow_of_opened (feed.symm.trans came)
      exact ⟨_, _, _, follows⟩
  | refused timely moment rest reason phase came =>
      rw [phase] at fed
      obtain ⟨attempt, start, feed⟩ := fed
      obtain rfl := (Attempt.heard_of_refused (feed.symm.trans came)).2
      exact fed_afterAttempt _ _
  | hears timely moment rest heard content phase came unfinal =>
      rw [phase] at fed
      obtain ⟨hangs, start, messages, feed⟩ := fed
      obtain ⟨later, -, follows⟩ := Attempt.heardIn_of_message (feed.symm.trans came)
      exact ⟨_, _, _, follows⟩
  | concludes => trivial
  | breaks timely moment rest heard told phase came isEnd =>
      rw [phase] at fed
      obtain ⟨hangs, start, messages, feed⟩ := fed
      obtain rfl := (Attempt.heardIn_of_over (feed.symm.trans came) isEnd).2
      exact fed_afterAttempt _ _

theorem Next.fed {source : TimedSource μ} (step : Next rules classify source state next)
    (attempts : ∀ number start, ∃ attempt : Attempt μ, source number start = attempt.feed start)
    (fed : Fed state.feed state.poller.phase) : Fed next.feed next.poller.phase := by
  cases step with
  | turn step stepped => exact (turn_of_step? source stepped).2.fed attempts fed
  | cancel running pending => exact fed
  | pass moment running later idle => exact fed

theorem fed_of_reaches {began : Nat}
    (reached : Reaches rules classify script.source (start began) state) :
    Fed state.feed state.poller.phase := by
  induction reached with
  | refl => rfl
  | tail reached step inductionHypothesis =>
      exact step.fed (fun number start => ⟨script number, rfl⟩) inductionHypothesis

theorem take?_isSome_of_fed {poller : Poller α} {moment : Nat} {event : SourceEvent μ} {rest : Feed μ}
    (fed : Fed ((moment, event) :: rest) poller.phase) (running : poller.outcome? = none)
    (rules : PollRules) (classify : μ → Option α) (now : Nat) :
    (poller.take? rules classify now event).isSome = true := by
  cases phase : poller.phase with
  | beginning =>
      rw [phase] at fed
      cases fed
  | resting wake =>
      rw [phase] at fed
      cases fed
  | stopped outcome => simp [Poller.outcome?, phase] at running
  | opening =>
      rw [phase] at fed
      obtain ⟨attempt, start, feed⟩ := fed
      rcases Attempt.head_of_feed feed.symm with rfl | ⟨reason, rfl⟩ <;> simp [Poller.take?, phase]
  | reading heard =>
      rw [phase] at fed
      obtain ⟨hangs, start, messages, feed⟩ := fed
      rcases Attempt.head_of_follow feed.symm with ⟨content, rfl⟩ | ⟨reason, rfl⟩ | rfl <;>
        simp [Poller.take?, phase]

/-- A poller that is given an event in time takes it. -/
theorem step?_of_fed {poller : Poller α} {moment now : Nat} {event : SourceEvent μ} {rest : Feed μ}
    (fed : Fed ((moment, event) :: rest) poller.phase) (running : poller.outcome? = none)
    (early : now < rules.deadline) :
    poller.step? rules classify now false (some event) = poller.take? rules classify now event := by
  have notLate : ¬ rules.deadline ≤ now := Nat.not_le_of_lt early
  cases phase : poller.phase with
  | beginning =>
      rw [phase] at fed
      cases fed
  | resting wake =>
      rw [phase] at fed
      cases fed
  | stopped outcome => simp [Poller.outcome?, phase] at running
  | opening => simp [Poller.step?, running, notLate, phase]
  | reading heard => simp [Poller.step?, running, notLate, phase]

theorem waits_cases {poller : Poller α} {feed : Feed μ} {now : Nat} {cancelled : Bool}
    (fed : Fed feed poller.phase) (running : poller.outcome? = none)
    (waits : poller.step? rules classify now cancelled (feed.due? now) = none) :
    cancelled = false ∧ now < rules.deadline ∧ poller.phase ≠ .beginning ∧
      (∀ wake, poller.phase = .resting wake → now < wake ∧ feed = []) ∧
      ∀ moment event rest, feed = (moment, event) :: rest → now < moment := by
  have undue : ¬ (cancelled = true ∨ rules.deadline ≤ now) := by
    intro due
    rw [step?_of_due running due] at waits
    cases waits
  obtain ⟨uncancelled, early⟩ := not_or.mp undue
  rw [Bool.not_eq_true] at uncancelled
  subst uncancelled
  refine ⟨rfl, Nat.lt_of_not_le early, ?_, ?_, ?_⟩
  · intro phase
    simp [Poller.step?, running, early, phase] at waits
  · intro wake phase
    rw [phase] at fed
    refine ⟨?_, fed⟩
    simpa [Poller.step?, running, early, phase] using waits
  · rintro moment event rest rfl
    apply Nat.lt_of_not_le
    intro came
    have takes := take?_isSome_of_fed fed running rules classify now
    have due : Feed.due? ((moment, event) :: rest) now = some event := if_pos came
    rw [due, step?_of_fed fed running (Nat.lt_of_not_le early)] at waits
    rw [waits] at takes
    cases takes

/-- The events of a feed come in order, none of them before a moment. -/
def ComesFrom (moment : Nat) (feed : Feed μ) : Prop :=
  (moment :: feed.map (·.1)).Pairwise (· ≤ ·)

theorem ComesFrom.cons {feed : Feed μ} {moment due : Nat} (comes : ComesFrom due feed)
    (notBefore : moment ≤ due) (event : SourceEvent μ) : ComesFrom moment ((due, event) :: feed) := by
  refine List.pairwise_cons.mpr ⟨?_, comes⟩
  intro later member
  rcases List.mem_cons.mp member with rfl | inside
  · exact notBefore
  · exact Nat.le_trans notBefore ((List.pairwise_cons.mp comes).1 later inside)

theorem comesFrom_nil (moment : Nat) : ComesFrom moment ([] : Feed μ) :=
  List.pairwise_singleton _ _

theorem ComesFrom.tail {feed : Feed μ} {moment : Nat} (comes : ComesFrom moment feed) :
    ComesFrom moment feed.tail := by
  cases feed with
  | nil => exact comes
  | cons first rest =>
      obtain ⟨least, ordered⟩ := List.pairwise_cons.mp comes
      obtain ⟨-, ordered⟩ := List.pairwise_cons.mp ordered
      exact List.pairwise_cons.mpr ⟨fun due member => least due (.tail _ member), ordered⟩

theorem comesFrom_follow (hangs : Bool) (moment : Nat) (messages : List (TimedMessage μ)) :
    ComesFrom moment (Attempt.follow hangs moment messages) := by
  induction messages generalizing moment with
  | nil =>
      cases hangs with
      | true => exact comesFrom_nil moment
      | false => exact (comesFrom_nil moment).cons (Nat.le_refl _) _
  | cons message rest inductionHypothesis =>
      have later : moment ≤ moment + message.delay := Nat.le_add_right _ _
      unfold Attempt.follow
      cases message.content with
      | ok content => exact (inductionHypothesis _).cons later _
      | error reason => exact (comesFrom_nil _).cons later _

theorem comesFrom_feed (attempt : Attempt μ) (moment : Nat) :
    ComesFrom moment (attempt.feed moment) := by
  have later : moment ≤ moment + attempt.openDelay := Nat.le_add_right _ _
  unfold Attempt.feed
  cases attempt.refusal with
  | some reason => exact (comesFrom_nil _).cons later _
  | none => exact (comesFrom_follow _ _ _).cons later _

theorem Next.comesFrom (step : Next rules classify script.source state next)
    (fed : Fed state.feed state.poller.phase) (comes : ComesFrom state.now state.feed) :
    ComesFrom next.now next.feed := by
  cases step with
  | turn step stepped =>
      unfold after
      dsimp only
      split
      case isTrue => exact comesFrom_feed _ _
      case isFalse =>
          split
          case isTrue => exact comes.tail
          case isFalse => exact comes
  | cancel running pending => exact comes
  | pass moment running later idle =>
      -- Time does not pass beyond the first event, which the poller takes when it comes.
      cases feed : state.feed with
      | nil => exact comesFrom_nil moment
      | cons first rest =>
          obtain ⟨due, event⟩ := first
          rw [feed] at comes fed idle
          obtain ⟨least, ordered⟩ := List.pairwise_cons.mp comes
          have notLater : moment ≤ due := by
            apply Nat.le_of_not_lt
            intro passed
            have waits := idle due (least due (.head _)) passed
            obtain ⟨-, -, -, -, coming⟩ := waits_cases fed running waits
            exact absurd (coming due event rest rfl) (Nat.lt_irrefl due)
          exact ComesFrom.cons ordered notLater event

theorem comesFrom_of_reaches {began : Nat}
    (reached : Reaches rules classify script.source (start began) state) :
    ComesFrom state.now state.feed := by
  induction reached with
  | refl => exact comesFrom_nil began
  | tail reached step inductionHypothesis =>
      exact step.comesFrom (fed_of_reaches reached) inductionHypothesis

theorem exists_step?_of_due (fed : Fed state.feed state.poller.phase)
    (running : state.poller.outcome? = none) (timely : state.Timely rules)
    {event : SourceEvent μ} (came : state.feed.due? state.now = some event) :
    ∃ step, state.poller.step? rules classify state.now state.cancelledAt.isSome (some event) =
        some step ∧
      step.took = true := by
  obtain ⟨moment, rest, feed⟩ := due_of_came came
  rw [feed] at fed
  obtain ⟨step, taken⟩ :=
    Option.isSome_iff_exists.mp (take?_isSome_of_fed fed running rules classify state.now)
  refine ⟨step, ?_, ?_⟩
  · rw [timely.1]
    exact (step?_of_fed fed running timely.2).trans taken
  · have goes := Poller.take?_goes taken
    cases goes with
    | begins phase => simp [phase, Fed] at fed
    | wakes wake phase due => simp [phase, Fed] at fed
    | opened phase came => rfl
    | refused reason phase came => exact Poller.endAttempt_took _ _ _ _
    | hears heard content phase came unfinal => rfl
    | concludes heard content value phase came final => rfl
    | failed heard reason phase came => exact Poller.endAttempt_took _ _ _ _
    | ended heard phase came => exact Poller.endAttempt_took _ _ _ _

end Polling

namespace PollRun

variable {μ α : Type} {rules : PollRules} {classify : μ → Option α} {script : PollScript μ}
  {run : PollRun μ α} {state : Polling μ α}

structure Mirrors (script : PollScript μ) (run : PollRun μ α) (state : Polling μ α) : Prop where
  poller : state.poller = run.poller
  feed : state.feed = run.feed
  openings : state.openings = run.opens
  read : state.read = run.seen
  cancelled : state.cancelledAt.isSome = run.cancelled
  now : state.now = run.now
  attempts : ∀ number,
    script (state.openings + number) = run.source.attempts.getD number .unavailable
  fed : Polling.Fed state.feed state.poller.phase
  ahead : ∀ moment, run.cancelAt = some moment → run.now ≤ moment

theorem opens_eq_contains [DecidableEq μ] (step : PollStep μ α) :
    step.opens = step.acts.contains .opens := by
  rw [Bool.eq_iff_iff, List.contains_iff_mem, PollStep.opens, List.any_eq_true]
  constructor
  · rintro ⟨act, member, opens⟩
    cases act with
    | opens => exact member
    | reads message => cases opens
    | tells notice => cases opens
  · intro member
    exact ⟨.opens, member, rfl⟩

theorem seen_append (run : PollRun μ α) (step : PollStep μ α) :
    seen { run with acts := step.acts.reverse ++ run.acts } = run.seen ++ step.messages := by
  unfold seen PollStep.messages
  rw [List.reverse_append, List.reverse_reverse, List.filterMap_append]
  congr 1

theorem afterActs_of_shut [DecidableEq μ] {step : PollStep μ α} (shut : step.opens = false)
    (run : PollRun μ α) :
    run.afterActs step.acts = { run with acts := step.acts.reverse ++ run.acts } := by
  rw [afterActs, ← opens_eq_contains, shut]
  rfl

theorem afterActs_of_opens [DecidableEq μ] {step : PollStep μ α} (opens : step.opens = true)
    (run : PollRun μ α) :
    run.afterActs step.acts =
      { run with
        acts := step.acts.reverse ++ run.acts
        source := (run.source.openFor "").2
        feed := (run.source.openFor "").1.feed run.now } := by
  rw [afterActs, ← opens_eq_contains, opens]
  rfl

theorem openFor_fst (source : PreparedSource μ) (id : String) :
    (source.openFor id).1 = source.attempts.getD 0 .unavailable := by
  unfold PreparedSource.openFor
  cases source.attempts <;> rfl

theorem openFor_attempts (source : PreparedSource μ) (id : String) (number : Nat) :
    (source.openFor id).2.attempts.getD number .unavailable =
      source.attempts.getD (number + 1) .unavailable := by
  unfold PreparedSource.openFor
  cases source.attempts with
  | nil => simp
  | cons attempt rest => simp

theorem openFor_opened (source : PreparedSource μ) (id : String) :
    (source.openFor id).2.opened.length = source.opened.length + 1 := by
  unfold PreparedSource.openFor
  cases source.attempts <;> rfl

theorem Mirrors.turn [DecidableEq μ] (mirrors : Mirrors script run state) {step : PollStep μ α}
    (stepped : run.poller.step? rules classify run.now run.cancelled (run.feed.due? run.now) =
      some step) :
    Polling.Next rules classify script.source state (state.after script.source step) ∧
      Mirrors script
        ({ run with
          poller := step.poller
          feed := if step.took then run.feed.tail else run.feed }.afterActs step.acts)
        (state.after script.source step) := by
  have own : state.poller.step? rules classify state.now state.cancelledAt.isSome
      (state.feed.due? state.now) = some step := by
    rw [mirrors.poller, mirrors.now, mirrors.cancelled, mirrors.feed]
    exact stepped
  refine ⟨.turn step own, ?_⟩
  obtain ⟨-, turn⟩ := Polling.turn_of_step? script.source own
  have fed := turn.fed (fun number start => ⟨script number, rfl⟩) mirrors.fed
  have read : (state.after script.source step).read = run.seen ++ step.messages :=
    congrArg (· ++ step.messages) mirrors.read
  cases opens : step.opens with
  | false =>
      rw [afterActs_of_shut opens]
      constructor
      case poller => rfl
      case feed => simp [Polling.after, opens, mirrors.feed]
      case openings =>
          rw [Polling.openings_after_of_shut opens]
          exact mirrors.openings
      case read => exact read.trans (run.seen_append step).symm
      case cancelled => exact mirrors.cancelled
      case now => exact mirrors.now
      case attempts =>
          rw [Polling.openings_after_of_shut opens]
          exact mirrors.attempts
      case fed => exact fed
      case ahead => exact mirrors.ahead
  | true =>
      rw [afterActs_of_opens opens]
      have first := mirrors.attempts 0
      constructor
      case poller => rfl
      case feed =>
          show (if step.opens then script.source state.openings state.now else _) = _
          rw [if_pos opens, openFor_fst, ← first, mirrors.now]
          rfl
      case openings =>
          rw [Polling.openings_after_of_opens opens, mirrors.openings]
          exact (openFor_opened run.source "").symm
      case read => exact read.trans (run.seen_append step).symm
      case cancelled => exact mirrors.cancelled
      case now => exact mirrors.now
      case attempts =>
          intro number
          rw [Polling.openings_after_of_opens opens, openFor_attempts, ← mirrors.attempts,
            Nat.add_assoc, Nat.add_comm 1 number]
      case fed => exact fed
      case ahead => exact mirrors.ahead

theorem nextMoment_eq_some (rules : PollRules) (run : PollRun μ α) :
    ∃ moment, run.nextMoment rules = some moment ∧ moment ≤ rules.deadline ∧
      (∀ wake, run.poller.wake? = some wake → moment ≤ wake) ∧
      run.feed.head?.all (moment ≤ ·.1) = true ∧
      (moment = rules.deadline ∨ run.cancelAt = some moment ∨ run.poller.wake? = some moment ∨
        run.feed.head?.map (·.1) = some moment) := by
  have someMoment : (run.nextMoment rules).isSome = true := by
    simp [nextMoment]
  obtain ⟨moment, next⟩ := Option.isSome_iff_exists.mp someMoment
  obtain ⟨member, least⟩ := List.min?_eq_some_iff.mp next
  refine ⟨moment, next, least _ (by simp), ?_, ?_, ?_⟩
  · intro wake isWake
    exact least wake (by simp [isWake])
  · cases feed : run.feed with
    | nil => rfl
    | cons first rest => simpa using least first.1 (by simp [feed])
  · simpa [or_assoc, Option.mem_toList, eq_comm] using member

/-- The next moment lies ahead, and the poller waits until then. -/
theorem Mirrors.waits (mirrors : Mirrors script run state)
    (running : run.poller.outcome? = none)
    (waits : run.poller.step? rules classify run.now run.cancelled (run.feed.due? run.now) = none) :
    ∃ moment, run.nextMoment rules = some moment ∧ run.now ≤ moment ∧
      (run.now < moment ∨ run.cancelAt = some moment) ∧
      run.cancelled = false ∧ state.waitsUntil rules moment = true := by
  obtain ⟨moment, next, within, beforeWake, beforeFeed, origin⟩ := run.nextMoment_eq_some rules
  have fed := mirrors.fed
  rw [mirrors.poller, mirrors.feed] at fed
  obtain ⟨uncancelled, early, begun, resting, coming⟩ := Polling.waits_cases fed running waits
  have ahead : run.now < moment ∨ run.cancelAt = some moment := by
    rcases origin with rfl | cancelAt | wake | head
    · exact .inl early
    · exact .inr cancelAt
    · unfold Poller.wake? at wake
      split at wake
      case h_1 due phase =>
          obtain rfl := Option.some.inj wake
          exact .inl (resting due phase).1
      case h_2 => cases wake
    · cases feed : run.feed with
      | nil => simp [feed] at head
      | cons first rest =>
          rw [feed] at head
          obtain rfl := Option.some.inj head
          exact .inl (coming first.1 first.2 rest feed)
  refine ⟨moment, next, ?_, ahead, uncancelled, ?_⟩
  · exact ahead.elim Nat.le_of_lt (mirrors.ahead moment)
  · have pending : state.cancelledAt.isNone = true := by
      rw [← Option.not_isSome, mirrors.cancelled, uncancelled]
      rfl
    unfold Polling.waitsUntil
    rw [pending, mirrors.poller, mirrors.feed, Bool.true_and, Bool.and_eq_true, decide_eq_true_eq]
    refine ⟨within, ?_⟩
    cases phase : run.poller.phase with
    | beginning => exact absurd phase begun
    | opening => exact beforeFeed
    | reading heard => exact beforeFeed
    | resting wake => exact decide_eq_true (beforeWake wake (by simp [Poller.wake?, phase]))
    | stopped outcome => simp [Poller.outcome?, phase] at running

theorem Mirrors.moved (mirrors : Mirrors script run state) {moment : Nat} {cancelledAt : Option Nat}
    (cancelled : cancelledAt.isSome = (run.moveTo moment).cancelled) :
    Mirrors script (run.moveTo moment) { state with now := moment, cancelledAt := cancelledAt } := by
  constructor
  case poller => exact mirrors.poller
  case feed => exact mirrors.feed
  case openings => exact mirrors.openings
  case read => exact mirrors.read
  case cancelled => exact cancelled
  case now => rfl
  case attempts => exact mirrors.attempts
  case fed => exact mirrors.fed
  case ahead =>
      intro cancellation cancelAt
      simp only [PollRun.moveTo] at cancelAt ⊢
      split at cancelAt
      case isTrue => cases cancelAt
      case isFalse undue =>
          have later : ¬ cancellation ≤ moment := by simpa [cancelAt] using undue
          exact Nat.le_of_not_le later

/-- To wait is to let time pass, and then perhaps to be cancelled. -/
theorem Mirrors.moveTo (classify : μ → Option α) (mirrors : Mirrors script run state) {moment : Nat}
    (notEarlier : run.now ≤ moment) (ahead : run.now < moment ∨ run.cancelAt = some moment)
    (uncancelled : run.cancelled = false) (waits : state.waitsUntil rules moment = true) :
    ∃ later, Polling.Proceeds rules classify script.source state later ∧
      Mirrors script (run.moveTo moment) later := by
  have running := Polling.running_of_waitsUntil waits
  have pending : state.cancelledAt = none := by
    rw [← Option.not_isSome_iff_eq_none, mirrors.cancelled, uncancelled]
    exact Bool.false_ne_true
  have passes (later : run.now < moment) :
      Polling.Next rules classify script.source state { state with now := moment } := by
    rw [← mirrors.now] at later
    have moved : state.move? rules classify script.source (some moment) =
        some { state with now := moment } := by
      simp [Polling.move?, later, waits]
    exact Polling.next_of_move? moved
  cases due : run.cancelAt.any (· ≤ moment) with
  | true =>
      have passed : Polling.Reaches rules classify script.source state
          { state with now := moment } := by
        rcases Nat.eq_or_lt_of_le notEarlier with same | later
        · rw [← same, ← mirrors.now]
        · exact .single (passes later)
      refine ⟨_, .tail' passed (.cancel running pending), mirrors.moved ?_⟩
      simp [PollRun.moveTo, due]
  | false =>
      have later : run.now < moment := by
        apply ahead.resolve_right
        intro cancelAt
        simp [cancelAt] at due
      refine ⟨_, .single (passes later), mirrors.moved ?_⟩
      simp [PollRun.moveTo, due, mirrors.cancelled]

/-- Each unit of fuel is a step of the poller or a wait, and both keep the poller in time alongside. -/
theorem Mirrors.proceeds [DecidableEq μ] (rules : PollRules) (classify : μ → Option α)
    (mirrors : Mirrors script run state) (running : run.poller.outcome? = none) :
    ∃ next later, Polling.Proceeds rules classify script.source state later ∧
      Mirrors script next later ∧
      ∀ fuel, PollRun.run (fuel + 1) rules classify run = PollRun.run fuel rules classify next := by
  cases stepped : run.poller.step? rules classify run.now run.cancelled
      (run.feed.due? run.now) with
  | some step =>
      obtain ⟨next, mirrored⟩ := mirrors.turn stepped
      refine ⟨_, _, .single next, mirrored, fun fuel => ?_⟩
      rw [PollRun.run, stepped]
  | none =>
      obtain ⟨moment, next, notEarlier, ahead, uncancelled, waitsUntil⟩ := mirrors.waits running stepped
      obtain ⟨later, proceeds, mirrored⟩ :=
        mirrors.moveTo classify notEarlier ahead uncancelled waitsUntil
      refine ⟨_, later, proceeds, mirrored, fun fuel => ?_⟩
      rw [PollRun.run, stepped]
      simp [running, next]

theorem run_of_stopped [DecidableEq μ] (rules : PollRules) (classify : μ → Option α)
    (stopped : run.poller.outcome? ≠ none) (fuel : Nat) :
    PollRun.run fuel rules classify run = run := by
  have isSome := Option.isSome_iff_ne_none.mpr stopped
  cases fuel with
  | zero => rfl
  | succ fuel => simp [PollRun.run, Poller.step?, isSome]

theorem Mirrors.played [DecidableEq μ] (fuel : Nat) (rules : PollRules)
    (classify : μ → Option α) {run : PollRun μ α} {state : Polling μ α}
    (mirrors : Mirrors script run state) :
    ∃ later, Polling.Reaches rules classify script.source state later ∧
      Mirrors script (PollRun.run fuel rules classify run) later := by
  induction fuel generalizing run state with
  | zero => exact ⟨state, .refl, mirrors⟩
  | succ fuel inductionHypothesis =>
      by_cases running : run.poller.outcome? = none
      · obtain ⟨next, middle, proceeds, mirrored, same⟩ := mirrors.proceeds rules classify running
        obtain ⟨later, reached, mirrorsLater⟩ := inductionHypothesis mirrored
        rw [same]
        exact ⟨later, proceeds.to_reflTransGen.trans reached, mirrorsLater⟩
      · rw [run_of_stopped rules classify running]
        exact ⟨state, .refl, mirrors⟩

/-- A poller that comes to an end in time does so in virtual time, too. -/
theorem Mirrors.stops [DecidableEq μ] (mirrors : Mirrors script run state)
    (ends : Polling.Ends rules classify script.source state) :
    ∃ enough, ∀ fuel, enough ≤ fuel →
      (PollRun.run fuel rules classify run).poller.outcome? ≠ none := by
  have accessible := Acc.transGen ends
  clear ends
  induction accessible generalizing run with
  | intro state _ inductionHypothesis =>
      by_cases running : run.poller.outcome? = none
      · obtain ⟨next, later, proceeds, mirrored, same⟩ := mirrors.proceeds rules classify running
        obtain ⟨enough, stops⟩ :=
          inductionHypothesis later (Relation.transGen_swap.mpr proceeds) mirrored
        refine ⟨enough + 1, fun fuel more => ?_⟩
        cases fuel with
        | zero => exact absurd more (Nat.not_succ_le_zero enough)
        | succ fuel =>
            rw [same]
            exact stops fuel (Nat.le_of_succ_le_succ more)
      · refine ⟨0, fun fuel _ => ?_⟩
        rw [run_of_stopped rules classify running]
        exact running

theorem exists_mirrors_start (rules : PollRules) (classify : μ → Option α)
    (attempts : List (Attempt μ)) (cancellation : Cancellation) :
    ∃ state, Polling.Reaches rules classify (PollScript.prepared attempts).source
        (Polling.start 0) state ∧
      Mirrors (.prepared attempts)
        (⟨.start, [], ⟨attempts, []⟩, [], decide (cancellation = .before), cancellation.moment? 0,
          0⟩ : PollRun μ α)
        state := by
  have start (cancelled : Bool) (cancelledAt : Option Nat)
      (same : cancelledAt.isSome = cancelled) :
      Mirrors (PollScript.prepared attempts)
        (⟨.start, [], ⟨attempts, []⟩, [], cancelled, cancellation.moment? 0, 0⟩ : PollRun μ α)
        ⟨.start, [], [], [], cancelledAt, 0⟩ := by
    constructor
    case poller => rfl
    case feed => rfl
    case openings => rfl
    case read => rfl
    case cancelled => exact same
    case now => rfl
    case attempts =>
        intro number
        rw [PollScript.prepared, Polling.openings, List.length_nil, Nat.zero_add]
    case fed => rfl
    case ahead => exact fun moment _ => Nat.zero_le moment
  by_cases before : cancellation = .before
  · exact ⟨_, .single (.cancel rfl rfl), start _ (some 0) (by simp [before])⟩
  · exact ⟨_, .refl, start _ none (by simp [before])⟩

/-- A poller that is played in virtual time takes a course that it may take in time. -/
theorem play_reaches [DecidableEq μ] (fuel : Nat) (rules : PollRules) (classify : μ → Option α)
    (attempts : List (Attempt μ)) (cancellation : Cancellation) :
    ∃ state, Polling.Reaches rules classify (PollScript.prepared attempts).source
        (Polling.start 0) state ∧
      Mirrors (.prepared attempts) (play fuel rules classify attempts cancellation) state := by
  obtain ⟨state, reached, mirrors⟩ :=
    exists_mirrors_start rules classify attempts cancellation
  obtain ⟨later, further, mirrored⟩ := mirrors.played fuel rules classify
  exact ⟨later, reached.trans further, mirrored⟩

theorem play_stops [DecidableEq μ] (rules : PollRules) (classify : μ → Option α)
    (attempts : List (Attempt μ)) (cancellation : Cancellation)
    (ends : Polling.Ends rules classify (PollScript.prepared attempts).source (Polling.start 0)) :
    ∃ enough, ∀ fuel, enough ≤ fuel →
      (play fuel rules classify attempts cancellation).poller.outcome? ≠ none := by
  obtain ⟨state, reached, mirrors⟩ :=
    exists_mirrors_start rules classify attempts cancellation
  exact mirrors.stops (ends.of_reaches reached)

end PollRun

end BackupClient
