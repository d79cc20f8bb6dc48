import BackupClient.Proofs.Auth.PollCourse
import Mathlib.Algebra.Group.Nat.Defs
import Mathlib.Order.Monotone.Basic

/-!
The number of failed attempts.

A poller counts the attempts in a row that have failed with thirty-two bits.  What its source has told it
gives the true number, and the counter tells this number modulo 2 ^ 32.
-/

namespace BackupClient

namespace SourceEvent

variable {μ : Type}

/-- How many attempts in a row have failed, by what a source has told, the latest first.  An attempt fails
that is refused or whose stream is over before any message. -/
def failedInARow : List (SourceEvent μ) → Nat
  | [] => 0
  | .message _ :: _ => 0
  | .refused _ :: earlier => failedInARow earlier + 1
  | .failed _ :: .opened :: earlier => failedInARow earlier + 1
  | .ended :: .opened :: earlier => failedInARow earlier + 1
  | _ :: earlier => failedInARow earlier

@[simp]
theorem failedInARow_refused (reason : String) (told : List (SourceEvent μ)) :
    failedInARow (.refused reason :: told) = failedInARow told + 1 := rfl

@[simp]
theorem failedInARow_message (content : μ) (told : List (SourceEvent μ)) :
    failedInARow (.message content :: told) = 0 := rfl

@[simp]
theorem failedInARow_opened (told : List (SourceEvent μ)) :
    failedInARow (.opened :: told) = failedInARow told := rfl

theorem failedInARow_cons_le (event : SourceEvent μ) (told : List (SourceEvent μ)) :
    failedInARow (event :: told) ≤ failedInARow told + 1 := by
  cases event with
  | refused reason => exact Nat.le_refl _
  | opened => exact Nat.le_succ _
  | message content => exact Nat.zero_le _
  | failed reason =>
      cases told with
      | nil => exact Nat.zero_le _
      | cons event earlier => cases event <;> simp [failedInARow]
  | ended =>
      cases told with
      | nil => exact Nat.zero_le _
      | cons event earlier => cases event <;> simp [failedInARow]

theorem failedInARow_replicate (reason : String) (count : Nat) :
    failedInARow (List.replicate count (.refused reason : SourceEvent μ)) = count := by
  induction count with
  | zero => rfl
  | succ count inductionHypothesis =>
      rw [List.replicate_succ, failedInARow_refused, inductionHypothesis]

example : failedInARow
    [.ended, .opened, .refused "late", .failed "lost", .message 7, .opened, .refused "early"] = 2 :=
  rfl

end SourceEvent

open SourceEvent

/-- What a source has told in a step: the event that is taken, if one is. -/
def PollStep.taken {μ α : Type} (step : PollStep μ α) (event : Option (SourceEvent μ)) :
    List (SourceEvent μ) :=
  if step.took then event.toList else []

theorem PollStep.failedInARow_taken_le {μ α : Type} (step : PollStep μ α)
    (event : Option (SourceEvent μ)) (told : List (SourceEvent μ)) :
    failedInARow (step.taken event ++ told) ≤ failedInARow told + 1 := by
  unfold taken
  split
  case isTrue =>
      cases event with
      | none => exact Nat.le_succ _
      | some event => exact event.failedInARow_cons_le told
  case isFalse => exact Nat.le_succ _

/-! ### How many attempts there is time for -/

namespace PollRules

variable {rules : PollRules} {began now ended count : Nat}

/-- The first moment whose rest ends beyond what the clock holds. -/
def firstBeyond (rules : PollRules) : Nat :=
  if rules.lastMoment < rules.retryInterval.nanos then 0
  else (rules.lastMoment - rules.retryInterval.nanos) / 1000000 + 1

/-- When an attempt that begins now has to end, so that the rest behind it is over as soon as possible: at
once, or when the rest takes thirty years at most. -/
def bestEnd (rules : PollRules) (now : Nat) : Nat :=
  if rules.wake now ≤ rules.wake (max now rules.firstBeyond) then now else max now rules.firstBeyond

def soonest (rules : PollRules) (now : Nat) : Nat :=
  rules.wake (rules.bestEnd now)

/-- The earliest moment for an attempt behind a number of failed ones. -/
def earliest (rules : PollRules) (began : Nat) : Nat → Nat
  | 0 => began
  | count + 1 => rules.soonest (rules.earliest began count)

/-- The rules let a poller give up, or leave it no time for as many attempts as can be counted. -/
def Limited (rules : PollRules) (began : Nat) : Prop :=
  rules.maxRetries.toNat < 2 ^ 32 - 1 ∨ rules.deadline ≤ rules.earliest began (2 ^ 32 - 1)

theorem firstBeyond_le_iff : rules.firstBeyond ≤ now ↔
    rules.lastMoment < now * 1000000 + rules.retryInterval.nanos := by
  unfold firstBeyond
  split <;> omega

theorem wake_of_firstBeyond_le (beyond : rules.firstBeyond ≤ now) :
    rules.wake now = now + Timer.farFuture / 1000000 :=
  wake_of_lt (firstBeyond_le_iff.mp beyond)

theorem wake_of_lt_firstBeyond (held : now < rules.firstBeyond) :
    rules.wake now = now + rules.retryInterval.milliseconds := by
  apply wake_of_le
  apply Nat.le_of_not_lt
  rw [← firstBeyond_le_iff]
  exact Nat.not_le_of_lt held

theorem le_bestEnd (rules : PollRules) (now : Nat) : now ≤ rules.bestEnd now := by
  unfold bestEnd
  split
  · exact Nat.le_refl now
  · exact Nat.le_max_left now _

theorem soonest_le_wake (rules : PollRules) (notEarlier : now ≤ ended) :
    rules.soonest now ≤ rules.wake ended := by
  have least : rules.soonest now ≤ rules.wake now ∧
      rules.soonest now ≤ rules.wake (max now rules.firstBeyond) := by
    unfold soonest bestEnd
    split <;> omega
  rcases Nat.lt_or_ge ended rules.firstBeyond with held | beyond
  · refine Nat.le_trans least.1 ?_
    rw [wake_of_lt_firstBeyond held, wake_of_lt_firstBeyond (Nat.lt_of_le_of_lt notEarlier held)]
    exact Nat.add_le_add_right notEarlier _
  · refine Nat.le_trans least.2 ?_
    rw [wake_of_firstBeyond_le beyond, wake_of_firstBeyond_le (Nat.le_max_right _ _)]
    exact Nat.add_le_add_right (Nat.max_le.mpr ⟨notEarlier, beyond⟩) _

theorem bestEnd_le_earliest_succ (rules : PollRules) (began count : Nat) :
    rules.bestEnd (rules.earliest began count) ≤ rules.earliest began (count + 1) :=
  rules.le_wake _

theorem earliest_mono (rules : PollRules) (began : Nat) : Monotone (rules.earliest began) :=
  monotone_nat_of_le_succ fun count =>
    Nat.le_trans (rules.le_bestEnd _) (rules.bestEnd_le_earliest_succ began count)

theorem lt_of_earliest_lt {other : Nat}
    (sooner : rules.earliest began count < rules.earliest began other) : count < other :=
  (rules.earliest_mono began).reflect_lt sooner

theorem add_milliseconds_le_wake (short : rules.retryInterval.nanos ≤ Timer.farFuture) (now : Nat) :
    now + rules.retryInterval.milliseconds ≤ rules.wake now := by
  have brief : rules.retryInterval.milliseconds ≤ Timer.farFuture / 1000000 := by
    unfold Timer.farFuture nanosPerSecond at short ⊢
    unfold Duration.milliseconds
    omega
  rcases Nat.lt_or_ge now rules.firstBeyond with held | beyond
  · exact Nat.le_of_eq (wake_of_lt_firstBeyond held).symm
  · rw [wake_of_firstBeyond_le beyond]
    exact Nat.add_le_add_left brief now

/-- A rest that may be over by the deadline is one that the clock holds. -/
theorem wake_of_le_deadline (held : rules.deadline * 1000000 ≤ rules.lastMoment)
    (inside : now + rules.retryInterval.milliseconds ≤ rules.deadline) :
    rules.wake now = now + rules.retryInterval.milliseconds := by
  have covers : rules.retryInterval.nanos ≤ rules.retryInterval.milliseconds * 1000000 := by
    unfold Duration.milliseconds
    omega
  apply wake_of_le
  calc now * 1000000 + rules.retryInterval.nanos
      ≤ now * 1000000 + rules.retryInterval.milliseconds * 1000000 := Nat.add_le_add_left covers _
    _ = (now + rules.retryInterval.milliseconds) * 1000000 := (Nat.add_mul _ _ _).symm
    _ ≤ rules.deadline * 1000000 := Nat.mul_le_mul_right _ inside
    _ ≤ rules.lastMoment := held

theorem earliest_le (held : rules.deadline * 1000000 ≤ rules.lastMoment)
    (inside : began + count * rules.retryInterval.milliseconds ≤ rules.deadline) :
    rules.earliest began count ≤ began + count * rules.retryInterval.milliseconds := by
  induction count with
  | zero => exact Nat.le_add_right began _
  | succ count inductionHypothesis =>
      rw [Nat.succ_mul] at inside ⊢
      have before := inductionHypothesis (by omega)
      have soonest := rules.soonest_le_wake (Nat.le_refl (rules.earliest began count))
      rw [wake_of_le_deadline held (by omega)] at soonest
      exact Nat.le_trans soonest (by omega)

theorem le_earliest (short : rules.retryInterval.nanos ≤ Timer.farFuture) (began count : Nat) :
    began + count * rules.retryInterval.milliseconds ≤ rules.earliest began count := by
  induction count with
  | zero => exact Nat.le_of_eq (by rw [Nat.zero_mul]; rfl)
  | succ count inductionHypothesis =>
      rw [Nat.succ_mul, ← Nat.add_assoc]
      refine Nat.le_trans (Nat.add_le_add_right inductionHypothesis _) ?_
      refine Nat.le_trans (Nat.add_le_add_right (rules.le_bestEnd _) _) ?_
      exact add_milliseconds_le_wake short _

/-- Where no clock ends too soon, rests of at most thirty years follow each other at once. -/
theorem le_earliest_iff (short : rules.retryInterval.nanos ≤ Timer.farFuture)
    (held : rules.deadline * 1000000 ≤ rules.lastMoment) :
    rules.deadline ≤ rules.earliest began count ↔
      rules.deadline ≤ began + count * rules.retryInterval.milliseconds := by
  constructor
  · intro reached
    apply Nat.le_of_not_lt
    intro early
    have notLater := earliest_le held (Nat.le_of_lt early)
    exact absurd (Nat.le_trans reached notLater) (Nat.not_le_of_lt early)
  · intro reached
    exact Nat.le_trans reached (le_earliest short began count)

end PollRules

namespace PollPhase

variable {μ α : Type}

def NotBefore (moment now : Nat) : PollPhase α → Prop
  | .resting wake => moment ≤ wake
  | .stopped _ => True
  | _ => moment ≤ now

theorem NotBefore.mono {phase : PollPhase α} {moment now later : Nat}
    (notBefore : phase.NotBefore moment now) (notEarlier : now ≤ later) :
    phase.NotBefore moment later := by
  cases phase with
  | resting wake => exact notBefore
  | stopped outcome => trivial
  | beginning => exact Nat.le_trans notBefore notEarlier
  | opening => exact Nat.le_trans notBefore notEarlier
  | reading heard => exact Nat.le_trans notBefore notEarlier

def InAttempt : PollPhase α → Prop
  | .opening => True
  | .reading _ => True
  | _ => False

theorem NotBefore.of_inAttempt {phase : PollPhase α} {moment now : Nat}
    (notBefore : phase.NotBefore moment now) (inAttempt : phase.InAttempt) : moment ≤ now := by
  cases phase with
  | opening => exact notBefore
  | reading heard => exact notBefore
  | beginning => cases inAttempt
  | resting wake => cases inAttempt
  | stopped outcome => cases inAttempt

def Follows (told : List (SourceEvent μ)) : PollPhase α → Prop
  | .reading false => ∃ earlier, told = .opened :: earlier
  | .reading true => ∃ content earlier, told = .message content :: earlier
  | _ => True

end PollPhase

namespace Poller

variable {μ α : Type} {rules : PollRules} {classify : μ → Option α} {now began moment : Nat}
  {cancelled : Bool} {event : Option (SourceEvent μ)} {poller : Poller α} {step : PollStep μ α}
  {told : List (SourceEvent μ)}

structure Counting (rules : PollRules) (began now : Nat) (told : List (SourceEvent μ))
    (poller : Poller α) : Prop where
  failures : poller.failures.toNat = failedInARow told % 2 ^ 32
  verdict : poller.outcome? = some .exhausted ↔ rules.maxRetries < poller.failures
  follows : poller.phase.Follows told
  notEarlier : began ≤ now
  /-- There is a rest behind each of the failed attempts. -/
  spaced : poller.phase.NotBefore (rules.earliest began (failedInARow told)) now

theorem counting_start (rules : PollRules) (began : Nat) :
    Counting rules began began ([] : List (SourceEvent μ)) (start : Poller α) where
  failures := rfl
  verdict := iff_of_false nofun UInt32.not_lt_zero
  follows := trivial
  notEarlier := Nat.le_refl _
  spaced := Nat.le_refl began

theorem toNat_succ {failures : UInt32} {count : Nat} (counted : failures.toNat = count % 2 ^ 32) :
    (failures + 1).toNat = (count + 1) % 2 ^ 32 := by
  rw [UInt32.toNat_add, counted, UInt32.toNat_one]
  omega

theorem counting_afterAttempt {failures : UInt32}
    (counted : failures.toNat = failedInARow told % 2 ^ 32) (notEarlier : began ≤ now)
    (spaced : rules.earliest began (failedInARow told) ≤ rules.wake now) :
    Counting rules began now told (afterAttempt rules now failures : Poller α) := by
  unfold afterAttempt
  split
  case isTrue tooMany => exact ⟨counted, iff_of_true rfl tooMany, trivial, notEarlier, trivial⟩
  case isFalse enough =>
      exact ⟨counted, iff_of_false nofun enough, trivial, notEarlier, spaced⟩

theorem taken_endAttempt (rules : PollRules) (now : Nat) (failures : UInt32)
    (acts : List (PollAct μ)) (event : SourceEvent μ) :
    (endAttempt rules now failures acts : PollStep μ α).taken (some event) = [event] :=
  if_pos (endAttempt_took rules now failures acts)

theorem Counting.over {heard : Bool} {event : SourceEvent μ}
    (counting : Counting rules began now told poller) (phase : poller.phase = .reading heard)
    (isEnd : event = .ended ∨ ∃ reason, event = .failed reason) :
    Counting rules began now (event :: told)
      (afterAttempt rules now (poller.failuresAfter heard) : Poller α) := by
  have follows := counting.follows
  have spaced := counting.spaced
  rw [phase] at follows spaced
  cases heard with
  | false =>
      obtain ⟨earlier, rfl⟩ := follows
      have one : failedInARow (event :: .opened :: earlier) = failedInARow earlier + 1 := by
        rcases isEnd with rfl | ⟨reason, rfl⟩ <;> rfl
      apply counting_afterAttempt _ counting.notEarlier
      · rw [one]
        exact rules.soonest_le_wake spaced
      · rw [one]
        exact toNat_succ counting.failures
  | true =>
      obtain ⟨content, earlier, rfl⟩ := follows
      have none : failedInARow (event :: .message content :: earlier) = 0 := by
        rcases isEnd with rfl | ⟨reason, rfl⟩ <;> rfl
      apply counting_afterAttempt _ counting.notEarlier
      · rw [none]
        exact Nat.le_trans counting.notEarlier (rules.le_wake now)
      · rw [none]
        exact counting.failures

theorem Counting.moved {phase : PollPhase α} {later : List (SourceEvent μ)}
    (counting : Counting rules began now told poller) (running : poller.outcome? = none)
    (same : failedInARow later = failedInARow told) (unexhausted : phase ≠ .stopped .exhausted)
    (follows : phase.Follows later)
    (spaced : phase.NotBefore (rules.earliest began (failedInARow told)) now) :
    Counting rules began now later { poller with phase := phase } where
  failures := by
    rw [same]
    exact counting.failures
  verdict := by
    rw [← counting.verdict, outcome?_eq_some_iff, running]
    exact iff_of_false unexhausted nofun
  follows := follows
  notEarlier := counting.notEarlier
  spaced := by
    rw [same]
    exact spaced

theorem counting_heard {phase : PollPhase α} (content : μ) (notEarlier : began ≤ now)
    (unexhausted : phase ≠ .stopped .exhausted) (follows : phase.Follows (.message content :: told))
    (spaced : phase.NotBefore began now) :
    Counting rules began now (.message content :: told) (⟨phase, 0⟩ : Poller α) where
  failures := rfl
  verdict := by
    rw [outcome?_eq_some_iff]
    exact iff_of_false unexhausted UInt32.not_lt_zero
  follows := follows
  notEarlier := notEarlier
  spaced := spaced

theorem Goes.counting (goes : poller.Goes rules classify now event step)
    (running : poller.outcome? = none) (counting : Counting rules began now told poller) :
    Counting rules began now (step.taken event ++ told) step.poller := by
  have spaced := counting.spaced
  cases goes with
  | begins phase =>
      rw [phase] at spaced
      exact counting.moved running rfl nofun trivial spaced
  | wakes wake phase due =>
      rw [phase] at spaced
      exact counting.moved running rfl nofun trivial (Nat.le_trans spaced due)
  | opened phase came =>
      rw [phase] at spaced
      subst came
      exact counting.moved running (failedInARow_opened told) nofun ⟨told, rfl⟩ spaced
  | refused reason phase came =>
      rw [phase] at spaced
      subst came
      rw [taken_endAttempt, endAttempt_poller]
      apply counting_afterAttempt (toNat_succ counting.failures) counting.notEarlier
      rw [List.singleton_append, failedInARow_refused]
      exact rules.soonest_le_wake spaced
  | hears heard content phase came unfinal =>
      subst came
      exact counting_heard content counting.notEarlier nofun ⟨content, told, rfl⟩ counting.notEarlier
  | concludes heard content value phase came final =>
      subst came
      exact counting_heard content counting.notEarlier nofun trivial trivial
  | failed heard reason phase came =>
      subst came
      rw [taken_endAttempt, endAttempt_poller]
      exact counting.over phase (.inr ⟨reason, rfl⟩)
  | ended heard phase came =>
      subst came
      rw [taken_endAttempt, endAttempt_poller]
      exact counting.over phase (.inl rfl)

theorem counting_of_step?
    (stepped : poller.step? rules classify now cancelled event = some step)
    (counting : Counting rules began now told poller) :
    Counting rules began now (step.taken event ++ told) step.poller := by
  obtain ⟨running, ⟨-, rfl⟩ | ⟨-, -, rfl⟩ | ⟨-, -, goes⟩⟩ := step?_cases stepped
  · exact counting.moved running rfl nofun trivial trivial
  · exact counting.moved running rfl nofun trivial trivial
  · exact goes.counting running counting

theorem Counting.later (counting : Counting rules began now told poller) (notEarlier : now ≤ moment) :
    Counting rules began moment told poller where
  failures := counting.failures
  verdict := counting.verdict
  follows := counting.follows
  notEarlier := Nat.le_trans counting.notEarlier notEarlier
  spaced := counting.spaced.mono notEarlier

theorem Goes.takes_or_keeps (goes : poller.Goes rules classify now event step) :
    step.took = true ∧ poller.phase.InAttempt ∨
      step.took = false ∧ step.poller.failures = poller.failures := by
  cases goes with
  | begins phase => exact .inr ⟨rfl, rfl⟩
  | wakes wake phase due => exact .inr ⟨rfl, rfl⟩
  | opened phase came => exact .inl ⟨rfl, phase ▸ trivial⟩
  | refused reason phase came => exact .inl ⟨endAttempt_took _ _ _ _, phase ▸ trivial⟩
  | hears heard content phase came unfinal => exact .inl ⟨rfl, phase ▸ trivial⟩
  | concludes heard content value phase came final => exact .inl ⟨rfl, phase ▸ trivial⟩
  | failed heard reason phase came => exact .inl ⟨endAttempt_took _ _ _ _, phase ▸ trivial⟩
  | ended heard phase came => exact .inl ⟨endAttempt_took _ _ _ _, phase ▸ trivial⟩

theorem step?_takes_or_keeps
    (stepped : poller.step? rules classify now cancelled event = some step) :
    step.took = true ∧ now < rules.deadline ∧ poller.phase.InAttempt ∨
      step.took = false ∧ step.poller.failures = poller.failures := by
  obtain ⟨-, ⟨-, rfl⟩ | ⟨-, -, rfl⟩ | ⟨-, early, goes⟩⟩ := step?_cases stepped
  · exact .inr ⟨rfl, rfl⟩
  · exact .inr ⟨rfl, rfl⟩
  · exact goes.takes_or_keeps.imp_left fun ⟨took, inAttempt⟩ => ⟨took, early, inAttempt⟩

/-- A poller gives up before its counter is at its greatest value, or it has to stop before. -/
theorem Counting.lt_greatest (counting : Counting rules began now told poller)
    (limited : rules.Limited began) (counted : poller.failures.toNat = failedInARow told)
    (running : poller.outcome? = none) (early : now < rules.deadline)
    (inAttempt : poller.phase.InAttempt) : failedInARow told < 2 ^ 32 - 1 := by
  rcases limited with impatient | near
  · have enough : ¬ rules.maxRetries < poller.failures := by
      rw [← counting.verdict, running]
      nofun
    rw [UInt32.lt_iff_toNat_lt, counted] at enough
    omega
  · have spaced := counting.spaced.of_inAttempt inAttempt
    have sooner := Nat.lt_of_lt_of_le (Nat.lt_of_le_of_lt spaced early) near
    exact PollRules.lt_of_earliest_lt sooner

end Poller

namespace Polling

variable {μ α : Type} {rules : PollRules} {classify : μ → Option α} {source : TimedSource μ}
  {began : Nat} {told : List (SourceEvent μ)} {state next : Polling μ α}

/-- The states of a poller that was started at a moment, with what its source has told it, the latest
first. -/
inductive Told (rules : PollRules) (classify : μ → Option α) (source : TimedSource μ) (began : Nat) :
    List (SourceEvent μ) → Polling μ α → Prop where
  | start : Told rules classify source began [] (start began)
  | turn {told : List (SourceEvent μ)} {state : Polling μ α} {step : PollStep μ α} :
      Told rules classify source began told state →
      state.poller.step? rules classify state.now state.cancelledAt.isSome
        (state.feed.due? state.now) = some step →
      Told rules classify source began (step.taken (state.feed.due? state.now) ++ told)
        (state.after source step)
  | cancel {told : List (SourceEvent μ)} {state : Polling μ α} :
      Told rules classify source began told state →
      state.poller.outcome? = none → state.cancelledAt = none →
      Told rules classify source began told { state with cancelledAt := some state.now }
  | pass {told : List (SourceEvent μ)} {state : Polling μ α} {moment : Nat} :
      Told rules classify source began told state →
      state.poller.outcome? = none → state.now < moment →
      (∀ between, state.now ≤ between → between < moment →
        state.poller.step? rules classify between state.cancelledAt.isSome
          (state.feed.due? between) = none) →
      Told rules classify source began told { state with now := moment }

/-- Something has been told in every state that is reached. -/
theorem exists_told_iff : (∃ told, Told rules classify source began told state) ↔
    Reaches rules classify source (start began) state := by
  constructor
  · rintro ⟨told, run⟩
    induction run with
    | start => exact .refl
    | turn run stepped inductionHypothesis => exact inductionHypothesis.tail (.turn _ stepped)
    | cancel run running pending inductionHypothesis =>
        exact inductionHypothesis.tail (.cancel running pending)
    | pass run running later idle inductionHypothesis =>
        exact inductionHypothesis.tail (.pass _ running later idle)
  · intro reached
    induction reached with
    | refl => exact ⟨_, .start⟩
    | tail reached next inductionHypothesis =>
        obtain ⟨told, run⟩ := inductionHypothesis
        cases next with
        | turn step stepped => exact ⟨_, .turn run stepped⟩
        | cancel running pending => exact ⟨_, .cancel run running pending⟩
        | pass moment running later idle => exact ⟨_, .pass run running later idle⟩

theorem Told.counting (run : Told rules classify source began told state) :
    state.poller.Counting rules began state.now told := by
  induction run with
  | start => exact Poller.counting_start rules began
  | turn run stepped inductionHypothesis =>
      exact Poller.counting_of_step? stepped inductionHypothesis
  | cancel run running pending inductionHypothesis => exact inductionHypothesis
  | pass run running later idle inductionHypothesis =>
      exact inductionHypothesis.later (Nat.le_of_lt later)

theorem Told.failedInARow_lt (run : Told rules classify source began told state)
    (limited : rules.Limited began) : failedInARow told < 2 ^ 32 := by
  induction run with
  | start => exact Nat.two_pow_pos 32
  | @turn told state step run stepped inductionHypothesis =>
      obtain ⟨running, -⟩ := Poller.step?_cases stepped
      rcases Poller.step?_takes_or_keeps stepped with ⟨-, early, inAttempt⟩ | ⟨untaken, -⟩
      · have counting := run.counting
        have counted := counting.failures.trans (Nat.mod_eq_of_lt inductionHypothesis)
        have small := counting.lt_greatest limited counted running early inAttempt
        have more := step.failedInARow_taken_le (state.feed.due? state.now) told
        omega
      · rw [PollStep.taken, untaken]
        exact inductionHypothesis
  | cancel run running pending inductionHypothesis => exact inductionHypothesis
  | pass run running later idle inductionHypothesis => exact inductionHypothesis

/-- The counter of a poller tells how many attempts in a row have failed. -/
structure CountsTruly (rules : PollRules) (classify : μ → Option α) (told : List (SourceEvent μ))
    (state : Polling μ α) : Prop where
  counted : state.poller.failures.toNat = failedInARow told
  /-- It is by the true number that the poller gives up. -/
  verdict : state.poller.outcome? = some .exhausted ↔ rules.maxRetries.toNat < failedInARow told
  /-- Nothing is added to the greatest value. -/
  room : ∀ step : PollStep μ α,
    state.poller.step? rules classify state.now state.cancelledAt.isSome
      (state.feed.due? state.now) = some step →
    step.poller.failures = state.poller.failures + 1 → state.poller.failures.toNat < 2 ^ 32 - 1

theorem Told.countsTruly (run : Told rules classify source began told state)
    (limited : rules.Limited began) : CountsTruly rules classify told state := by
  have counting := run.counting
  have counted := counting.failures.trans (Nat.mod_eq_of_lt (run.failedInARow_lt limited))
  constructor
  case counted => exact counted
  case verdict => rw [counting.verdict, UInt32.lt_iff_toNat_lt, counted]
  case room =>
      intro step stepped more
      obtain ⟨running, -⟩ := Poller.step?_cases stepped
      rcases Poller.step?_takes_or_keeps stepped with ⟨-, early, inAttempt⟩ | ⟨-, same⟩
      · rw [counted]
        exact counting.lt_greatest limited counted running early inAttempt
      · rw [more, UInt32.add_eq_left] at same
        exact absurd same (by decide)

/-! ### A source that is never there -/

def unavailable : TimedSource μ :=
  fun _ moment => Attempt.unavailable.feed moment

variable {feed rest : Feed μ} {opened : List Nat} {read : List μ} {now wake : Nat} {failures : UInt32}

theorem Told.begins (early : now < rules.deadline)
    (run : Told rules classify source began told
      ⟨⟨.beginning, failures⟩, feed, opened, read, none, now⟩) :
    Told rules classify source began told
      ⟨⟨.opening, failures⟩, source opened.length now, now :: opened, read, none, now⟩ := by
  have stepped (event : Option (SourceEvent μ)) :
      (⟨.beginning, failures⟩ : Poller α).step? rules classify now false event =
        some ⟨⟨.opening, failures⟩, false, [.opens]⟩ := by
    simp [Poller.step?, Poller.outcome?, Nat.not_le_of_lt early]
  have next := run.turn (stepped _)
  simpa [PollStep.taken, after, openings, PollStep.opens, PollStep.messages, PollAct.isOpens,
    PollAct.message?] using next

theorem Told.waits {phase : PollPhase α} {moment : Nat} (notLater : now ≤ moment)
    (waits : waitsUntil rules
      (⟨⟨phase, failures⟩, feed, opened, read, none, now⟩ : Polling μ α) moment = true)
    (run : Told rules classify source began told
      ⟨⟨phase, failures⟩, feed, opened, read, none, now⟩) :
    Told rules classify source began told
      ⟨⟨phase, failures⟩, feed, opened, read, none, moment⟩ := by
  rcases Nat.eq_or_lt_of_le notLater with rfl | later
  · exact run
  · exact run.pass (running_of_waitsUntil waits) later fun between _ before =>
      idle_of_waitsUntil waits before

theorem waitsUntil_head (early : now < rules.deadline) (event : SourceEvent μ) (began : Nat) :
    waitsUntil rules
      (⟨⟨.opening, failures⟩, (now, event) :: rest, opened, read, none, began⟩ : Polling μ α) now =
        true := by
  simp [waitsUntil, Nat.le_of_lt early]

theorem Told.rests (early : wake < rules.deadline) (notLater : now ≤ wake)
    (run : Told rules classify source began told
      ⟨⟨.resting wake, failures⟩, feed, opened, read, none, now⟩) :
    Told rules classify source began told
      ⟨⟨.beginning, failures⟩, feed, opened, read, none, wake⟩ := by
  have waited := run.waits notLater (by simp [waitsUntil, Nat.le_of_lt early])
  have stepped (event : Option (SourceEvent μ)) :
      (⟨.resting wake, failures⟩ : Poller α).step? rules classify wake false event =
        some ⟨⟨.beginning, failures⟩, false, []⟩ := by
    simp [Poller.step?, Poller.outcome?, Nat.not_le_of_lt early]
  have next := waited.turn (stepped _)
  simpa [PollStep.taken, after, PollStep.opens, PollStep.messages] using next

theorem Told.isRefused {reason : String} (early : now < rules.deadline)
    (run : Told rules classify source began told
      ⟨⟨.opening, failures⟩, (now, .refused reason) :: rest, opened, read, none, now⟩) :
    Told rules classify source began (.refused reason :: told)
      ⟨.afterAttempt rules now (failures + 1), rest, opened, read, none, now⟩ := by
  have due : Feed.due? ((now, .refused reason) :: rest) now = some (.refused reason) :=
    if_pos (Nat.le_refl now)
  have stepped : (⟨.opening, failures⟩ : Poller α).step? rules classify now false
      (Feed.due? ((now, .refused reason) :: rest) now) =
        some (Poller.endAttempt rules now (failures + 1)
          ([Poller.openNotice reason (failures + 1)].map .tells)) := by
    simp [due, Poller.step?, Poller.outcome?, Poller.take?, Nat.not_le_of_lt early]
  have next := run.turn stepped
  rw [after_endAttempt rfl, due, Poller.taken_endAttempt] at next
  exact next

/-- A poller that never gives up is refused as often as its deadline allows. -/
theorem told_refused (source : TimedSource μ) (classify : μ → Option α)
    (tireless : rules.maxRetries.toNat = 2 ^ 32 - 1) (reason : String) (begins ends : Nat → Nat)
    (first : begins 0 = began)
    (refuses : ∀ number, source number (begins number) = [(ends number, .refused reason)])
    (notEarlier : ∀ number, begins number ≤ ends number) (count : Nat)
    (rests : ∀ number < count, rules.wake (ends number) = begins (number + 1))
    (early : begins count < rules.deadline) :
    ∃ opened,
      Told rules classify source began (List.replicate count (.refused reason))
        ⟨⟨.opening, .ofNat count⟩, [(ends count, .refused reason)], opened, [], none,
          begins count⟩ ∧
      opened.length = count + 1 := by
  induction count with
  | zero =>
      have begun : Told rules classify source (begins 0) [] _ := Told.begins early .start
      rw [List.length_nil, refuses] at begun
      subst first
      exact ⟨_, begun, rfl⟩
  | succ count inductionHypothesis =>
      have rested := rests count (Nat.lt_succ_self count)
      have ended : ends count < rules.deadline := by
        have woken := rules.le_wake (ends count)
        omega
      obtain ⟨opened, run, openings⟩ := inductionHypothesis
        (fun number before => rests number (Nat.lt_succ_of_lt before))
        (Nat.lt_of_le_of_lt (notEarlier count) ended)
      have patient : ¬ rules.maxRetries < UInt32.ofNat count + 1 := by
        rw [UInt32.lt_iff_toNat_lt, tireless]
        have bounded := (UInt32.ofNat count + 1).toNat_lt
        omega
      have waited := run.waits (notEarlier count) (waitsUntil_head ended _ _)
      have refused := waited.isRefused ended
      rw [Poller.afterAttempt, if_neg patient, ← UInt32.ofNat_one, ← UInt32.ofNat_add, rested]
        at refused
      have notLater : ends count ≤ begins (count + 1) := rested ▸ rules.le_wake (ends count)
      have next := Told.begins early (refused.rests early notLater)
      rw [openings, refuses] at next
      exact ⟨_, next, congrArg Nat.succ openings⟩

/-- A source that refuses each attempt when the rest behind it is over as soon as possible, or at once if
the deadline comes before. -/
def spiteful (rules : PollRules) : TimedSource μ :=
  fun _ moment =>
    [(if rules.bestEnd moment < rules.deadline then rules.bestEnd moment else moment,
      .refused "unavailable")]

theorem told_spiteful (classify : μ → Option α) (tireless : rules.maxRetries.toNat = 2 ^ 32 - 1)
    {count : Nat} (early : rules.earliest began count < rules.deadline) :
    ∃ state, Told rules classify (spiteful rules) began
      (List.replicate (count + 1) (.refused "unavailable")) state := by
  let ends (number : Nat) : Nat :=
    let begins := rules.earliest began number
    if rules.bestEnd begins < rules.deadline then rules.bestEnd begins else begins
  have notEarlier (number : Nat) : rules.earliest began number ≤ ends number := by
    dsimp only [ends]
    split
    · exact rules.le_bestEnd _
    · exact Nat.le_refl _
  have rests (number : Nat) (before : number < count) :
      rules.wake (ends number) = rules.earliest began (number + 1) := by
    have best : rules.bestEnd (rules.earliest began number) < rules.deadline := by
      refine Nat.lt_of_le_of_lt (rules.bestEnd_le_earliest_succ began number) ?_
      exact Nat.lt_of_le_of_lt (rules.earliest_mono began before) early
    dsimp only [ends]
    rw [if_pos best]
    rfl
  have ended : ends count < rules.deadline := by
    dsimp only [ends]
    split
    case isTrue best => exact best
    case isFalse => exact early
  obtain ⟨opened, run, -⟩ := told_refused (spiteful rules) classify tireless "unavailable"
    (rules.earliest began) ends rfl (fun _ => rfl) notEarlier count rests early
  have waited := run.waits (notEarlier count) (waitsUntil_head ended _ _)
  exact ⟨_, waited.isRefused ended⟩

/-- Whatever a source does, the counter of failed attempts tells their true number and nothing is added to
its greatest value, unless the rules never let a poller give up and leave it the time for all attempts that
can be counted and one more. -/
theorem counts_truly_iff (rules : PollRules) (classify : μ → Option α) (began : Nat) :
    (∀ (source : TimedSource μ) state, Reaches rules classify source (start began) state ↔
        ∃ told, Told rules classify source began told state) ∧
      ((∀ (source : TimedSource μ) told state, Told rules classify source began told state →
          CountsTruly rules classify told state) ↔
        rules.maxRetries.toNat < 2 ^ 32 - 1 ∨
          rules.deadline ≤ rules.earliest began (2 ^ 32 - 1)) ∧
      (rules.retryInterval.nanos ≤ Timer.farFuture →
        rules.deadline * 1000000 ≤ rules.lastMoment →
        (rules.deadline ≤ rules.earliest began (2 ^ 32 - 1) ↔
          rules.deadline ≤ began + (2 ^ 32 - 1) * rules.retryInterval.milliseconds)) := by
  refine ⟨fun source state => exists_told_iff.symm, ⟨?_, ?_⟩, PollRules.le_earliest_iff⟩
  · intro always
    apply Decidable.byContradiction
    intro unbounded
    rw [not_or, Nat.not_lt, Nat.not_le] at unbounded
    obtain ⟨tireless, early⟩ := unbounded
    -- The number has a name, so that nothing goes through all attempts.
    obtain ⟨greatest, last⟩ : ∃ greatest, greatest = 2 ^ 32 - 1 := ⟨_, rfl⟩
    rw [← last] at early
    have greatestRetries := rules.maxRetries.toNat_lt
    obtain ⟨state, run⟩ := told_spiteful classify (by omega) early
    have counted := (always _ _ _ run).counted
    rw [failedInARow_replicate, last] at counted
    exact absurd counted (Nat.ne_of_lt (UInt32.toNat_lt _))
  · intro limited source told state run
    exact run.countsTruly limited

/-- A rest of one millisecond, and no end before the deadline. -/
def tirelessRules : PollRules where
  retryInterval := ⟨1000000, by decide⟩
  maxRetries := 4294967295
  deadline := 4294967297

/-- The count starts anew with the attempt after which a poller should give up. -/
theorem failures_start_anew :
    ∃ told state next,
      Told tirelessRules (fun message : Nat => some message) unavailable 0 told state ∧
      state.poller.failures.toNat = 2 ^ 32 - 1 ∧
      Told tirelessRules (fun message : Nat => some message) unavailable 0
        (.refused "unavailable" :: told) next ∧
      failedInARow (.refused "unavailable" :: told) = 2 ^ 32 ∧
      next.poller.failures = 0 ∧ next.poller.outcome? = none ∧
      ¬ CountsTruly tirelessRules (fun message : Nat => some message)
        (.refused "unavailable" :: told) next := by
  obtain ⟨greatest, last⟩ : ∃ greatest, greatest = 2 ^ 32 - 1 := ⟨_, rfl⟩
  have early : greatest < tirelessRules.deadline := by
    rw [last]
    decide
  have rests (number : Nat) (before : number < greatest) :
      tirelessRules.wake number = number + 1 := by
    apply PollRules.wake_of_le
    show number * 1000000 + 1000000 ≤ Timer.lastMoment
    rw [Timer.lastMoment, nanosPerSecond, Nat.pow_eq]
    omega
  obtain ⟨opened, run, -⟩ := told_refused unavailable (fun message : Nat => some message) rfl
    "unavailable" id id rfl (fun _ => rfl) (fun _ => Nat.le_refl _) greatest rests early
  have refused := run.isRefused early
  have failures : UInt32.ofNat greatest + 1 = 0 := by
    rw [last]
    rfl
  rw [failures] at refused
  have count : failedInARow (.refused "unavailable" :: List.replicate greatest
      (.refused "unavailable" : SourceEvent Nat)) = 2 ^ 32 := by
    rw [failedInARow_refused, failedInARow_replicate]
    omega
  refine ⟨_, _, _, run, ?_, refused, count, rfl, rfl, ?_⟩
  · rw [last]
    rfl
  · intro truly
    have counted := truly.counted
    rw [count] at counted
    cases counted

end Polling

end BackupClient
