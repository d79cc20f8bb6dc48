import BackupClient.Proofs.Auth.PollCourse

/-!
Scripts of attempts.

A source plays one attempt after the other.  What can be heard in each of them is known beforehand, and so
is the first attempt that completes too many silent ones in a row.
-/

namespace BackupClient

namespace Attempt

variable {μ : Type}

def heardIn : List (TimedMessage μ) → List μ
  | [] => []
  | message :: rest =>
      match message.content with
      | .ok content => content :: heardIn rest
      | .error _ => []

def heard (attempt : Attempt μ) : List μ :=
  match attempt.refusal with
  | some _ => []
  | none => heardIn attempt.messages

theorem head_of_feed {attempt : Attempt μ} {start moment : Nat} {told : SourceEvent μ}
    {rest : Feed μ} (came : attempt.feed start = (moment, told) :: rest) :
    told = .opened ∨ ∃ reason, told = .refused reason := by
  unfold feed at came
  cases refusal : attempt.refusal with
  | none =>
      simp only [refusal, List.cons.injEq, Prod.mk.injEq] at came
      exact .inl came.1.2.symm
  | some reason =>
      simp only [refusal, List.cons.injEq, Prod.mk.injEq] at came
      exact .inr ⟨reason, came.1.2.symm⟩

theorem head_of_follow {messages : List (TimedMessage μ)} {hangs : Bool} {start moment : Nat}
    {told : SourceEvent μ} {rest : Feed μ}
    (came : follow hangs start messages = (moment, told) :: rest) :
    (∃ content, told = .message content) ∨ (∃ reason, told = .failed reason) ∨ told = .ended := by
  cases messages with
  | nil =>
      cases hangs with
      | true => cases came
      | false =>
          simp only [follow, Bool.false_eq_true, if_false, List.cons.injEq, Prod.mk.injEq] at came
          exact .inr (.inr came.1.2.symm)
  | cons first later =>
      simp only [follow] at came
      cases told : first.content with
      | ok content =>
          simp only [told, List.cons.injEq, Prod.mk.injEq] at came
          exact .inl ⟨content, came.1.2.symm⟩
      | error reason =>
          simp only [told, List.cons.injEq, Prod.mk.injEq] at came
          exact .inr (.inl ⟨reason, came.1.2.symm⟩)

theorem heard_of_refused {attempt : Attempt μ} {start moment : Nat} {reason : String}
    {rest : Feed μ} (came : attempt.feed start = (moment, .refused reason) :: rest) :
    attempt.heard = [] ∧ rest = [] := by
  unfold feed at came
  unfold heard
  cases refusal : attempt.refusal with
  | some reason =>
      simp only [refusal, List.cons.injEq] at came
      exact ⟨rfl, came.2.symm⟩
  | none => simp [refusal] at came

theorem follow_of_opened {attempt : Attempt μ} {start moment : Nat} {rest : Feed μ}
    (came : attempt.feed start = (moment, .opened) :: rest) :
    attempt.heard = heardIn attempt.messages ∧
      rest = follow attempt.hangs moment attempt.messages := by
  unfold feed at came
  unfold heard
  cases refusal : attempt.refusal with
  | some reason => simp [refusal] at came
  | none =>
      simp only [refusal, List.cons.injEq, Prod.mk.injEq] at came
      obtain ⟨⟨rfl, -⟩, rfl⟩ := came
      exact ⟨rfl, rfl⟩

theorem heardIn_of_message {messages : List (TimedMessage μ)} {hangs : Bool} {start moment : Nat}
    {content : μ} {rest : Feed μ}
    (came : follow hangs start messages = (moment, .message content) :: rest) :
    ∃ later, heardIn messages = content :: heardIn later ∧ rest = follow hangs moment later := by
  cases messages with
  | nil => cases hangs <;> simp [follow] at came
  | cons first later =>
      simp only [follow] at came
      cases told : first.content with
      | error reason => simp [told] at came
      | ok first =>
          simp only [told, List.cons.injEq, Prod.mk.injEq, SourceEvent.message.injEq] at came
          obtain ⟨⟨rfl, rfl⟩, rfl⟩ := came
          exact ⟨later, by simp [heardIn, told], rfl⟩

theorem heardIn_of_over {messages : List (TimedMessage μ)} {hangs : Bool} {start moment : Nat}
    {told : SourceEvent μ} {rest : Feed μ}
    (came : follow hangs start messages = (moment, told) :: rest)
    (isEnd : told = .ended ∨ ∃ reason, told = .failed reason) :
    heardIn messages = [] ∧ rest = [] := by
  cases messages with
  | nil =>
      cases hangs with
      | true => cases came
      | false =>
          simp only [follow, Bool.false_eq_true, if_false, List.cons.injEq] at came
          exact ⟨rfl, came.2.symm⟩
  | cons first later =>
      simp only [follow] at came
      cases content : first.content with
      | error reason =>
          simp only [content, List.cons.injEq] at came
          exact ⟨by simp [heardIn, content], came.2.symm⟩
      | ok first =>
          simp only [content, List.cons.injEq, Prod.mk.injEq] at came
          obtain ⟨⟨-, rfl⟩, -⟩ := came
          rcases isEnd with same | ⟨reason, same⟩ <;> cases same

end Attempt

/-! ### Scripts -/

/-- The attempts that a source plays. -/
abbrev PollScript (μ : Type) := Nat → Attempt μ

namespace PollScript

variable {μ α : Type} {script : PollScript μ} {rules : PollRules}

def source (script : PollScript μ) : TimedSource μ :=
  fun number moment => (script number).feed moment

def heard (script : PollScript μ) (count : Nat) : List μ :=
  (List.range count).flatMap fun number => (script number).heard

/-- An attempt completes as many silent attempts in a row as make a poller give up. -/
def GivesUp (rules : PollRules) (script : PollScript μ) (number : Nat) : Prop :=
  rules.maxRetries.toNat ≤ number ∧
    ∀ attempt ≤ number, number - rules.maxRetries.toNat ≤ attempt → (script attempt).heard = []

/-- The number of attempts in a row before another that were silent. -/
def silence (script : PollScript μ) : Nat → Nat
  | 0 => 0
  | number + 1 => if (script number).heard.isEmpty then silence script number + 1 else 0

theorem heard_succ (script : PollScript μ) (count : Nat) :
    script.heard (count + 1) = script.heard count ++ (script count).heard := by
  simp [heard, List.range_succ]

theorem heard_prefix {fewer count : Nat} (notMore : fewer ≤ count) :
    script.heard fewer <+: script.heard count := by
  induction notMore with
  | refl => exact List.prefix_refl _
  | step notMore inductionHypothesis =>
      rw [heard_succ]
      exact inductionHypothesis.trans (List.prefix_append _ _)

theorem silence_succ_of_heard {number : Nat} (silent : (script number).heard = []) :
    script.silence (number + 1) = script.silence number + 1 := by
  simp [silence, silent]

theorem silence_succ_of_unheard {number : Nat} (unsilent : (script number).heard ≠ []) :
    script.silence (number + 1) = 0 := by
  simp [silence, unsilent]

theorem le_silence_iff (script : PollScript μ) (count number : Nat) :
    count ≤ script.silence number ↔
      count ≤ number ∧ ∀ attempt < number, number - count ≤ attempt → (script attempt).heard = [] := by
  -- The induction goes from one attempt to the next, which adds to the silence or breaks it.
  induction number generalizing count with
  | zero =>
      constructor
      · intro none
        exact ⟨none, fun attempt before => absurd before (Nat.not_lt_zero _)⟩
      · exact And.left
  | succ number inductionHypothesis =>
      by_cases silent : (script number).heard = []
      · rw [silence_succ_of_heard silent]
        cases count with
        | zero =>
            constructor
            · intro _
              exact ⟨Nat.zero_le _, fun attempt before after => by omega⟩
            · intro _
              exact Nat.zero_le _
        | succ count =>
            rw [Nat.add_le_add_iff_right, Nat.add_le_add_iff_right, Nat.add_sub_add_right,
              inductionHypothesis]
            refine and_congr_right fun _ => ?_
            constructor
            · intro all attempt before after
              rcases Nat.lt_succ_iff_lt_or_eq.mp before with earlier | rfl
              · exact all attempt earlier after
              · exact silent
            · intro all attempt before after
              exact all attempt (Nat.lt_succ_of_lt before) after
      · rw [silence_succ_of_unheard silent]
        constructor
        · intro none
          obtain rfl := Nat.le_zero.mp none
          exact ⟨Nat.zero_le _, fun attempt before after => by omega⟩
        · rintro ⟨-, all⟩
          apply Nat.le_of_not_lt
          intro positive
          exact silent (all number (Nat.lt_succ_self number) (by omega))

theorem givesUp_iff (rules : PollRules) (script : PollScript μ) (number : Nat) :
    GivesUp rules script number ↔ rules.maxRetries.toNat < script.silence (number + 1) := by
  rw [← Nat.succ_le_iff, le_silence_iff]
  unfold GivesUp
  refine and_congr (by omega) (forall_congr' fun attempt => ?_)
  rw [Nat.lt_succ_iff]
  refine imp_congr_right fun _ => ?_
  rw [show number + 1 - (rules.maxRetries.toNat + 1) = number - rules.maxRetries.toNat by omega]

theorem silence_le {number : Nat} (patient : ∀ earlier < number, ¬ GivesUp rules script earlier) :
    script.silence number ≤ rules.maxRetries.toNat := by
  cases number with
  | zero => exact Nat.zero_le _
  | succ last =>
      have still := patient last (Nat.lt_succ_self last)
      rw [givesUp_iff] at still
      exact Nat.le_of_not_lt still

end PollScript

end BackupClient
