import BackupClient.Proofs.Auth.Authentication
import BackupClient.Proofs.Auth.Recreation
import Mathlib.Data.List.Induction

/-!
What the steps of a watch go back to.

As long as no session is begun under the id of a watch that is engaged, the watch changes only the session
that it has read, and it authenticates this session only after it has taken a message that brings tokens.
-/

namespace BackupClient

namespace Monitor

variable {configuration : AuthConfiguration} {events : List MonitorEvent} {number : Nat}
  {id : String}

abbrev history (configuration : AuthConfiguration) (events : List MonitorEvent) : Monitor :=
  (idle configuration).run events

/-- A watch has read a session, and none was begun under its id since. -/
def Read (configuration : AuthConfiguration) (events : List MonitorEvent) (number : Nat)
    (id : String) (observed : AuthSession Instant) : Prop :=
  ∃ early input late,
    events = early ++ .step number input :: late ∧
      (history configuration early).watches[number]? = some ⟨id, .reading⟩ ∧
      (history configuration early).registry.get? input.clock id = some observed ∧
      ∀ now, .begin now id ∉ late

/-- A watch has read a pending session, and none was begun under its id since. -/
def Attends (configuration : AuthConfiguration) (events : List MonitorEvent) (number : Nat)
    (id : String) : Prop :=
  ∃ observed, Read configuration events number id observed ∧ observed.status = .pending

/-- A watch has taken a message that the session which it attends is authenticated, with tokens, and no
session was begun under its id since. -/
def Heard (configuration : AuthConfiguration) (events : List MonitorEvent) (number : Nat)
    (id : String) (tokens : TokenPair) : Prop :=
  ∃ early input late step,
    events = early ++ .step number input :: late ∧
      Attends configuration early number id ∧
      (history configuration early).step? number input = some step ∧ step.took = true ∧
      input.event = some (.message ⟨.authenticated, some tokens⟩) ∧
      ∀ now, .begin now id ∉ late

/-- No session is begun under the id of a watch while the watch is engaged. -/
def Spared (configuration : AuthConfiguration) (events : List MonitorEvent) (number : Nat) : Prop :=
  ∀ early now watch late, events = early ++ .begin now watch.id :: late →
    (history configuration early).watches[number]? = some watch → watch.stage.isEngaged = false

/-- What is behind the stage that a watch has come to. -/
def Backed (configuration : AuthConfiguration) (events : List MonitorEvent) (number : Nat)
    (id : String) : WatchStage → Prop
  | .measuring _ => Attends configuration events number id
  | .polling _ poller =>
      Attends configuration events number id ∧
        ∀ tokens, poller.outcome? = some (.terminal ⟨.authenticated, some tokens⟩) →
          Heard configuration events number id tokens
  | .completing .authenticated (some tokens) => Heard configuration events number id tokens
  | .completing .authenticated none => (history configuration events).registry.Settled id
  | .storing tokens => Heard configuration events number id tokens
  | .announcing .authenticated =>
      ∃ soFar tokens, soFar <+: events ∧ Heard configuration soFar number id tokens
  | _ => True

/-! ### One more event -/

theorem history_append (configuration : AuthConfiguration) (events : List MonitorEvent)
    (event : MonitorEvent) :
    history configuration (events ++ [event]) = (history configuration events).react event :=
  run_append _ _ _

theorem not_mem_append {late : List MonitorEvent} (unbegun : ∀ now, .begin now id ∉ late)
    {event : MonitorEvent} (other : ∀ now, event ≠ .begin now id) :
    ∀ now, .begin now id ∉ late ++ [event] := by
  intro now begun
  rcases List.mem_append.mp begun with earlier | last
  · exact unbegun now earlier
  · exact other now (List.mem_singleton.mp last).symm

theorem Read.append {observed : AuthSession Instant} (read : Read configuration events number id observed)
    {event : MonitorEvent} (other : ∀ now, event ≠ .begin now id) :
    Read configuration (events ++ [event]) number id observed := by
  obtain ⟨early, input, late, rfl, found, stands, unbegun⟩ := read
  exact ⟨early, input, late ++ [event], by simp, found, stands, not_mem_append unbegun other⟩

theorem Attends.append (attends : Attends configuration events number id) {event : MonitorEvent}
    (other : ∀ now, event ≠ .begin now id) :
    Attends configuration (events ++ [event]) number id := by
  obtain ⟨observed, read, pending⟩ := attends
  exact ⟨observed, read.append other, pending⟩

theorem Heard.append {tokens : TokenPair} (heard : Heard configuration events number id tokens)
    {event : MonitorEvent} (other : ∀ now, event ≠ .begin now id) :
    Heard configuration (events ++ [event]) number id tokens := by
  obtain ⟨early, input, late, step, rfl, attends, stepped, took, told, unbegun⟩ := heard
  exact ⟨early, input, late ++ [event], step, by simp, attends, stepped, took, told,
    not_mem_append unbegun other⟩

theorem Spared.of_append {event : MonitorEvent}
    (spared : Spared configuration (events ++ [event]) number) :
    Spared configuration events number := by
  rintro early now watch late rfl found
  exact spared early now watch (late ++ [event]) (by simp) found

theorem history_unique (configuration : AuthConfiguration) (events : List MonitorEvent) :
    (history configuration events).registry.Unique :=
  run_unique events List.nodup_nil

theorem Backed.append {stage : WatchStage} (backed : Backed configuration events number id stage)
    {event : MonitorEvent}
    (spared : ∀ now, event = .begin now id → stage.isEngaged = false) :
    Backed configuration (events ++ [event]) number id stage := by
  have other (engaged : stage.isEngaged = true) (now : Instant) : event ≠ .begin now id :=
    fun begun => by simp [spared now begun] at engaged
  cases stage with
  | measuring session => exact Attends.append backed (other rfl)
  | polling rules poller =>
      exact ⟨backed.1.append (other rfl), fun tokens stopped =>
        (backed.2 tokens stopped).append (other rfl)⟩
  | completing status tokens =>
      cases status with
      | authenticated =>
          cases tokens with
          | some tokens => exact Heard.append backed (other rfl)
          | none =>
              show (history configuration (events ++ [event])).registry.Settled id
              rw [history_append]
              exact react_settled (history_unique configuration events) backed (other rfl)
      | pending => trivial
      | expired => trivial
      | cancelled => trivial
  | storing tokens => exact Heard.append backed (other rfl)
  | announcing status =>
      cases status with
      | authenticated =>
          obtain ⟨soFar, tokens, early, heard⟩ := backed
          exact ⟨soFar, tokens, early.trans (List.prefix_append _ _), heard⟩
      | pending => trivial
      | expired => trivial
      | cancelled => trivial
  | reading => trivial
  | recalling => trivial
  | withdrawing => trivial
  | returned status => trivial

theorem backed_of_read {input : WatchInput}
    (found : (history configuration events).watches[number]? = some ⟨id, .reading⟩) :
    Backed configuration (events ++ [.step number input]) number id
      (WatchStage.read id input (history configuration events).registry).stage := by
  unfold WatchStage.read
  cases observed : (history configuration events).registry.get? input.clock id with
  | none => trivial
  | some session =>
      dsimp only
      split
      case isTrue pending => exact ⟨session, ⟨events, input, [], rfl, found, observed, by simp⟩, pending⟩
      case isFalse finished =>
          cases status : session.status with
          | authenticated =>
              show (history configuration (events ++ [.step number input])).registry.Settled id
              rw [history_append]
              exact react_settled (history_unique configuration events)
                (Registry.settled_of_get?_authenticated observed status) fun _ => by simp
          | pending => trivial
          | expired => trivial
          | cancelled => trivial

theorem backed_of_polling {input : WatchInput} {rules : PollRules}
    {poller : Poller AuthStatusUpdate} {step : WatchStep}
    (found : (history configuration events).watches[number]? = some ⟨id, .polling rules poller⟩)
    (backed : Backed configuration events number id (.polling rules poller))
    (stepped : (history configuration events).step? number input = some step) :
    Backed configuration (events ++ [.step number input]) number id step.stage := by
  obtain ⟨attends, heard⟩ := backed
  have polled := (step?_of_found found input).symm.trans stepped
  rcases WatchStage.poll?_cases polled with ⟨outcome, stopped, rfl⟩ | ⟨next, moved, rfl⟩
  · obtain ⟨⟨status, tokens⟩, judged⟩ : ∃ verdict, WatchStage.verdict outcome = verdict :=
      ⟨_, rfl⟩
    simp only [judged]
    cases status with
    | authenticated =>
        obtain ⟨pair, rfl, rfl⟩ := WatchStage.verdict_authenticated judged
        exact (heard pair stopped).append fun _ => by simp
    | pending => trivial
    | expired => trivial
    | cancelled => trivial
  · refine ⟨attends.append fun _ => by simp, fun tokens final => ?_⟩
    obtain ⟨took, content, told, classified⟩ := Poller.step?_terminal moved final
    obtain ⟨rfl, -⟩ := WatchStage.classify_eq_some_iff.mp classified
    exact ⟨events, input, [], _, rfl, attends, stepped, took, told, by simp⟩

theorem backed_of_completing {input : WatchInput} {status : SessionStatus}
    {tokens : Option TokenPair}
    (backed : Backed configuration events number id (.completing status tokens)) :
    Backed configuration (events ++ [.step number input]) number id
      (WatchStage.complete id input (history configuration events).registry status tokens).stage := by
  unfold WatchStage.complete
  have completion :=
    (history configuration events).registry.complete_completion input.clock id status tokens
  generalize (history configuration events).registry.complete input.clock id status tokens = result
    at completion ⊢
  cases completion with
  | refused => trivial
  | @recorded session recorded stands terminal pending same =>
      cases authentic : recorded with
      | authenticated =>
          -- Without tokens the watch would have found the session finished, and so not pending.
          obtain rfl := WatchStage.authenticated_of_recorded same authentic
          cases tokens with
          | some pair => exact Heard.append backed fun _ => by simp
          | none => exact absurd pending (backed session stands)
      | pending => cases tokens <;> trivial
      | expired => cases tokens <;> trivial
      | cancelled => cases tokens <;> trivial

theorem backed_of_step? {input : WatchInput} {stage : WatchStage} {step : WatchStep}
    (found : (history configuration events).watches[number]? = some ⟨id, stage⟩)
    (backed : Backed configuration events number id stage)
    (stepped : (history configuration events).step? number input = some step) :
    Backed configuration (events ++ [.step number input]) number id step.stage := by
  have moved := (step?_of_found found input).symm.trans stepped
  cases stage with
  | reading =>
      obtain rfl := Option.some.inj moved
      exact backed_of_read found
  | measuring session =>
      obtain rfl := Option.some.inj moved
      refine ⟨Attends.append backed fun _ => by simp, ?_⟩
      rintro tokens ⟨⟩
  | polling rules poller => exact backed_of_polling found backed stepped
  | completing status tokens =>
      obtain rfl := Option.some.inj moved
      exact backed_of_completing backed
  | recalling =>
      obtain rfl := Option.some.inj moved
      trivial
  | storing tokens =>
      obtain rfl := Option.some.inj moved
      simp only [WatchStage.store]
      split
      · exact ⟨events, tokens, List.prefix_append _ _, backed⟩
      · trivial
  | withdrawing =>
      obtain rfl := Option.some.inj moved
      trivial
  | announcing status =>
      obtain rfl := Option.some.inj moved
      trivial
  | returned status => cases moved

theorem read_of_step? {input : WatchInput} {stage : WatchStage} {step : WatchStep}
    (found : (history configuration events).watches[number]? = some ⟨id, stage⟩)
    (before : stage.isEngaged = true → ∃ observed, Read configuration events number id observed)
    (stepped : (history configuration events).step? number input = some step)
    (engaged : step.stage.isEngaged = true) :
    ∃ observed, Read configuration (events ++ [.step number input]) number id observed := by
  have moved := (step?_of_found found input).symm.trans stepped
  by_cases was : stage.isEngaged = true
  · obtain ⟨observed, read⟩ := before was
    exact ⟨observed, read.append fun _ => by simp⟩
  · by_cases reading : stage = .reading
    · subst reading
      cases observed : (history configuration events).registry.get? input.clock id with
      | none =>
          simp only [WatchStage.step?, WatchStage.read, observed, Option.some.injEq] at moved
          subst moved
          cases engaged
      | some session => exact ⟨session, events, input, [], rfl, found, observed, by simp⟩
    · obtain ⟨quiet, -⟩ := WatchStage.step?_of_not_engaged (by simpa using was) reading moved
      rw [quiet] at engaged
      cases engaged

/-! ### All events -/

/-- What is behind the stages of a watch that is spared, by induction on all that has happened. -/
theorem history_induction (Behind : List MonitorEvent → String → WatchStage → Prop)
    (begins : ∀ events id, Behind events id .reading)
    (steps : ∀ {events id input stage step},
      (history configuration events).watches[number]? = some ⟨id, stage⟩ → Behind events id stage →
        (history configuration events).step? number input = some step →
          Behind (events ++ [.step number input]) id step.stage)
    (stays : ∀ {events id stage event}, Behind events id stage →
      (∀ now, event = .begin now id → stage.isEngaged = false) → Behind (events ++ [event]) id stage)
    (spared : Spared configuration events number) {watch : Watch}
    (found : (history configuration events).watches[number]? = some watch) :
    Behind events watch.id watch.stage := by
  induction events using List.reverseRecOn generalizing watch with
  | nil => simp [history, run, idle] at found
  | append_singleton events event inductionHypothesis =>
      -- The last event is a step of the watch itself, or leaves it where it was, or begins it.
      rw [history_append] at found
      rcases watch_of_react found with ⟨old, was⟩ | reading
      · have behind := inductionHypothesis spared.of_append was
        rcases react_watch was event with ⟨input, step, rfl, moved, -, next⟩ | still
        · obtain rfl := Option.some.inj (found.symm.trans next)
          exact steps was behind ((step?_of_found was input).trans moved)
        · obtain rfl := Option.some.inj (found.symm.trans still)
          refine stays behind ?_
          rintro now rfl
          exact spared events now watch [] rfl was
      · rw [reading]
        exact begins _ _

theorem history_backed {watch : Watch} (spared : Spared configuration events number)
    (found : (history configuration events).watches[number]? = some watch) :
    Backed configuration events number watch.id watch.stage :=
  history_induction (fun events id => Backed configuration events number id)
    (fun _ _ => trivial) backed_of_step? (fun backed => backed.append) spared found

theorem history_read {watch : Watch} (spared : Spared configuration events number)
    (found : (history configuration events).watches[number]? = some watch) :
    watch.stage.isEngaged = true →
      ∃ observed, Read configuration events number watch.id observed := by
  refine history_induction
    (fun events id stage =>
      stage.isEngaged = true → ∃ observed, Read configuration events number id observed)
    (fun _ _ engaged => by cases engaged) read_of_step? ?_ spared found
  intro events id stage event before unbegun engaged
  obtain ⟨observed, read⟩ := before engaged
  exact ⟨observed, read.append fun now begun => by simp [unbegun now begun] at engaged⟩

/-- A watch that is spared changes the record of its id only while the session that it read stands
there. -/
theorem read_of_changed {watch : Watch} {input : WatchInput}
    (spared : Spared configuration events number)
    (found : (history configuration events).watches[number]? = some watch)
    (changed : ((history configuration events).advance number input).registry.find? watch.id ≠
      (history configuration events).registry.find? watch.id) :
    ∃ observed, Read configuration events number watch.id observed := by
  refine history_read spared found ?_
  by_contra quiet
  rw [advance_registry_of_not_engaged found (by simpa using quiet) input] at changed
  exact changed rfl

theorem heard_of_authenticated {event : MonitorEvent}
    (before : ¬ (history configuration events).registry.Authenticated id)
    (after : ((history configuration events).react event).registry.Authenticated id) :
    ∃ number input, event = .step number input ∧
      (Spared configuration events number → ∃ tokens, Heard configuration events number id tokens) := by
  cases event with
  | watch _ => exact absurd after before
  | sweep now =>
      obtain ⟨session, found, authentic⟩ := after
      have stands := (history_unique configuration events).find?_of_sweep found
      exact absurd ⟨session, stands, authentic⟩ before
  | begin now begun =>
      obtain ⟨session, found, authentic⟩ := after
      simp only [react, withRegistry, Registry.find?_begin] at found
      split at found
      · obtain rfl := Option.some.inj found
        cases authentic
      · exact absurd ⟨session, found, authentic⟩ before
  | step number input =>
      refine ⟨number, input, rfl, fun spared => ?_⟩
      change ((history configuration events).advance number input).registry.Authenticated id at after
      rcases (history configuration events).advance_registry number input with
        same | ⟨watch, step, found, moved, left⟩
      · rw [same] at after
        exact absurd after before
      · rw [left] at after
        obtain ⟨rfl, tokens, stage, unsettled⟩ :=
          WatchStage.completes_of_authenticated moved before after
        have backed := history_backed spared found
        rw [stage] at backed
        cases tokens with
        | some pair => exact ⟨pair, backed⟩
        | none =>
            -- The watch found the session finished, and only a new one could be pending again.
            exact absurd backed unsettled

theorem heard_of_sends {input : WatchInput} {step : WatchStep}
    (stepped : (history configuration events).step? number input = some step)
    (sent : .sends (.authenticated id) ∈ step.acts) (spared : Spared configuration events number) :
    ∃ soFar tokens, soFar <+: events ∧ Heard configuration soFar number id tokens := by
  obtain ⟨watch, found, moved⟩ := step?_eq_some_iff.mp stepped
  obtain ⟨rfl, stage⟩ := WatchStage.announces_of_sends moved sent
  have backed := history_backed spared found
  rw [stage] at backed
  exact backed

/-- A watch changes the record of its own id only, and it leaves the next session that is begun under this
id alone just if it is not engaged by then.  If it never is, then a session becomes authenticated, and it
is sent that it is, only after a watch which read this very session has taken a message with tokens. -/
theorem watches_spare_later_sessions_iff (configuration : AuthConfiguration) :
    (∀ (events : List MonitorEvent) (number : Nat) (watch : Watch) (input : WatchInput)
        (other : String),
      (history configuration events).watches[number]? = some watch → other ≠ watch.id →
        ((history configuration events).advance number input).registry.find? other =
          (history configuration events).registry.find? other) ∧
    (∀ (events : List MonitorEvent) (number : Nat) (watch : Watch) (now : Instant),
      (history configuration events).watches[number]? = some watch → watch.stage ≠ .reading →
        (¬ (history configuration (events ++ [.begin now watch.id])).MayTouch number watch.id ↔
          watch.stage.isEngaged = false)) ∧
    (∀ (events : List MonitorEvent) (number : Nat) (watch : Watch) (input : WatchInput),
      Spared configuration events number →
        (history configuration events).watches[number]? = some watch →
          ((history configuration events).advance number input).registry.find? watch.id ≠
              (history configuration events).registry.find? watch.id →
            ∃ observed, Read configuration events number watch.id observed) ∧
    (∀ (events : List MonitorEvent) (event : MonitorEvent) (id : String),
      ¬ (history configuration events).registry.Authenticated id →
        (history configuration (events ++ [event])).registry.Authenticated id →
          ∃ number input, event = .step number input ∧
            (Spared configuration events number →
              ∃ tokens, Heard configuration events number id tokens)) ∧
    (∀ (events : List MonitorEvent) (number : Nat) (input : WatchInput) (step : WatchStep)
        (id : String),
      (history configuration events).step? number input = some step →
        .sends (.authenticated id) ∈ step.acts → Spared configuration events number →
          ∃ soFar tokens, soFar <+: events ∧ Heard configuration soFar number id tokens) := by
  refine ⟨?_, ?_, ?_, ?_, ?_⟩
  · intro events number watch input other found different
    exact advance_find?_of_ne found different input
  · intro events number watch now found read
    rw [history_append]
    exact spares_next_session_iff configuration found read now
  · intro events number watch input spared found changed
    exact read_of_changed spared found changed
  · intro events event id before after
    rw [history_append] at after
    exact heard_of_authenticated before after
  · intro events number input step id stepped sent spared
    exact heard_of_sends stepped sent spared

/-- A watch is not cancelled, finds what the source tells, if anything, and has its tokens kept. -/
def finds (told : Option (SourceEvent AuthStatusUpdate)) : WatchInput :=
  ⟨.epoch, 0, false, told, none, true⟩

/-- A session is begun, and its watch hears that it is authenticated and is about to record this. -/
def login (tokens : TokenPair) : List MonitorEvent :=
  [.begin .epoch "s1", .watch "s1", .step 0 (finds none), .step 0 (finds none),
    .step 0 (finds none), .step 0 (finds (some .opened)),
    .step 0 (finds (some (.message ⟨.authenticated, some tokens⟩))), .step 0 (finds none)]

theorem spared_of_begun_first {now : Instant} {id : String} {later : List MonitorEvent}
    (first : ∀ now id, .begin now id ∉ later) :
    Spared configuration (.begin now id :: later) number := by
  intro early again watch late same found
  rcases early with _ | ⟨event, early⟩
  · simp [history, run, idle] at found
  · obtain ⟨-, rfl⟩ := List.cons.inj same
    exact absurd (by simp) (first again watch.id)

theorem login_is_authenticated_by_its_watch :
    let configuration := AuthConfiguration.standard
    let tokens : TokenPair := ⟨"access", "refresh"⟩
    let heard := login tokens
    let recorded := heard ++ [.step 0 (finds none)]
    let stored := recorded ++ [.step 0 (finds none)]
    let sent := stored ++ [.step 0 (finds none)]
    ¬ (history configuration heard).registry.Authenticated "s1" ∧
      (history configuration recorded).registry.Authenticated "s1" ∧
      (∃ observed, Read configuration heard 0 "s1" observed) ∧
      (∃ pair, Heard configuration heard 0 "s1" pair) ∧
      (∃ soFar pair, soFar <+: stored ∧ Heard configuration soFar 0 "s1" pair) ∧
      ((history configuration heard).advance 0 (finds none)).registry.find? "s2" =
        (history configuration heard).registry.find? "s2" ∧
      (history configuration (heard ++ [.begin .epoch "s1"])).MayTouch 0 "s1" ∧
      ¬ (history configuration (sent ++ [.begin .epoch "s1"])).MayTouch 0 "s1" := by
  intro configuration tokens heard recorded stored sent
  obtain ⟨others, next, own, authenticates, sends⟩ := watches_spare_later_sessions_iff configuration
  have completing : (history configuration heard).watches[0]? =
      some ⟨"s1", .completing .authenticated (some tokens)⟩ := by decide
  have returned : (history configuration sent).watches[0]? =
      some ⟨"s1", .returned .authenticated⟩ := by decide
  have spared : Spared configuration heard 0 := spared_of_begun_first (by simp [finds])
  have sparedLater : Spared configuration stored 0 := spared_of_begun_first (by simp)
  have before : ¬ (history configuration heard).registry.Authenticated "s1" := by decide
  have after : (history configuration recorded).registry.Authenticated "s1" := by decide
  have announcing : (history configuration stored).watches[0]? =
      some ⟨"s1", .announcing .authenticated⟩ := by decide
  refine ⟨before, after, ?_, ?_, ?_, ?_, ?_, ?_⟩
  · exact own heard 0 _ (finds none) spared completing (by decide)
  · obtain ⟨number, input, same, heardBy⟩ := authenticates heard (.step 0 (finds none)) "s1" before after
    obtain ⟨rfl, -⟩ := MonitorEvent.step.inj same
    exact heardBy spared
  · exact sends stored 0 (finds none) _ "s1" (step?_of_found announcing _)
      (by simp [WatchStage.announce, finds, AuthEvent.ofStatus]) sparedLater
  · exact others heard 0 _ (finds none) "s2" completing (by decide)
  · have engaged := (next heard 0 _ .epoch completing (by simp)).not
    exact not_not.mp (engaged.mpr (by decide))
  · exact (next sent 0 _ .epoch returned (by simp)).mpr rfl

/-- A watch that has read one session authenticates the next one of the same id.  A second watch, which has
found the first session authenticated, does so without any message. -/
theorem watches_authenticate_later_session :
    let configuration := AuthConfiguration.standard
    let tokens : TokenPair := ⟨"access", "refresh"⟩
    let later : Instant := ⟨1000000000, by decide⟩
    let first := AuthSession.start "s1" .epoch configuration.sessionLifetime
    let next := AuthSession.start "s1" later configuration.sessionLifetime
    let polling := (login tokens).take 5
    let anew := polling ++ [.begin later "s1"]
    let heard := anew ++ (login tokens).drop 5 ++ [.step 0 (finds none)]
    let found := login tokens ++ [.step 0 (finds none), .watch "s1", .step 1 (finds none)]
    let foundAnew := found ++ [.begin later "s1"]
    let sent := foundAnew ++ [.step 1 (finds none), .step 1 (finds none)]
    (history configuration (polling.take 3)).watches[0]? = some ⟨"s1", .measuring first⟩ ∧
      (history configuration anew).registry.find? "s1" = some next ∧
      (history configuration heard).registry.find? "s1" =
        some { next with
          status := .authenticated, finishedAt := some .epoch, tokens := some tokens } ∧
      (history configuration found).watches[1]? = some ⟨"s1", .completing .authenticated none⟩ ∧
      (history configuration foundAnew).registry.find? "s1" = some next ∧
      (history configuration sent).registry.find? "s1" =
        some { next with status := .authenticated, finishedAt := some .epoch } ∧
      (1, .sends (.authenticated "s1")) ∈ (history configuration sent).acts := by
  decide

end Monitor

end BackupClient
