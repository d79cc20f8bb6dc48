import BackupClient.Proofs.Auth.Fate

/-!
For a session that is created once, tokens are stored once and one event is sent.

Both are done by the watch that has finished the session.  It stores the tokens that it has recorded, and it
sends that the session is authenticated just if these were kept.
-/

namespace BackupClient

def Watch.storingFor? (watch : Watch) (id : String) : Option TokenPair :=
  match watch.stage with
  | .storing tokens => if watch.id = id then some tokens else none
  | _ => none

theorem Watch.storingFor?_eq_some_iff {watch : Watch} {id : String} {tokens : TokenPair} :
    watch.storingFor? id = some tokens ↔ watch = ⟨id, .storing tokens⟩ := by
  obtain ⟨owner, stage⟩ := watch
  cases stage <;> simp [storingFor?]

theorem AuthEvent.ofStatus_eq_authenticated_iff {id other : String} {status : SessionStatus} :
    AuthEvent.ofStatus id status = .authenticated other ↔ other = id ∧ status = .authenticated := by
  cases status <;> simp [AuthEvent.ofStatus, eq_comm]

namespace Monitor

variable {configuration : AuthConfiguration} {events : List MonitorEvent} {number : Nat}
  {id : String} {monitor : Monitor}

def sentOf (deliveries : List (Nat × WatchAct)) : List (Nat × AuthEvent) :=
  deliveries.filterMap fun (number, act) =>
    match act with
    | .sends event => some (number, event)
    | _ => none

/-- The answers of the token store among what was delivered: the number of the watch, its tokens, and why
they were refused, if so. -/
def answersOf (deliveries : List (Nat × WatchAct)) : List (Nat × TokenPair × Option String) :=
  deliveries.filterMap fun (number, act) =>
    match act with
    | .stores tokens refusal => some (number, tokens, refusal)
    | _ => none

def pendingCalls (monitor : Monitor) (id : String) : List (Nat × TokenPair) :=
  (List.range monitor.watches.length).filterMap fun number =>
    (monitor.watches[number]?.bind (·.storingFor? id)).map fun tokens => (number, tokens)

def sent (monitor : Monitor) (id : String) : List (Nat × AuthEvent) :=
  sentOf (monitor.deliveries id)

def answers (monitor : Monitor) (id : String) : List (Nat × TokenPair × Option String) :=
  answersOf (monitor.deliveries id)

/-- All calls of the token store for an id: those that are under way, and those that it has answered. -/
def storeCalls (monitor : Monitor) (id : String) : List (Nat × TokenPair) :=
  monitor.pendingCalls id ++ (monitor.answers id).map fun (number, tokens, _) => (number, tokens)

/-- What holds of a session that is created once, whatever its watches find and in whichever order they go
on. -/
structure DeliversOnce (configuration : AuthConfiguration) (events : List MonitorEvent) (id : String) :
    Prop where
  /-- One watch finishes the session, in one step. -/
  finisher : ∀ early number finished early' number' finished',
    FinishedAt configuration events early number id finished →
      FinishedAt configuration events early' number' id finished' →
        early' = early ∧ number' = number ∧ finished' = finished
  /-- One event is sent at most, and by the watch that has finished the session. -/
  sentOnce : ((history configuration events).sent id).length ≤ 1
  sentBy : ∀ number event, (number, event) ∈ (history configuration events).sent id →
    ∃ early finished, FinishedAt configuration events early number id finished
  /-- The token store is called once at most, by this watch and with the tokens that it has recorded with
  an authentication in time. -/
  storedOnce : ((history configuration events).storeCalls id).length ≤ 1
  storedBy : ∀ number tokens, (number, tokens) ∈ (history configuration events).storeCalls id →
    ∃ early finished moment begun, FinishedAt configuration events early number id finished ∧
      finished.status = .authenticated ∧ finished.tokens = some tokens ∧
      finished.finishedAt = some moment ∧ Begun configuration events id begun ∧
      moment < begun.expiresAt
  /-- It is sent that the session is authenticated only after the tokens were kept. -/
  sentAfter : ∀ number other, (number, .authenticated other) ∈ (history configuration events).sent id →
    other = id ∧ ∃ tokens, (number, tokens, none) ∈ (history configuration events).answers id
  /-- After the tokens were kept this is sent, or it is sent next, or it was announced unheard. -/
  sentIf : ∀ number tokens, (number, tokens, none) ∈ (history configuration events).answers id →
    (number, .authenticated id) ∈ (history configuration events).sent id ∨
      (history configuration events).watches[number]? = some ⟨id, .announcing .authenticated⟩ ∨
      Unheard configuration events number id .authenticated
  /-- What is to be announced is sent in the next step of the watch, if anybody listens. -/
  sentNext : ∀ (number : Nat) (status : SessionStatus) (input : WatchInput),
    (history configuration events).watches[number]? = some ⟨id, .announcing status⟩ →
      input.listening = true →
        (number, .ofStatus id status) ∈
          (history configuration (events ++ [.step number input])).sent id

variable {finished record : AuthSession Instant} {stage : WatchStage} {deliveries : List (Nat × WatchAct)}

@[simp]
theorem sentOf_sends (number : Nat) (event : AuthEvent) (deliveries : List (Nat × WatchAct)) :
    sentOf ((number, .sends event) :: deliveries) = (number, event) :: sentOf deliveries := rfl

theorem Outcome.sent {status : SessionStatus}
    (outcome : Outcome number finished status deliveries record) : sentOf deliveries = [] := by
  cases outcome <;> rfl

/-- The tokens of an authentication were handed to the token store, and they were kept just if the
authentication stands. -/
theorem Outcome.answers {status : SessionStatus}
    (outcome : Outcome number finished status deliveries record) :
    answersOf deliveries = [] ∧ status ≠ .authenticated ∨
      ∃ tokens refusal, answersOf deliveries = [(number, tokens, refusal)] ∧
        finished.status = .authenticated ∧ finished.tokens = some tokens ∧
        (refusal = none ↔ status = .authenticated) := by
  cases outcome with
  | kept authentic brought => exact .inr ⟨_, none, rfl, authentic, brought, by simp⟩
  | withdrawn authentic brought => exact .inr ⟨_, some _, rfl, authentic, brought, by simp⟩
  | ended final other => exact .inl ⟨rfl, other⟩

theorem Outcome.kept_iff {status : SessionStatus}
    (outcome : Outcome number finished status deliveries record) :
    (∃ tokens, (number, tokens, none) ∈ answersOf deliveries) ↔ status = .authenticated := by
  rcases outcome.answers with ⟨unasked, other⟩ | ⟨tokens, refusal, asked, -, -, kept⟩
  · simp [unasked, other]
  · simp [asked, ← kept, eq_comm]

/-- What the stage of the watch that has finished a session says about what was delivered. -/
structure Delivered (configuration : AuthConfiguration) (events : List MonitorEvent) (number : Nat)
    (id : String) (finished : AuthSession Instant) (stage : WatchStage)
    (deliveries : List (Nat × WatchAct)) : Prop where
  sent : sentOf deliveries = [] ∨ ∃ status, sentOf deliveries = [(number, .ofStatus id status)]
  storing : ∀ tokens, stage = .storing tokens →
    answersOf deliveries = [] ∧ finished.status = .authenticated ∧ finished.tokens = some tokens
  answered : answersOf deliveries = [] ∨
    ∃ tokens refusal, answersOf deliveries = [(number, tokens, refusal)] ∧
      finished.status = .authenticated ∧ finished.tokens = some tokens
  kept_of_sent : ∀ other, (number, .authenticated other) ∈ sentOf deliveries →
    other = id ∧ ∃ tokens, (number, tokens, none) ∈ answersOf deliveries
  sent_of_kept : ∀ tokens, (number, tokens, none) ∈ answersOf deliveries →
    (number, .authenticated id) ∈ sentOf deliveries ∨ stage = .announcing .authenticated ∨
      Unheard configuration events number id .authenticated

theorem Outcome.answered {status : SessionStatus}
    (outcome : Outcome number finished status deliveries record) :
    answersOf deliveries = [] ∨
      ∃ tokens refusal, answersOf deliveries = [(number, tokens, refusal)] ∧
        finished.status = .authenticated ∧ finished.tokens = some tokens := by
  rcases outcome.answers with ⟨unasked, -⟩ | ⟨tokens, refusal, asked, authentic, brought, -⟩
  · exact .inl unasked
  · exact .inr ⟨tokens, refusal, asked, authentic, brought⟩

theorem Conclusion.delivered
    (conclusion : Conclusion configuration events number id finished stage deliveries record) :
    Delivered configuration events number id finished stage deliveries := by
  cases conclusion with
  | storing authentic brought =>
      refine ⟨.inl rfl, ?_, .inl rfl, by simp [sentOf], by simp [answersOf]⟩
      rintro tokens ⟨⟩
      exact ⟨rfl, authentic, brought⟩
  | withdrawing authentic brought =>
      exact ⟨.inl rfl, fun _ same => (WatchStage.noConfusion same),
        .inr ⟨_, some _, rfl, authentic, brought⟩, by simp [sentOf], by simp [answersOf]⟩
  | @announcing status _ _ outcome =>
      refine ⟨.inl outcome.sent, fun _ same => (WatchStage.noConfusion same), outcome.answered,
        fun _ sent => ?_, fun tokens kept => ?_⟩
      · rw [outcome.sent] at sent
        cases sent
      · obtain rfl := outcome.kept_iff.mp ⟨tokens, kept⟩
        exact .inr (.inl rfl)
  | @sent status _ _ outcome =>
      refine ⟨.inr ⟨status, by rw [sentOf_sends, outcome.sent]⟩,
        fun _ same => (WatchStage.noConfusion same), outcome.answered, fun other sent => ?_,
        fun tokens kept => ?_⟩
      · rw [sentOf_sends, outcome.sent] at sent
        obtain ⟨-, same⟩ := Prod.mk.inj (List.mem_singleton.mp sent)
        obtain ⟨own, authentic⟩ := AuthEvent.ofStatus_eq_authenticated_iff.mp same.symm
        exact ⟨own, outcome.kept_iff.mpr authentic⟩
      · obtain rfl := outcome.kept_iff.mp ⟨tokens, kept⟩
        exact .inl (by simp [AuthEvent.ofStatus])
  | @unheard status _ _ outcome missed =>
      refine ⟨.inl outcome.sent, fun _ same => (WatchStage.noConfusion same), outcome.answered,
        fun _ sent => ?_, fun tokens kept => ?_⟩
      · rw [outcome.sent] at sent
        cases sent
      · obtain rfl := outcome.kept_iff.mp ⟨tokens, kept⟩
        exact .inr (.inr missed)

/-! ### Calls that are under way -/

theorem mem_pendingCalls_iff {tokens : TokenPair} :
    (number, tokens) ∈ monitor.pendingCalls id ↔
      monitor.watches[number]? = some ⟨id, .storing tokens⟩ := by
  unfold pendingCalls
  simp only [List.mem_filterMap, List.mem_range, Option.map_eq_some_iff, Option.bind_eq_some_iff,
    Watch.storingFor?_eq_some_iff, Prod.mk.injEq]
  constructor
  · rintro ⟨_, -, _, ⟨watch, found, rfl⟩, rfl, rfl⟩
    exact found
  · intro found
    obtain ⟨inside, -⟩ := List.getElem?_eq_some_iff.mp found
    exact ⟨number, inside, tokens, ⟨_, found, rfl⟩, rfl, rfl⟩

theorem length_pendingCalls_le_one
    (only : ∀ other tokens, monitor.watches[other]? = some ⟨id, .storing tokens⟩ → other = number) :
    (monitor.pendingCalls id).length ≤ 1 := by
  unfold pendingCalls
  rw [List.length_filterMap_eq_countP]
  refine Nat.le_trans (List.countP_mono_left (q := (· == number)) fun other _ calls => ?_)
    (List.nodup_iff_count.mp List.nodup_range number)
  obtain ⟨⟨_, tokens⟩, call⟩ := Option.isSome_iff_exists.mp calls
  obtain ⟨_, found, same⟩ := Option.map_eq_some_iff.mp call
  obtain ⟨watch, stands, storing⟩ := Option.bind_eq_some_iff.mp found
  obtain rfl := Watch.storingFor?_eq_some_iff.mp storing
  simpa using only other _ stands

/-! ### The main result -/

theorem Finishes.in_time {input : WatchInput} (finishes : monitor.Finishes number input id finished)
    (authentic : finished.status = .authenticated) :
    ∃ moment, finished.finishedAt = some moment ∧ moment < finished.expiresAt := by
  obtain ⟨session, -, -, status, tokens, rfl⟩ := finishes.found
  refine ⟨input.clock, rfl, ?_⟩
  cases late : session.isExpired input.clock with
  | true =>
      rw [late] at authentic
      cases authentic
  | false =>
      have notOver : ¬ session.expiresAt ≤ input.clock := by simpa [AuthSession.isExpired] using late
      exact Int.not_le.mp notOver

theorem announced_is_sent {status : SessionStatus} {input : WatchInput}
    (found : (history configuration events).watches[number]? = some ⟨id, .announcing status⟩)
    (heard : input.listening = true) :
    (number, .ofStatus id status) ∈ (history configuration (events ++ [.step number input])).sent id := by
  have stepped := step?_of_found found input
  have owned : (history configuration events).owner? number = some id := by simp [owner?, found]
  rw [sent, history_step stepped, deliveries_apply, if_pos owned]
  simp only [WatchStage.announce, heard, if_true]
  exact List.mem_cons_self

theorem Open.deliversOnce (isOpen : Open configuration events id) :
    DeliversOnce configuration events id := by
  have unsent : (history configuration events).sent id = [] := by
    rw [sent, isOpen.nothing]
    rfl
  have unasked : (history configuration events).answers id = [] := by
    rw [answers, isOpen.nothing]
    rfl
  have uncalled : (history configuration events).storeCalls id = [] := by
    refine List.eq_nil_iff_forall_not_mem.mpr fun ⟨number, tokens⟩ called => ?_
    simp only [storeCalls, unasked, List.map_nil, List.append_nil, mem_pendingCalls_iff] at called
    have idle := isOpen.idle number _ called rfl
    cases idle
  exact {
    finisher := fun early number finished _ _ _ finish => absurd finish (isOpen.unfinished _ _ _)
    sentOnce := by simp [unsent]
    sentBy := by simp [unsent]
    storedOnce := by simp [uncalled]
    storedBy := by simp [uncalled]
    sentAfter := by simp [unsent]
    sentIf := by simp [unasked]
    sentNext := fun number status input found heard => announced_is_sent found heard }

section Concluded

variable {early : List MonitorEvent}
  (concluded : Concluded configuration events early number id finished stage record)

include concluded

theorem Concluded.of_pendingCall {other : Nat} {tokens : TokenPair}
    (called : (other, tokens) ∈ (history configuration events).pendingCalls id) :
    other = number ∧ stage = .storing tokens := by
  obtain ⟨same, rfl⟩ := concluded.eq_of_delivers (mem_pendingCalls_iff.mp called) rfl
  exact ⟨same, rfl⟩

theorem Concluded.sent_by {other : Nat} {event : AuthEvent}
    (member : (other, event) ∈ (history configuration events).sent id) : other = number := by
  rcases concluded.conclusion.delivered.sent with unsent | ⟨status, sentIs⟩
  · simp [sent, unsent] at member
  · rw [sent, sentIs] at member
    exact (Prod.mk.inj (List.mem_singleton.mp member)).1

theorem Concluded.answered_by {other : Nat} {tokens : TokenPair} {refusal : Option String}
    (member : (other, tokens, refusal) ∈ (history configuration events).answers id) :
    other = number ∧ finished.status = .authenticated ∧ finished.tokens = some tokens := by
  rcases concluded.conclusion.delivered.answered with
    unasked | ⟨asked, answer, answersAre, authentic, brought⟩
  · simp [answers, unasked] at member
  · rw [answers, answersAre] at member
    obtain ⟨rfl, rest⟩ := Prod.mk.inj (List.mem_singleton.mp member)
    obtain ⟨rfl, -⟩ := Prod.mk.inj rest
    exact ⟨rfl, authentic, brought⟩

theorem Concluded.called_by {other : Nat} {tokens : TokenPair}
    (called : (other, tokens) ∈ (history configuration events).storeCalls id) :
    other = number ∧ finished.status = .authenticated ∧ finished.tokens = some tokens := by
  rcases List.mem_append.mp called with underWay | answered
  · obtain ⟨same, storing⟩ := concluded.of_pendingCall underWay
    exact ⟨same, (concluded.conclusion.delivered.storing tokens storing).2⟩
  · obtain ⟨⟨_, _, refusal⟩, member, same⟩ := List.mem_map.mp answered
    obtain ⟨rfl, rfl⟩ := Prod.mk.inj same
    exact concluded.answered_by member

theorem Concluded.length_storeCalls_le_one :
    ((history configuration events).storeCalls id).length ≤ 1 := by
  have one : ((history configuration events).pendingCalls id).length ≤ 1 :=
    length_pendingCalls_le_one fun other tokens found =>
      (concluded.of_pendingCall (mem_pendingCalls_iff.mpr found)).1
  rcases concluded.conclusion.delivered.answered with unasked | ⟨tokens, refusal, answersAre, -⟩
  · simpa [storeCalls, answers, unasked] using one
  · -- The call is answered, and so it is under way no more.
    have none : (history configuration events).pendingCalls id = [] := by
      refine List.eq_nil_iff_forall_not_mem.mpr fun ⟨other, called⟩ member => ?_
      obtain ⟨-, storing⟩ := concluded.of_pendingCall member
      have unanswered := (concluded.conclusion.delivered.storing called storing).1
      rw [answersAre] at unanswered
      cases unanswered
    simp [storeCalls, answers, answersAre, none]

theorem Concluded.deliversOnce : DeliversOnce configuration events id where
  finisher := fun _ _ _ _ _ _ one two => by
    obtain ⟨rfl, rfl, rfl⟩ := concluded.unique _ _ _ one
    exact concluded.unique _ _ _ two
  sentOnce := by
    rcases concluded.conclusion.delivered.sent with unsent | ⟨status, sentIs⟩
    · simp [sent, unsent]
    · simp [sent, sentIs]
  sentBy := fun other event member => by
    obtain rfl := concluded.sent_by member
    exact ⟨early, finished, concluded.finish⟩
  storedOnce := concluded.length_storeCalls_le_one
  storedBy := fun other tokens called => by
    obtain ⟨rfl, authentic, brought⟩ := concluded.called_by called
    obtain ⟨input, late, -, finishes⟩ := concluded.finish
    obtain ⟨moment, ended, inTime⟩ := finishes.in_time authentic
    obtain ⟨begun, origin, expires⟩ := concluded.origin
    exact ⟨early, finished, moment, begun, concluded.finish, authentic, brought, ended, origin,
      expires ▸ inTime⟩
  sentAfter := fun other named member => by
    obtain rfl := concluded.sent_by member
    exact concluded.conclusion.delivered.kept_of_sent named member
  sentIf := fun other tokens kept => by
    obtain ⟨rfl, -⟩ := concluded.answered_by kept
    rcases concluded.conclusion.delivered.sent_of_kept tokens kept with sent | rfl | unheard
    · exact .inl sent
    · exact .inr (.inl concluded.found)
    · exact .inr (.inr unheard)
  sentNext := fun _ _ _ found heard => announced_is_sent found heard

end Concluded

/-- For a session that is created once, whatever its watches find and in whichever order they go on, the
token store is called once at most and one event is sent at most, by the watch that has finished the
session, and an authentication is sent just if its tokens were kept.  To create a session takes two of these
steps. -/
theorem delivers_once (configuration : AuthConfiguration) (events : List MonitorEvent) (id : String)
    (once : BegunOnce events id) :
    DeliversOnce configuration events id ∧
      ∀ now other,
        let monitor := history configuration events
        monitor.run [.sweep now, .begin now other] =
          monitor.withRegistry (monitor.registry.create now other).2 := by
  refine ⟨?_, fun now other => create_eq_sweep_begin _ now other⟩
  cases history_fate configuration once with
  | isOpen isOpen => exact isOpen.deliversOnce
  | isConcluded concluded => exact concluded.deliversOnce

/-- Two watches hear that their session is authenticated, each with tokens of its own.  The first one stores
its tokens and sends the event, and the second one returns. -/
theorem login_is_delivered_by_first_of_two :
    let configuration := AuthConfiguration.standard
    let tokens : TokenPair := ⟨"access", "refresh"⟩
    let hears (number : Nat) (brought : TokenPair) : List MonitorEvent :=
      [.step number (finds none), .step number (finds none), .step number (finds none),
        .step number (finds (some .opened)),
        .step number (finds (some (.message ⟨.authenticated, some brought⟩))),
        .step number (finds none)]
    let events : List MonitorEvent := [.begin .epoch "s1", .watch "s1", .watch "s1"] ++
      hears 1 ⟨"other", "other"⟩ ++ hears 0 tokens ++
      [.step 0 (finds none), .step 1 (finds none), .step 0 (finds none), .step 1 (finds none),
        .step 0 (finds none)]
    BegunOnce events "s1" ∧ DeliversOnce configuration events "s1" ∧
      (history configuration events).sent "s1" = [(0, .authenticated "s1")] ∧
      (history configuration events).storeCalls "s1" = [(0, tokens)] ∧
      (history configuration events).watches[1]? = some ⟨"s1", .returned .authenticated⟩ := by
  intro configuration tokens hears events
  have once : BegunOnce events "s1" := by decide
  obtain ⟨delivered, -⟩ := delivers_once configuration events "s1" once
  exact ⟨once, delivered, by decide, by decide, by decide⟩

end Monitor

end BackupClient
