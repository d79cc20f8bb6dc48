import BackupClient.Proofs.Auth.Registry

/-!
Sessions from their beginning to their end.

Whatever is done with a registry, and whatever the clock shows meanwhile, the parts of each session fit
together.  Until its id is begun anew, a session is finished at most once and then stays as it is.
-/

namespace BackupClient

/-- What is done with a registry, and what the clock shows then.  To create a session is to sweep and then
to begin it, with a look at the clock for each. -/
inductive RegistryEvent where
  | create (swept begun : Instant) (id : String)
  | get (now : Instant) (id : String)
  | complete (now : Instant) (id : String) (status : SessionStatus) (tokens : Option TokenPair)
  | sweep (now : Instant)
  deriving DecidableEq

namespace AuthSession

/-- The parts of a session fit together: it is pending as long as it has no end, and it holds tokens only
if it was authenticated in time. -/
structure Consistent (session : AuthSession Instant) : Prop where
  pending_iff : session.status = .pending ↔ session.finishedAt = none
  entitled : ∀ tokens, session.tokens = some tokens →
    session.status = .authenticated ∧
      ∃ finished, session.finishedAt = some finished ∧ finished < session.expiresAt

theorem start_consistent (id : String) (now : Instant) (lifetime : Duration) :
    (start id now lifetime).Consistent where
  pending_iff := by simp [start]
  entitled := by simp [start]

variable {session : AuthSession Instant} {now : Instant}

theorem isExpired_iff {τ : Type} [TimeScale τ] [DecidableLE τ] {session : AuthSession τ} {now : τ} :
    session.isExpired now = true ↔ session.expiresAt ≤ now :=
  decide_eq_true_iff

theorem lt_of_not_isExpired (early : ¬ session.isExpired now = true) : now < session.expiresAt := by
  rw [isExpired_iff] at early
  exact Int.lt_of_not_ge early

theorem finished_consistent (session : AuthSession Instant) (now : Instant) {status : SessionStatus}
    (terminal : status.isTerminal = true) (tokens : Option TokenPair) :
    let recorded := if session.isExpired now then .expired else status
    Consistent
      { session with
        status := recorded, finishedAt := some now
        tokens := if recorded = .authenticated then tokens else none } := by
  by_cases late : session.isExpired now = true
  · simp only [late, if_true]
    exact ⟨by simp, by simp⟩
  · simp only [late]
    constructor
    case pending_iff =>
        refine iff_of_false ?_ (by simp)
        rintro rfl
        cases terminal
    case entitled =>
        intro kept held
        by_cases authentic : status = .authenticated
        · exact ⟨authentic, now, rfl, lt_of_not_isExpired late⟩
        · simp [authentic] at held

theorem statusAt_ne_pending (due : session.expiresAt ≤ now) : session.statusAt now ≠ .pending := by
  unfold statusAt
  split
  case isTrue => exact SessionStatus.noConfusion
  case isFalse other => exact fun pending => other ⟨pending, isExpired_iff.mpr due⟩

end AuthSession

namespace Registry

variable {registry : Registry} {id : String} {session : AuthSession Instant} {event : RegistryEvent}

def react (registry : Registry) : RegistryEvent → Registry
  | .create swept begun id => ((registry.sweep swept).2.begin begun id).2
  | .get _ _ => registry
  | .complete now id status tokens => (registry.complete now id status tokens).2
  | .sweep now => (registry.sweep now).2

/-- The status that an event records for an id, if it is a completion that records one. -/
def recorded? (registry : Registry) (id : String) : RegistryEvent → Option SessionStatus
  | .complete now other status tokens =>
      if other = id then (registry.complete now id status tokens).1 else none
  | _ => none

def run (registry : Registry) (events : List RegistryEvent) : Registry :=
  events.foldl react registry

def recordings (registry : Registry) (id : String) : List RegistryEvent → List SessionStatus
  | [] => []
  | event :: later => (registry.recorded? id event).toList ++ (registry.react event).recordings id later

theorem react_unique (unique : registry.Unique) (event : RegistryEvent) :
    (registry.react event).Unique := by
  cases event with
  | create swept begun id => exact (unique.sweep swept).put id _
  | get => exact unique
  | complete now id status tokens => exact unique.complete now id status tokens
  | sweep now => exact unique.sweep now

theorem run_unique (events : List RegistryEvent) (unique : registry.Unique) :
    (registry.run events).Unique := by
  induction events generalizing registry with
  | nil => exact unique
  | cons event events inductionHypothesis => exact inductionHypothesis (react_unique unique event)

/-! ### The parts of each session -/

/-- Each session is kept under its own id, and its parts fit together. -/
def Orderly (registry : Registry) : Prop :=
  ∀ entry ∈ registry.sessions, entry.2.id = entry.1 ∧ entry.2.Consistent

theorem Orderly.put (orderly : registry.Orderly) (own : session.id = id)
    (consistent : session.Consistent) : (registry.put id session).Orderly := by
  intro entry member
  rcases List.mem_cons.mp member with rfl | older
  · exact ⟨own, consistent⟩
  · exact orderly entry (List.mem_of_mem_filter older)

theorem Orderly.sweep (orderly : registry.Orderly) (now : Instant) :
    (registry.sweep now).2.Orderly :=
  fun entry member => orderly entry (List.mem_of_mem_filter member)

theorem Orderly.complete (orderly : registry.Orderly) (now : Instant) (id : String)
    (status : SessionStatus) (tokens : Option TokenPair) :
    (registry.complete now id status tokens).2.Orderly := by
  have completion := registry.complete_completion now id status tokens
  generalize registry.complete now id status tokens = result at completion ⊢
  cases completion with
  | refused => exact orderly
  | recorded found terminal _ recorded =>
      subst recorded
      exact orderly.put (orderly _ (Keyed.mem_of_find? found)).1
        (AuthSession.finished_consistent _ now terminal tokens)

theorem Orderly.react (orderly : registry.Orderly) (event : RegistryEvent) :
    (registry.react event).Orderly := by
  cases event with
  | create swept begun id =>
      exact (orderly.sweep swept).put rfl (AuthSession.start_consistent id begun _)
  | get => exact orderly
  | complete now id status tokens => exact orderly.complete now id status tokens
  | sweep now => exact orderly.sweep now

theorem Orderly.run (events : List RegistryEvent) (orderly : registry.Orderly) :
    (registry.run events).Orderly := by
  induction events generalizing registry with
  | nil => exact orderly
  | cons event events inductionHypothesis => exact inductionHypothesis (orderly.react event)

/-! ### A session that is finished -/

/-- The record of an id is this session, or there is none any more. -/
def Keeps (registry : Registry) (id : String) (session : AuthSession Instant) : Prop :=
  ∀ other, registry.find? id = some other → other = session

theorem keeps_put (registry : Registry) (id : String) (session : AuthSession Instant) :
    (registry.put id session).Keeps id session := by
  intro other found
  rw [find?_put, if_pos rfl] at found
  exact (Option.some.inj found).symm

theorem Keeps.settled (keeps : registry.Keeps id session) (ended : session.status ≠ .pending) :
    registry.Settled id :=
  fun other found => keeps other found ▸ ended

theorem Keeps.react (keeps : registry.Keeps id session) (ended : session.status ≠ .pending)
    (unique : registry.Unique) (unbegun : ∀ swept begun, event ≠ .create swept begun id) :
    (registry.react event).Keeps id session := by
  intro other found
  cases event with
  | create swept begun created =>
      have different : id ≠ created := fun same => unbegun swept begun (same ▸ rfl)
      simp only [Registry.react, find?_begin, if_neg different] at found
      exact keeps other (unique.find?_of_sweep found)
  | get => exact keeps other found
  | complete now completed status tokens =>
      by_cases same : id = completed
      · subst same
        simp only [Registry.react, (keeps.settled ended).complete_eq] at found
        exact keeps other found
      · simp only [Registry.react, find?_complete_of_ne same] at found
        exact keeps other found
  | sweep now => exact keeps other (unique.find?_of_sweep found)

theorem Keeps.recorded?_eq_none (keeps : registry.Keeps id session)
    (ended : session.status ≠ .pending) (event : RegistryEvent) :
    registry.recorded? id event = none := by
  cases event with
  | complete now other status tokens => simp [recorded?, (keeps.settled ended).complete_eq]
  | create => rfl
  | get => rfl
  | sweep => rfl

/-- A session that has ended is finished no more and stays as it is, by induction on what follows. -/
theorem Keeps.run {later : List RegistryEvent} (keeps : registry.Keeps id session)
    (ended : session.status ≠ .pending) (unique : registry.Unique)
    (unbegun : ∀ swept begun, .create swept begun id ∉ later) :
    registry.recordings id later = [] ∧ (registry.run later).Keeps id session := by
  induction later generalizing registry with
  | nil => exact ⟨rfl, keeps⟩
  | cons event later inductionHypothesis =>
      have kept := keeps.react ended unique fun swept begun same =>
        unbegun swept begun (same ▸ List.mem_cons_self)
      obtain ⟨none, stays⟩ := inductionHypothesis kept (react_unique unique event)
        fun swept begun member => unbegun swept begun (List.mem_cons_of_mem _ member)
      refine ⟨?_, stays⟩
      simp only [recordings, keeps.recorded?_eq_none ended event, none, Option.toList_none,
        List.append_nil]

theorem keeps_of_recorded? {status : SessionStatus}
    (recorded : registry.recorded? id event = some status) :
    ∃ session, (registry.react event).Keeps id session ∧ session.status = status ∧
      session.status ≠ .pending := by
  cases event with
  | create => cases recorded
  | get => cases recorded
  | sweep => cases recorded
  | complete now other requested tokens =>
      by_cases same : other = id
      case neg => simp [recorded?, same] at recorded
      subst same
      simp only [recorded?, if_true] at recorded
      simp only [react]
      have completion := registry.complete_completion now other requested tokens
      generalize registry.complete now other requested tokens = result at completion recorded
      cases completion with
      | refused => cases recorded
      | recorded found terminal _ written =>
          obtain rfl := Option.some.inj recorded
          refine ⟨_, keeps_put _ _ _, rfl, ?_⟩
          rw [written]
          split
          · exact SessionStatus.noConfusion
          · rintro rfl
            cases terminal

/-- As long as an id is not begun anew, at most one status is recorded for it, which then stays. -/
theorem recordings_cases (later : List RegistryEvent) (unique : registry.Unique)
    (unbegun : ∀ swept begun, .create swept begun id ∉ later) :
    registry.recordings id later = [] ∨
      ∃ session, registry.recordings id later = [session.status] ∧
        (registry.run later).Keeps id session := by
  induction later generalizing registry with
  | nil => exact .inl rfl
  | cons event later inductionHypothesis =>
      have unbegunLater : ∀ swept begun, .create swept begun id ∉ later :=
        fun swept begun member => unbegun swept begun (List.mem_cons_of_mem _ member)
      have uniqueLater := react_unique unique event
      cases recorded : registry.recorded? id event with
      | none =>
          simp only [recordings, recorded, Option.toList_none, List.nil_append]
          exact inductionHypothesis uniqueLater unbegunLater
      | some status =>
          obtain ⟨session, keeps, rfl, ended⟩ := keeps_of_recorded? recorded
          obtain ⟨none, stays⟩ := keeps.run ended uniqueLater unbegunLater
          refine .inr ⟨session, ?_, stays⟩
          simp only [recordings, recorded, none, Option.toList_some, List.append_nil]

/-! ### Expiry -/

/-- A pending session whose time is over is finished as expired, and only a final status can be asked
for. -/
theorem complete_of_due (found : registry.find? id = some session)
    (pending : session.status = .pending) {now : Instant} (due : session.expiresAt ≤ now)
    (status : SessionStatus) (tokens : Option TokenPair) :
    registry.complete now id status tokens =
      if status.isTerminal then
        (some .expired, registry.put id
          { session with status := .expired, finishedAt := some now, tokens := none })
      else (none, registry) := by
  have expired : session.isExpired now = true := AuthSession.isExpired_iff.mpr due
  simp [complete, found, pending, expired]

theorem get?_ne_pending {now : Instant} (observed : registry.get? now id = some session)
    (due : session.expiresAt ≤ now) : session.status ≠ .pending := by
  obtain ⟨stored, -, rfl⟩ := Option.map_eq_some_iff.mp observed
  exact AuthSession.statusAt_ne_pending due

/-- Whatever was done with a registry: each session is kept under its own id, is pending as long as it has
no end, and holds tokens only if it was authenticated in time.  Until an id is begun anew, at most one
status is recorded for it, and it stays.  What is finished too late is recorded as expired, without tokens,
whatever final status was asked for; a request for the pending status is refused.  No session is seen
pending once its time is over. -/
theorem sessions_end_once (lifetime collectionDelay : Duration) (events : List RegistryEvent) :
    let registry := (empty lifetime collectionDelay).run events
    registry.Unique ∧
    (∀ id session, (id, session) ∈ registry.sessions →
      session.id = id ∧ (session.status = .pending ↔ session.finishedAt = none) ∧
        ∀ tokens, session.tokens = some tokens →
          session.status = .authenticated ∧
            ∃ finished, session.finishedAt = some finished ∧ finished < session.expiresAt) ∧
    (∀ id later, (∀ swept begun, .create swept begun id ∉ later) →
      (registry.recordings id later).length ≤ 1 ∧
        ∀ status ∈ registry.recordings id later, ∀ session,
          (registry.run later).find? id = some session → session.status = status) ∧
    (∀ id session now status tokens, registry.find? id = some session →
      session.status = .pending → session.expiresAt ≤ now →
        registry.complete now id status tokens =
          if status.isTerminal then
            (some .expired, registry.put id
              { session with status := .expired, finishedAt := some now, tokens := none })
          else (none, registry)) ∧
    ∀ id session now, registry.get? now id = some session → session.expiresAt ≤ now →
      session.status ≠ .pending := by
  intro registry
  have unique : registry.Unique := run_unique events List.nodup_nil
  have orderly : registry.Orderly := Orderly.run events (by simp [Orderly, empty])
  refine ⟨unique, ?_, ?_, ?_, ?_⟩
  · intro id session entry
    obtain ⟨own, consistent⟩ := orderly (id, session) entry
    exact ⟨own, consistent.pending_iff, consistent.entitled⟩
  · intro id later unbegun
    rcases recordings_cases later unique unbegun with none | ⟨session, one, keeps⟩
    · simp [none]
    · rw [one]
      refine ⟨Nat.le_refl 1, fun status recorded other found => ?_⟩
      rw [List.mem_singleton.mp recorded, keeps other found]
  · intro id session now status tokens found pending due
    exact complete_of_due found pending due status tokens
  · intro id session now observed due
    exact get?_ne_pending observed due

/-- A session is cancelled, and a later completion finds it finished. -/
theorem cancelled_session_stays :
    let lifetime := Duration.ofSeconds 600
    let deadline : Instant := ⟨600000000000, by decide⟩
    let begun := (empty lifetime .zero).run [.create .epoch .epoch "s1"]
    let later : List RegistryEvent :=
      [.complete .epoch "s1" .cancelled none, .complete deadline "s1" .authenticated none]
    let session := AuthSession.start "s1" .epoch lifetime
    let observed : AuthSession Instant := { session with status := .expired }
    (session.id = "s1" ∧ session.status = .pending) ∧
      begun.recordings "s1" later = [.cancelled] ∧
      (∀ other, (begun.run later).find? "s1" = some other → other.status = .cancelled) ∧
      (begun.complete deadline "s1" .authenticated none).1 = some .expired ∧
      begun.get? deadline "s1" = some observed ∧ observed.status ≠ .pending := by
  intro lifetime deadline begun later session observed
  obtain ⟨-, kept, once, late, seen⟩ := sessions_end_once lifetime .zero [.create .epoch .epoch "s1"]
  have entry : ("s1", session) ∈ begun.sessions := by decide
  have found : begun.find? "s1" = some session := by decide
  have recordings : begun.recordings "s1" later = [.cancelled] := by decide
  obtain ⟨own, pending_iff, -⟩ := kept "s1" session entry
  obtain ⟨-, stays⟩ := once "s1" later (by simp [later])
  have reads : begun.get? deadline "s1" = some observed := by decide
  refine ⟨⟨own, pending_iff.mpr rfl⟩, recordings, ?_, ?_, reads, ?_⟩
  · exact stays .cancelled (by rw [recordings]; exact List.mem_cons_self)
  · rw [late "s1" session deadline .authenticated none found rfl (by decide)]
    rfl
  · exact seen "s1" observed deadline reads (by decide)

/-- A request for the pending status finishes nothing, and so a session whose time is over stays
pending in the record. -/
theorem pending_request_records_no_expiry :
    let deadline : Instant := ⟨600000000000, by decide⟩
    let begun := (empty (Duration.ofSeconds 600) .zero).run [.create .epoch .epoch "s1"]
    let session := AuthSession.start "s1" .epoch (Duration.ofSeconds 600)
    begun.find? "s1" = some session ∧ session.status = .pending ∧ session.expiresAt ≤ deadline ∧
      begun.complete deadline "s1" .pending none = (none, begun) := by
  decide

end Registry

end BackupClient
