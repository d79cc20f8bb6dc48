import BackupClient.Auth.Registry
import BackupClient.Proofs.Keyed

/-!
What the operations on sessions do to the record of one id.

Sessions are finished and withdrawn by their id alone.  A session that is not pending does not become
pending again unless its id is begun anew.
-/

namespace BackupClient

theorem AuthSession.statusAt_eq_authenticated_iff {session : AuthSession Instant} {now : Instant} :
    session.statusAt now = .authenticated ↔ session.status = .authenticated := by
  unfold statusAt
  split
  case isTrue ended => simp [ended.1]
  case isFalse => exact Iff.rfl

theorem AuthSession.statusAt_of_ne_pending {session : AuthSession Instant}
    (ended : session.status ≠ .pending)
    (now : Instant) : session.statusAt now = session.status := by
  simp [statusAt, ended]

namespace Registry

variable {registry : Registry} {id other : String} {session : AuthSession Instant}

theorem find?_put (registry : Registry) (id other : String) (session : AuthSession Instant) :
    (registry.put id session).find? other =
      if other = id then some session else registry.find? other := by
  change Keyed.find? ((id, session) :: registry.sessions.filter (·.1 ≠ id)) other = _
  rw [Keyed.find?_cons, Keyed.find?_filter_ne]
  split <;> rfl

theorem find?_begin (registry : Registry) (now : Instant) (id other : String) :
    (registry.begin now id).2.find? other =
      if other = id then some (AuthSession.start id now registry.lifetime)
      else registry.find? other :=
  registry.find?_put id other _

inductive Completion (registry : Registry) (now : Instant) (id : String) (status : SessionStatus)
    (tokens : Option TokenPair) : Option SessionStatus × Registry → Prop where
  | refused : Completion registry now id status tokens (none, registry)
  | recorded {session : AuthSession Instant} {recorded : SessionStatus} :
      registry.find? id = some session → status.isTerminal = true → session.status = .pending →
      recorded = (if session.isExpired now then .expired else status) →
      Completion registry now id status tokens
        (some recorded, registry.put id
          { session with
            status := recorded, finishedAt := some now
            tokens := if recorded = .authenticated then tokens else none })

theorem complete_completion (registry : Registry) (now : Instant) (id : String)
    (status : SessionStatus) (tokens : Option TokenPair) :
    registry.Completion now id status tokens (registry.complete now id status tokens) := by
  unfold complete
  cases found : registry.find? id with
  | none => exact .refused
  | some session =>
      dsimp only
      split
      case isTrue open_ => exact .recorded found open_.1 open_.2 rfl
      case isFalse => exact .refused

theorem complete_of_pending (found : registry.find? id = some session)
    (pending : session.status = .pending) {status : SessionStatus}
    (terminal : status.isTerminal = true) (now : Instant) (tokens : Option TokenPair) :
    ∃ finished, (registry.complete now id status tokens).2.find? id = some finished ∧
      finished.status ≠ .pending := by
  simp only [complete, found, terminal, pending, and_self, if_true, find?_put]
  refine ⟨_, rfl, ?_⟩
  split
  · exact SessionStatus.noConfusion
  · rintro rfl
    cases terminal

theorem find?_complete_of_ne (different : other ≠ id) (registry : Registry) (now : Instant)
    (status : SessionStatus) (tokens : Option TokenPair) :
    (registry.complete now id status tokens).2.find? other = registry.find? other := by
  have completion := registry.complete_completion now id status tokens
  generalize registry.complete now id status tokens = result at completion ⊢
  cases completion with
  | refused => rfl
  | recorded => rw [find?_put, if_neg different]

theorem find?_revoke_of_ne (different : other ≠ id) (registry : Registry) :
    (registry.revoke id).find? other = registry.find? other := by
  unfold revoke
  split
  · rfl
  · rw [find?_put, if_neg different]

theorem find?_revoke (found : registry.find? id = some session) :
    (registry.revoke id).find? id =
      some { session with status := .cancelled, tokens := none } := by
  simp [revoke, found, find?_put]

theorem find?_of_revoke (found : (registry.revoke id).find? id = some session) :
    ∃ before, registry.find? id = some before ∧
      session = { before with status := .cancelled, tokens := none } := by
  cases stands : registry.find? id with
  | none =>
      simp only [revoke, stands] at found
      cases found
  | some before =>
      rw [find?_revoke stands] at found
      exact ⟨before, rfl, (Option.some.inj found).symm⟩

/-! ### One record for each id -/

def Unique (registry : Registry) : Prop :=
  Keyed.Unique registry.sessions

theorem Unique.put (unique : registry.Unique) (id : String) (session : AuthSession Instant) :
    (registry.put id session).Unique :=
  Keyed.Unique.entered unique id session

theorem Unique.sweep (unique : registry.Unique) (now : Instant) :
    (registry.sweep now).2.Unique :=
  Keyed.Unique.filter unique _

theorem Unique.complete (unique : registry.Unique) (now : Instant) (id : String)
    (status : SessionStatus) (tokens : Option TokenPair) :
    (registry.complete now id status tokens).2.Unique := by
  have completion := registry.complete_completion now id status tokens
  generalize registry.complete now id status tokens = result at completion ⊢
  cases completion with
  | refused => exact unique
  | recorded => exact unique.put id _

theorem Unique.revoke (unique : registry.Unique) (id : String) : (registry.revoke id).Unique := by
  unfold Registry.revoke
  split
  · exact unique
  · exact unique.put id _

theorem Unique.find?_of_sweep (unique : registry.Unique) {now : Instant}
    (found : (registry.sweep now).2.find? id = some session) : registry.find? id = some session := by
  have entry : (id, session) ∈ (registry.sweep now).2.sessions := Keyed.mem_of_find? found
  exact (Keyed.Unique.find?_eq_some_iff unique).mpr (List.mem_of_mem_filter entry)

def Authenticated (registry : Registry) (id : String) : Prop :=
  ∃ session, registry.find? id = some session ∧ session.status = .authenticated

instance (registry : Registry) (id : String) : Decidable (registry.Authenticated id) :=
  decidable_of_iff ((registry.find? id).map (·.status) = some .authenticated)
    Option.map_eq_some_iff

/-! ### No pending session -/

/-- No pending session stands under an id. -/
def Settled (registry : Registry) (id : String) : Prop :=
  ∀ session, registry.find? id = some session → session.status ≠ .pending

theorem settled_of_get?_authenticated {now : Instant} (observed : registry.get? now id = some session)
    (authentic : session.status = .authenticated) : registry.Settled id := by
  obtain ⟨stored, stands, rfl⟩ := Option.map_eq_some_iff.mp observed
  intro other same
  obtain rfl := Option.some.inj (stands.symm.trans same)
  rw [AuthSession.statusAt_eq_authenticated_iff.mp authentic]
  exact SessionStatus.noConfusion

theorem Settled.complete_eq (settled : registry.Settled id) (now : Instant)
    (status : SessionStatus) (tokens : Option TokenPair) :
    registry.complete now id status tokens = (none, registry) := by
  have completion := registry.complete_completion now id status tokens
  generalize registry.complete now id status tokens = result at completion ⊢
  cases completion with
  | refused => rfl
  | recorded found _ pending _ => exact absurd pending (settled _ found)

theorem Settled.complete (settled : registry.Settled id) (now : Instant) (other : String)
    (status : SessionStatus) (tokens : Option TokenPair) :
    (registry.complete now other status tokens).2.Settled id := by
  by_cases same : id = other
  · subst same
    rw [settled.complete_eq]
    exact settled
  · intro session found
    rw [find?_complete_of_ne same] at found
    exact settled session found

theorem Settled.revoke (settled : registry.Settled id) (other : String) :
    (registry.revoke other).Settled id := by
  intro session found
  by_cases same : id = other
  · subst same
    obtain ⟨_, -, rfl⟩ := find?_of_revoke found
    exact SessionStatus.noConfusion
  · rw [find?_revoke_of_ne same] at found
    exact settled session found

theorem Settled.sweep (settled : registry.Settled id) (unique : registry.Unique) (now : Instant) :
    (registry.sweep now).2.Settled id :=
  fun session found => settled session (unique.find?_of_sweep found)

theorem Settled.begin (settled : registry.Settled id) (now : Instant) (different : id ≠ other) :
    (registry.begin now other).2.Settled id := by
  intro session found
  rw [find?_begin, if_neg different] at found
  exact settled session found

end Registry

end BackupClient
