import BackupClient.Proofs.Jobs.Guards

/-!
The two records of an arbiter describe one set.

Whatever was done with an arbiter and its guards, an operation runs just if it is the holder of its own
repository, so that a reservation depends on the holder alone and a release touches one repository only.
-/

namespace BackupClient.Arbiter

theorem isOccupied_eq_false_iff {arbiter : Arbiter} {repository : Int} :
    arbiter.isOccupied repository = false ↔ arbiter.holder? repository = none := by
  simp [isOccupied]

structure Distinct (arbiter : Arbiter) : Prop where
  running : arbiter.running.Nodup
  occupied : Keyed.Unique arbiter.occupied

theorem idle_distinct : idle.Distinct :=
  ⟨List.nodup_nil, List.nodup_nil⟩

theorem Distinct.reserve {arbiter next : Arbiter} (distinct : arbiter.Distinct)
    {operation : Operation} (reserved : arbiter.reserve operation = .ok next) : next.Distinct := by
  obtain ⟨idle, free, rfl⟩ := reserve_eq_ok_iff.mp reserved
  constructor
  · apply List.nodup_cons.mpr
    exact ⟨by simpa [isRunning] using idle, distinct.running⟩
  · apply List.nodup_cons.mpr
    refine ⟨?_, distinct.occupied⟩
    intro entered
    obtain ⟨⟨repository, holder⟩, entry, same⟩ := List.mem_map.mp entered
    have held : arbiter.holder? repository = some holder :=
      distinct.occupied.find?_eq_some_iff.mpr entry
    have equality : repository = operation.id.repository := same
    rw [equality, free] at held
    cases held

theorem Distinct.release {arbiter : Arbiter} (distinct : arbiter.Distinct) (operation : Operation) :
    (arbiter.release operation).2.Distinct := by
  unfold Arbiter.release
  split
  · refine ⟨distinct.running.filter _, ?_⟩
    split
    · exact distinct.occupied.filter _
    · exact distinct.occupied
  · exact distinct

theorem Coherent.mem_running_iff {arbiter : Arbiter} (coherent : arbiter.Coherent)
    (distinct : arbiter.Distinct) (operation : Operation) :
    operation ∈ arbiter.running ↔ (operation.id.repository, operation) ∈ arbiter.occupied := by
  rw [← distinct.occupied.find?_eq_some_iff]
  refine Iff.trans ?_ (coherent.running_iff operation)
  simp [isRunning]

theorem Coherent.isOccupied_iff {arbiter : Arbiter} (coherent : arbiter.Coherent)
    (repository : Int) :
    arbiter.isOccupied repository = true ↔
      ∃ operation, arbiter.isRunning operation = true ∧ operation.id.repository = repository := by
  constructor
  · intro occupied
    obtain ⟨holder, held⟩ := Option.isSome_iff_exists.mp occupied
    have own := coherent.keyed repository holder held
    refine ⟨holder, ?_, own⟩
    rw [coherent.running_iff, own]
    exact held
  · rintro ⟨operation, running, rfl⟩
    rw [isOccupied, (coherent.running_iff operation).mp running]
    rfl

/-- The answer to a reservation depends on the holder of the repository only. -/
theorem Coherent.reserve_eq {arbiter : Arbiter} (coherent : arbiter.Coherent)
    (operation : Operation) :
    arbiter.reserve operation =
      match arbiter.holder? operation.id.repository with
      | none =>
          .ok ⟨operation :: arbiter.running, (operation.id.repository, operation) :: arbiter.occupied⟩
      | some holder =>
          .error (if holder = operation then .alreadyRunning operation
            else .repositoryBusy operation.id.repository holder) := by
  have running := coherent.running_iff operation
  unfold Arbiter.reserve
  cases held : arbiter.holder? operation.id.repository with
  | none =>
      rw [held] at running
      simp [running]
  | some holder =>
      rw [held] at running
      by_cases same : holder = operation
      · simp [running, same]
      · simp [running, same]

theorem release_of_idle {arbiter : Arbiter} {operation : Operation}
    (idle : arbiter.isRunning operation = false) : arbiter.release operation = (false, arbiter) := by
  simp [release, idle]

theorem release_fst (arbiter : Arbiter) (operation : Operation) :
    (arbiter.release operation).1 = arbiter.isRunning operation := by
  unfold release
  split
  case isTrue running => exact running.symm
  case isFalse idle => exact (Bool.eq_false_iff.mpr idle).symm

end BackupClient.Arbiter

namespace BackupClient.GuardedArbiter

/-- The two records agree, and reservations and releases keep to the holder of the one repository that
they are about. -/
structure Consistent (state : GuardedArbiter) : Prop where
  running_iff : ∀ operation,
    state.arbiter.isRunning operation = true ↔
      state.arbiter.holder? operation.id.repository = some operation
  occupied_iff : ∀ repository,
    state.arbiter.isOccupied repository = true ↔
      ∃ operation, state.arbiter.isRunning operation = true ∧ operation.id.repository = repository
  /-- The records are the same set of operations, and neither lists one twice. -/
  sameSet : (∀ operation, operation ∈ state.arbiter.running ↔
      (operation.id.repository, operation) ∈ state.arbiter.occupied) ∧
    state.arbiter.running.Nodup ∧ Keyed.Unique state.arbiter.occupied
  single : ∀ first second, state.arbiter.isRunning first = true →
    state.arbiter.isRunning second = true → first.id.repository = second.id.repository →
      first = second
  granted_iff : ∀ operation,
    (∃ guard next, state.reserve operation = .ok (guard, next)) ↔
      state.arbiter.isOccupied operation.id.repository = false
  already_iff : ∀ operation,
    state.reserve operation = .error (.alreadyRunning operation) ↔
      state.arbiter.holder? operation.id.repository = some operation
  busy_iff : ∀ operation repository holder,
    state.reserve operation = .error (.repositoryBusy repository holder) ↔
      repository = operation.id.repository ∧
        state.arbiter.holder? repository = some holder ∧ holder ≠ operation
  granted : ∀ operation guard next, state.reserve operation = .ok (guard, next) →
    state.step (.reserve operation) = next ∧
      ∀ repository, next.arbiter.holder? repository =
        if repository = operation.id.repository then some operation
        else state.arbiter.holder? repository
  refused : ∀ operation refusal, state.reserve operation = .error refusal →
    state.step (.reserve operation) = state
  released : ∀ operation, state.arbiter.isRunning operation = true →
    (state.release operation).1 = true ∧
      (state.release operation).2.arbiter.isOccupied operation.id.repository = false ∧
      ∀ repository, repository ≠ operation.id.repository →
        (state.release operation).2.arbiter.holder? repository = state.arbiter.holder? repository
  unreleased : ∀ operation, state.arbiter.isRunning operation = false →
    state.release operation = (false, state)
  /-- A guard that is released or dropped releases its operation by name, once. -/
  finished : ∀ guard operation, state.Unfinished guard operation →
    (state.finish guard).arbiter = (state.release operation).2.arbiter ∧
      ∀ other, ¬ (state.finish guard).Unfinished guard other
  unfinished : ∀ guard, (∀ operation, ¬ state.Unfinished guard operation) →
    state.finish guard = state

theorem step_distinct {state : GuardedArbiter} (distinct : state.arbiter.Distinct)
    (event : ArbiterEvent) : (state.step event).arbiter.Distinct := by
  have effect := state.step_effect event
  generalize state.step event = next at effect ⊢
  cases effect with
  | granted reserved => exact distinct.reserve reserved
  | refused => exact distinct
  | named => exact distinct.release _
  | finished => exact distinct.release _
  | nothing => exact distinct

theorem run_distinct (events : List ArbiterEvent) {state : GuardedArbiter}
    (distinct : state.arbiter.Distinct) : (state.run events).arbiter.Distinct := by
  induction events generalizing state with
  | nil => exact distinct
  | cons event events inductionHypothesis => exact inductionHypothesis (step_distinct distinct event)

theorem finish_of_unfinished {state : GuardedArbiter} {guard : Nat} {operation : Operation}
    (unfinished : state.Unfinished guard operation) :
    state.finish guard =
      ⟨(state.arbiter.release operation).2, state.guards.set guard ⟨operation, true⟩⟩ := by
  have found : state.guards[guard]? = some ⟨operation, false⟩ := unfinished
  simp [finish, found, Reservation.finish]

theorem reserve_eq_error_iff {state : GuardedArbiter} {operation : Operation}
    {refusal : ArbiterError} :
    state.reserve operation = .error refusal ↔ state.arbiter.reserve operation = .error refusal := by
  unfold reserve
  cases state.arbiter.reserve operation with
  | error other => simp [Except.map]
  | ok arbiter => simp [Except.map]

/-- Whatever is done with an arbiter and its guards, its two records describe the same operations, and what
it grants, refuses and frees is told by the holder of the repository. -/
theorem run_consistent (events : List ArbiterEvent) : (idle.run events).Consistent := by
  have coherent : (idle.run events).arbiter.Coherent := run_coherent events Arbiter.idle_coherent
  have distinct : (idle.run events).arbiter.Distinct := run_distinct events Arbiter.idle_distinct
  generalize idle.run events = state at coherent distinct
  constructor
  case running_iff => exact coherent.running_iff
  case occupied_iff => exact coherent.isOccupied_iff
  case sameSet => exact ⟨coherent.mem_running_iff distinct, distinct.running, distinct.occupied⟩
  case single =>
      intro first second firstRuns secondRuns same
      have held := (coherent.running_iff first).mp firstRuns
      rw [same, (coherent.running_iff second).mp secondRuns] at held
      exact (Option.some.inj held).symm
  case granted_iff =>
      intro operation
      rw [Arbiter.isOccupied_eq_false_iff]
      constructor
      · rintro ⟨guard, next, accepted⟩
        obtain ⟨arbiter, reserved, -, -⟩ := reserve_eq_ok_iff.mp accepted
        exact (Arbiter.reserve_eq_ok_iff.mp reserved).2.1
      · intro free
        have reserved := coherent.reserve_eq operation
        rw [free] at reserved
        exact ⟨_, _, reserve_eq_ok_iff.mpr ⟨_, reserved, rfl, rfl⟩⟩
  case already_iff =>
      intro operation
      rw [reserve_eq_error_iff, coherent.reserve_eq]
      cases held : state.arbiter.holder? operation.id.repository with
      | none => simp
      | some holder =>
          by_cases same : holder = operation
          · simp [same]
          · simp [same]
  case busy_iff =>
      intro operation repository holder
      rw [reserve_eq_error_iff, coherent.reserve_eq]
      cases held : state.arbiter.holder? operation.id.repository with
      | none =>
          refine iff_of_false (by simp) ?_
          rintro ⟨rfl, found, -⟩
          rw [held] at found
          cases found
      | some other =>
          by_cases same : other = operation
          · refine iff_of_false (by simp [same]) ?_
            rintro ⟨rfl, found, different⟩
            rw [held] at found
            exact different (same ▸ (Option.some.inj found).symm)
          · simp only [same, if_false, Except.error.injEq, ArbiterError.repositoryBusy.injEq]
            constructor
            · rintro ⟨rfl, rfl⟩
              exact ⟨rfl, held, same⟩
            · rintro ⟨rfl, found, -⟩
              rw [held] at found
              exact ⟨rfl, Option.some.inj found⟩
  case granted =>
      intro operation guard next accepted
      refine ⟨by simp [step, accepted], fun repository => ?_⟩
      obtain ⟨arbiter, reserved, -, rfl⟩ := reserve_eq_ok_iff.mp accepted
      exact Arbiter.holder?_reserve reserved repository
  case refused =>
      intro operation refusal rejected
      simp [step, rejected]
  case released =>
      intro operation running
      have held := (coherent.running_iff operation).mp running
      refine ⟨(Arbiter.release_fst _ _).trans running, ?_, fun repository different => ?_⟩
      · rw [Arbiter.isOccupied_eq_false_iff]
        exact (Arbiter.holder?_release coherent operation _).trans (if_pos held)
      · refine (Arbiter.holder?_release coherent operation repository).trans (if_neg ?_)
        intro found
        exact different (coherent.keyed repository operation found).symm
  case unreleased =>
      intro operation idle
      simp [release, Arbiter.release_of_idle idle]
  case finished =>
      intro guard operation unfinished
      rw [finish_of_unfinished unfinished]
      refine ⟨rfl, fun other again => ?_⟩
      simp [Unfinished, List.getElem?_set] at again
  case unfinished =>
      intro guard unfinished
      have effect := state.step_effect (.finish guard)
      change state.step (.finish guard) = state
      generalize state.step (.finish guard) = next at effect ⊢
      cases effect with
      | finished still => exact absurd still (unfinished _)
      | nothing => rfl

end BackupClient.GuardedArbiter
