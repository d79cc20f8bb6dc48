import BackupClient.Jobs.Arbiter
import BackupClient.Proofs.Keyed

/-!
What reserving and releasing do to the two records of an arbiter.

The operations that run and the holders of repositories agree with each other in every state that is
reached, so that it is enough to look at the holder of a repository.
-/

namespace BackupClient.Arbiter

/-- An operation runs just if it is the holder of its own repository, and holders stand only at their own
repositories. -/
structure Coherent (arbiter : Arbiter) : Prop where
  running_iff : ∀ operation,
    arbiter.isRunning operation = true ↔ arbiter.holder? operation.id.repository = some operation
  keyed : ∀ repository operation,
    arbiter.holder? repository = some operation → operation.id.repository = repository

@[simp]
theorem holder?_idle (repository : Int) : idle.holder? repository = none := rfl

@[simp]
theorem isRunning_idle (operation : Operation) : idle.isRunning operation = false := rfl

theorem idle_coherent : idle.Coherent :=
  ⟨by simp, by simp⟩

/-- A reservation is granted just if the operation does not run and nobody holds its repository. -/
theorem reserve_eq_ok_iff {arbiter next : Arbiter} {operation : Operation} :
    arbiter.reserve operation = .ok next ↔
      arbiter.isRunning operation = false ∧ arbiter.holder? operation.id.repository = none ∧
        next = ⟨operation :: arbiter.running,
          (operation.id.repository, operation) :: arbiter.occupied⟩ := by
  unfold reserve
  cases running : arbiter.isRunning operation with
  | true => simp
  | false =>
      cases held : arbiter.holder? operation.id.repository with
      | none => simp [eq_comm]
      | some holder => simp

theorem isRunning_reserve {arbiter next : Arbiter} {operation : Operation}
    (reserved : arbiter.reserve operation = .ok next) (other : Operation) :
    next.isRunning other = true ↔ other = operation ∨ arbiter.isRunning other = true := by
  obtain ⟨-, -, rfl⟩ := reserve_eq_ok_iff.mp reserved
  simp [isRunning]

theorem holder?_reserve {arbiter next : Arbiter} {operation : Operation}
    (reserved : arbiter.reserve operation = .ok next) (repository : Int) :
    next.holder? repository =
      if repository = operation.id.repository then some operation
      else arbiter.holder? repository := by
  obtain ⟨-, -, rfl⟩ := reserve_eq_ok_iff.mp reserved
  exact Keyed.find?_cons arbiter.occupied operation.id.repository repository operation

theorem isRunning_release {arbiter : Arbiter} {operation other : Operation} :
    (arbiter.release operation).2.isRunning other = true ↔
      other ≠ operation ∧ arbiter.isRunning other = true := by
  unfold release
  split
  case isTrue running =>
      simp only [isRunning, List.contains_iff_mem, List.mem_filter, decide_eq_true_eq]
      exact and_comm
  case isFalse idle =>
      refine ⟨fun otherRuns => ⟨?_, otherRuns⟩, And.right⟩
      rintro rfl
      exact idle otherRuns

theorem holder?_release {arbiter : Arbiter} (coherent : arbiter.Coherent) (operation : Operation)
    (repository : Int) :
    (arbiter.release operation).2.holder? repository =
      if arbiter.holder? repository = some operation then none
      else arbiter.holder? repository := by
  by_cases held : arbiter.holder? operation.id.repository = some operation
  · have running := (coherent.running_iff operation).mpr held
    have freed : (arbiter.release operation).2.holder? repository =
        if repository = operation.id.repository then none else arbiter.holder? repository := by
      simp only [release, running, held, if_true]
      exact Keyed.find?_filter_ne arbiter.occupied operation.id.repository repository
    rw [freed]
    by_cases same : repository = operation.id.repository
    · simp [same, held]
    · have notHeld : arbiter.holder? repository ≠ some operation := fun found =>
        same (coherent.keyed repository operation found).symm
      simp [same, notHeld]
  · have idle : arbiter.isRunning operation = false :=
      Bool.eq_false_iff.mpr fun running => held ((coherent.running_iff operation).mp running)
    have notHeld : arbiter.holder? repository ≠ some operation := fun found =>
      held (coherent.keyed repository operation found ▸ found)
    simp [release, idle, notHeld]

theorem Coherent.reserve {arbiter next : Arbiter} (coherent : arbiter.Coherent)
    {operation : Operation} (reserved : arbiter.reserve operation = .ok next) : next.Coherent := by
  obtain ⟨idle, free, -⟩ := reserve_eq_ok_iff.mp reserved
  constructor
  · intro other
    rw [isRunning_reserve reserved, holder?_reserve reserved, coherent.running_iff]
    by_cases same : other.id.repository = operation.id.repository
    · -- The repository was free, so the new operation alone runs on it.
      simp [same, free, eq_comm]
    · have different : other ≠ operation := fun equality => same (by rw [equality])
      simp [same, different]
  · intro repository other found
    rw [holder?_reserve reserved] at found
    split at found
    case isTrue same =>
        obtain rfl := Option.some.inj found
        exact same.symm
    case isFalse => exact coherent.keyed repository other found

theorem Coherent.release {arbiter : Arbiter} (coherent : arbiter.Coherent)
    (operation : Operation) : (arbiter.release operation).2.Coherent := by
  constructor
  · intro other
    rw [isRunning_release, holder?_release coherent, coherent.running_iff]
    by_cases same : other = operation
    · subst same
      simp
    · constructor
      · rintro ⟨-, held⟩
        rw [held, if_neg (fun equality => same (Option.some.inj equality))]
      · intro held
        split at held
        · cases held
        · exact ⟨same, held⟩
  · intro repository other found
    rw [holder?_release coherent] at found
    split at found
    · cases found
    · exact coherent.keyed repository other found

end BackupClient.Arbiter
