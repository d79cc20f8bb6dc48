import BackupClient.Engine.Client

/-!
What a plan may come to: the processes that it may start and the results that it may have.

Nothing is known about the outcomes of processes, directories and look-ups here, so a statement about
all processes that a plan may start holds however they end.
-/

namespace BackupClient.Verb

variable {α β : Type}

/-- Some course of a plan starts a process. -/
def Starts (spec : CommandSpec) : Verb α → Prop
  | .done _ => False
  | .note _ next => next.Starts spec
  | .makeDirectories _ next => ∃ result, (next result).Starts spec
  | .inspect _ next => ∃ result, (next result).Starts spec
  | .run other next => spec = other ∨ ∃ result, (next result).Starts spec
  | .stream other _ next => spec = other ∨ ∃ result records, (next result records).Starts spec

/-- Some course of a plan ends with a result. -/
def Yields (value : α) : Verb α → Prop
  | .done other => value = other
  | .note _ next => next.Yields value
  | .makeDirectories _ next => ∃ result, (next result).Yields value
  | .inspect _ next => ∃ result, (next result).Yields value
  | .run _ next => ∃ result, (next result).Yields value
  | .stream _ _ next => ∃ result records, (next result records).Yields value

@[simp]
theorem starts_pure (spec : CommandSpec) (value : α) :
    ¬ (pure value : Verb α).Starts spec := id

@[simp]
theorem yields_pure_iff {value other : α} : (pure other : Verb α).Yields value ↔ value = other :=
  Iff.rfl

@[simp]
theorem starts_bind_iff {spec : CommandSpec} {verb : Verb α} {after : α → Verb β} :
    (verb >>= after).Starts spec ↔
      verb.Starts spec ∨ ∃ value, verb.Yields value ∧ (after value).Starts spec := by
  change (verb.bind after).Starts spec ↔ _
  induction verb with
  | done value => simp [bind, Starts, Yields]
  | note notice next inductionHypothesis => simpa [bind, Starts, Yields] using inductionHypothesis
  | makeDirectories path next inductionHypothesis =>
      simp only [bind, Starts, Yields, inductionHypothesis]
      grind
  | inspect path next inductionHypothesis =>
      simp only [bind, Starts, Yields, inductionHypothesis]
      grind
  | run other next inductionHypothesis =>
      simp only [bind, Starts, Yields, inductionHypothesis]
      grind
  | stream other consumer next inductionHypothesis =>
      simp only [bind, Starts, Yields, inductionHypothesis]
      grind

@[simp]
theorem yields_bind_iff {verb : Verb α} {after : α → Verb β} {result : β} :
    (verb >>= after).Yields result ↔ ∃ value, verb.Yields value ∧ (after value).Yields result := by
  change (verb.bind after).Yields result ↔ _
  induction verb with
  | done value => simp [bind, Yields]
  | note notice next inductionHypothesis => simpa [bind, Yields] using inductionHypothesis
  | makeDirectories path next inductionHypothesis =>
      simp only [bind, Yields, inductionHypothesis]
      grind
  | inspect path next inductionHypothesis =>
      simp only [bind, Yields, inductionHypothesis]
      grind
  | run other next inductionHypothesis =>
      simp only [bind, Yields, inductionHypothesis]
      grind
  | stream other consumer next inductionHypothesis =>
      simp only [bind, Yields, inductionHypothesis]
      grind

@[simp]
theorem starts_collect_iff {spec other : CommandSpec} :
    (collect other).Starts spec ↔ spec = other := by
  simp [collect, Starts]

@[simp]
theorem yields_collect (spec : CommandSpec) (result : Except RunError CommandOutput) :
    (collect spec).Yields result := by
  simp [collect, Yields]

@[simp]
theorem starts_follow_iff {spec other : CommandSpec} {consumer : Consumer} :
    (follow other consumer).Starts spec ↔ spec = other := by
  simp [follow, Starts]

@[simp]
theorem yields_follow (spec : CommandSpec) (consumer : Consumer)
    (result : Except RunError ExitState × List LogRecord) :
    (follow spec consumer).Yields result :=
  ⟨result.1, result.2, rfl⟩

@[simp]
theorem starts_say (spec : CommandSpec) (notice : Notice) : ¬ (say notice).Starts spec := id

/-- A run of which the output is collected starts one process. -/
@[simp]
theorem starts_buffered_iff {spec other : CommandSpec} :
    (buffered other).Starts spec ↔ spec = other := by
  simp only [buffered, starts_bind_iff, starts_collect_iff, yields_collect, true_and,
    or_iff_left_iff_imp, forall_exists_index]
  intro result started
  cases result <;> exact absurd started (starts_pure _ _)

/-- A run of which only the status counts starts one process. -/
@[simp]
theorem starts_plain_iff {spec other : CommandSpec} : (plain other).Starts spec ↔ spec = other := by
  simp [plain]

/-- A second run follows only a first one that succeeded. -/
@[simp]
theorem starts_thenRun_iff {spec : CommandSpec} {status : Status} {second : Verb Status} :
    (thenRun status second).Starts spec ↔ status.isSuccess ∧ second.Starts spec := by
  by_cases succeeded : status.isSuccess <;> simp [thenRun, succeeded]

end BackupClient.Verb
