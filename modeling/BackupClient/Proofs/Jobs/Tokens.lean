import BackupClient.Proofs.Jobs.Standing

/-!
Whose tokens are listed: an invariant of the two records that jobs share.

The invariant ties both records to the standings of the jobs.  Every step of a job keeps it, and leaves the
tokens of the other jobs in the list.
-/

namespace BackupClient

def JobStage.isUnfinished : JobStage → Bool
  | .accepted => true
  | .queued => true
  | .working activity => activity.value?.isNone
  | _ => false

namespace JobService

variable {service next : JobService} {number other : Nat} {operation : Operation}

/-- A job for an operation was started and its work has not ended. -/
def Unfinished (service : JobService) (number : Nat) (operation : Operation) : Prop :=
  ∃ task, service.tasks[number]? = some task ∧ task.operation = operation ∧
    task.stage.isUnfinished = true

/-- A repository is held by an operation just if one job holds it. -/
structure Reserved (service : JobService) : Prop where
  coherent : service.arbiter.Coherent
  held_iff : ∀ operation,
    service.arbiter.holder? operation.id.repository = some operation ↔
      ∃ number, service.Holds number operation
  single : ∀ operation first second,
    service.Holds first operation → service.Holds second operation → first = second

/-- The tokens that are listed are those of the jobs between their two changes of the list. -/
structure Sound (service : JobService) : Prop extends service.Reserved where
  listed_iff : ∀ operation number,
    (operation, number) ∈ service.tokens ↔ service.standing? number = some (operation, .listed)

/-! ### Who holds what -/

theorem Unfinished.holds (unfinished : service.Unfinished number operation) :
    service.Holds number operation := by
  obtain ⟨task, found, rfl, stage⟩ := unfinished
  refine ⟨task.stage.standing, ?_, standing?_of_found found⟩
  cases shape : task.stage <;> simp [shape, JobStage.isUnfinished, JobStage.standing] at stage ⊢

theorem Holds.eq {one two : Operation} (first : service.Holds number one)
    (second : service.Holds number two) : one = two := by
  obtain ⟨_, -, stoodFirst⟩ := first
  obtain ⟨_, -, stoodSecond⟩ := second
  rw [stoodFirst] at stoodSecond
  exact congrArg Prod.fst (Option.some.inj stoodSecond)

theorem Sound.holds_of_listed (sound : service.Sound)
    (entry : (operation, number) ∈ service.tokens) : service.Holds number operation :=
  ⟨.listed, by decide, (sound.listed_iff operation number).mp entry⟩

theorem Reserved.held_of_holds (reserved : service.Reserved)
    (holds : service.Holds number operation) :
    service.arbiter.holder? operation.id.repository = some operation :=
  (reserved.held_iff operation).mpr ⟨number, holds⟩

theorem Sound.holds_iff_of_listed (sound : service.Sound)
    (entry : (operation, number) ∈ service.tokens) (other : Nat) :
    service.Holds other operation ↔ other = number := by
  have holds := sound.holds_of_listed entry
  exact ⟨fun otherHolds => sound.single operation other number otherHolds holds,
    fun same => same ▸ holds⟩

theorem Sound.single_body (sound : service.Sound) {one two : Operation}
    (first : service.Unfinished number one) (second : service.Unfinished other two)
    (same : one.id.repository = two.id.repository) : number = other := by
  have held := sound.held_of_holds first.holds
  rw [same, sound.held_of_holds second.holds] at held
  obtain rfl : two = one := Option.some.inj held
  exact sound.single two number other first.holds second.holds

theorem Sound.token?_eq_some_iff (sound : service.Sound) :
    service.token? operation = some number ↔ (operation, number) ∈ service.tokens := by
  refine ⟨Keyed.mem_of_find?, fun entry => ?_⟩
  cases found : service.token? operation with
  | none =>
      simp only [token?, Option.map_eq_none_iff, List.find?_eq_none] at found
      exact absurd (found _ entry) (by simp)
  | some listed =>
      have holds := sound.holds_of_listed (Keyed.mem_of_find? found)
      rw [(sound.holds_iff_of_listed entry listed).mp holds]

theorem holds_of_standings {holder : Operation} {standing : JobStanding}
    (standings : ∀ other, next.standing? other =
      if other = number then some (holder, standing) else service.standing? other)
    (other : Nat) (operation : Operation) :
    next.Holds other operation ↔
      if other = number then standing ≠ .freed ∧ holder = operation
      else service.Holds other operation := by
  unfold Holds
  rw [standings]
  split
  · simp only [Option.some.injEq, Prod.mk.injEq]
    constructor
    · rintro ⟨_, holding, rfl, rfl⟩
      exact ⟨holding, rfl⟩
    · rintro ⟨holding, rfl⟩
      exact ⟨standing, holding, rfl, rfl⟩
  · exact Iff.rfl

theorem holds_of_moved {holder : Operation} {before after : JobStanding}
    (stood : service.standing? number = some (holder, before)) (held : before ≠ .freed)
    (holds : after ≠ .freed)
    (standings : ∀ other, next.standing? other =
      if other = number then some (holder, after) else service.standing? other)
    (other : Nat) (operation : Operation) :
    next.Holds other operation ↔ service.Holds other operation := by
  rw [holds_of_standings standings]
  split
  case isTrue same =>
      subst same
      simp [Holds, stood, held, holds]
  case isFalse => exact Iff.rfl

/-! ### One step -/

theorem Reserved.congr (reserved : service.Reserved) (arbiter : next.arbiter = service.arbiter)
    (holds : ∀ number operation, next.Holds number operation ↔ service.Holds number operation) :
    next.Reserved := by
  constructor
  · rw [arbiter]
    exact reserved.coherent
  · simpa only [arbiter, holds] using reserved.held_iff
  · simpa only [holds] using reserved.single

theorem Sound.kept (sound : service.Sound) (arbiter : next.arbiter = service.arbiter)
    (tokens : next.tokens = service.tokens)
    (standings : ∀ other, next.standing? other = service.standing? other) : next.Sound where
  toReserved := sound.congr arbiter fun _ _ => by simp only [Holds, standings]
  listed_iff := by simpa only [tokens, standings] using sound.listed_iff

theorem Reserved.accepted (reserved : service.Reserved) {holder : Operation}
    (unknown : service.standing? number = none)
    (granted : service.arbiter.reserve holder = .ok next.arbiter)
    (standings : ∀ other, next.standing? other =
      if other = number then some (holder, .accepted) else service.standing? other) :
    next.Reserved := by
  have holds := holds_of_standings standings
  obtain ⟨-, free, -⟩ := Arbiter.reserve_eq_ok_iff.mp granted
  -- The repository was free, so nobody held the operation before.
  have noHolder (other : Nat) : ¬ service.Holds other holder := fun otherHolds => by
    rw [reserved.held_of_holds otherHolds] at free
    cases free
  have newHolder : next.Holds number holder := (holds number holder).mpr (by simp)
  constructor
  · exact reserved.coherent.reserve granted
  · intro operation
    rw [Arbiter.holder?_reserve granted]
    split
    case isTrue same =>
        constructor
        · intro equality
          obtain rfl := Option.some.inj equality
          exact ⟨number, newHolder⟩
        · rintro ⟨other, otherHolds⟩
          rw [holds] at otherHolds
          split at otherHolds
          · rw [otherHolds.2]
          · have held := reserved.held_of_holds otherHolds
            rw [same, free] at held
            cases held
    case isFalse different =>
        have notNew : holder ≠ operation := fun same => different (by rw [same])
        rw [reserved.held_iff]
        refine exists_congr fun other => ?_
        rw [holds]
        split
        case isTrue same =>
            subst same
            simp [Holds, unknown, notNew]
        case isFalse => exact Iff.rfl
  · intro operation first second firstHolds secondHolds
    rw [holds] at firstHolds secondHolds
    split at firstHolds <;> split at secondHolds
    case isTrue.isTrue one two => rw [one, two]
    case isTrue.isFalse =>
        rw [← firstHolds.2] at secondHolds
        exact absurd secondHolds (noHolder second)
    case isFalse.isTrue =>
        rw [← secondHolds.2] at firstHolds
        exact absurd firstHolds (noHolder first)
    case isFalse.isFalse => exact reserved.single operation first second firstHolds secondHolds

theorem Sound.ne_of_listed (sound : service.Sound) {holder : Operation}
    (holds : service.Holds number holder) (different : other ≠ number)
    (listed : service.standing? other = some (operation, .listed)) : operation ≠ holder := by
  rintro rfl
  exact different (sound.single operation other number ⟨.listed, by decide, listed⟩ holds)

theorem Sound.accepted (sound : service.Sound) {holder : Operation}
    (unknown : service.standing? number = none)
    (granted : service.arbiter.reserve holder = .ok next.arbiter)
    (tokens : next.tokens = service.tokens)
    (standings : ∀ other, next.standing? other =
      if other = number then some (holder, .accepted) else service.standing? other) :
    next.Sound where
  toReserved := sound.toReserved.accepted unknown granted standings
  listed_iff := by
    intro operation other
    rw [tokens, sound.listed_iff, standings]
    split
    case isTrue same =>
        subst same
        simp [unknown]
    case isFalse => exact Iff.rfl

theorem Sound.listed (sound : service.Sound) {holder : Operation}
    (before : service.standing? number = some (holder, .accepted))
    (arbiter : next.arbiter = service.arbiter)
    (tokens : next.tokens = (holder, number) :: service.tokens.filter (·.1 ≠ holder))
    (standings : ∀ other, next.standing? other =
      if other = number then some (holder, .listed) else service.standing? other) :
    next.Sound where
  toReserved := sound.congr arbiter (holds_of_moved before (by decide) (by decide) standings)
  listed_iff := by
    intro operation other
    simp only [tokens, List.mem_cons, List.mem_filter, sound.listed_iff, standings,
      decide_eq_true_eq, Prod.mk.injEq]
    split
    case isTrue same =>
        subst same
        simp [before, eq_comm]
    case isFalse different =>
        have foreign (listed : service.standing? other = some (operation, .listed)) :=
          sound.ne_of_listed ⟨_, by decide, before⟩ different listed
        simp only [different, and_false, false_or]
        exact ⟨And.left, fun listed => ⟨listed, foreign listed⟩⟩

theorem Sound.unlisted (sound : service.Sound) {holder : Operation}
    (before : service.standing? number = some (holder, .listed))
    (arbiter : next.arbiter = service.arbiter)
    (tokens : next.tokens = service.tokens.filter (·.1 ≠ holder))
    (standings : ∀ other, next.standing? other =
      if other = number then some (holder, .unlisted) else service.standing? other) :
    next.Sound where
  toReserved := sound.congr arbiter (holds_of_moved before (by decide) (by decide) standings)
  listed_iff := by
    intro operation other
    simp only [tokens, List.mem_filter, sound.listed_iff, standings, decide_eq_true_eq]
    split
    case isTrue same =>
        subst same
        simp [before, eq_comm]
    case isFalse different =>
        have foreign (listed : service.standing? other = some (operation, .listed)) :=
          sound.ne_of_listed ⟨_, by decide, before⟩ different listed
        exact ⟨And.left, fun listed => ⟨listed, foreign listed⟩⟩

theorem Reserved.released (reserved : service.Reserved) {holder : Operation}
    (holding : service.Holds number holder)
    (arbiter : next.arbiter = (service.arbiter.release holder).2)
    (standings : ∀ other, next.standing? other =
      if other = number then some (holder, .freed) else service.standing? other) :
    next.Reserved := by
  have holds (other : Nat) (operation : Operation) :
      next.Holds other operation ↔ other ≠ number ∧ service.Holds other operation := by
    rw [holds_of_standings standings]
    split
    case isTrue same => simp [same]
    case isFalse different => simp [different]
  constructor
  · rw [arbiter]
    exact reserved.coherent.release holder
  · intro operation
    rw [arbiter, Arbiter.holder?_release reserved.coherent]
    split
    case isTrue held =>
        refine iff_of_false (by simp) ?_
        rintro ⟨other, otherHolds⟩
        obtain ⟨different, otherHeld⟩ := (holds other operation).mp otherHolds
        rw [reserved.held_of_holds otherHeld] at held
        obtain rfl : operation = holder := Option.some.inj held
        exact different (reserved.single operation other number otherHeld holding)
    case isFalse notHeld =>
        -- The job that released it held no operation but this one.
        rw [reserved.held_iff]
        refine exists_congr fun other => ?_
        rw [holds]
        refine ⟨fun otherHolds => ⟨?_, otherHolds⟩, And.right⟩
        rintro rfl
        obtain rfl := otherHolds.eq holding
        exact notHeld (reserved.held_of_holds holding)
  · intro operation first second firstHolds secondHolds
    rw [holds] at firstHolds secondHolds
    exact reserved.single operation first second firstHolds.2 secondHolds.2

theorem Sound.released (sound : service.Sound) {holder : Operation}
    (before : service.standing? number = some (holder, .unlisted))
    (arbiter : next.arbiter = (service.arbiter.release holder).2)
    (tokens : next.tokens = service.tokens)
    (standings : ∀ other, next.standing? other =
      if other = number then some (holder, .freed) else service.standing? other) :
    next.Sound where
  toReserved := sound.toReserved.released ⟨_, by decide, before⟩ arbiter standings
  listed_iff := by
    intro operation other
    rw [tokens, sound.listed_iff, standings]
    split
    case isTrue same =>
        subst same
        simp [before]
    case isFalse => exact Iff.rfl

theorem Sound.change (sound : service.Sound) (change : service.Change number next) :
    next.Sound := by
  cases change with
  | kept arbiter tokens standings => exact sound.kept arbiter tokens standings
  | accepted holder unknown reserved tokens standings =>
      exact sound.accepted unknown reserved tokens standings
  | listed holder before arbiter tokens standings =>
      exact sound.listed before arbiter tokens standings
  | unlisted holder before arbiter tokens standings =>
      exact sound.unlisted before arbiter tokens standings
  | released holder before arbiter tokens standings =>
      exact sound.released before arbiter tokens standings

theorem Sound.token_kept (sound : service.Sound) (change : service.Change number next)
    (entry : (operation, other) ∈ service.tokens) (different : other ≠ number) :
    (operation, other) ∈ next.tokens := by
  have listed := (sound.listed_iff operation other).mp entry
  cases change with
  | kept arbiter tokens standings => rwa [tokens]
  | accepted holder unknown reserved tokens standings => rwa [tokens]
  | listed holder before arbiter tokens standings =>
      have foreign := sound.ne_of_listed ⟨_, by decide, before⟩ different listed
      rw [tokens]
      exact List.mem_cons_of_mem _ (List.mem_filter.mpr ⟨entry, by simpa using foreign⟩)
  | unlisted holder before arbiter tokens standings =>
      have foreign := sound.ne_of_listed ⟨_, by decide, before⟩ different listed
      rw [tokens]
      exact List.mem_filter.mpr ⟨entry, by simpa using foreign⟩
  | released holder before arbiter tokens standings => rwa [tokens]

end JobService

end BackupClient
