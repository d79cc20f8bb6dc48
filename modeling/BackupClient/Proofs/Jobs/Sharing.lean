import BackupClient.Proofs.Jobs.Guards
import BackupClient.Proofs.Jobs.Traffic

/-!
A service whose arbiter is used beside its jobs.

Others may reserve repositories too, end their guards and release operations by name, in any order with what
the jobs do.  Whatever happens, each step leaves all reservations alone but one.  So an operation that nobody
releases by name has one owner at most, a job or a guard of somebody else, and this owner holds the
repository.
-/

namespace BackupClient

/-- A service in use, and the guards that its arbiter granted to others, the oldest first. -/
structure SharedService where
  traffic : JobTraffic
  guards : List Reservation

/-- What may come next: something about the jobs, or something that others do with the arbiter. -/
inductive SharedEvent where
  | work (event : JobEvent)
  | outside (event : ArbiterEvent)

/-- Who was granted a reservation: a job, or somebody with a guard. -/
inductive Owner where
  | job (number : Nat)
  | guard (number : Nat)
  deriving DecidableEq

namespace SharedService

def service (state : SharedService) : JobService :=
  state.traffic.service

def guarded (state : SharedService) : GuardedArbiter :=
  ⟨state.service.arbiter, state.guards⟩

def withGuarded (state : SharedService) (after : GuardedArbiter) : SharedService :=
  ⟨{ state.traffic with service := { state.service with arbiter := after.arbiter } }, after.guards⟩

def step (state : SharedService) : SharedEvent → SharedService
  | .work event => { state with traffic := state.traffic.step event }
  | .outside event => state.withGuarded (state.guarded.step event)

def run (state : SharedService) (events : List SharedEvent) : SharedService :=
  events.foldl step state

/-- A service at which nothing was started, with an arbiter that nobody has used. -/
def fresh (client : Client) (scene : Scene) (clock : Clock) (outcomes : OutcomeChannel) :
    SharedService :=
  ⟨⟨.fresh client scene clock outcomes, []⟩, []⟩

variable {state next : SharedService}

theorem run_concat (state : SharedService) (events : List SharedEvent) (event : SharedEvent) :
    state.run (events ++ [event]) = (state.run events).step event := by
  simp [run]

/-! ### Owners -/

/-- The reservation that an owner was granted for an operation is not ended by the owner. -/
def Owns (state : SharedService) (operation : Operation) : Owner → Prop
  | .job number => state.service.Holds number operation
  | .guard number => state.guarded.Unfinished number operation

inductive Moves (state : SharedService) (event : SharedEvent) (next : SharedService) : Prop where
  | kept
      (arbiter : next.service.arbiter = state.service.arbiter)
      (owners : ∀ other owner, next.Owns other owner ↔ state.Owns other owner)
  | granted (operation : Operation) (owner : Owner)
      (reserved : state.service.arbiter.reserve operation = .ok next.service.arbiter)
      (owners : ∀ other another, next.Owns other another ↔
        state.Owns other another ∨ other = operation ∧ another = owner)
  | ended (operation : Operation) (owner : Owner)
      (owned : state.Owns operation owner)
      (arbiter : next.service.arbiter = (state.service.arbiter.release operation).2)
      (owners : ∀ other another, next.Owns other another ↔
        state.Owns other another ∧ another ≠ owner)
  | named (operation : Operation)
      (named : event = .outside (.release operation))
      (arbiter : next.service.arbiter = (state.service.arbiter.release operation).2)
      (owners : ∀ other owner, next.Owns other owner ↔ state.Owns other owner)

theorem work_moves (state : SharedService) (event : JobEvent) :
    state.Moves (.work event) (state.step (.work event)) := by
  obtain ⟨number, change, -⟩ := state.traffic.step_change event
  change state.service.Change number (state.step (.work event)).service at change
  cases change with
  | kept arbiter tokens standings =>
      refine .kept arbiter ?_
      rintro other (another | guard)
      · simp only [Owns, JobService.Holds, standings]
      · exact Iff.rfl
  | accepted operation unknown reserved tokens standings =>
      refine .granted operation (.job number) reserved ?_
      rintro other (another | guard)
      · have nobody : ¬ state.service.Holds number other := by
          rintro ⟨standing, -, stood⟩
          rw [unknown] at stood
          cases stood
        simp only [Owns, JobService.holds_of_standings standings, Owner.job.injEq]
        split
        case isTrue same => simp [same, nobody, eq_comm]
        case isFalse different => simp [different]
      · simp [Owns, guarded, GuardedArbiter.Unfinished, step]
  | listed operation before arbiter tokens standings =>
      refine .kept arbiter ?_
      rintro other (another | guard)
      · exact JobService.holds_of_moved before (by decide) (by decide) standings another other
      · exact Iff.rfl
  | unlisted operation before arbiter tokens standings =>
      refine .kept arbiter ?_
      rintro other (another | guard)
      · exact JobService.holds_of_moved before (by decide) (by decide) standings another other
      · exact Iff.rfl
  | released operation before arbiter tokens standings =>
      refine .ended operation (.job number) ⟨.unlisted, by decide, before⟩ arbiter ?_
      rintro other (another | guard)
      · simp only [Owns, JobService.holds_of_standings standings, ne_eq, Owner.job.injEq]
        split
        case isTrue same => simp [same]
        case isFalse different => simp [different]
      · simp [Owns, guarded, GuardedArbiter.Unfinished, step]

theorem outside_moves (state : SharedService) (event : ArbiterEvent) :
    state.Moves (.outside event) (state.step (.outside event)) := by
  have effect := state.guarded.step_effect event
  simp only [step]
  generalize state.guarded.step event = after at effect
  cases effect with
  | @granted operation arbiter reserved =>
      refine .granted operation (.guard state.guards.length) reserved ?_
      rintro other (job | another)
      · simp only [reduceCtorEq, and_false, or_false]
        exact Iff.rfl
      · simp only [Owner.guard.injEq]
        rw [and_comm, @eq_comm _ other]
        exact GuardedArbiter.unfinished_granted_iff
  | refused => exact .kept rfl fun _ _ => Iff.rfl
  | named => exact .named _ rfl rfl fun _ _ => Iff.rfl
  | @finished guard operation unfinished =>
      refine .ended operation (.guard guard) unfinished rfl ?_
      rintro other (job | another)
      · simp only [ne_eq, reduceCtorEq, not_false_eq_true, and_true]
        exact Iff.rfl
      · simp only [Owns, ne_eq, Owner.guard.injEq]
        by_cases same : another = guard
        · simp [same, guarded, withGuarded, GuardedArbiter.Unfinished, List.getElem?_set]
        · simp [same, guarded, withGuarded, GuardedArbiter.Unfinished,
            List.getElem?_set_ne (Ne.symm same)]
  | nothing => exact .kept rfl fun _ _ => Iff.rfl

theorem step_moves (state : SharedService) (event : SharedEvent) :
    state.Moves event (state.step event) := by
  cases event with
  | work event => exact state.work_moves event
  | outside event => exact state.outside_moves event

/-! ### One step -/

theorem step_coherent (coherent : state.service.arbiter.Coherent) (event : SharedEvent) :
    (state.step event).service.arbiter.Coherent := by
  cases state.step_moves event with
  | kept arbiter owners =>
      rw [arbiter]
      exact coherent
  | granted operation owner reserved owners => exact coherent.reserve reserved
  | ended operation owner owned arbiter owners =>
      rw [arbiter]
      exact coherent.release operation
  | named operation named arbiter owners =>
      rw [arbiter]
      exact coherent.release operation

/-- An operation has one owner at most, and its owner holds the repository. -/
def Claimed (state : SharedService) (operation : Operation) : Prop :=
  ∀ owner, state.Owns operation owner →
    state.service.arbiter.holder? operation.id.repository = some operation ∧
      ∀ other, state.Owns operation other → other = owner

theorem step_claimed (coherent : state.service.arbiter.Coherent) {operation : Operation}
    (claimed : state.Claimed operation) {event : SharedEvent}
    (unnamed : event ≠ .outside (.release operation)) : (state.step event).Claimed operation := by
  intro owner owns
  cases state.step_moves event with
  | kept arbiter owners =>
      rw [owners] at owns
      simpa only [arbiter, owners] using claimed owner owns
  | granted granted newest reserved owners =>
      obtain ⟨-, free, -⟩ := Arbiter.reserve_eq_ok_iff.mp reserved
      rw [Arbiter.holder?_reserve reserved]
      rcases (owners operation owner).mp owns with before | ⟨rfl, rfl⟩
      · obtain ⟨held, only⟩ := claimed owner before
        -- The repository is held, so what is granted is an operation on another one.
        have elsewhere : operation.id.repository ≠ granted.id.repository := fun same => by
          rw [← same, held] at free
          cases free
        refine ⟨by rw [if_neg elsewhere, held], fun other ownsToo => ?_⟩
        rcases (owners operation other).mp ownsToo with older | ⟨rfl, -⟩
        · exact only other older
        · exact absurd rfl elsewhere
      · refine ⟨if_pos rfl, fun other ownsToo => ?_⟩
        rcases (owners operation other).mp ownsToo with older | ⟨-, same⟩
        · rw [(claimed other older).1] at free
          cases free
        · exact same
  | ended ended gone owned arbiter owners =>
      obtain ⟨before, stays⟩ := (owners operation owner).mp owns
      obtain ⟨held, only⟩ := claimed owner before
      have another : operation ≠ ended := fun same =>
        stays (only gone (same ▸ owned)).symm
      rw [arbiter, Arbiter.holder?_release coherent, held, if_neg (by simpa using another)]
      exact ⟨rfl, fun other ownsToo => only other ((owners operation other).mp ownsToo).1⟩
  | named released named arbiter owners =>
      obtain ⟨held, only⟩ := claimed owner ((owners operation owner).mp owns)
      have another : operation ≠ released := fun same => unnamed (same ▸ named)
      rw [arbiter, Arbiter.holder?_release coherent, held, if_neg (by simpa using another)]
      exact ⟨rfl, fun other ownsToo => only other ((owners operation other).mp ownsToo)⟩

/-! ### Many steps -/

theorem run_coherent (events : List SharedEvent) (coherent : state.service.arbiter.Coherent) :
    (state.run events).service.arbiter.Coherent := by
  induction events generalizing state with
  | nil => exact coherent
  | cons event events inductionHypothesis => exact inductionHypothesis (step_coherent coherent event)

theorem run_claimed {operation : Operation} (events : List SharedEvent)
    (coherent : state.service.arbiter.Coherent) (claimed : state.Claimed operation)
    (unnamed : .outside (.release operation) ∉ events) : (state.run events).Claimed operation := by
  induction events generalizing state with
  | nil => exact claimed
  | cons event events inductionHypothesis =>
      simp only [List.mem_cons, not_or] at unnamed
      exact inductionHypothesis (step_coherent coherent event)
        (step_claimed coherent claimed (Ne.symm unnamed.1)) unnamed.2

theorem fresh_coherent (client : Client) (scene : Scene) (clock : Clock) (outcomes : OutcomeChannel) :
    (fresh client scene clock outcomes).service.arbiter.Coherent :=
  Arbiter.idle_coherent

theorem fresh_claimed (client : Client) (scene : Scene) (clock : Clock) (outcomes : OutcomeChannel)
    (operation : Operation) : (fresh client scene clock outcomes).Claimed operation := by
  rintro (number | guard) owns
  · obtain ⟨_, -, stood⟩ := owns
    cases stood
  · cases owns

end SharedService

end BackupClient
