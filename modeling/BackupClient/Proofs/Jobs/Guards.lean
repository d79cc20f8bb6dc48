import BackupClient.Proofs.Jobs.Arbiter

/-!
How long the reservation of a guard stands.

A reservation ends with a release by name or with any unfinished guard for the same operation.  After a
release by name the same operation may be reserved anew, and then the older guard, when it is dropped,
ends a reservation that is not its own.  The main result says that this is the only way in which a
reservation ends before its guard does.
-/

namespace BackupClient.GuardedArbiter

/-- An operation runs and is recorded as the holder of its repository. -/
structure Stands (state : GuardedArbiter) (operation : Operation) : Prop where
  running : state.arbiter.isRunning operation = true
  occupied : state.arbiter.isOccupied operation.id.repository = true
  held : state.arbiter.holder? operation.id.repository = some operation

/-- A guard for an operation was granted and neither released nor dropped. -/
def Unfinished (state : GuardedArbiter) (guard : Nat) (operation : Operation) : Prop :=
  state.guards[guard]? = some ⟨operation, false⟩

instance (state : GuardedArbiter) (guard : Nat) (operation : Operation) :
    Decidable (state.Unfinished guard operation) :=
  inferInstanceAs (Decidable (state.guards[guard]? = some ⟨operation, false⟩))

/-- An event ends the reservation of an operation that stands. -/
def Ends (state : GuardedArbiter) (operation : Operation) : ArbiterEvent → Prop
  | .reserve _ => False
  | .release other => other = operation
  | .finish guard => state.Unfinished guard operation

theorem stands_iff_held {state : GuardedArbiter} (coherent : state.arbiter.Coherent)
    {operation : Operation} :
    state.Stands operation ↔
      state.arbiter.holder? operation.id.repository = some operation :=
  ⟨Stands.held, fun held =>
    ⟨(coherent.running_iff operation).mpr held, by simp [Arbiter.isOccupied, held], held⟩⟩

/-! ### One event -/

theorem reserve_eq_ok_iff {state next : GuardedArbiter} {operation : Operation} {guard : Nat} :
    state.reserve operation = .ok (guard, next) ↔
      ∃ arbiter, state.arbiter.reserve operation = .ok arbiter ∧ guard = state.guards.length ∧
        next = ⟨arbiter, state.guards ++ [⟨operation, false⟩]⟩ := by
  unfold reserve
  cases reserved : state.arbiter.reserve operation with
  | error refusal => simp [Except.map]
  | ok arbiter => simp [Except.map, eq_comm]

inductive Effect (state : GuardedArbiter) : ArbiterEvent → GuardedArbiter → Prop where
  | granted {operation arbiter} : state.arbiter.reserve operation = .ok arbiter →
      Effect state (.reserve operation) ⟨arbiter, state.guards ++ [⟨operation, false⟩]⟩
  | refused {operation} : Effect state (.reserve operation) state
  | named {operation} :
      Effect state (.release operation) ⟨(state.arbiter.release operation).2, state.guards⟩
  | finished {guard operation} : state.Unfinished guard operation →
      Effect state (.finish guard)
        ⟨(state.arbiter.release operation).2, state.guards.set guard ⟨operation, true⟩⟩
  | nothing {guard} : (∀ operation, ¬ state.Unfinished guard operation) →
      Effect state (.finish guard) state

theorem step_effect (state : GuardedArbiter) (event : ArbiterEvent) :
    state.Effect event (state.step event) := by
  cases event with
  | reserve operation =>
      cases reserved : state.arbiter.reserve operation with
      | error refusal =>
          simp only [step, reserve, reserved, Except.map]
          exact .refused
      | ok arbiter =>
          simp only [step, reserve, reserved, Except.map]
          exact .granted reserved
  | release operation => exact .named
  | finish guard =>
      cases found : state.guards[guard]? with
      | none =>
          simp only [step, finish, found]
          exact .nothing fun operation unfinished => by simp [Unfinished, found] at unfinished
      | some reservation =>
          obtain ⟨operation, released⟩ := reservation
          cases released with
          | false =>
              simp only [step, finish, found, Reservation.finish, Bool.false_eq_true, if_false]
              exact .finished found
          | true =>
              have unchanged : state.guards.set guard ⟨operation, true⟩ = state.guards := by
                obtain ⟨inside, same⟩ := List.getElem?_eq_some_iff.mp found
                rw [← same, List.set_getElem_self]
              simp only [step, finish, found, Reservation.finish, if_true, unchanged]
              exact .nothing fun other unfinished => by simp [Unfinished, found] at unfinished

theorem step_coherent {state : GuardedArbiter} (coherent : state.arbiter.Coherent)
    (event : ArbiterEvent) : (state.step event).arbiter.Coherent := by
  have effect := state.step_effect event
  generalize state.step event = next at effect ⊢
  cases effect with
  | granted reserved => exact coherent.reserve reserved
  | refused => exact coherent
  | named => exact coherent.release _
  | finished => exact coherent.release _
  | nothing => exact coherent

/-- A reservation that stands is kept by every event that does not end it, and by no other. -/
theorem held_step_iff {state : GuardedArbiter} (coherent : state.arbiter.Coherent)
    {operation : Operation}
    (held : state.arbiter.holder? operation.id.repository = some operation)
    (event : ArbiterEvent) :
    (state.step event).arbiter.holder? operation.id.repository = some operation ↔
      ¬ state.Ends operation event := by
  have effect := state.step_effect event
  generalize state.step event = next at effect ⊢
  cases effect with
  | @granted other arbiter reserved =>
      -- The repository is held, so the one that is reserved is another.
      obtain ⟨-, free, -⟩ := Arbiter.reserve_eq_ok_iff.mp reserved
      have different : operation.id.repository ≠ other.id.repository := fun same => by
        rw [← same, held] at free
        cases free
      rw [Arbiter.holder?_reserve reserved, if_neg different]
      exact iff_of_true held id
  | refused => exact iff_of_true held id
  | @named other =>
      rw [Arbiter.holder?_release coherent, held]
      simp [Ends, eq_comm]
  | @finished guard other unfinished =>
      rw [Arbiter.holder?_release coherent, held]
      have owner : state.Unfinished guard operation ↔ other = operation := by
        have found : state.guards[guard]? = some ⟨other, false⟩ := unfinished
        simp [Unfinished, found]
      simp [Ends, owner, eq_comm]
  | nothing finished => exact iff_of_true held (finished operation)

/-- A guard that is granted is unfinished, and the older guards are as they were. -/
theorem unfinished_granted_iff {state : GuardedArbiter} {arbiter : Arbiter}
    {operation other : Operation} {guard : Nat} :
    Unfinished ⟨arbiter, state.guards ++ [⟨other, false⟩]⟩ guard operation ↔
      state.Unfinished guard operation ∨ guard = state.guards.length ∧ other = operation := by
  unfold Unfinished
  rw [Keyed.getElem?_concat]
  split
  case isTrue same =>
      subst same
      simp
  case isFalse different => simp [different]

/-- While a reservation stands no guard for its operation is granted, and a guard that is finished is not
unfinished again. -/
theorem unfinished_step_iff {state : GuardedArbiter} {operation : Operation}
    (held : state.arbiter.holder? operation.id.repository = some operation)
    (event : ArbiterEvent) (guard : Nat) :
    (state.step event).Unfinished guard operation ↔
      state.Unfinished guard operation ∧ event ≠ .finish guard := by
  have effect := state.step_effect event
  generalize state.step event = next at effect ⊢
  cases effect with
  | @granted other arbiter reserved =>
      obtain ⟨-, free, -⟩ := Arbiter.reserve_eq_ok_iff.mp reserved
      have different : other ≠ operation := fun same => by
        rw [same, held] at free
        cases free
      simp [unfinished_granted_iff, different]
  | refused => simp
  | named => simp [Unfinished]
  | @finished other _ unfinished =>
      by_cases same : other = guard
      · subst same
        simp [Unfinished, List.getElem?_set]
      · simp [Unfinished, same]
  | @nothing other finished =>
      refine ⟨fun unfinished => ⟨unfinished, ?_⟩, And.left⟩
      rintro ⟨⟩
      exact finished operation unfinished

/-! ### Many events -/

theorem run_coherent (events : List ArbiterEvent) {state : GuardedArbiter}
    (coherent : state.arbiter.Coherent) : (state.run events).arbiter.Coherent := by
  induction events generalizing state with
  | nil => exact coherent
  | cons event events inductionHypothesis => exact inductionHypothesis (step_coherent coherent event)

/-- A reservation stands throughout just if it is not released by name and none of the guards for its
operation that are unfinished by now is finished. -/
theorem held_throughout_iff (events : List ArbiterEvent) {state : GuardedArbiter}
    (coherent : state.arbiter.Coherent) {operation : Operation}
    (held : state.arbiter.holder? operation.id.repository = some operation) :
    (∀ soFar, soFar <+: events →
        (state.run soFar).arbiter.holder? operation.id.repository = some operation) ↔
      .release operation ∉ events ∧
        ∀ guard, state.Unfinished guard operation → .finish guard ∉ events := by
  induction events generalizing state with
  | nil => simpa [run] using held
  | cons event events inductionHypothesis =>
      by_cases ends : state.Ends operation event
      · refine iff_of_false (fun throughout => ?_) (fun spared => ?_)
        · -- The event ends the reservation, so it does not stand after it.
          have after := throughout [event] (by simp)
          exact (held_step_iff coherent held event).mp after ends
        · cases event with
          | reserve other => exact ends
          | release other =>
              obtain rfl : other = operation := ends
              exact spared.1 (by simp)
          | finish guard => exact spared.2 guard ends (by simp)
      · have heldNext := (held_step_iff coherent held event).mpr ends
        have rest := inductionHypothesis (step_coherent coherent event) heldNext
        have throughout :
            (∀ soFar, soFar <+: event :: events →
              (state.run soFar).arbiter.holder? operation.id.repository = some operation) ↔
            ∀ soFar, soFar <+: events →
              ((state.step event).run soFar).arbiter.holder? operation.id.repository =
                some operation := by
          constructor
          · intro all soFar initial
            exact all (event :: soFar) ((List.prefix_cons_inj event).mpr initial)
          · intro all soFar initial
            rcases List.prefix_cons_iff.mp initial with rfl | ⟨later, rfl, rest⟩
            · exact held
            · exact all later rest
        rw [throughout, rest]
        have named : event ≠ .release operation := fun same => by
          subst same
          exact ends rfl
        have spared (guard : Nat) (unfinished : state.Unfinished guard operation) :
            event ≠ .finish guard := fun same => by
          subst same
          exact ends unfinished
        simp only [unfinished_step_iff held, List.mem_cons, not_or, named.symm, not_false_eq_true,
          true_and]
        constructor
        · rintro ⟨quiet, all⟩
          exact ⟨quiet, fun guard unfinished =>
            ⟨(spared guard unfinished).symm, all guard ⟨unfinished, spared guard unfinished⟩⟩⟩
        · rintro ⟨quiet, all⟩
          exact ⟨quiet, fun guard unfinished => (all guard unfinished.1).2⟩

/-- Only one guard for an operation is unfinished, and its reservation stands. -/
def Owned (state : GuardedArbiter) (operation : Operation) : Prop :=
  ∀ guard, state.Unfinished guard operation →
    state.arbiter.holder? operation.id.repository = some operation ∧
      ∀ other, state.Unfinished other operation → other = guard

theorem step_owned {state : GuardedArbiter} (coherent : state.arbiter.Coherent)
    {operation : Operation} (owned : state.Owned operation) {event : ArbiterEvent}
    (unnamed : event ≠ .release operation) : (state.step event).Owned operation := by
  by_cases held : state.arbiter.holder? operation.id.repository = some operation
  · intro guard unfinished
    rw [unfinished_step_iff held] at unfinished
    refine ⟨(held_step_iff coherent held event).mpr fun ends => ?_, fun other otherUnfinished => ?_⟩
    · cases event with
      | reserve other => exact ends
      | release other => exact unnamed (congrArg ArbiterEvent.release ends)
      | finish other =>
          have same := (owned guard unfinished.1).2 other ends
          exact unfinished.2 (congrArg ArbiterEvent.finish same)
    · rw [unfinished_step_iff held] at otherUnfinished
      exact (owned guard unfinished.1).2 other otherUnfinished.1
  · -- No guard is unfinished before, so only one that is granted now can be.
    have finished (guard : Nat) : ¬ state.Unfinished guard operation := fun unfinished =>
      held (owned guard unfinished).1
    have effect := state.step_effect event
    generalize state.step event = next at effect ⊢
    cases effect with
    | @granted other arbiter reserved =>
        intro guard unfinished
        simp only [unfinished_granted_iff, finished, false_or] at unfinished ⊢
        obtain ⟨rfl, rfl⟩ := unfinished
        exact ⟨by simp [Arbiter.holder?_reserve reserved], fun second found => found.1⟩
    | refused => exact owned
    | named => exact fun guard unfinished => absurd unfinished (finished guard)
    | @finished ended other _ =>
        intro guard unfinished
        by_cases same : ended = guard
        · subst same
          simp [Unfinished, List.getElem?_set] at unfinished
        · simp only [Unfinished, ne_eq, same, not_false_eq_true, List.getElem?_set_ne] at unfinished
          exact absurd unfinished (finished guard)
    | nothing => exact owned

/-- Without a release by name, only the guard of a reservation that stands is unfinished. -/
theorem run_owned {operation : Operation} (events : List ArbiterEvent) {state : GuardedArbiter}
    (coherent : state.arbiter.Coherent) (owned : state.Owned operation)
    (unnamed : .release operation ∉ events) : (state.run events).Owned operation := by
  induction events generalizing state with
  | nil => exact owned
  | cons event events inductionHypothesis =>
      simp only [List.mem_cons, not_or] at unnamed
      exact inductionHypothesis (step_coherent coherent event)
        (step_owned coherent owned (Ne.symm unnamed.1)) unnamed.2

/-- The reservation of a guard that is neither finished nor released by name stands throughout just if no
older guard for the same operation, left unfinished when it was granted, is finished.  Then no other guard
for its repository is granted.  An older guard is left unfinished only by a release by name. -/
theorem live_guard_stands_iff {before after : List ArbiterEvent} {operation : Operation}
    {guard : Nat} {granted : GuardedArbiter}
    (accepted : (idle.run before).reserve operation = .ok (guard, granted))
    (live : .finish guard ∉ after) (unnamed : .release operation ∉ after) :
    ((∀ soFar, soFar <+: after → (granted.run soFar).Stands operation) ↔
      ∀ older, (idle.run before).Unfinished older operation → .finish older ∉ after) ∧
    ((∀ older, (idle.run before).Unfinished older operation → .finish older ∉ after) →
      ∀ soFar other second next, soFar <+: after →
        (granted.run soFar).reserve other = .ok (second, next) →
          other.id.repository ≠ operation.id.repository) ∧
    (.release operation ∉ before → ∀ older, ¬ (idle.run before).Unfinished older operation) := by
  obtain ⟨arbiter, reserved, rfl, rfl⟩ := reserve_eq_ok_iff.mp accepted
  have coherent : (idle.run before).arbiter.Coherent :=
    run_coherent before Arbiter.idle_coherent
  let granted : GuardedArbiter := ⟨arbiter, (idle.run before).guards ++ [⟨operation, false⟩]⟩
  have coherentNext : granted.arbiter.Coherent := coherent.reserve reserved
  have held : granted.arbiter.holder? operation.id.repository = some operation := by
    simp [granted, Arbiter.holder?_reserve reserved]
  have stands (soFar : List ArbiterEvent) :
      (granted.run soFar).Stands operation ↔
        (granted.run soFar).arbiter.holder? operation.id.repository = some operation :=
    stands_iff_held (run_coherent soFar coherentNext)
  have throughout :
      (∀ soFar, soFar <+: after → (granted.run soFar).Stands operation) ↔
        ∀ older, (idle.run before).Unfinished older operation → .finish older ∉ after := by
    simp only [stands]
    rw [held_throughout_iff after coherentNext held]
    simp only [granted, unfinished_granted_iff]
    constructor
    · exact fun spared older unfinished => spared.2 older (.inl unfinished)
    · rintro spared
      refine ⟨unnamed, ?_⟩
      rintro other (unfinished | ⟨rfl, -⟩)
      · exact spared other unfinished
      · exact live
  refine ⟨throughout, fun spared soFar other second next initial reservedNext same => ?_, ?_⟩
  · obtain ⟨_, reservedOther, -, -⟩ := reserve_eq_ok_iff.mp reservedNext
    obtain ⟨-, free, -⟩ := Arbiter.reserve_eq_ok_iff.mp reservedOther
    rw [same, (throughout.mpr spared soFar initial).held] at free
    cases free
  · intro unnamedBefore older unfinished
    have owned : idle.Owned operation := fun guard none => by simp [Unfinished, idle] at none
    have holds := (run_owned before Arbiter.idle_coherent owned unnamedBefore older unfinished).1
    obtain ⟨-, free, -⟩ := Arbiter.reserve_eq_ok_iff.mp reserved
    rw [holds] at free
    cases free

/-- A backup that is reserved anew after a release by name stands while its older guard is kept. -/
theorem backup_reserved_anew_stands :
    let backup : Operation := ⟨.backup, ⟨1, 1⟩⟩
    let before : List ArbiterEvent := [.reserve backup, .release backup]
    let after : List ArbiterEvent := [.reserve ⟨.prune, ⟨2, 1⟩⟩]
    let granted : GuardedArbiter :=
      ⟨⟨[backup], [(1, backup)]⟩, [⟨backup, false⟩, ⟨backup, false⟩]⟩
    (idle.run before).reserve backup = .ok (1, granted) ∧ .finish 1 ∉ after ∧
      .release backup ∉ after ∧ ∀ soFar, soFar <+: after → (granted.run soFar).Stands backup := by
  intro backup before after granted
  have accepted : (idle.run before).reserve backup = .ok (1, granted) := by rfl
  have live : .finish 1 ∉ after := by decide
  have unnamed : .release backup ∉ after := by decide
  refine ⟨accepted, live, unnamed, (live_guard_stands_iff accepted live unnamed).1.mpr ?_⟩
  intro older _
  simp [after]

/-- The guard of a reservation that was released by name ends, when it is dropped, the reservation of a
later guard, and then a second operation is let in to the same repository. -/
theorem late_drop_ends_reservation :
    let backup : Operation := ⟨.backup, ⟨1, 1⟩⟩
    let prune : Operation := ⟨.prune, ⟨2, 1⟩⟩
    let granted : GuardedArbiter := idle.run [.reserve backup, .release backup, .reserve backup]
    let dropped : GuardedArbiter := granted.run [.finish 0]
    granted.Stands backup ∧ dropped.Unfinished 1 backup ∧ ¬ dropped.Stands backup ∧
      dropped.arbiter.isRunning backup = false ∧ dropped.arbiter.isOccupied 1 = false ∧
      (dropped.step (.reserve prune)).Unfinished 1 backup ∧
      (dropped.step (.reserve prune)).Unfinished 2 prune := by
  intro backup prune granted dropped
  have idleNow : dropped.arbiter.isRunning backup = false := by decide
  refine ⟨⟨by decide, by decide, by decide⟩, by decide, fun stands => ?_, idleNow, by decide,
    by decide, by decide⟩
  simp [stands.running] at idleNow

end BackupClient.GuardedArbiter
