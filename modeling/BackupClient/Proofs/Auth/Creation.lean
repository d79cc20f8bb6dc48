import BackupClient.Proofs.Auth.History

/-!
Sessions that are created once.

Before a session is begun there is no record of it, and a watch that asks for it finds none and returns.
So if it is begun once only, then no watch is engaged when this happens.
-/

namespace BackupClient

namespace MonitorEvent

def begins (id : String) : MonitorEvent → Bool
  | .begin _ other => other = id
  | _ => false

theorem ne_begin {id : String} {event : MonitorEvent} (other : event.begins id = false)
    (now : Instant) : event ≠ .begin now id := by
  rintro rfl
  simp [begins] at other

end MonitorEvent

namespace WatchStage

variable {configuration : AuthConfiguration} {id : String} {input : WatchInput}
  {registry : Registry} {stage : WatchStage} {step : WatchStep}

def isOutside : WatchStage → Bool
  | .reading => true
  | .returned _ => true
  | _ => false

theorem isEngaged_of_isOutside (outside : stage.isOutside = true) : stage.isEngaged = false := by
  cases stage <;> first | rfl | cases outside

theorem isOutside_of_step? (absent : registry.find? id = none) (outside : stage.isOutside = true)
    (stepped : stage.step? configuration id input registry = some step) :
    step.stage.isOutside = true := by
  cases stage with
  | reading =>
      obtain rfl := Option.some.inj stepped
      simp only [read, Registry.get?, absent]
      rfl
  | returned status => cases stepped
  | _ => cases outside

end WatchStage

namespace Monitor

variable {configuration : AuthConfiguration} {events : List MonitorEvent} {number : Nat}
  {id : String} {monitor : Monitor} {watch : Watch}

/-- No session is begun twice under an id. -/
def BegunOnce (events : List MonitorEvent) (id : String) : Prop :=
  events.countP (·.begins id) ≤ 1

instance (events : List MonitorEvent) (id : String) : Decidable (BegunOnce events id) :=
  inferInstanceAs (Decidable (_ ≤ 1))

def Unbegun (events : List MonitorEvent) (id : String) : Prop :=
  ∀ event ∈ events, event.begins id = false

theorem BegunOnce.of_append {late : List MonitorEvent} (once : BegunOnce (events ++ late) id) :
    BegunOnce events id := by
  unfold BegunOnce at once ⊢
  rw [List.countP_append] at once
  omega

theorem BegunOnce.unbegun {now : Instant} {late : List MonitorEvent}
    (once : BegunOnce (events ++ .begin now id :: late) id) : Unbegun events id := by
  have begins : (MonitorEvent.begin now id).begins id = true := by simp [MonitorEvent.begins]
  have count : events.countP (·.begins id) = 0 := by
    unfold BegunOnce at once
    rw [List.countP_append, List.countP_cons_of_pos begins] at once
    omega
  intro event member
  simpa using List.countP_eq_zero.mp count event member

theorem run_watch (found : monitor.watches[number]? = some watch) (later : List MonitorEvent) :
    ∃ stage, (monitor.run later).watches[number]? = some ⟨watch.id, stage⟩ := by
  induction later generalizing monitor watch with
  | nil => exact ⟨watch.stage, found⟩
  | cons event later inductionHypothesis =>
      rcases react_watch found event with ⟨_, step, -, -, -, next⟩ | still
      · have goesOn := inductionHypothesis next
        exact goesOn
      · exact inductionHypothesis still

theorem Unbegun.of_append {event : MonitorEvent} (unbegun : Unbegun (events ++ [event]) id) :
    Unbegun events id ∧ event.begins id = false :=
  ⟨fun earlier member => unbegun earlier (List.mem_append_left _ member), unbegun event (by simp)⟩

theorem Unbegun.of_cons {event : MonitorEvent} (unbegun : Unbegun (event :: events) id) :
    event.begins id = false ∧ Unbegun events id :=
  ⟨unbegun event List.mem_cons_self, fun later member => unbegun later (List.mem_cons_of_mem _ member)⟩

theorem run_settled (unique : monitor.registry.Unique) (settled : monitor.registry.Settled id)
    (unbegun : Unbegun events id) : (monitor.run events).registry.Settled id := by
  induction events generalizing monitor with
  | nil => exact settled
  | cons event later inductionHypothesis =>
      obtain ⟨other, unbegunLater⟩ := unbegun.of_cons
      have settledNext := react_settled unique settled (MonitorEvent.ne_begin other)
      exact inductionHypothesis (react_unique unique event) settledNext unbegunLater

/-- No watch of an id is engaged, and there is no record of it. -/
structure Untouched (monitor : Monitor) (id : String) : Prop where
  absent : monitor.registry.find? id = none
  outside : ∀ (number : Nat) (watch : Watch), monitor.watches[number]? = some watch →
    watch.id = id → watch.stage.isOutside = true

theorem Untouched.find?_advance (untouched : monitor.Untouched id) (number : Nat)
    (input : WatchInput) : (monitor.advance number input).registry.find? id = none := by
  rcases monitor.advance_registry number input with same | ⟨watch, step, found, moved, left⟩
  · rw [same, untouched.absent]
  · rw [left]
    by_cases own : watch.id = id
    · have quiet := WatchStage.isEngaged_of_isOutside (untouched.outside number watch found own)
      rw [WatchStage.registry_of_step?_of_not_engaged quiet moved, untouched.absent]
    · rw [WatchStage.find?_of_step?_of_ne (Ne.symm own) moved, untouched.absent]

theorem Untouched.react (untouched : monitor.Untouched id) (unique : monitor.registry.Unique)
    {event : MonitorEvent} (other : event.begins id = false) : (monitor.react event).Untouched id where
  absent := by
    cases event with
    | watch _ => exact untouched.absent
    | sweep now =>
        refine Option.eq_none_iff_forall_not_mem.mpr fun session found => ?_
        have stands := unique.find?_of_sweep found
        rw [untouched.absent] at stands
        cases stands
    | begin now begun =>
        have different : id ≠ begun := fun same => MonitorEvent.ne_begin other now (same ▸ rfl)
        exact (Registry.find?_begin _ now begun id).trans (by rw [if_neg different, untouched.absent])
    | step number input => exact untouched.find?_advance number input
  outside := by
    intro number watch found own
    rcases watch_of_react found with ⟨old, was⟩ | reading
    · rcases react_watch was event with ⟨input, step, -, moved, -, next⟩ | still
      · obtain rfl := Option.some.inj (found.symm.trans next)
        obtain rfl : old.id = id := own
        exact WatchStage.isOutside_of_step? untouched.absent (untouched.outside number old was rfl) moved
      · obtain rfl := Option.some.inj (found.symm.trans still)
        exact untouched.outside number watch was own
    · rw [reading]
      rfl

theorem Unbegun.untouched (unbegun : Unbegun events id) :
    (history configuration events).Untouched id := by
  induction events using List.reverseRecOn with
  | nil => exact ⟨rfl, fun number watch found => by simp [history, run, idle] at found⟩
  | append_singleton events event inductionHypothesis =>
      obtain ⟨before, other⟩ := unbegun.of_append
      rw [history_append]
      exact (inductionHypothesis before).react (history_unique configuration events) other

theorem BegunOnce.unbegun_after {later : List MonitorEvent} {stage : WatchStage}
    (once : BegunOnce (events ++ later) id)
    (found : (history configuration events).watches[number]? = some ⟨id, stage⟩)
    (inside : stage.isOutside = false) : Unbegun later id := by
  intro event member
  by_contra begins
  obtain ⟨before, after, rfl⟩ := List.append_of_mem member
  cases event with
  | begin now begun =>
      obtain rfl : begun = id := by simpa [MonitorEvent.begins] using begins
      rw [← List.append_assoc] at once
      have unbegun : Unbegun events begun := fun event earlier =>
        once.unbegun event (List.mem_append_left _ earlier)
      have outside := unbegun.untouched.outside number _ found rfl
      rw [inside] at outside
      cases outside
  | watch _ => exact begins rfl
  | step _ _ => exact begins rfl
  | sweep _ => exact begins rfl

theorem BegunOnce.spared (once : BegunOnce events id)
    (found : (history configuration events).watches[number]? = some watch) (own : watch.id = id) :
    Spared configuration events number := by
  rintro early now other late rfl was
  have same : other.id = id := by
    obtain ⟨stage, goes⟩ := run_watch was (.begin now other.id :: late)
    rw [← run_append] at goes
    obtain rfl := Option.some.inj (found.symm.trans goes)
    exact own
  rw [same] at once
  exact WatchStage.isEngaged_of_isOutside (once.unbegun.untouched.outside number other was same)

end Monitor

end BackupClient
