import BackupClient.Engine.Session
import BackupClient.Proofs.Engine.Course

/-!
Carrying a plan out follows one of its courses.

A plan that is carried out waits now and then, for a process to end or for room in a queue, and goes on
later.  So two points of it are compared: the calls between them, and what may come after each.
-/

namespace BackupClient

open PlanEvent

variable {α : Type}

/-- From one point of a plan to a later one some calls are made, the latest first, and whatever may come
after the later point may come after the earlier one behind processes with these calls. -/
def Leads (earlier : α → List PlanEvent → Prop) (before : List Call)
    (later : α → List PlanEvent → Prop) (after : List Call) : Prop :=
  ∃ begun, after = begun.reverse ++ before ∧
    ∀ value rest, later value rest → ∃ events, earlier value events ∧
      calls events = begun ++ calls rest

namespace Leads

variable {first second third : α → List PlanEvent → Prop} {one two three : List Call}

theorem refl (point : α → List PlanEvent → Prop) (made : List Call) :
    Leads point made point made :=
  ⟨[], rfl, fun _ rest reached => ⟨rest, reached, rfl⟩⟩

theorem trans (early : Leads first one second two) (late : Leads second two third three) :
    Leads first one third three := by
  obtain ⟨begun, rfl, back⟩ := early
  obtain ⟨further, rfl, again⟩ := late
  refine ⟨begun ++ further, by simp, fun value rest reached => ?_⟩
  obtain ⟨middle, reachedMiddle, callsMiddle⟩ := again value rest reached
  obtain ⟨events, reachedFirst, callsFirst⟩ := back value middle reachedMiddle
  exact ⟨events, reachedFirst, by rw [callsFirst, callsMiddle, List.append_assoc]⟩

theorem quiet (back : ∀ value rest, second value rest → ∃ events, first value events ∧
    calls events = calls rest) (made : List Call) : Leads first made second made :=
  ⟨[], rfl, back⟩

theorem single {call : Call}
    (back : ∀ value rest, second value rest → ∃ run : ProcessRun, run.call = call ∧
      first value (.process run :: rest)) (made : List Call) :
    Leads first made second (call :: made) := by
  refine ⟨[call], rfl, fun value rest reached => ?_⟩
  obtain ⟨run, rfl, reachedFirst⟩ := back value rest reached
  exact ⟨_, reachedFirst, rfl⟩

end Leads

namespace Setting

@[simp]
theorem forward_calls (setting : Setting) (forwarder : Option Forwarder) :
    (setting.forward forwarder).2.scene.calls = setting.scene.calls := by
  cases forwarder <;> rfl

@[simp]
theorem start_calls (setting : Setting) (mode : RunMode) (spec : CommandSpec) :
    (setting.start mode spec).2.scene.calls = ⟨mode, spec⟩ :: setting.scene.calls := by
  unfold start
  dsimp only
  split
  · rfl
  · split <;> rfl

@[simp]
theorem openRun_calls (setting : Setting) (spec : CommandSpec) :
    (setting.openRun spec).2.2.scene.calls = ⟨.buffered, spec⟩ :: setting.scene.calls := by
  have started := start_calls setting .buffered spec
  unfold openRun
  split <;> rename_i equality <;> rw [equality] at started
  · exact started
  · exact started
  · split <;> exact started

@[simp]
theorem openStream_calls (setting : Setting) (spec : CommandSpec) (consumer : Consumer) :
    (setting.openStream spec consumer).2.2.2.scene.calls =
      ⟨.streaming, spec⟩ :: setting.scene.calls := by
  have started := start_calls setting .streaming spec
  unfold openStream
  split <;> rename_i equality <;> rw [equality] at started
  · exact started
  · exact started
  · dsimp only
    split <;> exact started

end Setting

theorem Verb.exists_course (verb : Verb α) : ∃ value events, verb.Course value events := by
  induction verb with
  | done value => exact ⟨value, [], .done⟩
  | note notice next inductionHypothesis =>
      obtain ⟨value, events, course⟩ := inductionHypothesis
      exact ⟨value, events, .note course⟩
  | makeDirectories path next inductionHypothesis =>
      obtain ⟨value, events, course⟩ := inductionHypothesis (.ok ())
      exact ⟨value, _, .makeDirectories _ course⟩
  | inspect path next inductionHypothesis =>
      obtain ⟨value, events, course⟩ := inductionHypothesis (.ok .directory)
      exact ⟨value, events, .inspect _ course⟩
  | run spec next inductionHypothesis =>
      obtain ⟨value, events, course⟩ := inductionHypothesis (.ok .stopped)
      exact ⟨value, _, .run _ course⟩
  | stream spec consumer next inductionHypothesis =>
      obtain ⟨value, events, course⟩ := inductionHypothesis (.ok (.stopped none)) []
      exact ⟨value, _, .stream _ _ course⟩

/-- What may still come of an activity, the process that it waits for left out. -/
def Activity.Rest : Activity α → α → List PlanEvent → Prop
  | .finished other, value, rest => value = other ∧ rest = []
  | .hanging _ next, value, rest => ∃ result, (next result).Course value rest
  | .streaming _ _ _ records next, value, rest =>
      ∃ result, (next result records).Course value rest

theorem Activity.rest_of_value? {activity : Activity α} {value : α}
    (ended : activity.value? = some value) : activity.Rest value [] := by
  cases activity with
  | finished other => exact ⟨(Option.some.inj ended).symm, rfl⟩
  | hanging response next => simp [value?] at ended
  | streaming response result forwarder records next => simp [value?] at ended

theorem Activity.exists_rest (activity : Activity α) : ∃ value rest, activity.Rest value rest := by
  cases activity with
  | finished value => exact ⟨value, [], rfl, rfl⟩
  | hanging response next =>
      obtain ⟨value, events, course⟩ := (next (.ok .stopped)).exists_course
      exact ⟨value, events, _, course⟩
  | streaming response ended forwarder records next =>
      obtain ⟨value, events, course⟩ := (next (.ok (.stopped none)) records).exists_course
      exact ⟨value, events, _, course⟩

/-- A process whose lines are handed on has ended and all is forwarded, or the activity goes on waiting. -/
theorem Activity.streaming_leads {response : Response} {forwarder : Option Forwarder}
    {records : List LogRecord} {next : Except RunError ExitState → List LogRecord → Verb α}
    (advances : ∀ result (setting : Setting),
      Leads (fun value => (next result records).Course value) setting.scene.calls
        ((next result records).advance setting).1.Rest
        ((next result records).advance setting).2.scene.calls)
    (ended : Option (Except RunError ExitState)) {setting : Setting} {made : List Call}
    (kept : setting.scene.calls = made) :
    let ending : Activity α × Setting :=
      match ended with
      | some result =>
          if forwarded forwarder then (next result records).advance setting
          else (.streaming response ended forwarder records next, setting)
      | none => (.streaming response none forwarder records next, setting)
    Leads (fun value rest => ∃ result, (next result records).Course value rest) made
      ending.1.Rest ending.2.scene.calls := by
  intro ending
  subst kept
  cases ended with
  | none => exact .refl _ _
  | some result =>
      by_cases done : forwarded forwarder
      · have equality : ending = (next result records).advance setting := if_pos done
        rw [equality]
        refine Leads.trans (.quiet ?_ _) (advances result setting)
        exact fun value rest course => ⟨rest, ⟨result, course⟩, rfl⟩
      · have equality : ending = (.streaming response (some result) forwarder records next, setting) :=
          if_neg done
        rw [equality]
        exact .refl _ _

theorem Verb.advance_leads (verb : Verb α) (setting : Setting) :
    Leads (fun value => verb.Course value) setting.scene.calls
      (verb.advance setting).1.Rest (verb.advance setting).2.scene.calls := by
  induction verb generalizing setting with
  | done value =>
      refine .quiet ?_ _
      rintro other rest ⟨rfl, rfl⟩
      exact ⟨[], .done, rfl⟩
  | note notice next inductionHypothesis =>
      refine Leads.trans (.quiet ?_ _) (inductionHypothesis (setting.say [notice]))
      exact fun value rest course => ⟨rest, .note course, rfl⟩
  | makeDirectories path next inductionHypothesis =>
      have back (result : Except Files.FileError Unit) :
          Leads (fun value => (Verb.makeDirectories path next).Course value) setting.scene.calls
            (fun value => (next result).Course value) setting.scene.calls :=
        .quiet (fun value rest course =>
          ⟨.directory path result :: rest, .makeDirectories result course, rfl⟩) _
      unfold advance
      split
      · exact (back _).trans (inductionHypothesis _ _)
      · exact (back _).trans (inductionHypothesis _ _)
  | inspect path next inductionHypothesis =>
      refine Leads.trans (.quiet ?_ _) (inductionHypothesis _ setting)
      exact fun value rest course => ⟨rest, .inspect _ course, rfl⟩
  | run spec next inductionHypothesis =>
      have opened := setting.openRun_calls spec
      unfold advance
      split <;> rename_i equality <;> rw [equality] at opened
      · refine Leads.trans ?_ (inductionHypothesis _ _)
        rw [opened]
        refine .single (fun value rest course => ?_) _
        exact ⟨.ofOutput spec _, rfl, .run _ course⟩
      · rw [opened]
        refine .single ?_ _
        rintro value rest ⟨result, course⟩
        exact ⟨.ofOutput spec result, rfl, .run result course⟩
  | stream spec consumer next inductionHypothesis =>
      have opened := setting.openStream_calls spec consumer
      simp only [advance]
      refine Leads.trans (.single ?_ _) (Activity.streaming_leads
        (fun result => inductionHypothesis result _) _ ((Setting.forward_calls _ _).trans opened))
      rintro value rest ⟨result, course⟩
      exact ⟨.ofStream spec result, rfl, .stream result _ course⟩

theorem Activity.resume_leads (activity : Activity α) (setting : Setting) :
    Leads activity.Rest setting.scene.calls
      (activity.resume setting).1.Rest (activity.resume setting).2.scene.calls := by
  cases activity with
  | finished value => exact .refl _ _
  | hanging response next =>
      simp only [resume]
      split
      · refine Leads.trans (.quiet ?_ _) (Verb.advance_leads (next response.output) _)
        exact fun value rest course => ⟨rest, ⟨_, course⟩, rfl⟩
      · exact .refl _ _
  | streaming response ended forwarder records next =>
      have advances (result : Except RunError ExitState) := (next result records).advance_leads
      cases ended with
      | some result =>
          exact streaming_leads advances (some result) (Setting.forward_calls setting forwarder)
      | none =>
          by_cases cancelled : setting.cancelled
          · simp only [resume, cancelled, if_true]
            exact streaming_leads advances (some _) (Setting.forward_calls _ forwarder)
          · simp only [resume, cancelled]
            exact streaming_leads advances none (Setting.forward_calls setting forwarder)

namespace Watched

theorem read_leads (rounds : Nat) (watched : Watched α) :
    Leads watched.activity.Rest watched.setting.scene.calls
      (watched.read rounds).activity.Rest (watched.read rounds).setting.scene.calls := by
  induction rounds generalizing watched with
  | zero => exact .refl _ _
  | succ rounds inductionHypothesis =>
      rw [read]
      split
      · dsimp only
        split
        · exact .refl _ _
        · refine Leads.trans ?_ (inductionHypothesis _)
          exact Activity.resume_leads _ { watched.setting with channel := _ }
      · exact .refl _ _

theorem moveTo_leads (moment : Nat) (watched : Watched α) :
    Leads watched.activity.Rest watched.setting.scene.calls
      (watched.moveTo moment).activity.Rest (watched.moveTo moment).setting.scene.calls :=
  Activity.resume_leads _ _

theorem run_leads (fuel : Nat) (watched : Watched α) :
    Leads watched.activity.Rest watched.setting.scene.calls
      (watched.run fuel).activity.Rest (watched.run fuel).setting.scene.calls := by
  induction fuel generalizing watched with
  | zero => exact .refl _ _
  | succ fuel inductionHypothesis =>
      rw [run]
      refine (read_leads fuel watched).trans ?_
      split
      · exact .refl _ _
      · split
        · exact (moveTo_leads _ _).trans (inductionHypothesis _)
        · exact .refl _ _

end Watched

namespace Verb

variable {verb : Verb α}

/-- A plan that was carried out to its end has followed one of its courses, and the calls made meanwhile are
those of the course. -/
theorem watch_follows_course {fuel : Nat} {scene : Scene} {cancellation : Cancellation}
    {capacity : Nat} {reader : ProgressReader} {value : α}
    (ended : (verb.watch fuel scene cancellation capacity reader).value = some value) :
    ∃ events, verb.Course value events ∧
      (verb.watch fuel scene cancellation capacity reader).scene.calls =
        (calls events).reverse ++ scene.calls := by
  obtain ⟨begun, made, back⟩ := (verb.advance_leads _).trans (Watched.run_leads fuel ⟨_, _, _, _, _⟩)
  obtain ⟨events, course, callsOfCourse⟩ := back value [] (Activity.rest_of_value? ended)
  rw [show calls [] = [] from rfl, List.append_nil] at callsOfCourse
  exact ⟨events, course, by rw [callsOfCourse]; exact made⟩

/-- A plan that was carried out, to its end or not, has begun one of its courses. -/
theorem watch_begins_course (verb : Verb α) (fuel : Nat) (scene : Scene)
    (cancellation : Cancellation) (capacity : Nat) (reader : ProgressReader) :
    ∃ value events begun, verb.Course value events ∧ begun <+: calls events ∧
      (verb.watch fuel scene cancellation capacity reader).scene.calls =
        begun.reverse ++ scene.calls := by
  obtain ⟨begun, made, back⟩ := (verb.advance_leads _).trans (Watched.run_leads fuel ⟨_, _, _, _, _⟩)
  obtain ⟨value, rest, reached⟩ := Activity.exists_rest _
  obtain ⟨events, course, callsOfCourse⟩ := back value rest reached
  exact ⟨value, events, begun, course, ⟨_, callsOfCourse.symm⟩, made⟩

/-- A plan that is carried out on a host follows one of its courses. -/
theorem execute_follows_course (fuel : Nat) (scene : LiveScene) :
    ∃ events, verb.Course (verb.execute fuel scene).1 events := by
  induction verb generalizing scene with
  | done value => exact ⟨[], .done⟩
  | note notice next inductionHypothesis =>
      obtain ⟨events, course⟩ := inductionHypothesis (scene.say [notice])
      exact ⟨events, .note course⟩
  | makeDirectories path next inductionHypothesis =>
      rw [execute]
      split
      · obtain ⟨events, course⟩ := inductionHypothesis (.ok ()) _
        exact ⟨_, .makeDirectories _ course⟩
      · obtain ⟨events, course⟩ := inductionHypothesis (.error _) scene
        exact ⟨_, .makeDirectories _ course⟩
  | inspect path next inductionHypothesis =>
      obtain ⟨events, course⟩ := inductionHypothesis (scene.setting.tree.inspect path.toList) scene
      exact ⟨events, .inspect _ course⟩
  | run spec next inductionHypothesis =>
      obtain ⟨events, course⟩ := inductionHypothesis _ _
      exact ⟨_, .run _ course⟩
  | stream spec consumer next inductionHypothesis =>
      obtain ⟨events, course⟩ := inductionHypothesis _ _ _
      exact ⟨_, .stream _ _ course⟩

end Verb

end BackupClient
