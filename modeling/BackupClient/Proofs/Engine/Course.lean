import BackupClient.Engine.Live

/-!
The courses that plans may take.

A course of a plan lists the processes that are started and how each of them ends, and whether directories
could be made.  Nothing else is known about the outcomes, so a statement about all courses holds however
processes end.  Whatever carries a plan out follows one of its courses.
-/

namespace BackupClient

/-- A process that was started and has ended, and what was collected of its standard output. -/
structure ProcessRun where
  call : Call
  ended : Except RunError ExitState
  stdout : String

namespace ProcessRun

def ofOutput (spec : CommandSpec) (result : Except RunError CommandOutput) : ProcessRun where
  call := ⟨.buffered, spec⟩
  ended := result.map (·.exit)
  stdout := (result.toOption.map (·.stdout)).getD ""

def ofStream (spec : CommandSpec) (result : Except RunError ExitState) : ProcessRun where
  call := ⟨.streaming, spec⟩
  ended := result
  stdout := ""

def status (run : ProcessRun) : Status :=
  Status.ofRun run.ended

end ProcessRun

/-- What happens in the course of a plan: a directory is made or cannot be made, or a process runs. -/
inductive PlanEvent where
  | directory (path : String) (result : Except Files.FileError Unit)
  | process (run : ProcessRun)

namespace PlanEvent

def run? : PlanEvent → Option ProcessRun
  | .directory _ _ => none
  | .process run => some run

/-- The processes that are started, in order. -/
def runs (events : List PlanEvent) : List ProcessRun :=
  events.filterMap run?

/-- The calls of the processes that are started, in order. -/
def calls (events : List PlanEvent) : List Call :=
  (runs events).map (·.call)

end PlanEvent

namespace Verb

variable {α β : Type}

/-- A plan may take this course and end with this result. -/
inductive Course (value : α) : Verb α → List PlanEvent → Prop where
  | done : Course value (.done value) []
  | note {notice next events} : Course value next events → Course value (.note notice next) events
  | makeDirectories {path next events} (result : Except Files.FileError Unit) :
      Course value (next result) events →
      Course value (.makeDirectories path next) (.directory path result :: events)
  | inspect {path next events} (result : Except Files.FileError Files.Entry) :
      Course value (next result) events → Course value (.inspect path next) events
  | run {spec next events} (result : Except RunError CommandOutput) :
      Course value (next result) events →
      Course value (.run spec next) (.process (.ofOutput spec result) :: events)
  | stream {spec consumer next events} (result : Except RunError ExitState)
      (records : List LogRecord) : Course value (next result records) events →
      Course value (.stream spec consumer next) (.process (.ofStream spec result) :: events)

variable {value : α} {verb : Verb α} {events : List PlanEvent}

@[simp]
theorem course_pure_iff {other : α} :
    (pure other : Verb α).Course value events ↔ value = other ∧ events = [] := by
  constructor
  · rintro ⟨⟩
    exact ⟨rfl, rfl⟩
  · rintro ⟨rfl, rfl⟩
    exact .done

theorem Course.bind {after : α → Verb β} {result : β} {later : List PlanEvent}
    (first : verb.Course value events) (second : (after value).Course result later) :
    (verb >>= after).Course result (events ++ later) := by
  change (verb.bind after).Course result (events ++ later)
  induction first with
  | done => exact second
  | note _ inductionHypothesis => exact .note inductionHypothesis
  | makeDirectories answer _ inductionHypothesis => exact .makeDirectories answer inductionHypothesis
  | inspect answer _ inductionHypothesis => exact .inspect answer inductionHypothesis
  | run answer _ inductionHypothesis => exact .run answer inductionHypothesis
  | stream answer records _ inductionHypothesis => exact .stream answer records inductionHypothesis

theorem Course.of_bind {after : α → Verb β} {result : β}
    (course : (verb >>= after).Course result events) :
    ∃ value early late, verb.Course value early ∧ (after value).Course result late ∧
      events = early ++ late := by
  change (verb.bind after).Course result events at course
  induction verb generalizing events with
  | done value => exact ⟨value, [], events, .done, course, rfl⟩
  | note notice next inductionHypothesis =>
      cases course with
      | note rest =>
          obtain ⟨value, early, late, first, second, rfl⟩ := inductionHypothesis rest
          exact ⟨value, early, late, .note first, second, rfl⟩
  | makeDirectories path next inductionHypothesis =>
      cases course with
      | makeDirectories answer rest =>
          obtain ⟨value, early, late, first, second, rfl⟩ := inductionHypothesis answer rest
          exact ⟨value, _ :: early, late, .makeDirectories answer first, second, rfl⟩
  | inspect path next inductionHypothesis =>
      cases course with
      | inspect answer rest =>
          obtain ⟨value, early, late, first, second, rfl⟩ := inductionHypothesis answer rest
          exact ⟨value, early, late, .inspect answer first, second, rfl⟩
  | run spec next inductionHypothesis =>
      cases course with
      | run answer rest =>
          obtain ⟨value, early, late, first, second, rfl⟩ := inductionHypothesis answer rest
          exact ⟨value, _ :: early, late, .run answer first, second, rfl⟩
  | stream spec consumer next inductionHypothesis =>
      cases course with
      | stream answer records rest =>
          obtain ⟨value, early, late, first, second, rfl⟩ :=
            inductionHypothesis answer records rest
          exact ⟨value, _ :: early, late, .stream answer records first, second, rfl⟩

@[simp]
theorem course_bind_iff {after : α → Verb β} {result : β} :
    (verb >>= after).Course result events ↔
      ∃ value early late, verb.Course value early ∧ (after value).Course result late ∧
        events = early ++ late := by
  refine ⟨Course.of_bind, ?_⟩
  rintro ⟨value, early, late, first, second, rfl⟩
  exact first.bind second

/-! ### The courses of the parts that plans are made of -/

@[simp]
theorem course_say_iff {notice : Notice} {said : Unit} :
    (say notice).Course said events ↔ events = [] := by
  constructor
  · intro course
    cases course with
    | note rest => exact (course_pure_iff.mp rest).2
  · rintro rfl
    exact .note .done

@[simp]
theorem course_sayAll_iff {notices : List Notice} {said : Unit} :
    (sayAll notices).Course said events ↔ events = [] := by
  induction notices generalizing events with
  | nil => simp [sayAll]
  | cons notice notices inductionHypothesis => simp [sayAll, inductionHypothesis]

@[simp]
theorem course_ensureDirectory_iff {path : String} {result : Except Files.FileError Unit} :
    (ensureDirectory path).Course result events ↔ events = [.directory path result] := by
  constructor
  · intro course
    cases course with
    | makeDirectories answer rest =>
        obtain ⟨rfl, rfl⟩ := course_pure_iff.mp rest
        rfl
  · rintro rfl
    exact .makeDirectories result .done

@[simp]
theorem course_look_iff {path : String} {result : Except Files.FileError Files.Entry} :
    (look path).Course result events ↔ events = [] := by
  constructor
  · intro course
    cases course with
    | inspect answer rest => exact (course_pure_iff.mp rest).2
  · rintro rfl
    exact .inspect result .done

@[simp]
theorem course_collect_iff {spec : CommandSpec} {result : Except RunError CommandOutput} :
    (collect spec).Course result events ↔ events = [.process (.ofOutput spec result)] := by
  constructor
  · intro course
    cases course with
    | run answer rest =>
        obtain ⟨rfl, rfl⟩ := course_pure_iff.mp rest
        rfl
  · rintro rfl
    exact .run result .done

@[simp]
theorem course_follow_iff {spec : CommandSpec} {consumer : Consumer}
    {result : Except RunError ExitState × List LogRecord} :
    (follow spec consumer).Course result events ↔
      events = [.process (.ofStream spec result.1)] := by
  constructor
  · intro course
    cases course with
    | stream answer records rest =>
        obtain ⟨rfl, rfl⟩ := course_pure_iff.mp rest
        rfl
  · rintro rfl
    exact .stream result.1 result.2 .done

@[simp]
theorem course_buffered_iff {spec : CommandSpec} {answer : Status × Option CommandOutput} :
    (buffered spec).Course answer events ↔
      ∃ result, events = [.process (.ofOutput spec result)] ∧
        answer = ((ProcessRun.ofOutput spec result).status, result.toOption) := by
  simp only [buffered, course_bind_iff, course_collect_iff]
  constructor
  · rintro ⟨result, _, late, rfl, rest, rfl⟩
    cases result with
    | ok output =>
        obtain ⟨rfl, rfl⟩ := course_pure_iff.mp rest
        exact ⟨.ok output, rfl, rfl⟩
    | error error =>
        obtain ⟨rfl, rfl⟩ := course_pure_iff.mp rest
        exact ⟨.error error, rfl, rfl⟩
  · rintro ⟨result, rfl, rfl⟩
    refine ⟨result, _, [], rfl, ?_, rfl⟩
    cases result with
    | ok output => exact .done
    | error error => exact .done

@[simp]
theorem course_plain_iff {spec : CommandSpec} {status : Status} :
    (plain spec).Course status events ↔
      ∃ result, events = [.process (.ofOutput spec result)] ∧
        status = (ProcessRun.ofOutput spec result).status := by
  simp only [plain, course_bind_iff, course_buffered_iff, course_pure_iff]
  constructor
  · rintro ⟨_, _, _, ⟨result, rfl, rfl⟩, ⟨rfl, rfl⟩, rfl⟩
    exact ⟨result, rfl, rfl⟩
  · rintro ⟨result, rfl, rfl⟩
    exact ⟨_, _, [], ⟨result, rfl, rfl⟩, ⟨rfl, rfl⟩, rfl⟩

@[simp]
theorem course_thenRun_iff {first status : Status} {second : Verb Status} :
    (thenRun first second).Course status events ↔
      (first.isSuccess = true ∧ ∃ later, second.Course later events ∧
        status = if later.isSuccess then first else later) ∨
      (first.isSuccess = false ∧ status = first ∧ events = []) := by
  cases succeeded : first.isSuccess with
  | false => simp [thenRun, succeeded]
  | true =>
      simp only [thenRun, succeeded, if_true, course_bind_iff, course_pure_iff, true_and,
        Bool.true_eq_false, false_and, or_false]
      constructor
      · rintro ⟨later, early, _, course, ⟨rfl, rfl⟩, rfl⟩
        exact ⟨later, by simpa using course, rfl⟩
      · rintro ⟨later, course, rfl⟩
        exact ⟨later, events, [], course, ⟨rfl, rfl⟩, by simp⟩

end Verb

end BackupClient
