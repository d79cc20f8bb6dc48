import BackupClient.Proofs.Engine.Following
import BackupClient.Proofs.Engine.Performance
import BackupClient.Proofs.Log.Pipeline

/-!
Plans that begin by following one process.

Whatever carries such a plan out hands the records of the lines that this process wrote to the rest of the
plan, together with how the process ended.  So what holds of all courses of the rest holds of the result,
for these lines and this end.
-/

namespace BackupClient

variable {α : Type}

/-- How a process that is followed ends in a scene, and the lines that it writes.  One that is refused, or
cancelled before it begins, writes none. -/
def Scene.heard (scene : Scene) (spec : CommandSpec) (cancelled : Bool) :
    Except RunError ExitState × List String :=
  let response := (scene.playbook.take spec.verb).1
  match response.refusal? spec with
  | some error => (.error error, [])
  | none => if cancelled then (.ok (.stopped none), []) else (response.ending, response.lines)

/-- The result of a plan answers the end and the lines of the process that it begins with, whatever carries
the plan out. -/
structure Verb.Hears (verb : Verb α) (spec : CommandSpec)
    (Answers : Except RunError ExitState → List String → α → Prop) : Prop where
  performed : ∀ {σ : Type} (world : World σ) (state : σ),
    let streamed := (world.stream spec.program spec.arguments state).1
    Answers streamed.ended streamed.lines (verb.perform world state).value
  watched : ∀ fuel scene cancellation capacity reader value,
    (verb.watch fuel scene cancellation capacity reader).value = some value →
      let heard := scene.heard spec (cancellation = .before)
      Answers heard.1 heard.2 value
  executed : ∀ fuel scene,
    let ended := (scene.runProcess fuel .streaming spec).1
    Answers ended.result ended.lines (verb.execute fuel scene).1

/-! ### Plans that are watched -/

theorem Watched.read_keeps (Keeps : Activity α → Prop)
    (resumes : ∀ activity setting, Keeps activity → Keeps (activity.resume setting).1) (rounds : Nat)
    {watched : Watched α} (kept : Keeps watched.activity) : Keeps (watched.read rounds).activity := by
  induction rounds generalizing watched with
  | zero => exact kept
  | succ rounds inductionHypothesis =>
      rw [read]
      split
      · dsimp only
        split
        · exact kept
        · exact inductionHypothesis (resumes _ _ kept)
      · exact kept

theorem Watched.run_keeps (Keeps : Activity α → Prop)
    (resumes : ∀ activity setting, Keeps activity → Keeps (activity.resume setting).1) (fuel : Nat)
    {watched : Watched α} (kept : Keeps watched.activity) : Keeps (watched.run fuel).activity := by
  induction fuel generalizing watched with
  | zero => exact kept
  | succ fuel inductionHypothesis =>
      rw [run]
      have reading := read_keeps Keeps resumes fuel kept
      split
      · exact reading
      · split
        · exact inductionHypothesis (resumes _ _ reading)
        · exact reading

theorem Verb.watch_keeps (Keeps : Activity α → Prop)
    (resumes : ∀ activity setting, Keeps activity → Keeps (activity.resume setting).1) (fuel : Nat)
    {verb : Verb α} {scene : Scene} {cancellation : Cancellation}
    (begins : ∀ channel, Keeps (verb.advance ⟨scene, cancellation = .before, channel⟩).1)
    (capacity : Nat) (reader : ProgressReader) :
    ∃ activity, Keeps activity ∧
      (verb.watch fuel scene cancellation capacity reader).value = activity.value? :=
  ⟨_, Watched.run_keeps Keeps resumes fuel (begins _), rfl⟩

/-- An activity waits for the end of the process that it follows, or it has come to the rest of its plan. -/
def Activity.Attends (next : Except RunError ExitState → List LogRecord → Verb α)
    (ended : Except RunError ExitState) (records : List LogRecord) (activity : Activity α) : Prop :=
  (∃ response : Response, response.ending = ended ∧
    activity = .streaming response none none records next) ∨
  ∀ value rest, activity.Rest value rest → ∃ events, (next ended records).Course value events

variable {next : Except RunError ExitState → List LogRecord → Verb α}
  {ended : Except RunError ExitState} {records : List LogRecord}

theorem Activity.attends_advance (setting : Setting) :
    Activity.Attends next ended records ((next ended records).advance setting).1 := by
  right
  intro value rest reached
  obtain ⟨_, -, back⟩ := (next ended records).advance_leads setting
  obtain ⟨events, course, -⟩ := back value rest reached
  exact ⟨events, course⟩

theorem Activity.Attends.resume {activity : Activity α} (attends : activity.Attends next ended records)
    (setting : Setting) : (activity.resume setting).1.Attends next ended records := by
  rcases attends with ⟨response, rfl, rfl⟩ | reached
  · by_cases cancelled : setting.cancelled = true
    · simp only [Activity.resume, cancelled, if_true]
      exact attends_advance _
    · simp only [Activity.resume, cancelled]
      exact .inl ⟨response, rfl, rfl⟩
  · right
    intro value rest later
    obtain ⟨_, -, back⟩ := activity.resume_leads setting
    obtain ⟨events, earlier, -⟩ := back value rest later
    exact reached value events earlier

/-- What meets a call is a refusal, the cancellation, or a process that writes and ends as it is heard. -/
theorem Setting.start_heard (setting : Setting) (mode : RunMode) (spec : CommandSpec) :
    setting.scene.heard spec setting.cancelled =
      match (setting.start mode spec).1 with
      | .refused error => (.error error, [])
      | .stopped => (.ok (.stopped none), [])
      | .playing response => (response.ending, response.lines) := by
  unfold Scene.heard start
  dsimp only [Scene.say]
  generalize (setting.scene.playbook.take spec.verb).1.refusal? spec = refusal
  cases refusal with
  | some error => rfl
  | none => cases setting.cancelled <;> rfl

/-- The records of a process that is followed, and its end unless it hangs. -/
theorem Setting.openStream_heard (setting : Setting) (spec : CommandSpec) (consumer : Consumer) :
    let heard := setting.scene.heard spec setting.cancelled
    let opened := setting.openStream spec consumer
    opened.2.2.1 = Log.streamedRecords heard.2 ∧
      (opened.2.1 = some heard.1 ∨ opened.2.1 = none ∧ opened.1.ending = heard.1) := by
  have nothing : Log.streamedRecords [] = [] := Log.streamedRecords_eq_decodeLines []
  have heard := setting.start_heard .streaming spec
  dsimp only
  unfold openStream
  cases begun : setting.start .streaming spec with
  | mk beginning later =>
      rw [begun] at heard
      cases beginning with
      | refused error => simp [heard, nothing]
      | stopped => simp [heard, nothing]
      | playing response =>
          by_cases hangs : response.hangs = true <;> simp [heard, hangs]

/-- Following a process comes to the rest of the plan with the end that is heard, or waits for this end. -/
theorem Verb.advance_stream_attends {spec : CommandSpec} {consumer : Consumer}
    (silent : ∀ records, consumer.forwarder? records = none) (setting : Setting) :
    let heard := setting.scene.heard spec setting.cancelled
    ((Verb.stream spec consumer next).advance setting).1.Attends next heard.1
      (Log.streamedRecords heard.2) := by
  intro heard
  obtain ⟨records, ended⟩ := setting.openStream_heard spec consumer
  simp only [advance, silent, Setting.forward, forwarded, Option.all_none, if_true]
  rw [← records]
  rcases ended with ended | ⟨ended, ending⟩
  · rw [ended]
    exact Activity.attends_advance _
  · rw [ended]
    exact .inl ⟨_, ending, rfl⟩

/-- A plan whose rest has the same answer in all its courses has it, whatever carries the plan out. -/
theorem Verb.hears_of_courses {verb : Verb α} {spec : CommandSpec} {consumer : Consumer}
    {Answers : Except RunError ExitState → List String → α → Prop}
    (begins : verb = .stream spec consumer next)
    (silent : ∀ records, consumer.forwarder? records = none)
    (answers : ∀ ended lines value events,
      (next ended (Log.streamedRecords lines)).Course value events → Answers ended lines value) :
    verb.Hears spec Answers := by
  subst begins
  constructor
  case performed =>
      intro σ world state streamed
      let rest := next streamed.ended (Log.streamedRecords streamed.lines)
      obtain ⟨events, course, -⟩ :=
        rest.perform_follows_course world (world.stream spec.program spec.arguments state).2
      exact answers _ _ _ events course
  case watched =>
      intro fuel scene cancellation capacity reader value ended heard
      obtain ⟨activity, attends, result⟩ := watch_keeps
        (Activity.Attends next heard.1 (Log.streamedRecords heard.2))
        (fun _ setting attends => attends.resume setting) fuel
        (fun channel => advance_stream_attends silent ⟨scene, cancellation = .before, channel⟩)
        capacity reader
      rw [result] at ended
      rcases attends with ⟨response, -, rfl⟩ | reached
      · cases ended
      · obtain ⟨events, course⟩ := reached value [] (Activity.rest_of_value? ended)
        exact answers _ _ _ events course
  case executed =>
      intro fuel scene ended
      let rest := next ended.result (Log.streamedRecords ended.lines)
      obtain ⟨events, course⟩ := rest.execute_follows_course fuel _
      exact answers _ _ _ events course

end BackupClient
