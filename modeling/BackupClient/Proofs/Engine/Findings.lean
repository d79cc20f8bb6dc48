import BackupClient.Proofs.Engine.Hearing
import BackupClient.Proofs.Engine.Requests

/-!
What checking and pruning report about the lines of the engine.

Only messages count.  The findings of a check are its messages that say that something is wrong, and a prune
run sorts the messages that tell of an archive.  The status is decided by how processes end, whatever they
write.
-/

namespace BackupClient

/-! ### The messages among lines -/

def LogRecord.message? : LogRecord → Option LogMessage
  | .logMessage message => some message
  | _ => none

theorem LogRecord.finding?_eq (record : LogRecord) :
    record.finding? = record.message?.filter (·.level.isError) := by
  cases record with
  | logMessage message =>
      cases grave : message.level.isError <;> simp [finding?, message?, Option.filter, grave]
  | _ => rfl

theorem LogRecord.pruneLine?_eq (record : LogRecord) :
    record.pruneLine? = record.message?.bind (PruneLine.parse? ·.text.toList) := by
  cases record <;> rfl

namespace Log

/-- The message that a line carries, unless it cannot be decoded or is a record of another kind. -/
def messageOf? (line : String) : Option LogMessage :=
  (decodeLine line.toList).bind LogRecord.message?

def messages (lines : List String) : List LogMessage :=
  lines.filterMap messageOf?

def findings (lines : List String) : List LogMessage :=
  (messages lines).filter fun message => message.level = .error ∨ message.level = .critical

/-- What the messages, grave or not, say about archives. -/
def verdicts (lines : List String) : List PruneLine :=
  (messages lines).filterMap (PruneLine.parse? ·.text.toList)

theorem messages_eq (lines : List String) :
    messages lines = (streamedRecords lines).filterMap LogRecord.message? := by
  rw [streamedRecords_eq_decodeLines, decodeLines, List.filterMap_filterMap]
  rfl

theorem findings_eq (lines : List String) :
    (streamedRecords lines).filterMap LogRecord.finding? = findings lines := by
  have grave : (fun message : LogMessage =>
      decide (message.level = .error ∨ message.level = .critical)) = (·.level.isError) := by
    funext message
    cases level : message.level <;> rfl
  rw [findings, messages_eq, grave, List.filter_filterMap]
  exact congrArg (List.filterMap · _) (funext LogRecord.finding?_eq)

theorem verdicts_eq (lines : List String) :
    (streamedRecords lines).filterMap LogRecord.pruneLine? = verdicts lines := by
  rw [verdicts, messages_eq, List.filterMap_filterMap]
  exact congrArg (List.filterMap · _) (funext LogRecord.pruneLine?_eq)

/-- Lines with others inserted anywhere that carry no message. -/
inductive Padded : List String → List String → Prop where
  | nil : Padded [] []
  | line {lines padded} (line) : Padded lines padded → Padded (line :: lines) (line :: padded)
  | idle {lines padded line} :
      (∀ message, decodeLine line.toList ≠ some (.logMessage message)) →
      Padded lines padded → Padded lines (line :: padded)

theorem messageOf?_eq_none {line : String}
    (idle : ∀ message, decodeLine line.toList ≠ some (.logMessage message)) :
    messageOf? line = none := by
  unfold messageOf?
  cases decoded : decodeLine line.toList with
  | none => rfl
  | some record =>
      cases record with
      | logMessage message => exact absurd decoded (idle message)
      | _ => rfl

theorem Padded.messages_eq {lines padded : List String} (inserted : Padded lines padded) :
    messages padded = messages lines := by
  induction inserted with
  | nil => rfl
  | line line _ inductionHypothesis =>
      simp only [messages] at inductionHypothesis
      simp only [messages, List.filterMap_cons, inductionHypothesis]
  | idle idle _ inductionHypothesis =>
      simp only [messages] at inductionHypothesis
      simp only [messages, List.filterMap_cons, messageOf?_eq_none idle, inductionHypothesis]

theorem Padded.findings_eq {lines padded : List String} (inserted : Padded lines padded) :
    findings padded = findings lines := by
  rw [findings, findings, inserted.messages_eq]

theorem Padded.verdicts_eq {lines padded : List String} (inserted : Padded lines padded) :
    verdicts padded = verdicts lines := by
  rw [verdicts, verdicts, inserted.messages_eq]

end Log

/-! ### Archives that are pruned and kept -/

/-- What is said about archives is taken apart into the names of those that are pruned and those that are
kept, each once and in its order. -/
inductive PruneLine.Sorts : List PruneLine → List String → List KeptArchive → Prop where
  | nil : Sorts [] [] []
  | pruned {lines names kept} (name) : Sorts lines names kept →
      Sorts (.pruned name :: lines) (name :: names) kept
  | kept {lines names kept} (archive) : Sorts lines names kept →
      Sorts (.kept archive :: lines) names (archive :: kept)

namespace PruneLine

theorem sorts_iff {lines : List PruneLine} {names : List String} {kept : List KeptArchive} :
    Sorts lines names kept ↔ names = lines.filterMap prunedName ∧ kept = lines.filterMap keptOne := by
  constructor
  · intro sorts
    induction sorts with
    | nil => exact ⟨rfl, rfl⟩
    | pruned name _ inductionHypothesis =>
        obtain ⟨rfl, rfl⟩ := inductionHypothesis
        exact ⟨rfl, rfl⟩
    | kept archive _ inductionHypothesis =>
        obtain ⟨rfl, rfl⟩ := inductionHypothesis
        exact ⟨rfl, rfl⟩
  · rintro ⟨rfl, rfl⟩
    induction lines with
    | nil => exact .nil
    | cons line lines inductionHypothesis =>
        cases line with
        | pruned name => exact .pruned name inductionHypothesis
        | kept archive => exact .kept archive inductionHypothesis

end PruneLine

theorem PruneResult.ofRecords_sorts (dryRun : Bool) (lines : List String) :
    PruneLine.Sorts (Log.verdicts lines) (ofRecords dryRun (Log.streamedRecords lines)).pruned
      (ofRecords dryRun (Log.streamedRecords lines)).kept := by
  rw [PruneLine.sorts_iff, ← Log.verdicts_eq]
  exact ⟨rfl, rfl⟩

theorem PruneResult.ofRecords_padded (dryRun : Bool) {lines padded : List String}
    (inserted : Log.Padded lines padded) :
    ofRecords dryRun (Log.streamedRecords padded) = ofRecords dryRun (Log.streamedRecords lines) := by
  unfold ofRecords
  rw [Log.verdicts_eq, Log.verdicts_eq, inserted.verdicts_eq]

/-! ### The two verbs -/

namespace Client

def checkCommand (client : Client) (repository passphrase : String) (mode : CheckMode) : CommandSpec :=
  client.command (client.environment passphrase) ["check", mode.flag, "--log-json", repository]

def pruneCommand (client : Client) (job : PruneJob) : CommandSpec :=
  client.command (client.environment job.passphrase) (pruneArguments job)

def afterCheck (repository : String) (status : Status) (findings : List LogMessage) :
    Verb CheckResult := do
  Verb.sayAll (checkNotices repository findings)
  pure ⟨status, findings⟩

def afterPrune (client : Client) (job : PruneJob) (status : Status) (result : PruneResult) :
    Verb (Status × PruneResult) := do
  Verb.say (pruneNotice job result)
  if job.dryRun then pure (status, result)
  else
    let status ← Verb.thenRun status (client.compact job.repository job.passphrase)
    pure (status, result)

variable {client : Client} {job : PruneJob}

theorem check_eq_stream (repository passphrase : String) (mode : CheckMode) :
    client.check repository passphrase mode =
      .stream (client.checkCommand repository passphrase mode) .findings fun ended records =>
        afterCheck repository (Status.ofRun ended) (records.filterMap LogRecord.finding?) :=
  rfl

theorem prune_eq_stream (ruled : job.rule.isEmpty = false) :
    client.prune job = .stream (client.pruneCommand job) .archives fun ended records =>
      client.afterPrune job (Status.ofRun ended) (PruneResult.ofRecords job.dryRun records) := by
  unfold prune
  rw [ruled]
  rfl

@[simp]
theorem course_afterCheck_iff {repository : String} {status : Status} {findings : List LogMessage}
    {result : CheckResult} {events : List PlanEvent} :
    (afterCheck repository status findings).Course result events ↔
      result = ⟨status, findings⟩ ∧ events = [] := by
  simp [afterCheck]

theorem check_hears (client : Client) (repository passphrase : String) (mode : CheckMode) :
    (client.check repository passphrase mode).Hears (client.checkCommand repository passphrase mode)
      fun ended lines result => result = ⟨Status.ofRun ended, Log.findings lines⟩ := by
  apply Verb.hears_of_courses (check_eq_stream repository passphrase mode)
  · intro records
    rfl
  · intro ended lines result events course
    rw [← Log.findings_eq]
    exact (course_afterCheck_iff.mp course).1

theorem result_of_afterPrune {status : Status} {result : PruneResult}
    {answer : Status × PruneResult} {events : List PlanEvent}
    (course : (client.afterPrune job status result).Course answer events) : answer.2 = result := by
  obtain ⟨_, _, _, -, rest, -⟩ := Verb.Course.of_bind course
  by_cases trial : job.dryRun = true
  · rw [if_pos trial] at rest
    rw [(Verb.course_pure_iff.mp rest).1]
  · rw [if_neg trial] at rest
    obtain ⟨_, -, rfl⟩ := Verb.course_map_iff.mp rest
    rfl

theorem prune_hears (ruled : job.rule.isEmpty = false) :
    (client.prune job).Hears (client.pruneCommand job) fun _ lines answer =>
      answer.2.dryRun = job.dryRun ∧
        PruneLine.Sorts (Log.verdicts lines) answer.2.pruned answer.2.kept := by
  apply Verb.hears_of_courses (prune_eq_stream ruled)
  · intro records
    rfl
  · intro ended lines answer events course
    rw [result_of_afterPrune course]
    exact ⟨rfl, PruneResult.ofRecords_sorts job.dryRun lines⟩

end Client

/-! ### The status -/

/-- The status that is decided by how processes end, one after the other.  The second only counts if it
fails. -/
def Status.ofEnds : List (Except RunError ExitState) → Status
  | [] => rejected "prune requires at least one retention rule"
  | [ended] => ofRun ended
  | first :: second :: _ => if (ofRun second).isSuccess then ofRun first else ofRun second

def PlanEvent.ends (events : List PlanEvent) : List (Except RunError ExitState) :=
  (runs events).map (·.ended)

namespace Client

variable {client : Client} {job : PruneJob} {events : List PlanEvent}

theorem status_of_check {repository passphrase : String} {mode : CheckMode} {result : CheckResult}
    (course : (client.check repository passphrase mode).Course result events) :
    result.status = Status.ofEnds (PlanEvent.ends events) := by
  rw [check_eq_stream] at course
  cases course with
  | stream ended records rest =>
      obtain ⟨rfl, rfl⟩ := course_afterCheck_iff.mp rest
      rfl

theorem status_of_prune {answer : Status × PruneResult}
    (course : (client.prune job).Course answer events) :
    answer.1 = Status.ofEnds (PlanEvent.ends events) := by
  by_cases ruled : job.rule = ⟨0, 0, 0, 0, 0, 0⟩
  · rw [prune, if_pos (PruneRule.isEmpty_iff.mpr ruled)] at course
    obtain ⟨rfl, rfl⟩ := Verb.course_pure_iff.mp course
    rfl
  · obtain ⟨run, -, late, rfl, rest⟩ := Verb.Course.of_prune ruled course
    by_cases trial : job.dryRun = true
    · rw [if_pos trial] at rest
      obtain ⟨stands, rfl⟩ := Verb.course_pure_iff.mp rest
      exact stands
    · rw [if_neg trial] at rest
      rcases Verb.course_thenRun_iff.mp rest with ⟨-, later, second, stands⟩ | ⟨-, stands, rfl⟩
      · obtain ⟨result, rfl, rfl⟩ := Verb.course_plain_iff.mp second
        exact stands
      · exact stands

end Client

/-! ### Worlds that differ in lines -/

/-- Two worlds that answer alike, but for the lines that processes write. -/
structure World.Alike {σ : Type} (related : List String → List String → Prop)
    (first second : World σ) : Prop where
  makeDirectories : first.makeDirectories = second.makeDirectories
  inspect : first.inspect = second.inspect
  run : first.run = second.run
  stream : ∀ program arguments state,
    let one := first.stream program arguments state
    let other := second.stream program arguments state
    one.1.ended = other.1.ended ∧ related one.1.lines other.1.lines ∧ one.2 = other.2

namespace Verb

variable {σ α β : Type}

theorem perform_map (world : World σ) (verb : Verb α) (after : α → β) (state : σ) :
    ((verb >>= fun value => pure (after value)).perform world state).value =
      after (verb.perform world state).value := by
  change ((verb.bind fun value => .done (after value)).perform world state).value = _
  induction verb generalizing state with
  | done value => rfl
  | note notice next inductionHypothesis => exact inductionHypothesis state
  | makeDirectories path next inductionHypothesis => exact inductionHypothesis _ _
  | inspect path next inductionHypothesis => exact inductionHypothesis _ _
  | run spec next inductionHypothesis => exact inductionHypothesis _ _
  | stream spec consumer next inductionHypothesis => exact inductionHypothesis _ _ _

theorem perform_plain (world : World σ) (spec : CommandSpec) (state : σ) :
    ((plain spec).perform world state).value =
      (ProcessRun.ofOutput spec (world.run spec.program spec.arguments state).1).status := by
  rw [plain, perform_map]
  simp only [buffered, collect, Bind.bind, Verb.bind, perform]
  cases (world.run spec.program spec.arguments state).1 <;> rfl

theorem perform_thenRun_plain (world : World σ) (status : Status) (spec : CommandSpec) (state : σ) :
    ((thenRun status (plain spec)).perform world state).value =
      if status.isSuccess then
        let later := (ProcessRun.ofOutput spec (world.run spec.program spec.arguments state).1).status
        if later.isSuccess then status else later
      else status := by
  unfold thenRun
  split
  · rw [perform_map, perform_plain]
  · rfl

end Verb

namespace Client

variable {σ : Type} {client : Client} {job : PruneJob}

theorem perform_afterPrune (world : World σ) (status : Status) (result : PruneResult) (state : σ) :
    ((client.afterPrune job status result).perform world state).value =
      (if job.dryRun then status
        else
          ((Verb.thenRun status (client.compact job.repository job.passphrase)).perform world
            state).value,
        result) := by
  by_cases trial : job.dryRun = true
  · simp only [afterPrune, trial, if_true]
    rfl
  · simp only [afterPrune, trial]
    exact Verb.perform_map world _ (fun status => (status, result)) state

theorem perform_check_alike {related : List String → List String → Prop} {first second : World σ}
    (alike : first.Alike related second) (repository passphrase : String) (mode : CheckMode)
    (state : σ) :
    ((client.check repository passphrase mode).perform first state).value.status =
      ((client.check repository passphrase mode).perform second state).value.status := by
  let spec := client.checkCommand repository passphrase mode
  obtain ⟨ended, -, -⟩ := alike.stream spec.program spec.arguments state
  have one := (client.check_hears repository passphrase mode).performed first state
  have other := (client.check_hears repository passphrase mode).performed second state
  rw [one, other, ended]

theorem perform_prune_alike {related : List String → List String → Prop} {first second : World σ}
    (alike : first.Alike related second) (state : σ) :
    ((client.prune job).perform first state).value.1 =
      ((client.prune job).perform second state).value.1 := by
  cases ruled : job.rule.isEmpty with
  | true =>
      rw [prune, if_pos ruled]
      rfl
  | false =>
      obtain ⟨ended, -, later⟩ := alike.stream (client.pruneCommand job).program
        (client.pruneCommand job).arguments state
      rw [prune_eq_stream ruled]
      simp only [Verb.perform, Performance.preceded, perform_afterPrune, compact,
        Verb.perform_thenRun_plain, alike.run, ended, later]

theorem perform_check_padded {first second : World σ} (alike : first.Alike Log.Padded second)
    (repository passphrase : String) (mode : CheckMode) (state : σ) :
    ((client.check repository passphrase mode).perform first state).value =
      ((client.check repository passphrase mode).perform second state).value := by
  let spec := client.checkCommand repository passphrase mode
  obtain ⟨ended, inserted, -⟩ := alike.stream spec.program spec.arguments state
  have one := (client.check_hears repository passphrase mode).performed first state
  have other := (client.check_hears repository passphrase mode).performed second state
  rw [one, other, ended, inserted.findings_eq]

theorem perform_prune_padded {first second : World σ} (alike : first.Alike Log.Padded second)
    (state : σ) :
    ((client.prune job).perform first state).value =
      ((client.prune job).perform second state).value := by
  refine Prod.ext (perform_prune_alike alike state) ?_
  cases ruled : job.rule.isEmpty with
  | true =>
      rw [prune, if_pos ruled]
      rfl
  | false =>
      obtain ⟨-, inserted, -⟩ := alike.stream (client.pruneCommand job).program
        (client.pruneCommand job).arguments state
      rw [prune_eq_stream ruled]
      simp only [Verb.perform, Performance.preceded, perform_afterPrune,
        PruneResult.ofRecords_padded job.dryRun inserted]

/-- What a client reports about a repository that it checks or prunes: the findings and the archives that
the messages of the engine tell of, and a status that no line has a part in. -/
structure ReportsMessages (client : Client) : Prop where
  findings : ∀ repository passphrase mode,
    (client.check repository passphrase mode).Hears (client.checkCommand repository passphrase mode)
      fun ended lines result => result = ⟨Status.ofRun ended, Log.findings lines⟩
  archives : ∀ job : PruneJob, job.rule.isEmpty = false →
    (client.prune job).Hears (client.pruneCommand job) fun _ lines answer =>
      answer.2.dryRun = job.dryRun ∧
        PruneLine.Sorts (Log.verdicts lines) answer.2.pruned answer.2.kept
  checkStatus : ∀ repository passphrase mode result events,
    (client.check repository passphrase mode).Course result events →
      result.status = Status.ofEnds (PlanEvent.ends events)
  pruneStatus : ∀ job answer events, (client.prune job).Course answer events →
    answer.1 = Status.ofEnds (PlanEvent.ends events)
  sameStatus : ∀ {σ : Type} (first second : World σ) (state : σ), first.Alike (fun _ _ => True) second →
    (∀ repository passphrase mode,
      ((client.check repository passphrase mode).perform first state).value.status =
        ((client.check repository passphrase mode).perform second state).value.status) ∧
    ∀ job, ((client.prune job).perform first state).value.1 =
      ((client.prune job).perform second state).value.1
  sameReport : ∀ {σ : Type} (first second : World σ) (state : σ), first.Alike Log.Padded second →
    (∀ repository passphrase mode,
      ((client.check repository passphrase mode).perform first state).value =
        ((client.check repository passphrase mode).perform second state).value) ∧
    ∀ job, ((client.prune job).perform first state).value =
      ((client.prune job).perform second state).value

theorem reports_what_messages_tell (client : Client) : client.ReportsMessages where
  findings := client.check_hears
  archives := fun _ => prune_hears
  checkStatus := fun _ _ _ _ _ => status_of_check
  pruneStatus := fun _ _ _ => status_of_prune
  sameStatus := fun _ _ state alike =>
    ⟨fun repository passphrase mode => perform_check_alike alike repository passphrase mode state,
      fun _ => perform_prune_alike alike state⟩
  sameReport := fun _ _ state alike =>
    ⟨fun repository passphrase mode => perform_check_padded alike repository passphrase mode state,
      fun _ => perform_prune_padded alike state⟩

/-- A prune run is stopped after two messages, of which one is an error and says that an archive is kept.
Noise and the status of a file stand between them. -/
theorem stopped_prune_reports_archives :
    let client : Client := ⟨Configuration.standard, [], "/run"⟩
    let job : PruneJob := ⟨⟨1, 1⟩, "/r", "hunter2", "home-", ⟨0, 7, 0, 0, 0, 0⟩, false⟩
    let pruned := "\x7b\"type\":\"log_message\",\"levelname\":\"INFO\",\"message\":\"Pruning archive: h1\"\x7d"
    let kept := "\x7b\"type\":\"log_message\",\"levelname\":\"ERROR\",\"message\":\"Keeping archive: h2\"\x7d"
    let status := "\x7b\"type\":\"file_status\",\"status\":\"A\",\"path\":\"/a\"\x7d"
    let world : List String → World Unit := fun lines =>
      { makeDirectories := fun _ _ => (.ok (), ()), inspect := fun _ _ => (.ok .directory, ())
        run := fun _ _ _ => (.ok .stopped, ())
        stream := fun _ _ _ => (⟨.ok (.stopped none), lines, []⟩, ()) }
    job.rule.isEmpty = false ∧
      (world [pruned, kept]).Alike Log.Padded (world ["noise", pruned, status, kept]) ∧
      ((client.prune job).perform (world ["noise", pruned, status, kept]) ()).value =
        (Status.stopped, ⟨false, ["h1"], [⟨"h2", ""⟩]⟩) ∧
      ((client.check "/r" "hunter2" .full).perform (world ["noise", pruned, status, kept]) ()).value =
        ⟨Status.stopped, [⟨none, .error, "", "Keeping archive: h2", none⟩]⟩ := by
  intro client job pruned kept status world
  have ruled : job.rule.isEmpty = false := by decide
  have noise : Log.decodeLine "noise".toList = none := by decide +kernel
  have other : Log.decodeLine status.toList = some (.fileStatus ⟨"A", "/a"⟩) := by decide +kernel
  have inserted : Log.Padded [pruned, kept] ["noise", pruned, status, kept] := by
    refine .idle ?_ (.line pruned (.idle ?_ (.line kept .nil)))
    · intro message decoded
      rw [noise] at decoded
      cases decoded
    · intro message decoded
      rw [other] at decoded
      cases decoded
  have alike : (world [pruned, kept]).Alike Log.Padded (world ["noise", pruned, status, kept]) :=
    ⟨rfl, rfl, rfl, fun _ _ _ => ⟨rfl, inserted, rfl⟩⟩
  have reports := reports_what_messages_tell client
  obtain ⟨sameCheck, samePrune⟩ := reports.sameReport _ _ () alike
  rw [← sameCheck, ← samePrune]
  refine ⟨ruled, alike, ?_, ?_⟩
  · have told : Log.verdicts [pruned, kept] = [.pruned "h1", .kept ⟨"h2", ""⟩] := by decide +kernel
    obtain ⟨trial, sorts⟩ := (reports.archives job ruled).performed (world [pruned, kept]) ()
    have stopped : ((client.prune job).perform (world [pruned, kept]) ()).value.1 = .stopped := rfl
    generalize ((client.prune job).perform (world [pruned, kept]) ()).value = answer at *
    obtain ⟨_, _, _, _⟩ := answer
    obtain ⟨rfl, rfl⟩ := PruneLine.sorts_iff.mp (told ▸ sorts)
    obtain rfl := trial
    obtain rfl := stopped
    rfl
  · rw [(reports.findings "/r" "hunter2" .full).performed (world [pruned, kept]) ()]
    decide +kernel

end Client

end BackupClient
