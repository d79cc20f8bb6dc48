import BackupClient.Proofs.Engine.CommandMap
import BackupClient.Proofs.Engine.Course

/-!
Plans performed in a world whose processes do not look at their environments.

Nothing else is known about the world: what a process writes and how it ends may depend on its command line
and on all that happened before.
-/

namespace BackupClient

/-- How a process went that hands its lines on: its end, its lines, and what the forwarding of its progress
had to say. -/
structure Streamed where
  ended : Except RunError ExitState
  lines : List String
  remarks : List Notice

/-- What a plan meets: files, processes and the reader of its progress.  A process is known by its program
and its arguments. -/
structure World (σ : Type) where
  makeDirectories : String → σ → Except Files.FileError Unit × σ
  inspect : String → σ → Except Files.FileError Files.Entry × σ
  run : String → List String → σ → Except RunError CommandOutput × σ
  stream : String → List String → σ → Streamed × σ

/-- The result of a plan that was performed, with the calls and the notices it made, in order. -/
structure Performance (α : Type) where
  value : α
  calls : List Call
  notices : List Notice

namespace Performance

variable {α : Type}

def preceded (performance : Performance α) (calls : List Call) (notices : List Notice) :
    Performance α :=
  ⟨performance.value, calls ++ performance.calls, notices ++ performance.notices⟩

def mapCommands (change : CommandSpec → CommandSpec) (performance : Performance α) :
    Performance α :=
  { performance with calls := performance.calls.map (·.mapCommand change) }

@[simp]
theorem mapCommands_preceded (change : CommandSpec → CommandSpec) (performance : Performance α)
    (calls : List Call) (notices : List Notice) :
    (performance.preceded calls notices).mapCommands change =
      (performance.mapCommands change).preceded (calls.map (·.mapCommand change)) notices := by
  simp [preceded, mapCommands]

end Performance

namespace Verb

variable {σ α : Type}

def perform (world : World σ) : Verb α → σ → Performance α
  | .done value, _ => ⟨value, [], []⟩
  | .note notice next, state => (next.perform world state).preceded [] [notice]
  | .makeDirectories path next, state =>
      let (result, state) := world.makeDirectories path state
      (next result).perform world state
  | .inspect path next, state =>
      let (result, state) := world.inspect path state
      (next result).perform world state
  | .run spec next, state =>
      let (result, state) := world.run spec.program spec.arguments state
      ((next result).perform world state).preceded [⟨.buffered, spec⟩]
        (Traced.starting spec :: Traced.ran result)
  | .stream spec consumer next, state =>
      let (streamed, state) := world.stream spec.program spec.arguments state
      let records := Log.streamedRecords streamed.lines
      ((next streamed.ended records).perform world state).preceded [⟨.streaming, spec⟩]
        (Traced.starting spec :: records.filterMap consumer.notice? ++ streamed.remarks ++
          Traced.streamed streamed.ended)

/-- A plan whose commands are changed is performed as the plan itself, but for the commands in its calls. -/
theorem mapCommands_perform {change : CommandSpec → CommandSpec}
    (keeps : CommandSpec.KeepsLines change) (world : World σ) (verb : Verb α) (state : σ) :
    (verb.mapCommands change).perform world state =
      (verb.perform world state).mapCommands change := by
  induction verb generalizing state with
  | done value => rfl
  | note notice next inductionHypothesis =>
      simp [mapCommands, perform, inductionHypothesis]
  | makeDirectories path next inductionHypothesis => exact inductionHypothesis _ _
  | inspect path next inductionHypothesis => exact inductionHypothesis _ _
  | run spec next inductionHypothesis =>
      simp [mapCommands, perform, inductionHypothesis, keeps.program, keeps.arguments,
        keeps.starting_eq, Call.mapCommand]
  | stream spec consumer next inductionHypothesis =>
      simp [mapCommands, perform, inductionHypothesis, keeps.program, keeps.arguments,
        keeps.starting_eq, Call.mapCommand]

/-- A plan that is performed follows one of its courses. -/
theorem perform_follows_course (world : World σ) (verb : Verb α) (state : σ) :
    ∃ events, verb.Course (verb.perform world state).value events ∧
      (verb.perform world state).calls = PlanEvent.calls events := by
  induction verb generalizing state with
  | done value => exact ⟨[], .done, rfl⟩
  | note notice next inductionHypothesis =>
      obtain ⟨events, course, made⟩ := inductionHypothesis state
      exact ⟨events, .note course, made⟩
  | makeDirectories path next inductionHypothesis =>
      obtain ⟨events, course, made⟩ := inductionHypothesis (world.makeDirectories path state).1
        (world.makeDirectories path state).2
      exact ⟨_, .makeDirectories _ course, made⟩
  | inspect path next inductionHypothesis =>
      obtain ⟨events, course, made⟩ := inductionHypothesis (world.inspect path state).1
        (world.inspect path state).2
      exact ⟨events, .inspect _ course, made⟩
  | run spec next inductionHypothesis =>
      let answer := world.run spec.program spec.arguments state
      obtain ⟨events, course, made⟩ := inductionHypothesis answer.1 answer.2
      exact ⟨_, .run _ course, congrArg (_ :: ·) made⟩
  | stream spec consumer next inductionHypothesis =>
      let answer := world.stream spec.program spec.arguments state
      obtain ⟨events, course, made⟩ := inductionHypothesis answer.1.ended
        (Log.streamedRecords answer.1.lines) answer.2
      exact ⟨_, .stream _ _ course, congrArg (_ :: ·) made⟩

end Verb

end BackupClient
