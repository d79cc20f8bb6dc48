import BackupClient.Proofs.Engine.Course

/-!
How processes end, told apart by the exit state alone, and the statuses that the endings come to.
-/

namespace BackupClient

def Status.IsRuntimeError (status : Status) : Prop :=
  ∃ error, status = .failed error ∧ error.category = .runtime ∧ error.exitCode = none

theorem Status.rejected_isRuntimeError (reason : String) : (Status.rejected reason).IsRuntimeError :=
  ⟨_, rfl, rfl, rfl⟩

theorem Status.undecodable_isRuntimeError : Status.undecodable.IsRuntimeError :=
  ⟨_, rfl, rfl, rfl⟩

namespace ProcessRun

/-- The process exited with zero or with the code of a warning, and was not cancelled. -/
def Succeeds (run : ProcessRun) : Prop :=
  ∃ code, run.ended = .ok (.exited code) ∧ (code = 0 ∨ (Catalogue.findWarning code).isSome)

/-- The process exited with the code of a warning, and was not cancelled. -/
def Warns (run : ProcessRun) : Prop :=
  ∃ code, run.ended = .ok (.exited code) ∧ (Catalogue.findWarning code).isSome

def IsCancelled (run : ProcessRun) : Prop :=
  ∃ code, run.ended = .ok (.stopped code)

/-- The process did not complete, and this is its error. -/
inductive FailsWith (run : ProcessRun) : EngineError → Prop where
  | exited {code : Int} {entry : Catalogue.Entry} (ended : run.ended = .ok (.exited code))
      (nonzero : code ≠ 0) (unwarned : Catalogue.findWarning code = none)
      (listed : entry = (Catalogue.findError code).getD Catalogue.generic) :
      run.FailsWith ⟨some code, entry.message, entry.category, none⟩
  | bySignal (ended : run.ended = .ok ⟨none, false⟩) :
      run.FailsWith (.atRuntime "engine process terminated by signal")
  | notRun {reason : RunError} (ended : run.ended = .error reason) :
      run.FailsWith ((EngineError.atRuntime "failed to run engine process").because (.run reason))

variable {run : ProcessRun} {error : EngineError}

theorem status_of_isCancelled (cancelled : run.IsCancelled) : run.status = .stopped := by
  obtain ⟨code, ended⟩ := cancelled
  rw [status, ended]
  rfl

theorem status_of_failsWith (failed : run.FailsWith error) : run.status = .failed error := by
  cases failed with
  | exited ended nonzero unwarned listed =>
      rw [status, ended, listed]
      simp [Status.ofRun, Status.ofExit, ExitState.exited, Status.ofExitCode, classify, nonzero,
        unwarned, Status.ofClass]
  | bySignal ended =>
      rw [status, ended]
      rfl
  | notRun ended =>
      rw [status, ended]
      rfl

theorem status_of_succeeds (succeeded : run.Succeeds) :
    run.status.error = none ∧ run.status.cancelled = false ∧
      (run.status.warning.isSome ↔ run.Warns) := by
  obtain ⟨code, ended, clean | warned⟩ := succeeded
  · subst clean
    have silent : ¬ run.Warns := by
      rintro ⟨code, endedAgain, listed⟩
      obtain rfl : 0 = code := by simpa [ExitState.exited] using ended.symm.trans endedAgain
      exact absurd listed (by decide)
    rw [status, ended]
    exact ⟨rfl, rfl, by simpa [Status.ofRun, Status.ofExit, ExitState.exited, Status.ofExitCode,
      classify, Status.ofClass, Status.success] using silent⟩
  · have warns : run.Warns := ⟨code, ended, warned⟩
    have nonzero : code ≠ 0 := by
      rintro rfl
      exact absurd warned (by decide)
    obtain ⟨entry, found⟩ := Option.isSome_iff_exists.mp warned
    rw [status, ended]
    simp [Status.ofRun, Status.ofExit, ExitState.exited, Status.ofExitCode, classify, nonzero,
      found, Status.ofClass, Status.withWarning, warns]

theorem ending_cases (run : ProcessRun) :
    run.Succeeds ∨ run.IsCancelled ∨ ∃ error, run.FailsWith error := by
  cases ended : run.ended with
  | error reason => exact .inr (.inr ⟨_, .notRun ended⟩)
  | ok exit =>
      obtain ⟨code, cancelled⟩ := exit
      cases cancelled with
      | true => exact .inr (.inl ⟨code, ended⟩)
      | false =>
          cases code with
          | none => exact .inr (.inr ⟨_, .bySignal ended⟩)
          | some code =>
              by_cases succeeded : code = 0 ∨ (Catalogue.findWarning code).isSome
              · exact .inl ⟨code, ended, succeeded⟩
              · obtain ⟨nonzero, unwarned⟩ := not_or.mp succeeded
                exact .inr (.inr ⟨_, .exited ended nonzero (by simpa using unwarned) rfl⟩)

theorem isSuccess_status_iff : run.status.isSuccess ↔ run.Succeeds := by
  constructor
  · intro success
    rcases run.ending_cases with succeeded | cancelled | ⟨error, failed⟩
    · exact succeeded
    · simp [status_of_isCancelled cancelled, Status.isSuccess, Status.stopped] at success
    · simp [status_of_failsWith failed, Status.isSuccess, Status.failed] at success
  · intro succeeded
    obtain ⟨noError, notCancelled, -⟩ := status_of_succeeds succeeded
    simp [Status.isSuccess, noError, notCancelled]

theorem Succeeds.not_isCancelled (succeeded : run.Succeeds) : ¬ run.IsCancelled := by
  intro cancelled
  have success := isSuccess_status_iff.mpr succeeded
  rw [status_of_isCancelled cancelled] at success
  simp [Status.isSuccess, Status.stopped] at success

theorem Succeeds.not_failsWith (succeeded : run.Succeeds) : ¬ run.FailsWith error := by
  intro failed
  have success := isSuccess_status_iff.mpr succeeded
  rw [status_of_failsWith failed] at success
  simp [Status.isSuccess, Status.failed] at success

end ProcessRun

end BackupClient
