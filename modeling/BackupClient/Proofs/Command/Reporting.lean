import BackupClient.Command.Traced
import BackupClient.Status.Basic
import Mathlib.Logic.Basic
import Mathlib.Tactic.MkIffOfInductiveProp

/-!
What is said about the end of a process, compared with its status.

Both look at the exit code on their own: the notices by ranges, the status by the catalogue.  The main result
says for which endings they agree.  The catalogue of warnings ends at 107, and the range of warnings does not.
-/

namespace BackupClient

theorem Catalogue.findWarning_isSome_iff {code : Int} :
    (findWarning code).isSome ↔ code = 1 ∨ 100 ≤ code ∧ code ≤ 107 := by
  simp [findWarning, warnings]
  omega

namespace Status

theorem ofExitCode_of_listed {code : Int} (listed : (Catalogue.findWarning code).isSome) :
    ∃ warning, ofExitCode code = withWarning warning := by
  have nonzero : code ≠ 0 := by
    rw [Catalogue.findWarning_isSome_iff] at listed
    omega
  obtain ⟨entry, found⟩ := Option.isSome_iff_exists.mp listed
  exact ⟨_, by rw [ofExitCode, classify, if_neg nonzero, found, ofClass]⟩

theorem ofExitCode_of_unlisted {code : Int} (nonzero : code ≠ 0)
    (unlisted : ¬ (Catalogue.findWarning code).isSome) :
    ∃ error, ofExitCode code = failed error := by
  have missing : Catalogue.findWarning code = none := by simpa using unlisted
  exact ⟨_, by rw [ofExitCode, classify, if_neg nonzero, missing, ofClass]⟩

theorem warning_ofExit_of_error {exit : ExitState} (failed : (ofExit exit).error.isSome) :
    (ofExit exit).warning = none := by
  obtain ⟨code, cancelled⟩ := exit
  cases cancelled with
  | true => rfl
  | false =>
      cases code with
      | none => rfl
      | some code =>
          cases kind : classify code with
          | success => simp [ofExit, ofExitCode, kind, ofClass, success]
          | warning warning => simp [ofExit, ofExitCode, kind, ofClass, withWarning] at failed
          | error error => simp [ofExit, ofExitCode, kind, ofClass, Status.failed]

end Status

/-- The process was cancelled, or its code is not beyond those that the catalogue lists. -/
def ExitState.IsCharted (exit : ExitState) : Prop :=
  exit.cancelled = true ∨ ∀ code, exit.code = some code → code ≤ 107

namespace Traced

/-- The notices say the same as a status: a warning, an error, or that all went well or was cancelled. -/
@[mk_iff]
structure Tells (notices : List Notice) (status : Status) : Prop where
  warning : (∃ notice ∈ notices, notice.level = .warn ∧ notice.message = "finished with warning") ↔
    status.warning.isSome
  error : (∃ notice ∈ notices, notice.level = .error) ↔ status.error.isSome
  information : (∃ notice ∈ notices, notice.level = .info) ↔
    status.cancelled = true ∨ status.isSuccess = true ∧ status.warning = none

variable {exit : ExitState} {status : Status}

/-- What is said about the output is for diagnosis only. -/
theorem tells_ran_iff {stdout stderr : String} :
    Tells (ran (.ok ⟨exit, stdout, stderr⟩)) status ↔ Tells (streamed (.ok exit)) status := by
  simp [tells_iff, ran, streamed]

theorem tells_of_listed {code : Int} (listed : code = 1 ∨ 100 ≤ code ∧ code ≤ 107) :
    Tells (streamed (.ok (.exited code))) (.ofExit (.exited code)) := by
  obtain ⟨warning, status⟩ :=
    Status.ofExitCode_of_listed (Catalogue.findWarning_isSome_iff.mpr listed)
  have nonzero : code ≠ 0 := by omega
  have ranged : code = 1 ∨ 100 ≤ code := by omega
  simp [tells_iff, streamed, ended, ExitState.exited, Status.ofExit, status, nonzero, ranged,
    Status.withWarning]

theorem tells_of_unlisted_iff {code : Int} (nonzero : code ≠ 0)
    (unlisted : ¬ (code = 1 ∨ 100 ≤ code ∧ code ≤ 107)) :
    Tells (streamed (.ok (.exited code))) (.ofExit (.exited code)) ↔ code < 100 := by
  obtain ⟨error, status⟩ := Status.ofExitCode_of_unlisted nonzero
    (mt Catalogue.findWarning_isSome_iff.mp unlisted)
  by_cases ranged : 100 ≤ code
  · simp [tells_iff, streamed, ended, ExitState.exited, Status.ofExit, status, nonzero, ranged,
      Status.failed]
  · have other : ¬ (code = 1 ∨ 100 ≤ code) := by omega
    simp [tells_iff, streamed, ended, ExitState.exited, Status.ofExit, status, nonzero, other,
      Status.failed, Status.isSuccess]
    omega

/-- What is said about the end of a process agrees with its status just if the code is charted. -/
theorem tells_streamed_iff : Tells (streamed (.ok exit)) (.ofExit exit) ↔ exit.IsCharted := by
  obtain ⟨code, cancelled⟩ := exit
  cases cancelled with
  | true =>
      simp [tells_iff, streamed, ended, Status.ofExit, Status.stopped, ExitState.IsCharted]
  | false =>
      cases code with
      | none =>
          simp [tells_iff, streamed, ended, Status.ofExit, Status.failed, Status.isSuccess,
            ExitState.IsCharted]
      | some code =>
          have charted : ExitState.IsCharted ⟨some code, false⟩ ↔ code ≤ 107 := by
            simp [ExitState.IsCharted]
          rw [charted]
          by_cases clean : code = 0
          · subst clean
            simp [tells_iff, streamed, ended, Status.ofExit, Status.ofExitCode, classify,
              Status.ofClass, Status.success, Status.isSuccess]
          · by_cases listed : code = 1 ∨ 100 ≤ code ∧ code ≤ 107
            · exact iff_of_true (tells_of_listed listed) (by omega)
            · exact (tells_of_unlisted_iff clean listed).trans (by omega)

/-- A failure is told as a warning just if the code is beyond the catalogue. -/
theorem warns_of_failure_iff :
    (∃ notice ∈ streamed (.ok exit), notice.level = .warn) ∧ (Status.ofExit exit).error.isSome ↔
      ¬ exit.IsCharted := by
  constructor
  · rintro ⟨⟨notice, said, warns⟩, failed⟩ charted
    have told := tells_streamed_iff.mpr charted
    have noWarning := Status.warning_ofExit_of_error failed
    obtain ⟨failure, saidToo, fails⟩ := told.error.mpr failed
    obtain rfl := List.eq_of_mem_singleton said
    obtain rfl := List.eq_of_mem_singleton saidToo
    rw [warns] at fails
    cases fails
  · intro uncharted
    obtain ⟨code, cancelled⟩ := exit
    simp only [ExitState.IsCharted, not_or, not_forall, Bool.not_eq_true] at uncharted
    obtain ⟨rfl, code, rfl, beyond⟩ := uncharted
    have nonzero : code ≠ 0 := by omega
    obtain ⟨error, status⟩ := Status.ofExitCode_of_unlisted nonzero
      (mt Catalogue.findWarning_isSome_iff.mp (by omega))
    have ranged : 100 ≤ code := by omega
    simp [streamed, ended, Status.ofExit, status, nonzero, ranged, Status.failed]

/-- In either mode the notices about the end of a process say the same as its status just if the code is
charted.  Beyond the catalogue a failure is told as a warning. -/
theorem notices_tell_status_iff_charted (exit : ExitState) :
    (Tells (streamed (.ok exit)) (.ofExit exit) ↔ exit.IsCharted) ∧
      (∀ stdout stderr, Tells (ran (.ok ⟨exit, stdout, stderr⟩)) (.ofExit exit) ↔ exit.IsCharted) ∧
      ((∃ notice ∈ streamed (.ok exit), notice.level = .warn) ∧ (Status.ofExit exit).error.isSome ↔
        ¬ exit.IsCharted) :=
  ⟨tells_streamed_iff, fun _ _ => tells_ran_iff.trans tells_streamed_iff, warns_of_failure_iff⟩

/-- The first code beyond the catalogue: a warning is told and the status is an error. -/
theorem uncharted_code_is_told_as_warning :
    ended (.exited 108) = ⟨.warn, "finished with warning", [("exit_code", .int 108)]⟩ ∧
      Status.ofExit (.exited 108) = .failed ⟨some 108, "error", .general, none⟩ ∧
      ¬ Tells (streamed (.ok (.exited 108))) (.ofExit (.exited 108)) := by
  refine ⟨by decide, by decide, fun told => ?_⟩
  have warned := told.warning.mp ⟨ended (.exited 108), List.mem_singleton_self _, by decide⟩
  exact absurd warned (by decide)

end Traced

end BackupClient
