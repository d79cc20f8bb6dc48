import BackupClient.Proofs.Engine.Requests

/-!
Warnings of requests that delete archives and then compact the repository.

If both processes succeed, the answer is the status of the deletion.  A warning of the compact is lost
unless the deletion warned as well.
-/

namespace BackupClient

open PlanEvent

namespace Verb

variable {spec : CommandSpec} {status : Status} {events : List PlanEvent}
  {first second : ProcessRun}

theorem Course.status_of_thenRun
    (course : (thenRun first.status (plain spec)).Course status events)
    (ran : runs events = [second]) (succeeds : second.Succeeds) : status = first.status := by
  rcases course_thenRun_iff.mp course with ⟨-, later, compacts, rfl⟩ | ⟨-, rfl, rfl⟩
  · obtain ⟨result, rfl, rfl⟩ := course_plain_iff.mp compacts
    obtain rfl : ProcessRun.ofOutput spec result = second := List.head_eq_of_cons_eq ran
    exact if_pos (ProcessRun.isSuccess_status_iff.mpr succeeds)
  · rfl

end Verb

namespace Request

def DeletesAndCompacts : Request → Prop
  | .prune job => job.rule ≠ ⟨0, 0, 0, 0, 0, 0⟩ ∧ job.dryRun = false
  | .deleteArchives _ _ stem => stem ≠ ""
  | _ => False

variable {client : Client} {request : Request} {events : List PlanEvent} {status : Status}
  {first second : ProcessRun}

theorem status_of_deletion (deletes : request.DeletesAndCompacts)
    (course : (request.verb client).Course status events) (ran : runs events = [first, second])
    (succeeds : second.Succeeds) : status = first.status := by
  cases request with
  | prune job =>
      obtain ⟨ruled, real⟩ := deletes
      obtain ⟨answer, pruned, rfl⟩ := Verb.course_map_iff.mp course
      obtain ⟨run, -, late, rfl, rest⟩ := Verb.Course.of_prune ruled pruned
      obtain ⟨rfl, ranLater⟩ := List.cons.inj ran
      rw [if_neg (by simp [real])] at rest
      exact rest.status_of_thenRun ranLater succeeds
  | deleteArchives repository passphrase stem =>
      obtain ⟨run, -, late, rfl, rest⟩ := Verb.Course.of_deleteArchives deletes course
      obtain ⟨rfl, ranLater⟩ := List.cons.inj ran
      exact rest.status_of_thenRun ranLater succeeds
  | _ => exact deletes.elim

/-- If a deletion and its compact succeed, then the answer is a success with a warning exactly if the
deletion warned.  So no warning is lost exactly if the compact warns only after a deletion that did. -/
theorem keeps_warnings_iff (deletes : request.DeletesAndCompacts)
    (course : (request.verb client).Course status events) (ran : runs events = [first, second])
    (deleted : first.Succeeds) (compacted : second.Succeeds) :
    status.isSuccess = true ∧ (status.warning.isSome = true ↔ first.Warns) ∧
      ((first.Warns ∨ second.Warns → status.warning.isSome = true) ↔
        (second.Warns → first.Warns)) := by
  have answered := status_of_deletion deletes course ran compacted
  have warned : status.warning.isSome = true ↔ first.Warns := by
    rw [answered]
    exact (ProcessRun.status_of_succeeds deleted).2.2
  refine ⟨?_, warned, ?_⟩
  · rw [answered]
    exact ProcessRun.isSuccess_status_iff.mpr deleted
  · rw [warned]
    exact ⟨fun kept compactWarns => kept (.inr compactWarns), fun follows => Or.rec id follows⟩

/-- A warning of the deletion stands when the compact is clean. -/
theorem prune_keeps_warning_of_deletion :
    let client : Client := ⟨Configuration.standard, [], "/run"⟩
    let job : PruneJob := ⟨⟨1, 1⟩, "/r", "hunter2", "home-", ⟨0, 7, 0, 0, 0, 0⟩, false⟩
    let environment := client.environment "hunter2"
    let prunes := ProcessRun.ofStream (client.command environment (Client.pruneArguments job))
      (.ok (.exited 100))
    let compacts := ProcessRun.ofOutput (client.command environment ["compact", "/r"])
      (.ok ⟨.exited 0, "", ""⟩)
    ∃ status, ((Request.prune job).verb client).Course status
        [.process prunes, .process compacts] ∧
      status.isSuccess = true ∧ status.warning.isSome = true := by
  intro client job environment prunes compacts
  have course : ((Request.prune job).verb client).Course
      (.withWarning ⟨100, "file changed during backup", .backup⟩)
      [.process prunes, .process compacts] :=
    .stream (.ok (.exited 100)) [] (.note (.run (.ok ⟨.exited 0, "", ""⟩) .done))
  have real : (Request.prune job).DeletesAndCompacts := ⟨by decide, rfl⟩
  have warns : prunes.Warns := ⟨100, rfl, by decide⟩
  obtain ⟨success, warned, -⟩ :=
    keeps_warnings_iff real course rfl ⟨100, rfl, .inr (by decide)⟩ ⟨0, rfl, .inl rfl⟩
  exact ⟨_, course, success, warned.mpr warns⟩

/-- A warning of the compact after a clean deletion is lost, whichever the request. -/
theorem warning_of_compact_is_lost :
    let client : Client := ⟨Configuration.standard, [], "/run"⟩
    let job : PruneJob := ⟨⟨1, 1⟩, "/r", "hunter2", "home-", ⟨0, 7, 0, 0, 0, 0⟩, false⟩
    let environment := client.environment "hunter2"
    let prunes := ProcessRun.ofStream (client.command environment (Client.pruneArguments job))
      (.ok (.exited 0))
    let deletes := ProcessRun.ofOutput (client.command environment
      ["delete", "--glob-archives", "home-*", "/r"]) (.ok ⟨.exited 0, "", ""⟩)
    let compacts := ProcessRun.ofOutput (client.command environment ["compact", "/r"])
      (.ok ⟨.exited 1, "", ""⟩)
    prunes.Succeeds ∧ deletes.Succeeds ∧ compacts.Succeeds ∧ compacts.Warns ∧
      ((Request.prune job).verb client).Course .success [.process prunes, .process compacts] ∧
      ((Request.deleteArchives "/r" "hunter2" "home-").verb client).Course .success
        [.process deletes, .process compacts] ∧
      Status.success.warning = none := by
  intro client job environment prunes deletes compacts
  have warned : (Catalogue.findWarning 1).isSome := by decide
  refine ⟨⟨0, rfl, .inl rfl⟩, ⟨0, rfl, .inl rfl⟩, ⟨1, rfl, .inr warned⟩, ⟨1, rfl, warned⟩,
    ?_, ?_, rfl⟩
  · exact .stream (.ok (.exited 0)) [] (.note (.run (.ok ⟨.exited 1, "", ""⟩) .done))
  · exact .run (.ok ⟨.exited 0, "", ""⟩) (.run (.ok ⟨.exited 1, "", ""⟩) .done)

end Request

end BackupClient
