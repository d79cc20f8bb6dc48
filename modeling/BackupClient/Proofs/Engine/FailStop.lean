import BackupClient.Proofs.Engine.Endings
import BackupClient.Proofs.Engine.Following
import BackupClient.Proofs.Engine.Requests

/-!
Verbs stop at the first process that does not succeed, and a cancellation is never an error.

What is started is the plan of a request from its front on, and the status is that of the process at which
it stops.
-/

namespace BackupClient

open PlanEvent

structure EndsWith (understood : ProcessRun → Bool) (last : ProcessRun) (status : Status) : Prop where
  succeeded : last.Succeeds → understood last = true →
    status.error = none ∧ status.cancelled = false
  misunderstood : last.Succeeds → understood last = false → status.IsRuntimeError
  cancelled : last.IsCancelled →
    status.cancelled = true ∧ status.error = none ∧ status.warning = none
  failed : ∀ error, last.FailsWith error → status.error = some error ∧ status.cancelled = false

/-- A plan was begun and carried on until a process did not succeed or nothing was left of it. -/
structure CarriedOut (plan : List Call) (understood : ProcessRun → Bool) (runs : List ProcessRun)
    (status : Status) : Prop where
  planned : runs.map (·.call) <+: plan
  goesOn : ∀ run ∈ runs.dropLast, run.Succeeds
  completed : (∀ run ∈ runs, run.Succeeds) → runs.map (·.call) = plan
  ending : ∃ last, runs.getLast? = some last ∧ EndsWith understood last status

/-- A request stops at the first process that does not succeed, and starts none if it is refused. -/
structure Request.FailStop (request : Request) (client : Client) (events : List PlanEvent)
    (status : Status) : Prop where
  refused : request.Refused ∨ request.Obstructed client events →
    runs events = [] ∧ status.IsRuntimeError
  carriedOut : ¬ (request.Refused ∨ request.Obstructed client events) →
    CarriedOut (request.plan client) request.understands (runs events) status

namespace EndsWith

variable {understood : ProcessRun → Bool} {last : ProcessRun} {status : Status}

theorem of_stopped (stopped : ¬ last.Succeeds) : EndsWith understood last last.status where
  succeeded := fun succeeded => absurd succeeded stopped
  misunderstood := fun succeeded => absurd succeeded stopped
  cancelled := fun cancelled => by
    rw [ProcessRun.status_of_isCancelled cancelled]
    exact ⟨rfl, rfl, rfl⟩
  failed := fun error failed => by
    rw [ProcessRun.status_of_failsWith failed]
    exact ⟨rfl, rfl⟩

theorem of_succeeds (succeeds : last.Succeeds)
    (clean : understood last = true → status.error = none ∧ status.cancelled = false)
    (misread : understood last = false → status.IsRuntimeError) :
    EndsWith understood last status where
  succeeded := fun _ => clean
  misunderstood := fun _ => misread
  cancelled := fun cancelled => absurd cancelled succeeds.not_isCancelled
  failed := fun _ failed => absurd failed succeeds.not_failsWith

/-- The status of the last process stands, unless the process succeeds and its output is not understood. -/
theorem of_reading {misread : Status} (misreading : misread.IsRuntimeError)
    (answered : status =
      if last.status.isSuccess && !understood last then misread else last.status) :
    EndsWith understood last status := by
  subst answered
  by_cases succeeds : last.Succeeds
  · obtain ⟨noError, notCancelled, -⟩ := ProcessRun.status_of_succeeds succeeds
    refine of_succeeds succeeds (fun read => ?_) (fun unread => ?_)
    · simp [read, noError, notCancelled]
    · simpa [unread, ProcessRun.isSuccess_status_iff.mpr succeeds] using misreading
  · have stopped : last.status.isSuccess = false :=
      Bool.eq_false_iff.mpr fun success => succeeds (ProcessRun.isSuccess_status_iff.mp success)
    simpa [stopped] using of_stopped succeeds

theorem of_status (understands : understood last = true) : EndsWith understood last last.status :=
  of_reading (Status.rejected_isRuntimeError "") (by simp [understands])

end EndsWith

namespace CarriedOut

variable {understood : ProcessRun → Bool} {first second : ProcessRun} {call later : Call}
  {plan : List Call} {status : Status}

theorem of_one (called : first.call = call) (ending : EndsWith understood first status) :
    CarriedOut [call] understood [first] status where
  planned := by simp [called]
  goesOn := by simp
  completed := by simp [called]
  ending := ⟨first, rfl, ending⟩

theorem of_stopped (called : first.call = call) (stopped : ¬ first.Succeeds) :
    CarriedOut (call :: plan) understood [first] first.status where
  planned := by simp [called]
  goesOn := by simp
  completed := by simp [stopped]
  ending := ⟨first, rfl, .of_stopped stopped⟩

theorem of_two (called : first.call = call) (calledLater : second.call = later)
    (succeeds : first.Succeeds) (ending : EndsWith understood second status) :
    CarriedOut [call, later] understood [first, second] status where
  planned := by simp [called, calledLater]
  goesOn := by simpa using succeeds
  completed := by simp [called, calledLater]
  ending := ⟨second, rfl, ending⟩

end CarriedOut

namespace Verb

variable {spec : CommandSpec} {status : Status} {events : List PlanEvent}
  {understood : ProcessRun → Bool}

theorem carriedOut_of_plain (understands : ∀ run, understood run = true)
    (course : (plain spec).Course status events) :
    CarriedOut [⟨.buffered, spec⟩] understood (runs events) status := by
  obtain ⟨result, rfl, rfl⟩ := course_plain_iff.mp course
  exact .of_one rfl (.of_status (understands _))

theorem carriedOut_of_thenRun {first : ProcessRun} {call : Call} (called : first.call = call)
    (understands : ∀ run, understood run = true)
    (course : (thenRun first.status (plain spec)).Course status events) :
    CarriedOut [call, ⟨.buffered, spec⟩] understood (first :: runs events) status := by
  rcases course_thenRun_iff.mp course with ⟨success, later, second, rfl⟩ | ⟨failure, rfl, rfl⟩
  · obtain ⟨result, rfl, rfl⟩ := course_plain_iff.mp second
    have succeeds := ProcessRun.isSuccess_status_iff.mp success
    refine .of_two called rfl succeeds ?_
    by_cases compacts : (ProcessRun.ofOutput spec result).Succeeds
    · rw [if_pos (ProcessRun.isSuccess_status_iff.mpr compacts)]
      obtain ⟨noError, notCancelled, -⟩ := ProcessRun.status_of_succeeds succeeds
      exact .of_succeeds compacts (fun _ => ⟨noError, notCancelled⟩) (by simp [understands])
    · rw [if_neg (fun success => compacts (ProcessRun.isSuccess_status_iff.mp success))]
      exact .of_stopped compacts
  · refine .of_stopped called fun succeeds => ?_
    rw [ProcessRun.isSuccess_status_iff.mpr succeeds] at failure
    cases failure

end Verb

namespace Client

variable {client : Client} {events : List PlanEvent} {understood : ProcessRun → Bool}

theorem carriedOut_of_create {job : BackupJob} {now : Instant} {answer : Status × String}
    (understands : ∀ run, understood run = true)
    (course : (client.create job now).Course answer events) :
    CarriedOut ((Request.create job now).plan client) understood (runs events) answer.1 := by
  obtain ⟨_, _, late, first, rest, rfl⟩ := course.of_bind
  obtain ⟨result, rfl, rfl⟩ := Verb.course_buffered_iff.mp first
  cases result with
  | error reason =>
      obtain ⟨rfl, rfl⟩ := Verb.course_pure_iff.mp rest
      refine .of_stopped rfl ?_
      rintro ⟨code, ended, -⟩
      cases ended
  | ok output =>
      simp only [Except.toOption] at rest
      split at rest
      · rename_i success
        obtain ⟨total, _, _, counted, streams, rfl⟩ := rest.of_bind
        obtain rfl := counted.of_countFiles
        obtain ⟨ended, _, _, follows, last, rfl⟩ := streams.of_bind
        obtain rfl := Verb.course_follow_iff.mp follows
        obtain ⟨rfl, rfl⟩ := Verb.course_pure_iff.mp last
        exact .of_two rfl rfl (ProcessRun.isSuccess_status_iff.mp success)
          (.of_status (understands _))
      · rename_i failure
        obtain ⟨rfl, rfl⟩ := Verb.course_pure_iff.mp rest
        exact .of_stopped rfl fun succeeds =>
          failure (ProcessRun.isSuccess_status_iff.mpr succeeds)

theorem carriedOut_of_prune {job : PruneJob} {answer : Status × PruneResult}
    (understands : ∀ run, understood run = true) (ruled : job.rule ≠ ⟨0, 0, 0, 0, 0, 0⟩)
    (course : (client.prune job).Course answer events) :
    CarriedOut ((Request.prune job).plan client) understood (runs events) answer.1 := by
  obtain ⟨run, called, late, rfl, rest⟩ := Verb.Course.of_prune ruled course
  by_cases trial : job.dryRun = true
  · rw [if_pos trial] at rest
    obtain ⟨answered, rfl⟩ := Verb.course_pure_iff.mp rest
    rw [answered]
    simp only [Request.plan, trial, if_true]
    exact .of_one called (.of_status (understands _))
  · rw [if_neg trial] at rest
    simp only [Request.plan, trial]
    exact Verb.carriedOut_of_thenRun called understands rest

end Client

namespace Request

variable {client : Client} {request : Request} {events : List PlanEvent} {status : Status}

theorem FailStop.of_carriedOut (accepted : ¬ request.Refused) (direct : request.mountPoint? client = none)
    (carried : CarriedOut (request.plan client) request.understands (runs events) status) :
    request.FailStop client events status where
  refused := by
    rintro (refused | ⟨path, error, located, -⟩)
    · exact absurd refused accepted
    · simp [direct] at located
  carriedOut := fun _ => carried

theorem FailStop.of_refused (refused : request.Refused) (untouched : runs events = [])
    (failed : status.IsRuntimeError) : request.FailStop client events status where
  refused := fun _ => ⟨untouched, failed⟩
  carriedOut := fun accepted => absurd (.inl refused) accepted

theorem FailStop.of_mount {target : ArchivePath} {passphrase directory : String}
    (accepted : ¬ request.Refused) (located : request.mountPoint? client = some directory)
    (planned : request.plan client = [⟨.buffered,
      client.mountCommand (client.environment passphrase) ["mount", target.display, directory]⟩])
    (understands : ∀ run, request.understands run = true)
    (course : (client.mount target passphrase directory).Course status events) :
    request.FailStop client events status := by
  rcases course.of_mount with ⟨error, rfl, failed⟩ | ⟨run, called, rfl, rfl⟩
  · exact ⟨fun _ => ⟨rfl, failed⟩, fun free => absurd (.inr ⟨directory, error, located, by simp⟩) free⟩
  · refine ⟨?_, fun _ => ?_⟩
    · rintro (refused | ⟨path, error, _, made⟩)
      · exact absurd refused accepted
      · simp at made
    · rw [planned]
      exact .of_one called (.of_status (understands _))

/-- However the processes of a request end, the request stops at the first that does not succeed. -/
theorem failStop_of_course (course : (request.verb client).Course status events) :
    request.FailStop client events status := by
  cases request with
  | init | compact | deleteArchive | deleteRepository | rename | recreate | breakLock | unmount =>
      exact .of_carriedOut id rfl (Verb.carriedOut_of_plain (fun _ => rfl) course)
  | info repository passphrase | list repository passphrase =>
      obtain ⟨answer, asked, rfl⟩ := Verb.course_map_iff.mp course
      obtain ⟨run, called, rfl, answered⟩ := asked.of_document
      exact .of_carriedOut id rfl
        (.of_one called (.of_reading Status.undecodable_isRuntimeError answered))
  | version | mountVersion =>
      obtain ⟨answer, asked, rfl⟩ := Verb.course_map_iff.mp course
      obtain ⟨run, called, rfl, answered⟩ := Verb.Course.of_queryVersion asked
      exact .of_carriedOut id rfl
        (.of_one called (.of_reading ⟨_, rfl, rfl, rfl⟩ answered))
  | deleteArchives repository passphrase stem =>
      by_cases empty : stem = ""
      · subst empty
        obtain ⟨rfl, rfl⟩ := Verb.course_pure_iff.mp course
        exact .of_refused rfl rfl (Status.rejected_isRuntimeError _)
      · obtain ⟨run, called, late, rfl, rest⟩ := Verb.Course.of_deleteArchives empty course
        exact .of_carriedOut empty rfl (Verb.carriedOut_of_thenRun called (fun _ => rfl) rest)
  | changePassphrase repository passphrase newPassphrase =>
      by_cases empty : newPassphrase = ""
      · subst empty
        obtain ⟨rfl, rfl⟩ := Verb.course_pure_iff.mp course
        exact .of_refused rfl rfl (Status.rejected_isRuntimeError _)
      · rw [verb, Client.changePassphrase, if_neg (by simpa using empty)] at course
        exact .of_carriedOut empty rfl (Verb.carriedOut_of_plain (fun _ => rfl) course)
  | check repository passphrase mode =>
      obtain ⟨answer, checked, rfl⟩ := Verb.course_map_iff.mp course
      obtain ⟨ended, _, _, follows, rest, rfl⟩ := checked.of_bind
      obtain rfl := Verb.course_follow_iff.mp follows
      obtain ⟨_, _, _, said, last, rfl⟩ := rest.of_bind
      obtain rfl := Verb.course_sayAll_iff.mp said
      obtain ⟨rfl, rfl⟩ := Verb.course_pure_iff.mp last
      exact .of_carriedOut id rfl (.of_one rfl (.of_status rfl))
  | create job now =>
      obtain ⟨answer, created, rfl⟩ := Verb.course_map_iff.mp course
      exact .of_carriedOut id rfl (Client.carriedOut_of_create (fun _ => rfl) created)
  | prune job =>
      obtain ⟨answer, pruned, rfl⟩ := Verb.course_map_iff.mp course
      by_cases empty : job.rule = ⟨0, 0, 0, 0, 0, 0⟩
      · rw [Client.prune, if_pos (PruneRule.isEmpty_iff.mpr empty)] at pruned
        obtain ⟨rfl, rfl⟩ := Verb.course_pure_iff.mp pruned
        exact .of_refused empty rfl (Status.rejected_isRuntimeError _)
      · exact .of_carriedOut empty rfl (Client.carriedOut_of_prune (fun _ => rfl) empty pruned)
  | mountRepository | mountArchive =>
      obtain ⟨answer, mounted, rfl⟩ := Verb.course_map_iff.mp course
      obtain ⟨mountStatus, mounts, rfl⟩ := Verb.course_map_iff.mp mounted
      exact .of_mount id rfl rfl (fun _ => rfl) mounts

/-- Every request stops at the first process that does not succeed, however the processes end.  A request
that is carried out makes the calls of such a course, and on a host its status is that of one. -/
theorem stops_at_first_failure (client : Client) (request : Request) :
    (∀ events status, (request.verb client).Course status events →
      request.FailStop client events status) ∧
    (∀ fuel scene cancellation capacity reader status,
      let ended := (request.verb client).watch fuel scene cancellation capacity reader
      ended.value = some status →
        ∃ events, request.FailStop client events status ∧
          ended.scene.calls = (calls events).reverse ++ scene.calls) ∧
    ∀ fuel scene, ∃ events,
      request.FailStop client events ((request.verb client).execute fuel scene).1 := by
  refine ⟨fun events status => failStop_of_course, ?_, ?_⟩
  · intro fuel scene cancellation capacity reader status ended answered
    obtain ⟨events, course, made⟩ := Verb.watch_follows_course answered
    exact ⟨events, failStop_of_course course, made⟩
  · intro fuel scene
    obtain ⟨events, course⟩ := (request.verb client).execute_follows_course fuel scene
    exact ⟨events, failStop_of_course course⟩

/-- A compact that is cancelled after a deletion with a warning cancels the whole request. -/
theorem cancelled_compact_cancels_prune :
    let client : Client := ⟨Configuration.standard, [], "/run"⟩
    let job : PruneJob := ⟨⟨1, 1⟩, "/r", "hunter2", "home-", ⟨0, 7, 0, 0, 0, 0⟩, false⟩
    let environment := client.environment "hunter2"
    let prunes := ProcessRun.ofStream (client.command environment (Client.pruneArguments job))
      (.ok (.exited 1))
    let compacts := ProcessRun.ofOutput (client.command environment ["compact", "/r"])
      (.ok ⟨.stopped none, "", ""⟩)
    ((Request.prune job).verb client).Course .stopped [.process prunes, .process compacts] ∧
      (Request.prune job).FailStop client [.process prunes, .process compacts] .stopped := by
  intro client job environment prunes compacts
  have course : ((Request.prune job).verb client).Course .stopped
      [.process prunes, .process compacts] :=
    .stream (.ok (.exited 1)) [] (.note (.run (.ok ⟨.stopped none, "", ""⟩) .done))
  exact ⟨course, (stops_at_first_failure client (.prune job)).1 _ _ course⟩

end Request

end BackupClient
