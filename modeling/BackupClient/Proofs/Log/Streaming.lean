import BackupClient.Command.Basic
import BackupClient.Proofs.Log.Pipeline

/-!
A run that hands its lines on, from its start to its return.

Three parties work at once.  The runner writes lines until it closes their queue, and at some time it tells
how the process ended; the decoder reads lines until that queue is closed and empty; the consumer takes
records until the decoder is done, or leaves before.  The run returns when all three have.  The main result
holds of every interleaving of them.
-/

namespace BackupClient

/-- A run that hands its lines on: the decoding, the records handed over to the consumer so far, whether the
queue of lines is closed, and how the process ended, once the runner has told. -/
structure Streaming where
  pipeline : Log.Pipeline
  forwarded : List LogRecord
  closed : Bool
  ended : Option (Except RunError ExitState)

inductive StreamingEvent where
  | move (move : Log.Move)
  | close
  | finish (result : Except RunError ExitState)

namespace Streaming

def start (lines : List String) : Streaming :=
  ⟨.start lines, [], false, none⟩

/-- Let something happen, unless it has to wait.  The queue of lines is closed behind the last line; the
runner may have told the result before. -/
def step? (buffers : Log.Buffers) (streaming : Streaming) : StreamingEvent → Option Streaming
  | .move move =>
      (streaming.pipeline.step? buffers move).map fun after =>
        { streaming with
          pipeline := after
          forwarded := streaming.forwarded ++ streaming.pipeline.handed move }
  | .close =>
      if streaming.pipeline.unwritten = [] ∧ streaming.closed = false then
        some { streaming with closed := true }
      else none
  | .finish result =>
      if streaming.ended = none then some { streaming with ended := some result } else none

/-- Let some things happen one after the other, unless one has to wait. -/
def play? (buffers : Log.Buffers) (streaming : Streaming) (events : List StreamingEvent) :
    Option Streaming :=
  events.foldlM (fun streaming event => streaming.step? buffers event) streaming

def isDecoded (streaming : Streaming) : Bool :=
  streaming.closed && streaming.pipeline.isDecoded

/-- What the run returns, once the runner, the decoder and the consumer have. -/
def returned? (streaming : Streaming) : Option (Except RunError ExitState) :=
  if streaming.closed && streaming.pipeline.isDone then streaming.ended else none

variable {buffers : Log.Buffers} {streaming after : Streaming} {event : StreamingEvent}
  {events : List StreamingEvent} {lines : List String}

theorem play?_cons :
    streaming.play? buffers (event :: events) =
      (streaming.step? buffers event).bind (·.play? buffers events) :=
  List.foldlM_cons

theorem step?_move_eq_some_iff {move : Log.Move} :
    streaming.step? buffers (.move move) = some after ↔
      ∃ pipeline, streaming.pipeline.step? buffers move = some pipeline ∧
        after =
          { streaming with
            pipeline := pipeline
            forwarded := streaming.forwarded ++ streaming.pipeline.handed move } :=
  Option.map_eq_some_iff.trans (exists_congr fun _ => and_congr_right fun _ => eq_comm)

theorem step?_close_eq_some_iff :
    streaming.step? buffers .close = some after ↔
      streaming.pipeline.unwritten = [] ∧ streaming.closed = false ∧
        after = { streaming with closed := true } := by
  simp only [step?, Option.ite_none_right_eq_some, Option.some.injEq, and_assoc,
    eq_comm (a := after)]

theorem step?_finish_eq_some_iff {result : Except RunError ExitState} :
    streaming.step? buffers (.finish result) = some after ↔
      streaming.ended = none ∧ after = { streaming with ended := some result } := by
  simp only [step?, Option.ite_none_right_eq_some, Option.some.injEq, eq_comm (a := after)]

/-! ### What every event keeps -/

/-- What is so at any time, given the lines that the decoder took. -/
structure Faithful (lines decoded : List String) (streaming : Streaming) : Prop where
  pipeline : streaming.pipeline.Faithful lines decoded streaming.forwarded
  closed : streaming.closed = true → streaming.pipeline.unwritten = []

theorem Faithful.step {decoded : List String} (faithful : streaming.Faithful lines decoded)
    (happened : streaming.step? buffers event = some after) :
    ∃ decoded, after.Faithful lines decoded := by
  cases event with
  | move move =>
      obtain ⟨pipeline, moved, rfl⟩ := step?_move_eq_some_iff.mp happened
      obtain ⟨further, kept⟩ := faithful.pipeline.step moved
      exact ⟨further, kept, fun closed =>
        Log.Pipeline.unwritten_of_step? moved (faithful.closed closed)⟩
  | close =>
      obtain ⟨written, -, rfl⟩ := step?_close_eq_some_iff.mp happened
      exact ⟨decoded, faithful.pipeline, fun _ => written⟩
  | finish result =>
      obtain ⟨-, rfl⟩ := step?_finish_eq_some_iff.mp happened
      exact ⟨decoded, faithful.pipeline, faithful.closed⟩

theorem Faithful.play {decoded : List String} (faithful : streaming.Faithful lines decoded)
    (played : streaming.play? buffers events = some after) :
    ∃ decoded, after.Faithful lines decoded := by
  induction events generalizing streaming decoded with
  | nil =>
      obtain rfl := Option.some.inj played
      exact ⟨decoded, faithful⟩
  | cons event events inductionHypothesis =>
      rw [play?_cons] at played
      obtain ⟨next, happened, rest⟩ := Option.bind_eq_some_iff.mp played
      obtain ⟨further, kept⟩ := faithful.step happened
      exact inductionHypothesis kept rest

theorem reading_of_step? (happened : streaming.step? buffers event = some after)
    (stays : event ≠ .move .leave) : after.pipeline.reading = streaming.pipeline.reading := by
  cases event with
  | move move =>
      obtain ⟨pipeline, moved, rfl⟩ := step?_move_eq_some_iff.mp happened
      exact Log.Pipeline.reading_of_step? moved fun leaves => stays (leaves ▸ rfl)
  | close =>
      obtain ⟨-, -, rfl⟩ := step?_close_eq_some_iff.mp happened
      rfl
  | finish result =>
      obtain ⟨-, rfl⟩ := step?_finish_eq_some_iff.mp happened
      rfl

theorem reading_of_play? (played : streaming.play? buffers events = some after)
    (stays : .move .leave ∉ events) : after.pipeline.reading = streaming.pipeline.reading := by
  induction events generalizing streaming with
  | nil =>
      obtain rfl := Option.some.inj played
      rfl
  | cons event events inductionHypothesis =>
      rw [play?_cons] at played
      obtain ⟨next, happened, rest⟩ := Option.bind_eq_some_iff.mp played
      obtain ⟨first, later⟩ := not_or.mp (mt List.mem_cons.mpr stays)
      rw [inductionHypothesis rest later, reading_of_step? happened (Ne.symm first)]

/-! ### Every run comes to its return -/

def burden (streaming : Streaming) : Nat :=
  streaming.pipeline.burden + (!streaming.closed).toNat + streaming.ended.isNone.toNat

theorem step?_burden (happened : streaming.step? buffers event = some after) :
    after.burden < streaming.burden := by
  cases event with
  | move move =>
      obtain ⟨pipeline, moved, rfl⟩ := step?_move_eq_some_iff.mp happened
      have lighter := Log.Pipeline.step?_burden moved
      simp only [burden]
      omega
  | close =>
      obtain ⟨-, opened, rfl⟩ := step?_close_eq_some_iff.mp happened
      simp [burden, opened]
  | finish result =>
      obtain ⟨running, rfl⟩ := step?_finish_eq_some_iff.mp happened
      simp [burden, running]

theorem play?_burden (played : streaming.play? buffers events = some after) :
    events.length + after.burden ≤ streaming.burden := by
  induction events generalizing streaming with
  | nil =>
      obtain rfl := Option.some.inj played
      simp
  | cons event events inductionHypothesis =>
      rw [play?_cons] at played
      obtain ⟨next, happened, rest⟩ := Option.bind_eq_some_iff.mp played
      have later := inductionHypothesis rest
      have lighter := step?_burden happened
      rw [List.length_cons]
      omega

/-- Until the run returns something can happen, and the consumer need not leave for it. -/
theorem exists_step?_of_not_returned (roomy : buffers.Roomy) (running : streaming.returned? = none) :
    ∃ event after, event ≠ .move .leave ∧ streaming.step? buffers event = some after := by
  cases done : streaming.pipeline.isDone with
  | false =>
      obtain ⟨move, pipeline, stays, moved⟩ := Log.Pipeline.exists_step?_of_not_isDone roomy done
      exact ⟨.move move, _, fun leaves => stays (StreamingEvent.move.inj leaves),
        step?_move_eq_some_iff.mpr ⟨pipeline, moved, rfl⟩⟩
  | true =>
      cases closed : streaming.closed with
      | false =>
          have ended := (Bool.and_eq_true_iff.mp done).1
          have written := (Log.Pipeline.isDecoded_iff.mp ended).1
          exact ⟨.close, _, by simp, step?_close_eq_some_iff.mpr ⟨written, closed, rfl⟩⟩
      | true =>
          -- only the runner is left, and any result will do
          have untold : streaming.ended = none := by simpa [returned?, closed, done] using running
          exact ⟨.finish (.ok (.exited 0)), _, by simp,
            step?_finish_eq_some_iff.mpr ⟨untold, rfl⟩⟩

/-! ### What the consumer gets -/

/-- What holds of a run after some events, given all lines that the runner writes. -/
structure Delivers (buffers : Log.Buffers) (lines : List String) (events : List StreamingEvent)
    (streaming : Streaming) : Prop where
  inOrder : streaming.pipeline.received <+: streaming.forwarded ∧
    streaming.forwarded <+: Log.decodeLines lines
  drained : streaming.isDecoded = true →
    streaming.pipeline.unwritten = [] ∧ streaming.pipeline.lines = [] ∧
      streaming.pipeline.count = (Log.decodeLines lines).length
  complete : streaming.returned?.isSome = true → .move .leave ∉ events →
    streaming.pipeline.received = Log.decodeLines lines ∧
      streaming.pipeline.received = Log.streamedRecords lines
  goesOn : streaming.returned? = none → ∃ event after, event ≠ .move .leave ∧
    streaming.step? buffers event = some after
  bounded : events.length ≤ 4 * lines.length + 3

/-- Whatever the interleaving and however the process ends: the consumer gets the records of the lines in
their order, and all of them before the run returns unless it leaves.  If it leaves, every line is still
taken and every record counted, also by the decoder on its own.  No schedule gets stuck before the return or
goes on for ever. -/
theorem every_record_is_delivered (roomy : buffers.Roomy)
    (played : (start lines).play? buffers events = some streaming) :
    streaming.Delivers buffers lines events ∧
      ∀ wanted, (Log.decodeStream buffers lines wanted).count = (Log.decodeLines lines).length := by
  refine ⟨?_, Log.decodeStream_count roomy lines⟩
  have began : (start lines).Faithful lines [] :=
    ⟨Log.Pipeline.start_faithful lines, by simp [start]⟩
  obtain ⟨decoded, faithful, -⟩ := began.play played
  have complete := faithful.complete
  refine ⟨⟨?_, ?_⟩, fun ended => ?_, fun returned stays => ?_, ?_, ?_⟩
  · exact (List.prefix_append _ _).trans faithful.receiving
  · have early : decoded <+: lines := by
      rw [← complete, List.append_assoc]
      exact List.prefix_append _ _
    exact ((List.prefix_append _ _).trans faithful.passing).trans (early.filterMap _)
  · have done := (Bool.and_eq_true_iff.mp ended).2
    obtain ⟨written, noLines, -⟩ := Log.Pipeline.isDecoded_iff.mp done
    exact ⟨written, noLines, faithful.decoded_eq done ▸ faithful.counted⟩
  · have done : streaming.pipeline.isDone = true := by
      cases done : streaming.pipeline.isDone with
      | true => rfl
      | false => simp [returned?, done] at returned
    have received := faithful.received_eq done (reading_of_play? played stays)
    exact ⟨received, received.trans (Log.streamedRecords_eq_decodeLines lines).symm⟩
  · exact exists_step?_of_not_returned roomy
  · have spent := play?_burden played
    simp only [burden, start, Log.Pipeline.burden, Log.Pipeline.start] at spent
    simp at spent
    omega

/-- Queues for one line and one record, a runner that fails before its last line is decoded, and a consumer
that takes its last record when all else is done. -/
theorem last_record_is_delivered :
    let lines :=
      ["\x7b\"type\":\"file_status\",\"status\":\"A\",\"path\":\"/a\"\x7d", "noise",
        "\x7b\"type\":\"file_status\",\"status\":\"M\",\"path\":\"/b\"\x7d"]
    let events : List StreamingEvent :=
      [.move .write, .move .decode, .move .write, .move .pass, .move .decode, .move .write,
        .finish (.error (.wait "lost")), .close, .move .decode, .move .take, .move .pass,
        .move .take]
    Log.Buffers.Roomy ⟨1, 1⟩ ∧
      ∃ streaming, (start lines).play? ⟨1, 1⟩ events = some streaming ∧
        streaming.returned?.isSome = true ∧ .move .leave ∉ events ∧
        streaming.pipeline.received = [.fileStatus ⟨"A", "/a"⟩, .fileStatus ⟨"M", "/b"⟩] := by
  intro lines events
  have roomy : Log.Buffers.Roomy ⟨1, 1⟩ := ⟨by decide, by decide⟩
  have returns : (((start lines).play? ⟨1, 1⟩ events).bind returned?).isSome = true := by
    decide +kernel
  obtain ⟨result, found⟩ := Option.isSome_iff_exists.mp returns
  obtain ⟨streaming, played, returned⟩ := Option.bind_eq_some_iff.mp found
  have ended : streaming.returned?.isSome = true := by rw [returned]; rfl
  have stays : .move .leave ∉ events := by simp [events]
  refine ⟨roomy, streaming, played, ended, stays, ?_⟩
  rw [((every_record_is_delivered roomy played).1.complete ended stays).1]
  decide +kernel

end Streaming

end BackupClient
