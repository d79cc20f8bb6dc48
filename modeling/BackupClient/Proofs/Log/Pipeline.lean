import BackupClient.Log.Pipeline

/-!
Order and completeness of decoding while lines are being written.

What each move can do is said once.  From it follows what every interleaving keeps: the records that were
received, those that wait and the one in hand are the records of the lines that were taken, in their order.
While there is room for at least one line and one record, the three never wait for each other in a circle.
-/

namespace BackupClient.Log

theorem decodeLines_append (first second : List String) :
    decodeLines (first ++ second) = decodeLines first ++ decodeLines second :=
  List.filterMap_append

theorem decodeLines_singleton (line : String) :
    decodeLines [line] = (decodeLine line.toList).toList := by
  cases found : decodeLine line.toList <;> simp [decodeLines, found]

/-- There is room for at least one line and one record. -/
structure Buffers.Roomy (buffers : Buffers) : Prop where
  lines : 0 < buffers.lines
  records : 0 < buffers.records

theorem Buffers.standard_roomy : Buffers.standard.Roomy :=
  ⟨by decide, by decide⟩

namespace Pipeline

variable {buffers : Buffers} {pipeline after : Pipeline} {move : Move}

/-! ### What each move can do -/

theorem write?_eq_some_iff :
    pipeline.write? buffers = some after ↔
      ∃ line rest, pipeline.unwritten = line :: rest ∧ pipeline.lines.length < buffers.lines ∧
        after = { pipeline with unwritten := rest, lines := pipeline.lines ++ [line] } := by
  unfold write?
  cases pipeline.unwritten <;> simp [eq_comm, and_assoc]

theorem decode?_eq_some_iff :
    pipeline.decode? = some after ↔
      pipeline.inHand = none ∧ ∃ line rest, pipeline.lines = line :: rest ∧
        after =
          { pipeline with
            lines := rest
            inHand := if pipeline.believed then decodeLine line.toList else none
            count := pipeline.count + (decodeLines [line]).length } := by
  obtain ⟨unwritten, lines, inHand, records, taken, reading, believed, count⟩ := pipeline
  cases inHand with
  | some record => simp [decode?]
  | none =>
      cases lines with
      | nil => simp [decode?]
      | cons line rest =>
          cases found : decodeLine line.toList <;>
            simp [decode?, decodeLines_singleton, found, eq_comm, and_assoc]

theorem pass?_eq_some_iff :
    pipeline.pass? buffers = some after ↔
      ∃ record, pipeline.inHand = some record ∧
        (pipeline.reading = false ∧ after = { pipeline with inHand := none, believed := false } ∨
          pipeline.reading = true ∧ pipeline.records.length < buffers.records ∧
            after = { pipeline with inHand := none, records := pipeline.records ++ [record] }) := by
  unfold pass?
  cases pipeline.inHand <;> cases pipeline.reading <;> simp [eq_comm]

theorem take?_eq_some_iff :
    pipeline.take? = some after ↔
      pipeline.reading = true ∧ ∃ record rest, pipeline.records = record :: rest ∧
        after = { pipeline with records := rest, taken := record :: pipeline.taken } := by
  unfold take?
  cases pipeline.reading <;> cases pipeline.records <;> simp [eq_comm, and_assoc]

theorem leave?_eq_some_iff :
    pipeline.leave? = some after ↔
      pipeline.reading = true ∧ after = { pipeline with records := [], reading := false } := by
  unfold leave?
  cases pipeline.reading <;> simp [eq_comm]

/-- The records that a move hands over to the queue of the reader. -/
def handed (pipeline : Pipeline) : Move → List LogRecord
  | .pass => if pipeline.reading then pipeline.inHand.toList else []
  | _ => []

/-- What became of some lines, given those that were taken from the queue and the records that were handed
over so far: nothing is lost, doubled or out of order before the reader leaves, and what it leaves behind
is all that is lost then. -/
structure Faithful (lines decoded : List String) (forwarded : List LogRecord)
    (pipeline : Pipeline) : Prop where
  complete : decoded ++ pipeline.lines ++ pipeline.unwritten = lines
  counted : pipeline.count = (decodeLines decoded).length
  passing : forwarded ++ pipeline.inHand.toList <+: decodeLines decoded
  receiving : pipeline.received ++ pipeline.records <+: forwarded
  believed : pipeline.reading = true → pipeline.believed = true
  allPassed : pipeline.believed = true →
    forwarded ++ pipeline.inHand.toList = decodeLines decoded
  allReceived : pipeline.reading = true → pipeline.received ++ pipeline.records = forwarded

variable {lines decoded : List String} {forwarded : List LogRecord}

theorem start_faithful (lines : List String) : (start lines).Faithful lines [] [] where
  complete := rfl
  counted := rfl
  passing := List.nil_prefix
  receiving := List.nil_prefix
  believed := fun _ => rfl
  allPassed := fun _ => rfl
  allReceived := fun _ => rfl

/-- Each move keeps the order, whatever the others did before. -/
theorem Faithful.step (faithful : pipeline.Faithful lines decoded forwarded)
    (moved : pipeline.step? buffers move = some after) :
    ∃ decoded, after.Faithful lines decoded (forwarded ++ pipeline.handed move) := by
  obtain ⟨complete, counted, passing, receiving, believed, allPassed, allReceived⟩ := faithful
  cases move with
  | write =>
      obtain ⟨line, rest, unwritten, -, rfl⟩ := write?_eq_some_iff.mp moved
      refine ⟨decoded, ?_, counted, ?_, ?_, believed, ?_, ?_⟩
      · simpa [unwritten] using complete
      all_goals simpa [handed, received]
  | decode =>
      obtain ⟨empty, line, rest, waiting, rfl⟩ := decode?_eq_some_iff.mp moved
      have decodedToo : decodeLines (decoded ++ [line]) =
          decodeLines decoded ++ (decodeLine line.toList).toList := by
        rw [decodeLines_append, decodeLines_singleton]
      simp only [empty, Option.toList_none, List.append_nil] at passing allPassed
      refine ⟨decoded ++ [line], ?_, ?_, ?_, ?_, believed, ?_, ?_⟩
      · simpa [waiting] using complete
      · simp [counted, decodeLines_append]
      · -- a record that is not kept in hand is lost, so the records only begin alike from then on
        cases believes : pipeline.believed with
        | true => simp [handed, allPassed believes, decodedToo]
        | false => simpa [handed, decodedToo] using passing.trans (List.prefix_append _ _)
      · simpa [handed, received] using receiving
      · intro believes
        simp [handed, allPassed believes, decodedToo, show pipeline.believed = true from believes]
      · simpa [handed, received] using allReceived
  | pass =>
      obtain ⟨record, inHand, ⟨left, rfl⟩ | ⟨reading, -, rfl⟩⟩ := pass?_eq_some_iff.mp moved
      · have noneHanded : pipeline.handed .pass = [] := by simp [handed, left]
        rw [noneHanded, List.append_nil]
        refine ⟨decoded, complete, counted, ?_, receiving, ?_, ?_, allReceived⟩
        · simpa using (List.prefix_append forwarded _).trans passing
        · simp [left]
        · simp
      · have oneHanded : pipeline.handed .pass = [record] := by simp [handed, reading, inHand]
        simp only [inHand, Option.toList_some] at passing allPassed
        rw [oneHanded]
        refine ⟨decoded, complete, counted, ?_, ?_, believed, ?_, ?_⟩
        · simpa using passing
        · simp [received, ← allReceived reading]
        · simpa using allPassed
        · simp [received, ← allReceived reading]
  | take =>
      obtain ⟨reading, record, rest, waiting, rfl⟩ := take?_eq_some_iff.mp moved
      refine ⟨decoded, complete, counted, ?_, ?_, believed, ?_, ?_⟩
      · simpa [handed] using passing
      · simpa [handed, received, waiting] using receiving
      · simpa [handed] using allPassed
      · simpa [handed, received, waiting] using allReceived
  | leave =>
      obtain ⟨reading, rfl⟩ := leave?_eq_some_iff.mp moved
      refine ⟨decoded, complete, counted, ?_, ?_, ?_, ?_, ?_⟩
      · simpa [handed] using passing
      · simpa [handed, received] using (List.prefix_append _ _).trans receiving
      · simp
      · simpa [handed] using allPassed
      · simp

theorem isDecoded_iff :
    pipeline.isDecoded = true ↔
      pipeline.unwritten = [] ∧ pipeline.lines = [] ∧ pipeline.inHand = none := by
  simp [isDecoded, and_assoc]

theorem Faithful.decoded_eq (faithful : pipeline.Faithful lines decoded forwarded)
    (ended : pipeline.isDecoded = true) : decoded = lines := by
  obtain ⟨unwritten, waiting, -⟩ := isDecoded_iff.mp ended
  simpa [unwritten, waiting] using faithful.complete

/-- A reader that has stayed to the end has received all records. -/
theorem Faithful.received_eq (faithful : pipeline.Faithful lines decoded forwarded)
    (done : pipeline.isDone = true) (reading : pipeline.reading = true) :
    pipeline.received = decodeLines lines := by
  simp only [isDone, reading, Bool.not_true, Bool.false_or, Bool.and_eq_true, List.isEmpty_iff]
    at done
  obtain ⟨ended, noRecords⟩ := done
  have passed := faithful.allPassed (faithful.believed reading)
  have received := faithful.allReceived reading
  rw [(isDecoded_iff.mp ended).2.2, faithful.decoded_eq ended] at passed
  rw [noRecords, List.append_nil] at received
  rw [received]
  simpa using passed

theorem reading_of_step? (moved : pipeline.step? buffers move = some after)
    (stays : move ≠ .leave) : after.reading = pipeline.reading := by
  cases move with
  | write =>
      obtain ⟨_, _, _, _, rfl⟩ := write?_eq_some_iff.mp moved
      rfl
  | decode =>
      obtain ⟨_, _, _, _, rfl⟩ := decode?_eq_some_iff.mp moved
      rfl
  | pass =>
      obtain ⟨_, _, ⟨_, rfl⟩ | ⟨_, _, rfl⟩⟩ := pass?_eq_some_iff.mp moved <;> rfl
  | take =>
      obtain ⟨_, _, _, _, rfl⟩ := take?_eq_some_iff.mp moved
      rfl
  | leave => exact absurd rfl stays

theorem unwritten_of_step? (moved : pipeline.step? buffers move = some after)
    (written : pipeline.unwritten = []) : after.unwritten = [] := by
  cases move with
  | write =>
      obtain ⟨_, _, more, _, rfl⟩ := write?_eq_some_iff.mp moved
      rw [written] at more
      cases more
  | decode =>
      obtain ⟨_, _, _, _, rfl⟩ := decode?_eq_some_iff.mp moved
      exact written
  | pass =>
      obtain ⟨_, _, ⟨_, rfl⟩ | ⟨_, _, rfl⟩⟩ := pass?_eq_some_iff.mp moved <;> exact written
  | take =>
      obtain ⟨_, _, _, _, rfl⟩ := take?_eq_some_iff.mp moved
      exact written
  | leave =>
      obtain ⟨_, rfl⟩ := leave?_eq_some_iff.mp moved
      exact written

/-! ### No circle of waiting -/

/-- If none of the preferred moves can be made, then nothing is left to do. -/
theorem isDone_of_next?_eq_none (roomy : buffers.Roomy) {wanted : Option Nat}
    (stuck : pipeline.next? buffers wanted = none) : pipeline.isDone = true := by
  have waits (tried : Move) (preferable : tried ∈ preferred wanted) :
      pipeline.step? buffers tried = none := by
    simpa using List.findSome?_eq_none_iff.mp stuck tried preferable
  have noRecords : pipeline.reading = true → pipeline.records = [] := by
    intro reading
    by_cases enough : wanted = some 0
    · have stays := waits .leave (by simp [preferred, enough])
      simp [step?, leave?, reading] at stays
    · have waitsForRecords := waits .take (by simp [preferred, enough])
      cases records : pipeline.records with
      | nil => rfl
      | cons record rest => simp [step?, take?, reading, records] at waitsForRecords
  have emptyHand : pipeline.inHand = none := by
    have waitsForRoom := waits .pass (by simp [preferred])
    cases inHand : pipeline.inHand with
    | none => rfl
    | some record =>
        cases reading : pipeline.reading with
        | false => simp [step?, pass?, inHand, reading] at waitsForRoom
        | true =>
            have full : buffers.records = 0 := by
              simpa [step?, pass?, inHand, reading, noRecords reading] using waitsForRoom
            exact absurd full (Nat.ne_of_gt roomy.records)
  have noLines : pipeline.lines = [] := by
    have waitsForLines := waits .decode (by simp [preferred])
    cases lines : pipeline.lines with
    | nil => rfl
    | cons line rest =>
        cases found : decodeLine line.toList <;>
          simp [step?, decode?, emptyHand, lines, found] at waitsForLines
  have allWritten : pipeline.unwritten = [] := by
    have waitsForRoom := waits .write (by simp [preferred])
    cases unwritten : pipeline.unwritten with
    | nil => rfl
    | cons line rest =>
        have full : buffers.lines = 0 := by
          simpa [step?, write?, unwritten, noLines] using waitsForRoom
        exact absurd full (Nat.ne_of_gt roomy.lines)
  cases reading : pipeline.reading with
  | false => simp [isDone, isDecoded, allWritten, noLines, emptyHand, reading]
  | true => simp [isDone, isDecoded, allWritten, noLines, emptyHand, noRecords reading]

theorem mem_preferred_of_next? {wanted : Option Nat}
    (next : pipeline.next? buffers wanted = some (move, after)) : move ∈ preferred wanted := by
  obtain ⟨tried, preferable, made⟩ := List.exists_of_findSome?_eq_some next
  obtain ⟨reached, -, same⟩ := Option.map_eq_some_iff.mp made
  cases same
  exact preferable

/-- Until all is done there is a move, and the reader need not leave for it. -/
theorem exists_step?_of_not_isDone (roomy : buffers.Roomy) (undone : pipeline.isDone = false) :
    ∃ move after, move ≠ .leave ∧ pipeline.step? buffers move = some after := by
  cases next : pipeline.next? buffers none with
  | none =>
      rw [isDone_of_next?_eq_none roomy next] at undone
      cases undone
  | some found =>
      obtain ⟨move, after⟩ := found
      refine ⟨move, after, ?_, step?_of_next? next⟩
      rintro rfl
      exact absurd (mem_preferred_of_next? next) (by decide)

/-! ### The preferred moves -/

theorem run_of_stuck {wanted : Option Nat} (stuck : pipeline.next? buffers wanted = none) :
    pipeline.run buffers wanted = pipeline := by
  rw [run]
  split
  · rfl
  · rename_i next
    rw [stuck] at next
    cases next

theorem run_of_next {wanted : Option Nat}
    (next : pipeline.next? buffers wanted = some (move, after)) :
    pipeline.run buffers wanted =
      after.run buffers (if move = .take then wanted.map (· - 1) else wanted) := by
  rw [run]
  split
  · rename_i stuck
    rw [next] at stuck
    cases stuck
  · rename_i found
    rw [next] at found
    cases found
    rfl

theorem run_isDone (roomy : buffers.Roomy) (wanted : Option Nat) :
    (pipeline.run buffers wanted).isDone = true := by
  induction wanted, pipeline using run.induct buffers with
  | case1 wanted pipeline stuck =>
      rw [run_of_stuck stuck]
      exact isDone_of_next?_eq_none roomy stuck
  | case2 wanted pipeline move after next inductionHypothesis =>
      rw [run_of_next next]
      exact inductionHypothesis

theorem run_faithful (faithful : pipeline.Faithful lines decoded forwarded) (wanted : Option Nat) :
    ∃ decoded forwarded, (pipeline.run buffers wanted).Faithful lines decoded forwarded := by
  induction wanted, pipeline using run.induct buffers generalizing decoded forwarded with
  | case1 wanted pipeline stuck =>
      rw [run_of_stuck stuck]
      exact ⟨decoded, forwarded, faithful⟩
  | case2 wanted pipeline move after next inductionHypothesis =>
      obtain ⟨further, kept⟩ := faithful.step (step?_of_next? next)
      rw [run_of_next next]
      exact inductionHypothesis kept

theorem run_reading : (pipeline.run buffers none).reading = pipeline.reading := by
  generalize all : (none : Option Nat) = wanted
  induction wanted, pipeline using run.induct buffers with
  | case1 wanted pipeline stuck => rw [run_of_stuck stuck]
  | case2 wanted pipeline move after next inductionHypothesis =>
      subst all
      have stays : move ≠ .leave := by
        rintro rfl
        exact absurd (mem_preferred_of_next? next) (by decide)
      have unlimited : (if move = .take then (none : Option Nat).map (· - 1) else none) = none :=
        ite_self none
      rw [run_of_next next, unlimited, ← reading_of_step? (step?_of_next? next) stays]
      simpa using inductionHypothesis

end Pipeline

/-- Whenever the reader leaves, every record is counted. -/
theorem decodeStream_count {buffers : Buffers} (roomy : buffers.Roomy) (lines : List String)
    (wanted : Option Nat) : (decodeStream buffers lines wanted).count = (decodeLines lines).length := by
  have faithful : ∃ decoded forwarded,
      ((Pipeline.start lines).run buffers wanted).Faithful lines decoded forwarded :=
    Pipeline.run_faithful (Pipeline.start_faithful lines) wanted
  obtain ⟨decoded, forwarded, faithful⟩ := faithful
  have done : ((Pipeline.start lines).run buffers wanted).isDone = true :=
    Pipeline.run_isDone roomy wanted
  have ended := (Bool.and_eq_true_iff.mp done).1
  exact faithful.decoded_eq ended ▸ faithful.counted

/-- The records that a verb sees are those of the lines, in their order. -/
theorem streamedRecords_eq_decodeLines (lines : List String) :
    streamedRecords lines = decodeLines lines := by
  have faithful : ∃ decoded forwarded,
      ((Pipeline.start lines).run .standard none).Faithful lines decoded forwarded :=
    Pipeline.run_faithful (Pipeline.start_faithful lines) none
  obtain ⟨decoded, forwarded, faithful⟩ := faithful
  exact faithful.received_eq (Pipeline.run_isDone Buffers.standard_roomy none) Pipeline.run_reading

end BackupClient.Log
