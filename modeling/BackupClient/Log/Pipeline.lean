import BackupClient.Log.Line

/-!
Decoding lines while they are being written.

Lines and records each wait in a queue of bounded size.  The writer waits for room for its next line and the
decoder for room for a record, while the reader of the records may leave at any time.  A move is what one of
the three does at once, and any interleaving of them is a list of moves.  Each move brings the end nearer:
see `step?_burden`.
-/

namespace BackupClient.Log

structure Buffers where
  lines : Nat
  records : Nat
  deriving DecidableEq, Repr

def Buffers.standard : Buffers :=
  ⟨256, 64⟩

/-- The decoding of a stream: the lines that are yet to be written, those that wait, the record in the
decoder's hand, the records that wait, those that the reader took with the latest first, whether the reader
is there, whether the decoder believes that it is, and the number of records decoded so far. -/
structure Pipeline where
  unwritten : List String
  lines : List String
  inHand : Option LogRecord
  records : List LogRecord
  taken : List LogRecord
  reading : Bool
  believed : Bool
  count : Nat
  deriving DecidableEq

/-- What happens at once: a line is written, a line is decoded, the record in hand is passed on, the reader
takes a record, or it leaves. -/
inductive Move where
  | write
  | decode
  | pass
  | take
  | leave
  deriving DecidableEq, Repr

namespace Pipeline

def start (lines : List String) : Pipeline :=
  ⟨lines, [], none, [], [], true, true, 0⟩

def write? (buffers : Buffers) (pipeline : Pipeline) : Option Pipeline :=
  match pipeline.unwritten with
  | [] => none
  | line :: rest =>
      if pipeline.lines.length < buffers.lines then
        some { pipeline with unwritten := rest, lines := pipeline.lines ++ [line] }
      else none

/-- Decode the first line that waits, with no record in hand.  A record is counted, and it is kept in hand
while the reader is believed to be there. -/
def decode? (pipeline : Pipeline) : Option Pipeline :=
  match pipeline.inHand, pipeline.lines with
  | none, line :: rest =>
      match decodeLine line.toList with
      | none => some { pipeline with lines := rest }
      | some record =>
          some
            { pipeline with
              lines := rest
              inHand := if pipeline.believed then some record else none
              count := pipeline.count + 1 }
  | _, _ => none

/-- Pass on the record in hand if there is room for it.  That the reader has left is noticed here. -/
def pass? (buffers : Buffers) (pipeline : Pipeline) : Option Pipeline :=
  match pipeline.inHand with
  | none => none
  | some record =>
      if !pipeline.reading then some { pipeline with inHand := none, believed := false }
      else if pipeline.records.length < buffers.records then
        some { pipeline with inHand := none, records := pipeline.records ++ [record] }
      else none

def take? (pipeline : Pipeline) : Option Pipeline :=
  match pipeline.reading, pipeline.records with
  | true, record :: rest =>
      some { pipeline with records := rest, taken := record :: pipeline.taken }
  | _, _ => none

/-- Stop reading.  The records that wait are lost. -/
def leave? (pipeline : Pipeline) : Option Pipeline :=
  if pipeline.reading then some { pipeline with records := [], reading := false } else none

def step? (buffers : Buffers) (pipeline : Pipeline) : Move → Option Pipeline
  | .write => pipeline.write? buffers
  | .decode => pipeline.decode?
  | .pass => pipeline.pass? buffers
  | .take => pipeline.take?
  | .leave => pipeline.leave?

def play? (buffers : Buffers) (pipeline : Pipeline) (moves : List Move) : Option Pipeline :=
  moves.foldlM (fun pipeline move => pipeline.step? buffers move) pipeline

/-- The records that the reader took, in the order in which it took them. -/
def received (pipeline : Pipeline) : List LogRecord :=
  pipeline.taken.reverse

def isDecoded (pipeline : Pipeline) : Bool :=
  pipeline.unwritten.isEmpty && pipeline.lines.isEmpty && pipeline.inHand.isNone

/-- Is the stream decoded, and has the reader seen its end or left? -/
def isDone (pipeline : Pipeline) : Bool :=
  pipeline.isDecoded && (!pipeline.reading || pipeline.records.isEmpty)

/-- How many moves can still be made at most. -/
def burden (pipeline : Pipeline) : Nat :=
  4 * pipeline.unwritten.length + 3 * pipeline.lines.length + 2 * pipeline.inHand.toList.length +
    pipeline.records.length + pipeline.reading.toNat

theorem step?_burden {buffers : Buffers} {pipeline after : Pipeline} {move : Move}
    (moved : pipeline.step? buffers move = some after) : after.burden < pipeline.burden := by
  obtain ⟨unwritten, lines, inHand, records, taken, reading, believed, count⟩ := pipeline
  cases move with
  | write =>
      cases unwritten with
      | nil => simp [step?, write?] at moved
      | cons line rest =>
          simp only [step?, write?, Option.ite_none_right_eq_some, Option.some.injEq] at moved
          obtain ⟨_, rfl⟩ := moved
          simp only [burden, List.length_append, List.length_cons, List.length_nil]
          omega
  | decode =>
      cases inHand with
      | some record => simp [step?, decode?] at moved
      | none =>
          cases lines with
          | nil => simp [step?, decode?] at moved
          | cons line rest =>
              cases found : decodeLine line.toList with
              | none =>
                  simp only [step?, decode?, found, Option.some.injEq] at moved
                  subst moved
                  simp only [burden, List.length_cons]
                  omega
              | some record =>
                  simp only [step?, decode?, found, Option.some.injEq] at moved
                  subst moved
                  cases believed <;>
                    simp only [burden, List.length_cons, Option.toList, List.length_nil,
                      Bool.false_eq_true, if_false, if_true] <;>
                    omega
  | pass =>
      cases inHand with
      | none => simp [step?, pass?] at moved
      | some record =>
          cases reading with
          | false =>
              simp only [step?, pass?, Bool.not_false, if_true, Option.some.injEq] at moved
              subst moved
              simp only [burden, Option.toList, List.length_cons, List.length_nil]
              omega
          | true =>
              simp only [step?, pass?, Bool.not_true, Bool.false_eq_true, if_false,
                Option.ite_none_right_eq_some, Option.some.injEq] at moved
              obtain ⟨_, rfl⟩ := moved
              simp only [burden, Option.toList, List.length_append, List.length_cons,
                List.length_nil]
              omega
  | take =>
      cases reading with
      | false => simp [step?, take?] at moved
      | true =>
          cases records with
          | nil => simp [step?, take?] at moved
          | cons record rest =>
              simp only [step?, take?, Option.some.injEq] at moved
              subst moved
              simp only [burden, List.length_cons]
              omega
  | leave =>
      cases reading with
      | false => simp [step?, leave?] at moved
      | true =>
          simp only [step?, leave?, if_true, Option.some.injEq] at moved
          subst moved
          simp only [burden, List.length_nil, Bool.toNat_true, Bool.toNat_false]
          omega

/-- The moves in the order in which they are tried, when the reader wants some number of records or all. -/
def preferred (wanted : Option Nat) : List Move :=
  [if wanted = some 0 then .leave else .take, .pass, .decode, .write]

def next? (buffers : Buffers) (wanted : Option Nat) (pipeline : Pipeline) :
    Option (Move × Pipeline) :=
  (preferred wanted).findSome? fun move => (pipeline.step? buffers move).map (move, ·)

theorem step?_of_next? {buffers : Buffers} {wanted : Option Nat} {pipeline after : Pipeline}
    {move : Move} (next : pipeline.next? buffers wanted = some (move, after)) :
    pipeline.step? buffers move = some after := by
  obtain ⟨tried, _, made⟩ := List.exists_of_findSome?_eq_some next
  obtain ⟨reached, stepped, same⟩ := Option.map_eq_some_iff.mp made
  cases same
  exact stepped

/-- Go on until every move has to wait.  The reader leaves when it has the records that it wants. -/
def run (buffers : Buffers) (wanted : Option Nat) (pipeline : Pipeline) : Pipeline :=
  match found : pipeline.next? buffers wanted with
  | none => pipeline
  | some (move, after) =>
      run buffers (if move = .take then wanted.map (· - 1) else wanted) after
termination_by pipeline.burden
decreasing_by exact step?_burden (step?_of_next? found)

end Pipeline

/-- Decode a stream to its end for a reader that leaves after some number of records, or stays. -/
def decodeStream (buffers : Buffers) (lines : List String) (wanted : Option Nat) : Pipeline :=
  (Pipeline.start lines).run buffers wanted

def streamedRecords (lines : List String) : List LogRecord :=
  (decodeStream .standard lines none).received

end BackupClient.Log
