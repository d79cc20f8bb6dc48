import BackupClient.Log.Line
import BackupClient.Proofs.Text.Lines
import BackupClient.Proofs.Text.Utf8

/-!
Records of an output that is handed on line by line, and of one that is collected first.

Lines that are handed on are cut out of the bytes and then read as text; an output that is collected is read
as text and then cut into lines.  The lines may differ in the blanks at their ends, and the records are the
same.
-/

namespace BackupClient

open Text

/-! ### Lines that are handed on -/

namespace LineReader

theorem feed_append (reader : LineReader) (first second : List UInt8) :
    reader.feed (first ++ second) =
      ((reader.feed first).1 ++ ((reader.feed first).2.feed second).1,
        ((reader.feed first).2.feed second).2) := by
  induction first generalizing reader with
  | nil => rfl
  | cons byte first inductionHypothesis =>
      simp only [List.cons_append, feed, inductionHypothesis, List.append_assoc]

theorem feed_unbroken {line : List UInt8} (unbroken : lineFeed ∉ line) (reader : LineReader) :
    reader.feed line = ([], ⟨line.reverse ++ reader.begun⟩) := by
  induction line generalizing reader with
  | nil => rfl
  | cons byte line inductionHypothesis =>
      have different : byte ≠ lineFeed := Ne.symm (List.ne_of_not_mem_cons unbroken)
      simp [feed, step, different, inductionHypothesis (List.not_mem_of_not_mem_cons unbroken)]

theorem feed_more {line : List UInt8} (unbroken : lineFeed ∉ line) (rest : List UInt8) :
    start.feed (line ++ lineFeed :: rest) = (lineText line :: (start.feed rest).1, (start.feed rest).2) := by
  rw [feed_append, feed_unbroken unbroken]
  simp [feed, step, start]

end LineReader

/-- How an output is cut into pieces makes no difference. -/
theorem deliveredLines_eq (pieces : List (List UInt8)) :
    deliveredLines pieces =
      (LineReader.start.feed pieces.flatten).1 ++ (LineReader.start.feed pieces.flatten).2.finish := by
  have goes (lines : List String) (reader : LineReader) :
      pieces.foldl
          (fun (state : List String × LineReader) piece =>
            (state.1 ++ (state.2.feed piece).1, (state.2.feed piece).2))
          (lines, reader) =
        (lines ++ (reader.feed pieces.flatten).1, (reader.feed pieces.flatten).2) := by
    induction pieces generalizing lines reader with
    | nil => simp [LineReader.feed]
    | cons piece pieces inductionHypothesis =>
        simp only [List.foldl_cons, List.flatten_cons, LineReader.feed_append, inductionHypothesis,
          List.append_assoc]
  simp only [deliveredLines, goes, List.nil_append]

/-- A text ends with blanks where its line ends. -/
theorem exists_trimLineEnd_gap (text : List Char) :
    ∃ gap, IsGap gap ∧ text = trimLineEnd text ++ gap := by
  refine ⟨(text.reverse.takeWhile fun char => char == '\n' || char == '\r').reverse, ?_, ?_⟩
  · intro char member
    have ends := List.all_eq_true.mp List.all_takeWhile char (List.mem_reverse.mp member)
    rcases (Bool.or_eq_true _ _).mp ends with feed | back
    · rw [beq_iff_eq.mp feed]
      decide
    · rw [beq_iff_eq.mp back]
      decide
  · rw [trimLineEnd, ← List.reverse_append, List.takeWhile_append_dropWhile, List.reverse_reverse]

namespace Log

/-- What a line holds does not depend on the blanks at its end. -/
theorem decodeLine_append_gap {gap : List Char} (blank : IsGap gap) (line : List Char) :
    decodeLine (line ++ gap) = decodeLine line := by
  simp only [decodeLine, trim_append_gap blank]

theorem decodeLine_trimLineEnd (text : List Char) : decodeLine (trimLineEnd text) = decodeLine text := by
  obtain ⟨gap, blank, whole⟩ := exists_trimLineEnd_gap text
  exact (decodeLine_append_gap blank _).symm.trans (congrArg decodeLine whole.symm)

theorem decodeLine_chomp (segment : List Char) : decodeLine (chomp segment) = decodeLine segment := by
  obtain ⟨gap, blank, whole⟩ := exists_chomp_gap segment
  exact (decodeLine_append_gap blank _).symm.trans (congrArg decodeLine whole.symm)

theorem decodeLines_linesOf (text : List Char) :
    decodeLines (linesOf (String.ofList text)) = (segments text).filterMap decodeLine := by
  simp [decodeLines, linesOf, lines, List.filterMap_map, Function.comp_def, decodeLine_chomp]

theorem filterMap_segments_unbroken {text : List Char} (unbroken : '\n' ∉ text) :
    (segments text).filterMap decodeLine = (decodeLine text).toList := by
  by_cases empty : text = []
  · subst empty
    rfl
  · rw [segments_last unbroken empty, List.filterMap_cons]
    cases decodeLine text <;> rfl

theorem decodeLines_lineText_cons (line : List UInt8) (others : List String) :
    decodeLines (lineText line :: others) =
      (decodeLine (Utf8.decodeLossy line)).toList ++ decodeLines others := by
  rw [decodeLines, List.filterMap_cons, lineText, String.toList_ofList, decodeLine_trimLineEnd]
  cases decodeLine (Utf8.decodeLossy line) <;> rfl

/-- The records of an output by the segments of its text, by induction on its lines. -/
theorem decodeLines_fed (bytes : List UInt8) :
    decodeLines ((LineReader.start.feed bytes).1 ++ (LineReader.start.feed bytes).2.finish) =
      (segments (Utf8.decodeLossy bytes)).filterMap decodeLine := by
  induction inLines lineFeed bytes with
  | @last line unbroken =>
      rw [LineReader.feed_unbroken unbroken]
      by_cases empty : line = []
      · subst empty
        rfl
      · have begun : (line.reverse ++ LineReader.start.begun).isEmpty = false := by
          simpa [LineReader.start] using empty
        rw [LineReader.finish, begun, filterMap_segments_unbroken (Utf8.not_mem_decodeLossy unbroken)]
        simp only [LineReader.start, List.append_nil, List.reverse_reverse, List.nil_append,
          Bool.false_eq_true, if_false, decodeLines_lineText_cons]
        exact List.append_nil _
  | @more line rest unbroken _ inductionHypothesis =>
      have next : decodeLine (Utf8.decodeLossy line ++ ['\n']) = decodeLine (Utf8.decodeLossy line) :=
        decodeLine_append_gap (by decide) _
      rw [LineReader.feed_more unbroken, List.cons_append, decodeLines_lineText_cons,
        inductionHypothesis, Utf8.decodeLossy_append_lineFeed,
        segments_more (Utf8.not_mem_decodeLossy unbroken), List.filterMap_cons, next]
      cases decodeLine (Utf8.decodeLossy line) <;> rfl

end Log

/-- However an output comes in, the lines that are handed on hold the same records as those of the output
that is collected, whatever bytes it is made of. -/
theorem deliveredLines_hold_same_records (pieces : List (List UInt8)) :
    Log.decodeLines (deliveredLines pieces) =
      Log.decodeLines (linesOf (outputText pieces.flatten)) := by
  rw [deliveredLines_eq, Log.decodeLines_fed, outputText, Log.decodeLines_linesOf]

end BackupClient
