import BackupClient.Text.Blank
import Mathlib.Data.List.DropRight

/-!
Texts cut into lines, and trimmed.

A text is one line, or a line with a line feed behind it and more text.  What a line feed divides is read
line by line; what trimming takes away are blanks at the ends.
-/

namespace BackupClient.Text

/-! ### Lines one after the other -/

/-- A text in its lines: the last one, or one that is ended and then the others. -/
inductive InLines {α : Type} (feed : α) : List α → Prop where
  | last {line : List α} : feed ∉ line → InLines feed line
  | more {line rest : List α} : feed ∉ line → InLines feed rest → InLines feed (line ++ feed :: rest)

theorem inLines {α : Type} [DecidableEq α] (feed : α) (text : List α) : InLines feed text := by
  induction text with
  | nil => exact .last List.not_mem_nil
  | cons head tail inductionHypothesis =>
      by_cases ended : head = feed
      · subst ended
        exact @InLines.more α head [] tail List.not_mem_nil inductionHypothesis
      · have longer {line : List α} (unbroken : feed ∉ line) : feed ∉ head :: line :=
          List.not_mem_cons_of_ne_of_not_mem (Ne.symm ended) unbroken
        cases inductionHypothesis with
        | last unbroken => exact .last (longer unbroken)
        | more unbroken rest => exact InLines.more (longer unbroken) rest

variable {line rest text gap : List Char}

theorem segments_more (unbroken : '\n' ∉ line) (rest : List Char) :
    segments (line ++ '\n' :: rest) = (line ++ ['\n']) :: segments rest := by
  induction line with
  | nil => simp [segments]
  | cons char line inductionHypothesis =>
      have different : char ≠ '\n' := Ne.symm (List.ne_of_not_mem_cons unbroken)
      simp [segments, different, inductionHypothesis (List.not_mem_of_not_mem_cons unbroken)]

theorem segments_last (unbroken : '\n' ∉ line) (nonempty : line ≠ []) : segments line = [line] := by
  induction line with
  | nil => exact absurd rfl nonempty
  | cons char line inductionHypothesis =>
      have different : char ≠ '\n' := Ne.symm (List.ne_of_not_mem_cons unbroken)
      by_cases single : line = []
      · simp [segments, different, single]
      · simp [segments, different,
          inductionHypothesis (List.not_mem_of_not_mem_cons unbroken) single]

/-! ### Blanks at the ends -/

def IsGap (text : List Char) : Prop :=
  ∀ char ∈ text, isBlank char = true

instance (text : List Char) : Decidable (IsGap text) :=
  decidable_of_iff (text.all isBlank = true) List.all_eq_true

theorem IsGap.append {first second : List Char} (left : IsGap first) (right : IsGap second) :
    IsGap (first ++ second) := by
  intro char member
  rcases List.mem_append.mp member with early | late
  · exact left char early
  · exact right char late

theorem trimStart_gap_append (blank : IsGap gap) (text : List Char) :
    trimStart (gap ++ text) = trimStart text :=
  List.dropWhile_append_of_pos blank

theorem trimStart_eq_nil_iff : trimStart text = [] ↔ IsGap text :=
  List.dropWhile_eq_nil_iff

theorem trimStart_append (visible : trimStart text ≠ []) (rest : List Char) :
    trimStart (text ++ rest) = trimStart text ++ rest := by
  rw [trimStart, List.dropWhile_append, if_neg]
  · rfl
  · simpa [trimStart] using visible

theorem exists_gap_trimStart (text : List Char) : ∃ gap, IsGap gap ∧ text = gap ++ trimStart text :=
  ⟨text.takeWhile isBlank, List.all_eq_true.mp List.all_takeWhile,
    List.takeWhile_append_dropWhile.symm⟩

theorem exists_trimEnd_gap (text : List Char) : ∃ gap, IsGap gap ∧ text = trimEnd text ++ gap := by
  obtain ⟨gap, blank, reversed⟩ := exists_gap_trimStart text.reverse
  refine ⟨gap.reverse, fun char member => blank char (List.mem_reverse.mp member), ?_⟩
  calc text = (gap ++ trimStart text.reverse).reverse := by rw [← reversed, List.reverse_reverse]
    _ = trimEnd text ++ gap.reverse := List.reverse_append

theorem trimEnd_append_gap (blank : IsGap gap) (text : List Char) :
    trimEnd (text ++ gap) = trimEnd text := by
  have backwards : IsGap gap.reverse := fun char member => blank char (List.mem_reverse.mp member)
  rw [trimEnd, List.reverse_append]
  exact congrArg List.reverse (trimStart_gap_append backwards _)

theorem trim_gap_append (blank : IsGap gap) (text : List Char) : trim (gap ++ text) = trim text :=
  congrArg trimEnd (trimStart_gap_append blank text)

theorem trim_append_gap (blank : IsGap gap) (text : List Char) : trim (text ++ gap) = trim text := by
  by_cases empty : trimStart text = []
  · have nothing := trimStart_eq_nil_iff.mpr ((trimStart_eq_nil_iff.mp empty).append blank)
    rw [trim, trim, nothing, empty]
  · rw [trim, trimStart_append empty, trimEnd_append_gap blank, trim]

theorem trimEnd_trim (text : List Char) : trimEnd (trim text) = trim text :=
  List.rdropWhile_idempotent isBlank (trimStart text)

theorem trimEnd_of_append {front : List Char} (trimmed : trimEnd (front ++ text) = front ++ text) :
    trimEnd text = text := by
  refine List.rdropWhile_eq_self_iff.mpr fun nonempty => ?_
  have visible :=
    List.rdropWhile_eq_self_iff.mp trimmed (List.append_ne_nil_of_right_ne_nil front nonempty)
  rwa [List.getLast_append_of_ne_nil _ nonempty] at visible

/-- Behind a text that does not end with a blank, the end is trimmed as if it stood alone. -/
theorem trimEnd_append {front : List Char} (kept : trimEnd front = front) (text : List Char) :
    trimEnd (front ++ text) = front ++ trimEnd text := by
  rw [trimEnd, List.reverse_append, List.dropWhile_append]
  split
  case isTrue nothing =>
      have gone : trimEnd text = [] :=
        List.reverse_eq_nil_iff.mpr (List.isEmpty_iff.mp nothing)
      rw [gone, List.append_nil]
      exact kept
  case isFalse => rw [List.reverse_append, List.reverse_reverse, trimEnd]

theorem exists_gaps_trim (text : List Char) :
    ∃ before behind, IsGap before ∧ IsGap behind ∧ text = before ++ (trim text ++ behind) := by
  obtain ⟨before, leading, whole⟩ := exists_gap_trimStart text
  obtain ⟨behind, trailing, kept⟩ := exists_trimEnd_gap (trimStart text)
  exact ⟨before, behind, leading, trailing, by rw [trim, ← kept, ← whole]⟩

theorem trim_trim (text : List Char) : trim (trim text) = trim text := by
  obtain ⟨before, behind, leading, trailing, whole⟩ := exists_gaps_trim text
  calc trim (trim text) = trim (before ++ (trim text ++ behind)) := by
        rw [trim_gap_append leading, trim_append_gap trailing]
    _ = trim text := by rw [← whole]

theorem exists_chomp_gap (segment : List Char) : ∃ gap, IsGap gap ∧ segment = chomp segment ++ gap := by
  unfold chomp
  split
  case h_1 line ended =>
      refine ⟨['\r', '\n'], by decide, ?_⟩
      rw [← List.reverse_reverse segment, ended]
      simp
  case h_2 line _ ended =>
      refine ⟨['\n'], by decide, ?_⟩
      rw [← List.reverse_reverse segment, ended]
      simp
  case h_3 => exact ⟨[], by simp [IsGap], (List.append_nil _).symm⟩

end BackupClient.Text
