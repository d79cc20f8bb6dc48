import BackupClient.Engine.Client
import BackupClient.Proofs.Text.Lines

/-!
Documents behind other text.

Output is cut in front of the first line that opens an object, and only blanks are lost.  So text that has no
such line makes no difference to the document behind it.
-/

namespace BackupClient.Text

variable {line rest text gap raw : List Char}

/-! ### Lines that open an object -/

theorem opensObject_gap_append (blank : IsGap gap) (text : List Char) :
    opensObject (gap ++ text) = opensObject text := by
  rw [opensObject, trimStart_gap_append blank, opensObject]

theorem opensObject_gap (blank : IsGap gap) : opensObject gap = false := by
  rw [opensObject, trimStart_eq_nil_iff.mpr blank]
  rfl

theorem trimStart_ne_nil (opens : opensObject text = true) : trimStart text ≠ [] := by
  intro nothing
  rw [opensObject, nothing] at opens
  cases opens

theorem opensObject_append (opens : opensObject text = true) (rest : List Char) :
    opensObject (text ++ rest) = true := by
  have visible := trimStart_ne_nil opens
  rw [opensObject, trimStart_append visible, List.head?_append_of_ne_nil _ visible]
  exact opens

theorem opensObject_append_gap (blank : IsGap gap) (text : List Char) :
    opensObject (text ++ gap) = opensObject text := by
  by_cases visible : trimStart text = []
  · have leading := trimStart_eq_nil_iff.mp visible
    rw [opensObject_gap (leading.append blank), opensObject_gap leading]
  · rw [opensObject, trimStart_append visible, List.head?_append_of_ne_nil _ visible, opensObject]

/-- Some line of a text opens an object. -/
def HasOpening (text : List Char) : Prop :=
  ∃ line ∈ lines text, opensObject line = true

theorem hasOpening_iff : HasOpening text ↔ ∃ segment ∈ segments text, opensObject segment = true := by
  have chomped (segment : List Char) : opensObject (chomp segment) = opensObject segment := by
    obtain ⟨gap, blank, whole⟩ := exists_chomp_gap segment
    exact (opensObject_append_gap blank _).symm.trans (congrArg opensObject whole.symm)
  constructor
  · rintro ⟨line, member, opens⟩
    obtain ⟨segment, cut, rfl⟩ := List.mem_map.mp member
    exact ⟨segment, cut, chomped segment ▸ opens⟩
  · rintro ⟨segment, cut, opens⟩
    exact ⟨chomp segment, List.mem_map_of_mem cut, (chomped segment).trans opens⟩

theorem hasOpening_more (unbroken : '\n' ∉ line) (rest : List Char) :
    HasOpening (line ++ '\n' :: rest) ↔ opensObject line = true ∨ HasOpening rest := by
  have ended : opensObject (line ++ ['\n']) = opensObject line :=
    opensObject_append_gap (by decide) line
  simp [hasOpening_iff, segments_more unbroken, ended]

theorem hasOpening_last (unbroken : '\n' ∉ line) : HasOpening line ↔ opensObject line = true := by
  by_cases empty : line = []
  · subst empty
    exact iff_of_false (by simp [HasOpening, lines, segments]) (by decide)
  · simp [hasOpening_iff, segments_last unbroken empty]

theorem hasOpening_append (text rest : List Char) :
    HasOpening (text ++ '\n' :: rest) ↔ HasOpening text ∨ HasOpening rest := by
  induction inLines '\n' text with
  | last unbroken => rw [hasOpening_more unbroken, hasOpening_last unbroken]
  | more unbroken _ inductionHypothesis =>
      rw [List.append_assoc, List.cons_append, hasOpening_more unbroken, hasOpening_more unbroken,
        inductionHypothesis, or_assoc]

theorem hasOpening_gap_append (blank : IsGap gap) (text : List Char) :
    HasOpening (gap ++ text) ↔ HasOpening text := by
  induction inLines '\n' gap with
  | last unbroken =>
      cases inLines '\n' text with
      | last other =>
          rw [hasOpening_last (List.not_mem_append unbroken other), hasOpening_last other,
            opensObject_gap_append blank]
      | more other _ =>
          rw [← List.append_assoc, hasOpening_more (List.not_mem_append unbroken other),
            hasOpening_more other, opensObject_gap_append blank]
  | @more line rest unbroken _ inductionHypothesis =>
      have parts := List.forall_mem_append.mp blank
      have later : IsGap rest := (List.forall_mem_cons.mp parts.2).2
      rw [List.append_assoc, List.cons_append, hasOpening_more unbroken, opensObject_gap parts.1,
        inductionHypothesis later]
      simp

theorem not_hasOpening_gap (blank : IsGap gap) : ¬ HasOpening gap := by
  have nothing := hasOpening_gap_append blank []
  rw [List.append_nil, hasOpening_last List.not_mem_nil] at nothing
  exact fun opening => absurd (nothing.mp opening) (by decide)

theorem hasOpening_append_gap (blank : IsGap gap) (text : List Char) :
    HasOpening (text ++ gap) ↔ HasOpening text := by
  induction inLines '\n' text with
  | last unbroken =>
      cases inLines '\n' gap with
      | last other =>
          rw [hasOpening_last (List.not_mem_append unbroken other), hasOpening_last unbroken,
            opensObject_append_gap blank]
      | more other _ =>
          have parts := List.forall_mem_append.mp blank
          have later := (List.forall_mem_cons.mp parts.2).2
          rw [← List.append_assoc, hasOpening_more (List.not_mem_append unbroken other),
            hasOpening_last unbroken, opensObject_append_gap parts.1]
          simp [not_hasOpening_gap later]
  | more unbroken _ inductionHypothesis =>
      rw [List.append_assoc, List.cons_append, hasOpening_more unbroken, hasOpening_more unbroken,
        inductionHypothesis]

theorem hasOpening_trim : HasOpening (trim raw) ↔ HasOpening raw := by
  obtain ⟨before, behind, leading, trailing, whole⟩ := exists_gaps_trim raw
  rw [← hasOpening_append_gap trailing, ← hasOpening_gap_append leading, ← whole]

theorem hasOpening_of_opens (opens : opensObject text = true) : HasOpening text := by
  induction inLines '\n' text with
  | last unbroken => exact (hasOpening_last unbroken).mpr opens
  | @more line rest unbroken _ inductionHypothesis =>
      rw [hasOpening_more unbroken]
      by_cases visible : trimStart line = []
      · have gap : IsGap (line ++ ['\n']) := (trimStart_eq_nil_iff.mp visible).append (by decide)
        rw [List.append_cons, opensObject_gap_append gap] at opens
        exact .inr (inductionHypothesis opens)
      · rw [opensObject, trimStart_append visible, List.head?_append_of_ne_nil _ visible] at opens
        exact .inl opens

/-! ### In front of the first such line, and from it on -/

def beforeOpening (text : List Char) : List Char :=
  ((segments text).takeWhile (!opensObject ·)).flatten

def fromOpening (text : List Char) : List Char :=
  ((segments text).dropWhile (!opensObject ·)).flatten

theorem before_append_from (text : List Char) : beforeOpening text ++ fromOpening text = text := by
  rw [beforeOpening, fromOpening, ← List.flatten_append, List.takeWhile_append_dropWhile,
    flatten_segments]

theorem cut_more (unbroken : '\n' ∉ line) (rest : List Char) :
    beforeOpening (line ++ '\n' :: rest) =
        (if opensObject line then [] else line ++ '\n' :: beforeOpening rest) ∧
      fromOpening (line ++ '\n' :: rest) =
        if opensObject line then line ++ '\n' :: rest else fromOpening rest := by
  have ended : opensObject (line ++ ['\n']) = opensObject line :=
    opensObject_append_gap (by decide) line
  rw [beforeOpening, fromOpening, segments_more unbroken]
  by_cases opens : opensObject line = true
  · simp [ended, opens, flatten_segments]
  · simp [ended, opens, beforeOpening, fromOpening]

theorem cut_last (unbroken : '\n' ∉ line) :
    beforeOpening line = (if opensObject line then [] else line) ∧
      fromOpening line = if opensObject line then line else [] := by
  by_cases empty : line = []
  · subst empty
    exact ⟨rfl, rfl⟩
  · rw [beforeOpening, fromOpening, segments_last unbroken empty]
    by_cases opens : opensObject line = true
    · simp [opens]
    · simp [opens]

theorem not_hasOpening_before (text : List Char) : ¬ HasOpening (beforeOpening text) := by
  induction inLines '\n' text with
  | @last line unbroken =>
      rw [(cut_last unbroken).1]
      split
      case isTrue => exact not_hasOpening_gap (by decide)
      case isFalse shut => rwa [hasOpening_last unbroken]
  | @more line rest unbroken _ inductionHypothesis =>
      rw [(cut_more unbroken rest).1]
      split
      case isTrue => exact not_hasOpening_gap (by decide)
      case isFalse shut =>
          rw [hasOpening_more unbroken]
          exact not_or_intro shut inductionHypothesis

theorem opensObject_from (opening : HasOpening text) : opensObject (fromOpening text) = true := by
  induction inLines '\n' text with
  | last unbroken =>
      have opens := (hasOpening_last unbroken).mp opening
      rw [(cut_last unbroken).2, if_pos opens]
      exact opens
  | more unbroken _ inductionHypothesis =>
      rw [(cut_more unbroken _).2]
      split
      case isTrue opens => exact opensObject_append opens _
      case isFalse shut =>
          exact inductionHypothesis (((hasOpening_more unbroken _).mp opening).resolve_left shut)

theorem fromOpening_append (shut : ¬ HasOpening text) (rest : List Char) :
    fromOpening (text ++ '\n' :: rest) = fromOpening rest := by
  induction inLines '\n' text with
  | last unbroken =>
      rw [(cut_more unbroken rest).2, if_neg]
      rwa [← hasOpening_last unbroken]
  | more unbroken _ inductionHypothesis =>
      obtain ⟨first, later⟩ := not_or.mp ((hasOpening_more unbroken _).not.mp shut)
      rw [List.append_assoc, List.cons_append, (cut_more unbroken _).2, if_neg first,
        inductionHypothesis later]

/-- Blanks in front of a text are left out, or stay in front of the line that opens an object. -/
theorem trimStart_from_gap_append (blank : IsGap gap) (text : List Char) :
    trimStart (fromOpening (gap ++ text)) = trimStart (fromOpening text) := by
  induction inLines '\n' gap with
  | @last gap unbroken =>
      cases inLines '\n' text with
      | last other =>
          rw [(cut_last (List.not_mem_append unbroken other)).2, (cut_last other).2,
            opensObject_gap_append blank]
          split
          case isTrue => exact trimStart_gap_append blank _
          case isFalse => rfl
      | more other _ =>
          rw [← List.append_assoc, (cut_more (List.not_mem_append unbroken other) _).2,
            (cut_more other _).2, opensObject_gap_append blank]
          split
          case isTrue => rw [List.append_assoc, trimStart_gap_append blank]
          case isFalse => rfl
  | @more line rest unbroken _ inductionHypothesis =>
      have parts := List.forall_mem_append.mp blank
      have shut := not_hasOpening_gap parts.1
      rw [List.append_assoc, List.cons_append, fromOpening_append shut]
      exact inductionHypothesis (List.forall_mem_cons.mp parts.2).2

theorem fromOpening_append_gap (opening : HasOpening text) (gap : List Char) :
    fromOpening (text ++ gap) = fromOpening text ++ gap := by
  induction inLines '\n' text with
  | last unbroken =>
      have opens := (hasOpening_last unbroken).mp opening
      rw [(cut_last unbroken).2, if_pos opens]
      cases inLines '\n' gap with
      | last other =>
          rw [(cut_last (List.not_mem_append unbroken other)).2, if_pos (opensObject_append opens _)]
      | more other _ =>
          rw [← List.append_assoc, (cut_more (List.not_mem_append unbroken other) _).2,
            if_pos (opensObject_append opens _)]
  | more unbroken _ inductionHypothesis =>
      rw [List.append_assoc, List.cons_append, (cut_more unbroken _).2, (cut_more unbroken _).2]
      split
      case isTrue => rw [List.append_assoc, List.cons_append]
      case isFalse shut =>
          exact inductionHypothesis (((hasOpening_more unbroken _).mp opening).resolve_left shut)

/-! ### The two parts of an output -/

theorem sanitize_of_opening (opening : HasOpening (trim raw)) :
    sanitize raw =
      ⟨trimEnd (beforeOpening (trim raw)), trimStart (fromOpening (trim raw))⟩ := by
  obtain ⟨segment, member, opens⟩ := hasOpening_iff.mp opening
  have parted := List.takeWhile_append_dropWhile (p := (!opensObject ·)) (l := segments (trim raw))
  have left : (segments (trim raw)).dropWhile (!opensObject ·) ≠ [] := by
    intro none
    have shut := List.dropWhile_eq_nil_iff.mp none segment member
    simp [opens] at shut
  have shorter : ((segments (trim raw)).takeWhile (!opensObject ·)).length <
      (segments (trim raw)).length := by
    have lengths := congrArg List.length parted
    rw [List.length_append] at lengths
    have positive := List.length_pos_iff.mpr left
    omega
  have behind : (segments (trim raw)).drop
      ((segments (trim raw)).takeWhile (!opensObject ·)).length =
        (segments (trim raw)).dropWhile (!opensObject ·) :=
    (congrArg (List.drop _) parted.symm).trans List.drop_left
  rw [sanitize, if_pos shorter, behind, beforeOpening, fromOpening]

theorem sanitize_of_no_opening (shut : ¬ HasOpening (trim raw)) : sanitize raw = ⟨[], trim raw⟩ := by
  have all : (segments (trim raw)).takeWhile (!opensObject ·) = segments (trim raw) := by
    refine List.takeWhile_eq_self_iff.mpr fun segment member => ?_
    have other : ¬ opensObject segment = true :=
      fun opens => shut (hasOpening_iff.mpr ⟨segment, member, opens⟩)
    simpa using other
  rw [sanitize, all, if_neg (Nat.lt_irrefl _)]

theorem document_of_opening (opening : HasOpening raw) :
    (sanitize raw).document = trim (fromOpening raw) ∧
      trimEnd (sanitize raw).document = (sanitize raw).document := by
  have inner := hasOpening_trim.mpr opening
  rw [sanitize_of_opening inner]
  have visible := trimStart_ne_nil (opensObject_from inner)
  have trimmed : trimEnd (trimStart (fromOpening (trim raw))) = trimStart (fromOpening (trim raw)) := by
    obtain ⟨gap, -, whole⟩ := exists_gap_trimStart (fromOpening (trim raw))
    have joined : trim raw = (beforeOpening (trim raw) ++ gap) ++ trimStart (fromOpening (trim raw)) := by
      rw [List.append_assoc, ← whole, before_append_from]
    exact trimEnd_of_append (joined ▸ trimEnd_trim raw)
  refine ⟨?_, trimmed⟩
  obtain ⟨before, behind, leading, trailing, whole⟩ := exists_gaps_trim raw
  calc trimStart (fromOpening (trim raw))
      = trimEnd (trimStart (fromOpening (trim raw)) ++ behind) := by
        rw [trimEnd_append_gap trailing, trimmed]
    _ = trimEnd (trimStart (fromOpening (trim raw ++ behind))) := by
        rw [fromOpening_append_gap inner, trimStart_append visible]
    _ = trimEnd (trimStart (fromOpening raw)) := by
        rw [← trimStart_from_gap_append leading, ← whole]

theorem trimStart_of_head (begins : text.head? = some '\x7b') : trimStart text = text := by
  obtain ⟨rest, rfl⟩ := List.head?_eq_some_iff.mp begins
  rfl

theorem opensObject_of_head (begins : text.head? = some '\x7b') : opensObject text = true := by
  rw [opensObject, trimStart_of_head begins, begins]
  rfl

theorem cut_of_head (begins : text.head? = some '\x7b') :
    beforeOpening text = [] ∧ fromOpening text = text := by
  have opens := opensObject_of_head begins
  cases inLines '\n' text with
  | last unbroken => simpa [opens] using cut_last unbroken
  | @more line rest unbroken _ =>
      have first : opensObject line = true := by
        cases line with
        | nil => cases begins
        | cons char line => exact opensObject_of_head begins
      simpa [first] using cut_more unbroken rest

theorem sanitize_of_head (begins : text.head? = some '\x7b') (trimmed : trimEnd text = text) :
    sanitize text = ⟨[], text⟩ := by
  have kept : trim text = text := by rw [trim, trimStart_of_head begins, trimmed]
  have opening : HasOpening (trim text) :=
    kept.symm ▸ hasOpening_of_opens (opensObject_of_head begins)
  obtain ⟨nothing, whole⟩ := cut_of_head begins
  rw [sanitize_of_opening opening, kept, nothing, whole, trimStart_of_head begins]
  rfl

theorem exists_gap_sanitize (raw : List Char) :
    ∃ gap, IsGap gap ∧ trim raw = (sanitize raw).banner ++ (gap ++ (sanitize raw).document) := by
  by_cases opening : HasOpening (trim raw)
  · rw [sanitize_of_opening opening]
    obtain ⟨behind, trailing, banner⟩ := exists_trimEnd_gap (beforeOpening (trim raw))
    obtain ⟨before, leading, document⟩ := exists_gap_trimStart (fromOpening (trim raw))
    refine ⟨behind ++ before, trailing.append leading, ?_⟩
    calc trim raw = beforeOpening (trim raw) ++ fromOpening (trim raw) :=
          (before_append_from _).symm
      _ = (trimEnd (beforeOpening (trim raw)) ++ behind) ++
            (before ++ trimStart (fromOpening (trim raw))) := by rw [← banner, ← document]
      _ = _ := by simp only [List.append_assoc]
  · rw [sanitize_of_no_opening opening]
    exact ⟨[], by decide, rfl⟩

/-- The document of an output begins with the object, and nothing in front of it opens one. -/
theorem head?_document (opening : HasOpening raw) :
    (sanitize raw).document.head? = some '\x7b' ∧ ¬ HasOpening (sanitize raw).banner := by
  have inner := hasOpening_trim.mpr opening
  rw [sanitize_of_opening inner]
  refine ⟨of_decide_eq_true (opensObject_from inner), ?_⟩
  obtain ⟨gap, trailing, whole⟩ := exists_trimEnd_gap (beforeOpening (trim raw))
  rw [← hasOpening_append_gap trailing, ← whole]
  exact not_hasOpening_before (trim raw)

theorem sanitize_document (raw : List Char) :
    sanitize (sanitize raw).document = ⟨[], (sanitize raw).document⟩ := by
  by_cases opening : HasOpening raw
  · exact sanitize_of_head (head?_document opening).1 (document_of_opening opening).2
  · have shut : ¬ HasOpening (trim raw) := hasOpening_trim.not.mpr opening
    rw [sanitize_of_no_opening shut]
    have again : ¬ HasOpening (trim (trim raw)) := hasOpening_trim.not.mpr shut
    rw [sanitize_of_no_opening again, trim_trim]

theorem document_append {noise document : List Char} (shut : ¬ HasOpening noise)
    (opens : opensObject document = true) :
    (sanitize (noise ++ '\n' :: document)).document = (sanitize document).document := by
  have opening := hasOpening_of_opens opens
  have later : HasOpening (noise ++ '\n' :: document) :=
    (hasOpening_append noise document).mpr (.inr opening)
  rw [(document_of_opening later).1, (document_of_opening opening).1, fromOpening_append shut]

theorem not_hasOpening_iff : ¬ HasOpening text ↔ ∀ line ∈ lines text, opensObject line = false := by
  simp [HasOpening]

/-- Every output is cut without loss: trimmed, it is its banner, then blanks, then its document.  If one of
its lines opens an object, so does the document, and no line of the banner does; else all of it is the
document.  A document is not cut again.  So what is decoded behind text without such a line is what is
decoded without that text. -/
theorem sanitize_loses_blanks_only :
    (∀ raw : List Char,
      (∃ gap, (∀ char ∈ gap, isBlank char = true) ∧
        trim raw = (sanitize raw).banner ++ (gap ++ (sanitize raw).document)) ∧
      ((∃ line ∈ lines raw, opensObject line = true) →
        (sanitize raw).document.head? = some '\x7b' ∧
          ∀ line ∈ lines (sanitize raw).banner, opensObject line = false) ∧
      ((∀ line ∈ lines raw, opensObject line = false) → sanitize raw = ⟨[], trim raw⟩) ∧
      sanitize (sanitize raw).document = ⟨[], (sanitize raw).document⟩) ∧
    ∀ noise document : String,
      (∀ line ∈ lines noise.toList, opensObject line = false) → opensObject document.toList = true →
        (sanitize (noise ++ "\n" ++ document).toList).document =
            (sanitize document.toList).document ∧
          ∀ (α : Type) (decode : Json → Option α),
            (decodeOutput decode (noise ++ "\n" ++ document)).2 = (decodeOutput decode document).2 := by
  refine ⟨fun raw => ⟨exists_gap_sanitize raw, ?_, ?_, sanitize_document raw⟩, ?_⟩
  · intro opening
    obtain ⟨begins, shut⟩ := head?_document opening
    exact ⟨begins, not_hasOpening_iff.mp shut⟩
  · intro shut
    exact sanitize_of_no_opening (hasOpening_trim.not.mpr (not_hasOpening_iff.mpr shut))
  · intro noise document shut opens
    have joined : (noise ++ "\n" ++ document).toList =
        noise.toList ++ '\n' :: document.toList := by simp
    have same := document_append (not_hasOpening_iff.mpr shut) opens
    refine ⟨by rw [joined, same], fun α decode => ?_⟩
    simp only [decodeOutput, joined, same]

/-- A warning with a blank line behind it, in front of an indented document. -/
theorem sanitize_warning :
    let noise := "Warning: \x7b1\x7d old cache\r\n\t"
    let document := "  \x7b\"id\": 1\x7d "
    let raw := (noise ++ "\n" ++ document).toList
    ((∃ line ∈ lines raw, opensObject line = true) ∧ (sanitize raw).document.head? = some '\x7b') ∧
      (sanitize "none\n".toList = ⟨[], "none".toList⟩) ∧
      (∀ line ∈ lines noise.toList, opensObject line = false) ∧
      opensObject document.toList = true ∧
      (decodeOutput some (noise ++ "\n" ++ document)).2 = (decodeOutput some document).2 := by
  intro noise document raw
  obtain ⟨cut, behind⟩ := sanitize_loses_blanks_only
  have opening : ∃ line ∈ lines raw, opensObject line = true := by decide
  have shut : ∀ line ∈ lines noise.toList, opensObject line = false := by decide
  have opens : opensObject document.toList = true := by decide
  obtain ⟨-, opened, -, -⟩ := cut raw
  obtain ⟨-, -, unopened, -⟩ := cut "none\n".toList
  refine ⟨⟨opening, (opened opening).1⟩, ?_, shut, opens, ?_⟩
  · exact (unopened (by decide)).trans (by decide)
  · exact (behind noise document shut opens).2 Json some

end BackupClient.Text
