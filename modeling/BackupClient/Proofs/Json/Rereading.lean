import BackupClient.Json.Printer
import BackupClient.Proofs.Json.Bounds
import BackupClient.Proofs.Json.Numerals
import BackupClient.Proofs.Json.Reading

/-!
Written values read again.

Everything is read as it was, but for doubles: the numeral of a double is the shortest one that belongs to
it, and the quick rule for reading may come to another double.  So what is read again is the value with each
of its doubles read again.
-/

namespace BackupClient

namespace Json

variable {value : Json} {depth : Nat} {chars : List Char} {char : Char}

/-! ### Strings -/

theorem hexDigit_spelled {value : Nat} (small : value < 16) : HexDigit value (hexDigit value) := by
  unfold hexDigit
  split
  case isTrue decimal => exact .decimal decimal
  case isFalse beyond => exact .small (by omega) small

theorem escapeChar_spelled (char : Char) : SpelledChar char (escapeChar char) := by
  unfold escapeChar
  split
  case h_1 => exact .short (by decide)
  case h_2 => exact .short (by decide)
  case h_3 => exact .short (by decide)
  case h_4 => exact .short (by decide)
  case h_5 => exact .short (by decide)
  case h_6 noQuote noEscape _ _ _ =>
      split
      case isTrue backspace =>
          rw [← Char.ofNat_toNat char, backspace]
          exact .short (by decide)
      case isFalse =>
          split
          case isTrue formFeed =>
              rw [← Char.ofNat_toNat char, formFeed]
              exact .short (by decide)
          case isFalse =>
              split
              case isTrue control =>
                  have first := hexDigit_spelled (show char.toNat / 16 < 16 by omega)
                  have second := hexDigit_spelled (show char.toNat % 16 < 16 by omega)
                  have zero : HexDigit 0 '0' := .decimal (by decide)
                  have unit := UnitText.digits zero zero first second
                  have code : ((0 * 16 + 0) * 16 + char.toNat / 16) * 16 + char.toNat % 16 =
                      char.toNat := by omega
                  rw [code] at unit
                  exact .unit unit
              case isFalse visible => exact .plain (by omega) noQuote noEscape

theorem quote_spelled (text : String) : SpelledString text (quote text.toList) := by
  have body (chars : List Char) : SpelledChars chars (chars.flatMap escapeChar) := by
    induction chars with
    | nil => exact .nil
    | cons char chars inductionHypothesis =>
        exact .cons (escapeChar_spelled char) inductionHypothesis
  exact .quoted (body text.toList)

theorem SpelledString.stringText {content : String} {text : List Char}
    (spelled : SpelledString content text) : StringText text := by
  cases spelled with
  | quoted spelled =>
      apply StringText.quoted
      generalize content.toList = chars at spelled
      induction spelled with
      | nil => exact .nil
      | cons head _ inductionHypothesis => exact .char head inductionHypothesis

/-! ### Numbers -/

theorem numberText_ofInt (number : Int) : NumberText (Text.Decimal.ofInt number) := by
  have whole := wholeText_digits number.natAbs
  unfold Text.Decimal.ofInt
  split
  case isTrue negative =>
      have written := NumberText.parts (List.mem_cons_of_mem [] List.mem_cons_self) whole .absent .absent
      rwa [List.append_nil, List.append_nil] at written
  case isFalse natural =>
      have written := NumberText.parts List.mem_cons_self whole .absent .absent
      rwa [List.append_nil, List.append_nil] at written

theorem endsDigits_nil : EndsDigits [] :=
  fun _ member => nomatch member

theorem lexes_ofInt {number : Int} (least : -2 ^ 63 ≤ number) (greatest : number < 2 ^ 64) :
    Lexes (Text.Decimal.ofInt number) (.scalar (.int number)) := by
  have written := wholeText_digits number.natAbs
  have value := Text.Decimal.value_digits number.natAbs
  unfold Text.Decimal.ofInt
  split
  case isFalse natural =>
      have lexes := written.lexes (show Text.Decimal.value _ < 2 ^ 64 by omega)
      have whole : (number.natAbs : Int) = number := by omega
      rwa [value, whole] at lexes
  case isTrue negative =>
      have front := takeWhile_digits written.1 endsDigits_nil
      have back := dropWhile_digits written.1 endsDigits_nil
      rw [List.append_nil] at front back
      have sign : cutSign ('-' :: Text.Decimal.digits number.natAbs) =
          (true, Text.Decimal.digits number.natAbs) := rfl
      have cut := numberParts?_eq sign front back (wholeText_accepted written) rfl
        (Option.some_ne_none _).symm
      have known := wordValue?_of_numberParts? cut
      have exact : wholeDigits (Text.Decimal.digits number.natAbs) = (number.natAbs, 0) := by
        have fits : Text.Decimal.valueFrom 0 (Text.Decimal.digits number.natAbs) < 2 ^ 64 := by
          rw [← Text.Decimal.value, value]
          omega
        rw [wholeDigits, wholeDigits_go fits, ← Text.Decimal.value, value]
      have read : NumberParts.value ⟨true, Text.Decimal.digits number.natAbs, none, none⟩ =
          .int (-(number.natAbs : Int)) := by
        have positive : 0 < number.natAbs := by omega
        have bounded : number.natAbs ≤ Nat.pow 2 63 := by
          show number.natAbs ≤ 2 ^ 63
          omega
        simp [NumberParts.value, exact, positive, bounded]
      have whole : -(number.natAbs : Int) = number := by omega
      rw [read, whole] at known
      apply lexes_word _ known
      exact List.forall_mem_cons.mpr ⟨by decide, written.1.isWordChar⟩

def rereadDouble (double : Binary64) : Json :=
  (parse? (write (.float double))).getD .unreadable

/-- What the text of a double denotes does not depend on where it stands. -/
theorem exists_denotes_double (double : Binary64) :
    ∃ value, (∀ depth, Denotes depth (write (.float double)) value) ∧
      ((∃ other, value = .float other) ∨ value = .unreadable ∨ value = .null) := by
  unfold write
  cases written : double.numeral? with
  | none => exact ⟨.null, fun depth => nullWord_denotes, .inr (.inr rfl)⟩
  | some text =>
      obtain ⟨value, lexes, float⟩ := (Binary64.floatText_of_numeral? written).exists_lexes
      refine ⟨value, fun depth => lexes.denotes_scalar, ?_⟩
      rcases float with double | unreadable
      · exact .inl double
      · exact .inr (.inl unreadable)

theorem rereadDouble_of_denotes {double : Binary64}
    (denotes : Denotes 0 (write (.float double)) value) : rereadDouble double = value := by
  rw [rereadDouble, denotes.parse?, Option.getD_some]

theorem double_denotes (double : Binary64) (depth : Nat) :
    Denotes depth (write (.float double)) (rereadDouble double) := by
  obtain ⟨value, denotes, -⟩ := exists_denotes_double double
  rw [rereadDouble_of_denotes (denotes 0)]
  exact denotes depth

/-- It is a double again, or nothing. -/
theorem rereadDouble_cases (double : Binary64) :
    (∃ other, rereadDouble double = .float other) ∨ rereadDouble double = .unreadable ∨
      rereadDouble double = .null := by
  obtain ⟨value, denotes, kind⟩ := exists_denotes_double double
  rw [rereadDouble_of_denotes (denotes 0)]
  exact kind

/-- A double that is read as it was written. -/
def ReadsBack (double : Binary64) : Prop :=
  parse? (write (.float double)) = some (.float double)

theorem readsBack_iff {double : Binary64} : ReadsBack double ↔ rereadDouble double = .float double := by
  rw [ReadsBack, (double_denotes double 0).parse?, Option.some.injEq]

/-! ### Values -/

mutual

def reread : Json → Json
  | .float double => rereadDouble double
  | .arr items => .arr (rereadItems items)
  | .obj members => .obj (rereadMembers members)
  | .unreadable => .null
  | value => value

def rereadItems : List Json → List Json
  | [] => []
  | item :: items => item.reread :: rereadItems items

def rereadMembers : List (String × Json) → List (String × Json)
  | [] => []
  | (name, value) :: members => (name, value.reread) :: rereadMembers members

end

theorem rereadItems_eq_map (items : List Json) : rereadItems items = items.map reread := by
  induction items with
  | nil => rfl
  | cons item items inductionHypothesis => rw [rereadItems, inductionHypothesis, List.map_cons]

theorem rereadMembers_eq_map (members : List (String × Json)) :
    rereadMembers members = members.map fun member => (member.1, member.2.reread) := by
  induction members with
  | nil => rfl
  | cons member members inductionHypothesis =>
      rw [rereadMembers, inductionHypothesis, List.map_cons]

theorem isSpacing_nil : IsSpacing [] :=
  List.forall_mem_nil _

theorem Listed.single (part : List Char) : Listed [part] part := by
  have listed : Listed [part] ([] ++ part ++ []) := .last isSpacing_nil isSpacing_nil
  rwa [List.nil_append, List.append_nil] at listed

theorem Listed.cons {part rest : List Char} {parts : List (List Char)} (listed : Listed parts rest) :
    Listed (part :: parts) (part ++ ',' :: rest) := by
  have more : Listed (part :: parts) ([] ++ part ++ [] ++ ',' :: rest) :=
    .more isSpacing_nil isSpacing_nil listed
  rwa [List.nil_append, List.append_nil] at more

theorem enclosed_items (items : List Json) : Enclosed (items.map write) (writeItems items) := by
  cases items with
  | nil => exact .nothing isSpacing_nil
  | cons item items =>
      apply Enclosed.parts
      induction items generalizing item with
      | nil => exact .single (write item)
      | cons next items inductionHypothesis => exact (inductionHypothesis next).cons

def memberText (member : String × Json) : MemberText :=
  ⟨quote member.1.toList, [], [], write member.2, isSpacing_nil, isSpacing_nil⟩

theorem memberText_text (member : String × Json) :
    (memberText member).text = quote member.1.toList ++ ':' :: write member.2 := by
  simp [memberText, MemberText.text]

theorem enclosed_members (members : List (String × Json)) :
    Enclosed ((members.map memberText).map MemberText.text) (writeMembers members) := by
  cases members with
  | nil => exact .nothing isSpacing_nil
  | cons member members =>
      apply Enclosed.parts
      induction members generalizing member with
      | nil =>
          rw [List.map_singleton, List.map_singleton, memberText_text]
          exact .single _
      | cons next members inductionHypothesis =>
          have listed : Listed _ ((memberText member).text ++ ',' :: _) :=
            (inductionHypothesis next).cons
          rw [memberText_text] at listed
          rw [List.map_cons, List.map_cons, memberText_text]
          exact listed

theorem write_objectText (members : List (String × Json)) :
    ObjectText (members.map fun member => (member.1, write member.2)) (write (.obj members)) := by
  refine .braces ?_ (enclosed_members members)
  rw [List.forall₂_map_left_iff, List.forall₂_map_right_iff, List.forall₂_same]
  intro member _
  exact ⟨quote_spelled member.1, rfl⟩

mutual

/-- What is written is a text of the grammar, whatever the value. -/
theorem write_valueText : ∀ value : Json, ValueText (write value)
  | .null => .nullWord
  | .bool true => .trueWord
  | .bool false => .falseWord
  | .int number => .number (numberText_ofInt number)
  | .float double => by
      unfold write
      cases written : double.numeral? with
      | none => exact .nullWord
      | some text => exact .number (Binary64.floatText_of_numeral? written).numberText
  | .str text => .string (quote_spelled text).stringText
  | .arr items => .array (write_valueText_items items) (enclosed_items items)
  | .obj members => by
      have keys : ∀ spelling ∈ members.map memberText, StringText spelling.key := by
        intro spelling listed
        obtain ⟨member, -, rfl⟩ := List.mem_map.mp listed
        exact (quote_spelled member.1).stringText
      exact .object keys (write_valueText_members members) (enclosed_members members)
  | .unreadable => .nullWord

theorem write_valueText_items : ∀ items : List Json, ∀ text ∈ items.map write, ValueText text
  | [] => List.forall_mem_nil _
  | item :: items => List.forall_mem_cons.mpr ⟨write_valueText item, write_valueText_items items⟩

theorem write_valueText_members :
    ∀ members : List (String × Json), ∀ spelling ∈ members.map memberText, ValueText spelling.value
  | [] => List.forall_mem_nil _
  | (_, value) :: members =>
      List.forall_mem_cons.mpr ⟨write_valueText value, write_valueText_members members⟩

end

theorem FitsAt.write_denotes (fits : FitsAt depth value) :
    Denotes depth (write value) (reread value) := by
  induction fits with
  | null => exact nullWord_denotes
  | bool value =>
      cases value with
      | true => exact trueWord_denotes
      | false => exact falseWord_denotes
  | int least greatest => exact (lexes_ofInt least greatest).denotes_scalar
  | float value => exact double_denotes value _
  | str text => exact (quote_spelled text).denotes
  | @arr depth items shallow fit inductionHypothesis =>
      have denoted : List.Forall₂ (Denotes (depth + 1)) (items.map write) (items.map reread) := by
        rw [List.forall₂_map_left_iff, List.forall₂_map_right_iff, List.forall₂_same]
        exact inductionHypothesis
      have whole := denotes_array denoted (enclosed_items items)
      rw [limitedAt, if_pos shallow, ← rereadItems_eq_map] at whole
      exact whole
  | @obj depth members shallow fit inductionHypothesis =>
      rw [reread, rereadMembers_eq_map]
      apply (write_objectText members).denotes shallow
      rw [List.forall₂_map_left_iff, List.forall₂_map_right_iff, List.forall₂_same]
      intro member listed
      exact ⟨rfl, inductionHypothesis member listed⟩
  | unreadable => exact nullWord_denotes

/-- A value is read again with each of its doubles read again. -/
theorem FitsAt.parse?_write (fits : FitsAt 0 value) : parse? (write value) = some (reread value) :=
  fits.write_denotes.parse?

end Json

end BackupClient
