import BackupClient.Number.Shortest
import BackupClient.Proofs.Json.Lexing
import BackupClient.Proofs.Text.Decimal
import Mathlib.Tactic.SplitIfs

/-!
Numerals of doubles as numbers of JSON text.

The numeral of a finite double has a fraction or an exponent, and so it is never read as a whole number.
What it is read as may be another double than the one that it was written for.
-/

namespace BackupClient

/-! ### Numbers that are not whole -/

namespace Json

variable {text : List Char} {parts : NumberParts}

inductive UnsignedFloat : List Char → Prop where
  | parts {whole fraction exponent : List Char} : WholeText whole → FractionText fraction →
      ExponentText exponent → fraction ++ exponent ≠ [] →
      UnsignedFloat (whole ++ (fraction ++ exponent))

inductive FloatText : List Char → Prop where
  | signed {sign text : List Char} : sign ∈ [[], ['-']] → UnsignedFloat text → FloatText (sign ++ text)

theorem FloatText.numberText (written : FloatText text) : NumberText text := by
  cases written with
  | signed sign unsigned =>
      cases unsigned with
      | parts whole fraction exponent _ => exact .parts sign whole fraction exponent

theorem ExponentText.exists_some_read (written : ExponentText text) (nonempty : text ≠ []) :
    ∃ exponent, readExponent? text = some (some exponent) := by
  cases written with
  | absent => exact absurd rfl nonempty
  | digits marked signed written =>
      obtain ⟨exponent, read⟩ := exists_exponent? signed written
      simp only [List.mem_cons, List.not_mem_nil, or_false] at marked
      rcases marked with rfl | rfl
      · exact ⟨exponent, by simp [readExponent?, read]⟩
      · exact ⟨exponent, by simp [readExponent?, read]⟩

theorem FloatText.exists_numberParts? (written : FloatText text) :
    ∃ parts, numberParts? text = some parts ∧ ¬ (parts.fraction = none ∧ parts.exponent = none) := by
  cases written with
  | signed sign unsigned =>
      cases unsigned with
      | @parts whole fraction exponent digits fractional exponential nonempty =>
          have ends := fractional.endsDigits_append exponential
          obtain ⟨negative, signCut⟩ := exists_cutSign sign digits.1 (fraction ++ exponent)
          obtain ⟨shown, cut, proper⟩ := fractional.exists_cut exponential
          have split := numberParts?_eq signCut (takeWhile_digits digits.1 ends)
            (dropWhile_digits digits.1 ends) (wholeText_accepted digits) cut proper
          cases fractional with
          | absent =>
              obtain ⟨power, read⟩ := exponential.exists_some_read nonempty
              refine ⟨⟨negative, whole, shown, some power⟩, ?_, nofun⟩
              rw [split, read]
              rfl
          | digits _ =>
              obtain ⟨power, read⟩ := exponential.exists_read
              refine ⟨⟨negative, whole, shown, power⟩, ?_, ?_⟩
              · rw [split, read]
                rfl
              · rintro ⟨rfl, -⟩
                cases cut

theorem value_of_float (float : ¬ (parts.fraction = none ∧ parts.exponent = none)) :
    (∃ double, parts.value = .float double) ∨ parts.value = .unreadable := by
  have scaled (negative : Bool) (significand : Nat) (exponent : Int) :
      (∃ double, NumberParts.value.double negative significand exponent = .float double) ∨
        NumberParts.value.double negative significand exponent = .unreadable := by
    unfold NumberParts.value.double
    split
    · exact Or.inl ⟨_, rfl⟩
    · exact Or.inr rfl
  unfold NumberParts.value
  dsimp only
  split
  case h_1 noFraction noExponent => exact absurd ⟨noFraction, noExponent⟩ float
  case h_2 => exact scaled _ _ _

theorem FloatText.exists_lexes (written : FloatText text) :
    ∃ value, Lexes text (.scalar value) ∧ ((∃ double, value = .float double) ∨ value = .unreadable) := by
  obtain ⟨parts, cut, float⟩ := written.exists_numberParts?
  exact ⟨parts.value, lexes_word written.numberText.isWordChar (wordValue?_of_numberParts? cut),
    value_of_float float⟩

theorem digitsText_of_isDigit (nonempty : text ≠ [])
    (shown : ∀ char ∈ text, Text.Decimal.isDigit char = true) : DigitsText text := by
  refine ⟨nonempty, ?_⟩
  intro char member
  simpa [Text.Decimal.isDigit] using shown char member

theorem digitsText_zero : DigitsText ['0'] :=
  digitsText_of_isDigit (List.cons_ne_nil _ _) (List.forall_mem_singleton.mpr rfl)

theorem digitsText_digits (number : Nat) : DigitsText (Text.Decimal.digits number) :=
  digitsText_of_isDigit (Text.Decimal.digits_ne_nil number) fun _ => Text.Decimal.isDigit_of_mem_digits

theorem wholeText_digits (number : Nat) : WholeText (Text.Decimal.digits number) := by
  refine ⟨digitsText_digits number, ?_⟩
  intro zero
  rcases Nat.eq_zero_or_pos number with rfl | positive
  · exact Text.Decimal.digits_of_lt (by decide)
  · exact absurd zero (Text.Decimal.head?_digits positive)

end Json

/-! ### The shortest numeral -/

namespace Binary64

open Json

variable {interval : Interval} {digits fuel mantissa : Nat} {exponent scale : Int} {text : List Char}

theorem pick?_pos (picked : interval.pick? exponent = some digits) : 0 < digits := by
  unfold Interval.pick? at picked
  dsimp only at picked
  split at picked
  case isTrue both =>
      simp only [Bool.and_eq_true, decide_eq_true_eq] at both
      split at picked
      · obtain rfl := Option.some.inj picked
        exact Nat.pos_of_ne_zero both.1.1
      · obtain rfl := Option.some.inj picked
        exact Nat.succ_pos _
  case isFalse =>
      split at picked
      case isTrue below =>
          simp only [Bool.and_eq_true, decide_eq_true_eq] at below
          obtain rfl := Option.some.inj picked
          exact Nat.pos_of_ne_zero below.1
      case isFalse =>
          split at picked
          · obtain rfl := Option.some.inj picked
            exact Nat.succ_pos _
          · cases picked

theorem search_pos (found : interval.search exponent fuel = some (digits, scale)) : 0 < digits := by
  induction fuel generalizing exponent with
  | zero => cases found
  | succ fuel inductionHypothesis =>
      unfold Interval.search at found
      split at found
      case h_1 picked =>
          obtain rfl := (Prod.mk.inj (Option.some.inj found)).1
          exact pick?_pos picked
      case h_2 => exact inductionHypothesis found

theorem stripZeros_pos (positive : 0 < digits) : 0 < (stripZeros digits exponent).1 := by
  induction digits using Nat.strongRecOn generalizing exponent with
  | ind digits inductionHypothesis =>
      unfold stripZeros
      split
      case isTrue zero => exact inductionHypothesis (digits / 10) (by omega) (by omega)
      case isFalse => exact positive

theorem shortest_pos (nonzero : mantissa ≠ 0) : 0 < (shortest mantissa scale).1 := by
  unfold shortest
  dsimp only
  split
  case h_1 found => exact stripZeros_pos (search_pos found)
  case h_2 => exact Nat.pos_of_ne_zero nonzero

theorem wholeText_take {count : Nat} (positive : 0 < digits) (some : 0 < count) :
    WholeText ((Text.Decimal.digits digits).take count) := by
  have nonempty := Text.Decimal.digits_ne_nil digits
  refine ⟨⟨?_, ?_⟩, ?_⟩
  · simp [nonempty, Nat.ne_of_gt some]
  · intro char member
    exact (digitsText_digits digits).2 char (List.mem_of_mem_take member)
  · intro zero
    rw [List.head?_take, if_neg (Nat.ne_of_gt some)] at zero
    exact absurd zero (Text.Decimal.head?_digits positive)

theorem wholeText_append_zeros (positive : 0 < digits) (zeros : Nat) :
    WholeText (Text.Decimal.digits digits ++ List.replicate zeros '0') := by
  have nonempty := Text.Decimal.digits_ne_nil digits
  refine ⟨⟨List.append_ne_nil_of_left_ne_nil nonempty _, ?_⟩, ?_⟩
  · intro char member
    rcases List.mem_append.mp member with digit | zero
    · exact (digitsText_digits digits).2 char digit
    · rw [List.eq_of_mem_replicate zero]
      decide
  · intro zero
    rw [List.head?_append_of_ne_nil _ nonempty] at zero
    exact absurd zero (Text.Decimal.head?_digits positive)

theorem digitsText_drop {count : Nat} (short : count < (Text.Decimal.digits digits).length) :
    DigitsText ((Text.Decimal.digits digits).drop count) := by
  refine ⟨?_, ?_⟩
  · intro nothing
    exact absurd (List.drop_eq_nil_iff.mp nothing) (Nat.not_le.mpr short)
  · intro char member
    exact (digitsText_digits digits).2 char (List.mem_of_mem_drop member)

theorem zerosText_append {zeros : Nat} {chars : List Char} (written : DigitsText chars) :
    DigitsText (List.replicate zeros '0' ++ chars) := by
  refine ⟨List.append_ne_nil_of_right_ne_nil _ written.1, ?_⟩
  intro char member
  rcases List.mem_append.mp member with zero | digit
  · rw [List.eq_of_mem_replicate zero]
    decide
  · exact written.2 char digit

theorem exponentText_ofInt (power : Int) : ExponentText ('e' :: Text.Decimal.ofInt power) := by
  unfold Text.Decimal.ofInt
  split
  · exact @ExponentText.digits 'e' ['-'] _ (by decide) (by decide) (digitsText_digits _)
  · exact @ExponentText.digits 'e' [] _ (by decide) (by decide) (digitsText_digits _)

theorem unsignedFloat_numeral (positive : 0 < digits) (exponent : Int) :
    UnsignedFloat (numeral digits exponent) := by
  have length := List.length_pos_of_ne_nil (Text.Decimal.digits_ne_nil digits)
  have fraction {chars : List Char} (written : DigitsText chars) : FractionText ('.' :: chars) :=
    .digits written
  unfold numeral
  dsimp only
  split
  case isTrue =>
      have whole := wholeText_append_zeros positive exponent.toNat
      simpa using UnsignedFloat.parts whole (fraction digitsText_zero) .absent (by simp)
  case isFalse long =>
      split
      case isTrue inside =>
          have front := wholeText_take positive
            (show 0 < ((Text.Decimal.digits digits).length + exponent).toNat by omega)
          have back := digitsText_drop (show ((Text.Decimal.digits digits).length + exponent).toNat <
            (Text.Decimal.digits digits).length by omega)
          simpa using UnsignedFloat.parts front (fraction back) .absent (by simp)
      case isFalse =>
          split
          case isTrue =>
              have zero : WholeText ['0'] := ⟨digitsText_zero, fun _ => rfl⟩
              simpa using UnsignedFloat.parts zero
                (fraction (zerosText_append (digitsText_digits digits))) .absent (by simp)
          case isFalse =>
              have front := wholeText_take positive (show 0 < 1 by decide)
              have power := exponentText_ofInt ((Text.Decimal.digits digits).length + exponent - 1)
              split
              case isTrue => simpa using UnsignedFloat.parts front .absent power (by simp)
              case isFalse several =>
                  have back := digitsText_drop (show 1 < (Text.Decimal.digits digits).length by omega)
                  simpa using UnsignedFloat.parts front (fraction back) power (by simp)

theorem floatText_of_numeral? {double : Binary64} (written : double.numeral? = some text) :
    FloatText text := by
  unfold numeral? at written
  split at written
  case h_1 negative mantissa scale finite =>
      have sign : (if negative then ['-'] else []) ∈ [[], ['-']] := by cases negative <;> decide
      dsimp only at written
      split at written
      case isTrue zero =>
          obtain rfl := Option.some.inj written
          exact .signed sign (@UnsignedFloat.parts ['0'] ['.', '0'] [] ⟨digitsText_zero, fun _ => rfl⟩
            (.digits digitsText_zero) .absent (by decide))
      case isFalse nonzero =>
          obtain rfl := Option.some.inj written
          exact .signed sign (unsignedFloat_numeral (shortest_pos nonzero) _)
  case h_2 => cases written

end Binary64

end BackupClient
