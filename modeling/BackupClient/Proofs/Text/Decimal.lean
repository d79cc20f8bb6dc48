import BackupClient.Text.Blank
import BackupClient.Text.Decimal
import Mathlib.Algebra.Group.Nat.Defs
import Mathlib.Data.List.Induction

/-!
Numerals and the numbers that they denote.

A run of digits is read as a number, and it is the number's numeral with zeros in front.  So reading undoes
writing, and what reading forgets is how many zeros there were.
-/

namespace BackupClient.Text.Decimal

variable {char : Char} {chars front : List Char} {digit number width : Nat}

/-! ### Single digits -/

theorem toNat_digitChar (small : digit < 10) : (digitChar digit).toNat = 48 + digit := by
  have each : ∀ digit < 10, (digitChar digit).toNat = 48 + digit := by decide
  exact each digit small

theorem isDigit_iff : isDigit char = true ↔ 48 ≤ char.toNat ∧ char.toNat ≤ 57 := by
  simp only [isDigit, Bool.and_eq_true, decide_eq_true_eq]
  exact Iff.rfl

theorem isDigit_digitChar (small : digit < 10) : isDigit (digitChar digit) = true := by
  rw [isDigit_iff, toNat_digitChar small]
  omega

theorem digitValue_digitChar (small : digit < 10) : digitValue (digitChar digit) = digit := by
  rw [digitValue, toNat_digitChar small, Nat.add_sub_cancel_left]

theorem not_isBlank_of_isDigit (shown : isDigit char = true) : isBlank char = false := by
  have bounds := isDigit_iff.mp shown
  simp [isBlank]
  omega

theorem digitValue_lt (shown : isDigit char = true) : digitValue char < 10 := by
  have bounds := isDigit_iff.mp shown
  rw [digitValue]
  omega

theorem digitChar_digitValue (shown : isDigit char = true) : digitChar (digitValue char) = char := by
  apply Char.ext
  apply UInt32.toNat_inj.mp
  have bounds := isDigit_iff.mp shown
  have value := toNat_digitChar (digitValue_lt shown)
  rw [digitValue] at value
  show (digitChar (digitValue char)).toNat = char.toNat
  rw [digitValue, value]
  omega

/-! ### Numerals -/

theorem digits_of_lt (small : number < 10) : digits number = [digitChar number] := by
  rw [digits, if_pos small]

theorem digits_append (positive : 0 < number) (small : digit < 10) :
    digits (number * 10 + digit) = digits number ++ [digitChar digit] := by
  have quotient : (number * 10 + digit) / 10 = number := by omega
  have remainder : (number * 10 + digit) % 10 = digit := by omega
  rw [digits, if_neg (by omega), quotient, remainder]

/-- Numbers as their numerals are made: one digit, or a positive number and one digit more. -/
theorem digits_induction {motive : Nat → Prop} (single : ∀ digit < 10, motive digit)
    (longer : ∀ number digit, 0 < number → digit < 10 → motive number → motive (number * 10 + digit))
    (number : Nat) : motive number := by
  induction number using Nat.strongRecOn with
  | ind number inductionHypothesis =>
      by_cases small : number < 10
      · exact single number small
      · have whole : number / 10 * 10 + number % 10 = number := by omega
        rw [← whole]
        apply longer
        · omega
        · omega
        · exact inductionHypothesis (number / 10) (by omega)

theorem digits_ne_nil (number : Nat) : digits number ≠ [] := by
  rw [digits]
  split
  · exact List.cons_ne_nil _ _
  · exact List.append_ne_nil_of_right_ne_nil _ (List.cons_ne_nil _ _)

theorem isDigit_of_mem_digits (member : char ∈ digits number) : isDigit char = true := by
  induction number using digits_induction with
  | single digit small =>
      rw [digits_of_lt small, List.mem_singleton] at member
      subst member
      exact isDigit_digitChar small
  | longer number digit positive small inductionHypothesis =>
      rw [digits_append positive small, List.mem_append, List.mem_singleton] at member
      rcases member with early | rfl
      · exact inductionHypothesis early
      · exact isDigit_digitChar small

theorem head?_digits (positive : 0 < number) : (digits number).head? ≠ some '0' := by
  induction number using digits_induction with
  | single digit small =>
      have each : ∀ digit < 10, 0 < digit → digitChar digit ≠ '0' := by decide
      rw [digits_of_lt small]
      exact fun zero => each digit small positive (Option.some.inj zero)
  | longer number digit larger small inductionHypothesis =>
      obtain ⟨first, others, shape⟩ := List.exists_cons_of_ne_nil (digits_ne_nil number)
      have kept := inductionHypothesis larger
      rw [shape] at kept
      rw [digits_append larger small, shape]
      exact kept

/-! ### Values -/

theorem value_append_singleton (front : List Char) (char : Char) :
    value (front ++ [char]) = value front * 10 + digitValue char := by
  simp [value, valueFrom, List.foldl_append]

theorem value_digits (number : Nat) : value (digits number) = number := by
  induction number using digits_induction with
  | single digit small =>
      rw [digits_of_lt small]
      show 0 * 10 + digitValue (digitChar digit) = digit
      rw [digitValue_digitChar small]
      omega
  | longer number digit positive small inductionHypothesis =>
      rw [digits_append positive small, value_append_singleton, inductionHypothesis,
        digitValue_digitChar small]

theorem value_zeros_append (zeros : Nat) (chars : List Char) :
    value (List.replicate zeros '0' ++ chars) = value chars := by
  induction zeros with
  | zero => rfl
  | succ zeros inductionHypothesis =>
      rw [List.replicate_succ, List.cons_append]
      exact inductionHypothesis

theorem exists_zeros (nonempty : chars ≠ []) (shown : ∀ char ∈ chars, isDigit char = true) :
    ∃ zeros, chars = List.replicate zeros '0' ++ digits (value chars) := by
  induction chars using List.reverseRecOn with
  | nil => exact absurd rfl nonempty
  | append_singleton front last inductionHypothesis =>
      have lastShown : isDigit last = true := shown last (List.mem_append_right _ List.mem_cons_self)
      have small := digitValue_lt lastShown
      rw [value_append_singleton]
      by_cases alone : front = []
      · subst alone
        refine ⟨0, ?_⟩
        show [last] = digits (0 * 10 + digitValue last)
        rw [Nat.zero_mul, Nat.zero_add, digits_of_lt small, digitChar_digitValue lastShown]
      · obtain ⟨zeros, whole⟩ := inductionHypothesis alone fun char member =>
          shown char (List.mem_append_left _ member)
        rcases Nat.eq_zero_or_pos (value front) with zero | positive
        · -- The front is nothing but zeros, and its last one joins those in front of the digit.
          refine ⟨zeros + 1, ?_⟩
          rw [zero, digits_of_lt (by decide)] at whole
          rw [zero, Nat.zero_mul, Nat.zero_add, digits_of_lt small, digitChar_digitValue lastShown,
            List.replicate_succ', whole]
          rfl
        · refine ⟨zeros, ?_⟩
          rw [digits_append positive small, digitChar_digitValue lastShown, ← List.append_assoc,
            ← whole]

theorem value?_eq_some_iff :
    value? chars = some number ↔ ∃ zeros, chars = List.replicate zeros '0' ++ digits number := by
  constructor
  · intro read
    unfold value? at read
    split at read
    case isTrue => cases read
    case isFalse digits =>
        obtain rfl := Option.some.inj read
        simp only [Bool.or_eq_true, List.isEmpty_iff, Bool.not_eq_true', not_or,
          Bool.not_eq_false] at digits
        exact exists_zeros digits.1 (List.all_eq_true.mp digits.2)
  · rintro ⟨zeros, rfl⟩
    have nonempty : List.replicate zeros '0' ++ digits number ≠ [] :=
      List.append_ne_nil_of_right_ne_nil _ (digits_ne_nil number)
    have shown : (List.replicate zeros '0' ++ digits number).all isDigit = true := by
      apply List.all_eq_true.mpr
      intro char member
      rcases List.mem_append.mp member with zero | digit
      · rw [List.eq_of_mem_replicate zero]
        decide
      · exact isDigit_of_mem_digits digit
    have accepted : ((List.replicate zeros '0' ++ digits number).isEmpty ||
        !(List.replicate zeros '0' ++ digits number).all isDigit) = false := by
      rw [shown, List.isEmpty_eq_false_iff.mpr nonempty]
      rfl
    rw [value?, accepted, if_neg Bool.false_ne_true, value_zeros_append, value_digits]

/-! ### Numerals of a given width -/

theorem value_lt (shown : ∀ char ∈ chars, isDigit char = true) : value chars < 10 ^ chars.length := by
  induction chars using List.reverseRecOn with
  | nil => exact Nat.one_pos
  | append_singleton front last inductionHypothesis =>
      have small := digitValue_lt (shown last (List.mem_append_right _ List.mem_cons_self))
      have bounded := inductionHypothesis fun char member => shown char (List.mem_append_left _ member)
      rw [value_append_singleton, List.length_append, List.length_singleton, Nat.pow_succ]
      omega

theorem length_digits_le (positive : 0 < width) (small : number < 10 ^ width) :
    (digits number).length ≤ width := by
  induction number using digits_induction generalizing width with
  | single digit digitSmall =>
      rw [digits_of_lt digitSmall]
      exact positive
  | longer number digit numberPositive digitSmall inductionHypothesis =>
      cases width with
      | zero => exact absurd positive (Nat.lt_irrefl 0)
      | succ shorter =>
          rw [Nat.pow_succ] at small
          have shorterPositive : 0 < shorter := by
            apply Nat.pos_of_ne_zero
            rintro rfl
            omega
          rw [digits_append numberPositive digitSmall, List.length_append, List.length_singleton]
          exact Nat.succ_le_succ (inductionHypothesis shorterPositive (by omega))

theorem value_padded (width number : Nat) : value (padded width number) = number := by
  rw [padded, value_zeros_append, value_digits]

theorem padded_ne_nil (width number : Nat) : padded width number ≠ [] :=
  List.append_ne_nil_of_right_ne_nil _ (digits_ne_nil number)

theorem isDigit_of_mem_padded (member : char ∈ padded width number) : isDigit char = true := by
  rcases List.mem_append.mp member with zero | digit
  · rw [List.eq_of_mem_replicate zero]
    decide
  · exact isDigit_of_mem_digits digit

theorem length_padded (positive : 0 < width) (small : number < 10 ^ width) :
    (padded width number).length = width := by
  have fits := length_digits_le positive small
  rw [padded, List.length_append, List.length_replicate]
  omega

end BackupClient.Text.Decimal
