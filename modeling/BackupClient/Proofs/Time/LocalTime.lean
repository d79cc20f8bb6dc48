import BackupClient.Proofs.Text.Decimal
import BackupClient.Proofs.Text.Runs
import BackupClient.Time.LocalTime

/-!
Written times read again.

The written form has six decimals and the reader keeps nine, so that a time which is written and read again
is the same down to the microsecond, and loses its nanoseconds beyond that.
-/

namespace BackupClient

theorem bind_eq_some_of {α β : Type} {first : Option α} {made : α} {next : α → Option β} {result : β}
    (read : first = some made) (rest : next made = some result) : (first >>= next) = some result :=
  Option.bind_eq_some_iff.mpr ⟨made, read, rest⟩

namespace LocalTime

open Calendar
open Text.Decimal (isDigit not_isBlank_of_isDigit padded value)

variable {time : LocalTime} {chars front rest : List Char} {char : Char}
  {low high number width decimals : Nat} {year : Int}

/-! ### Digits -/

theorem readDigits_eq (run : chars.takeWhile isDigit = front) (nonempty : front ≠ [])
    (fits : front.length ≤ width) :
    readDigits width chars = some (value front, chars.drop front.length) := by
  have some : front.isEmpty = false := List.isEmpty_eq_false_iff.mpr nonempty
  simp [readDigits, run, List.take_of_length_le fits, some]

theorem readDigits_append (shown : ∀ char ∈ front, isDigit char = true) (nonempty : front ≠ [])
    (fits : front.length ≤ width) (ends : isDigit char = false) :
    readDigits width (front ++ char :: rest) = some (value front, char :: rest) := by
  have run : (front ++ char :: rest).takeWhile isDigit = front :=
    Text.takeWhile_run shown (Text.stops_cons ends rest)
  rw [readDigits_eq run nonempty fits, List.drop_left]

theorem trimStart_cons (visible : Text.isBlank char = false) :
    Text.trimStart (char :: rest) = char :: rest :=
  List.dropWhile_cons_of_neg (by simp [visible])

theorem exists_padded (width number : Nat) :
    ∃ first others, padded width number = first :: others ∧ isDigit first = true := by
  obtain ⟨first, others, whole⟩ :=
    List.exists_cons_of_ne_nil (Text.Decimal.padded_ne_nil width number)
  refine ⟨first, others, whole, ?_⟩
  have listed : first ∈ padded width number := by
    rw [whole]
    exact List.mem_cons_self
  exact Text.Decimal.isDigit_of_mem_padded listed

theorem trimStart_padded (width number : Nat) (rest : List Char) :
    Text.trimStart (padded width number ++ rest) = padded width number ++ rest := by
  obtain ⟨first, others, whole, shown⟩ := exists_padded width number
  rw [whole, List.cons_append, trimStart_cons (not_isBlank_of_isDigit shown)]

/-! ### Parts -/

theorem expect_self (char : Char) (rest : List Char) : expect char (char :: rest) = some rest := by
  simp [expect]

theorem readNumber_padded (small : number < 100) (least : low ≤ number) (greatest : number ≤ high)
    (ends : isDigit char = false) :
    readNumber low high (padded 2 number ++ char :: rest) = some (number, char :: rest) := by
  have fits := Nat.le_of_eq (Text.Decimal.length_padded (by decide : 0 < 2) small)
  rw [readNumber, trimStart_padded,
    readDigits_append (fun _ => Text.Decimal.isDigit_of_mem_padded)
      (Text.Decimal.padded_ne_nil 2 number) fits ends,
    Text.Decimal.value_padded]
  simp [least, greatest]

theorem readDigits_padded (rest : List Char) (fits : (padded 4 number).length ≤ width)
    (ends : isDigit char = false) :
    readDigits width (padded 4 number ++ char :: rest) = some (number, char :: rest) := by
  rw [readDigits_append (fun _ => Text.Decimal.isDigit_of_mem_padded)
    (Text.Decimal.padded_ne_nil 4 number) fits ends, Text.Decimal.value_padded]

/-- A year is read as it was written: four digits, or a sign and as many digits as it takes. -/
theorem readYear_writeYear (year : Int) (ends : isDigit char = false) :
    readYear (writeYear year ++ char :: rest) = some (year, char :: rest) := by
  unfold writeYear
  split
  case isTrue few =>
      have fits := Nat.le_of_eq
        (Text.Decimal.length_padded (by decide : 0 < 4) (by omega : year.toNat < 10 ^ 4))
      have natural : (year.toNat : Int) = year := by omega
      obtain ⟨first, others, whole, shown⟩ := exists_padded 4 year.toNat
      have read := readDigits_padded rest fits ends
      have visible := trimStart_padded 4 year.toNat (char :: rest)
      rw [whole] at read visible ⊢
      unfold readYear
      rw [visible]
      split
      case h_1 minus =>
          obtain ⟨rfl, -⟩ := List.cons.inj minus
          exact absurd shown (by decide)
      case h_2 plus =>
          obtain ⟨rfl, -⟩ := List.cons.inj plus
          exact absurd shown (by decide)
      case h_3 =>
          rw [read]
          exact congrArg (fun year => some (year, char :: rest)) natural
  case isFalse many =>
      have fits : (padded 4 year.natAbs).length ≤ (padded 4 year.natAbs ++ char :: rest).length := by
        rw [List.length_append]
        exact Nat.le_add_right _ _
      have read := readDigits_padded rest fits ends
      split
      case isTrue negative =>
          have whole : -(year.natAbs : Int) = year := by omega
          rw [List.cons_append, readYear, trimStart_cons (by decide)]
          show (readDigits _ _).map _ = _
          rw [read]
          exact congrArg (fun year => some (year, char :: rest)) whole
      case isFalse positive =>
          have whole : (year.natAbs : Int) = year := by omega
          rw [List.cons_append, readYear, trimStart_cons (by decide)]
          show (readDigits _ _).map _ = _
          rw [read]
          exact congrArg (fun year => some (year, char :: rest)) whole

theorem readDecimals_padded (small : number < 1000000) :
    readDecimals ('.' :: padded 6 number) = some (number * 1000, []) := by
  have shown : (padded 6 number).takeWhile isDigit = padded 6 number :=
    List.takeWhile_eq_self_iff.mpr fun _ => Text.Decimal.isDigit_of_mem_padded
  have length := Text.Decimal.length_padded (by decide : 0 < 6) small
  have some : (padded 6 number).isEmpty = false :=
    List.isEmpty_eq_false_iff.mpr (Text.Decimal.padded_ne_nil 6 number)
  have kept : (padded 6 number).take 9 = padded 6 number := List.take_of_length_le (by omega)
  have behind : (padded 6 number).drop 6 = [] := List.drop_eq_nil_of_le (by omega)
  simp [readDecimals, shown, some, kept, length, behind, Text.Decimal.value_padded]

theorem readDecimals_lt (read : readDecimals chars = some (decimals, rest)) :
    decimals < 1000000000 := by
  unfold readDecimals at read
  split at read
  case h_1 fraction =>
      dsimp only at read
      split at read
      case isTrue => cases read
      case isFalse =>
          obtain ⟨rfl, -⟩ := Prod.mk.inj (Option.some.inj read)
          have shown : ∀ char ∈ (fraction.takeWhile isDigit).take 9, isDigit char = true :=
            fun char member => List.mem_takeWhile_imp (List.mem_of_mem_take member)
          have small := Text.Decimal.value_lt shown
          have short : ((fraction.takeWhile isDigit).take 9).length ≤ 9 := List.length_take_le _ _
          calc value ((fraction.takeWhile isDigit).take 9) *
                10 ^ (9 - ((fraction.takeWhile isDigit).take 9).length)
              < 10 ^ ((fraction.takeWhile isDigit).take 9).length *
                10 ^ (9 - ((fraction.takeWhile isDigit).take 9).length) :=
                Nat.mul_lt_mul_of_pos_right small (Nat.pow_pos (by decide))
            _ = 10 ^ 9 := by rw [← Nat.pow_add, Nat.add_sub_cancel' short]
  case h_2 =>
      obtain ⟨rfl, -⟩ := Prod.mk.inj (Option.some.inj read)
      decide

/-! ### Times -/

/-- A time that some text tells: only second 59 can be a leap second. -/
def IsTold (time : LocalTime) : Prop :=
  time.isValid = true ∧ (time.nanos < 1000000000 ∨ time.second = 59)

def toMicros (time : LocalTime) : LocalTime :=
  { time with nanos := time.nanos / 1000 * 1000 }

theorem toMicros_eq_iff : time.toMicros = time ↔ 1000 ∣ time.nanos := by
  obtain ⟨date, hour, minute, second, nanos⟩ := time
  simp only [toMicros, LocalTime.mk.injEq, true_and]
  omega

theorem isTold_of_read? (read : read? chars = some time) : time.IsTold := by
  obtain ⟨⟨year, afterYear⟩, -, read⟩ := Option.bind_eq_some_iff.mp read
  obtain ⟨beforeMonth, -, read⟩ := Option.bind_eq_some_iff.mp read
  obtain ⟨⟨month, afterMonth⟩, -, read⟩ := Option.bind_eq_some_iff.mp read
  obtain ⟨beforeDay, -, read⟩ := Option.bind_eq_some_iff.mp read
  obtain ⟨⟨day, afterDay⟩, -, read⟩ := Option.bind_eq_some_iff.mp read
  obtain ⟨beforeHour, -, read⟩ := Option.bind_eq_some_iff.mp read
  obtain ⟨⟨hour, afterHour⟩, -, read⟩ := Option.bind_eq_some_iff.mp read
  obtain ⟨beforeMinute, -, read⟩ := Option.bind_eq_some_iff.mp read
  obtain ⟨⟨minute, afterMinute⟩, -, read⟩ := Option.bind_eq_some_iff.mp read
  obtain ⟨beforeSecond, -, read⟩ := Option.bind_eq_some_iff.mp read
  obtain ⟨⟨second, afterSecond⟩, -, read⟩ := Option.bind_eq_some_iff.mp read
  obtain ⟨⟨decimals, behind⟩, fraction, read⟩ := Option.bind_eq_some_iff.mp read
  have small := readDecimals_lt fraction
  dsimp only at read
  split at read
  case isTrue leap =>
      split at read
      case isFalse => cases read
      case isTrue accepted =>
          obtain rfl := Option.some.inj read
          exact ⟨(Bool.and_eq_true_iff.mp accepted).2, .inr rfl⟩
  case isFalse =>
      split at read
      case isFalse => cases read
      case isTrue accepted =>
          obtain rfl := Option.some.inj read
          exact ⟨(Bool.and_eq_true_iff.mp accepted).2, .inl small⟩

theorem isValid_iff :
    time.isValid = true ↔ leastYear ≤ time.date.year ∧ time.date.year ≤ greatestYear ∧
      1 ≤ time.date.month ∧ time.date.month ≤ 12 ∧ 1 ≤ time.date.day ∧
      time.date.day ≤ daysInMonth time.date.year time.date.month ∧ time.hour < 24 ∧
      time.minute < 60 ∧ time.second < 60 ∧ time.nanos < 2000000000 := by
  simp [isValid, and_assoc]

theorem daysInMonth_le (year : Int) (month : Nat) : daysInMonth year month ≤ 31 := by
  unfold daysInMonth
  split
  · split <;> decide
  all_goals decide

theorem isValid_toMicros (valid : time.isValid = true) : time.toMicros.isValid = true := by
  rw [isValid_iff] at valid ⊢
  have less : time.nanos / 1000 * 1000 ≤ time.nanos := Nat.div_mul_le_self _ _
  refine ⟨valid.1, valid.2.1, valid.2.2.1, valid.2.2.2.1, valid.2.2.2.2.1, valid.2.2.2.2.2.1,
    valid.2.2.2.2.2.2.1, valid.2.2.2.2.2.2.2.1, valid.2.2.2.2.2.2.2.2.1, ?_⟩
  exact lt_of_le_of_lt less valid.2.2.2.2.2.2.2.2.2

/-- The sixtieth second is written for a leap second, and only for a leap second. -/
theorem IsTold.ofParts_eq (told : time.IsTold) :
    (if time.second + time.nanos / 1000000000 = 60 then
      LocalTime.mk time.date time.hour time.minute 59
        (1000000000 + time.nanos % 1000000000 / 1000 * 1000)
    else LocalTime.mk time.date time.hour time.minute (time.second + time.nanos / 1000000000)
        (time.nanos % 1000000000 / 1000 * 1000)) = time.toMicros := by
  obtain ⟨valid, ordinary⟩ := told
  obtain ⟨-, -, -, -, -, -, -, -, second, nanos⟩ := isValid_iff.mp valid
  rw [toMicros]
  split
  case isTrue sixtieth =>
      have last : 59 = time.second := by omega
      have same : 1000000000 + time.nanos % 1000000000 / 1000 * 1000 = time.nanos / 1000 * 1000 := by
        omega
      rw [same, last]
  case isFalse earlier =>
      have none : time.nanos < 1000000000 := by omega
      rw [Nat.mod_eq_of_lt none, Nat.div_eq_of_lt none, Nat.add_zero]

/-- A time that some text tells is read from its own text, without what is less than a microsecond. -/
theorem IsTold.read?_write (told : time.IsTold) : read? time.write = some time.toMicros := by
  obtain ⟨-, -, leastMonth, greatestMonth, leastDay, greatestDay, hour, minute, second, nanos⟩ :=
    isValid_iff.mp told.1
  have ordinary := told.2
  have days := daysInMonth_le time.date.year time.date.month
  unfold read? write
  simp only [List.append_assoc, List.cons_append]
  refine bind_eq_some_of (readYear_writeYear _ (by decide)) ?_
  refine bind_eq_some_of (expect_self _ _) ?_
  refine bind_eq_some_of (readNumber_padded (by omega) leastMonth greatestMonth (by decide)) ?_
  refine bind_eq_some_of (expect_self _ _) ?_
  refine bind_eq_some_of (readNumber_padded (by omega) leastDay (by omega) (by decide)) ?_
  refine bind_eq_some_of (expect_self _ _) ?_
  refine bind_eq_some_of (readNumber_padded (by omega) (by omega) (by omega) (by decide)) ?_
  refine bind_eq_some_of (expect_self _ _) ?_
  refine bind_eq_some_of (readNumber_padded (by omega) (by omega) (by omega) (by decide)) ?_
  refine bind_eq_some_of (expect_self _ _) ?_
  refine bind_eq_some_of (readNumber_padded (by omega) (by omega) (by omega) (by decide)) ?_
  refine bind_eq_some_of (readDecimals_padded (by omega)) ?_
  simp only [told.ofParts_eq, List.isEmpty_nil, isValid_toMicros told.1, Bool.and_self, if_true]

end LocalTime

end BackupClient
