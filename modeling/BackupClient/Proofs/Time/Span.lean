import BackupClient.Proofs.Text.Decimal
import BackupClient.Time.Span
import Mathlib.Algebra.GroupWithZero.Nat

/-!
Written durations read again.

A duration is written as amounts of units, the largest first, and those of which there is nothing are left
out.  Each amount is worth a number of nanoseconds, together they are worth the duration, and so no sum on the
way is out of range.
-/

namespace BackupClient.Span

open Text.Decimal (digits isDigit)

variable {char : Char} {name seen : List Char} {number : Nat} {count : Count} {total result : Duration}
  {started : Bool}

/-! ### Characters -/

theorem isNameChar_apart (letter : isNameChar char = true) :
    isDigit char = false ∧ Text.isBlank char = false := by
  have bounds : 65 ≤ char.toNat ∧ char.toNat ≤ 90 ∨ 97 ≤ char.toNat ∧ char.toNat ≤ 122 ∨
      char.toNat = 0xB5 := by
    rcases Bool.or_eq_true_iff.mp letter with alpha | micro
    · rcases Bool.or_eq_true_iff.mp alpha with upper | lower
      · exact .inl (of_decide_eq_true upper)
      · obtain ⟨least, greatest⟩ := Bool.and_eq_true_iff.mp lower
        exact .inr (.inl ⟨of_decide_eq_true least, of_decide_eq_true greatest⟩)
    · rw [beq_iff_eq.mp micro]
      exact .inr (.inr rfl)
  constructor
  · apply Bool.eq_false_iff.mpr
    intro shown
    have := Text.Decimal.isDigit_iff.mp shown
    omega
  · simp [Text.isBlank]
    omega

theorem step_gap_digit (shown : isDigit char = true) :
    Reader.step ⟨total, started, .gap⟩ char =
      some ⟨total, true, .whole (Text.Decimal.digitValue char)⟩ := by
  simp [Reader.step, shown]

theorem step_whole_digit (shown : isDigit char = true)
    (small : number * 10 + Text.Decimal.digitValue char < limit) :
    Reader.step ⟨total, started, .whole number⟩ char =
      some ⟨total, started, .whole (number * 10 + Text.Decimal.digitValue char)⟩ := by
  simp [Reader.step, shown, appendDigit, small]

theorem step_whole_letter (letter : isNameChar char = true) :
    Reader.step ⟨total, started, .whole number⟩ char =
      some ⟨total, started, .name ⟨number, 0, 1⟩ [char]⟩ := by
  obtain ⟨noDigit, noBlank⟩ := isNameChar_apart letter
  simp [Reader.step, noDigit, noBlank, letter]

theorem step_name_letter (letter : isNameChar char = true) :
    Reader.step ⟨total, started, .name count seen⟩ char =
      some ⟨total, started, .name count (char :: seen)⟩ := by
  obtain ⟨noDigit, noBlank⟩ := isNameChar_apart letter
  simp [Reader.step, noDigit, noBlank, letter]

theorem step_name_space (added : addCount total count seen.reverse = some result) :
    Reader.step ⟨total, started, .name count seen⟩ ' ' = some ⟨result, true, .gap⟩ := by
  have noDigit : isDigit ' ' = false := by decide
  have blank : Text.isBlank ' ' = true := by decide
  simp [Reader.step, noDigit, blank, added]

/-! ### Numbers and names -/

theorem foldlM_digits (small : number < limit) :
    (digits number).foldlM Reader.step ⟨total, started, .gap⟩ =
      some ⟨total, true, .whole number⟩ := by
  induction number using Text.Decimal.digits_induction with
  | single digit digitSmall =>
      rw [Text.Decimal.digits_of_lt digitSmall, List.foldlM_cons,
        step_gap_digit (Text.Decimal.isDigit_digitChar digitSmall),
        Text.Decimal.digitValue_digitChar digitSmall]
      rfl
  | longer number digit positive digitSmall inductionHypothesis =>
      have value := Text.Decimal.digitValue_digitChar digitSmall
      have read := inductionHypothesis (by omega)
      rw [Text.Decimal.digits_append positive digitSmall, List.foldlM_append, read]
      show [Text.Decimal.digitChar digit].foldlM Reader.step ⟨total, true, .whole number⟩ = _
      rw [List.foldlM_cons, step_whole_digit (Text.Decimal.isDigit_digitChar digitSmall) (by rwa [value]),
        value]
      rfl

theorem foldlM_letters (letters : ∀ char ∈ name, isNameChar char = true) :
    name.foldlM Reader.step ⟨total, started, .name count seen⟩ =
      some ⟨total, started, .name count (name.reverse ++ seen)⟩ := by
  induction name generalizing seen with
  | nil => rfl
  | cons char name inductionHypothesis =>
      obtain ⟨first, others⟩ := List.forall_mem_cons.mp letters
      rw [List.foldlM_cons, step_name_letter first]
      show name.foldlM Reader.step ⟨total, started, .name count (char :: seen)⟩ = _
      rw [inductionHypothesis others, List.reverse_cons, List.append_assoc, List.singleton_append]

/-! ### Amounts -/

theorem exists_nanos_eq (within : number < Nat.pow 2 64 * 1000000000) :
    ∃ duration : Duration, duration.nanos = number :=
  ⟨⟨number, within⟩, rfl⟩

theorem ofNanos?_nanos (duration : Duration) : Duration.ofNanos? duration.nanos = some duration := by
  rw [Duration.ofNanos?, dif_pos duration.inRange]

/-- A number of a unit, and the name that is written behind the number. -/
structure Amount where
  count : Nat
  unit : TimeUnit
  name : List Char

namespace Amount

/-- A unit that is written with its full name, of which there may be several. -/
def named (unit : TimeUnit) (name : String) (count : Nat) : Amount :=
  ⟨count, unit, name.toList ++ if count > 1 then ['s'] else []⟩

def symbol (unit : TimeUnit) (symbol : String) (count : Nat) : Amount :=
  ⟨count, unit, symbol.toList⟩

def text (amount : Amount) : List Char :=
  digits amount.count ++ amount.name

def worth (amount : Amount) : Nat :=
  amount.count * (amount.unit.seconds * 1000000000 + amount.unit.nanos)

/-- The name is that of the unit, and small units do not come to a second. -/
structure IsNamed (amount : Amount) : Prop where
  unit : TimeUnit.ofName? (String.ofList amount.name) = some amount.unit
  letters : ∀ char ∈ amount.name, isNameChar char = true
  small : amount.count < limit
  short : amount.count * amount.unit.nanos < 1000000000

variable {amount : Amount}

theorem IsNamed.foldlM_text (named : amount.IsNamed) :
    amount.text.foldlM Reader.step ⟨total, started, .gap⟩ =
      some ⟨total, true, .name ⟨amount.count, 0, 1⟩ amount.name.reverse⟩ := by
  have letters := named.letters
  have unit := named.unit
  rw [text, List.foldlM_append, foldlM_digits named.small]
  show amount.name.foldlM Reader.step ⟨total, true, .whole amount.count⟩ = _
  cases name : amount.name with
  | nil =>
      have none : TimeUnit.ofName? (String.ofList []) = none := by decide
      rw [name, none] at unit
      cases unit
  | cons char rest =>
      rw [name] at letters
      obtain ⟨first, others⟩ := List.forall_mem_cons.mp letters
      rw [List.foldlM_cons, step_whole_letter first]
      show rest.foldlM Reader.step ⟨total, true, .name ⟨amount.count, 0, 1⟩ [char]⟩ = _
      rw [foldlM_letters others, List.reverse_cons]

/-- Adding an amount adds what it is worth, as long as that is in range. -/
theorem IsNamed.addCount_eq (named : amount.IsNamed) (sum : total.nanos + amount.worth = result.nanos) :
    addCount total ⟨amount.count, 0, 1⟩ amount.name = some result := by
  have range := result.inRange
  have short := named.short
  have below : total.subsecond < 1000000000 := Nat.mod_lt _ (by decide)
  have whole : amount.worth =
      amount.count * amount.unit.seconds * 1000000000 + amount.count * amount.unit.nanos := by
    rw [worth, Nat.mul_add, Nat.mul_assoc]
  have seconds : amount.count * amount.unit.seconds < limit := by
    simp only [limit, Nat.pow_eq] at range ⊢
    omega
  have nanos : total.subsecond + amount.count * amount.unit.nanos < limit := by
    simp only [limit, Nat.pow_eq]
    omega
  have first : addTime total (amount.count * amount.unit.seconds)
      (amount.count * amount.unit.nanos) = some result := by
    rw [addTime, if_pos ⟨seconds, nanos⟩, Nat.add_assoc, ← whole, sum, ofNanos?_nanos]
  have second : addTime result 0 0 = some result := by
    have below : result.subsecond + 0 < limit := by
      have : result.subsecond < 1000000000 := Nat.mod_lt _ (by decide)
      simp only [limit, Nat.pow_eq]
      omega
    rw [addTime, if_pos ⟨by decide, below⟩, Nat.zero_mul, Nat.add_zero, ofNanos?_nanos]
  simp only [addCount, named.unit, wholeTime, decimalTime, Option.bind_eq_bind, Option.bind_some, first,
    if_true, second]

/-- An amount with a space behind it is added, and the next one may begin. -/
theorem IsNamed.foldlM_text_space (named : amount.IsNamed)
    (sum : total.nanos + amount.worth = result.nanos) :
    (amount.text ++ [' ']).foldlM Reader.step ⟨total, started, .gap⟩ = some ⟨result, true, .gap⟩ := by
  have added := named.addCount_eq sum
  rw [← List.reverse_reverse amount.name] at added
  rw [List.foldlM_append, named.foldlM_text]
  show [' '].foldlM Reader.step _ = _
  rw [List.foldlM_cons, step_name_space added]
  rfl

theorem foldlM_intercalate {amounts : List Amount} (nonempty : amounts ≠ [])
    (named : ∀ amount ∈ amounts, amount.IsNamed)
    (sum : total.nanos + (amounts.map worth).sum = result.nanos) :
    (([' '].intercalate (amounts.map text)).foldlM Reader.step ⟨total, started, .gap⟩).bind
      Reader.finish = some result := by
  induction amounts generalizing total started with
  | nil => exact absurd rfl nonempty
  | cons amount rest inductionHypothesis =>
      obtain ⟨first, others⟩ := List.forall_mem_cons.mp named
      rw [List.map_cons, List.sum_cons, ← Nat.add_assoc] at sum
      cases rest with
      | nil =>
          rw [List.map_nil, List.sum_nil, Nat.add_zero] at sum
          have added := first.addCount_eq sum
          rw [← List.reverse_reverse amount.name] at added
          rw [List.map_singleton, List.intercalate_singleton, first.foldlM_text, Option.bind_some]
          exact added
      | cons next rest =>
          have within : total.nanos + amount.worth ≤ result.nanos := by
            rw [← sum]
            exact Nat.le_add_right _ _
          obtain ⟨between, reached⟩ := exists_nanos_eq (Nat.lt_of_le_of_lt within result.inRange)
          rw [← reached] at sum
          rw [List.map_cons, List.map_cons, List.intercalate_cons_cons, List.foldlM_append,
            first.foldlM_text_space reached.symm]
          exact inductionHypothesis (List.cons_ne_nil _ _) others sum

end Amount

/-! ### Durations -/

/-- What a duration is written as, the amounts of nothing included. -/
def amounts (duration : Duration) : List Amount :=
  let seconds := duration.seconds
  let ofYear := seconds % 31557600
  let ofMonth := ofYear % 2630016
  let ofDay := ofMonth % 86400
  let nanos := duration.subsecond
  [.named .year "year" (seconds / 31557600), .named .month "month" (ofYear / 2630016),
    .named .day "day" (ofMonth / 86400), .symbol .hour "h" (ofDay / 3600),
    .symbol .minute "m" (ofDay % 3600 / 60), .symbol .second "s" (ofDay % 60),
    .symbol .millisecond "ms" (nanos / 1000000), .symbol .microsecond "us" (nanos / 1000 % 1000),
    .symbol .nanosecond "ns" (nanos % 1000)]

def present (amounts : List Amount) : List Amount :=
  amounts.filter (0 < ·.count)

theorem present_cons (amount : Amount) (rest : List Amount) :
    (present (amount :: rest)).map Amount.text =
      (if amount.count = 0 then [] else [amount.text]) ++ (present rest).map Amount.text := by
  by_cases none : amount.count = 0
  · simp [present, none]
  · have some : 0 < amount.count := Nat.pos_of_ne_zero none
    simp [present, none, some]

theorem parts_eq (duration : Duration) :
    parts duration = (present (amounts duration)).map Amount.text := by
  simp only [amounts, present_cons]
  simp [parts, present, writeNamed, writeSymbol, Amount.named, Amount.symbol, Amount.text]
  rfl

theorem sum_worth_present (amounts : List Amount) :
    ((present amounts).map Amount.worth).sum = (amounts.map Amount.worth).sum := by
  induction amounts with
  | nil => rfl
  | cons amount rest inductionHypothesis =>
      rw [List.map_cons, List.sum_cons, ← inductionHypothesis]
      by_cases none : amount.count = 0
      · simp [present, none, Amount.worth]
      · have some : 0 < amount.count := Nat.pos_of_ne_zero none
        simp [present, some]

theorem sum_worth_amounts (duration : Duration) :
    ((amounts duration).map Amount.worth).sum = duration.nanos := by
  have seconds : duration.seconds = duration.nanos / 1000000000 := by
    rw [Duration.seconds, nanosPerSecond]
  have subsecond : duration.subsecond = duration.nanos % 1000000000 := by
    rw [Duration.subsecond, nanosPerSecond]
  simp -implicitDefEqProofs only [amounts, Amount.named, Amount.symbol, Amount.worth, TimeUnit.seconds,
    TimeUnit.nanos, List.map_cons, List.map_nil, List.sum_cons, List.sum_nil, seconds, subsecond]
  omega

theorem Amount.isNamed_named {unit : TimeUnit} {name : String} {count : Nat} (small : count < limit)
    (coarse : unit.nanos = 0) (one : TimeUnit.ofName? name = some unit)
    (several : TimeUnit.ofName? (String.ofList (name.toList ++ ['s'])) = some unit)
    (letters : name.toList.all isNameChar = true) : (named unit name count).IsNamed where
  unit := by
    rw [named]
    split
    case isTrue => exact several
    case isFalse => rwa [List.append_nil, String.ofList_toList]
  letters := by
    intro char listed
    rcases List.mem_append.mp listed with own | plural
    · exact List.all_eq_true.mp letters char own
    · split at plural
      case isTrue =>
          rw [List.mem_singleton.mp plural]
          decide
      case isFalse => cases plural
  small := small
  short := by
    rw [named, coarse, Nat.mul_zero]
    decide

theorem Amount.isNamed_symbol {unit : TimeUnit} {symbol : String} {count : Nat} (small : count < limit)
    (short : count * unit.nanos < 1000000000) (one : TimeUnit.ofName? symbol = some unit)
    (letters : symbol.toList.all isNameChar = true) : (Amount.symbol unit symbol count).IsNamed where
  unit := by rwa [Amount.symbol, String.ofList_toList]
  letters := List.all_eq_true.mp letters
  small := small
  short := short

theorem isNamed_of_mem_amounts (duration : Duration) : ∀ amount ∈ amounts duration, amount.IsNamed := by
  have range : duration.seconds < limit := by
    have range := duration.inRange
    rw [Duration.seconds, nanosPerSecond]
    simp only [limit, Nat.pow_eq] at range ⊢
    omega
  have below : duration.subsecond < 1000000000 := Nat.mod_lt _ (by decide)
  have bound : limit = 18446744073709551616 := by decide
  simp only [amounts, List.forall_mem_cons]
  refine ⟨?year, ?month, ?day, ?hour, ?minute, ?second, ?millisecond, ?microsecond, ?nanosecond,
    List.forall_mem_nil _⟩
  case year | month | day =>
    apply Amount.isNamed_named
    · omega
    · decide
    · decide
    · decide
    · decide
  case hour | minute | second =>
    apply Amount.isNamed_symbol
    · omega
    · exact Nat.zero_lt_succ _
    · decide
    · decide
  case millisecond | microsecond | nanosecond =>
    apply Amount.isNamed_symbol
    · omega
    · simp only [TimeUnit.nanos]
      omega
    · decide
    · decide

/-- What is written of a duration is read as the duration, whatever it is. -/
theorem read?_write (duration : Duration) : read? (write duration) = some duration := by
  unfold write
  split
  case isTrue nothing =>
      obtain ⟨nanos, range⟩ := duration
      subst nothing
      have zero : read? ['0', 's'] = some Duration.zero := by decide
      exact zero
  case isFalse something =>
      have sum := (sum_worth_present (amounts duration)).trans (sum_worth_amounts duration)
      have nonempty : present (amounts duration) ≠ [] := by
        intro none
        rw [none, List.map_nil, List.sum_nil] at sum
        exact something sum.symm
      have named : ∀ amount ∈ present (amounts duration), amount.IsNamed := by
        intro amount listed
        exact isNamed_of_mem_amounts duration amount (List.mem_filter.mp listed).1
      have folded : (([' '].intercalate (parts duration)).foldlM Reader.step
          ⟨Duration.zero, false, .gap⟩).bind Reader.finish = some duration := by
        rw [parts_eq]
        apply Amount.foldlM_intercalate nonempty named
        rw [sum]
        exact Nat.zero_add _
      unfold read?
      split
      case isTrue lone =>
          -- A lone zero is no written duration: the reader would still wait for a unit.
          rw [lone] at folded
          cases folded
      case isFalse => exact folded

end BackupClient.Span
