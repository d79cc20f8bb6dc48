import BackupClient.Proofs.Engine.PruneLines

/-!
Versions as the engine prints them, and their order.

The engine prints its name, a gap and its version, with blanks around and more behind.  The version is read
back just if each of its numbers has thirty-two bits, wherever the numerals end.
-/

namespace BackupClient.EngineVersion

open Text
open Text.Decimal (digits)
open PruneLine (digitRun?_eq_some_iff digitRun?_cons isCounter_digits)

variable {version : EngineVersion} {name gap before behind rest suffix : List Char}

theorem toList_display (version : EngineVersion) :
    version.display.toList =
      digits version.major ++ '.' :: (digits version.minor ++ '.' :: digits version.patch) := by
  simp [display, Decimal.text]

/-- The numerals of a version are read up to where the last one ends. -/
theorem numerals?_display (version : EngineVersion) (ends : Stops isUnicodeDigit rest) :
    numerals? (version.display.toList ++ rest) =
      some (digits version.major, digits version.minor, digits version.patch) := by
  have point : isUnicodeDigit '.' = false := by decide
  have first := digitRun?_cons (isCounter_digits version.major) point
    (digits version.minor ++ '.' :: (digits version.patch ++ rest))
  have second := digitRun?_cons (isCounter_digits version.minor) point (digits version.patch ++ rest)
  have third := digitRun?_eq_some_iff.mpr ⟨rfl, isCounter_digits version.patch, ends⟩
  simp only [toList_display, List.append_assoc, List.cons_append]
  simp only [numerals?, first, second, third, point?, Option.bind_eq_bind, Option.bind_some]

theorem isWord_display (version : EngineVersion) : IsWord version.display.toList where
  nonempty := by
    rw [toList_display]
    exact List.append_ne_nil_of_right_ne_nil _ (List.cons_ne_nil _ _)
  visible := by
    intro char member
    simp only [toList_display, List.mem_append, List.mem_cons] at member
    have digit {number : Nat} (shown : char ∈ digits number) : isBlank char = false :=
      Decimal.not_isBlank_of_isDigit (Decimal.isDigit_of_mem_digits shown)
    have point : isBlank '.' = false := by decide
    rcases member with major | rfl | minor | rfl | patch
    · exact digit major
    · exact point
    · exact digit minor
    · exact point
    · exact digit patch

theorem find?_display (version : EngineVersion) (isWord : IsWord name) (divided : gap ≠ [])
    (blank : IsGap gap) (ends : Stops isUnicodeDigit rest) :
    find? true (name ++ (gap ++ (version.display.toList ++ rest))) =
      some (digits version.major, digits version.minor, digits version.patch) := by
  have endsWord := endsWord_gap_append divided blank (version.display.toList ++ rest)
  have begins : (gap ++ (version.display.toList ++ rest)).head?.any isBlank = true := by
    obtain ⟨first, others, rfl⟩ := List.exists_cons_of_ne_nil divided
    exact blank first List.mem_cons_self
  have found : afterWord? (name ++ (gap ++ (version.display.toList ++ rest))) =
      some (digits version.major, digits version.minor, digits version.patch) := by
    simp only [afterWord?, isWord.takeWhile endsWord, List.drop_left,
      List.isEmpty_eq_false_iff.mpr isWord.nonempty, begins, Bool.not_true, Bool.or_false,
      Bool.false_eq_true, if_false, (isWord_display version).trimStart_gap blank]
    exact numerals?_display version ends
  obtain ⟨first, others, rfl⟩ := List.exists_cons_of_ne_nil isWord.nonempty
  rw [List.cons_append] at found ⊢
  rw [find?, if_pos rfl, found]

theorem trim_printed (version : EngineVersion) (leading : IsGap before) (isWord : IsWord name)
    (trailing : IsGap behind) :
    trim (before ++ (name ++ (gap ++ (version.display.toList ++ (suffix ++ behind))))) =
      name ++ (gap ++ (version.display.toList ++ trimEnd suffix)) := by
  have start := isWord.trimStart_gap (by decide : IsGap [])
    (gap ++ (version.display.toList ++ suffix))
  have stop := (isWord_display version).trimEnd_append (name ++ gap)
  calc trim (before ++ (name ++ (gap ++ (version.display.toList ++ (suffix ++ behind)))))
      = trim (name ++ (gap ++ (version.display.toList ++ suffix)) ++ behind) := by
        rw [trim_gap_append leading]
        simp only [List.append_assoc]
    _ = trimEnd (trimStart ([] ++ (name ++ (gap ++ (version.display.toList ++ suffix))))) :=
        trim_append_gap trailing _
    _ = trimEnd ((name ++ gap ++ version.display.toList) ++ suffix) := by
        rw [start]
        simp only [List.append_assoc]
    _ = name ++ (gap ++ (version.display.toList ++ trimEnd suffix)) := by
        rw [Text.trimEnd_append stop]
        simp only [List.append_assoc]

theorem number?_digits (number : Nat) :
    number? (digits number) = if number < 2 ^ 32 then some number else none := by
  have read : Decimal.value? (digits number) = some number :=
    Decimal.value?_eq_some_iff.mpr ⟨0, rfl⟩
  rw [number?, read, Option.bind_some, Nat.pow_eq]

structure Fits (version : EngineVersion) : Prop where
  major : version.major < 2 ^ 32
  minor : version.minor < 2 ^ 32
  patch : version.patch < 2 ^ 32

instance : DecidablePred Fits := fun version =>
  decidable_of_iff (version.major < 2 ^ 32 ∧ version.minor < 2 ^ 32 ∧ version.patch < 2 ^ 32)
    ⟨fun ⟨major, minor, patch⟩ => ⟨major, minor, patch⟩,
      fun fits => ⟨fits.major, fits.minor, fits.patch⟩⟩

/-- What the engine prints for a version: its name, a gap, the version, and more that does not go on with a
digit, all of it between blanks. -/
inductive Prints (version : EngineVersion) : List Char → Prop where
  | mk {before name gap suffix behind : List Char} (leading : IsGap before) (isWord : IsWord name)
      (divided : gap ≠ []) (blank : IsGap gap) (ends : Stops isUnicodeDigit suffix)
      (trailing : IsGap behind) :
      Prints version
        (before ++ (name ++ (gap ++ (version.display.toList ++ (suffix ++ behind)))))

theorem parse?_printed {output : List Char} (prints : version.Prints output) :
    parse? output = if version.Fits then some version else none := by
  obtain @⟨before, name, gap, suffix, behind, leading, isWord, divided, blank, ends, trailing⟩ := prints
  have stops : Stops isUnicodeDigit (trimEnd suffix) := by
    obtain ⟨trimmed, -, whole⟩ := exists_trimEnd_gap suffix
    exact Stops.of_append (whole ▸ ends)
  simp only [parse?, trim_printed version leading isWord trailing,
    find?_display version isWord divided blank stops, number?_digits, Option.bind_eq_bind,
    Option.bind_some]
  by_cases fits : version.Fits
  case pos =>
      simp only [if_pos fits, if_pos fits.major, if_pos fits.minor, if_pos fits.patch, Option.bind_some]
  case neg =>
      rw [if_neg fits]
      refine Option.eq_none_iff_forall_ne_some.mpr fun other read => fits ?_
      simp only [Option.bind_eq_some_iff, Option.ite_none_right_eq_some] at read
      obtain ⟨_, ⟨major, -⟩, _, ⟨minor, -⟩, _, ⟨patch, -⟩, -⟩ := read
      exact ⟨major, minor, patch⟩

/-! ### Order -/

/-- A version comes before another if the first of their numbers that differ is the smaller one. -/
def Precedes (left right : EngineVersion) : Prop :=
  left.major < right.major ∨ left.major = right.major ∧
    (left.minor < right.minor ∨ left.minor = right.minor ∧ left.patch < right.patch)

instance (left right : EngineVersion) : Decidable (left.Precedes right) :=
  inferInstanceAs (Decidable (_ ∨ _))

variable {left right : EngineVersion}

theorem order_eq_lt_iff : left.order right = .lt ↔ left.Precedes right := by
  simp only [order, Precedes, Ordering.then_eq_lt, Nat.compare_eq_lt, Nat.compare_eq_eq]

theorem order_swap (left right : EngineVersion) : (left.order right).swap = right.order left := by
  simp only [order, Ordering.swap_then, Nat.compare_swap]

theorem order_eq_gt_iff : left.order right = .gt ↔ right.Precedes left := by
  rw [← order_eq_lt_iff, ← order_swap left right, Ordering.swap_eq_lt]

theorem order_eq_eq_iff : left.order right = .eq ↔ left = right := by
  obtain ⟨major, minor, patch⟩ := left
  obtain ⟨otherMajor, otherMinor, otherPatch⟩ := right
  simp only [order, Ordering.then_eq_eq, Nat.compare_eq_eq, mk.injEq]

/-- What the engine prints for a version is read as that version just if its numbers have thirty-two bits,
and not at all if they have not.  Versions are compared by the first of their numbers that differ. -/
theorem versions_are_read_and_ordered :
    (∀ version output, Prints version output →
      parse? output = if version.Fits then some version else none) ∧
    ∀ left right : EngineVersion,
      (left.order right = .lt ↔ left.Precedes right) ∧ (left.order right = .eq ↔ left = right) ∧
        (left.order right = .gt ↔ right.Precedes left) :=
  ⟨fun _ _ => parse?_printed, fun _ _ => ⟨order_eq_lt_iff, order_eq_eq_iff, order_eq_gt_iff⟩⟩

/-- A development version behind a gap that goes over two lines, with another version in a line below, and
one whose first number has a bit too many. -/
theorem development_version_is_read :
    let printed (version : EngineVersion) :=
      "\u2003\n".toList ++ ("borg-linux64".toList ++ ("\u00a0\n\t".toList ++
        (version.display.toList ++ (".dev3\nborg 1.2.3".toList ++ "\r\n".toList))))
    let version : EngineVersion := ⟨4294967295, 0, 10⟩
    let tooLarge : EngineVersion := ⟨4294967296, 0, 10⟩
    version.Prints (printed version) ∧ version.Fits ∧ parse? (printed version) = some version ∧
      tooLarge.Prints (printed tooLarge) ∧ parse? (printed tooLarge) = none ∧
      EngineVersion.order ⟨1, 9, 4⟩ ⟨1, 10, 0⟩ = .lt := by
  intro printed version tooLarge
  obtain ⟨read, compared⟩ := versions_are_read_and_ordered
  have prints (version : EngineVersion) : version.Prints (printed version) :=
    .mk (by decide) (by decide) (by decide) (by decide) (by decide) (by decide)
  have fits : version.Fits := by decide
  have unfit : ¬ tooLarge.Fits := by decide
  refine ⟨prints version, fits, ?_, prints tooLarge, ?_, ?_⟩
  · rw [read version _ (prints version), if_pos fits]
  · rw [read tooLarge _ (prints tooLarge), if_neg unfit]
  · exact (compared ⟨1, 9, 4⟩ ⟨1, 10, 0⟩).1.mpr (by decide)

end BackupClient.EngineVersion
