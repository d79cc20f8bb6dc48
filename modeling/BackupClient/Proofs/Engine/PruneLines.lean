import BackupClient.Engine.PruneLine
import BackupClient.Proofs.Text.Decimal
import BackupClient.Proofs.Text.Runs

/-!
Lines about archives that are pruned or kept, as the engine writes them.

Behind a few words and a colon the name of the archive stands between blanks.  A counter may stand in
front of the colon, or the rule that keeps the archive.  The main result says that exactly such lines are
read, and as what they tell.
-/

namespace BackupClient

open Text

namespace PruneLine

structure IsCounter (text : List Char) : Prop where
  nonempty : text ≠ []
  shown : ∀ char ∈ text, isUnicodeDigit char = true

/-- A gap, the name of an archive, and more behind a blank or nothing more. -/
inductive Names (name : String) : List Char → Prop where
  | mk {gap tail : List Char} (divided : gap ≠ []) (blank : IsGap gap)
      (isWord : IsWord name.toList) (ends : EndsWord tail) : Names name (gap ++ name.toList ++ tail)

inductive Tells : PruneLine → List Char → Prop where
  | wouldPrune {name : String} {named : List Char} (names : Names name named) :
      Tells (.pruned name) ("Would prune:".toList ++ named)
  | pruning {name : String} {named : List Char} (names : Names name named) :
      Tells (.pruned name) ("Pruning archive:".toList ++ named)
  | pruningOneOf {name : String} {named index count : List Char} (first : IsCounter index)
      (all : IsCounter count) (names : Names name named) :
      Tells (.pruned name)
        ("Pruning archive (".toList ++ index ++ "/".toList ++ count ++ "):".toList ++ named)
  | keeping {name : String} {named : List Char} (names : Names name named) :
      Tells (.kept ⟨name, ""⟩) ("Keeping archive:".toList ++ named)
  | keepingBy {name rule : String} {named : List Char} (bare : ')' ∉ rule.toList)
      (names : Names name named) :
      Tells (.kept ⟨name, rule⟩)
        ("Keeping archive (rule: ".toList ++ rule.toList ++ "):".toList ++ named)

variable {chars rest : List Char} {name : String}

/-! ### The parts of a line -/

theorem after?_eq_some_iff {expected : List Char} :
    after? expected chars = some rest ↔ chars = expected ++ rest := by
  induction expected generalizing chars with
  | nil => simp [after?]
  | cons first expected inductionHypothesis =>
      cases chars with
      | nil => simp [after?]
      | cons char chars =>
          by_cases same : first = char
          · simp [after?, same, inductionHypothesis]
          · simp [after?, same, Ne.symm same]

theorem after?_append (expected rest : List Char) : after? expected (expected ++ rest) = some rest :=
  after?_eq_some_iff.mpr rfl

theorem digitRun?_eq_some_iff {run : List Char} :
    EngineVersion.digitRun? chars = some (run, rest) ↔
      chars = run ++ rest ∧ IsCounter run ∧ Stops isUnicodeDigit rest := by
  obtain ⟨digits, others, rfl, shown, stops⟩ := exists_run isUnicodeDigit chars
  simp only [EngineVersion.digitRun?, takeWhile_run shown stops, List.drop_left]
  constructor
  · intro found
    split at found
    · cases found
    · rename_i nonempty
      obtain ⟨rfl, rfl⟩ := Prod.mk.inj (Option.some.inj found)
      exact ⟨rfl, ⟨by simpa using nonempty, shown⟩, stops⟩
  · rintro ⟨whole, counter, stopsThere⟩
    have sameRun := takeWhile_run counter.shown stopsThere
    rw [← whole, takeWhile_run shown stops] at sameRun
    subst sameRun
    obtain rfl := List.append_cancel_left whole
    simp [counter.nonempty]

theorem digitRun?_cons {run : List Char} {sign : Char} (counter : IsCounter run)
    (plain : isUnicodeDigit sign = false) (rest : List Char) :
    EngineVersion.digitRun? (run ++ sign :: rest) = some (run, sign :: rest) :=
  digitRun?_eq_some_iff.mpr ⟨rfl, counter, stops_cons plain rest⟩

theorem Names.of_word {behind word : List Char} (begins : behind.head?.any isBlank = true)
    (first : (trimStart behind).takeWhile (!isBlank ·) = word) (nonempty : word ≠ []) :
    Names (String.ofList word) behind := by
  obtain ⟨gap, blank, whole⟩ := exists_gap_trimStart behind
  obtain ⟨run, tail, parted, visible, stops⟩ := exists_run (!isBlank ·) (trimStart behind)
  rw [parted, takeWhile_run visible stops] at first
  subst first
  have isWord : IsWord run := ⟨nonempty, fun char member => by simpa using visible char member⟩
  have divided : gap ≠ [] := by
    rintro rfl
    obtain ⟨char, others, rfl⟩ := List.exists_cons_of_ne_nil nonempty
    rw [show behind = char :: (others ++ tail) from whole.trans parted] at begins
    exact absurd begins (by simp [isWord.visible char (by simp)])
  have ends : EndsWord tail := fun char first => by simpa using stops char first
  have names : Names (String.ofList run) (gap ++ (String.ofList run).toList ++ tail) :=
    .mk divided blank (by rwa [String.toList_ofList]) ends
  rwa [String.toList_ofList, List.append_assoc, ← parted, ← whole] at names

theorem subject?_eq_some_iff :
    subject? chars = some name ↔ ∃ named, chars = ':' :: named ∧ Names name named := by
  constructor
  · intro found
    unfold subject? at found
    split at found
    case h_2 => cases found
    case h_1 behind =>
        dsimp only at found
        split at found
        case isFalse => cases found
        case isTrue accepted =>
            obtain ⟨begins, nonempty⟩ := Bool.and_eq_true_iff.mp accepted
            obtain rfl := Option.some.inj found
            exact ⟨behind, rfl, .of_word begins rfl (by simpa using nonempty)⟩
  · rintro ⟨named, rfl, @⟨gap, tail, divided, blank, isWord, ends⟩⟩
    obtain ⟨first, others, rfl⟩ := List.exists_cons_of_ne_nil divided
    have trimmed : trimStart (first :: others ++ name.toList ++ tail) = name.toList ++ tail := by
      rw [List.append_assoc]
      exact isWord.trimStart_gap blank tail
    have begins : (first :: others ++ name.toList ++ tail).head?.any isBlank = true :=
      blank first (by simp)
    have nonempty : name.toList.isEmpty = false := by simpa using isWord.nonempty
    simp only [subject?, trimmed, isWord.takeWhile ends, begins, nonempty, Bool.not_false,
      Bool.and_self, if_true, String.ofList_toList]

theorem afterCounter?_eq_some_iff :
    afterCounter? chars = some rest ↔
      ∃ index count, IsCounter index ∧ IsCounter count ∧
        chars = " (".toList ++ index ++ "/".toList ++ count ++ ")".toList ++ rest := by
  constructor
  · intro found
    simp only [afterCounter?, Option.bind_eq_bind, Option.bind_eq_some_iff, after?_eq_some_iff,
      Prod.exists, digitRun?_eq_some_iff] at found
    obtain ⟨_, rfl, index, _, ⟨rfl, first, -⟩, _, rfl, count, _, ⟨rfl, all, -⟩, rfl⟩ := found
    exact ⟨index, count, first, all, by simp⟩
  · rintro ⟨index, count, first, all, rfl⟩
    have slash := digitRun?_cons first (by decide : isUnicodeDigit '/' = false) (count ++ ')' :: rest)
    have closing := digitRun?_cons all (by decide : isUnicodeDigit ')' = false) rest
    simp [afterCounter?, after?, slash, closing]

theorem rule?_eq_some_iff {rule : List Char} :
    rule? chars = some (rule, rest) ↔
      ')' ∉ rule ∧ chars = " (rule: ".toList ++ rule ++ ")".toList ++ rest := by
  constructor
  · intro found
    simp only [rule?, Option.bind_eq_bind, Option.bind_eq_some_iff, after?_eq_some_iff,
      Option.some.injEq, Prod.mk.injEq] at found
    obtain ⟨behind, rfl, _, closed, rfl, rfl⟩ := found
    obtain ⟨run, others, rfl, inside, stops⟩ := exists_run (· != ')') behind
    rw [takeWhile_run inside stops, List.drop_left] at closed
    rw [takeWhile_run inside stops, closed]
    refine ⟨fun member => ?_, by simp⟩
    simpa using inside ')' member
  · rintro ⟨bare, rfl⟩
    have inside : ∀ char ∈ rule, (char != ')') = true := fun char member =>
      bne_iff_ne.mpr fun same => bare (same ▸ member)
    have run : (rule ++ ')' :: rest).takeWhile (· != ')') = rule :=
      takeWhile_run inside (stops_cons rfl rest)
    simp [rule?, after?, run]

/-! ### Whole lines -/

theorem prunedName?_would (rest : List Char) :
    prunedName? ("Would prune".toList ++ rest) = subject? rest := by
  rw [prunedName?, after?_append]

theorem prunedName?_pruning (rest : List Char) :
    prunedName? ("Pruning archive".toList ++ rest) = subject? ((afterCounter? rest).getD rest) := by
  have other : after? "Would prune".toList ("Pruning archive".toList ++ rest) = none := by
    simp [after?]
  rw [prunedName?, other, after?_append]
  rfl

theorem keptArchive?_of_rule {rule behind : List Char} (ruled : rule? chars = some (rule, behind)) :
    keptArchive? ("Keeping archive".toList ++ chars) =
      (subject? behind).map fun name => ⟨name, String.ofList rule⟩ := by
  simp only [keptArchive?, after?_append, Option.bind_eq_bind, Option.bind_some, ruled]
  cases subject? behind <;> rfl

theorem keptArchive?_of_no_rule (unruled : rule? chars = none) :
    keptArchive? ("Keeping archive".toList ++ chars) =
      (subject? chars).map fun name => ⟨name, ""⟩ := by
  simp only [keptArchive?, after?_append, Option.bind_eq_bind, Option.bind_some, unruled]
  cases subject? chars <;> rfl

theorem afterCounter?_colon (rest : List Char) : afterCounter? (':' :: rest) = none := by
  simp [afterCounter?, after?]

theorem rule?_colon (rest : List Char) : rule? (':' :: rest) = none := by
  simp [rule?, after?]

theorem prunedName?_eq_some_iff :
    prunedName? chars = some name ↔ Tells (.pruned name) chars := by
  constructor
  · intro found
    unfold prunedName? at found
    split at found
    case h_1 behind front =>
        obtain ⟨named, rfl, names⟩ := subject?_eq_some_iff.mp found
        rw [after?_eq_some_iff.mp front]
        exact .wouldPrune names
    case h_2 =>
        obtain ⟨behind, front, subject⟩ := Option.bind_eq_some_iff.mp found
        rw [after?_eq_some_iff.mp front]
        cases counted : afterCounter? behind with
        | none =>
            rw [counted] at subject
            obtain ⟨named, rfl, names⟩ := subject?_eq_some_iff.mp subject
            exact .pruning names
        | some rest =>
            rw [counted] at subject
            obtain ⟨named, rfl, names⟩ := subject?_eq_some_iff.mp subject
            obtain ⟨index, count, first, all, rfl⟩ := afterCounter?_eq_some_iff.mp counted
            simpa using Tells.pruningOneOf first all names
  · intro tells
    cases tells with
    | @wouldPrune _ named names =>
        have read := prunedName?_would (':' :: named)
        rw [subject?_eq_some_iff.mpr ⟨named, rfl, names⟩] at read
        simpa using read
    | @pruning _ named names =>
        have read := prunedName?_pruning (':' :: named)
        rw [afterCounter?_colon, Option.getD_none,
          subject?_eq_some_iff.mpr ⟨named, rfl, names⟩] at read
        simpa using read
    | @pruningOneOf _ named index count first all names =>
        have counted : afterCounter?
            (" (".toList ++ index ++ "/".toList ++ count ++ ")".toList ++ ':' :: named) =
              some (':' :: named) :=
          afterCounter?_eq_some_iff.mpr ⟨index, count, first, all, rfl⟩
        have read := prunedName?_pruning
          (" (".toList ++ index ++ "/".toList ++ count ++ ")".toList ++ ':' :: named)
        rw [counted, Option.getD_some, subject?_eq_some_iff.mpr ⟨named, rfl, names⟩] at read
        simpa using read

theorem keptArchive?_eq_some_iff {archive : KeptArchive} :
    keptArchive? chars = some archive ↔ Tells (.kept archive) chars := by
  constructor
  · intro found
    obtain ⟨behind, front, -⟩ := Option.bind_eq_some_iff.mp found
    obtain rfl := after?_eq_some_iff.mp front
    cases ruled : rule? behind with
    | none =>
        rw [keptArchive?_of_no_rule ruled] at found
        obtain ⟨name, subject, rfl⟩ := Option.map_eq_some_iff.mp found
        obtain ⟨named, rfl, names⟩ := subject?_eq_some_iff.mp subject
        exact .keeping names
    | some answer =>
        obtain ⟨rule, rest⟩ := answer
        rw [keptArchive?_of_rule ruled] at found
        obtain ⟨name, subject, rfl⟩ := Option.map_eq_some_iff.mp found
        obtain ⟨named, rfl, names⟩ := subject?_eq_some_iff.mp subject
        obtain ⟨bare, rfl⟩ := rule?_eq_some_iff.mp ruled
        have told := @Tells.keepingBy name (String.ofList rule) named (by simpa using bare) names
        simpa using told
  · intro tells
    cases tells with
    | @keeping name named names =>
        have read := keptArchive?_of_no_rule (rule?_colon named)
        rw [subject?_eq_some_iff.mpr ⟨named, rfl, names⟩] at read
        simpa using read
    | @keepingBy name rule named bare names =>
        have ruled :
            rule? (" (rule: ".toList ++ rule.toList ++ ")".toList ++ ':' :: named) =
              some (rule.toList, ':' :: named) :=
          rule?_eq_some_iff.mpr ⟨bare, rfl⟩
        have read := keptArchive?_of_rule ruled
        rw [subject?_eq_some_iff.mpr ⟨named, rfl, names⟩] at read
        simpa using read

theorem prunedName?_of_kept {archive : KeptArchive} (tells : Tells (.kept archive) chars) :
    prunedName? chars = none := by
  cases tells with
  | keeping names => simp [prunedName?, after?]
  | keepingBy bare names => simp [prunedName?, after?]

theorem parse?_eq_some_iff {line : PruneLine} : parse? chars = some line ↔ Tells line chars := by
  cases line with
  | pruned name =>
      rw [← prunedName?_eq_some_iff, parse?]
      cases prunedName? chars with
      | some other => simp
      | none => simp
  | kept archive =>
      rw [← keptArchive?_eq_some_iff]
      constructor
      · intro parsed
        rw [parse?] at parsed
        split at parsed
        · cases parsed
        · simpa using parsed
      · intro kept
        rw [parse?, prunedName?_of_kept (keptArchive?_eq_some_iff.mp kept), kept]
        rfl

theorem isCounter_digits (number : Nat) : IsCounter (Decimal.digits number) where
  nonempty := Decimal.digits_ne_nil number
  shown := by
    intro char member
    obtain ⟨low, high⟩ := Decimal.isDigit_iff.mp (Decimal.isDigit_of_mem_digits member)
    refine List.any_eq_true.mpr ⟨0x30, by simp [zeros], ?_⟩
    simp only [Bool.and_eq_true, decide_eq_true_eq]
    omega

/-- The lines that are read are those that tell what becomes of an archive, and each is read as what it
tells.  In particular the counters may be numerals, and a line that begins in no known way is not
read. -/
theorem lines_are_read_as_told :
    (∀ text line, parse? text = some line ↔ Tells line text) ∧
    (∀ (index count : Nat) name named, Names name named →
      parse? ("Pruning archive (".toList ++ Decimal.digits index ++ "/".toList ++
        Decimal.digits count ++ "):".toList ++ named) = some (.pruned name)) ∧
    ∀ text, ¬ "Would prune:".toList <+: text → ¬ "Pruning archive".toList <+: text →
      ¬ "Keeping archive".toList <+: text → parse? text = none := by
  refine ⟨fun text line => parse?_eq_some_iff, ?_, ?_⟩
  · intro index count name named names
    exact parse?_eq_some_iff.mpr
      (.pruningOneOf (isCounter_digits index) (isCounter_digits count) names)
  · intro text noTrial noPruning noKeeping
    have pruning (rest : List Char) :
        "Pruning archive".toList <+: "Pruning archive (".toList ++ rest :=
      (by decide : _ <+: "Pruning archive (".toList).trans (List.prefix_append _ _)
    have keeping (rest : List Char) :
        "Keeping archive".toList <+: "Keeping archive (rule: ".toList ++ rest :=
      (by decide : _ <+: "Keeping archive (rule: ".toList).trans (List.prefix_append _ _)
    refine Option.eq_none_iff_forall_ne_some.mpr fun line parsed => ?_
    cases parse?_eq_some_iff.mp parsed with
    | wouldPrune names => exact noTrial (List.prefix_append _ _)
    | pruning names =>
        exact noPruning ((by decide : _ <+: "Pruning archive:".toList).trans (List.prefix_append _ _))
    | pruningOneOf first all names =>
        simp only [List.append_assoc] at noPruning
        exact noPruning (pruning _)
    | keeping names =>
        exact noKeeping ((by decide : _ <+: "Keeping archive:".toList).trans (List.prefix_append _ _))
    | keepingBy bare names =>
        simp only [List.append_assoc] at noKeeping
        exact noKeeping (keeping _)

/-- A name that looks like a rule, between blanks that are no spaces, and a line that begins one blank too
late. -/
theorem awkward_lines_are_read :
    let name := "(rule:Keeping"
    let named := "\u00a0\t".toList ++ name.toList ++ "\u2003Thu".toList
    let late := " Would prune: home".toList
    Names name named ∧
      parse? ("Keeping archive (rule: ".toList ++ "weekly[oldest] #1".toList ++ "):".toList ++
        named) = some (.kept ⟨name, "weekly[oldest] #1"⟩) ∧
      parse? ("Pruning archive (".toList ++ Decimal.digits 12 ++ "/".toList ++ Decimal.digits 345 ++
        "):".toList ++ named) = some (.pruned name) ∧
      ¬ "Would prune:".toList <+: late ∧ ¬ "Pruning archive".toList <+: late ∧
      ¬ "Keeping archive".toList <+: late ∧ parse? late = none := by
  intro name named late
  have names : Names name named := .mk (by decide) (by decide) (by decide) (by decide)
  have bare : ')' ∉ "weekly[oldest] #1".toList := by decide
  obtain ⟨read, counted, unread⟩ := lines_are_read_as_told
  have noTrial : ¬ "Would prune:".toList <+: late := by decide
  have noPruning : ¬ "Pruning archive".toList <+: late := by decide
  have noKeeping : ¬ "Keeping archive".toList <+: late := by decide
  exact ⟨names, (read _ _).mpr (.keepingBy bare names), counted 12 345 name named names, noTrial,
    noPruning, noKeeping, unread late noTrial noPruning noKeeping⟩

end PruneLine

end BackupClient
