import BackupClient.Proofs.Mounts.Escapes
import BackupClient.Proofs.Text.Lines

/-!
Mount points read from tables.

Two kinds of tables tell the mount points.  In one of them each is a word between others, with escapes for
what would divide it; in the other one it stands between two separators, and may have either of them in it.
Both readers find what was written.
-/

namespace BackupClient

/-! ### Lines -/

namespace Text

/-- Lines as one text.  Each one has a line feed behind it, but the last one may have none. -/
def unlines (ended : Bool) : List (List Char) → List Char
  | [] => []
  | [line] => if ended then line ++ ['\n'] else line
  | line :: rest => line ++ '\n' :: unlines ended rest

/-- A line, but for a carriage return at its end. -/
def IsCutFrom (cut line : List Char) : Prop :=
  cut = line ∨ cut ++ ['\r'] = line

variable {line : List Char}

theorem chomp_ended (line : List Char) : IsCutFrom (chomp (line ++ ['\n'])) line := by
  have reversed : (line ++ ['\n']).reverse = '\n' :: line.reverse := List.reverse_concat
  unfold chomp
  rw [reversed]
  split
  case h_1 rest ended =>
      right
      rw [← List.reverse_cons, ← (List.cons.inj ended).2, List.reverse_reverse]
  case h_2 rest _ ended =>
      left
      rw [← (List.cons.inj ended).2, List.reverse_reverse]
  case h_3 _ other => exact absurd rfl (other _)

theorem chomp_unbroken (unbroken : '\n' ∉ line) : chomp line = line := by
  have other {rest : List Char} : line.reverse ≠ '\n' :: rest := by
    intro reversed
    apply unbroken
    rw [← List.mem_reverse, reversed]
    exact List.mem_cons_self
  unfold chomp
  split
  case h_1 ended => exact absurd ended other
  case h_2 ended => exact absurd ended other
  case h_3 => rfl

/-- What is read line by line, with a line for each value, is the values. -/
theorem filterMap_lines_unlines {α β : Type} {read : List Char → Option α} {write : β → List Char}
    {value : β → α} (ended : Bool) (unbroken : ∀ entry, '\n' ∉ write entry)
    (written : ∀ entry, write entry ≠ [])
    (reads : ∀ entry cut, IsCutFrom cut (write entry) → read cut = some (value entry))
    (entries : List β) :
    (lines (unlines ended (entries.map write))).filterMap read = entries.map value := by
  induction entries with
  | nil => rfl
  | cons entry entries inductionHypothesis =>
      have first : read (chomp (write entry ++ ['\n'])) = some (value entry) :=
        reads entry _ (chomp_ended _)
      cases entries with
      | nil =>
          cases ended with
          | true =>
              have text : lines (unlines true [write entry]) = [chomp (write entry ++ ['\n'])] :=
                congrArg (List.map chomp) (segments_more (unbroken entry) [])
              rw [List.map_singleton, text, List.filterMap_cons_some first]
              rfl
          | false =>
              have text : lines (unlines false [write entry]) = [chomp (write entry)] :=
                congrArg (List.map chomp) (segments_last (unbroken entry) (written entry))
              have last := reads entry _ (Or.inl rfl)
              rw [← chomp_unbroken (unbroken entry)] at last
              rw [List.map_singleton, text, List.filterMap_cons_some last]
              rfl
      | cons next entries =>
          have text : lines (unlines ended ((entry :: next :: entries).map write)) =
              chomp (write entry ++ ['\n']) :: lines (unlines ended ((next :: entries).map write)) :=
            congrArg (List.map chomp) (segments_more (unbroken entry) _)
          rw [text, List.filterMap_cons_some first, inductionHypothesis]
          rfl

end Text

namespace Mounts

open Text

variable {chars field front rest separator : List Char} {char : Char} {bytes : List UInt8}

/-! ### Escapes -/

def octalDigit (value : Nat) : Char :=
  Char.ofNat (0x30 + value)

def octalEscape (code : Nat) : List Char :=
  ['\\', octalDigit (code / 64), octalDigit (code / 8 % 8), octalDigit (code % 8)]

/-- The characters that a table never has inside a word, and the one that escapes them. -/
def escapedChars : List Char :=
  [' ', '\t', '\n', '\\']

def escapeChar (char : Char) : List Char :=
  if char ∈ escapedChars then octalEscape char.toNat else [char]

def escape (chars : List Char) : List Char :=
  chars.flatMap escapeChar

theorem not_mem_escape (escaped : char ∈ escapedChars) (other : char ≠ '\\') :
    char ∉ escape chars := by
  intro member
  obtain ⟨source, -, found⟩ := List.mem_flatMap.mp member
  unfold escapeChar at found
  split at found
  case isTrue special =>
      have apart : (escapedChars.all fun source => escapedChars.all fun char =>
          char == '\\' || !(octalEscape source.toNat).contains char) = true := by decide
      have each := List.all_eq_true.mp (List.all_eq_true.mp apart source special) char escaped
      simp [other, found] at each
  case isFalse plain =>
      obtain rfl := List.mem_singleton.mp found
      exact plain escaped

theorem unescape_cons {byte : UInt8} (plain : byte ≠ 0x5C) (bytes : List UInt8) :
    unescape (byte :: bytes) = byte :: unescape bytes := by
  apply unescape_cons_of_unread
  rintro written code (escape | signed) isPrefix
  · exact plain (escape.begins isPrefix).1
  · exact plain (signed.begins isPrefix).1

theorem unescape_append (plain : ∀ byte ∈ bytes, byte ≠ 0x5C) (rest : List UInt8) :
    unescape (bytes ++ rest) = bytes ++ unescape rest := by
  induction bytes with
  | nil => rfl
  | cons byte bytes inductionHypothesis =>
      obtain ⟨first, others⟩ := List.forall_mem_cons.mp plain
      rw [List.cons_append, unescape_cons first, inductionHypothesis others, List.cons_append]

/-- An escape stands for the one byte of its character, whatever follows it. -/
theorem unescape_octalEscape (escaped : char ∈ escapedChars) (rest : List UInt8) :
    unescape (Utf8.encode (octalEscape char.toNat) ++ rest) =
      Utf8.encodeChar char ++ unescape rest := by
  rcases List.mem_cons.mp escaped with rfl | escaped
  · rfl
  rcases List.mem_cons.mp escaped with rfl | escaped
  · rfl
  rcases List.mem_cons.mp escaped with rfl | escaped
  · rfl
  · obtain rfl := List.mem_singleton.mp escaped
    rfl

theorem ne_backslash_of_mem_encodeChar {byte : UInt8} (plain : char ∉ escapedChars)
    (member : byte ∈ Utf8.encodeChar char) : byte ≠ 0x5C := by
  rintro rfl
  by_cases ascii : char.toNat < 0x80
  · rw [Utf8.encodeChar_of_ascii ascii, List.mem_singleton] at member
    have code := congrArg UInt8.toNat member
    rw [Utf8.toNat_toUInt8 (by omega)] at code
    apply plain
    rw [← Char.ofNat_toNat char, ← code]
    decide
  · exact absurd (Utf8.le_of_mem_encodeChar (Nat.le_of_not_lt ascii) member) (by decide)

theorem unescape_escape (chars : List Char) :
    unescape (Utf8.encode (escape chars)) = Utf8.encode chars := by
  induction chars with
  | nil => rfl
  | cons char chars inductionHypothesis =>
      have whole : Utf8.encode (escape (char :: chars)) =
          Utf8.encode (escapeChar char) ++ Utf8.encode (escape chars) := List.flatMap_append
      have result : Utf8.encode (char :: chars) = Utf8.encodeChar char ++ Utf8.encode chars :=
        List.flatMap_cons
      rw [whole, result]
      by_cases escaped : char ∈ escapedChars
      · rw [escapeChar, if_pos escaped, unescape_octalEscape escaped, inductionHypothesis]
      · have single : Utf8.encode [char] = Utf8.encodeChar char := List.flatMap_singleton _ _
        rw [escapeChar, if_neg escaped, single, unescape_append, inductionHypothesis]
        intro byte member
        exact ne_backslash_of_mem_encodeChar escaped member

/-! ### Words -/

theorem words_append (whole : ' ' ∉ field) (rest : List Char) :
    words (field ++ ' ' :: rest) = field :: words rest := by
  induction field with
  | nil => simp [words]
  | cons char field inductionHypothesis =>
      have different : char ≠ ' ' := Ne.symm (List.ne_of_not_mem_cons whole)
      simp [words, different, inductionHypothesis (List.not_mem_of_not_mem_cons whole)]

theorem words_fields_append {fields : List (List Char)} (whole : ∀ field ∈ fields, ' ' ∉ field)
    (rest : List Char) : words (fields.flatMap (· ++ [' ']) ++ rest) = fields ++ words rest := by
  induction fields with
  | nil => rfl
  | cons field fields inductionHypothesis =>
      obtain ⟨first, others⟩ := List.forall_mem_cons.mp whole
      rw [List.flatMap_cons, List.append_assoc, List.append_assoc, List.singleton_append,
        words_append first, inductionHypothesis others, List.cons_append]

/-- A line of the system's table: the fields around a mount point. -/
structure TableEntry where
  ahead : List (List Char)
  point : String
  behind : List (List Char)
  fifth : ahead.length = 4
  followed : behind ≠ []
  whole : ∀ field ∈ ahead ++ behind, ' ' ∉ field ∧ '\n' ∉ field

namespace TableEntry

def text (entry : TableEntry) : List Char :=
  [' '].intercalate (entry.ahead ++ escape entry.point.toList :: entry.behind)

theorem intercalate_append {fields others : List (List Char)} (nonempty : others ≠ []) :
    [' '].intercalate (fields ++ others) =
      fields.flatMap (· ++ [' ']) ++ [' '].intercalate others := by
  induction fields with
  | nil => rfl
  | cons field fields inductionHypothesis =>
      have more : fields ++ others ≠ [] := List.append_ne_nil_of_right_ne_nil _ nonempty
      rw [List.cons_append, List.intercalate_cons_of_ne_nil more, inductionHypothesis,
        List.flatMap_cons, List.append_assoc, List.append_assoc, List.append_assoc]

theorem text_eq (entry : TableEntry) : entry.text = entry.ahead.flatMap (· ++ [' ']) ++
    (escape entry.point.toList ++ ' ' :: [' '].intercalate entry.behind) := by
  rw [text, intercalate_append (List.cons_ne_nil _ _),
    List.intercalate_cons_of_ne_nil entry.followed, List.append_assoc, List.singleton_append]

theorem not_mem_intercalate {fields : List (List Char)} (unbroken : ∀ field ∈ fields, '\n' ∉ field) :
    '\n' ∉ [' '].intercalate fields := by
  induction fields with
  | nil => exact List.not_mem_nil
  | cons field fields inductionHypothesis =>
      obtain ⟨first, others⟩ := List.forall_mem_cons.mp unbroken
      cases fields with
      | nil => simpa using first
      | cons next fields =>
          rw [List.intercalate_cons_cons]
          apply List.not_mem_append _ (inductionHypothesis others)
          exact List.not_mem_append first (by decide)

theorem not_mem_text (entry : TableEntry) : '\n' ∉ entry.text := by
  apply not_mem_intercalate
  intro field member
  rcases List.mem_append.mp member with ahead | further
  · exact (entry.whole field (List.mem_append_left _ ahead)).2
  rcases List.mem_cons.mp further with rfl | behind
  · exact not_mem_escape (by decide) (by decide)
  · exact (entry.whole field (List.mem_append_right _ behind)).2

theorem text_ne_nil (entry : TableEntry) : entry.text ≠ [] := by
  rw [text_eq]
  simp

theorem tablePoint?_of_fields (entry : TableEntry) (rest : List Char) :
    tablePoint? (entry.ahead.flatMap (· ++ [' ']) ++ (escape entry.point.toList ++ ' ' :: rest)) =
      some entry.point := by
  have undivided : ∀ field ∈ entry.ahead, ' ' ∉ field := by
    intro field member
    exact (entry.whole field (List.mem_append_left _ member)).1
  have fifth : (words (entry.ahead.flatMap (· ++ [' ']) ++
      (escape entry.point.toList ++ ' ' :: rest)))[4]? = some (escape entry.point.toList) := by
    rw [words_fields_append undivided, words_append (not_mem_escape (by decide) (by decide)),
      List.getElem?_append_right (by rw [entry.fifth]), entry.fifth]
    rfl
  rw [tablePoint?, fifth, Option.map_some, unescape_escape, Utf8.decodeLossy_encode,
    String.ofList_toList]

example : tablePoint? "36 35 98:0 / /mnt/a\\0401\\134040 rw - fuse borgfs rw".toList =
    some "/mnt/a 1\\040" := by
  decide

theorem tablePoint?_cut (entry : TableEntry) {cut : List Char} (isCut : IsCutFrom cut entry.text) :
    tablePoint? cut = some entry.point := by
  rw [text_eq] at isCut
  rcases isCut with rfl | ended
  · exact entry.tablePoint?_of_fields _
  · rcases List.eq_nil_or_concat ([' '].intercalate entry.behind) with nothing | ⟨rest, last, some⟩
    · rw [nothing, ← List.append_assoc] at ended
      exact absurd (List.append_inj' ended rfl).2 (by decide)
    · rw [some, List.concat_eq_append, ← List.cons_append, ← List.append_assoc,
        ← List.append_assoc] at ended
      rw [(List.append_inj' ended rfl).1, List.append_assoc]
      exact entry.tablePoint?_of_fields rest

end TableEntry

/-! ### Separators -/

/-- The first occurrence of a separator is the one that is meant, unless one begins before it. -/
theorem afterFirst?_append (nonempty : separator ≠ [])
    (fresh : ¬ separator <:+: front ++ separator.dropLast) (rest : List Char) :
    afterFirst? separator (front ++ (separator ++ rest)) = some rest := by
  induction front with
  | nil =>
      obtain ⟨head, tail, rfl⟩ := List.exists_cons_of_ne_nil nonempty
      have begins : (head :: tail).isPrefixOf (head :: tail ++ rest) = true :=
        List.isPrefixOf_iff_prefix.mpr (List.prefix_append _ _)
      rw [List.nil_append, List.cons_append, afterFirst?, ← List.cons_append, if_pos begins,
        List.drop_left]
  | cons char front inductionHypothesis =>
      have later : ¬ separator <:+: front ++ separator.dropLast := by
        intro occurs
        exact fresh (List.infix_cons_iff.mpr (Or.inr occurs))
      have notHere : ¬ separator.isPrefixOf (char :: (front ++ (separator ++ rest))) = true := by
        intro begins
        apply fresh
        apply List.IsPrefix.isInfix
        apply List.prefix_of_prefix_length_le (List.isPrefixOf_iff_prefix.mp begins)
        · obtain ⟨last, whole⟩ : ∃ last, separator = separator.dropLast ++ [last] :=
            ⟨_, (List.dropLast_append_getLast nonempty).symm⟩
          refine ⟨last :: rest, ?_⟩
          conv_rhs => rw [whole]
          simp
        · have positive := List.length_pos_of_ne_nil nonempty
          simp only [List.cons_append, List.length_cons, List.length_append, List.length_dropLast]
          omega
      rw [List.cons_append, afterFirst?, if_neg notHere, inductionHypothesis later]

/-- The last occurrence of a separator is the one that is meant, unless one ends behind it. -/
theorem beforeLast_append (nonempty : separator ≠ [])
    (fresh : ¬ separator <:+: separator.tail ++ rest) (front : List Char) :
    beforeLast separator (front ++ (separator ++ rest)) = front := by
  have reversed : (front ++ (separator ++ rest)).reverse =
      rest.reverse ++ (separator.reverse ++ front.reverse) := by simp
  have backwards : ¬ separator.reverse <:+: rest.reverse ++ separator.reverse.dropLast := by
    rw [List.dropLast_reverse, ← List.reverse_append, List.reverse_infix]
    exact fresh
  have found := afterFirst?_append (mt List.reverse_eq_nil_iff.mp nonempty) backwards front.reverse
  rw [beforeLast, reversed, found]
  exact List.reverse_reverse front

/-- A line of what the mount command prints: a device, a mount point and options. -/
structure ListingEntry where
  device : List Char
  point : String
  options : List Char
  undivided : ' ' ∉ device
  unbroken : '\n' ∉ device ++ point.toList ++ options
  unopened : ¬ " (".toList <:+: options

namespace ListingEntry

def text (entry : ListingEntry) : List Char :=
  entry.device ++ " on ".toList ++ entry.point.toList ++ " (".toList ++ entry.options ++ [')']

theorem not_mem_text (entry : ListingEntry) : '\n' ∉ entry.text := by
  have unbroken := entry.unbroken
  have separators : '\n' ∉ " on ".toList ∧ '\n' ∉ " (".toList ∧ '\n' ∉ [')'] := by decide
  simp only [text, List.mem_append, not_or] at unbroken ⊢
  simp only [unbroken, separators, not_false_iff, and_self]

theorem text_ne_nil (entry : ListingEntry) : entry.text ≠ [] :=
  List.append_ne_nil_of_right_ne_nil _ (List.cons_ne_nil _ _)

theorem eq_text_of_cut (entry : ListingEntry) {cut : List Char} (isCut : IsCutFrom cut entry.text) :
    cut = entry.text := by
  rcases isCut with same | ended
  · exact same
  · exact absurd (List.append_inj' ended rfl).2 (by decide)

/-- The device ends at the first separator, and the options begin at the last one. -/
theorem listedPoint?_text (entry : ListingEntry) : listedPoint? entry.text = some entry.point := by
  have first : ¬ " on ".toList <:+: entry.device ++ " on ".toList.dropLast := by
    intro occurs
    have spaces := occurs.sublist.count_le ' '
    rw [List.count_append, List.count_eq_zero_of_not_mem entry.undivided] at spaces
    exact absurd spaces (by decide)
  have last : ¬ " (".toList <:+: " (".toList.tail ++ (entry.options ++ [')']) := by
    intro occurs
    rcases List.infix_cons_iff.mp occurs with begins | within
    · exact absurd (List.cons_prefix_cons.mp begins).1 (by decide)
    rcases List.infix_concat_iff.mp within with ends | inside
    · rcases List.suffix_concat_iff.mp ends with nothing | ⟨front, same, -⟩
      · exact absurd nothing (by decide)
      · have separator : " (".toList = [' '] ++ ['('] := rfl
        exact absurd (List.append_inj' (separator.symm.trans same) rfl).2 (by decide)
    · exact entry.unopened inside
  have shape : entry.text = entry.device ++ (" on ".toList ++
      (entry.point.toList ++ (" (".toList ++ (entry.options ++ [')'])))) := by
    simp only [text, List.append_assoc]
  rw [listedPoint?, shape, afterFirst?_append (by decide) first, Option.map_some,
    beforeLast_append (by decide) last, String.ofList_toList]

example : listedPoint? "borgfs on /mnt/on on (a) (b) (ro, nodev)".toList =
    some "/mnt/on on (a) (b)" := by
  decide

end ListingEntry

/-! ### Tables -/

/-- The points are the ones that are written, however they are written and whatever stands around them. -/
theorem tables_tell_points (root : String) (ended : Bool) :
    (∀ entries : List TableEntry,
      ofTable root (unlines ended (entries.map TableEntry.text)) =
        ofPoints root (entries.map TableEntry.point)) ∧
    ∀ entries : List ListingEntry,
      ofListing root (unlines ended (entries.map ListingEntry.text)) =
        ofPoints root (entries.map ListingEntry.point) := by
  constructor
  · intro entries
    apply congrArg (ofPoints root)
    apply filterMap_lines_unlines ended TableEntry.not_mem_text TableEntry.text_ne_nil
    intro entry cut isCut
    exact entry.tablePoint?_cut isCut
  · intro entries
    apply congrArg (ofPoints root)
    apply filterMap_lines_unlines ended ListingEntry.not_mem_text ListingEntry.text_ne_nil
    intro entry cut isCut
    rw [entry.eq_text_of_cut isCut]
    exact entry.listedPoint?_text

/-- A repository below a directory with a space in its name, in the system's table. -/
def spacedEntry : TableEntry where
  ahead := [['6', '1'], ['3', '5'], "0:52".toList, ['/']]
  point := "/run/my mounts/repo-3"
  behind := ["ro".toList, ['-'], "fuse".toList, "borgfs".toList]
  fifth := rfl
  followed := List.cons_ne_nil _ _
  whole := by decide

def listedEntry : ListingEntry where
  device := "borgfs".toList
  point := "/run/my mounts/archive-7"
  options := ['r', 'o']
  undivided := by decide
  unbroken := by decide
  unopened := fun occurs => absurd (occurs.sublist.count_le ' ') (by decide)

theorem spaced_points_are_told :
    spacedEntry.text = "61 35 0:52 / /run/my\\040mounts/repo-3 ro - fuse borgfs".toList ∧
      listedEntry.text = "borgfs on /run/my mounts/archive-7 (ro)".toList ∧
      ofTable "/run/my mounts" (unlines true [spacedEntry.text]) =
        ⟨[(3, "/run/my mounts/repo-3")], []⟩ ∧
      ofListing "/run/my mounts" (unlines false [listedEntry.text]) =
        ⟨[], [(7, "/run/my mounts/archive-7")]⟩ := by
  have table := (tables_tell_points "/run/my mounts" true).1 [spacedEntry]
  have listing := (tables_tell_points "/run/my mounts" false).2 [listedEntry]
  exact ⟨by decide, by decide, table.trans (by decide), listing.trans (by decide)⟩

end Mounts

end BackupClient
