import BackupClient.Engine.Mounts
import BackupClient.Proofs.Text.Encoding
import Mathlib.Logic.ExistsUnique

/-!
Escapes in words of the system's table.

A backslash and three octal digits stand for a byte, and every other byte stands for itself.  A word is read
so unless it has a plus sign in the place of a first digit, which the reader takes for a zero.
-/

namespace BackupClient.Mounts

open Text

variable {bytes written result other rest : List UInt8} {byte first second third code : UInt8}

/-! ### What stands for a byte -/

def IsOctalDigit (byte : UInt8) : Prop :=
  0x30 ≤ byte.toNat ∧ byte.toNat ≤ 0x37

def octalValue (first second third : UInt8) : Nat :=
  (first.toNat - 0x30) * 64 + (second.toNat - 0x30) * 8 + (third.toNat - 0x30)

/-- A backslash and three octal digits stand for the byte that they tell, if there is one. -/
inductive IsEscape : List UInt8 → UInt8 → Prop where
  | digits {first second third code : UInt8} :
      IsOctalDigit first → IsOctalDigit second → IsOctalDigit third →
      code.toNat = octalValue first second third →
      IsEscape [0x5C, first, second, third] code

/-- A backslash, a plus sign and two octal digits, with the byte that the digits tell. -/
inductive IsSigned : List UInt8 → UInt8 → Prop where
  | digits {second third code : UInt8} :
      IsOctalDigit second → IsOctalDigit third → code.toNat = octalValue 0x30 second third →
      IsSigned [0x5C, 0x2B, second, third] code

/-- The escapes of a byte string are undone from the left, and all else is copied. -/
inductive Unescapes : List UInt8 → List UInt8 → Prop where
  | nil : Unescapes [] []
  | escape {written rest result : List UInt8} {code : UInt8} :
      IsEscape written code → Unescapes rest result → Unescapes (written ++ rest) (code :: result)
  | copy {byte : UInt8} {rest result : List UInt8} :
      (∀ written code, IsEscape written code → ¬ written <+: byte :: rest) →
      Unescapes rest result → Unescapes (byte :: rest) (byte :: result)

def HasSigned (bytes : List UInt8) : Prop :=
  ∃ written code, IsSigned written code ∧ written <:+: bytes

theorem IsOctalDigit.ne_plus (digit : IsOctalDigit byte) : byte ≠ 0x2B := by
  rintro rfl
  exact absurd digit.1 (by decide)

theorem IsOctalDigit.ne_backslash (digit : IsOctalDigit byte) : byte ≠ 0x5C := by
  rintro rfl
  exact absurd digit.2 (by decide)

theorem IsEscape.begins (escape : IsEscape written code) (isPrefix : written <+: byte :: rest) :
    byte = 0x5C ∧ ∃ digit behind, rest = digit :: behind ∧ IsOctalDigit digit := by
  obtain ⟨one, -, -, -⟩ := escape
  obtain ⟨behind, same⟩ := isPrefix
  obtain ⟨rfl, rfl⟩ := List.cons.inj same
  exact ⟨rfl, _, _, rfl, one⟩

theorem IsSigned.begins (signed : IsSigned written code) (isPrefix : written <+: byte :: rest) :
    byte = 0x5C ∧ ∃ behind, rest = 0x2B :: behind := by
  obtain ⟨-, -, -⟩ := signed
  obtain ⟨behind, same⟩ := isPrefix
  obtain ⟨rfl, rfl⟩ := List.cons.inj same
  exact ⟨rfl, _, rfl⟩

/-! ### One result -/

theorem IsEscape.unique (escape : IsEscape written code) {value : UInt8}
    (again : IsEscape written value) : code = value := by
  obtain ⟨-, -, -, same⟩ := escape
  obtain ⟨-, -, -, alike⟩ := again
  exact UInt8.toNat_inj.mp (same.trans alike.symm)

theorem IsEscape.length (escape : IsEscape written code) : written.length = 4 := by
  obtain ⟨⟩ := escape
  rfl

theorem IsEscape.append_ne_nil (escape : IsEscape written code) (rest : List UInt8) :
    written ++ rest ≠ [] := by
  obtain ⟨⟩ := escape
  exact List.cons_ne_nil _ _

theorem exists_unescapes (bytes : List UInt8) : ∃ result, Unescapes bytes result := by
  by_cases begins : ∃ written code rest, IsEscape written code ∧ written ++ rest = bytes
  · obtain ⟨written, code, rest, escape, rfl⟩ := begins
    have shorter : rest.length < (written ++ rest).length := by
      rw [List.length_append, escape.length]
      omega
    obtain ⟨result, undone⟩ := exists_unescapes rest
    exact ⟨_, .escape escape undone⟩
  · cases bytes with
    | nil => exact ⟨_, .nil⟩
    | cons byte rest =>
        obtain ⟨result, undone⟩ := exists_unescapes rest
        refine ⟨_, .copy ?_ undone⟩
        rintro written code escape ⟨behind, same⟩
        exact begins ⟨written, code, behind, escape, same⟩
termination_by bytes.length

theorem Unescapes.of_escape (escape : IsEscape written code)
    (undone : Unescapes (written ++ rest) result) :
    ∃ later, result = code :: later ∧ Unescapes rest later := by
  generalize same : written ++ rest = bytes at undone
  cases undone with
  | nil => exact absurd same (escape.append_ne_nil rest)
  | @escape first behind later value again undone =>
      obtain ⟨rfl, rfl⟩ := List.append_inj same (escape.length.trans again.length.symm)
      obtain rfl := escape.unique again
      exact ⟨later, rfl, undone⟩
  | copy none undone => exact absurd ⟨rest, same⟩ (none written code escape)

theorem Unescapes.of_copy
    (none : ∀ written code, IsEscape written code → ¬ written <+: byte :: rest)
    (undone : Unescapes (byte :: rest) result) :
    ∃ later, result = byte :: later ∧ Unescapes rest later := by
  generalize same : byte :: rest = bytes at undone
  cases undone with
  | nil => cases same
  | @escape written behind later code escape undone =>
      exact absurd ⟨behind, same.symm⟩ (none written code escape)
  | copy also undone =>
      obtain ⟨rfl, rfl⟩ := List.cons.inj same
      exact ⟨_, rfl, undone⟩

theorem Unescapes.unique (undone : Unescapes bytes result) (again : Unescapes bytes other) :
    other = result := by
  induction undone generalizing other with
  | nil =>
      generalize same : ([] : List UInt8) = bytes at again
      cases again with
      | nil => rfl
      | escape escape undone => exact absurd same.symm (escape.append_ne_nil _)
      | copy none undone => cases same
  | escape escape undone inductionHypothesis =>
      obtain ⟨later, rfl, undone⟩ := again.of_escape escape
      rw [inductionHypothesis undone]
  | copy none undone inductionHypothesis =>
      obtain ⟨later, rfl, undone⟩ := again.of_copy none
      rw [inductionHypothesis undone]

/-! ### What the reader does -/

theorem byte_eq_some_iff {value : Nat} :
    (if value ≤ 255 then some value.toUInt8 else Option.none) = some code ↔
      code.toNat = value := by
  have bounded : code.toNat < 256 := code.toNat_lt
  split
  case isTrue fits =>
      rw [Option.some_inj, ← UInt8.toNat_inj, Utf8.toNat_toUInt8 (by omega)]
      exact eq_comm
  case isFalse tooLarge =>
      constructor
      · intro none
        cases none
      · intro same
        omega

/-- The reader takes signed codes for escapes, and nothing else that is none. -/
theorem octalByte?_eq_some_iff :
    octalByte? first second third = some code ↔
      IsEscape [0x5C, first, second, third] code ∨ IsSigned [0x5C, first, second, third] code := by
  have digit {byte : UInt8} (isDigit : IsOctalDigit byte) : 0x30 ≤ byte ∧ byte ≤ 0x37 := isDigit
  unfold octalByte?
  dsimp only
  constructor
  · intro read
    split at read
    case h_1 high middle low isHigh isMiddle isLow =>
        rw [Option.ite_none_right_eq_some, Option.some_inj] at isMiddle isLow
        obtain ⟨two, rfl⟩ := isMiddle
        obtain ⟨three, rfl⟩ := isLow
        have value := byte_eq_some_iff.mp read
        split at isHigh
        case isTrue plus =>
            obtain rfl := Option.some.inj isHigh
            subst plus
            exact .inr (.digits two three value)
        case isFalse unsigned =>
            rw [Option.ite_none_right_eq_some, Option.some_inj] at isHigh
            obtain ⟨one, rfl⟩ := isHigh
            exact .inl (.digits one two three value)
    case h_2 => cases read
  · rintro (⟨one, two, three, value⟩ | ⟨two, three, value⟩)
    · rw [if_neg one.ne_plus, if_pos (digit one), if_pos (digit two), if_pos (digit three)]
      exact byte_eq_some_iff.mpr value
    · rw [if_pos rfl, if_pos (digit two), if_pos (digit three)]
      exact byte_eq_some_iff.mpr value

theorem unescape_code_append (read : IsEscape written code ∨ IsSigned written code)
    (rest : List UInt8) : unescape (written ++ rest) = code :: unescape rest := by
  obtain ⟨first, second, third, rfl⟩ : ∃ first second third,
      written = [0x5C, first, second, third] := by
    rcases read with ⟨-, -, -, -⟩ | ⟨-, -, -⟩
    · exact ⟨_, _, _, rfl⟩
    · exact ⟨_, _, _, rfl⟩
  rw [List.cons_append, List.cons_append, List.cons_append, List.cons_append, List.nil_append,
    unescape, if_pos rfl, octalByte?_eq_some_iff.mpr read]

theorem unescape_cons_of_unread
    (unread : ∀ written code, IsEscape written code ∨ IsSigned written code →
      ¬ written <+: byte :: rest) : unescape (byte :: rest) = byte :: unescape rest := by
  match rest with
  | [] => rfl
  | [_] => rfl
  | [_, _] => rfl
  | first :: second :: third :: rest =>
      rw [unescape]
      split
      case isFalse => rfl
      case isTrue backslash =>
          split
          case h_1 code read =>
              rw [octalByte?_eq_some_iff, ← backslash] at read
              exact absurd ⟨rest, rfl⟩ (unread _ code read)
          case h_2 => rfl

/-! ### Signed codes -/

theorem IsSigned.code_lt (signed : IsSigned written code) : code.toNat < 0x40 := by
  obtain ⟨⟨-, two⟩, ⟨-, three⟩, value⟩ := signed
  rw [value, octalValue]
  have zero : (0x30 : UInt8).toNat = 0x30 := rfl
  omega

theorem hasSigned_cons_iff : HasSigned (byte :: rest) ↔
    (∃ written code, IsSigned written code ∧ written <+: byte :: rest) ∨ HasSigned rest := by
  simp only [HasSigned, List.infix_cons_iff, and_or_left, exists_or]

theorem hasSigned_escape_append (escape : IsEscape written code) :
    HasSigned (written ++ rest) ↔ HasSigned rest := by
  have past {byte : UInt8} {rest : List UInt8} (other : byte ≠ 0x5C) :
      HasSigned (byte :: rest) ↔ HasSigned rest := by
    refine hasSigned_cons_iff.trans (or_iff_right ?_)
    rintro ⟨written, code, signed, isPrefix⟩
    exact other (signed.begins isPrefix).1
  obtain @⟨first, second, third, -, one, two, three, -⟩ := escape
  show HasSigned (0x5C :: first :: second :: third :: rest) ↔ HasSigned rest
  rw [hasSigned_cons_iff, or_iff_right, past one.ne_backslash, past two.ne_backslash,
    past three.ne_backslash]
  rintro ⟨written, code, signed, isPrefix⟩
  obtain ⟨-, behind, same⟩ := signed.begins isPrefix
  exact one.ne_plus (List.cons.inj same).1

theorem Unescapes.eq_unescape (undone : Unescapes bytes result) (unsigned : ¬ HasSigned bytes) :
    unescape bytes = result := by
  induction undone with
  | nil => rfl
  | escape escape undone inductionHypothesis =>
      rw [hasSigned_escape_append escape] at unsigned
      rw [unescape_code_append (.inl escape), inductionHypothesis unsigned]
  | copy none undone inductionHypothesis =>
      rw [hasSigned_cons_iff, not_or] at unsigned
      obtain ⟨notHere, notLater⟩ := unsigned
      rw [unescape_cons_of_unread, inductionHypothesis notLater]
      rintro written code (escape | signed) begins
      · exact none written code escape begins
      · exact notHere ⟨written, code, signed, begins⟩

/-- Up to the first signed code the reader is right, and there it reads a byte in place of a backslash. -/
theorem Unescapes.parts (undone : Unescapes bytes result) (signed : HasSigned bytes) :
    ∃ front code back behind, code.toNat < 0x40 ∧ unescape bytes = front ++ code :: back ∧
      result = front ++ 0x5C :: behind := by
  induction undone with
  | nil =>
      obtain ⟨written, code, ⟨-, -, -⟩, isInfix⟩ := signed
      cases List.infix_nil.mp isInfix
  | @escape written rest result code escape undone inductionHypothesis =>
      rw [hasSigned_escape_append escape] at signed
      obtain ⟨front, byte, back, behind, small, read, rfl⟩ := inductionHypothesis signed
      refine ⟨code :: front, byte, back, behind, small, ?_, rfl⟩
      rw [unescape_code_append (.inl escape), read]
      rfl
  | @copy byte rest result none undone inductionHypothesis =>
      by_cases here : ∃ written code, IsSigned written code ∧ written <+: byte :: rest
      · obtain ⟨written, code, isSigned, behind, same⟩ := here
        obtain ⟨rfl, -⟩ := isSigned.begins ⟨behind, same⟩
        refine ⟨[], code, unescape behind, result, isSigned.code_lt, ?_, rfl⟩
        rw [← same, unescape_code_append (.inr isSigned)]
        rfl
      · rw [hasSigned_cons_iff, or_iff_right here] at signed
        obtain ⟨front, code, back, behind, small, read, rfl⟩ := inductionHypothesis signed
        refine ⟨byte :: front, code, back, behind, small, ?_, rfl⟩
        rw [unescape_cons_of_unread, read]
        · rfl
        rintro written code (escape | isSigned) begins
        · exact none written code escape begins
        · exact here ⟨written, code, isSigned, begins⟩

/-- The escapes of a word are undone, and nothing else is changed in it, unless it has a signed code. -/
theorem escapes_are_undone_iff (bytes : List UInt8) :
    (∃! result, Unescapes bytes result) ∧
      (Unescapes bytes (unescape bytes) ↔ ¬ HasSigned bytes) ∧
      ∀ text, Unescapes bytes (Utf8.encode text) →
        (Utf8.decodeLossy (unescape bytes) = text ↔ ¬ HasSigned bytes) := by
  obtain ⟨result, undone⟩ := exists_unescapes bytes
  refine ⟨⟨result, undone, fun other => undone.unique⟩, ⟨?_, ?_⟩, fun text told => ⟨?_, ?_⟩⟩
  · intro read signed
    obtain ⟨front, code, back, behind, small, changed, copied⟩ := read.parts signed
    obtain ⟨rfl, -⟩ := List.cons.inj (List.append_cancel_left (changed.symm.trans copied))
    exact absurd small (by decide)
  · intro unsigned
    rw [undone.eq_unescape unsigned]
    exact undone
  · intro read signed
    obtain ⟨front, code, back, behind, small, changed, copied⟩ := told.parts signed
    -- Both texts have the same front, behind which the one has a backslash and the other has none.
    have own := Utf8.decodeLossy_encode text
    rw [copied, Utf8.decodeLossy_append_ascii front (by decide)] at own
    rw [changed, Utf8.decodeLossy_append_ascii front (by omega), ← own] at read
    have other : ∀ number < 0x40, Char.ofNat number ≠ '\\' := by decide
    exact other _ small (List.cons.inj (List.append_cancel_left read)).1
  · intro unsigned
    rw [told.eq_unescape unsigned, Utf8.decodeLossy_encode]

/-- A slash is read where no escape stands, so that a directory outside the root counts as a mount. -/
theorem signed_code_is_undone :
    Unescapes (Utf8.encode "\\+57".toList) (Utf8.encode "\\+57".toList) ∧
      unescape (Utf8.encode "\\+57".toList) = Utf8.encode "/".toList ∧
      ¬ Unescapes (Utf8.encode "\\+57".toList) (unescape (Utf8.encode "\\+57".toList)) ∧
      ofTable "/run/user/1000/arco"
          "61 35 0:52 / /run/user/1000/arco\\+57repo-3 ro - fuse borgfs rw".toList =
        ⟨[(3, "/run/user/1000/arco/repo-3")], []⟩ := by
  have past {byte : UInt8} {rest : List UInt8} (other : byte ≠ 0x5C) (written : List UInt8)
      (code : UInt8) (escape : IsEscape written code) : ¬ written <+: byte :: rest := by
    intro isPrefix
    exact other (escape.begins isPrefix).1
  have copied : Unescapes (Utf8.encode "\\+57".toList) (Utf8.encode "\\+57".toList) := by
    refine .copy ?_ (.copy (past ?_) (.copy (past ?_) (.copy (past ?_) .nil)))
    · intro written code escape isPrefix
      obtain ⟨-, digit, behind, same, isDigit⟩ := escape.begins isPrefix
      exact isDigit.ne_plus (List.cons.inj same).1.symm
    all_goals decide
  refine ⟨copied, rfl, ?_, rfl⟩
  intro undone
  exact absurd (copied.unique undone) (by decide)

end BackupClient.Mounts
