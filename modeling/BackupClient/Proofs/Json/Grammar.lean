import BackupClient.Json.Basic
import BackupClient.Text.Decimal
import Mathlib.Data.List.Forall2

/-!
The texts of JSON values, as RFC 8259 has them.

The grammar says nothing about how a text is read.  Between the parts of a text there may be blanks, a
character of a string may be written in several ways, and values nest to any depth.
-/

namespace BackupClient.Json

def IsSpacing (text : List Char) : Prop :=
  ∀ char ∈ text, char ∈ [' ', '\t', '\n', '\r']

instance (text : List Char) : Decidable (IsSpacing text) :=
  List.decidableBAll _ text

/-! ### Strings -/

inductive HexDigit : Nat → Char → Prop where
  | decimal {value : Nat} : value < 10 → HexDigit value (Char.ofNat (48 + value))
  | small {value : Nat} : 10 ≤ value → value < 16 → HexDigit value (Char.ofNat (87 + value))
  | capital {value : Nat} : 10 ≤ value → value < 16 → HexDigit value (Char.ofNat (55 + value))

/-- Sixteen bits, written with four digits. -/
inductive UnitText : Nat → List Char → Prop where
  | digits {first second third fourth : Nat} {a b c d : Char} :
      HexDigit first a → HexDigit second b → HexDigit third c → HexDigit fourth d →
      UnitText (((first * 16 + second) * 16 + third) * 16 + fourth) [a, b, c, d]

/-- The letters behind a backslash, and what they stand for. -/
def shortEscapes : List (Char × Char) :=
  [('"', '"'), ('\\', '\\'), ('/', '/'), ('b', '\x08'), ('f', '\x0c'), ('n', '\n'), ('r', '\r'),
    ('t', '\t')]

/-- The ways to write a character of a string: as it is, with a letter, by its number, or by the two
halves of its surrogate pair. -/
inductive SpelledChar : Char → List Char → Prop where
  | plain {char : Char} : 0x20 ≤ char.toNat → char ≠ '"' → char ≠ '\\' → SpelledChar char [char]
  | short {letter char : Char} : (letter, char) ∈ shortEscapes → SpelledChar char ['\\', letter]
  | unit {char : Char} {digits : List Char} :
      UnitText char.toNat digits → SpelledChar char ('\\' :: 'u' :: digits)
  | pair {char : Char} {high low : List Char} : 0x10000 ≤ char.toNat →
      UnitText (0xD800 + (char.toNat - 0x10000) / 0x400) high →
      UnitText (0xDC00 + (char.toNat - 0x10000) % 0x400) low →
      SpelledChar char ('\\' :: 'u' :: high ++ '\\' :: 'u' :: low)

inductive SpelledChars : List Char → List Char → Prop where
  | nil : SpelledChars [] []
  | cons {char : Char} {piece chars body : List Char} :
      SpelledChar char piece → SpelledChars chars body → SpelledChars (char :: chars) (piece ++ body)

inductive SpelledString (content : String) : List Char → Prop where
  | quoted {body : List Char} :
      SpelledChars content.toList body → SpelledString content ('"' :: body ++ ['"'])

theorem SpelledChars.plain {chars : List Char}
    (visible : chars.all fun char => 0x20 ≤ char.toNat ∧ char ≠ '"' ∧ char ≠ '\\') :
    SpelledChars chars chars := by
  induction chars with
  | nil => exact .nil
  | cons char chars inductionHypothesis =>
      rw [List.all_cons, Bool.and_eq_true, decide_eq_true_iff] at visible
      obtain ⟨⟨least, noQuote, noEscape⟩, others⟩ := visible
      exact .cons (.plain least noQuote noEscape) (inductionHypothesis others)

theorem SpelledString.plain {content : String} {chars : List Char} (same : content.toList = chars)
    (visible : chars.all fun char => 0x20 ≤ char.toNat ∧ char ≠ '"' ∧ char ≠ '\\') :
    SpelledString content ('"' :: chars ++ ['"']) := by
  subst same
  exact .quoted (.plain visible)

/-- What may stand between quotes.  Half of a surrogate pair may stand alone. -/
inductive QuotedBody : List Char → Prop where
  | nil : QuotedBody []
  | char {char : Char} {piece body : List Char} :
      SpelledChar char piece → QuotedBody body → QuotedBody (piece ++ body)
  | unit {unit : Nat} {digits body : List Char} :
      UnitText unit digits → QuotedBody body → QuotedBody ('\\' :: 'u' :: digits ++ body)

inductive StringText : List Char → Prop where
  | quoted {body : List Char} : QuotedBody body → StringText ('"' :: body ++ ['"'])

/-! ### Numbers -/

def DigitsText (text : List Char) : Prop :=
  text ≠ [] ∧ ∀ char ∈ text, '0' ≤ char ∧ char ≤ '9'

/-- Digits before the point, without zeros in front. -/
def WholeText (text : List Char) : Prop :=
  DigitsText text ∧ (text.head? = some '0' → text = ['0'])

inductive FractionText : List Char → Prop where
  | absent : FractionText []
  | digits {text : List Char} : DigitsText text → FractionText ('.' :: text)

inductive ExponentText : List Char → Prop where
  | absent : ExponentText []
  | digits {mark : Char} {sign text : List Char} : mark ∈ ['e', 'E'] → sign ∈ [[], ['-'], ['+']] →
      DigitsText text → ExponentText (mark :: sign ++ text)

inductive NumberText : List Char → Prop where
  | parts {sign whole fraction exponent : List Char} : sign ∈ [[], ['-']] → WholeText whole →
      FractionText fraction → ExponentText exponent →
      NumberText (sign ++ (whole ++ (fraction ++ exponent)))

/-! ### Arrays and objects -/

/-- Parts with commas between them, at least one. -/
inductive Listed : List (List Char) → List Char → Prop where
  | last {before part behind : List Char} : IsSpacing before → IsSpacing behind →
      Listed [part] (before ++ part ++ behind)
  | more {before part behind rest : List Char} {parts : List (List Char)} : IsSpacing before →
      IsSpacing behind → Listed parts rest →
      Listed (part :: parts) (before ++ part ++ behind ++ ',' :: rest)

inductive Enclosed : List (List Char) → List Char → Prop where
  | nothing {spacing : List Char} : IsSpacing spacing → Enclosed [] spacing
  | parts {parts : List (List Char)} {text : List Char} : Listed parts text → Enclosed parts text

/-- A member of an object: the texts of its key and its value, and the blanks around the colon. -/
structure MemberText where
  key : List Char
  gap : List Char
  lead : List Char
  value : List Char
  gapIsSpacing : IsSpacing gap
  leadIsSpacing : IsSpacing lead

def MemberText.text (member : MemberText) : List Char :=
  member.key ++ member.gap ++ ':' :: (member.lead ++ member.value)

inductive ValueText : List Char → Prop where
  | nullWord : ValueText ['n', 'u', 'l', 'l']
  | trueWord : ValueText ['t', 'r', 'u', 'e']
  | falseWord : ValueText ['f', 'a', 'l', 's', 'e']
  | number {text : List Char} : NumberText text → ValueText text
  | string {text : List Char} : StringText text → ValueText text
  | array {items : List (List Char)} {text : List Char} : (∀ item ∈ items, ValueText item) →
      Enclosed items text → ValueText ('[' :: text ++ [']'])
  | object {members : List MemberText} {text : List Char} :
      (∀ member ∈ members, StringText member.key) → (∀ member ∈ members, ValueText member.value) →
      Enclosed (members.map MemberText.text) text → ValueText ('\x7b' :: text ++ ['\x7d'])

/-! ### Given values -/

/-- The texts of a value that is nothing, a truth value, a natural number, a string or a list of
strings. -/
inductive Spells : Json → List Char → Prop where
  | nullWord : Spells .null ['n', 'u', 'l', 'l']
  | trueWord : Spells (.bool true) ['t', 'r', 'u', 'e']
  | falseWord : Spells (.bool false) ['f', 'a', 'l', 's', 'e']
  | natural {number : Nat} {text : List Char} : WholeText text → Text.Decimal.value text = number →
      Spells (.int number) text
  | string {content : String} {text : List Char} : SpelledString content text →
      Spells (.str content) text
  | strings {contents : List String} {items : List (List Char)} {text : List Char} :
      List.Forall₂ SpelledString contents items → Enclosed items text →
      Spells (.arr (contents.map .str)) ('[' :: text ++ [']'])

inductive ObjectText : List (String × List Char) → List Char → Prop where
  | braces {members : List (String × List Char)} {spelled : List MemberText} {text : List Char} :
      List.Forall₂ (fun member spelling =>
        SpelledString member.1 spelling.key ∧ spelling.value = member.2) members spelled →
      Enclosed (spelled.map MemberText.text) text →
      ObjectText members ('\x7b' :: text ++ ['\x7d'])

end BackupClient.Json
