import BackupClient.Json.Token
import BackupClient.Proofs.Json.Grammar
import BackupClient.Proofs.Text.Runs

/-!
Strings, numbers and words as tokens.

A string ends with its closing quote.  A number or a word ends where something follows that cannot
belong to it, so that the reader is settled only once the word on its way has been completed.
-/

namespace BackupClient.Json

variable {text rest digits body piece chars : List Char} {tokens : List Token} {char : Char}

/-- The tokens so far, last first, with the word on its way among them. -/
def Lexer.settled? (lexer : Lexer) : Option (List Token) :=
  match lexer.mode with
  | .between => some lexer.tokens
  | .word chars => (wordValue? chars.reverse).map fun value => .scalar value :: lexer.tokens
  | _ => none

theorem Lexer.finish_eq_settled? (lexer : Lexer) : lexer.finish = lexer.settled?.map List.reverse := by
  obtain ⟨tokens, mode⟩ := lexer
  cases mode with
  | word chars => simp [finish, settled?, Function.comp_def]
  | between | quoted | escape | numeric => rfl

/-- A text is read as one token, whatever has been read before it. -/
def Lexes (text : List Char) (token : Token) : Prop :=
  ∀ tokens, ∃ lexer, text.foldlM Lexer.step ⟨tokens, .between⟩ = some lexer ∧
    lexer.settled? = some (token :: tokens)

/-! ### Strings -/

/-- What a part of a string makes of the string so far. -/
def Quoted.Reads (quoted : Quoted) (text : List Char) (after : Quoted) : Prop :=
  ∀ tokens, text.foldlM Lexer.step ⟨tokens, .quoted quoted⟩ = some ⟨tokens, .quoted after⟩

theorem Quoted.Reads.append {quoted middle after : Quoted} (first : quoted.Reads text middle)
    (second : middle.Reads rest after) : quoted.Reads (text ++ rest) after := by
  intro tokens
  rw [List.foldlM_append, first tokens]
  exact second tokens

theorem hexValue?_of_hexDigit {value : Nat} (digit : HexDigit value char) :
    hexValue? char = some value := by
  have decimal : ∀ value < 10, hexValue? (Char.ofNat (48 + value)) = some value := by decide
  have small : ∀ value < 16, 10 ≤ value → hexValue? (Char.ofNat (87 + value)) = some value := by
    decide
  have capital : ∀ value < 16, 10 ≤ value → hexValue? (Char.ofNat (55 + value)) = some value := by
    decide
  cases digit with
  | decimal below => exact decimal value below
  | small least below => exact small value below least
  | capital least below => exact capital value below least

theorem UnitText.reads {unit : Nat} (written : UnitText unit digits) (quoted : Quoted) :
    quoted.Reads ('\\' :: 'u' :: digits) (quoted.pushUnit unit) := by
  intro tokens
  cases written with
  | digits first second third fourth =>
      simp [Lexer.step, hexValue?_of_hexDigit first, hexValue?_of_hexDigit second,
        hexValue?_of_hexDigit third, hexValue?_of_hexDigit fourth]

theorem escapeValue?_of_mem {letter : Char} (member : (letter, char) ∈ shortEscapes) :
    letter ≠ 'u' ∧ escapeValue? letter = some char := by
  have each : ∀ escape ∈ shortEscapes, escape.1 ≠ 'u' ∧ escapeValue? escape.1 = some escape.2 := by
    decide
  exact each _ member

theorem toNat_lt_surrogates_or (char : Char) :
    char.toNat < 0xD800 ∨ 0xDFFF < char.toNat ∧ char.toNat < 0x110000 :=
  char.valid

theorem Quoted.pushUnit_toNat (char : Char) (chars : List Char) :
    (Quoted.mk chars none true).pushUnit char.toNat = ⟨char :: chars, none, true⟩ := by
  have scalar := toNat_lt_surrogates_or char
  have noHigh : ¬ (0xD800 ≤ char.toNat ∧ char.toNat < 0xDC00) := by omega
  have noLow : ¬ (0xDC00 ≤ char.toNat ∧ char.toNat < 0xE000) := by omega
  simp [pushUnit, noHigh, noLow, push]

theorem Quoted.pushUnit_pair (large : 0x10000 ≤ char.toNat) (chars : List Char) :
    ((Quoted.mk chars none true).pushUnit (0xD800 + (char.toNat - 0x10000) / 0x400)).pushUnit
        (0xDC00 + (char.toNat - 0x10000) % 0x400) =
      ⟨char :: chars, none, true⟩ := by
  have scalar := toNat_lt_surrogates_or char
  obtain ⟨offset, whole⟩ := Nat.exists_eq_add_of_le large
  have high : 0xD800 + offset / 0x400 < 0xDC00 := by omega
  have low : 0xDC00 + offset % 0x400 < 0xE000 := by omega
  have code : 0x10000 + offset / 0x400 * 0x400 + offset % 0x400 = char.toNat := by omega
  rw [whole, Nat.add_sub_cancel_left]
  simp [pushUnit, high, low, code]

/-- What the spelling of a character does to a string: the character joins it, however it is written,
where no half of a pair is left over. -/
theorem SpelledChar.exists_reads (spelled : SpelledChar char piece) (quoted : Quoted) :
    ∃ after, quoted.Reads piece after ∧
      ∀ chars, quoted = ⟨chars, none, true⟩ → after = ⟨char :: chars, none, true⟩ := by
  cases spelled with
  | plain visible noQuote noEscape =>
      refine ⟨quoted.push char, fun tokens => ?_, fun chars sound => by rw [sound]; rfl⟩
      simp [Lexer.step, noQuote, noEscape, visible]
  | short member =>
      obtain ⟨single, value⟩ := escapeValue?_of_mem member
      refine ⟨quoted.push char, fun tokens => ?_, fun chars sound => by rw [sound]; rfl⟩
      simp [Lexer.step, single, value]
  | unit written =>
      refine ⟨_, written.reads quoted, fun chars sound => ?_⟩
      rw [sound, Quoted.pushUnit_toNat]
  | pair large high low =>
      refine ⟨_, (high.reads quoted).append (low.reads _), fun chars sound => ?_⟩
      rw [sound, Quoted.pushUnit_pair large]

theorem SpelledChars.reads {content : List Char} (spelled : SpelledChars content body)
    (chars : List Char) :
    (Quoted.mk chars none true).Reads body ⟨content.reverse ++ chars, none, true⟩ := by
  induction spelled generalizing chars with
  | nil => exact fun tokens => rfl
  | @cons char piece content body head _ inductionHypothesis =>
      obtain ⟨after, read, sound⟩ := head.exists_reads ⟨chars, none, true⟩
      rw [sound chars rfl] at read
      simpa using read.append (inductionHypothesis (char :: chars))

theorem QuotedBody.exists_reads (written : QuotedBody body) (quoted : Quoted) :
    ∃ after, quoted.Reads body after := by
  induction written generalizing quoted with
  | nil => exact ⟨quoted, fun tokens => rfl⟩
  | char spelled _ inductionHypothesis =>
      obtain ⟨middle, read, -⟩ := spelled.exists_reads quoted
      obtain ⟨after, remaining⟩ := inductionHypothesis middle
      exact ⟨after, read.append remaining⟩
  | unit unit _ inductionHypothesis =>
      obtain ⟨after, remaining⟩ := inductionHypothesis (quoted.pushUnit _)
      exact ⟨after, (unit.reads quoted).append remaining⟩

theorem Quoted.Reads.lexes {quoted : Quoted} (read : Quoted.empty.Reads body quoted) :
    Lexes ('"' :: body ++ ['"']) (.text quoted.content) := by
  intro tokens
  refine ⟨⟨.text quoted.content :: tokens, .between⟩, ?_, rfl⟩
  have opened : Lexer.step ⟨tokens, .between⟩ '"' = some ⟨tokens, .quoted .empty⟩ := rfl
  rw [List.cons_append, List.foldlM_cons, opened, Option.bind_eq_bind, Option.bind_some,
    List.foldlM_append, read tokens]
  rfl

theorem SpelledString.lexes {content : String} (spelled : SpelledString content text) :
    Lexes text (.text (some content)) := by
  cases spelled with
  | quoted spelled =>
      have whole : (Quoted.mk (content.toList.reverse ++ []) none true).content = some content := by
        simp [Quoted.content]
      rw [← whole]
      exact (spelled.reads []).lexes

theorem StringText.exists_lexes (written : StringText text) :
    ∃ content, Lexes text (.text content) := by
  cases written with
  | quoted written =>
      obtain ⟨quoted, read⟩ := written.exists_reads .empty
      exact ⟨_, read.lexes⟩

/-! ### Numbers -/

theorem isDigit_of_digitsText (written : DigitsText text) (member : char ∈ text) :
    Text.Decimal.isDigit char = true := by
  obtain ⟨least, greatest⟩ := written.2 char member
  simp [Text.Decimal.isDigit, least, greatest]

/-- What may follow digits: nothing, or something that is no digit. -/
def EndsDigits (rest : List Char) : Prop :=
  ∀ char ∈ rest.head?, Text.Decimal.isDigit char = false

theorem takeWhile_digits (written : DigitsText text) (ends : EndsDigits rest) :
    (text ++ rest).takeWhile Text.Decimal.isDigit = text :=
  Text.takeWhile_run (fun _ member => isDigit_of_digitsText written member) ends

theorem dropWhile_digits (written : DigitsText text) (ends : EndsDigits rest) :
    (text ++ rest).dropWhile Text.Decimal.isDigit = rest :=
  Text.dropWhile_run (fun _ member => isDigit_of_digitsText written member) ends

theorem value?_digits (written : DigitsText text) :
    Text.Decimal.value? text = some (Text.Decimal.value text) := by
  have digits : text.all Text.Decimal.isDigit = true :=
    List.all_eq_true.mpr fun char member => isDigit_of_digitsText written member
  simp [Text.Decimal.value?, written.1, digits]

theorem ne_of_digitsText {mark : Char} (written : DigitsText text) (member : char ∈ text)
    (before : mark < '0') : char ≠ mark := by
  rintro rfl
  exact absurd (written.2 char member).1 (Char.not_le.mpr before)

def cutSign (word : List Char) : Bool × List Char :=
  match word with
  | '-' :: rest => (true, rest)
  | rest => (false, rest)

def cutFraction (rest : List Char) : Option (List Char) × List Char :=
  match rest with
  | '.' :: rest => (some (rest.takeWhile Text.Decimal.isDigit), rest.dropWhile Text.Decimal.isDigit)
  | rest => (none, rest)

def readExponent? (rest : List Char) : Option (Option Int) :=
  match rest with
  | [] => some none
  | 'e' :: rest => (exponent? rest).map some
  | 'E' :: rest => (exponent? rest).map some
  | _ => none

theorem numberParts?_eq {word signless whole rest behind : List Char} {negative : Bool}
    {fraction : Option (List Char)} (sign : cutSign word = (negative, signless))
    (front : signless.takeWhile Text.Decimal.isDigit = whole)
    (back : signless.dropWhile Text.Decimal.isDigit = rest)
    (accepted : (whole.isEmpty || (whole.head? = some '0' && whole.length > 1)) = false)
    (cut : cutFraction rest = (fraction, behind)) (nonempty : fraction ≠ some []) :
    numberParts? word =
      (readExponent? behind).map fun exponent => ⟨negative, whole, fraction, exponent⟩ := by
  have unfolded : numberParts? word =
      let whole := (cutSign word).2.takeWhile Text.Decimal.isDigit
      let rest := cutFraction ((cutSign word).2.dropWhile Text.Decimal.isDigit)
      if whole.isEmpty || (whole.head? = some '0' && whole.length > 1) then none
      else if rest.1 = some [] then none
      else
        match rest.2 with
        | [] => some ⟨(cutSign word).1, whole, rest.1, none⟩
        | 'e' :: behind => (exponent? behind).map fun exponent =>
            ⟨(cutSign word).1, whole, rest.1, some exponent⟩
        | 'E' :: behind => (exponent? behind).map fun exponent =>
            ⟨(cutSign word).1, whole, rest.1, some exponent⟩
        | _ => none := rfl
  rw [unfolded]
  simp only [sign, front, back, cut, accepted, Bool.false_eq_true, if_false, if_neg nonempty,
    readExponent?]
  split <;> simp [Function.comp_def]

theorem cutSign_of_digits (written : DigitsText text) (rest : List Char) :
    cutSign (text ++ rest) = (false, text ++ rest) := by
  obtain ⟨first, others, rfl⟩ := List.exists_cons_of_ne_nil written.1
  have unsigned : first ≠ '-' := ne_of_digitsText written List.mem_cons_self (by decide)
  simp [cutSign, unsigned]

theorem exists_exponent? {sign : List Char} (signed : sign ∈ [[], ['-'], ['+']])
    (written : DigitsText text) : ∃ exponent, exponent? (sign ++ text) = some exponent := by
  have value := value?_digits written
  simp only [List.mem_cons, List.not_mem_nil, or_false] at signed
  rcases signed with rfl | rfl | rfl
  · obtain ⟨first, others, rfl⟩ := List.exists_cons_of_ne_nil written.1
    have noMinus : first ≠ '-' := ne_of_digitsText written List.mem_cons_self (by decide)
    have noPlus : first ≠ '+' := ne_of_digitsText written List.mem_cons_self (by decide)
    exact ⟨Text.Decimal.value (first :: others), by simp [exponent?, noMinus, noPlus, value]⟩
  · exact ⟨-Text.Decimal.value text, by simp [exponent?, value]⟩
  · exact ⟨Text.Decimal.value text, by simp [exponent?, value]⟩

theorem wholeText_accepted (written : WholeText text) :
    (text.isEmpty || (text.head? = some '0' && text.length > 1)) = false := by
  have nonempty : text.isEmpty = false := by simpa using written.1.1
  by_cases zero : text.head? = some '0'
  · simp [written.2 zero]
  · simp [nonempty, zero]

theorem ExponentText.endsDigits (written : ExponentText rest) : EndsDigits rest := by
  cases written with
  | absent => exact fun char member => nomatch member
  | digits marked _ _ =>
      intro char member
      cases member
      simp only [List.mem_cons, List.not_mem_nil, or_false] at marked
      rcases marked with rfl | rfl <;> decide

theorem FractionText.endsDigits_append (written : FractionText text) (behind : ExponentText rest) :
    EndsDigits (text ++ rest) := by
  cases written with
  | absent => exact behind.endsDigits
  | digits _ =>
      intro char member
      cases member
      decide

theorem FractionText.exists_cut (written : FractionText text) (behind : ExponentText rest) :
    ∃ shown, cutFraction (text ++ rest) = (shown, rest) ∧ shown ≠ some [] := by
  cases written with
  | absent =>
      cases behind with
      | absent => exact ⟨none, rfl, (Option.some_ne_none _).symm⟩
      | @digits mark sign text marked _ _ =>
          have noPoint : mark ≠ '.' := by
            rintro rfl
            exact absurd marked (by decide)
          exact ⟨none, by simp [cutFraction, noPoint], (Option.some_ne_none _).symm⟩
  | @digits text written =>
      have front := takeWhile_digits written behind.endsDigits
      have back := dropWhile_digits written behind.endsDigits
      exact ⟨some text, by simp [cutFraction, front, back], by simpa using written.1⟩

theorem ExponentText.exists_read (written : ExponentText text) :
    ∃ exponent, readExponent? text = some exponent := by
  cases written with
  | absent => exact ⟨none, rfl⟩
  | digits marked signed written =>
      obtain ⟨exponent, read⟩ := exists_exponent? signed written
      simp only [List.mem_cons, List.not_mem_nil, or_false] at marked
      rcases marked with rfl | rfl
      · exact ⟨some exponent, by simp [readExponent?, read]⟩
      · exact ⟨some exponent, by simp [readExponent?, read]⟩

theorem exists_cutSign {sign : List Char} (signed : sign ∈ [[], ['-']]) (written : DigitsText text)
    (rest : List Char) : ∃ negative, cutSign (sign ++ (text ++ rest)) = (negative, text ++ rest) := by
  simp only [List.mem_cons, List.not_mem_nil, or_false] at signed
  rcases signed with rfl | rfl
  · exact ⟨false, cutSign_of_digits written rest⟩
  · exact ⟨true, rfl⟩

theorem NumberText.exists_numberParts? (written : NumberText text) :
    ∃ parts, numberParts? text = some parts := by
  cases written with
  | @parts sign whole fraction exponent signed written fractional exponential =>
      have ends := fractional.endsDigits_append exponential
      obtain ⟨negative, signCut⟩ := exists_cutSign signed written.1 (fraction ++ exponent)
      obtain ⟨shown, cut, nonempty⟩ := fractional.exists_cut exponential
      obtain ⟨power, read⟩ := exponential.exists_read
      refine ⟨⟨negative, whole, shown, power⟩, ?_⟩
      rw [numberParts?_eq signCut (takeWhile_digits written.1 ends) (dropWhile_digits written.1 ends)
        (wholeText_accepted written) cut nonempty, read]
      rfl

theorem numberParts?_whole (written : WholeText text) :
    numberParts? text = some ⟨false, text, none, none⟩ := by
  have ends : EndsDigits [] := fun char member => nomatch member
  have signCut := cutSign_of_digits written.1 []
  have front := takeWhile_digits written.1 ends
  have back := dropWhile_digits written.1 ends
  rw [List.append_nil] at signCut front back
  rw [numberParts?_eq signCut front back (wholeText_accepted written) rfl (Option.some_ne_none _).symm]
  rfl

theorem le_valueFrom (start : Nat) (chars : List Char) :
    start ≤ Text.Decimal.valueFrom start chars := by
  induction chars generalizing start with
  | nil => exact Nat.le_refl start
  | cons char chars inductionHypothesis =>
      calc start ≤ start * 10 + Text.Decimal.digitValue char := by omega
        _ ≤ Text.Decimal.valueFrom start (char :: chars) := inductionHypothesis _

theorem wholeDigits_go {start : Nat} (fits : Text.Decimal.valueFrom start chars < significandLimit) :
    wholeDigits.go start chars = (Text.Decimal.valueFrom start chars, 0) := by
  induction chars generalizing start with
  | nil => rfl
  | cons char chars inductionHypothesis =>
      have small : start * 10 + Text.Decimal.digitValue char < significandLimit :=
        (le_valueFrom _ chars).trans_lt fits
      rw [wholeDigits.go, if_pos small]
      exact inductionHypothesis fits

theorem wordValue?_of_numberParts? {parts : NumberParts} (cut : numberParts? text = some parts) :
    wordValue? text = some parts.value := by
  unfold wordValue?
  split
  · cases cut
  · cases cut
  · cases cut
  · rw [cut]
    rfl

theorem wordValue?_whole (written : WholeText text) (fits : Text.Decimal.value text < Nat.pow 2 64) :
    wordValue? text = some (.int (Text.Decimal.value text)) := by
  have exact : wholeDigits text = (Text.Decimal.value text, 0) := wholeDigits_go fits
  rw [wordValue?_of_numberParts? (numberParts?_whole written)]
  simp [NumberParts.value, exact]

/-! ### Words -/

theorem stepBetween_wordChar (tokens : List Token) (part : isWordChar char = true) :
    Lexer.stepBetween tokens char = some ⟨tokens, .word [char]⟩ := by
  have noSpace : isSpace char = false := by
    rw [Bool.eq_false_iff]
    intro space
    simp only [isSpace, Bool.or_eq_true, beq_iff_eq] at space
    rcases space with ((rfl | rfl) | rfl) | rfl <;> exact absurd part (by decide)
  unfold Lexer.stepBetween
  split
  case h_8 => simp [noSpace, part]
  all_goals exact absurd part (by decide)

theorem foldlM_word (parts : ∀ char ∈ rest, isWordChar char = true) (chars : List Char) :
    rest.foldlM Lexer.step ⟨tokens, .word chars⟩ = some ⟨tokens, .word (rest.reverse ++ chars)⟩ := by
  induction rest generalizing chars with
  | nil => rfl
  | cons char rest inductionHypothesis =>
      have next : Lexer.step ⟨tokens, .word chars⟩ char = some ⟨tokens, .word (char :: chars)⟩ := by
        simp [Lexer.step, parts char List.mem_cons_self]
      rw [List.foldlM_cons, next, Option.bind_eq_bind, Option.bind_some,
        inductionHypothesis fun char member => parts char (List.mem_cons_of_mem _ member)]
      simp

theorem lexes_word {value : Json} (parts : ∀ char ∈ text, isWordChar char = true)
    (known : wordValue? text = some value) : Lexes text (.scalar value) := by
  intro tokens
  cases text with
  | nil => cases known
  | cons char rest =>
      refine ⟨⟨tokens, .word (rest.reverse ++ [char])⟩, ?_, ?_⟩
      · rw [List.foldlM_cons]
        show (Lexer.stepBetween tokens char).bind _ = _
        rw [stepBetween_wordChar tokens (parts char List.mem_cons_self), Option.bind_some]
        exact foldlM_word (fun char member => parts char (List.mem_cons_of_mem _ member)) _
      · simp [Lexer.settled?, known]

theorem DigitsText.isWordChar (written : DigitsText text) :
    ∀ char ∈ text, isWordChar char = true := by
  intro char member
  have digit : char.isDigit = true := by
    simpa [Char.isDigit, Char.le_def] using written.2 char member
  simp [Json.isWordChar, Char.isAlphanum, digit]

theorem FractionText.isWordChar (written : FractionText text) :
    ∀ char ∈ text, isWordChar char = true := by
  cases written with
  | absent => exact fun char member => nomatch member
  | digits written => exact List.forall_mem_cons.mpr ⟨by decide, written.isWordChar⟩

theorem ExponentText.isWordChar (written : ExponentText text) :
    ∀ char ∈ text, isWordChar char = true := by
  have signs : ∀ sign ∈ [[], ['-'], ['+']], sign.all Json.isWordChar = true := by decide
  cases written with
  | absent => exact fun char member => nomatch member
  | digits marked signed written =>
      have sign := List.all_eq_true.mp (signs _ signed)
      refine List.forall_mem_cons.mpr ⟨?_, List.forall_mem_append.mpr ⟨sign, written.isWordChar⟩⟩
      simp only [List.mem_cons, List.not_mem_nil, or_false] at marked
      rcases marked with rfl | rfl <;> decide

theorem NumberText.isWordChar (written : NumberText text) :
    ∀ char ∈ text, isWordChar char = true := by
  have signs : ∀ sign ∈ [[], ['-']], sign.all Json.isWordChar = true := by decide
  cases written with
  | parts signed written fractional exponential =>
      simp only [List.forall_mem_append]
      exact ⟨List.all_eq_true.mp (signs _ signed), written.1.isWordChar, fractional.isWordChar, exponential.isWordChar⟩

theorem NumberText.exists_lexes (written : NumberText text) : ∃ value, Lexes text (.scalar value) := by
  obtain ⟨parts, cut⟩ := written.exists_numberParts?
  exact ⟨parts.value, lexes_word written.isWordChar (wordValue?_of_numberParts? cut)⟩

theorem WholeText.lexes (written : WholeText text) (fits : Text.Decimal.value text < Nat.pow 2 64) :
    Lexes text (.scalar (.int (Text.Decimal.value text))) :=
  lexes_word written.1.isWordChar (wordValue?_whole written fits)

end BackupClient.Json
