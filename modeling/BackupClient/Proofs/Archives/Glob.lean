import Mathlib.Data.List.Basic

/-!
Patterns for whole names.

A star stands for any text, a question mark for any one character, a bracket expression for one of its
members, and every other character for itself.  What the text inside brackets stands for is left open.
The main result says for which texts a star put behind them matches exactly the names that begin with
them: those without a star, a question mark and a bracket expression.
-/

namespace BackupClient.Glob

/-- The members that the text inside brackets lists, behind a sign of inversion if there is one. -/
def listed (body : List Char) : List Char :=
  if body.head? = some '!' then body.tail else body

/-- Is this the whole text inside some brackets?  A closing bracket that is listed first does not close
them. -/
def IsBody (body : List Char) : Prop :=
  listed body ≠ [] ∧ ']' ∉ (listed body).tail

instance (body : List Char) : Decidable (IsBody body) :=
  inferInstanceAs (Decidable (listed body ≠ [] ∧ ']' ∉ (listed body).tail))

def Closes (text : List Char) : Prop :=
  ∃ body after, IsBody body ∧ text = body ++ ']' :: after

def IsLiteral (char : Char) (text : List Char) : Prop :=
  char ≠ '*' ∧ char ≠ '?' ∧ (char = '[' → ¬ Closes text)

/-- A pattern matches a whole name.  Which characters the text inside brackets stands for is given. -/
inductive Matches (stands : List Char → Char → Prop) : List Char → List Char → Prop where
  | nothing : Matches stands [] []
  | skip {pattern name} : Matches stands pattern name → Matches stands ('*' :: pattern) name
  | extend {pattern char name} : Matches stands ('*' :: pattern) name →
      Matches stands ('*' :: pattern) (char :: name)
  | any {pattern char name} : Matches stands pattern name →
      Matches stands ('?' :: pattern) (char :: name)
  | member {body pattern char name} : IsBody body → stands body char →
      Matches stands pattern name → Matches stands ('[' :: (body ++ ']' :: pattern)) (char :: name)
  | literal {char pattern name} : IsLiteral char pattern → Matches stands pattern name →
      Matches stands (char :: pattern) (char :: name)

/-- A text without a star, a question mark and a bracket expression. -/
def Plain (text : List Char) : Prop :=
  '*' ∉ text ∧ '?' ∉ text ∧ ∀ before after, text = before ++ '[' :: after → ¬ Closes after

theorem plain_nil : Plain [] := by
  simp [Plain]

theorem plain_cons_iff {char : Char} {text : List Char} :
    Plain (char :: text) ↔ IsLiteral char text ∧ Plain text := by
  constructor
  · rintro ⟨noStar, noMark, noBrackets⟩
    simp only [List.mem_cons, not_or] at noStar noMark
    refine ⟨⟨Ne.symm noStar.1, Ne.symm noMark.1, ?_⟩, noStar.2, noMark.2, ?_⟩
    · rintro rfl
      exact noBrackets [] text rfl
    · intro before after equality
      exact noBrackets (char :: before) after (by simp [equality])
  · rintro ⟨⟨notStar, notMark, opensNothing⟩, noStar, noMark, noBrackets⟩
    refine ⟨by simp [Ne.symm notStar, noStar], by simp [Ne.symm notMark, noMark], ?_⟩
    intro before after equality
    cases before with
    | nil =>
        simp only [List.nil_append, List.cons.injEq] at equality
        exact equality.2 ▸ opensNothing equality.1
    | cons head before =>
        simp only [List.cons_append, List.cons.injEq] at equality
        exact noBrackets before after equality.2

theorem plain_of_no_signs {text : List Char} (noStar : '*' ∉ text) (noMark : '?' ∉ text)
    (noBracket : '[' ∉ text) : Plain text := by
  refine ⟨noStar, noMark, ?_⟩
  intro before after equality
  exact absurd (equality ▸ by simp) noBracket

theorem append_star_eq_iff {text body after : List Char} :
    text ++ ['*'] = body ++ ']' :: after ↔
      ∃ initial, after = initial ++ ['*'] ∧ text = body ++ ']' :: initial := by
  constructor
  · intro equality
    rcases List.eq_nil_or_concat after with rfl | ⟨initial, last, rfl⟩
    · have lasts := congrArg List.getLast? equality
      simp at lasts
    · have lists : text ++ ['*'] = (body ++ ']' :: initial) ++ [last] := by
        simpa using equality
      obtain ⟨texts, stars⟩ := List.append_inj' lists rfl
      obtain rfl : '*' = last := by simpa using stars
      exact ⟨initial, by simp, texts⟩
  · rintro ⟨initial, rfl, rfl⟩
    simp

theorem closes_append_star {text : List Char} : Closes (text ++ ['*']) ↔ Closes text := by
  constructor
  · rintro ⟨body, after, isBody, equality⟩
    obtain ⟨initial, -, rfl⟩ := append_star_eq_iff.mp equality
    exact ⟨body, initial, isBody, rfl⟩
  · rintro ⟨body, after, isBody, rfl⟩
    exact ⟨body, after ++ ['*'], isBody, by simp⟩

theorem isLiteral_append_star {char : Char} {text : List Char} :
    IsLiteral char (text ++ ['*']) ↔ IsLiteral char text := by
  simp only [IsLiteral, closes_append_star]

variable {stands : List Char → Char → Prop}

theorem matches_star (name : List Char) : Matches stands ['*'] name := by
  induction name with
  | nil => exact .skip .nothing
  | cons char name inductionHypothesis => exact .extend inductionHypothesis

/-- The first sign of a text, and what it leaves to match of a name. -/
inductive Opening (stands : List Char → Char → Prop) (text : List Char) :
    Char → List Char → Prop where
  | star {name rest} : Matches stands (text ++ ['*']) rest → Opening stands text '*' name
  | any {char rest} : Matches stands (text ++ ['*']) rest → Opening stands text '?' (char :: rest)
  | member {body after char rest} : IsBody body → stands body char → text = body ++ ']' :: after →
      Matches stands (after ++ ['*']) rest → Opening stands text '[' (char :: rest)
  | literal {char rest} : IsLiteral char text → Matches stands (text ++ ['*']) rest →
      Opening stands text char (char :: rest)

/-- A name is matched by one of the four ways in which a text can begin. -/
theorem Matches.opening {char : Char} {text name : List Char}
    (matched : Matches stands (char :: (text ++ ['*'])) name) : Opening stands text char name := by
  generalize signs : char :: (text ++ ['*']) = pattern at matched
  induction matched with
  | nothing => cases signs
  | skip rest _ =>
      cases signs
      exact .star rest
  | extend _ inductionHypothesis =>
      cases signs
      cases inductionHypothesis rfl with
      | star rest => exact .star rest
      | literal literal _ => exact absurd rfl literal.1
  | any rest _ =>
      cases signs
      exact .any rest
  | member isBody stood rest _ =>
      simp only [List.cons.injEq] at signs
      obtain ⟨rfl, equality⟩ := signs
      obtain ⟨initial, rfl, texts⟩ := append_star_eq_iff.mp equality
      exact .member isBody stood texts rest
  | literal literal rest _ =>
      cases signs
      exact .literal (isLiteral_append_star.mp literal) rest

/-- A plain text with a star behind it matches exactly the names that begin with the text. -/
theorem Plain.matches_iff {text : List Char} (plain : Plain text) (name : List Char) :
    Matches stands (text ++ ['*']) name ↔ text <+: name := by
  induction text generalizing name with
  | nil => simp [matches_star]
  | cons char text inductionHypothesis =>
      obtain ⟨literal, plainRest⟩ := plain_cons_iff.mp plain
      constructor
      · intro matched
        cases matched.opening with
        | star _ => exact absurd rfl literal.1
        | any _ => exact absurd rfl literal.2.1
        | member isBody _ texts _ => exact absurd ⟨_, _, isBody, texts⟩ (literal.2.2 rfl)
        | literal _ rest =>
            exact (List.prefix_cons_inj char).mpr ((inductionHypothesis plainRest _).mp rest)
      · rintro ⟨after, rfl⟩
        have rest := (inductionHypothesis plainRest (text ++ after)).mpr (List.prefix_append _ _)
        exact .literal (isLiteral_append_star.mpr literal) rest

/-- What a text with a star behind it matches at all, it matches in a name no longer than the text. -/
theorem Matches.exists_short {text name : List Char}
    (matched : Matches stands (text ++ ['*']) name) :
    ∃ short, Matches stands (text ++ ['*']) short ∧ short.length ≤ text.length := by
  induction size : text.length using Nat.strongRecOn generalizing text name with
  | _ size inductionHypothesis =>
      subst size
      cases text with
      | nil => exact ⟨[], matches_star [], Nat.le_refl 0⟩
      | cons char text =>
          cases matched.opening with
          | star rest =>
              obtain ⟨short, found, bound⟩ := inductionHypothesis text.length (by simp) rest rfl
              exact ⟨short, .skip found, by simp; omega⟩
          | any rest =>
              obtain ⟨short, found, bound⟩ := inductionHypothesis text.length (by simp) rest rfl
              exact ⟨'?' :: short, .any found, by simp; omega⟩
          | @member body after first _ isBody stood texts rest =>
              subst texts
              obtain ⟨short, found, bound⟩ :=
                inductionHypothesis after.length (by simp; omega) rest rfl
              refine ⟨first :: short, ?_, by simp; omega⟩
              simpa using Matches.member isBody stood found
          | literal literal rest =>
              obtain ⟨short, found, bound⟩ := inductionHypothesis text.length (by simp) rest rfl
              exact ⟨char :: short, .literal (isLiteral_append_star.mpr literal) found,
                by simp; omega⟩

/-- A text that is not plain matches, if anything, also a name that does not begin with it. -/
theorem Matches.exists_stranger {text name : List Char}
    (matched : Matches stands (text ++ ['*']) name) (notPlain : ¬ Plain text) :
    ∃ stranger, Matches stands (text ++ ['*']) stranger ∧ ¬ text <+: stranger := by
  induction text generalizing name with
  | nil => exact absurd plain_nil notPlain
  | cons char text inductionHypothesis =>
      cases matched.opening with
      | star rest =>
          -- The star may stand for nothing, which leaves a name that is too short.
          obtain ⟨short, found, bound⟩ := rest.exists_short
          refine ⟨short, .skip found, fun begins => ?_⟩
          have longer := begins.length_le
          simp only [List.length_cons] at longer
          omega
      | any rest =>
          refine ⟨'a' :: _, .any rest, fun begins => ?_⟩
          simp [List.cons_prefix_cons] at begins
      | @member body after first _ isBody stood texts rest =>
          subst texts
          -- A bracket expression takes at least three signs and stands for one character.
          obtain ⟨short, found, bound⟩ := rest.exists_short
          refine ⟨first :: short, ?_, fun begins => ?_⟩
          · simpa using Matches.member isBody stood found
          · have longer := begins.length_le
            simp only [List.length_cons, List.length_append] at longer
            omega
      | literal literal rest =>
          have restNotPlain : ¬ Plain text := fun plain =>
            notPlain (plain_cons_iff.mpr ⟨literal, plain⟩)
          obtain ⟨stranger, found, strange⟩ := inductionHypothesis rest restNotPlain
          refine ⟨char :: stranger, .literal (isLiteral_append_star.mpr literal) found, ?_⟩
          exact fun begins => strange ((List.prefix_cons_inj char).mp begins)

/-- A star behind a text makes a pattern for the names that begin with it just if the text is plain. -/
theorem matches_iff_prefix_iff_plain {text : List Char} :
    (∀ name, Matches stands (text ++ ['*']) name ↔ text <+: name) ↔ Plain text := by
  constructor
  · intro agree
    by_contra notPlain
    have itself : Matches stands (text ++ ['*']) text := (agree text).mpr (List.prefix_refl text)
    obtain ⟨stranger, found, strange⟩ := itself.exists_stranger notPlain
    exact strange ((agree stranger).mp found)
  · exact fun plain name => plain.matches_iff name

end BackupClient.Glob
