import BackupClient.Json.Reader
import Mathlib.Algebra.Group.Int.Defs
import Mathlib.Algebra.Group.Nat.Defs
import Mathlib.Data.List.Forall2

/-!
Bounds on what is read.

A whole number has at most sixty-four bits, and a container stands at most so deep.  Both hold of every
value on the stack of the reader, whatever the tokens are.
-/

namespace BackupClient.Json

variable {value : Json} {depth : Nat} {items : List Json} {members : List (String × Json)}

/-- A value that can stand inside so many containers. -/
inductive FitsAt : Nat → Json → Prop where
  | null {depth : Nat} : FitsAt depth .null
  | bool {depth : Nat} (value : Bool) : FitsAt depth (.bool value)
  | int {depth : Nat} {value : Int} (least : -2 ^ 63 ≤ value) (greatest : value < 2 ^ 64) :
      FitsAt depth (.int value)
  | float {depth : Nat} (value : Binary64) : FitsAt depth (.float value)
  | str {depth : Nat} (text : String) : FitsAt depth (.str text)
  | arr {depth : Nat} {items : List Json} (shallow : depth < depthLimit)
      (fit : ∀ item ∈ items, FitsAt (depth + 1) item) : FitsAt depth (.arr items)
  | obj {depth : Nat} {members : List (String × Json)} (shallow : depth < depthLimit)
      (fit : ∀ member ∈ members, FitsAt (depth + 1) member.2) : FitsAt depth (.obj members)
  | unreadable {depth : Nat} : FitsAt depth .unreadable

/-! ### Lists of results -/

section Results

variable {α β : Type} {read : α → Option β} {sources : List α} {results : List β}

theorem mapM_eq_some_iff :
    sources.mapM read = some results ↔
      List.Forall₂ (fun source result => read source = some result) sources results := by
  induction sources generalizing results with
  | nil => simp [eq_comm]
  | cons source sources inductionHypothesis =>
      rw [List.mapM_cons, List.forall₂_cons_left_iff]
      constructor
      · intro whole
        obtain ⟨result, head, remaining⟩ := Option.bind_eq_some_iff.mp whole
        obtain ⟨rest, tail, made⟩ := Option.bind_eq_some_iff.mp remaining
        exact ⟨result, rest, head, inductionHypothesis.mp tail, (Option.some.inj made).symm⟩
      · rintro ⟨result, rest, head, tail, rfl⟩
        rw [head, inductionHypothesis.mpr tail]
        rfl

theorem exists_source {relates : α → β → Prop} (related : List.Forall₂ relates sources results)
    {result : β} (member : result ∈ results) : ∃ source ∈ sources, relates source result := by
  induction related with
  | nil => cases member
  | cons head _ inductionHypothesis =>
      rcases List.mem_cons.mp member with rfl | later
      · exact ⟨_, List.mem_cons_self, head⟩
      · obtain ⟨source, listed, relates⟩ := inductionHypothesis later
        exact ⟨source, List.mem_cons_of_mem _ listed, relates⟩

end Results

/-! ### Words -/

theorem wholeDigits_go_lt {start : Nat} (small : start < significandLimit) (chars : List Char) :
    (wholeDigits.go start chars).1 < significandLimit := by
  induction chars generalizing start with
  | nil => exact small
  | cons char chars inductionHypothesis =>
      unfold wholeDigits.go
      dsimp only
      split
      case isTrue longer => exact inductionHypothesis longer
      case isFalse => exact small

theorem fitsAt_number (parts : NumberParts) : FitsAt depth parts.value := by
  have limit : (wholeDigits parts.whole).1 < 2 ^ 64 := wholeDigits_go_lt (by decide) parts.whole
  have scaled (negative : Bool) (significand : Nat) (exponent : Int) :
      FitsAt depth (NumberParts.value.double negative significand exponent) := by
    unfold NumberParts.value.double
    split
    · exact .float _
    · exact .unreadable
  unfold NumberParts.value
  generalize wholeDigits parts.whole = digits at limit ⊢
  obtain ⟨significand, dropped⟩ := digits
  dsimp only at limit ⊢
  split
  case h_1 =>
      split
      case isTrue => exact .int (by omega) (by omega)
      case isFalse =>
          split
          case isTrue bounds =>
              have bound : significand ≤ 2 ^ 63 := bounds.2.2
              exact .int (by omega) (by omega)
          case isFalse => exact scaled _ _ _
  case h_2 => exact scaled _ _ _

theorem fitsAt_word {word : List Char} (known : wordValue? word = some value) : FitsAt depth value := by
  unfold wordValue? at known
  split at known
  · cases known
    exact .null
  · cases known
    exact .bool true
  · cases known
    exact .bool false
  · obtain ⟨parts, -, rfl⟩ := Option.map_eq_some_iff.mp known
    exact fitsAt_number parts

/-! ### Tokens -/

def TokenFits (token : Token) : Prop :=
  ∀ value, token = .scalar value → ∀ depth, FitsAt depth value

theorem tokenFits_word {word : List Char} (known : wordValue? word = some value) :
    TokenFits (.scalar value) := by
  rintro _ ⟨⟩ depth
  exact fitsAt_word known

variable {tokens : List Token} {char : Char} {lexer next : Lexer}

theorem stepBetween_fits (fit : ∀ token ∈ tokens, TokenFits token)
    (stepped : Lexer.stepBetween tokens char = some next) : ∀ token ∈ next.tokens, TokenFits token := by
  have with_mark {token : Token} (mark : TokenFits token) :
      ∀ other ∈ token :: tokens, TokenFits other := List.forall_mem_cons.mpr ⟨mark, fit⟩
  unfold Lexer.stepBetween at stepped
  split at stepped
  case h_8 =>
      split at stepped
      · cases stepped
        exact fit
      · split at stepped
        · cases stepped
          exact fit
        · cases stepped
  case h_7 =>
      cases stepped
      exact fit
  all_goals
    cases stepped
    exact with_mark nofun

theorem step_fits (fit : ∀ token ∈ lexer.tokens, TokenFits token)
    (stepped : lexer.step char = some next) : ∀ token ∈ next.tokens, TokenFits token := by
  have with_text {content : Option String} : ∀ token ∈ .text content :: lexer.tokens, TokenFits token :=
    List.forall_mem_cons.mpr ⟨nofun, fit⟩
  unfold Lexer.step at stepped
  split at stepped
  case h_1 => exact stepBetween_fits fit stepped
  case h_2 =>
      split at stepped
      case isTrue =>
          cases stepped
          exact fit
      case isFalse =>
          split at stepped
          case h_1 value known =>
              apply stepBetween_fits _ stepped
              exact List.forall_mem_cons.mpr ⟨tokenFits_word known, fit⟩
          case h_2 => cases stepped
  case h_3 =>
      split at stepped
      · cases stepped
        exact with_text
      · split at stepped
        · cases stepped
          exact fit
        · split at stepped
          · cases stepped
          · cases stepped
            exact fit
  case h_4 =>
      split at stepped
      · cases stepped
        exact fit
      · obtain ⟨value, -, rfl⟩ := Option.map_eq_some_iff.mp stepped
        exact fit
  case h_5 =>
      split at stepped
      · cases stepped
      · split at stepped
        · cases stepped
          exact fit
        · cases stepped
          exact fit

theorem tokens?_fit {text : List Char} (lexed : tokens? text = some tokens) :
    ∀ token ∈ tokens, TokenFits token := by
  have run {text : List Char} {lexer last : Lexer} (fit : ∀ token ∈ lexer.tokens, TokenFits token)
      (folded : text.foldlM Lexer.step lexer = some last) : ∀ token ∈ last.tokens, TokenFits token := by
    induction text generalizing lexer with
    | nil =>
        cases folded
        exact fit
    | cons char text inductionHypothesis =>
        obtain ⟨next, stepped, remaining⟩ := Option.bind_eq_some_iff.mp folded
        exact inductionHypothesis (step_fits fit stepped) remaining
  obtain ⟨last, folded, finished⟩ := Option.bind_eq_some_iff.mp lexed
  have fit := run (List.forall_mem_nil _) folded
  unfold Lexer.finish at finished
  split at finished
  case h_1 =>
      cases finished
      intro token member
      exact fit token (List.mem_reverse.mp member)
  case h_2 =>
      obtain ⟨value, known, rfl⟩ := Option.map_eq_some_iff.mp finished
      intro token member
      rcases List.mem_cons.mp (List.mem_reverse.mp member) with rfl | earlier
      · exact tokenFits_word known
      · exact fit token earlier
  case h_3 => cases finished

/-! ### Containers -/

/-- What the open containers hold stands within the bounds. -/
def FramesFit : List Frame → Prop
  | [] => True
  | .items done :: outer => (∀ item ∈ done, FitsAt (outer.length + 1) item) ∧ FramesFit outer
  | .members done _ :: outer =>
      (∀ member ∈ done, FitsAt (outer.length + 1) member.2) ∧ FramesFit outer

structure Builder.Fits (builder : Builder) : Prop where
  frames : FramesFit builder.frames
  result : ∀ value, builder.result = some value → FitsAt 0 value

namespace Builder

variable {frames outer : List Frame} {builder after : Builder} {token : Token}

theorem fits_of_frames {expectation : Expectation} (fit : FramesFit frames) :
    Fits ⟨frames, expectation, none⟩ :=
  ⟨fit, fun _ none => nomatch none⟩

theorem fits_complete (fit : FramesFit frames) (value_fits : FitsAt frames.length value) :
    (complete frames value).Fits := by
  cases frames with
  | nil =>
      refine ⟨fit, ?_⟩
      rintro _ ⟨⟩
      exact value_fits
  | cons frame outer =>
      cases frame with
      | items done =>
          apply fits_of_frames
          exact ⟨List.forall_mem_cons.mpr ⟨value_fits, fit.1⟩, fit.2⟩
      | members done key =>
          apply fits_of_frames
          exact ⟨List.forall_mem_cons.mpr ⟨value_fits, fit.1⟩, fit.2⟩

theorem fits_stepValue (fit : FramesFit frames) (tokenFits : TokenFits token)
    (stepped : stepValue frames token = some after) : after.Fits := by
  unfold stepValue at stepped
  split at stepped
  case h_1 =>
      cases stepped
      exact fits_of_frames ⟨List.forall_mem_nil _, fit⟩
  case h_2 =>
      cases stepped
      exact fits_of_frames ⟨List.forall_mem_nil _, fit⟩
  case h_3 value =>
      cases stepped
      exact fits_complete fit (tokenFits value rfl _)
  case h_4 =>
      cases stepped
      exact fits_complete fit (.str _)
  case h_5 =>
      cases stepped
      exact fits_complete fit .unreadable
  case h_6 => cases stepped

theorem fitsAt_limited (fits : outer.length < depthLimit → FitsAt outer.length value) :
    FitsAt outer.length (limited outer value) := by
  unfold limited
  split
  case isTrue shallow => exact fits shallow
  case isFalse => exact .unreadable

theorem fits_closeArray (fit : FramesFit frames) (stepped : closeArray frames = some after) :
    after.Fits := by
  unfold closeArray at stepped
  split at stepped
  case h_1 done outer =>
      cases stepped
      apply fits_complete fit.2
      apply fitsAt_limited
      intro shallow
      apply FitsAt.arr shallow
      intro item member
      exact fit.1 item (List.mem_reverse.mp member)
  case h_2 => cases stepped

theorem fits_closeObject (fit : FramesFit frames) (stepped : closeObject frames = some after) :
    after.Fits := by
  unfold closeObject at stepped
  split at stepped
  case h_1 done key outer =>
      cases stepped
      apply fits_complete fit.2
      apply fitsAt_limited
      intro shallow
      unfold closeMembers
      split
      case h_1 members named =>
          apply FitsAt.obj shallow
          intro member listed
          obtain ⟨⟨key, value⟩, held, keyed⟩ := exists_source (mapM_eq_some_iff.mp named) listed
          obtain ⟨name, -, rfl⟩ := Option.map_eq_some_iff.mp keyed
          exact fit.1 (key, value) (List.mem_reverse.mp held)
      case h_2 => exact .unreadable
  case h_2 => cases stepped

theorem fits_setKey {content : Option String} (fit : FramesFit frames)
    (stepped : setKey content frames = some after) : after.Fits := by
  unfold setKey at stepped
  split at stepped
  case h_1 =>
      cases stepped
      exact fits_of_frames fit
  case h_2 => cases stepped

theorem Fits.step (fits : builder.Fits) (tokenFits : TokenFits token)
    (stepped : builder.step token = some after) : after.Fits := by
  unfold Builder.step at stepped
  split at stepped
  case h_1 => exact fits_stepValue fits.frames tokenFits stepped
  case h_2 => exact fits_closeArray fits.frames stepped
  case h_3 => exact fits_stepValue fits.frames tokenFits stepped
  case h_4 => exact fits_setKey fits.frames stepped
  case h_5 => exact fits_setKey fits.frames stepped
  case h_6 => exact fits_closeObject fits.frames stepped
  case h_7 =>
      cases stepped
      exact ⟨fits.frames, fits.result⟩
  case h_8 => exact fits_closeArray fits.frames stepped
  case h_9 => exact fits_closeObject fits.frames stepped
  case h_10 =>
      split at stepped
      · cases stepped
      · cases stepped
        exact ⟨fits.frames, fits.result⟩
      · cases stepped
        exact ⟨fits.frames, fits.result⟩
  case h_11 => cases stepped

theorem Fits.foldlM {tokens : List Token} (fits : builder.Fits)
    (tokensFit : ∀ token ∈ tokens, TokenFits token)
    (folded : tokens.foldlM Builder.step builder = some after) : after.Fits := by
  induction tokens generalizing builder with
  | nil =>
      cases folded
      exact fits
  | cons token tokens inductionHypothesis =>
      obtain ⟨first, others⟩ := List.forall_mem_cons.mp tokensFit
      obtain ⟨next, stepped, remaining⟩ := Option.bind_eq_some_iff.mp folded
      exact inductionHypothesis (fits.step first stepped) others remaining

end Builder

/-- Whatever is read keeps the bounds. -/
theorem fitsAt_of_parse? {text : List Char} (parsed : parse? text = some value) : FitsAt 0 value := by
  obtain ⟨tokens, lexed, read⟩ := Option.bind_eq_some_iff.mp parsed
  obtain ⟨builder, folded, finished⟩ := Option.bind_eq_some_iff.mp read
  have start : Builder.start.Fits := Builder.fits_of_frames trivial
  have fits := start.foldlM (tokens?_fit lexed) folded
  unfold Builder.finish at finished
  split at finished
  case isTrue => exact fits.result value finished
  case isFalse => cases finished

end BackupClient.Json
