import BackupClient.Json.Reader
import BackupClient.Proofs.Json.Lexing

/-!
Values read from their texts.

The two machines, for tokens and for values, are followed as one: a text takes the second from a state
to a state, once the word that the first has on its way is complete.  What a text denotes depends on how
deep it stands, and every text of the grammar denotes something at every depth.
-/

namespace BackupClient.Json

variable {text rest gap : List Char} {mark : Char} {token : Token} {tokens : List Token}
  {lexer : Lexer} {builder middle next after : Builder} {frames : List Frame} {depth : Nat}

/-! ### Both machines as one -/

/-- The machine for values after some tokens, which are given last first. -/
def built (tokens : List Token) : Option Builder :=
  tokens.reverse.foldlM Builder.step Builder.start

theorem built_cons (token : Token) (tokens : List Token) :
    built (token :: tokens) = (built tokens).bind (·.step token) := by
  simp [built, List.foldlM_append]

/-- A text takes the machine for values from a state to a state. -/
def Builder.Reads (builder : Builder) (text : List Char) (after : Builder) : Prop :=
  ∀ tokens, built tokens = some builder → ∃ lexer later,
    text.foldlM Lexer.step ⟨tokens, .between⟩ = some lexer ∧ lexer.settled? = some later ∧
      built later = some after

theorem Lexes.reads (lexes : Lexes text token) (stepped : builder.step token = some after) :
    builder.Reads text after := by
  intro tokens before
  obtain ⟨lexer, read, settled⟩ := lexes tokens
  exact ⟨lexer, token :: tokens, read, settled, by rw [built_cons, before, Option.bind_some, stepped]⟩

theorem Lexer.step_of_settled? (apart : isWordChar mark = false)
    (settled : lexer.settled? = some tokens) : lexer.step mark = stepBetween tokens mark := by
  obtain ⟨held, mode⟩ := lexer
  cases mode with
  | between =>
      cases settled
      rfl
  | word chars =>
      obtain ⟨value, known, rfl⟩ := Option.map_eq_some_iff.mp settled
      simp [step, apart, known]
  | quoted | escape | numeric => cases settled

def marks : List (Char × Token) :=
  [('[', .openArray), (']', .closeArray), ('\x7b', .openObject), ('\x7d', .closeObject),
    (',', .comma), (':', .colon)]

theorem stepBetween_mark (marked : (mark, token) ∈ marks) (tokens : List Token) :
    isWordChar mark = false ∧
      Lexer.stepBetween tokens mark = some ⟨token :: tokens, .between⟩ := by
  simp only [marks, List.mem_cons, Prod.mk.injEq, List.not_mem_nil, or_false] at marked
  rcases marked with ⟨rfl, rfl⟩ | ⟨rfl, rfl⟩ | ⟨rfl, rfl⟩ | ⟨rfl, rfl⟩ | ⟨rfl, rfl⟩ | ⟨rfl, rfl⟩ <;>
    exact ⟨by decide, rfl⟩

theorem stepBetween_spacing {char : Char} (blank : char ∈ [' ', '\t', '\n', '\r'])
    (tokens : List Token) :
    isWordChar char = false ∧ Lexer.stepBetween tokens char = some ⟨tokens, .between⟩ := by
  simp only [List.mem_cons, List.not_mem_nil, or_false] at blank
  rcases blank with rfl | rfl | rfl | rfl <;> exact ⟨by decide, rfl⟩

theorem IsSpacing.foldlM (blank : IsSpacing gap) (tokens : List Token) :
    gap.foldlM Lexer.step ⟨tokens, .between⟩ = some ⟨tokens, .between⟩ := by
  induction gap with
  | nil => rfl
  | cons char gap inductionHypothesis =>
      obtain ⟨first, others⟩ := List.forall_mem_cons.mp blank
      have skipped : Lexer.step ⟨tokens, .between⟩ char = some ⟨tokens, .between⟩ :=
        (stepBetween_spacing first tokens).2
      rw [List.foldlM_cons, skipped]
      exact inductionHypothesis others

namespace Builder.Reads

theorem nil : builder.Reads [] builder :=
  fun tokens before => ⟨⟨tokens, .between⟩, tokens, rfl, rfl, before⟩

theorem spacing (blank : IsSpacing gap) : builder.Reads gap builder :=
  fun tokens before => ⟨⟨tokens, .between⟩, tokens, blank.foldlM tokens, rfl, before⟩

theorem spacing_append (blank : IsSpacing gap) (reads : builder.Reads text after) :
    builder.Reads (gap ++ text) after := by
  intro tokens before
  rw [List.foldlM_append, blank.foldlM tokens]
  exact reads tokens before

theorem append_spacing (reads : builder.Reads text after) (blank : IsSpacing gap) :
    builder.Reads (text ++ gap) after := by
  intro tokens before
  obtain ⟨lexer, later, read, settled, built⟩ := reads tokens before
  -- The first blank completes the word on its way; without a blank it stays on its way.
  cases gap with
  | nil => exact ⟨lexer, later, by rw [List.append_nil, read], settled, built⟩
  | cons char gap =>
      obtain ⟨first, others⟩ := List.forall_mem_cons.mp blank
      obtain ⟨apart, skipped⟩ := stepBetween_spacing first later
      refine ⟨⟨later, .between⟩, later, ?_, rfl, built⟩
      rw [List.foldlM_append, read]
      show (lexer.step char).bind _ = _
      rw [Lexer.step_of_settled? apart settled, skipped]
      exact IsSpacing.foldlM others later

/-- Two texts with a mark between them: the mark ends the word on its way. -/
theorem append_mark (first : builder.Reads text middle) (marked : (mark, token) ∈ marks)
    (stepped : middle.step token = some next) (second : next.Reads rest after) :
    builder.Reads (text ++ mark :: rest) after := by
  intro tokens before
  obtain ⟨lexer, later, read, settled, reached⟩ := first tokens before
  obtain ⟨apart, marked⟩ := stepBetween_mark marked later
  have marking : lexer.step mark = some ⟨token :: later, .between⟩ := by
    rw [Lexer.step_of_settled? apart settled, marked]
  have continued : built (token :: later) = some next := by
    rw [built_cons, reached, Option.bind_some, stepped]
  obtain ⟨last, final, remaining, done, ended⟩ := second (token :: later) continued
  refine ⟨last, final, ?_, done, ended⟩
  rw [List.foldlM_append, read, Option.bind_eq_bind, Option.bind_some, List.foldlM_cons, marking]
  exact remaining

theorem mark_cons (marked : (mark, token) ∈ marks) (stepped : builder.step token = some next)
    (reads : next.Reads rest after) : builder.Reads (mark :: rest) after :=
  nil.append_mark marked stepped reads

end Builder.Reads

/-! ### What a text denotes -/

/-- A text denotes a value where so many containers are open around it. -/
def Denotes (depth : Nat) (text : List Char) (value : Json) : Prop :=
  ∀ frames : List Frame, frames.length = depth →
    ∀ expectation, expectation = .value ∨ expectation = .valueOrClose →
      Builder.Reads ⟨frames, expectation, none⟩ text (Builder.complete frames value)

/-- The value of a container that stands at a depth. -/
def limitedAt (depth : Nat) (value : Json) : Json :=
  if depth < depthLimit then value else .unreadable

theorem step_awaiting {expectation : Expectation}
    (awaits : expectation = .value ∨ expectation = .valueOrClose) (opens : token ≠ .closeArray) :
    Builder.step ⟨frames, expectation, none⟩ token = Builder.stepValue frames token := by
  rcases awaits with rfl | rfl
  · rfl
  · cases token <;> first | rfl | exact absurd rfl opens

theorem Lexes.denotes {value : Json} (lexes : Lexes text token) (opens : token ≠ .closeArray)
    (stepped : ∀ frames, Builder.stepValue frames token = some (Builder.complete frames value)) :
    Denotes depth text value := by
  intro frames _ expectation awaits
  exact lexes.reads ((step_awaiting awaits opens).trans (stepped frames))

section Parts

variable {Result : Type} {denotes : List Char → Result → Prop} {parts : List (List Char)}
  {results : List Result} {waiting holding : List Result → Builder}

theorem Listed.reads (continues : ∀ done, (holding done).step .comma = some (waiting done))
    (each : ∀ part result done, denotes part result →
      (waiting done).Reads part (holding (result :: done)))
    (listed : Listed parts text) (denoted : List.Forall₂ denotes parts results) (done : List Result)
    (builder : Builder)
    (first : ∀ part result, denotes part result → builder.Reads part (holding (result :: done))) :
    builder.Reads text (holding (results.reverse ++ done)) := by
  -- Only the first part is read from the given state; behind a comma it is a waiting one.
  induction listed generalizing results done builder with
  | last before behind =>
      cases denoted with
      | cons head tail =>
          cases tail
          exact ((first _ _ head).spacing_append before).append_spacing behind
  | more before behind _ inductionHypothesis =>
      cases denoted with
      | @cons _ result _ _ head tail =>
          have read := ((first _ _ head).spacing_append before).append_spacing behind
          have remaining := inductionHypothesis tail (result :: done) (waiting (result :: done))
            fun part other => each part other _
          simpa using read.append_mark (by decide) (continues _) remaining

theorem Enclosed.reads (continues : ∀ done, (holding done).step .comma = some (waiting done))
    (each : ∀ part result done, denotes part result →
      (waiting done).Reads part (holding (result :: done)))
    (first : ∀ part result, denotes part result → builder.Reads part (holding [result]))
    (enclosed : Enclosed parts text) (denoted : List.Forall₂ denotes parts results)
    (closing : (mark, token) ∈ marks) (empty : results = [] → builder.step token = some after)
    (closed : (holding results.reverse).step token = some after) :
    builder.Reads (text ++ [mark]) after := by
  cases enclosed with
  | nothing blank =>
      cases denoted
      exact (Builder.Reads.spacing blank).append_mark closing (empty rfl) .nil
  | parts listed =>
      have read := listed.reads continues each denoted [] builder first
      rw [List.append_nil] at read
      exact read.append_mark closing closed .nil

end Parts

theorem denotes_array {items : List (List Char)} {values : List Json}
    (denoted : List.Forall₂ (Denotes (depth + 1)) items values) (enclosed : Enclosed items text) :
    Denotes depth ('[' :: text ++ [']']) (limitedAt depth (.arr values)) := by
  intro frames deep expectation awaits
  have opened : Builder.step ⟨frames, expectation, none⟩ .openArray =
      some ⟨.items [] :: frames, .valueOrClose, none⟩ :=
    step_awaiting awaits nofun
  have closed : Builder.closeArray (.items values.reverse :: frames) =
      some (Builder.complete frames (limitedAt depth (.arr values))) := by
    rw [Builder.closeArray, Builder.limited, deep, limitedAt, List.reverse_reverse]
  have continues (done : List Json) :
      Builder.step ⟨.items done :: frames, .separator, none⟩ .comma =
        some ⟨.items done :: frames, .value, none⟩ := rfl
  have part {expectation : Expectation} (done : List Json)
      (awaits : expectation = .value ∨ expectation = .valueOrClose) (text : List Char) (value : Json)
      (denotes : Denotes (depth + 1) text value) :
      Builder.Reads ⟨.items done :: frames, expectation, none⟩ text
        ⟨.items (value :: done) :: frames, .separator, none⟩ :=
    denotes _ (congrArg (· + 1) deep) _ awaits
  have opening : ('[', Token.openArray) ∈ marks := by decide
  have closing : (']', Token.closeArray) ∈ marks := by decide
  refine Builder.Reads.mark_cons opening opened ?_
  refine enclosed.reads continues (fun text value done => part done (.inl rfl) text value)
    (part [] (.inr rfl)) denoted closing ?_ closed
  rintro rfl
  exact closed

/-- What the text of a member denotes: its key, which may have no text, and its value. -/
inductive MemberDenotes (depth : Nat) : List Char → Option String × Json → Prop where
  | parts {member : MemberText} {key : Option String} {value : Json} :
      Lexes member.key (.text key) → Denotes depth member.value value →
      MemberDenotes depth member.text (key, value)

theorem MemberDenotes.reads {result : Option String × Json} {done : List (Option String × Json)}
    {expectation : Expectation} (denoted : MemberDenotes depth text result)
    (deep : frames.length + 1 = depth)
    (awaits : expectation = .key ∨ expectation = .keyOrClose) :
    Builder.Reads ⟨.members done none :: frames, expectation, none⟩ text
      ⟨.members (result :: done) none :: frames, .separator, none⟩ := by
  cases denoted with
  | @parts member key value lexes denotes =>
      have noted : Builder.step ⟨.members done none :: frames, expectation, none⟩ (.text key) =
          some ⟨.members done key :: frames, .colon, none⟩ := by
        rcases awaits with rfl | rfl <;> rfl
      have parting : (':', Token.colon) ∈ marks := by decide
      have read := denotes (.members done key :: frames) deep .value (.inl rfl)
      exact ((lexes.reads noted).append_spacing member.gapIsSpacing).append_mark parting rfl
        (read.spacing_append member.leadIsSpacing)

/-- The object of some members.  A key without a text makes the whole unreadable. -/
def objectOf (members : List (Option String × Json)) : Json :=
  Builder.closeMembers members.reverse

theorem denotes_object {parts : List (List Char)} {results : List (Option String × Json)}
    (denoted : List.Forall₂ (MemberDenotes (depth + 1)) parts results)
    (enclosed : Enclosed parts text) :
    Denotes depth ('\x7b' :: text ++ ['\x7d']) (limitedAt depth (objectOf results)) := by
  intro frames deep expectation awaits
  have opened : Builder.step ⟨frames, expectation, none⟩ .openObject =
      some ⟨.members [] none :: frames, .keyOrClose, none⟩ :=
    step_awaiting awaits nofun
  have closed : Builder.closeObject (.members results.reverse none :: frames) =
      some (Builder.complete frames (limitedAt depth (objectOf results))) := by
    rw [Builder.closeObject, Builder.limited, deep, limitedAt, objectOf]
  have continues (done : List (Option String × Json)) :
      Builder.step ⟨.members done none :: frames, .separator, none⟩ .comma =
        some ⟨.members done none :: frames, .key, none⟩ := rfl
  have part {expectation : Expectation} (done : List (Option String × Json))
      (awaits : expectation = .key ∨ expectation = .keyOrClose) (text : List Char)
      (result : Option String × Json) (denotes : MemberDenotes (depth + 1) text result) :
      Builder.Reads ⟨.members done none :: frames, expectation, none⟩ text
        ⟨.members (result :: done) none :: frames, .separator, none⟩ :=
    denotes.reads (congrArg (· + 1) deep) awaits
  have opening : ('\x7b', Token.openObject) ∈ marks := by decide
  have closing : ('\x7d', Token.closeObject) ∈ marks := by decide
  refine Builder.Reads.mark_cons opening opened ?_
  refine enclosed.reads continues (fun text result done => part done (.inl rfl) text result)
    (part [] (.inr rfl)) denoted closing ?_ closed
  rintro rfl
  exact closed

/-! ### Every text denotes something -/

theorem exists_forall₂ {Part Result : Type} {denotes : Part → Result → Prop} {parts : List Part}
    (each : ∀ part ∈ parts, ∃ result, denotes part result) :
    ∃ results, List.Forall₂ denotes parts results := by
  induction parts with
  | nil => exact ⟨[], .nil⟩
  | cons part parts inductionHypothesis =>
      obtain ⟨result, head⟩ := each part List.mem_cons_self
      obtain ⟨results, tail⟩ :=
        inductionHypothesis fun part member => each part (List.mem_cons_of_mem _ member)
      exact ⟨result :: results, .cons head tail⟩

theorem StringText.exists_denotes (written : StringText text) : ∃ value, Denotes depth text value := by
  obtain ⟨content, lexes⟩ := written.exists_lexes
  cases content with
  | none => exact ⟨.unreadable, lexes.denotes nofun fun frames => rfl⟩
  | some content => exact ⟨.str content, lexes.denotes nofun fun frames => rfl⟩

theorem Lexes.denotes_scalar {value : Json} (lexes : Lexes text (.scalar value)) :
    Denotes depth text value :=
  lexes.denotes nofun fun _ => rfl

theorem nullWord_denotes : Denotes depth ['n', 'u', 'l', 'l'] .null :=
  (lexes_word (List.all_eq_true.mp rfl) rfl).denotes_scalar

theorem trueWord_denotes : Denotes depth ['t', 'r', 'u', 'e'] (.bool true) :=
  (lexes_word (List.all_eq_true.mp rfl) rfl).denotes_scalar

theorem falseWord_denotes : Denotes depth ['f', 'a', 'l', 's', 'e'] (.bool false) :=
  (lexes_word (List.all_eq_true.mp rfl) rfl).denotes_scalar

theorem SpelledString.denotes {content : String} (spelled : SpelledString content text) :
    Denotes depth text (.str content) :=
  spelled.lexes.denotes nofun fun _ => rfl

/-- Every text of the grammar denotes something at every depth. -/
theorem ValueText.exists_denotes (written : ValueText text) (depth : Nat) :
    ∃ value, Denotes depth text value := by
  induction written generalizing depth with
  | nullWord => exact ⟨_, nullWord_denotes⟩
  | trueWord => exact ⟨_, trueWord_denotes⟩
  | falseWord => exact ⟨_, falseWord_denotes⟩
  | number written =>
      obtain ⟨value, lexes⟩ := written.exists_lexes
      exact ⟨value, lexes.denotes_scalar⟩
  | string written => exact written.exists_denotes
  | array _ enclosed inductionHypothesis =>
      obtain ⟨values, denoted⟩ :=
        exists_forall₂ fun item member => inductionHypothesis item member (depth + 1)
      exact ⟨_, denotes_array denoted enclosed⟩
  | @object members text keys _ enclosed inductionHypothesis =>
      have each : ∀ part ∈ members.map MemberText.text, ∃ result, MemberDenotes (depth + 1) part result := by
        intro part listed
        obtain ⟨member, known, rfl⟩ := List.mem_map.mp listed
        obtain ⟨key, lexes⟩ := (keys member known).exists_lexes
        obtain ⟨value, denotes⟩ := inductionHypothesis member known (depth + 1)
        exact ⟨(key, value), .parts lexes denotes⟩
      obtain ⟨results, denoted⟩ := exists_forall₂ each
      exact ⟨_, denotes_object denoted enclosed⟩

def Bounded (value : Json) : Prop :=
  ∀ number : Nat, value = .int number → number < Nat.pow 2 64

/-- The text of a given value denotes it where containers may still be opened. -/
theorem Spells.denotes {value : Json} (spells : Spells value text) (bounded : value.Bounded)
    (shallow : depth < depthLimit) : Denotes depth text value := by
  cases spells with
  | nullWord => exact nullWord_denotes
  | trueWord => exact trueWord_denotes
  | falseWord => exact falseWord_denotes
  | natural written exact =>
      subst exact
      exact (written.lexes (bounded _ rfl)).denotes_scalar
  | @strings contents items text spelled enclosed =>
      have denoted : List.Forall₂ (Denotes (depth + 1)) items (contents.map .str) :=
        List.forall₂_map_right_iff.mpr (spelled.flip.imp fun _ _ spelled => spelled.denotes)
      have whole := denotes_array denoted enclosed
      rwa [limitedAt, if_pos shallow] at whole
  | string spelled => exact spelled.denotes

/-- What a text denotes at the top is what it is read as. -/
theorem Denotes.parse? {value : Json} (denotes : Denotes 0 text value) :
    parse? text = some value := by
  obtain ⟨lexer, later, read, settled, built⟩ := denotes [] rfl .value (.inl rfl) [] rfl
  have lexed : tokens? text = some later.reverse := by
    rw [tokens?, Lexer.start, read, Option.bind_some, Lexer.finish_eq_settled?, settled]
    rfl
  have finished : ofTokens? later.reverse = some value := by
    rw [ofTokens?]
    exact congrArg (Option.bind · Builder.finish) built
  rw [Json.parse?, lexed, Option.bind_some, finished]

/-- A text denotes one value only; the tokens of an open array put it where it denotes that value. -/
theorem Denotes.unique {first second : Json} (one : Denotes 1 text first)
    (other : Denotes 1 text second) : first = second := by
  have opened : built [.openArray] = some ⟨[.items []], .valueOrClose, none⟩ := rfl
  obtain ⟨lexer, later, read, settled, built⟩ := one _ rfl _ (.inr rfl) _ opened
  obtain ⟨lexer', later', read', settled', built'⟩ := other _ rfl _ (.inr rfl) _ opened
  obtain rfl := Option.some.inj (read.symm.trans read')
  obtain rfl := Option.some.inj (settled.symm.trans settled')
  have same := Option.some.inj (built.symm.trans built')
  simpa [Builder.complete] using same

theorem objectOf_named (results : List (String × Json)) :
    objectOf (results.map fun result => (some result.1, result.2)) = .obj results := by
  have named : (results.map fun result => (some result.1, result.2)).mapM
      (fun result : Option String × Json => result.1.map fun name => (name, result.2)) =
        some results := by
    induction results with
    | nil => rfl
    | cons result results inductionHypothesis =>
        rw [List.map_cons, List.mapM_cons, inductionHypothesis]
        rfl
  rw [objectOf, Builder.closeMembers, List.reverse_reverse]
  split
  case h_1 members read => exact congrArg obj (Option.some.inj (read.symm.trans named))
  case h_2 unread => cases unread.symm.trans named

/-- A name with the text of a value, and what the text denotes within the outermost object. -/
def MemberReads (member : String × List Char) (result : String × Json) : Prop :=
  result.1 = member.1 ∧ Denotes 1 member.2 result.2

theorem ObjectText.denotes {members : List (String × List Char)} {results : List (String × Json)}
    (object : ObjectText members text) (shallow : depth < depthLimit)
    (told : List.Forall₂
      (fun member result => result.1 = member.1 ∧ Denotes (depth + 1) member.2 result.2) members results) :
    Denotes depth text (.obj results) := by
  cases object with
  | @braces spelled _ spells enclosed =>
      have denoted : List.Forall₂ (MemberDenotes (depth + 1)) (spelled.map MemberText.text)
          (results.map fun result => (some result.1, result.2)) := by
        clear enclosed
        induction spells generalizing results with
        | nil =>
            cases told
            exact .nil
        | cons spelling _ inductionHypothesis =>
            cases told with
            | cons head tail =>
                obtain ⟨named, denotes⟩ := head
                rw [← spelling.2] at denotes
                rw [← named] at spelling
                exact .cons (.parts spelling.1.lexes denotes) (inductionHypothesis tail)
      have whole := denotes_object denoted enclosed
      rwa [limitedAt, if_pos shallow, objectOf_named] at whole

/-- The text of an object is read as the object of its names and of what the texts of its values
denote. -/
theorem ObjectText.parse? {members : List (String × List Char)} {results : List (String × Json)}
    (object : ObjectText members text) (told : List.Forall₂ MemberReads members results) :
    parse? text = some (.obj results) := by
  apply Denotes.parse?
  exact object.denotes (by decide) told

end BackupClient.Json
