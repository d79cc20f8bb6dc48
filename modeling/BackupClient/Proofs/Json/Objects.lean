import BackupClient.Json.Decode
import BackupClient.Json.Reader
import Mathlib.Data.List.Infix

/-!
Objects: texts that begin with a brace, and the fields of a record.

Whatever follows the opening brace, what is read is an object or nothing readable.  The fields of a
record are the members of its names, wherever they stand among the others.
-/

namespace BackupClient.Json

variable {char : Char} {text : List Char} {token : Token} {tokens : List Token}
  {lexer read : Lexer} {builder after : Builder} {frames : List Frame} {value : Json}

/-! ### Texts that begin with a brace -/

theorem Lexer.tokens_suffix_stepBetween (stepped : stepBetween tokens char = some read) :
    tokens <:+ read.tokens := by
  unfold stepBetween at stepped
  split at stepped
  case h_8 =>
    split at stepped
    · cases stepped
      exact List.suffix_refl tokens
    · split at stepped
      · cases stepped
        exact List.suffix_refl tokens
      · cases stepped
  all_goals
    cases stepped
    first | exact List.suffix_refl tokens | exact List.suffix_cons _ tokens

theorem Lexer.tokens_suffix_step (stepped : lexer.step char = some read) :
    lexer.tokens <:+ read.tokens := by
  obtain ⟨held, mode⟩ := lexer
  cases mode with
  | between => exact tokens_suffix_stepBetween stepped
  | word chars =>
      simp only [step] at stepped
      split at stepped
      · cases stepped
        exact List.suffix_refl held
      · split at stepped
        · exact (List.suffix_cons _ held).trans (tokens_suffix_stepBetween stepped)
        · cases stepped
  | quoted quoted =>
      simp only [step] at stepped
      split_ifs at stepped <;> cases stepped
      · exact List.suffix_cons _ held
      · exact List.suffix_refl held
      · exact List.suffix_refl held
  | escape quoted =>
      simp only [step] at stepped
      split at stepped
      · cases stepped
        exact List.suffix_refl held
      · obtain ⟨value, -, rfl⟩ := Option.map_eq_some_iff.mp stepped
        exact List.suffix_refl held
  | numeric quoted due unit =>
      simp only [step] at stepped
      split at stepped
      · cases stepped
      · split at stepped <;> cases stepped <;> exact List.suffix_refl held

theorem Lexer.tokens_suffix_foldlM (folded : text.foldlM step lexer = some read) :
    lexer.tokens <:+ read.tokens := by
  induction text generalizing lexer with
  | nil =>
      cases folded
      exact List.suffix_refl _
  | cons char text inductionHypothesis =>
      obtain ⟨next, stepped, remaining⟩ := Option.bind_eq_some_iff.mp folded
      exact (tokens_suffix_step stepped).trans (inductionHypothesis remaining)

theorem Lexer.tokens_prefix_finish (finished : lexer.finish = some tokens) :
    lexer.tokens.reverse <+: tokens := by
  unfold finish at finished
  split at finished
  · cases finished
    exact List.prefix_refl _
  · obtain ⟨value, -, rfl⟩ := Option.map_eq_some_iff.mp finished
    rw [List.reverse_cons]
    exact List.prefix_append _ _
  · cases finished

theorem tokens?_of_brace (lexed : tokens? ('\x7b' :: text) = some tokens) :
    ∃ others, tokens = .openObject :: others := by
  obtain ⟨lexer, folded, finished⟩ := Option.bind_eq_some_iff.mp lexed
  change text.foldlM Lexer.step ⟨[.openObject], .between⟩ = some lexer at folded
  have kept : ([.openObject] : List Token) <:+ lexer.tokens := Lexer.tokens_suffix_foldlM folded
  have first := (List.reverse_prefix.mpr kept).trans (Lexer.tokens_prefix_finish finished)
  obtain ⟨others, rfl⟩ := first
  exact ⟨others, rfl⟩

/-- An object, or nothing that can be read. -/
def IsObject (value : Json) : Prop :=
  (∃ members, value = .obj members) ∨ value = .unreadable

/-- The outermost of some open containers is an object. -/
def OpensObject (frames : List Frame) : Prop :=
  ∃ inner done key, frames = inner ++ [.members done key]

theorem OpensObject.cons (opens : OpensObject frames) (frame : Frame) : OpensObject (frame :: frames) := by
  obtain ⟨inner, done, key, rfl⟩ := opens
  exact ⟨frame :: inner, done, key, rfl⟩

theorem OpensObject.of_cons_items {done : List Json} (opens : OpensObject (.items done :: frames)) :
    OpensObject frames := by
  obtain ⟨inner, outermost, key, whole⟩ := opens
  cases inner with
  | nil => cases whole
  | cons frame inner =>
      cases whole
      exact ⟨inner, outermost, key, rfl⟩

/-- The outermost container is an object, which is still open or complete. -/
def Builder.InObject (builder : Builder) : Prop :=
  OpensObject builder.frames ∨
    builder.frames = [] ∧ builder.expectation = .separator ∧
      ∃ value, builder.result = some value ∧ IsObject value

namespace Builder

theorem inObject_complete (opens : OpensObject frames) (value : Json) :
    (complete frames value).InObject := by
  obtain ⟨inner, done, key, rfl⟩ := opens
  cases inner with
  | nil => exact .inl ⟨[], _, _, rfl⟩
  | cons frame inner =>
      cases frame with
      | items held => exact .inl ⟨.items (value :: held) :: inner, _, _, rfl⟩
      | members held name => exact .inl ⟨.members ((name, value) :: held) none :: inner, _, _, rfl⟩

theorem inObject_stepValue (opens : OpensObject frames)
    (stepped : stepValue frames token = some after) : after.InObject := by
  unfold stepValue at stepped
  split at stepped <;> cases stepped
  · exact .inl (opens.cons _)
  · exact .inl (opens.cons _)
  · exact inObject_complete opens _
  · exact inObject_complete opens _
  · exact inObject_complete opens _

theorem inObject_closeArray (opens : OpensObject frames) (stepped : closeArray frames = some after) :
    after.InObject := by
  unfold closeArray at stepped
  split at stepped <;> cases stepped
  exact inObject_complete opens.of_cons_items _

theorem isObject_limited (done : List (Option String × Json)) (outer : List Frame) :
    IsObject (limited outer (closeMembers done)) := by
  unfold limited closeMembers
  split
  · split
    · exact .inl ⟨_, rfl⟩
    · exact .inr rfl
  · exact .inr rfl

theorem inObject_closeObject (opens : OpensObject frames)
    (stepped : closeObject frames = some after) : after.InObject := by
  unfold closeObject at stepped
  split at stepped <;> cases stepped
  obtain ⟨inner, outermost, key, whole⟩ := opens
  cases inner with
  | nil =>
      cases whole
      exact .inr ⟨rfl, rfl, _, rfl, isObject_limited _ _⟩
  | cons frame inner =>
      cases whole
      exact inObject_complete ⟨inner, outermost, key, rfl⟩ _

theorem inObject_setKey {content : Option String} (opens : OpensObject frames)
    (stepped : setKey content frames = some after) : after.InObject := by
  unfold setKey at stepped
  split at stepped <;> cases stepped
  obtain ⟨inner, outermost, key, whole⟩ := opens
  cases inner with
  | nil =>
      cases whole
      exact .inl ⟨[], _, _, rfl⟩
  | cons frame inner =>
      cases whole
      exact .inl ⟨.members _ _ :: inner, outermost, key, rfl⟩

theorem step_separator_nil (result : Option Json) (token : Token) :
    step ⟨[], .separator, result⟩ token = none := by
  cases token <;> rfl

theorem inObject_step (inside : builder.InObject) (stepped : builder.step token = some after) :
    after.InObject := by
  obtain ⟨frames, expectation, result⟩ := builder
  rcases inside with opens | ⟨rfl, rfl, -⟩
  · unfold step at stepped
    split at stepped
    · exact inObject_stepValue opens stepped
    · exact inObject_closeArray opens stepped
    · exact inObject_stepValue opens stepped
    · exact inObject_setKey opens stepped
    · exact inObject_setKey opens stepped
    · exact inObject_closeObject opens stepped
    · cases stepped
      exact .inl opens
    · exact inObject_closeArray opens stepped
    · exact inObject_closeObject opens stepped
    · split at stepped <;> cases stepped <;> exact .inl opens
    · cases stepped
  · rw [step_separator_nil] at stepped
    cases stepped

theorem inObject_foldlM (inside : builder.InObject) (folded : tokens.foldlM step builder = some after) :
    after.InObject := by
  induction tokens generalizing builder with
  | nil =>
      cases folded
      exact inside
  | cons token tokens inductionHypothesis =>
      obtain ⟨next, stepped, remaining⟩ := Option.bind_eq_some_iff.mp folded
      exact inductionHypothesis (inObject_step inside stepped) remaining

theorem isObject_of_finish (inside : builder.InObject) (finished : builder.finish = some value) :
    IsObject value := by
  unfold finish at finished
  split at finished
  · rcases inside with ⟨inner, done, key, whole⟩ | ⟨-, -, result, complete, object⟩
    · simp_all
    · obtain rfl := Option.some.inj (complete.symm.trans finished)
      exact object
  · cases finished

end Builder

/-- What is read from a text that begins with a brace is an object, if it can be read. -/
theorem isObject_of_brace (parsed : parse? ('\x7b' :: text) = some value) : IsObject value := by
  obtain ⟨tokens, lexed, read⟩ := Option.bind_eq_some_iff.mp parsed
  obtain ⟨others, rfl⟩ := tokens?_of_brace lexed
  obtain ⟨builder, folded, finished⟩ := Option.bind_eq_some_iff.mp read
  change others.foldlM Builder.step ⟨[.members [] none], .keyOrClose, none⟩ = some builder at folded
  exact Builder.isObject_of_finish (Builder.inObject_foldlM (.inl ⟨[], [], none, rfl⟩) folded) finished

/-! ### The fields of a record -/

variable {names : List String} {name : String} {members : List (String × Json)}

theorem repeatsName_eq_false_iff :
    repeatsName names members = false ↔
      ∀ name ∈ names, (members.filter (·.1 = name)).length ≤ 1 := by
  simp [repeatsName]

/-- The fields of an object, if no name of the record stands twice. -/
theorem fields?_obj (once : ∀ name ∈ names, (members.filter (·.1 = name)).length ≤ 1) :
    fields? names (.obj members) =
      some ⟨members.filter fun member => names.contains member.1, false⟩ := by
  simp [fields?, repeatsName_eq_false_iff.mpr once]

/-- A member of a record within an object: it stands there once, or not at all if it may be left out. -/
def Supplies (defaults members : List (String × Json)) (member : String × Json) : Prop :=
  members.filter (·.1 = member.1) = [member] ∨
    members.filter (·.1 = member.1) = [] ∧ member ∈ defaults

def Fields.Supply (fields : Fields) (defaults : List (String × Json)) (member : String × Json) : Prop :=
  fields.find? member.1 = some member.2 ∨ fields.find? member.1 = none ∧ member ∈ defaults

theorem Fields.find?_filter (known : name ∈ names) :
    (Fields.mk (members.filter fun member => names.contains member.1) false).find? name =
      ((members.filter (·.1 = name)).head?).map (·.2) := by
  have narrowed (member : String × Json) :
      (names.contains member.1 && decide (member.1 = name)) = decide (member.1 = name) := by
    by_cases same : member.1 = name
    · simp [same, known]
    · simp [same]
  simp only [Fields.find?, member?, List.find?_filter, List.head?_filter, Bool.decide_and,
    Bool.decide_eq_true, narrowed]

theorem exists_fields? {defaults held : List (String × Json)}
    (supplied : ∀ member ∈ held, Supplies defaults members member) :
    ∃ fields, fields? (held.map (·.1)) (.obj members) = some fields ∧
      ∀ member ∈ held, fields.Supply defaults member := by
  refine ⟨_, fields?_obj ?_, ?_⟩
  · intro name known
    obtain ⟨member, own, rfl⟩ := List.mem_map.mp known
    rcases supplied member own with once | ⟨never, -⟩
    · simp [once]
    · simp [never]
  · intro member own
    rw [Fields.Supply, Fields.find?_filter (List.mem_map_of_mem own)]
    rcases supplied member own with once | ⟨never, default⟩
    · exact .inl (by rw [once]; rfl)
    · exact .inr ⟨by rw [never]; rfl, default⟩

variable {α : Type} {fields : Fields} {defaults : List (String × Json)} {decode : Json → Option α}
  {result missing : α}

theorem Fields.Supply.required (supply : fields.Supply defaults (name, value))
    (never : name ∉ defaults.map (·.1)) (decodes : decode value = some result) :
    fields.required name decode = some result := by
  rcases supply with found | ⟨-, default⟩
  · rw [Fields.required, found, Option.bind_some, decodes]
  · exact absurd (List.mem_map_of_mem default) never

/-- A field with a default is decoded from the member that gives it, and has the default otherwise. -/
theorem Fields.Supply.withDefault (supply : fields.Supply defaults (name, value))
    (tacit : ∀ member ∈ defaults, member.1 = name → decode member.2 = some missing)
    (decodes : decode value = some result) :
    fields.withDefault name missing decode = some result := by
  rcases supply with found | ⟨absent, default⟩
  · rw [Fields.withDefault, found]
    exact decodes
  · rw [Fields.withDefault, absent]
    exact (tacit _ default rfl).symm.trans decodes

end BackupClient.Json
