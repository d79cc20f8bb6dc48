import BackupClient.Files.Path

/-!
Components of paths.

A path with a name joined to it has one component more, whatever the path looks like, and the last component
is told by the parent and the file name together.
-/

namespace BackupClient.Path

variable {path name front tail : List Char} {above : List Component}

/-- Two paths are the same path, however each of them is written. -/
def Same (left right : List Char) : Prop :=
  components left = components right

instance (left right : List Char) : Decidable (Same left right) :=
  inferInstanceAs (Decidable (components left = components right))

structure IsPlain (name : List Char) : Prop where
  undivided : '/' ∉ name
  isName : component? name = some (.name name)

theorem isPlain_cons {char : Char} (undivided : '/' ∉ char :: tail) (noDot : char ≠ '.') :
    IsPlain (char :: tail) := by
  refine ⟨undivided, ?_⟩
  unfold component?
  split
  case h_1 empty => cases empty
  case h_2 dot => exact absurd (List.cons.inj dot).1 noDot
  case h_3 dots => exact absurd (List.cons.inj dots).1 noDot
  case h_4 => rfl

/-! ### Pieces -/

theorem pieces_ne_nil (path : List Char) : pieces path ≠ [] := by
  cases path with
  | nil => exact List.cons_ne_nil _ _
  | cons char rest =>
      unfold pieces
      split
      · exact List.cons_ne_nil _ _
      · split <;> exact List.cons_ne_nil _ _

theorem pieces_append_slash (front tail : List Char) :
    pieces (front ++ '/' :: tail) = pieces front ++ pieces tail := by
  induction front with
  | nil => simp [pieces]
  | cons char front inductionHypothesis =>
      obtain ⟨first, others, cut⟩ := List.exists_cons_of_ne_nil (pieces_ne_nil front)
      by_cases slash : char = '/'
      · simp [pieces, slash, inductionHypothesis]
      · simp [pieces, slash, inductionHypothesis, cut]

theorem pieces_of_undivided (undivided : '/' ∉ name) : pieces name = [name] := by
  induction name with
  | nil => rfl
  | cons char name inductionHypothesis =>
      have different : char ≠ '/' := Ne.symm (List.ne_of_not_mem_cons undivided)
      have rest := inductionHypothesis (List.not_mem_of_not_mem_cons undivided)
      simp [pieces, different, rest]

/-! ### Components -/

theorem components_slash_cons (tail : List Char) :
    components ('/' :: tail) = .root :: (pieces tail).filterMap component? :=
  rfl

theorem components_cons {char : Char} (relative : char ≠ '/') {first : List Char}
    {others : List (List Char)} (cut : pieces (char :: front) = first :: others) :
    components (char :: front) =
      (if first = ['.'] then [Component.current] else (component? first).toList) ++
        others.filterMap component? := by
  unfold components
  split
  case h_1 same => exact absurd (List.cons.inj same).1 relative
  case h_2 =>
    rw [cut]
    by_cases dot : first = ['.']
    · simp [dot]
    · rw [if_neg dot]
      split
      case h_1 same => exact absurd (List.cons.inj same).1 dot
      case h_2 =>
        cases shown : component? first with
        | none => exact List.filterMap_cons_none shown
        | some component => exact List.filterMap_cons_some shown

/-- What stands behind a separator adds its components, and a separator at the end adds none. -/
theorem components_append_slash (nonempty : front ≠ []) (tail : List Char) :
    components (front ++ '/' :: tail) = components front ++ (pieces tail).filterMap component? := by
  obtain ⟨char, rest, rfl⟩ := List.exists_cons_of_ne_nil nonempty
  by_cases slash : char = '/'
  · subst slash
    rw [List.cons_append, components_slash_cons, components_slash_cons, pieces_append_slash,
      List.filterMap_append]
    rfl
  · obtain ⟨first, others, cut⟩ := List.exists_cons_of_ne_nil (pieces_ne_nil (char :: rest))
    have longer : pieces (char :: (rest ++ '/' :: tail)) = first :: (others ++ pieces tail) := by
      rw [← List.cons_append, pieces_append_slash, cut]
      rfl
    rw [List.cons_append, components_cons slash longer, components_cons slash cut,
      List.filterMap_append, List.append_assoc]

theorem components_plain (plain : IsPlain name) : components name = [.name name] := by
  cases name with
  | nil => cases plain.isName
  | cons char rest =>
      have relative : char ≠ '/' := Ne.symm (List.ne_of_not_mem_cons plain.undivided)
      have noDot : char :: rest ≠ ['.'] := by
        intro dot
        have isName := plain.isName
        rw [dot] at isName
        cases isName
      rw [components_cons relative (pieces_of_undivided plain.undivided), if_neg noDot, plain.isName]
      rfl

/-- A name that is joined to a path is one component more. -/
theorem components_join (path : List Char) (plain : IsPlain name) :
    components (join path name) = components path ++ [.name name] := by
  have behind : (pieces name).filterMap component? = [.name name] := by
    rw [pieces_of_undivided plain.undivided]
    simp [plain.isName]
  unfold join
  split
  case h_1 => exact absurd List.mem_cons_self plain.undivided
  case h_2 =>
    split
    case h_1 empty =>
      rw [List.reverse_eq_nil_iff.mp empty]
      exact components_plain plain
    case h_2 rest ended =>
      obtain rfl : path = rest.reverse ++ ['/'] := by
        rw [← List.reverse_reverse path, ended, List.reverse_cons]
      rw [List.append_assoc, List.singleton_append]
      by_cases root : rest.reverse = []
      · rw [root, List.nil_append, components_slash_cons, behind]
        rfl
      · rw [components_append_slash root, components_append_slash root, behind]
        exact congrArg (· ++ [Component.name name]) (List.append_nil _).symm
    case h_3 nonempty _ =>
      have begun : path ≠ [] := fun empty => nonempty (by rw [empty]; rfl)
      rw [components_append_slash begun, behind]

theorem parent?_and_fileName?_iff :
    parent? path = some above ∧ fileName? path = some name ↔
      components path = above ++ [.name name] := by
  unfold parent? fileName?
  constructor
  · rintro ⟨parent, named⟩
    split at named
    case h_2 => cases named
    case h_1 last outer reversed =>
      obtain rfl := Option.some.inj named
      rw [reversed] at parent
      obtain rfl := Option.some.inj parent
      rw [← List.reverse_reverse (components path), reversed, List.reverse_cons]
  · intro whole
    have reversed : (components path).reverse = .name name :: above.reverse := by
      rw [whole, List.reverse_append]
      rfl
    rw [reversed]
    exact ⟨congrArg some (List.reverse_reverse above), rfl⟩

end BackupClient.Path
