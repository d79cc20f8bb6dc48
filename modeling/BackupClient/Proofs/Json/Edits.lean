import BackupClient.Proofs.Json.Exact

/-!
Objects with members left out or added.

A record with defaults is decoded from what is left of its object, and an unknown name anywhere among the
members is refused.  That holds of the text of an object as well, since whatever the values are, the names are
read as they were written.
-/

namespace BackupClient.Json

variable {value result : Json} {depth : Nat} {names gone : List String} {name : String}
  {member : String × Json} {members : List (String × Json)} {fields : Fields} {positional : Bool}
  {α : Type} {decode : Json → Option α} {missing : α}

/-! ### Edits -/

def without (gone : List String) : Json → Json
  | .obj members => .obj (members.filter (·.1 ∉ gone))
  | value => value

def withMember (position : Nat) (member : String × Json) : Json → Json
  | .obj members => .obj (members.take position ++ member :: members.drop position)
  | value => value

def changeMember (name : String) (change : Json → Json) : Json → Json
  | .obj members =>
      .obj (members.map fun member => if member.1 = name then (member.1, change member.2) else member)
  | value => value

/-! ### Members left out -/

theorem member?_without :
    member? name (members.filter (·.1 ∉ gone)) = if name ∈ gone then none else member? name members := by
  unfold member?
  split
  case isTrue left =>
      have absent : (members.filter (·.1 ∉ gone)).find? (·.1 = name) = none := by
        apply List.find?_eq_none.mpr
        intro member listed
        have kept : member.1 ∉ gone := of_decide_eq_true (List.mem_filter.mp listed).2
        simp only [decide_eq_true_eq]
        rintro rfl
        exact kept left
      rw [absent, Option.map_none]
  case isFalse kept =>
      have narrowed (member : String × Json) :
          (decide (member.1 ∉ gone) && decide (member.1 = name)) = decide (member.1 = name) := by
        by_cases same : member.1 = name
        · simp [same, kept]
        · simp [same]
      simp only [List.find?_filter, Bool.decide_and, Bool.decide_eq_true, narrowed]

/-- A field that was left out has its default, and the others are what they were. -/
theorem Fields.withDefault_without :
    (Fields.mk (members.filter (·.1 ∉ gone)) positional).withDefault name missing decode =
      if name ∈ gone then some missing
      else (Fields.mk members positional).withDefault name missing decode := by
  rw [withDefault, withDefault, find?, find?, member?_without]
  split_ifs
  case pos left => rfl
  case neg kept => rfl

theorem strictFields?_of_distinct (known : ∀ member ∈ members, member.1 ∈ names)
    (distinct : (members.map (·.1)).Nodup) :
    strictFields? names (.obj members) = some ⟨members, false⟩ := by
  have all : members.all (names.contains ·.1) = true :=
    List.all_eq_true.mpr fun member listed => List.contains_iff_mem.mpr (known member listed)
  rw [strictFields?, if_pos all, fields?_of_distinct known distinct]

theorem strictFields?_without (known : ∀ member ∈ members, member.1 ∈ names)
    (distinct : (members.map (·.1)).Nodup) :
    strictFields? names (without gone (.obj members)) =
      some ⟨members.filter (·.1 ∉ gone), false⟩ := by
  apply strictFields?_of_distinct
  · intro member listed
    exact known member (List.mem_of_mem_filter listed)
  · exact distinct.sublist (List.filter_sublist.map _)

theorem ExactAt.without (exact : ExactAt depth value) : ExactAt depth (value.without gone) := by
  cases value with
  | obj members =>
      obtain ⟨shallow, each⟩ := exactAt_obj_iff.mp exact
      apply exactAt_obj shallow
      intro member listed
      exact each member (List.mem_of_mem_filter listed)
  | _ => exact exact

/-! ### Unknown names -/

def HasUnknown (known : List String) (value : Json) : Prop :=
  ∃ members, value = .obj members ∧ ∃ name ∈ members.map Prod.fst, name ∉ known

theorem HasUnknown.strictFields? (unknown : HasUnknown names value) : strictFields? names value = none := by
  obtain ⟨members, rfl, name, named, unknown⟩ := unknown
  obtain ⟨member, listed, rfl⟩ := List.mem_map.mp named
  have refused : ¬members.all (names.contains ·.1) = true := by
    intro all
    exact unknown (List.contains_iff_mem.mp (List.all_eq_true.mp all member listed))
  rw [Json.strictFields?, if_neg refused]

theorem hasUnknown_withMember (position : Nat) (unknown : name ∉ names) :
    HasUnknown names (withMember position (name, value) (.obj members)) := by
  refine ⟨_, rfl, name, ?_, unknown⟩
  rw [List.map_append, List.map_cons]
  exact List.mem_append_right _ List.mem_cons_self

/-- The fields of a record without other members are those of the object, whichever stands there. -/
theorem find?_of_strictFields? (read : strictFields? names (.obj members) = some fields)
    (listed : member ∈ members) : fields.find? member.1 = some member.2 := by
  rw [strictFields?] at read
  split at read
  case isFalse => cases read
  case isTrue all =>
      have known : member.1 ∈ names :=
        List.contains_iff_mem.mp (List.all_eq_true.mp all member listed)
      rw [fields?] at read
      split at read
      case isTrue => cases read
      case isFalse distinct =>
          obtain rfl := Option.some.inj read
          have once := repeatsName_eq_false_iff.mp (Bool.eq_false_iff.mpr distinct) member.1 known
          have own : member ∈ members.filter (·.1 = member.1) := List.mem_filter.mpr ⟨listed, by simp⟩
          obtain ⟨first, single⟩ := List.length_eq_one_iff.mp
            (Nat.le_antisymm once (List.length_pos_of_mem own))
          rw [single] at own
          obtain rfl := List.mem_singleton.mp own
          rw [Fields.find?_filter known, single]
          rfl

/-! ### Texts of objects -/

/-- An object that stays an object, with the same names. -/
def SameNames (value result : Json) : Prop :=
  ∀ members, value = .obj members →
    ∃ results, result = .obj results ∧ results.map Prod.fst = members.map Prod.fst

theorem HasUnknown.of_sameNames (unknown : HasUnknown names value) (same : SameNames value result) :
    HasUnknown names result := by
  obtain ⟨members, rfl, name, listed, unknown⟩ := unknown
  obtain ⟨results, rfl, kept⟩ := same members rfl
  rw [← kept] at listed
  exact ⟨results, rfl, name, listed, unknown⟩

theorem exists_denotes_sameNames (value : Json) (shallow : depth < depthLimit) :
    ∃ result, Denotes depth (write value) result ∧ SameNames value result := by
  cases value with
  | obj members =>
      have each : ∀ member ∈ members, ∃ result : String × Json,
          result.1 = member.1 ∧ Denotes (depth + 1) (write member.2) result.2 := by
        intro member _
        obtain ⟨result, denotes⟩ := (write_valueText member.2).exists_denotes (depth + 1)
        exact ⟨(member.1, result), rfl, denotes⟩
      obtain ⟨results, denoted⟩ := exists_forall₂ each
      refine ⟨.obj results, ?_, ?_⟩
      · apply (write_objectText members).denotes shallow
        rwa [List.forall₂_map_left_iff]
      · intro others same
        obtain rfl := Json.obj.inj same
        have names : List.Forall₂ Eq (results.map Prod.fst) (members.map Prod.fst) := by
          rw [List.forall₂_map_left_iff, List.forall₂_map_right_iff]
          exact denoted.flip.imp fun _ _ named => named.1
        rw [List.forall₂_eq_eq_eq] at names
        exact ⟨results, rfl, names⟩
  | _ =>
      obtain ⟨result, denotes⟩ := (write_valueText _).exists_denotes depth
      exact ⟨result, denotes, nofun⟩

/-- The text of an object is read as an object with its names, and so are the objects within it. -/
theorem exists_parse?_write_obj (members : List (String × Json)) :
    ∃ results, parse? (write (.obj members)) = some (.obj results) ∧
      List.Forall₂ (fun member result => result.1 = member.1 ∧ SameNames member.2 result.2)
        members results := by
  have shallow : 1 < depthLimit := by decide
  have each : ∀ member ∈ members, ∃ result : String × Json, result.1 = member.1 ∧
      Denotes 1 (write member.2) result.2 ∧ SameNames member.2 result.2 := by
    intro member _
    obtain ⟨result, denotes, same⟩ := exists_denotes_sameNames member.2 shallow
    exact ⟨(member.1, result), rfl, denotes, same⟩
  obtain ⟨results, read⟩ := exists_forall₂ each
  refine ⟨results, ?_, read.imp fun _ _ entry => ⟨entry.1, entry.2.2⟩⟩
  apply (write_objectText members).parse?
  rw [List.forall₂_map_left_iff]
  exact read.imp fun _ _ entry => ⟨entry.1, entry.2.1⟩

end BackupClient.Json
