import BackupClient.Json.Decode
import BackupClient.Proofs.Json.Rereading

/-!
Any readable value.

Decoding a value of any kind sorts the members of objects and refuses what is unreadable.  What it comes to
is decoded as itself, and it survives being written and read again just if each of its doubles does.
-/

namespace BackupClient.Json

variable {value result : Json} {depth : Nat} {name other : String} {member : String × Json}
  {items : List Json} {members held : List (String × Json)}

/-! ### Members in order -/

/-- The members of an object in the order of their keys, of which none stands twice. -/
def InOrder (members : List (String × Json)) : Prop :=
  members.Pairwise (·.1 < ·.1)

theorem mem_of_mem_insertMember (listed : member ∈ insertMember name value held) :
    member = (name, value) ∨ member ∈ held := by
  induction held with
  | nil => exact Or.inl (List.mem_singleton.mp listed)
  | cons entry held inductionHypothesis =>
      obtain ⟨other, first⟩ := entry
      unfold insertMember at listed
      split at listed
      case isTrue => exact List.mem_cons.mp listed
      case isFalse =>
          split at listed
          case isTrue =>
              rcases List.mem_cons.mp listed with rfl | later
              · exact Or.inl rfl
              · exact Or.inr (List.mem_cons_of_mem _ later)
          case isFalse =>
              rcases List.mem_cons.mp listed with rfl | later
              · exact Or.inr List.mem_cons_self
              · rcases inductionHypothesis later with same | earlier
                · exact Or.inl same
                · exact Or.inr (List.mem_cons_of_mem _ earlier)

theorem InOrder.insertMember (ordered : InOrder held) (name : String) (value : Json) :
    InOrder (insertMember name value held) := by
  induction held with
  | nil => exact List.pairwise_singleton _ _
  | cons entry held inductionHypothesis =>
      obtain ⟨other, first⟩ := entry
      obtain ⟨greater, rest⟩ := List.pairwise_cons.mp ordered
      unfold Json.insertMember
      split
      case isTrue before =>
          apply List.pairwise_cons.mpr
          refine ⟨?_, ordered⟩
          intro later listed
          rcases List.mem_cons.mp listed with rfl | behind
          · exact before
          · exact String.lt_trans before (greater later behind)
      case isFalse notBefore =>
          split
          case isTrue equal =>
              subst equal
              exact List.pairwise_cons.mpr ⟨greater, rest⟩
          case isFalse different =>
              apply List.pairwise_cons.mpr
              refine ⟨?_, inductionHypothesis rest⟩
              intro later listed
              rcases mem_of_mem_insertMember listed with rfl | behind
              · apply Decidable.byContradiction
                intro notBehind
                apply different
                exact String.le_antisymm (String.not_lt.mp notBehind) (String.not_lt.mp notBefore)
              · exact greater later behind

theorem insertMember_last (last : ∀ member ∈ held, member.1 < name) :
    insertMember name value held = held ++ [(name, value)] := by
  induction held with
  | nil => rfl
  | cons entry held inductionHypothesis =>
      obtain ⟨other, first⟩ := entry
      obtain ⟨before, others⟩ := List.forall_mem_cons.mp last
      have different : name ≠ other := by
        rintro rfl
        exact String.lt_irrefl _ before
      rw [Json.insertMember, if_neg (String.lt_asymm before), if_neg different,
        inductionHypothesis others, List.cons_append]

/-! ### Decoding -/

theorem decodeAnyItems_eq_mapM (items : List Json) : decodeAnyItems items = items.mapM decodeAny := by
  induction items with
  | nil => rfl
  | cons item items inductionHypothesis =>
      rw [decodeAnyItems, inductionHypothesis, List.mapM_cons]
      rfl

def decodeMember (member : String × Json) : Option (String × Json) :=
  (decodeAny member.2).map fun value => (member.1, value)

theorem decodeAnyMembers_eq (held members : List (String × Json)) :
    decodeAnyMembers held members =
      (members.mapM decodeMember).map
        (List.foldl (fun held member => insertMember member.1 member.2 held) held) := by
  induction members generalizing held with
  | nil => rfl
  | cons member members inductionHypothesis =>
      obtain ⟨name, value⟩ := member
      rw [decodeAnyMembers, List.mapM_cons, decodeMember]
      cases decodeAny value with
      | none => rfl
      | some decoded =>
          show decodeAnyMembers (insertMember name decoded held) members = _
          rw [inductionHypothesis]
          cases members.mapM decodeMember <;> rfl

theorem foldl_insertMember_of_inOrder (ordered : InOrder (held ++ members)) :
    members.foldl (fun held member => insertMember member.1 member.2 held) held = held ++ members := by
  induction members generalizing held with
  | nil => exact (List.append_nil held).symm
  | cons member members inductionHypothesis =>
      have last : ∀ other ∈ held, other.1 < member.1 := by
        intro other listed
        exact (List.pairwise_append.mp ordered).2.2 other listed member List.mem_cons_self
      have whole : held ++ member :: members = (held ++ [member]) ++ members := by simp
      rw [whole] at ordered
      rw [List.foldl_cons, insertMember_last last, inductionHypothesis ordered, whole]

/-- Members that are put into others one by one are in order, and nothing else is put there. -/
theorem foldl_insertMember_keeps {fine : String × Json → Prop} {entries : List (String × Json)}
    (ordered : InOrder held) (heldFine : ∀ member ∈ held, fine member)
    (entriesFine : ∀ member ∈ entries, fine member) :
    InOrder (entries.foldl (fun held member => insertMember member.1 member.2 held) held) ∧
      ∀ member ∈ entries.foldl (fun held member => insertMember member.1 member.2 held) held,
        fine member := by
  induction entries generalizing held with
  | nil => exact ⟨ordered, heldFine⟩
  | cons entry entries inductionHypothesis =>
      obtain ⟨first, others⟩ := List.forall_mem_cons.mp entriesFine
      refine inductionHypothesis (ordered.insertMember entry.1 entry.2) ?_ others
      intro member listed
      rcases mem_of_mem_insertMember listed with rfl | earlier
      · exact first
      · exact heldFine member earlier

theorem decodeMember_eq_some_iff {entry : String × Json} :
    decodeMember (entry.1, value) = some entry ↔ decodeAny value = some entry.2 := by
  obtain ⟨name, held⟩ := entry
  simp [decodeMember]

theorem keys_of_mapM_decodeMember {entries : List (String × Json)}
    (read : members.mapM decodeMember = some entries) :
    entries.map Prod.fst = members.map Prod.fst := by
  induction mapM_eq_some_iff.mp read with
  | nil => rfl
  | cons decoded _ inductionHypothesis =>
      obtain ⟨value, -, rfl⟩ := Option.map_eq_some_iff.mp decoded
      rw [List.map_cons, List.map_cons, inductionHypothesis (mapM_eq_some_iff.mpr ‹_›)]

theorem inOrder_of_keys {entries : List (String × Json)} (ordered : InOrder members)
    (keys : entries.map Prod.fst = members.map Prod.fst) : InOrder entries := by
  have known : (members.map Prod.fst).Pairwise (· < ·) := List.pairwise_map.mpr ordered
  rw [← keys] at known
  exact List.pairwise_map.mp known

theorem decodeAny_obj_eq_iff_of_keys {others : List (String × Json)} (ordered : InOrder members)
    (keys : others.map Prod.fst = members.map Prod.fst) :
    decodeAny (.obj others) = some (.obj members) ↔ others.mapM decodeMember = some members := by
  rw [Json.decodeAny, decodeAnyMembers_eq]
  cases read : others.mapM decodeMember with
  | none => simp
  | some entries =>
      have sorted : InOrder ([] ++ entries) :=
        inOrder_of_keys ordered ((keys_of_mapM_decodeMember read).trans keys)
      simp [foldl_insertMember_of_inOrder sorted]

/-- A value as decoding leaves it: readable throughout, with the members of objects in order. -/
inductive IsCanonical : Json → Prop where
  | null : IsCanonical .null
  | bool (value : Bool) : IsCanonical (.bool value)
  | int (value : Int) : IsCanonical (.int value)
  | float (value : Binary64) : IsCanonical (.float value)
  | str (text : String) : IsCanonical (.str text)
  | arr {items : List Json} (each : ∀ item ∈ items, IsCanonical item) : IsCanonical (.arr items)
  | obj {members : List (String × Json)} (ordered : InOrder members)
      (each : ∀ member ∈ members, IsCanonical member.2) : IsCanonical (.obj members)

theorem FitsAt.decodeAny (fits : FitsAt depth value) (decoded : decodeAny value = some result) :
    FitsAt depth result ∧ IsCanonical result := by
  induction fits generalizing result with
  | null =>
      cases decoded
      exact ⟨.null, .null⟩
  | bool value =>
      cases decoded
      exact ⟨.bool value, .bool value⟩
  | int least greatest =>
      cases decoded
      exact ⟨.int least greatest, .int _⟩
  | float value =>
      cases decoded
      exact ⟨.float value, .float value⟩
  | str text =>
      cases decoded
      exact ⟨.str text, .str text⟩
  | @arr depth items shallow fit inductionHypothesis =>
      obtain ⟨results, made, rfl⟩ := Option.map_eq_some_iff.mp decoded
      rw [decodeAnyItems_eq_mapM, mapM_eq_some_iff] at made
      have each : ∀ item ∈ results, FitsAt (depth + 1) item ∧ IsCanonical item := by
        intro item listed
        obtain ⟨source, known, decodes⟩ := exists_source made listed
        exact inductionHypothesis source known decodes
      exact ⟨.arr shallow fun item listed => (each item listed).1,
        .arr fun item listed => (each item listed).2⟩
  | @obj depth members shallow fit inductionHypothesis =>
      obtain ⟨results, made, rfl⟩ := Option.map_eq_some_iff.mp decoded
      rw [decodeAnyMembers_eq] at made
      obtain ⟨entries, read, rfl⟩ := Option.map_eq_some_iff.mp made
      have each : ∀ member ∈ entries, FitsAt (depth + 1) member.2 ∧ IsCanonical member.2 := by
        intro member listed
        obtain ⟨source, known, decodes⟩ := exists_source (mapM_eq_some_iff.mp read) listed
        obtain ⟨value, valueDecodes, rfl⟩ := Option.map_eq_some_iff.mp decodes
        exact inductionHypothesis source known valueDecodes
      obtain ⟨ordered, fine⟩ := foldl_insertMember_keeps List.Pairwise.nil (List.forall_mem_nil _) each
      exact ⟨.obj shallow fun member listed => (fine member listed).1,
        .obj ordered fun member listed => (fine member listed).2⟩
  | unreadable => cases decoded

/-! ### Reading again -/

mutual

def doubles : Json → List Binary64
  | .float double => [double]
  | .arr items => doublesOfItems items
  | .obj members => doublesOfMembers members
  | _ => []

def doublesOfItems : List Json → List Binary64
  | [] => []
  | item :: items => item.doubles ++ doublesOfItems items

def doublesOfMembers : List (String × Json) → List Binary64
  | [] => []
  | (_, value) :: members => value.doubles ++ doublesOfMembers members

end

theorem doublesOfItems_eq_flatMap (items : List Json) : doublesOfItems items = items.flatMap doubles := by
  induction items with
  | nil => rfl
  | cons item items inductionHypothesis =>
      rw [doublesOfItems, inductionHypothesis, List.flatMap_cons]

theorem doublesOfMembers_eq_flatMap (members : List (String × Json)) :
    doublesOfMembers members = members.flatMap fun member => member.2.doubles := by
  induction members with
  | nil => rfl
  | cons member members inductionHypothesis =>
      rw [doublesOfMembers, inductionHypothesis, List.flatMap_cons]

theorem keys_rereadMembers (members : List (String × Json)) :
    (rereadMembers members).map Prod.fst = members.map Prod.fst := by
  rw [rereadMembers_eq_map, List.map_map]
  rfl

theorem decodeAny_eq_float_iff {double : Binary64} :
    decodeAny value = some (.float double) ↔ value = .float double := by
  cases value with
  | arr items => simp [Json.decodeAny]
  | obj members => simp [Json.decodeAny]
  | _ => simp [Json.decodeAny]

/-- A decoded value survives being written and read again just if each of its doubles does. -/
theorem IsCanonical.decodeAny_reread_iff (canonical : IsCanonical value) :
    decodeAny value.reread = some value ↔ ∀ double ∈ value.doubles, ReadsBack double := by
  induction canonical with
  | null => simp [reread, doubles, Json.decodeAny]
  | bool value => simp [reread, doubles, Json.decodeAny]
  | int value => simp [reread, doubles, Json.decodeAny]
  | float value => simp [reread, doubles, decodeAny_eq_float_iff, readsBack_iff]
  | str text => simp [reread, doubles, Json.decodeAny]
  | @arr items each inductionHypothesis =>
      have decoded : decodeAny (Json.arr items).reread = some (.arr items) ↔
          ∀ item ∈ items, decodeAny item.reread = some item := by
        rw [reread, Json.decodeAny, rereadItems_eq_map, decodeAnyItems_eq_mapM,
          Option.map_eq_some_iff]
        simp only [Json.arr.injEq, exists_eq_right, mapM_eq_some_iff, List.forall₂_map_left_iff,
          List.forall₂_same]
      rw [decoded, doubles, doublesOfItems_eq_flatMap, List.forall_mem_flatMap]
      exact forall₂_congr inductionHypothesis
  | @obj members ordered each inductionHypothesis =>
      have decoded : decodeAny (Json.obj members).reread = some (.obj members) ↔
          ∀ member ∈ members, decodeAny member.2.reread = some member.2 := by
        rw [reread, decodeAny_obj_eq_iff_of_keys ordered (keys_rereadMembers members),
          rereadMembers_eq_map, mapM_eq_some_iff, List.forall₂_map_left_iff, List.forall₂_same]
        exact forall₂_congr fun member _ => decodeMember_eq_some_iff
      rw [decoded, doubles, doublesOfMembers_eq_flatMap, List.forall_mem_flatMap]
      exact forall₂_congr inductionHypothesis

end BackupClient.Json
