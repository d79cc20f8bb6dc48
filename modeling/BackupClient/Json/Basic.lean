import BackupClient.Number.Binary64

/-!
JSON values.

Members keep the order in which they were written.  A value that is well formed and yet fits no type
(a string with half of a surrogate pair, a number beyond the range of a double, an object with such a
string as a key, a container nested too deeply) is `unreadable`: it may stand where it is ignored, and
nothing can be decoded from it.
-/

namespace BackupClient

inductive Json where
  | null
  | bool (value : Bool)
  | int (value : Int)
  | float (value : Binary64)
  | str (text : String)
  | arr (items : List Json)
  | obj (members : List (String × Json))
  | unreadable
  deriving Inhabited

namespace Json

mutual

/-- Decide whether two values are equal. -/
def same : Json → Json → Bool
  | .null, .null => true
  | .bool left, .bool right => left == right
  | .int left, .int right => left == right
  | .float left, .float right => left == right
  | .str left, .str right => left == right
  | .arr left, .arr right => sameItems left right
  | .obj left, .obj right => sameMembers left right
  | .unreadable, .unreadable => true
  | _, _ => false

def sameItems : List Json → List Json → Bool
  | [], [] => true
  | left :: lefts, right :: rights => same left right && sameItems lefts rights
  | _, _ => false

def sameMembers : List (String × Json) → List (String × Json) → Bool
  | [], [] => true
  | (leftKey, left) :: lefts, (rightKey, right) :: rights =>
      leftKey == rightKey && same left right && sameMembers lefts rights
  | _, _ => false

end

mutual

theorem eq_of_same : ∀ (left right : Json), same left right = true → left = right
  | .null, right, equal => by cases right <;> simp_all [same]
  | .bool _, right, equal => by cases right <;> simp_all [same]
  | .int _, right, equal => by cases right <;> simp_all [same]
  | .float _, right, equal => by cases right <;> simp_all [same]
  | .str _, right, equal => by cases right <;> simp_all [same]
  | .arr lefts, right, equal => by
      cases right <;> simp only [same, Bool.false_eq_true] at equal
      rw [eq_of_sameItems lefts _ equal]
  | .obj lefts, right, equal => by
      cases right <;> simp only [same, Bool.false_eq_true] at equal
      rw [eq_of_sameMembers lefts _ equal]
  | .unreadable, right, equal => by cases right <;> simp_all [same]

theorem eq_of_sameItems :
    ∀ (lefts rights : List Json), sameItems lefts rights = true → lefts = rights
  | [], rights, equal => by cases rights <;> simp_all [sameItems]
  | left :: lefts, rights, equal => by
      cases rights with
      | nil => simp [sameItems] at equal
      | cons right rights =>
          simp only [sameItems, Bool.and_eq_true] at equal
          rw [eq_of_same left right equal.1, eq_of_sameItems lefts rights equal.2]

theorem eq_of_sameMembers :
    ∀ (lefts rights : List (String × Json)), sameMembers lefts rights = true → lefts = rights
  | [], rights, equal => by cases rights <;> simp_all [sameMembers]
  | (leftKey, left) :: lefts, rights, equal => by
      cases rights with
      | nil => simp [sameMembers] at equal
      | cons right rights =>
          obtain ⟨rightKey, right⟩ := right
          simp only [sameMembers, Bool.and_eq_true, beq_iff_eq] at equal
          rw [equal.1.1, eq_of_same left right equal.1.2, eq_of_sameMembers lefts rights equal.2]

end

mutual

theorem same_self : ∀ value : Json, same value value = true
  | .null => by simp [same]
  | .bool _ => by simp [same]
  | .int _ => by simp [same]
  | .float _ => by simp [same]
  | .str _ => by simp [same]
  | .arr items => by simp [same, sameItems_self items]
  | .obj members => by simp [same, sameMembers_self members]
  | .unreadable => by simp [same]

theorem sameItems_self : ∀ items : List Json, sameItems items items = true
  | [] => by simp [sameItems]
  | item :: items => by simp [sameItems, same_self item, sameItems_self items]

theorem sameMembers_self : ∀ members : List (String × Json), sameMembers members members = true
  | [] => by simp [sameMembers]
  | (_, value) :: members => by simp [sameMembers, same_self value, sameMembers_self members]

end

instance : DecidableEq Json := fun left right =>
  if equal : same left right = true then .isTrue (eq_of_same left right equal)
  else .isFalse fun identical => equal (identical ▸ same_self left)

def member? (name : String) (members : List (String × Json)) : Option Json :=
  (members.find? (·.1 = name)).map (·.2)

end Json

end BackupClient
