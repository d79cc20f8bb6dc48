import BackupClient.Json.Basic

/-!
Decoding records from JSON values.

A record is an object with the record's names as keys, in any order and among other keys, or an array
with the record's values in the order of the names.  An object gives no name twice; an array has no more
values than there are names.
-/

namespace BackupClient.Json

structure Fields where
  given : List (String × Json)
  positional : Bool
  deriving DecidableEq

def repeatsName (names : List String) (members : List (String × Json)) : Bool :=
  names.any fun name => (members.filter (·.1 = name)).length > 1

/-- The fields of a record, other keys ignored. -/
def fields? (names : List String) (value : Json) : Option Fields :=
  match value with
  | .obj members =>
      if repeatsName names members then none
      else some ⟨members.filter fun member => names.contains member.1, false⟩
  | .arr items => if items.length ≤ names.length then some ⟨names.zip items, true⟩ else none
  | _ => none

def strictFields? (names : List String) (value : Json) : Option Fields :=
  match value with
  | .obj members => if members.all (names.contains ·.1) then fields? names value else none
  | _ => fields? names value

namespace Fields

def find? (fields : Fields) (name : String) : Option Json :=
  member? name fields.given

def required {α : Type} (fields : Fields) (name : String) (decode : Json → Option α) : Option α :=
  (fields.find? name).bind decode

/-- A field with a value of its own where none is given. -/
def withDefault {α : Type} (fields : Fields) (name : String) (missing : α)
    (decode : Json → Option α) : Option α :=
  match fields.find? name with
  | some value => decode value
  | none => some missing

end Fields

/-- Decode `null` as nothing and any other value as something. -/
def decodeOption {α : Type} (decode : Json → Option α) : Json → Option (Option α)
  | .null => some none
  | value => (decode value).map some

/-- An optional field: an object may leave it out, an array may not. -/
def Fields.optional {α : Type} (fields : Fields) (name : String) (decode : Json → Option α) :
    Option (Option α) :=
  match fields.find? name with
  | some value => decodeOption decode value
  | none => if fields.positional then none else some none

def decodeBool : Json → Option Bool
  | .bool value => some value
  | _ => none

def decodeString : Json → Option String
  | .str text => some text
  | _ => none

def decodeNat (bound : Nat) : Json → Option Nat
  | .int value => if 0 ≤ value ∧ value < bound then some value.toNat else none
  | _ => none

def decodeInt64 : Json → Option Int
  | .int value => if -(Nat.pow 2 63) ≤ value ∧ value < Nat.pow 2 63 then some value else none
  | _ => none

def decodeDouble : Json → Option Binary64
  | .int value => some (Binary64.ofInt value)
  | .float value => some value
  | _ => none

def decodeList {α : Type} (decode : Json → Option α) : Json → Option (List α)
  | .arr items => items.mapM decode
  | _ => none

/-- A name out of an enumeration: the name alone, or an object that maps the name to `null`. -/
def decodeName : Json → Option String
  | .str name => some name
  | .obj [(name, .null)] => some name
  | _ => none

/-- Put a member into a list that is sorted by key, in place of one with the same key. -/
def insertMember (name : String) (value : Json) : List (String × Json) → List (String × Json)
  | [] => [(name, value)]
  | (other, held) :: rest =>
      if name < other then (name, value) :: (other, held) :: rest
      else if name = other then (name, value) :: rest
      else (other, held) :: insertMember name value rest

mutual

/-- Any readable value.  Keys are sorted, and of several equal keys the last one counts. -/
def decodeAny : Json → Option Json
  | .unreadable => none
  | .arr items => (decodeAnyItems items).map .arr
  | .obj members => (decodeAnyMembers [] members).map .obj
  | value => some value

def decodeAnyItems : List Json → Option (List Json)
  | [] => some []
  | item :: items => do
      let value ← decodeAny item
      let values ← decodeAnyItems items
      some (value :: values)

/-- Readable members, put into those that are already there. -/
def decodeAnyMembers (held : List (String × Json)) :
    List (String × Json) → Option (List (String × Json))
  | [] => some held
  | (name, value) :: members => do
      let value ← decodeAny value
      decodeAnyMembers (insertMember name value held) members

end

def ofOption {α : Type} (encode : α → Json) : Option α → Json
  | none => .null
  | some value => encode value

def ofList {α : Type} (encode : α → Json) (values : List α) : Json :=
  .arr (values.map encode)

def ofNat (number : Nat) : Json :=
  .int number

end BackupClient.Json
