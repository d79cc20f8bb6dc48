import BackupClient.Json.Printer

/-!
Canonical documents: the keys of every object in alphabetical order.
-/

namespace BackupClient.Json

mutual

/-- The same document with its keys in order. -/
def canonical : Json → Json
  | .arr items => .arr (canonicalItems items)
  | .obj members => .obj ((canonicalMembers members).mergeSort fun left right => left.1 ≤ right.1)
  | value => value

def canonicalItems : List Json → List Json
  | [] => []
  | item :: items => item.canonical :: canonicalItems items

def canonicalMembers : List (String × Json) → List (String × Json)
  | [] => []
  | (name, value) :: members => (name, value.canonical) :: canonicalMembers members

end

def sortByText (values : List Json) : List Json :=
  ((values.map fun value => (value.canonical.render, value)).mergeSort
    fun left right => left.1 ≤ right.1).map (·.2)

end BackupClient.Json
