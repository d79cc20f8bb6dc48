import BackupClient.Json.Basic

/-!
Tables of a TOML document while they are being filled.

A table is begun by a header, by a header for one of its subtables, or by a dotted key.  Each may be
filled only in the way in which it was begun, and no key is given twice.
-/

namespace BackupClient.Toml

inductive Origin where
  | header
  | subheader
  | dotted
  deriving DecidableEq, Repr

inductive Node where
  | value (value : Json)
  | table (origin : Origin) (entries : List (String × Node))
  | tables (items : List (List (String × Node)))

/-- The keys of a table with what they stand for, in the order in which they were given. -/
abbrev Entries := List (String × Node)

namespace Entries

def find? (key : String) (entries : Entries) : Option Node :=
  (List.find? (·.1 = key) entries).map (·.2)

def set (key : String) (node : Node) : Entries → Entries
  | [] => [(key, node)]
  | (other, held) :: rest =>
      if other = key then (key, node) :: rest else (other, held) :: set key node rest

/-- Change the table that a path of keys leads to.  Tables on the way are begun where there are none, as
the given origin says; one that was begun by a header is closed to dotted keys. -/
def within (origin : Origin) (change : Origin → Entries → Option Entries) :
    List String → Origin → Entries → Option Entries
  | [], reached, entries => change reached entries
  | key :: path, _, entries => do
      match entries.find? key with
      | none => some (entries.set key (.table origin (← within origin change path origin [])))
      | some (.value _) => none
      | some (.table held inner) =>
          if origin = .dotted ∧ held = .header then none
          else some (entries.set key (.table held (← within origin change path held inner)))
      | some (.tables items) =>
          match items.reverse with
          | [] => none
          | last :: earlier =>
              let last ← within origin change path .header last
              some (entries.set key (.tables (last :: earlier).reverse))

def addNew (key : String) (node : Node) (entries : Entries) : Option Entries :=
  match entries.find? key with
  | some _ => none
  | none => some (entries.set key node)

/-- Add the value of a key.  The tables of a dotted key were begun by dotted keys. -/
def assign (path : List String) (key : String) (value : Json) (entries : Entries) :
    Option Entries :=
  within .dotted
    (fun reached inner =>
      if decide (reached = .dotted) == path.isEmpty then none else addNew key (.value value) inner)
    path .header entries

def open? (path : List String) (key : String) (entries : Entries) : Option Entries :=
  within .subheader
    (fun _ inner =>
      match inner.find? key with
      | none => some (inner.set key (.table .header []))
      | some (.table .subheader held) => some (inner.set key (.table .header held))
      | some _ => none)
    path .header entries

def append? (path : List String) (key : String) (entries : Entries) : Option Entries :=
  within .subheader
    (fun _ inner =>
      match inner.find? key with
      | none => some (inner.set key (.tables [[]]))
      | some (.tables items) => some (inner.set key (.tables (items ++ [[]])))
      | some _ => none)
    path .header entries

end Entries

mutual

def Node.toJson : Node → Json
  | .value value => value
  | .table _ entries => .obj (members entries)
  | .tables items => .arr (tableItems items)

def members : List (String × Node) → List (String × Json)
  | [] => []
  | (key, node) :: entries => (key, node.toJson) :: members entries

def tableItems : List (List (String × Node)) → List Json
  | [] => []
  | entries :: items => .obj (members entries) :: tableItems items

end

end BackupClient.Toml
