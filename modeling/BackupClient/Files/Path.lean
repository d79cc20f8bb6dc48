/-!
Paths of files.

A path is a text.  Two paths are the same when they have the same components: separators may be doubled
or stand at the end, and a dot counts only at the front of a path that does not start at the root.
-/

namespace BackupClient.Path

inductive Component where
  | root
  | current
  | parent
  | name (text : List Char)
  deriving DecidableEq, Repr

def pieces : List Char → List (List Char)
  | [] => [[]]
  | char :: rest =>
      if char = '/' then [] :: pieces rest
      else
        match pieces rest with
        | [] => [[char]]
        | piece :: others => (char :: piece) :: others

def component? (piece : List Char) : Option Component :=
  match piece with
  | [] => none
  | ['.'] => none
  | ['.', '.'] => some .parent
  | _ => some (.name piece)

def components (path : List Char) : List Component :=
  match path with
  | '/' :: rest => .root :: (pieces rest).filterMap component?
  | _ =>
      match pieces path with
      | ['.'] :: others => .current :: others.filterMap component?
      | all => all.filterMap component?

/-- The components of the directory that a path lies in.  The root and the empty path lie nowhere. -/
def parent? (path : List Char) : Option (List Component) :=
  match (components path).reverse with
  | [] => none
  | [.root] => none
  | _ :: above => some above.reverse

def fileName? (path : List Char) : Option (List Char) :=
  match (components path).reverse with
  | .name text :: _ => some text
  | _ => none

/-- A path continued by another one.  One that starts at the root stands alone. -/
def join (path other : List Char) : List Char :=
  match other with
  | '/' :: _ => other
  | _ =>
      match path.reverse with
      | [] => other
      | '/' :: _ => path ++ other
      | _ => path ++ '/' :: other

def isAbsolute (path : List Char) : Bool :=
  path.head? == some '/'

end BackupClient.Path
