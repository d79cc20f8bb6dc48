import BackupClient.Files.Path
import BackupClient.Text.Utf8

/-!
A tree of directories, files and symbolic links, with the few operations that the client needs.
-/

namespace BackupClient.Files

inductive Entry where
  | directory
  | file (content : List UInt8)
  | link (target : List Char)
  deriving DecidableEq

/-- A place: the names on the way from the root. -/
abbrev Place := List (List Char)

/-- A tree, as the list of its places.  The root is always a directory. -/
abbrev Tree := List (Place × Entry)

inductive FileError where
  | notFound
  | notDirectory
  | isDirectory
  | exists
  | tooManyLinks
  | nameTooLong
  | nulInName
  | notText
  deriving DecidableEq, Repr

def FileError.message : FileError → String
  | .notFound => "No such file or directory (os error 2)"
  | .notDirectory => "Not a directory (os error 20)"
  | .isDirectory => "Is a directory (os error 21)"
  | .exists => "File exists (os error 17)"
  | .tooManyLinks => "Too many levels of symbolic links (os error 40)"
  | .nameTooLong => "File name too long (os error 36)"
  | .nulInName => "file name contained an unexpected NUL byte"
  | .notText => "stream did not contain valid UTF-8"

inductive Step where
  | stay
  | up
  | down (name : List Char)
  deriving DecidableEq

/-- The step of a piece between separators.  An empty piece at the end asks for a directory. -/
def stepOf (piece : List Char) : Step :=
  match piece with
  | [] => .stay
  | ['.'] => .stay
  | ['.', '.'] => .up
  | _ => .down piece

def steps (path : List Char) : List Step :=
  (Path.pieces path).map stepOf

def linkLimit : Nat := 40

/-- The longest name, in bytes. -/
def nameLimit : Nat := 255

namespace Tree

def entry? (tree : Tree) (place : Place) : Option Entry :=
  if place.isEmpty then some .directory else (tree.find? (·.1 = place)).map (·.2)

def put (tree : Tree) (place : Place) (entry : Entry) : Tree :=
  (place, entry) :: tree.filter (·.1 ≠ place)

/-- Follow steps from a place, at most a number of links.  The last step may lead to a place where there
is nothing. -/
def walk (tree : Tree) (links : Nat) (place : Place) (steps : List Step) :
    Except FileError Place :=
  match steps with
  | [] => .ok place
  | step :: rest =>
      match tree.entry? place with
      | none => .error .notFound
      | some .directory =>
          match step with
          | .stay => walk tree links place rest
          | .up => walk tree links place.dropLast rest
          | .down name =>
              if (Text.Utf8.encode name).length > nameLimit then .error .nameTooLong
              else
                match tree.entry? (place ++ [name]) with
                | some (.link target) =>
                    match links with
                    | 0 => .error .tooManyLinks
                    | links + 1 =>
                        if target.isEmpty then .error .notFound
                        else
                          walk tree links (if Path.isAbsolute target then [] else place)
                            (Files.steps target ++ rest)
                | _ => walk tree links (place ++ [name]) rest
      | some _ => .error .notDirectory
termination_by (links, steps.length)

/-- The place that a path leads to.  Paths that do not start at the root lead nowhere. -/
def resolve (tree : Tree) (path : List Char) : Except FileError Place :=
  if path.contains (Char.ofNat 0) then .error .nulInName
  else if Path.isAbsolute path then tree.walk linkLimit [] (steps path)
  else .error .notFound

def inspect (tree : Tree) (path : List Char) : Except FileError Entry :=
  match tree.resolve path with
  | .error error => .error error
  | .ok place =>
      match tree.entry? place with
      | none => .error .notFound
      | some entry => .ok entry

def isDirectory (tree : Tree) (path : List Char) : Bool :=
  match tree.inspect path with
  | .ok .directory => true
  | _ => false

def read (tree : Tree) (path : List Char) : Except FileError (List UInt8) :=
  match tree.inspect path with
  | .error error => .error error
  | .ok (.file content) => .ok content
  | .ok _ => .error .isDirectory

def readText (tree : Tree) (path : List Char) : Except FileError (List Char) :=
  match tree.read path with
  | .error error => .error error
  | .ok content =>
      match Text.Utf8.decode? content with
      | some text => .ok text
      | none => .error .notText

/-- Cut the last name off a path, with the separators after it. -/
def splitLast (path : List Char) : List Char × List Char :=
  let bare := (path.reverse.dropWhile (· == '/')).reverse
  let name := (bare.reverse.takeWhile (· != '/')).reverse
  (bare.take (bare.length - name.length), name)

/-- Make one directory.  A link at its place counts as something that is there. -/
def makeDirectory (tree : Tree) (path : List Char) : Except FileError Tree :=
  if path.contains (Char.ofNat 0) then .error .nulInName
  else
    let (above, name) := splitLast path
    if !Path.isAbsolute path then .error .notFound
    else
      match tree.walk linkLimit [] (steps above) with
      | .error error => .error error
      | .ok place =>
          match tree.entry? place with
          | none => .error .notFound
          | some .directory =>
              match stepOf name with
              | .down name =>
                  if (Text.Utf8.encode name).length > nameLimit then .error .nameTooLong
                  else if (tree.entry? (place ++ [name])).isSome then .error .exists
                  else .ok (tree.put (place ++ [name]) .directory)
              | _ => .error .exists
          | some _ => .error .notDirectory

/-- The paths of a directory and of all those above it, the nearest first. -/
def ancestors : Nat → List Char → List (List Char)
  | 0, _ => []
  | fuel + 1, path =>
      let (above, name) := splitLast path
      if name.isEmpty then [] else path :: ancestors fuel above

/-- Make directories in turn.  One that is there already is passed over. -/
def makeEach (tree : Tree) : List (List Char) → Except FileError Tree
  | [] => .ok tree
  | path :: rest =>
      match tree.makeDirectory path with
      | .ok tree => makeEach tree rest
      | .error error => if tree.isDirectory path then makeEach tree rest else .error error

/-- Make the first directory upwards that can be made, then those below it. -/
def makeUpwards (tree : Tree) (below : List (List Char)) :
    List (List Char) → Except FileError Tree
  | [] => makeEach tree below
  | path :: above =>
      match tree.makeDirectory path with
      | .ok tree => makeEach tree below
      | .error .notFound => makeUpwards tree (path :: below) above
      | .error error => if tree.isDirectory path then makeEach tree below else .error error

def makeDirectories (tree : Tree) (path : List Char) : Except FileError Tree :=
  makeUpwards tree [] (ancestors path.length path)

/-- Put an entry at a path, with the directories above it. -/
def install (tree : Tree) (path : List Char) (entry : Entry) : Tree :=
  let (above, name) := splitLast path
  let tree := (tree.makeDirectories above).toOption.getD tree
  match tree.walk linkLimit [] (steps above) with
  | .ok place => tree.put (place ++ [name]) entry
  | .error _ => tree

end Tree

end BackupClient.Files
