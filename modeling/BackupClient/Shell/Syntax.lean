/-!
The syntax of shell scripts.

Words are kept in parts, so that expansions can tell what was quoted.  Commands inside of words are kept
as text and read when they are carried out.
-/

namespace BackupClient.Shell

/-- What a word takes of a parameter: its value, the length of that, another word where it is missing
(`-`, `=`, `?`) or present (`+`), empty values counting as missing or not, or its value without a part at
the start or the end that matches a pattern. -/
inductive ParameterUse where
  | value
  | size
  | guarded (mark : Char) (orEmpty : Bool) (word : List Char)
  | trimmed (fromEnd longest : Bool) (pattern : List Char)
  deriving DecidableEq, Repr

inductive Part where
  | text (chars : List Char) (quoted : Bool)
  | parameter (name : List Char) (use : ParameterUse) (quoted : Bool)
  | arithmetic (source : List Char) (quoted : Bool)
  | command (source : List Char) (quoted : Bool)
  | captured (chars : List Char) (quoted : Bool)
  deriving DecidableEq, Repr

abbrev Word := List Part

/-- What a descriptor is made to be: a file that is read, written or written at its end, a copy of another
descriptor or closed, or a document. -/
inductive RedirectTarget where
  | source (path : Word)
  | sink (path : Word) (appending : Bool)
  | copy (descriptor : Word)
  | document (text : Word)
  deriving DecidableEq, Repr

structure Redirect where
  descriptor : Nat
  target : RedirectTarget
  deriving DecidableEq, Repr

/-- A command that runs as a whole: variables that it sets, its words and its redirects, with the number
of its line. -/
structure SimpleCommand where
  line : Nat
  assignments : List (List Char × Word)
  words : List Word
  redirects : List Redirect
  deriving DecidableEq, Repr

inductive Command where
  | simple (command : SimpleCommand)
  | sequence (commands : List Command)
  | subshell (body : Command)
  | redirected (body : Command) (redirects : List Redirect)
  | conditional (test body otherwise : Command)
  | loop (whileTrue : Bool) (test body : Command)
  | each (name : List Char) (items : Option (List Word)) (body : Command)
  | choice (subject : Word) (arms : List (List Word × Command))
  | both (whenTrue : Bool) (left right : Command)
  | negated (body : Command)
  | pipe (left right : Command)
  | background (body : Command)
  | define (name : List Char) (body : Command)

def Command.nothing : Command :=
  .sequence []

end BackupClient.Shell
