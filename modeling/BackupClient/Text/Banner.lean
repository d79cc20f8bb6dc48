import BackupClient.Text.Blank

/-!
Separating a JSON document from the text an engine prints before it.

The document begins with the first line whose first character, blanks aside, opens an object.
-/

namespace BackupClient.Text

structure Sanitized where
  banner : List Char
  document : List Char
  deriving DecidableEq, Repr

def opensObject (line : List Char) : Bool :=
  (trimStart line).head? = some '\x7b'

/-- Cut output at the first line that opens an object.  Without such a line all of it is the
document. -/
def sanitize (raw : List Char) : Sanitized :=
  let trimmed := trim raw
  let pieces := segments trimmed
  let banner := pieces.takeWhile (!opensObject ·)
  if banner.length < pieces.length then
    ⟨trimEnd banner.flatten, trimStart (pieces.drop banner.length).flatten⟩
  else ⟨[], trimmed⟩

end BackupClient.Text
