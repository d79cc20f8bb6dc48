import BackupClient.Files.Tree
import BackupClient.Json.Lenient
import BackupClient.Text.Decimal

/-!
Trees of files described by JSON documents.
-/

namespace BackupClient.Files

def hexValue (char : Char) : Nat :=
  if Text.Decimal.isDigit char then char.toNat - 48 else char.toLower.toNat - 87

def bytesOfHex : List Char → List UInt8
  | high :: low :: rest => (hexValue high * 16 + hexValue low).toUInt8 :: bytesOfHex rest
  | _ => []

/-- Add a directory, a link, or a file that is given by its bytes or its text. -/
def Tree.add (tree : Tree) (value : Json) : Tree :=
  let path := (value.textAt "path").toList
  if (value.get "dir").flag then (tree.makeDirectories path).toOption.getD tree
  else if value.has "link" then tree.install path (.link (value.textAt "link").toList)
  else if value.has "hex" then
    tree.install path (.file (bytesOfHex (value.textAt "hex").toList))
  else tree.install path (.file (Text.Utf8.encode (value.textAt "text").toList))

end BackupClient.Files
