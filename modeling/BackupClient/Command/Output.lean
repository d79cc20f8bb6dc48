import BackupClient.Text.Utf8

/-!
What a process writes, as text and as lines.

The bytes come in pieces of any size.  A line ends with a line feed, or where the output ends, and bytes
that are no text become replacement characters.
-/

namespace BackupClient

def outputText (bytes : List UInt8) : String :=
  String.ofList (Text.Utf8.decodeLossy bytes)

def lineFeed : UInt8 := 10

/-- Cut line feeds and carriage returns off the end of a text. -/
def trimLineEnd (text : List Char) : List Char :=
  (text.reverse.dropWhile fun char => char == '\n' || char == '\r').reverse

def lineText (bytes : List UInt8) : String :=
  String.ofList (trimLineEnd (Text.Utf8.decodeLossy bytes))

/-- A reader of lines: the bytes of the line that has begun, the latest first. -/
structure LineReader where
  begun : List UInt8
  deriving DecidableEq, Repr

namespace LineReader

def start : LineReader :=
  ⟨[]⟩

def step (reader : LineReader) (byte : UInt8) : Option String × LineReader :=
  if byte = lineFeed then (some (lineText reader.begun.reverse), start)
  else (none, ⟨byte :: reader.begun⟩)

def feed (reader : LineReader) : List UInt8 → List String × LineReader
  | [] => ([], reader)
  | byte :: rest =>
      let (line, reader) := reader.step byte
      let (lines, reader) := feed reader rest
      (line.toList ++ lines, reader)

def finish (reader : LineReader) : List String :=
  if reader.begun.isEmpty then [] else [lineText reader.begun.reverse]

end LineReader

def deliveredLines (pieces : List (List UInt8)) : List String :=
  let (lines, reader) :=
    pieces.foldl
      (fun ((lines, reader) : List String × LineReader) piece =>
        let (more, reader) := reader.feed piece
        (lines ++ more, reader))
      ([], LineReader.start)
  lines ++ reader.finish

end BackupClient
