import BackupClient.Json.Reader
import BackupClient.Log.Record
import BackupClient.Text.Blank

/-!
Decoding the lines of the engine's log.

A line that holds no record is skipped: text of other kinds, records of an unknown kind and records that
lack something.
-/

namespace BackupClient.Log

def kindOf? (value : Json) : Option RecordKind := do
  let fields ← value.fields? ["type"]
  fields.required "type" RecordKind.ofJson?

def decodeLine (line : List Char) : Option LogRecord := do
  let text := Text.trim line
  if text.head? = some '\x7b' then
    let value ← Json.parse? text
    let kind ← kindOf? value
    LogRecord.ofJson? kind value
  else none

def decodeLines (lines : List String) : List LogRecord :=
  lines.filterMap fun line => decodeLine line.toList

end BackupClient.Log
