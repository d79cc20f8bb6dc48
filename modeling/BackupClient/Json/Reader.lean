import BackupClient.Json.Token

/-!
JSON values from tokens.

The reader is a stack machine that is folded over the tokens: each container that is still open is a
frame.  Containers may nest 127 deep; one that is nested deeper is `unreadable`.
-/

namespace BackupClient.Json

/-- A container that is still open, with what it holds so far, last first. -/
inductive Frame where
  | items (done : List Json)
  | members (done : List (Option String × Json)) (key : Option String)
  deriving DecidableEq

inductive Expectation where
  | value
  | valueOrClose
  | key
  | keyOrClose
  | colon
  | separator
  deriving DecidableEq

structure Builder where
  frames : List Frame
  expectation : Expectation
  result : Option Json
  deriving DecidableEq

def depthLimit : Nat := 127

namespace Builder

def start : Builder :=
  ⟨[], .value, none⟩

def complete (frames : List Frame) (value : Json) : Builder :=
  match frames with
  | [] => ⟨[], .separator, some value⟩
  | .items done :: outer => ⟨.items (value :: done) :: outer, .separator, none⟩
  | .members done key :: outer => ⟨.members ((key, value) :: done) none :: outer, .separator, none⟩

/-- The object of some members, last first. -/
def closeMembers (done : List (Option String × Json)) : Json :=
  match done.reverse.mapM fun (key, value) => key.map fun name => (name, value) with
  | some members => .obj members
  | none => .unreadable

/-- The value of a container that ends with the given frames around it. -/
def limited (outer : List Frame) (value : Json) : Json :=
  if outer.length < depthLimit then value else .unreadable

/-- Read a token where a value is due. -/
def stepValue (frames : List Frame) : Token → Option Builder
  | .openArray => some ⟨.items [] :: frames, .valueOrClose, none⟩
  | .openObject => some ⟨.members [] none :: frames, .keyOrClose, none⟩
  | .scalar value => some (complete frames value)
  | .text (some content) => some (complete frames (.str content))
  | .text none => some (complete frames .unreadable)
  | _ => none

def closeArray : List Frame → Option Builder
  | .items done :: outer => some (complete outer (limited outer (.arr done.reverse)))
  | _ => none

def closeObject : List Frame → Option Builder
  | .members done _ :: outer => some (complete outer (limited outer (closeMembers done)))
  | _ => none

def setKey (content : Option String) : List Frame → Option Builder
  | .members done _ :: outer => some ⟨.members done content :: outer, .colon, none⟩
  | _ => none

def step (builder : Builder) (token : Token) : Option Builder :=
  match builder.expectation, token with
  | .value, _ => stepValue builder.frames token
  | .valueOrClose, .closeArray => closeArray builder.frames
  | .valueOrClose, _ => stepValue builder.frames token
  | .key, .text content => setKey content builder.frames
  | .keyOrClose, .text content => setKey content builder.frames
  | .keyOrClose, .closeObject => closeObject builder.frames
  | .colon, .colon => some { builder with expectation := .value }
  | .separator, .closeArray => closeArray builder.frames
  | .separator, .closeObject => closeObject builder.frames
  | .separator, .comma =>
      match builder.frames with
      | [] => none
      | .items _ :: _ => some { builder with expectation := .value }
      | .members _ _ :: _ => some { builder with expectation := .key }
  | _, _ => none

def finish (builder : Builder) : Option Json :=
  if builder.frames.isEmpty then builder.result else none

end Builder

def ofTokens? (tokens : List Token) : Option Json :=
  (tokens.foldlM Builder.step Builder.start).bind Builder.finish

def parse? (text : List Char) : Option Json :=
  (tokens? text).bind ofTokens?

end BackupClient.Json
