/-!
UTF-8, read strictly or with replacement characters.

The reader is a byte machine: it is either between characters or inside a sequence whose next byte
must lie in a known range.  A sequence that breaks off is one replacement character, and the byte
that broke it is read again from the start.
-/

namespace BackupClient.Text.Utf8

/-- A sequence that has begun: how many bytes are due, the bits so far, the range of the next byte. -/
structure Sequence where
  due : Nat
  bits : Nat
  low : Nat
  high : Nat
  deriving DecidableEq, Repr

inductive Lead where
  | single (char : Char)
  | longer (sequence : Sequence)
  | invalid
  deriving DecidableEq, Repr

def lead (byte : UInt8) : Lead :=
  let code := byte.toNat
  if code < 0x80 then .single (Char.ofNat code)
  else if code < 0xC2 then .invalid
  else if code < 0xE0 then .longer ⟨1, code - 0xC0, 0x80, 0xBF⟩
  else if code = 0xE0 then .longer ⟨2, 0, 0xA0, 0xBF⟩
  else if code = 0xED then .longer ⟨2, 0xD, 0x80, 0x9F⟩
  else if code < 0xF0 then .longer ⟨2, code - 0xE0, 0x80, 0xBF⟩
  else if code = 0xF0 then .longer ⟨3, 0, 0x90, 0xBF⟩
  else if code < 0xF4 then .longer ⟨3, code - 0xF0, 0x80, 0xBF⟩
  else if code = 0xF4 then .longer ⟨3, 4, 0x80, 0x8F⟩
  else .invalid

/-- The character that stands for bytes which are no text. -/
def replacement : Char := Char.ofNat 0xFFFD

/-- One decoded item: a character, or `none` where the bytes are no text. -/
abbrev Item := Option Char

def begin (byte : UInt8) : List Item × Option Sequence :=
  match lead byte with
  | .single char => ([some char], none)
  | .longer sequence => ([], some sequence)
  | .invalid => ([none], none)

def step (state : Option Sequence) (byte : UInt8) : List Item × Option Sequence :=
  match state with
  | none => begin byte
  | some sequence =>
      if sequence.low ≤ byte.toNat ∧ byte.toNat ≤ sequence.high then
        let bits := sequence.bits * 64 + (byte.toNat - 0x80)
        if sequence.due = 1 then ([some (Char.ofNat bits)], none)
        else ([], some ⟨sequence.due - 1, bits, 0x80, 0xBF⟩)
      else
        let (items, next) := begin byte
        (none :: items, next)

/-- All items of a byte string, read from the given state. -/
def items (state : Option Sequence) : List UInt8 → List Item
  | [] => if state.isSome then [none] else []
  | byte :: rest =>
      let (found, next) := step state byte
      found ++ items next rest

/-- The text of a byte string, with a replacement character for each broken sequence. -/
def decodeLossy (bytes : List UInt8) : List Char :=
  (items none bytes).map (·.getD replacement)

def decode? (bytes : List UInt8) : Option (List Char) :=
  (items none bytes).mapM id

def encodeChar (char : Char) : List UInt8 :=
  let code := char.toNat
  if code < 0x80 then [code.toUInt8]
  else if code < 0x800 then [(0xC0 + code / 64).toUInt8, (0x80 + code % 64).toUInt8]
  else if code < 0x10000 then
    [(0xE0 + code / 4096).toUInt8, (0x80 + code / 64 % 64).toUInt8, (0x80 + code % 64).toUInt8]
  else
    [(0xF0 + code / 262144).toUInt8, (0x80 + code / 4096 % 64).toUInt8,
      (0x80 + code / 64 % 64).toUInt8, (0x80 + code % 64).toUInt8]

def encode (chars : List Char) : List UInt8 :=
  chars.flatMap encodeChar

end BackupClient.Text.Utf8
