/-!
# UTF-8

Texts are written as bytes and read back.  Bytes that are not well-formed are
reported with the place of the first fault, or each faulty stretch is put out
for one replacement character.
-/

namespace ScriptBridge

/-- A sequence of bytes. -/
abbrev Bytes := List UInt8

namespace Utf8

/-- The bytes of a text. -/
def encode (text : String) : Bytes :=
  text.toUTF8.data.toList

/-- The first thing in a sequence of bytes. -/
inductive Head where
  /-- A character and the bytes behind it. -/
  | character (value : Char) (rest : Bytes)
  /-- So many bytes that start no character. -/
  | invalid (length : Nat)
  /-- The start of a character that is not completed. -/
  | incomplete

/-- How a first byte goes on: how many bytes follow, the bits it holds, and the
bounds of the second byte. -/
def lead? (byte : UInt8) : Option (Nat × Nat × Nat × Nat) :=
  let value := byte.toNat
  if value < 0xC2 then none
  else if value < 0xE0 then some (1, value - 0xC0, 0x80, 0xBF)
  else if value = 0xE0 then some (2, 0, 0xA0, 0xBF)
  else if value = 0xED then some (2, 0xD, 0x80, 0x9F)
  else if value < 0xF0 then some (2, value - 0xE0, 0x80, 0xBF)
  else if value = 0xF0 then some (3, 0, 0x90, 0xBF)
  else if value < 0xF4 then some (3, value - 0xF0, 0x80, 0xBF)
  else if value = 0xF4 then some (3, 4, 0x80, 0x8F)
  else none

/-- Read the bytes behind a first byte, given the bounds of the next one. -/
def follow (read code low high : Nat) : Nat → Bytes → Head
  | 0, rest => .character (Char.ofNat code) rest
  | _ + 1, [] => .incomplete
  | left + 1, byte :: rest =>
      if low ≤ byte.toNat && byte.toNat ≤ high then
        follow (read + 1) (64 * code + (byte.toNat - 0x80)) 0x80 0xBF left rest
      else .invalid read

/-- Read the first character. -/
def head (first : UInt8) (rest : Bytes) : Head :=
  if first.toNat < 0x80 then .character (Char.ofNat first.toNat) rest
  else
    match lead? first with
    | some (left, code, low, high) => follow 1 code low high left rest
    | none => .invalid 1

/-- Why bytes are not a text: a fault of so many bytes at an index, or an
incomplete end from an index on. -/
inductive Fault where
  | invalid (length index : Nat)
  | incomplete (index : Nat)
  deriving DecidableEq, Repr

/-- The message of a fault. -/
def Fault.message : Fault → String
  | .invalid length index =>
      "invalid utf-8 sequence of " ++ toString length ++ " bytes from index " ++ toString index
  | .incomplete index =>
      "incomplete utf-8 byte sequence from index " ++ toString index

/-- Read characters, at most so many, with those read so far in reverse. -/
def decodeFrom (index : Nat) (gathered : List Char) :
    Nat → Bytes → Except Fault String
  | 0, _ => .ok (String.ofList gathered.reverse)
  | _ + 1, [] => .ok (String.ofList gathered.reverse)
  | bound + 1, first :: rest =>
      match head first rest with
      | .character value after =>
          decodeFrom (index + value.utf8Size) (value :: gathered) bound after
      | .invalid length => .error (.invalid length index)
      | .incomplete => .error (.incomplete index)

/-- The text that bytes stand for. -/
def decode (bytes : Bytes) : Except Fault String :=
  decodeFrom 0 [] bytes.length bytes

/-- Read characters, at most so many, with a replacement for each fault. -/
def repairFrom (gathered : List Char) : Nat → Bytes → String
  | 0, _ => String.ofList gathered.reverse
  | _ + 1, [] => String.ofList gathered.reverse
  | bound + 1, first :: rest =>
      match head first rest with
      | .character value after => repairFrom (value :: gathered) bound after
      | .invalid length =>
          repairFrom ('\ufffd' :: gathered) bound ((first :: rest).drop length)
      | .incomplete => String.ofList ('\ufffd' :: gathered).reverse

/-- The text that bytes stand for, with a replacement character for each fault. -/
def repair (bytes : Bytes) : String :=
  repairFrom [] bytes.length bytes

end Utf8

end ScriptBridge
